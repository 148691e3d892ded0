import Mathlib.Data.List.TakeWhile
import Restate.Proofs.Restatement
import Restate.Proofs.Settings.Loading

/-!
# Types moved by a settings file

A target keeps its place among the built-in ones when a file lists new names under it, and the last
list that holds a name counts. So a file moves a type to a target just if no built-in list that
stands behind the target, and that the file leaves as it is, holds the type (`types_moved_iff`).
-/

namespace Restate.Settings

open Text

variable {target name : Text} {names : List Text} {lists : Fields (List Text)}

/-- The lists behind that of the target for which there are no new ones. -/
def listsBehind (base : Fields (List Text)) (target : Text) (lists : Fields (List Text)) :
    Fields (List Text) :=
  (base.dropWhile (·.1 ≠ target)).tail.filter fun entry => (lists.get? entry.1).isNone

section LastEntry

variable {α : Type} {test : Text × α → Bool} {front back : Fields α} {entry other : Text × α}

theorem key_ne_of_mem_back (hkeys : (Fields.keys (front ++ entry :: back)).Nodup)
    (h : other ∈ back) : other.1 ≠ entry.1 := by
  intro heq
  rw [Fields.keys, List.map_append, List.map_cons] at hkeys
  exact (List.nodup_cons.1 (List.nodup_append.1 hkeys).2.1).1 (heq ▸ List.mem_map_of_mem h)

/-- With distinct keys the last entry that passes is a given one just if none behind it does. -/
theorem lastWhere_eq_iff (hkeys : (Fields.keys (front ++ entry :: back)).Nodup)
    (htest : test entry) :
    (Fields.lastWhere test (front ++ entry :: back)).map (·.1) = some entry.1 ↔
      ∀ other ∈ back, ¬ test other := by
  have hsplit : Fields.lastWhere test (front ++ entry :: back) =
      (Fields.lastWhere test back).or (some entry) := by
    rw [List.append_cons, Fields.lastWhere_append, Fields.lastWhere_append,
      Fields.lastWhere_singleton, if_pos htest, Option.some_or]
  rw [hsplit]
  cases hlast : Fields.lastWhere test back with
  | none => simpa using Fields.lastWhere_eq_none_iff.1 hlast
  | some other =>
      obtain ⟨hmem, hother⟩ := Fields.mem_of_lastWhere hlast
      refine iff_of_false ?_ fun hnone => hnone other hmem hother
      simpa using key_ne_of_mem_back hkeys hmem

end LastEntry

/-- Behind a target for which there is a new list stand the old lists behind it, and new ones. -/
theorem exists_split_overlaid {base merged : Fields (List Text)}
    (hmerged : Fields.Overlaid base lists merged) (hbase : base.keys.Nodup)
    (hlists : lists.keys.Nodup) (hlisted : (target, names) ∈ lists) :
    ∃ front back, merged = front ++ (target, names) :: back ∧
      listsBehind base target lists ⊆ back ∧
      ∀ other ∈ back, other ∈ listsBehind base target lists ∨ other ∈ lists := by
  have hnames := Fields.get?_of_mem hlists hlisted
  have hentries := hmerged.eq_append hbase hlists
  by_cases hold : target ∈ base.keys
  · obtain ⟨⟨target, old⟩, hmem, rfl⟩ := List.mem_map.1 hold
    obtain ⟨front, back, rfl⟩ := List.append_of_mem hmem
    rw [Fields.keys, List.map_append, List.map_cons, List.nodup_append] at hbase
    have hfront : ∀ entry ∈ front, entry.1 ≠ target := fun entry hentry =>
      hbase.2.2 _ (List.mem_map_of_mem hentry) _ List.mem_cons_self
    have hbehind : listsBehind (front ++ (target, old) :: back) target lists =
        back.filter fun entry => (lists.get? entry.1).isNone := by
      rw [listsBehind, List.dropWhile_append_of_pos (by simpa using hfront)]
      simp
    rw [List.map_append, List.map_cons, hnames, Option.getD_some, List.append_assoc,
      List.cons_append] at hentries
    refine ⟨_, _, hentries, fun entry hentry => ?_, fun other hother => ?_⟩
    · rw [hbehind] at hentry
      obtain ⟨hmem, hnew⟩ := List.mem_filter.1 hentry
      refine List.mem_append_left _ (List.mem_map.2 ⟨entry, hmem, ?_⟩)
      rw [Option.isNone_iff_eq_none.1 hnew, Option.getD_none]
    · rw [hbehind]
      rcases List.mem_append.1 hother with hother | hother
      · obtain ⟨entry, hmem, rfl⟩ := List.mem_map.1 hother
        cases hnew : lists.get? entry.1 with
        | none => exact .inl (List.mem_filter.2 ⟨hmem, Option.isNone_iff_eq_none.2 hnew⟩)
        | some listed => exact .inr (Fields.mem_of_get? hnew)
      · exact .inr (List.mem_filter.1 hother).1
  · have hmem : (target, names) ∈ lists.filter fun entry => decide (entry.1 ∉ base.keys) :=
      List.mem_filter.2 ⟨hlisted, by simpa using hold⟩
    obtain ⟨front, back, hsplit⟩ := List.append_of_mem hmem
    rw [hsplit, ← List.append_assoc] at hentries
    have hbehind : listsBehind base target lists = [] := by
      have hdrop : base.dropWhile (·.1 ≠ target) = [] := by
        refine List.dropWhile_eq_nil_iff.2 fun entry hentry => ?_
        have hne : entry.1 ≠ target := fun heq => hold (heq ▸ List.mem_map_of_mem hentry)
        simpa using hne
      rw [listsBehind, hdrop]
      rfl
    refine ⟨_, back, hentries, by simp [hbehind], fun other hother => .inr ?_⟩
    have hlater : other ∈ front ++ (target, names) :: back :=
      List.mem_append_right _ (List.mem_cons_of_mem _ hother)
    exact (List.mem_filter.1 (hsplit ▸ hlater)).1

/-- Where the new lists pass under the target only, what is in the way of it are the old lists
behind it. -/
theorem lastWhere_overlaid_iff {base merged : Fields (List Text)}
    {test : Text × List Text → Bool} (hmerged : Fields.Overlaid base lists merged)
    (hbase : base.keys.Nodup) (hlists : lists.keys.Nodup) (hlisted : (target, names) ∈ lists)
    (htest : test (target, names)) (honly : ∀ entry ∈ lists, test entry → entry.1 = target) :
    (Fields.lastWhere test merged).map (·.1) = some target ↔
      ∀ entry ∈ listsBehind base target lists, ¬ test entry := by
  have hkeys : merged.keys.Nodup := by
    rw [hmerged.keys]
    exact hbase.append (hlists.filter _) (by simp +contextual [List.Disjoint])
  obtain ⟨front, back, rfl, hkept, hback⟩ := exists_split_overlaid hmerged hbase hlists hlisted
  rw [lastWhere_eq_iff hkeys htest]
  constructor
  · exact fun hnone entry hentry => hnone entry (hkept hentry)
  · intro hnone other hother hpasses
    rcases hback other hother with hold | hnew
    · exact hnone other hold hpasses
    · exact key_ne_of_mem_back hkeys hother (honly other hnew hpasses)

/-- A name that a file lists under one target only gets that target just if no built-in list behind
it still holds the name. -/
theorem types_moved_iff {source : Source} {overrides : Fields Json} {settings : Settings}
    (hgives : source.Gives overrides) (htypes : overrides.get? "types" = some (typeSection lists))
    (hload : load source = .ok settings) (hlisted : (target, names) ∈ lists)
    (hname : name ∈ names)
    (honly : ∀ entry ∈ lists, ∀ other ∈ entry.2, lower other = lower name → entry.1 = target) :
    settings.types.get? (lower name) = some target ↔
      ∀ entry ∈ listsBehind builtInLists target lists, ∀ other ∈ entry.2,
        lower other ≠ lower name := by
  have hholds : ∀ entry,
      holds (lower name) entry ↔ ∃ other ∈ entry.2, lower other = lower name := by
    simp [holds]
  have hlists : lists.keys.Nodup := by
    simpa using nodup_section hgives.distinct htypes
  have hgiven : overrides.get? "types" = (some lists).map typeSection := htypes
  obtain ⟨merged, hmerged, hsection⟩ :=
    get?_overlay_mapValues hgives.distinct typeSection_builtIn hgiven
  rw [hgives.load_eq] at hload
  rw [get?_types hsection hload, lastWhere_overlaid_iff hmerged (by decide) hlists hlisted
    ((hholds _).2 ⟨name, hname, rfl⟩)]
  · simp only [hholds, not_exists, not_and, ne_eq, Option.getD_some]
  · intro entry hentry hpasses
    obtain ⟨other, hother, heq⟩ := (hholds entry).1 hpasses
    exact honly entry hentry other hother heq

theorem gives_typeSection (lists : Fields (List Text)) (h : lists.keys.Nodup) :
    (Source.value (.obj [("types", typeSection lists)])).Gives [("types", typeSection lists)] := by
  refine .value (.obj (List.nodup_singleton _) ?_)
  rintro entry (_ | ⟨_, ⟨⟩⟩)
  exact distinct_typeSection h

/-- A type moved to a target that stands behind its own. -/
theorem types_moved_varchar :
    ∃ settings, load (.value (.obj [("types", typeSection [("blob", ["varchar"])])])) =
      .ok settings ∧ settings.types.get? "varchar" = some "blob".toList := by
  obtain ⟨settings, hload, -⟩ := exists_of_passes (show passes (fun _ => true)
    (load (.value (.obj [("types", typeSection [("blob", ["varchar"])])]))) = true by
      decide +kernel)
  have hname : "varchar".toList ∈ ["varchar".toList] := List.mem_cons_self
  have hmoved := (types_moved_iff
    (gives_typeSection [("blob", ["varchar"])] (List.nodup_singleton _)) rfl hload
    List.mem_cons_self hname (by simp)).2 (by decide)
  exact ⟨settings, hload, hmoved⟩

/-- A type listed under a target that stands before its own is not moved. -/
theorem types_not_moved :
    (Source.value (.obj [("types", typeSection [("integer", ["varchar"])])])).Gives
      [("types", typeSection [("integer", ["varchar"])])] ∧
    ∃ settings, load (.value (.obj [("types", typeSection [("integer", ["varchar"])])])) =
      .ok settings ∧ settings.types.get? (lower "varchar") = some "text".toList := by
  obtain ⟨settings, hload, htext⟩ := exists_of_passes (show passes
    (fun settings : Settings => settings.types.get? (lower "varchar") == some "text".toList)
    (load (.value (.obj [("types", typeSection [("integer", ["varchar"])])]))) = true by
      decide +kernel)
  exact ⟨gives_typeSection _ (List.nodup_singleton _), settings, hload, eq_of_beq htext⟩

end Restate.Settings
