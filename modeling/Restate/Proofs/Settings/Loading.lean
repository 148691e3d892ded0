import Restate.Proofs.Json.Distinct
import Restate.Settings

/-!
# Loading settings

A settings file lays its sections over the built-in ones. Main statement: what is merged, which
target a type name and which rule a function name gets from it, and which rules keep the settings
from being loaded (`load_overrides`).
-/

namespace Restate.Settings

open Text

variable {base overrides : Fields Json} {source : Source} {name key : Text}

/-- The source is a file with the given sections. -/
inductive Source.Gives : Source → Fields Json → Prop where
  | value {overrides : Fields Json} : (Json.obj overrides).Distinct →
      Gives (.value (.obj overrides)) overrides
  | text {contents : Text} {overrides : Fields Json} :
      Json.parse? contents = some (.obj overrides) → Gives (.text contents) overrides

/-- A section that lists the type names of each target. -/
def typeSection (lists : Fields (List Text)) : Json :=
  .obj (lists.mapValues fun names => .arr (names.map .str))

/-- A section with the fields of each function's rule. -/
def functionSection (rules : Fields (Fields Json)) : Json :=
  .obj (rules.mapValues .obj)

/-- The type names that each target has without a settings file. -/
def builtInLists : Fields (List Text) :=
  builtInTypes.mapValues fun listed =>
    match typeNames listed with
    | .ok names => names
    | .error _ => []

/-- The fields that each function's rule has without a settings file. -/
def builtInRules : Fields (Fields Json) :=
  builtInFunctions.mapValues fun rule => rule.fields?.getD []

theorem typeSection_builtIn : builtInSections.get? "types" = some (typeSection builtInLists) :=
  rfl

theorem functionSection_builtIn :
    builtInSections.get? "functions" = some (functionSection builtInRules) :=
  rfl

theorem Source.Gives.distinct (h : source.Gives overrides) : (Json.obj overrides).Distinct := by
  cases h with
  | value hdistinct => exact hdistinct
  | text hparse => exact Json.distinct_of_parse hparse

theorem Source.Gives.load_eq (h : source.Gives overrides) :
    load source = ofSections (overlay builtInSections overrides) := by
  cases h with
  | value hdistinct => rfl
  | text hparse =>
      rw [load, hparse]
      rfl

/-! ### Merged sections -/

/-- What becomes of a section under the same name in a file. -/
def laidOver (current : Option Json) (value : Json) : Json :=
  match value, current with
  | .obj fields, some (.obj current) => .obj (Fields.overlay current fields)
  | _, _ => value

theorem overlaySection_eq (sections : Fields Json) (name : Text) (value : Json) :
    overlaySection sections name value =
      sections.put name (laidOver (sections.get? name) value) := by
  unfold overlaySection laidOver
  cases value with
  | obj fields =>
      cases sections.get? name with
      | none => rfl
      | some current =>
          cases current with
          | obj current => rfl
          | _ => rfl
  | _ => rfl

/-- The sections of a file over those that were there: their keys stay in place and new ones go
last, a section of fields is updated by one of fields, and any other is replaced. -/
structure Merges (base overrides merged : Fields Json) : Prop where
  keys : merged.keys = base.keys ++ overrides.keys.filter (· ∉ base.keys)
  kept : ∀ name, overrides.get? name = none → merged.get? name = base.get? name
  updated : ∀ name fields current, overrides.get? name = some (.obj fields) →
    base.get? name = some (.obj current) →
    ∃ all, merged.get? name = some (.obj all) ∧ Fields.Overlaid current fields all
  replaced : ∀ name value, overrides.get? name = some value →
    (value.fields? = none ∨ (base.get? name).bind Json.fields? = none) →
    merged.get? name = some value

theorem nodup_section {fields : Fields Json} (h : (Json.obj overrides).Distinct)
    (hname : overrides.get? name = some (.obj fields)) : fields.keys.Nodup := by
  cases h with
  | obj hkeys hvalues =>
      cases hvalues _ (Fields.mem_of_get? hname) with
      | obj hkeys hvalues => exact hkeys

theorem keys_overlay (h : (Json.obj overrides).Distinct) (base : Fields Json) :
    (overlay base overrides).keys = base.keys ++ overrides.keys.filter (· ∉ base.keys) := by
  cases h with
  | obj hkeys hvalues =>
      simpa only [overlay, overlaySection_eq] using (Fields.overlaid_foldl laidOver hkeys base).1

theorem get?_overlay (h : (Json.obj overrides).Distinct) (base : Fields Json) (name : Text) :
    (overlay base overrides).get? name =
      ((overrides.get? name).map (laidOver (base.get? name))).or (base.get? name) := by
  cases h with
  | obj hkeys hvalues =>
      simpa only [overlay, overlaySection_eq] using
        (Fields.overlaid_foldl laidOver hkeys base).2 name

theorem merges_overlay (h : (Json.obj overrides).Distinct) (base : Fields Json) :
    Merges base overrides (overlay base overrides) where
  keys := keys_overlay h base
  kept name hname := by rw [get?_overlay h, hname, Option.map_none, Option.none_or]
  updated name fields current hname hcurrent := by
    refine ⟨Fields.overlay current fields, ?_, Fields.overlaid_overlay (nodup_section h hname) _⟩
    rw [get?_overlay h, hname, hcurrent]
    rfl
  replaced name value hname hother := by
    have hlaid : laidOver (base.get? name) value = value := by
      unfold laidOver
      split
      · next hcurrent =>
          rw [hcurrent] at hother
          rcases hother with hother | hother
          · cases hother
          · cases hother
      · rfl
    rw [get?_overlay h, hname, Option.map_some, hlaid, Option.some_or]

/-- A section whose values are all written in one way, over one of the same kind. -/
theorem get?_overlay_mapValues {α : Type} {write : α → Json} {defaults : Fields α}
    {given : Option (Fields α)} (h : (Json.obj overrides).Distinct)
    (hbase : base.get? name = some (.obj (defaults.mapValues write)))
    (hgiven : overrides.get? name = given.map fun more => .obj (more.mapValues write)) :
    ∃ all, Fields.Overlaid defaults (given.getD []) all ∧
      (overlay base overrides).get? name = some (.obj (all.mapValues write)) := by
  refine ⟨Fields.overlay defaults (given.getD []), Fields.overlaid_overlay ?_ _, ?_⟩
  · cases given with
    | none => exact List.nodup_nil
    | some more =>
        have hkeys := nodup_section h hgiven
        rwa [Fields.keys_mapValues] at hkeys
  · rw [get?_overlay h, hgiven, hbase]
    cases given with
    | none => rfl
    | some more => simp [laidOver, Fields.overlay_mapValues]

/-! ### Type names -/

theorem mapM_eq_ok {α β ε : Type} {f : α → Except ε β} {g : α → β} {items : List α}
    (h : ∀ item ∈ items, f item = .ok (g item)) : items.mapM f = .ok (items.map g) := by
  induction items with
  | nil => rfl
  | cons item items ih =>
      rw [List.mapM_cons, h item List.mem_cons_self,
        ih fun other hother => h other (List.mem_cons_of_mem _ hother)]
      rfl

theorem typeNames_listed (names : List Text) : typeNames (.arr (names.map .str)) = .ok names := by
  rw [typeNames, List.mapM_map, mapM_eq_ok (g := id) (by simp), List.map_id]

/-- Each listed name in lower case with its target, in the order of the lists. -/
def listedEntries (lists : Fields (List Text)) : List (Text × Text) :=
  lists.flatMap fun entry => entry.2.map fun name => (lower name, entry.1)

theorem typeEntries_listed (lists : Fields (List Text)) :
    typeEntries (lists.mapValues fun names => .arr (names.map .str)) =
      .ok (listedEntries lists) := by
  unfold typeEntries
  rw [Fields.mapValues, List.mapM_map,
    mapM_eq_ok (g := fun entry : Text × List Text => entry.2.map fun name => (lower name, entry.1))]
  · rfl
  · intro entry hentry
    dsimp only [Function.comp]
    rw [typeNames_listed]
    rfl

/-- Whether a list of type names holds one that is `key` in lower case. -/
def holds (key : Text) (entry : Text × List Text) : Bool :=
  entry.2.any (lower · = key)

/-- Of the lists that hold a name the last one gives it its target. -/
theorem lastWhere_listedEntries (lists : Fields (List Text)) (key : Text) :
    (Fields.lastWhere (·.1 = key) (listedEntries lists)).map (·.2) =
      (Fields.lastWhere (holds key) lists).map (·.1) := by
  induction lists using List.reverseRecOn with
  | nil => rfl
  | append_singleton lists entry ih =>
      obtain ⟨target, names⟩ := entry
      have hsplit : listedEntries (lists ++ [(target, names)]) =
          listedEntries lists ++ names.map fun name => (lower name, target) := by
        simp [listedEntries]
      rw [hsplit, Fields.lastWhere_append, Fields.lastWhere_append, Option.map_or, Option.map_or,
        ih, Fields.lastWhere_singleton, Fields.lastWhere_map]
      congr 1
      cases hlast : Fields.lastWhere (fun name => decide (lower name = key)) names with
      | none =>
          have hnone := Fields.lastWhere_eq_none_iff.1 hlast
          have hholds : holds key (target, names) = false := by simpa [holds] using hnone
          rw [hholds]
          simpa [Function.comp_def] using hlast
      | some name =>
          obtain ⟨hmem, htest⟩ := Fields.mem_of_lastWhere hlast
          have hholds : holds key (target, names) = true :=
            List.any_eq_true.2 ⟨name, hmem, htest⟩
          rw [hholds]
          simp [Function.comp_def, hlast]

/-! ### Function rules -/

/-- A rule has one field, of a known kind. -/
def IsRule (fields : Fields Json) : Prop :=
  ∃ kind argument, fields = [(kind, argument)] ∧ kind ∈ FunctionRule.kinds

theorem mem_kinds_iff {kind : Text} : kind ∈ FunctionRule.kinds ↔
    kind = "strftime".toList ∨ kind = "replace".toList ∨ kind = "rename".toList := by
  simp only [FunctionRule.kinds, List.mem_cons, List.not_mem_nil, or_false]

theorem toJson_of_ofKind? {kind : Text} {argument : Json} {rule : FunctionRule}
    (h : FunctionRule.ofKind? kind argument = some rule) :
    kind ∈ FunctionRule.kinds ∧ rule.toJson = .obj [(kind, argument)] := by
  rw [mem_kinds_iff]
  unfold FunctionRule.ofKind? at h
  split at h
  · next hkind =>
      cases h
      exact ⟨.inl hkind, by rw [hkind]; rfl⟩
  · split at h
    · next hkind =>
        cases h
        exact ⟨.inr (.inl hkind), by rw [hkind]; rfl⟩
    · split at h
      · next hkind =>
          cases h
          exact ⟨.inr (.inr hkind), by rw [hkind]; rfl⟩
      · cases h

theorem not_mem_kinds_of_ofKind? {kind : Text} {argument : Json}
    (h : FunctionRule.ofKind? kind argument = none) : kind ∉ FunctionRule.kinds := by
  rw [mem_kinds_iff]
  unfold FunctionRule.ofKind? at h
  rintro (rfl | rfl | rfl)
  · cases h
  · cases h
  · cases h

/-- The fields of a rule make it up, and other fields are refused under the name. -/
theorem functionRule_obj (name : Text) (fields : Fields Json) :
    (IsRule fields ∧ ∃ rule, functionRule name (.obj fields) = .ok rule ∧
      rule.toJson = .obj fields) ∨
    (¬ IsRule fields ∧ functionRule name (.obj fields) = .error (.badRule name)) := by
  match fields with
  | [(kind, argument)] =>
      cases hkind : FunctionRule.ofKind? kind argument with
      | some rule =>
          obtain ⟨hmem, hjson⟩ := toJson_of_ofKind? hkind
          exact .inl ⟨⟨kind, argument, rfl, hmem⟩, rule, by rw [functionRule, hkind], hjson⟩
      | none =>
          refine .inr ⟨?_, by rw [functionRule, hkind]⟩
          rintro ⟨kind', argument', heq, hmem⟩
          cases heq
          exact not_mem_kinds_of_ofKind? hkind hmem
  | [] =>
      refine .inr ⟨?_, rfl⟩
      rintro ⟨kind, argument, heq, -⟩
      cases heq
  | first :: second :: fields =>
      refine .inr ⟨?_, rfl⟩
      rintro ⟨kind, argument, heq, -⟩
      cases heq

/-- The rules are read one by one until one is refused. -/
theorem functionEntries_rules (rules : Fields (Fields Json)) :
    match functionEntries (Fields.mapValues .obj rules) with
    | .ok entries => (∀ entry ∈ rules, IsRule entry.2) ∧
        entries.map (fun entry => (entry.1, entry.2.toJson)) =
          rules.map fun entry => (upper entry.1, .obj entry.2)
    | .error fault => ∃ before name fields after, rules = before ++ (name, fields) :: after ∧
        (∀ entry ∈ before, IsRule entry.2) ∧ ¬ IsRule fields ∧ fault = .badRule name := by
  induction rules with
  | nil => exact ⟨by simp, rfl⟩
  | cons entry rules ih =>
      obtain ⟨name, fields⟩ := entry
      have hstep : functionEntries (Fields.mapValues .obj ((name, fields) :: rules)) = do
          let rule ← functionRule name (.obj fields)
          let entries ← functionEntries (Fields.mapValues .obj rules)
          return (upper name, rule) :: entries := by
        unfold functionEntries Fields.mapValues
        rw [List.map_cons, List.mapM_cons]
        dsimp only
        cases functionRule name (.obj fields) with
        | ok rule => rfl
        | error fault => rfl
      rcases functionRule_obj name fields with ⟨hrule, rule, hread, hjson⟩ | ⟨hnot, hread⟩
      · rw [hstep, hread]
        cases hentries : functionEntries (Fields.mapValues .obj rules) with
        | ok entries =>
            rw [hentries] at ih
            refine ⟨List.forall_mem_cons.2 ⟨hrule, ih.1⟩, ?_⟩
            rw [List.map_cons, List.map_cons, ih.2, hjson]
        | error fault =>
            rw [hentries] at ih
            obtain ⟨before, bad, badFields, after, rfl, hbefore, hbad, hfault⟩ := ih
            exact ⟨(name, fields) :: before, bad, badFields, after, rfl,
              List.forall_mem_cons.2 ⟨hrule, hbefore⟩, hbad, hfault⟩
      · rw [hstep, hread]
        exact ⟨[], name, fields, rules, rfl, by simp, hnot, rfl⟩

/-- The rule of a function is the last one under its name in upper case. -/
theorem toJson_ofEntries {entries : List (Text × FunctionRule)} {rules : Fields (Fields Json)}
    (h : entries.map (fun entry => (entry.1, entry.2.toJson)) =
      rules.map fun entry => (upper entry.1, .obj entry.2)) (key : Text) :
    ((Fields.ofEntries entries).get? key).map FunctionRule.toJson =
      (Fields.lastWhere (upper ·.1 = key) rules).map (.obj ·.2) := by
  have hlast := congrArg (fun items => (Fields.lastWhere (·.1 = key) items).map (·.2)) h
  simp only [Fields.lastWhere_map, Option.map_map] at hlast
  rw [Fields.get?_ofEntries, Option.map_map]
  exact hlast

/-! ### Loaded settings -/

/-- The settings that the merged sections give: a type name has the target of the last list that
holds it up to case, a function name the last rule under it up to case, and the first field of the
functions that is no rule is refused. -/
def Loads (merged : Fields Json) (lists : Fields (List Text)) (rules : Fields (Fields Json)) :
    Except SettingsFault Settings → Prop
  | .ok settings =>
      settings.sections = merged ∧ (∀ entry ∈ rules, IsRule entry.2) ∧
      (∀ key, settings.types.get? key = (Fields.lastWhere (holds key) lists).map (·.1)) ∧
      ∀ key, (settings.functions.get? key).map FunctionRule.toJson =
        (Fields.lastWhere (upper ·.1 = key) rules).map (.obj ·.2)
  | .error fault => ∃ before name fields after, rules = before ++ (name, fields) :: after ∧
      (∀ entry ∈ before, IsRule entry.2) ∧ ¬ IsRule fields ∧ fault = .badRule name

theorem ofSections_eq {sections : Fields Json} {lists : Fields (List Text)}
    (htypes : sections.get? "types" = some (typeSection lists)) :
    ofSections sections = do
      let functions ← sectionFields sections "functions" >>= functionEntries
      return ⟨sections, Fields.ofEntries (listedEntries lists), Fields.ofEntries functions⟩ := by
  have hlists : sectionFields sections "types" =
      .ok (lists.mapValues fun names => .arr (names.map .str)) := by
    rw [sectionFields, htypes, typeSection]
  rw [ofSections, hlists, bind_assoc]
  show (typeEntries _ >>= fun _ => _) = _
  rw [typeEntries_listed]
  rfl

/-- Of the merged lists that hold a name the last one gives it its target. -/
theorem get?_types {sections : Fields Json} {lists : Fields (List Text)} {settings : Settings}
    (htypes : sections.get? "types" = some (typeSection lists))
    (h : ofSections sections = .ok settings) (key : Text) :
    settings.types.get? key = (Fields.lastWhere (holds key) lists).map (·.1) := by
  rw [ofSections_eq htypes] at h
  cases hread : sectionFields sections "functions" >>= functionEntries with
  | error fault =>
      rw [hread] at h
      cases h
  | ok functions =>
      rw [hread] at h
      cases h
      exact (Fields.get?_ofEntries _ key).trans (lastWhere_listedEntries lists key)

theorem loads_ofSections {sections : Fields Json} {lists : Fields (List Text)}
    {rules : Fields (Fields Json)} (htypes : sections.get? "types" = some (typeSection lists))
    (hfunctions : sections.get? "functions" = some (functionSection rules)) :
    Loads sections lists rules (ofSections sections) := by
  have hfields : sectionFields sections "functions" = .ok (Fields.mapValues .obj rules) := by
    rw [sectionFields, hfunctions, functionSection]
  have hread : ofSections sections = do
      let functions ← functionEntries (Fields.mapValues .obj rules)
      return ⟨sections, Fields.ofEntries (listedEntries lists), Fields.ofEntries functions⟩ := by
    rw [ofSections_eq htypes, hfields]
    rfl
  have hrules := functionEntries_rules rules
  cases hentries : functionEntries (Fields.mapValues .obj rules) with
  | ok entries =>
      rw [hentries] at hread hrules
      rw [hread]
      exact ⟨rfl, hrules.1, get?_types htypes hread, toJson_ofEntries hrules.2⟩
  | error fault =>
      rw [hentries] at hread hrules
      rw [hread]
      exact hrules

theorem distinct_typeSection {lists : Fields (List Text)} (h : lists.keys.Nodup) :
    (typeSection lists).Distinct := by
  refine .obj (by rwa [Fields.keys_mapValues]) fun entry hentry => ?_
  obtain ⟨listed, -, rfl⟩ := List.mem_map.1 hentry
  refine .arr fun item hitem => ?_
  obtain ⟨name, -, rfl⟩ := List.mem_map.1 hitem
  exact .str name

/-- A file's sections are merged with the built-in ones, and the merged lists and rules decide what
the settings say of a type or a function and whether they are loaded. -/
theorem load_overrides {lists : Option (Fields (List Text))}
    {rules : Option (Fields (Fields Json))} (hgives : source.Gives overrides)
    (htypes : overrides.get? "types" = lists.map typeSection)
    (hfunctions : overrides.get? "functions" = rules.map functionSection) :
    ∃ merged mergedLists mergedRules,
      Merges builtInSections overrides merged ∧
      merged.get? "types" = some (typeSection mergedLists) ∧
      Fields.Overlaid builtInLists (lists.getD []) mergedLists ∧
      merged.get? "functions" = some (functionSection mergedRules) ∧
      Fields.Overlaid builtInRules (rules.getD []) mergedRules ∧
      Loads merged mergedLists mergedRules (load source) := by
  obtain ⟨mergedLists, hlists, hmergedTypes⟩ :=
    get?_overlay_mapValues hgives.distinct typeSection_builtIn htypes
  obtain ⟨mergedRules, hrules, hmergedFunctions⟩ :=
    get?_overlay_mapValues hgives.distinct functionSection_builtIn hfunctions
  refine ⟨overlay builtInSections overrides, mergedLists, mergedRules,
    merges_overlay hgives.distinct _, hmergedTypes, hlists, hmergedFunctions, hrules, ?_⟩
  rw [hgives.load_eq]
  exact loads_ofSections hmergedTypes hmergedFunctions

/-- A type and the rule of a function changed together. -/
theorem load_geometry :
    ∃ merged mergedLists mergedRules,
      Merges builtInSections [("types", typeSection [("blob", ["geometry", "blob"])]),
        ("functions", functionSection [("MONTH", [("strftime", .str "%m")])])] merged ∧
      Fields.Overlaid builtInLists [("blob", ["geometry", "blob"])] mergedLists ∧
      Fields.Overlaid builtInRules [("MONTH", [("strftime", .str "%m")])] mergedRules ∧
      Loads merged mergedLists mergedRules
        (load (.value (.obj [("types", typeSection [("blob", ["geometry", "blob"])]),
          ("functions", functionSection [("MONTH", [("strftime", .str "%m")])])]))) := by
  have hrule : (functionSection [("MONTH", [("strftime", .str "%m")])]).Distinct := by
    refine .obj (List.nodup_singleton _) ?_
    rintro entry (_ | ⟨_, ⟨⟩⟩)
    refine .obj (List.nodup_singleton _) ?_
    rintro entry (_ | ⟨_, ⟨⟩⟩)
    exact .str _
  have hdistinct : Json.Distinct (.obj
      [("types", typeSection [("blob", ["geometry", "blob"])]),
        ("functions", functionSection [("MONTH", [("strftime", .str "%m")])])]) := by
    refine .obj (by decide) ?_
    rintro entry (_ | ⟨_, _ | ⟨_, ⟨⟩⟩⟩)
    · exact distinct_typeSection (List.nodup_singleton _)
    · exact hrule
  obtain ⟨merged, mergedLists, mergedRules, hmerges, -, hlists, -, hrules, hloads⟩ :=
    @load_overrides _ _ (some [("blob", ["geometry", "blob"])])
      (some [("MONTH", [("strftime", .str "%m")])]) (.value hdistinct) rfl rfl
  exact ⟨merged, mergedLists, mergedRules, hmerges, hlists, hrules, hloads⟩

end Restate.Settings
