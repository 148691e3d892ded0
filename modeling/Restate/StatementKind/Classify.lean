import Restate.Parens

/-!
# Classifying statements

The leading words of a statement say what it does. Statements without a meaning in SQLite are
ignorable only if they are on an explicit list; anything unknown is refused.
-/

namespace Restate

namespace StatementKind

/-- The leading words, in upper case, at most `limit` of them. -/
def leadingWords (limit : Nat) (tokens : List Token) : List Text :=
  ((tokens.takeWhile fun t => t.kind.isBare).take limit).map Token.upper

/-- What follows `CREATE DEFINER = user`. The user is one token, an optional pair of parentheses
after `CURRENT_USER`, and an optional host that begins with an at sign. -/
def afterDefiner : List Token → Except Error (List Token)
  | _ :: _ :: equals :: user :: rest =>
    if equals.isOperator "=" then
      let rest :=
        match rest with
        | opening :: closing :: more =>
          if user.isWord ["CURRENT_USER"] && opening.isPunct "(" && closing.isPunct ")" then more
          else rest
        | _ => rest
      match rest with
      | host :: more => .ok (if host.text.head? = some '@' then more else rest)
      | [] => .ok []
    else .error (.refuse .malformedDefiner)
  | _ => .error (.refuse .malformedDefiner)

/-- Leading words of transaction control. -/
def transactionStatements : List (List Text) :=
  [["BEGIN"], ["START", "TRANSACTION"], ["COMMIT"], ["ROLLBACK"]]

/-- Leading words of the statements that have no meaning in SQLite. -/
def ignorableStatements : List (List Text) :=
  [["SET"], ["CALL"], ["CREATE", "PROCEDURE"], ["DROP", "PROCEDURE"],
   ["CREATE", "FULLTEXT", "INDEX"]]

/-- Leading words of the statements on rows. -/
def rowStatements : List (Text × StatementKind) :=
  [("SELECT", .select), ("INSERT", .insert), ("REPLACE", .insert), ("UPDATE", .update),
   ("DELETE", .delete)]

/-- Words after `ALTER TABLE t ADD` that introduce something other than a column. -/
def otherAdditions : List Text :=
  ["PRIMARY", "FOREIGN", "CONSTRAINT", "SPATIAL", "CHECK", "PARTITION"]

/-- What is added by `ALTER TABLE t ADD`, given the token after it. -/
def ofAddition (target : Token) : Except Error StatementKind :=
  if target.isWord ["COLUMN"] then .ok .alterAddColumn
  else if target.isWord ["KEY", "INDEX"] then .ok .alterAddKey
  else if target.isWord ["UNIQUE"] then .ok .alterAddUniqueKey
  else if target.isWord ["FULLTEXT"] then .ok .alterAddFulltextKey
  else if target.isWord otherAdditions || target.isPunct "(" then
    .error (.refuse (.alterAdd target.text))
  else .ok .alterAddColumn

/-- The kind of a statement that begins with `ALTER`. The table is one token, and one specification
may follow it. -/
def ofAlter : List Token → Except Error StatementKind
  | _ :: table :: _ :: action :: rest =>
    if !table.isWord ["TABLE"] then .error (.refuse .alterOtherThanTable)
    else if (splitTopLevel "," (action :: rest)).length > 1 then .error (.refuse .alterSeveral)
    else
      match rest with
      | target :: _ =>
        if action.isWord ["ADD"] then ofAddition target
        else if action.isWord ["DROP"] && target.isWord ["INDEX", "KEY"] then .ok .dropIndex
        else .error (.refuse (.alterAction action.text))
      | [] => .error (.refuse (.alterAction action.text))
  | _ => .error (.refuse .alterOtherThanTable)

/-- The kind of a statement that creates or drops something, given the words after the first. -/
def ofObject? (leader : Text) (words : List Text) : Option StatementKind :=
  let rest := words.filter (· != "TEMPORARY".toList)
  if leader = "CREATE".toList then
    if ["TABLE".toList].isPrefixOf rest then some .createTable
    else if ["INDEX".toList].isPrefixOf rest || ["UNIQUE".toList, "INDEX"].isPrefixOf rest then
      some .createIndex
    else none
  else if leader = "DROP".toList then
    if ["TABLE".toList].isPrefixOf rest then some .dropTable
    else if ["INDEX".toList].isPrefixOf rest then some .dropIndex
    else none
  else none

/-- The kind of a statement by its leading words; nothing for words that begin none. -/
def ofWords? (words : List Text) : Option StatementKind :=
  if transactionStatements.any (·.isPrefixOf words) then some .transaction
  else if ignorableStatements.any (·.isPrefixOf words) then some .ignorable
  else
    match words with
    | [] => none
    | leader :: rest =>
      match rowStatements.lookup leader with
      | some kind => some kind
      | none => ofObject? leader rest

/-- The leading words by which a statement is classified; a `DEFINER` clause directly after
`CREATE` is looked through. -/
def decidingWords (tokens : List Token) : Except Error (List Text) :=
  let words := leadingWords 4 tokens
  if words = ["CREATE".toList, "DEFINER"] then
    (afterDefiner tokens).map fun rest => "CREATE".toList :: leadingWords 3 rest
  else .ok words

/-- What a statement does, by its significant tokens. -/
def ofSignificant (tokens : List Token) : Except Error StatementKind :=
  match tokens with
  | [] => .error (.refuse .emptyStatement)
  | first :: _ =>
    if first.kind.isBare then do
      let words ← decidingWords tokens
      match ofWords? words with
      | some kind => .ok kind
      | none =>
        if words.head? = some "ALTER".toList then ofAlter tokens
        else .error (.refuse (.unsupportedStatement words))
    else .error (.refuse (.unrecognizedStart first.text))

/-- What a statement does. -/
def classify (tokens : List Token) : Except Error StatementKind :=
  ofSignificant (significant tokens)

end StatementKind

end Restate
