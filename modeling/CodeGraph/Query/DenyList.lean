import CodeGraph.Text.Run

/-!
# The deny-list

A query may only read. The deny-list looks at the words of its text, in any case:

* a *write keyword* may not occur as a whole word;
* no word `dbms` may follow a word `call`;
* no word `apoc` may be followed by a dot and the beginning of a *blocked procedure*.

`offence?` finds the text that breaks one of these rules, the rules being tried in this order, and
`token` names it. The list is about words alone, not about quotes or comments.
-/

namespace CodeGraph.Query

open Text

/-- Keywords that write to the store. -/
def writeKeywords : List (List Char) :=
  ["create".toList, "merge".toList, "delete".toList, "set".toList, "drop".toList, "remove".toList]

/-- The beginnings of procedure names, after `apoc.`, that reach beyond reading. -/
def blockedProcedures : List (List Char) :=
  ["refactor".toList, "periodic".toList, "trigger".toList, "schema".toList, "atomic".toList,
    "lock".toList, "cypher.do".toList]

/-- The first word of a text that is a write keyword. -/
def writeKeyword? (query : List Char) : Option (List Char) :=
  ((words query).find? fun w => w.spelling ∈ writeKeywords).map Word.run

/-- The text from the first word `call` to the last word `dbms` after it. -/
def adminCall? (query : List Char) : Option (List Char) :=
  match (words query).dropWhile fun w => w.spelling != "call".toList with
  | [] => none
  | call :: later =>
    ((later.filter fun w => w.spelling == "dbms".toList).getLast?).map fun dbms =>
      call.onward.take (call.onward.length - dbms.rest.length)

/-- The part of a text that spells a blocked procedure at its front. -/
def blockedFront? (cs : List Char) : Option (List Char) :=
  (blockedProcedures.find? fun name => (keyword? name cs).isSome).map fun name =>
    cs.take name.length

/-- The text of a blocked procedure that begins with the given word. -/
def blockedCall? (w : Word) : Option (List Char) :=
  if w.spelling = "apoc".toList then
    match w.rest with
    | '.' :: cs => (blockedFront? cs).map fun name => w.run ++ '.' :: name
    | _ => none
  else none

/-- The first text that names a blocked procedure. -/
def procedureCall? (query : List Char) : Option (List Char) :=
  (words query).findSome? blockedCall?

/-- The text that a query is refused for. -/
def offence? (query : List Char) : Option (List Char) :=
  writeKeyword? query <|> adminCall? query <|> procedureCall? query

/-- The token that a query is refused for: what comes before the first white space in the text that
breaks the rule. -/
def forbiddenToken? (query : List Char) : Option (List Char) :=
  (offence? query).map firstPiece

end CodeGraph.Query
