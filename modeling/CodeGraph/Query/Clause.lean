import CodeGraph.Text.Run

/-!
# Clauses of a query

A query is read line by line. A line may open a clause; only three kinds of lines matter:

* a *pattern*: a line that opens with `MATCH` or `OPTIONAL MATCH`;
* a *filter*: a line that opens with `WHERE`, together with all lines after it up to the next line
  that opens a clause;
* any other line.

`Clause.ofLines` cuts the lines of a query into these groups. `patternVariable?` and
`filterVariable?` find the variable that a pattern or a filter is about.
-/

namespace CodeGraph.Query

open Text

/-- A line of a query. -/
abbrev Line := List Char

/-- What follows `MATCH` or `OPTIONAL MATCH` at the front of a line. -/
def afterMatch? (line : Line) : Option (List Char) :=
  let cs := dropBlank line
  ((keyword? "optional".toList cs).bind fun r =>
      (blanks? r).bind (wholeKeyword? "match".toList)) <|>
    wholeKeyword? "match".toList cs

/-- The variable of a pattern: the identifier behind the first opening parenthesis. -/
def patternVariable? (line : Line) : Option (List Char) :=
  (afterMatch? line).bind fun rest =>
    match rest.dropWhile (· != '(') with
    | [] => none
    | _ :: cs => (identifier? (dropBlank cs)).map Prod.fst

/-- The keyword of a filter, with the white space before it, and what follows it. -/
def filter? (line : Line) : Option (List Char × List Char) :=
  (wholeKeyword? "where".toList (dropBlank line)).map fun rest =>
    (line.take (line.length - rest.length), dropBlank rest)

/-- Two keywords with white space between them, as a whole at the front of a text. -/
def twoKeywords? (first second : List Char) (cs : List Char) : Option (List Char) :=
  (keyword? first cs).bind fun r => (blanks? r).bind (wholeKeyword? second)

/-- The keywords that open a clause by themselves. -/
def clauseKeywords : List (List Char) :=
  ["match".toList, "where".toList, "with".toList, "return".toList, "unwind".toList, "call".toList,
    "skip".toList, "limit".toList, "union".toList]

/-- Whether a line opens a clause. -/
def opensClause (line : Line) : Bool :=
  let cs := dropBlank line
  (twoKeywords? "optional".toList "match".toList cs).isSome ||
    (twoKeywords? "order".toList "by".toList cs).isSome ||
    clauseKeywords.any fun key => (wholeKeyword? key cs).isSome

/-- A group of lines of a query. -/
inductive Clause
  /-- A line that opens with `MATCH`. -/
  | pattern (line : Line)
  /-- A line that opens with `WHERE`: the line, its keyword with the white space before it, and the
  whole predicate, lines that continue it included, without white space at its ends. -/
  | filter (line : Line) (keyword : List Char) (predicate : List Char)
  /-- Any other line. -/
  | other (line : Line)
deriving DecidableEq, Repr

/-- The clauses of a query given by its lines. -/
def Clause.ofLines : List Line → List Clause
  | [] => []
  | line :: rest =>
    if (afterMatch? line).isSome then .pattern line :: ofLines rest
    else
      match filter? line with
      | some (keyword, front) =>
        .filter line keyword (trim (unlines (front :: rest.takeWhile (!opensClause ·)))) ::
          ofLines (rest.dropWhile (!opensClause ·))
      | none => .other line :: ofLines rest
termination_by ls => ls.length
decreasing_by
  · simp
  · have := length_dropWhile_le (!opensClause ·) rest
    simp only [List.length_cons]
    omega
  · simp

/-- Whether the next clause that is not a blank line is a filter. -/
def filterFollows : List Clause → Bool
  | .filter .. :: _ => true
  | .other line :: rest => isBlankText line && filterFollows rest
  | _ => false

/-- An identifier that a dot, a closing parenthesis or a colon follows. -/
def owner? (cs : List Char) : Option (List Char) :=
  (identifier? cs).bind fun (name, rest) =>
    match dropBlank rest with
    | c :: _ => if c = '.' ∨ c = ')' ∨ c = ':' then some name else none
    | [] => none

/-- The owner at the front of a text, behind at most one opening parenthesis. -/
def openedOwner? (cs : List Char) : Option (List Char) :=
  match dropBlank cs with
  | '(' :: r => owner? (dropBlank r)
  | r => owner? r

/-- What follows a word and an opening parenthesis at the front of a text. -/
def afterCall? (cs : List Char) : Option (List Char) :=
  if (cs.takeWhile isWord).isEmpty then none
  else
    match dropBlank (cs.dropWhile isWord) with
    | '(' :: r => some r
    | _ => none

/-- The owner at the front of a text, inside a function call if there is one. -/
def calledOwner? (cs : List Char) : Option (List Char) :=
  (afterCall? cs).bind openedOwner? <|> openedOwner? cs

/-- The variable that a predicate is about: the first identifier that owns a property or a label,
looked for behind `NOT`, a function call and a parenthesis. -/
def filterVariable? (predicate : List Char) : Option (List Char) :=
  ((keyword? "not".toList predicate).bind blanks?).bind calledOwner? <|> calledOwner? predicate

end CodeGraph.Query
