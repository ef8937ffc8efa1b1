import CodeGraph.Query.DenyList
import CodeGraph.Query.Clause
import CodeGraph.Text.Number

/-!
# Scoping a query to a tenant

`scope` confines a query to one tenant and caps the number of its rows. Every pattern gets a
filter on the tenant's property: a line of its own, or a conjunct of the filter that follows it.

* `tenantFilter v`: the condition that `v` belongs to the tenant;
* `confine`: the clauses of a query with their conditions;
* `cap`: the text with a row limit at its end;
* `scope`: both, for a query without white space and semicolons at its end;
* `check`: the deny-list;
* `Refusal`: why a query is refused, with `Refusal.message`.
-/

namespace CodeGraph.Query

open Text

/-- Why a query is refused. -/
inductive Refusal
  /-- The text holds a forbidden token. -/
  | forbidden (token : List Char)
  /-- A pattern has no variable that it could be scoped by. -/
  | unnamedPattern (line : Line)
  /-- A filter has no predicate. -/
  | emptyFilter
  /-- A filter is about no variable and follows no pattern. -/
  | unscopedFilter (line : Line)
deriving DecidableEq, Repr

/-- A text between two backquotes. -/
def backquoted (cs : List Char) : String :=
  "`" ++ String.ofList cs ++ "`"

/-- What is wrong with a refused query. -/
def Refusal.reason : Refusal → String
  | .forbidden token => "forbidden token " ++ backquoted token
  | .unnamedPattern line => "cannot scope pattern without a variable: " ++ backquoted (trim line)
  | .emptyFilter => "empty filter clause"
  | .unscopedFilter line => "cannot scope filter clause: " ++ backquoted (trim line)

/-- The text that a refusal is reported with. -/
def Refusal.message (r : Refusal) : String :=
  "Access denied: " ++ r.reason

/-- Refuses a query that the deny-list forbids. -/
def check (query : List Char) : Except Refusal Unit :=
  match forbiddenToken? query with
  | some token => .error (.forbidden token)
  | none => .ok ()

/-- The condition that a variable belongs to the tenant. -/
def tenantFilter (v : List Char) : List Char :=
  v ++ ".projectId IS NOT NULL AND ".toList ++ v ++ ".projectId = $projectId".toList

/-- The filter line of a pattern that no filter follows. -/
def patternFilter (v : List Char) : Line :=
  "WHERE ".toList ++ tenantFilter v

/-- A filter's predicate in parentheses, behind its keyword. -/
def wrapped (keyword predicate : List Char) : List Char :=
  keyword ++ " (".toList ++ predicate ++ ")".toList

/-- The line that adds the tenant's condition to a filter. -/
def conjunct (v : List Char) : Line :=
  "AND ".toList ++ tenantFilter v

/-- The lines of the scoped clauses. `pending` is the variable of the pattern that the next filter
follows, if only blank lines stand between. -/
def confine (pending : Option (List Char)) : List Clause → Except Refusal (List Line)
  | [] => .ok []
  | .other line :: rest => do
    return line :: (← confine pending rest)
  | .pattern line :: rest =>
    match patternVariable? line with
    | none => .error (.unnamedPattern line)
    | some v =>
      if filterFollows rest then do
        return line :: (← confine (some v) rest)
      else do
        return line :: patternFilter v :: (← confine none rest)
  | .filter line keyword predicate :: rest =>
    if predicate.isEmpty then .error .emptyFilter
    else
      match filterVariable? predicate <|> pending with
      | none => .error (.unscopedFilter line)
      | some v => do
        return wrapped keyword predicate :: conjunct v :: (← confine none rest)

/-- A query without white space and semicolons at its end. -/
def trimEnd (query : List Char) : List Char :=
  dropBlankEnd (dropEndWhile (· == ';') (dropBlankEnd query))

/-- The limit clause at the end of a text: what comes before it, and its digits. -/
def trailingLimit? (cs : List Char) : Option (List Char × List Char) :=
  let back := cs.reverse.dropWhile isBlank
  let digits := (back.takeWhile isDigit).reverse
  if digits.isEmpty then none
  else
    (blanks? (back.dropWhile isDigit)).bind fun r =>
      (wholeKeyword? "timil".toList r).map fun front => (front.reverse, digits)

/-- The largest row count that a limit can state. -/
def largestLimit : Nat := twoTo 64 - 1

/-- The number of rows to ask for, when a query asks for `digits` rows and `limit` is the most. -/
def effectiveLimit (digits : List Char) (limit : Nat) : Nat :=
  match decimal? digits with
  | some n => if n ≤ largestLimit then min n limit else limit
  | none => limit

/-- The clause that limits a query to `n` rows. -/
def limitClause (n : Nat) : List Char :=
  "LIMIT ".toList ++ showNat n

/-- The text with a limit of at most `limit` rows at its end. -/
def cap (limit : Nat) (cs : List Char) : List Char :=
  match trailingLimit? cs with
  | some (front, digits) => front ++ limitClause (effectiveLimit digits limit)
  | none => cs ++ '\n' :: limitClause limit

/-- The clauses of a query. -/
def clauses (query : List Char) : List Clause :=
  Clause.ofLines (lines (trimEnd query))

/-- A query scoped to a tenant and capped at `limit` rows. -/
def scope (query : List Char) (limit : Nat) : Except Refusal (List Char) := do
  return cap limit (unlines (← confine none (clauses query)))

end CodeGraph.Query
