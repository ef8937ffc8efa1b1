import CodeGraph.Json.Value

/-!
# JSON over several lines

`Json.pretty` writes a value with one item or member on a line, indented by two blanks for each list
or object around it. Empty lists and objects stay on one line.
-/

namespace CodeGraph.Json

/-- The blanks that a line begins with. -/
def margin (depth : Nat) : String :=
  String.ofList (List.replicate (2 * depth) ' ')

/-- Lines between an opening and a closing bracket. -/
def bracketed (opening closing : String) (depth : Nat) : List String → String
  | [] => opening ++ closing
  | lines =>
    opening ++ "\n" ++ String.intercalate ",\n" (lines.map (margin (depth + 1) ++ ·)) ++ "\n" ++
      margin depth ++ closing

mutual

/-- The text of a value inside `depth` lists and objects. -/
def prettyAt (depth : Nat) : Json → String
  | .list items => bracketed "[" "]" depth (prettyItems (depth + 1) items)
  | .object members => bracketed "\x7b" "\x7d" depth (prettyMembers (depth + 1) members)
  | j => j.write

/-- The texts of the items of a list. -/
def prettyItems (depth : Nat) : List Json → List String
  | [] => []
  | j :: js => prettyAt depth j :: prettyItems depth js

/-- The texts of the members of an object. -/
def prettyMembers (depth : Nat) : List (String × Json) → List String
  | [] => []
  | (key, j) :: ms => (quote key ++ ": " ++ prettyAt depth j) :: prettyMembers depth ms

end

/-- The text of a value over several lines. -/
def pretty (j : Json) : String :=
  prettyAt 0 j

end CodeGraph.Json
