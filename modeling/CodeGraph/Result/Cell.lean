import CodeGraph.Dict
import CodeGraph.Text.Number

/-!
# Cells of a result

A query gives rows of *cells*. A cell holds a node, an edge or a path of the store, a list of cells,
a text, or nothing. The store numbers its nodes and its edges, each for themselves.

* `StoreNode`, `StoreEdge`: nodes and edges as the store returns them;
* `Cell`, `Row`: the cells of a result;
* `Cell.display`: a cell as one text.
-/

namespace CodeGraph

/-- A node of the store whose properties are of type `α`. -/
structure StoreNode (α : Type) where
  /-- The number that the store gave the node. -/
  id : Int
  labels : List String
  /-- The properties in the order of their keys. -/
  properties : List (String × α)
deriving Repr, Inhabited

/-- An edge of the store whose properties are of type `α`. -/
structure StoreEdge (α : Type) where
  /-- The number that the store gave the edge. -/
  id : Int
  source : Int
  target : Int
  name : String
  /-- The properties in the order of their keys. -/
  properties : List (String × α)
deriving Repr, Inhabited

/-- One value of a row. -/
inductive Cell
  | null
  | text (s : String)
  | list (items : List Cell)
  | node (n : StoreNode Cell)
  | edge (e : StoreEdge Cell)
  | path (nodes : List (StoreNode Cell)) (edges : List (StoreEdge Cell))
deriving Repr, Inhabited

/-- A row of a result. -/
abbrev Row := List Cell

/-- Some texts between brackets. -/
def bracketed (items : List String) : String :=
  "[" ++ String.intercalate ", " items ++ "]"

/-- A number behind a word, in parentheses. -/
def numbered (word : String) (n : Int) (unit : String) : String :=
  word ++ "(" ++ String.ofList (Text.showInt n) ++ unit ++ ")"

namespace Cell

mutual

/-- A cell as one text. Of nodes, edges and paths only the number is shown. -/
def display : Cell → String
  | .null => ""
  | .text s => s
  | .list items => bracketed (displayAll items)
  | .node n => numbered "node" n.id ""
  | .edge e => numbered "relationship" e.id ""
  | .path nodes _ => numbered "path" nodes.length " nodes"

/-- The texts of some cells. -/
def displayAll : List Cell → List String
  | [] => []
  | c :: cs => display c :: displayAll cs

end

end Cell

end CodeGraph
