import CodeGraph.Json.Value
import CodeGraph.Program.Kind
import CodeGraph.Result.Cell

/-!
# Drawings

A `Drawing` is what is shown of a result: its nodes and its edges, each once. The rows are gone
through from left to right and lists are entered; a path gives its nodes and then its edges. The
first occurrence of a number counts, and nodes and edges are numbered apart from one another.

* `Drawing.addNode`, `Drawing.addEdge`: one occurrence;
* `Drawing.visit`: all occurrences in a cell;
* `Drawing.ofRows`: the drawing of a result.
-/

namespace CodeGraph

/-- A node as it is drawn. -/
structure DrawnNode where
  id : Int
  /-- The most specific label. -/
  label : String
  labels : List String
  /-- The properties as texts. -/
  title : List (String × String)
deriving DecidableEq, Repr

/-- An edge as it is drawn. -/
structure DrawnEdge where
  id : Int
  source : Int
  target : Int
  label : String
  /-- The properties as texts. -/
  title : List (String × String)
deriving DecidableEq, Repr

/-- The first label that does not go for all nodes, if there is one. -/
def primaryLabel (labels : List String) : String :=
  ((labels.find? (· != nodeLabel)) <|> labels.head?).getD nodeLabel

/-- Properties as texts. -/
def titles (properties : List (String × Cell)) : List (String × String) :=
  properties.map fun (key, c) => (key, c.display)

/-- A node of the store as it is drawn. -/
def StoreNode.drawn (n : StoreNode Cell) : DrawnNode :=
  ⟨n.id, primaryLabel n.labels, n.labels, titles n.properties⟩

/-- An edge of the store as it is drawn. -/
def StoreEdge.drawn (e : StoreEdge Cell) : DrawnEdge :=
  ⟨e.id, e.source, e.target, e.name, titles e.properties⟩

/-- The nodes and edges of a result in the order in which they first occur. -/
structure Drawing where
  nodes : Array DrawnNode := #[]
  edges : Array DrawnEdge := #[]

namespace Drawing

/-- Draws a node, unless one with its number is drawn. -/
def addNode (d : Drawing) (n : StoreNode Cell) : Drawing :=
  if d.nodes.any (·.id == n.id) then d else { d with nodes := d.nodes.push n.drawn }

/-- Draws an edge, unless one with its number is drawn. -/
def addEdge (d : Drawing) (e : StoreEdge Cell) : Drawing :=
  if d.edges.any (·.id == e.id) then d else { d with edges := d.edges.push e.drawn }

mutual

/-- Draws what a cell holds. -/
def visit (d : Drawing) : Cell → Drawing
  | .null => d
  | .text _ => d
  | .list items => visitAll d items
  | .node n => d.addNode n
  | .edge e => d.addEdge e
  | .path nodes edges => edges.foldl addEdge (nodes.foldl addNode d)

/-- Draws what some cells hold. -/
def visitAll (d : Drawing) : List Cell → Drawing
  | [] => d
  | c :: cs => visitAll (visit d c) cs

end

/-- The drawing of a result. -/
def ofRows (rows : List Row) : Drawing :=
  rows.foldl visitAll {}

end Drawing

/-! ### Writing -/

/-- A number of the store, written as a text. -/
def idText (n : Int) : Json :=
  .text (String.ofList (Text.showInt n))

/-- The JSON form of a title. -/
def titleJson (title : List (String × String)) : Json :=
  .ofMembers (title.map fun (key, s) => (key, .text s))

/-- The JSON form of a drawn node. -/
def DrawnNode.toJson (n : DrawnNode) : Json :=
  .object [("id", idText n.id), ("label", .text n.label), ("labels", .ofStrings n.labels),
    ("title", titleJson n.title)]

/-- The JSON form of a drawn edge. -/
def DrawnEdge.toJson (e : DrawnEdge) : Json :=
  .object [("from", idText e.source), ("id", idText e.id), ("label", .text e.label),
    ("title", titleJson e.title), ("to", idText e.target)]

/-- The JSON form of a drawing. -/
def Drawing.toJson (d : Drawing) : Json :=
  .object [("edges", .list (d.edges.toList.map DrawnEdge.toJson)),
    ("nodes", .list (d.nodes.toList.map DrawnNode.toJson))]

end CodeGraph
