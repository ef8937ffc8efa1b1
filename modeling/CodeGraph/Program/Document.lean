import CodeGraph.Json.Decoder
import CodeGraph.Program.Validity

/-!
# The JSON form of program graphs

A graph is written as `{"nodes": […]}`, a node with its `id`, `kind`, `properties` and
`relationships`, and what it holds under the name of a relationship as an object whose only key,
`single`, `nodes` or `edges`, gives the form.

* `Graph.toJson`, `Node.toJson`, …: writing;
* `Graph.decoder`, `Node.decoder`, …: reading, where `properties` and `relationships` may be missing;
* `Graph.load`: reads the contents of a file and rejects a graph that is not valid.
-/

namespace CodeGraph

open Json (Decoder)

/-! ### Writing -/

/-- The JSON form of an edge. -/
def Edge.toJson (e : Edge) : Json :=
  .object [("properties", .ofDict e.properties), ("target", .nat e.target.toNat)]

/-- The JSON form of what a node holds under the name of a relationship. -/
def Targets.toJson : Targets → Json
  | .single t => .object [("single", .nat t.toNat)]
  | .nodes ts => .object [("nodes", .list (ts.map fun t => .nat t.toNat))]
  | .edges es => .object [("edges", .list (es.map Edge.toJson))]

/-- The JSON form of a node. -/
def Node.toJson (n : Node) : Json :=
  .object [("id", .int n.id.toInt), ("kind", .text n.kind.name),
    ("properties", .ofDict n.properties),
    ("relationships", .ofDict (n.relationships.map Targets.toJson))]

/-- The JSON form of a graph. -/
def Graph.toJson (g : Graph) : Json :=
  .object [("nodes", .list (g.nodes.toList.map Node.toJson))]

/-! ### Reading -/

/-- The name of a kind. -/
def Kind.decoder : Decoder Kind :=
  .tagged (Kind.all.map fun k => (k.name, .bare k))

/-- The known part of an edge. -/
structure Edge.Draft where
  target : Option UInt64 := none
  properties : Option (Dict Json) := none

/-- The fields of an edge in order. -/
def Edge.fields : List (Decoder.Field Edge.Draft) :=
  [Decoder.field "target" .uint64 Draft.target fun s x => { s with target := some x },
    Decoder.field "properties" (.dict .value) Draft.properties
      fun s x => { s with properties := some x }]

/-- The edge of a draft that has a target. -/
def Edge.Draft.finish (s : Edge.Draft) : Option Edge :=
  s.target.map fun target => ⟨target, s.properties.getD .empty⟩

/-- An edge. -/
def Edge.decoder : Decoder Edge :=
  .record Edge.fields {} Edge.Draft.finish

/-- What a node holds under the name of a relationship. -/
def Targets.decoder : Decoder Targets :=
  .tagged
    [("single", .holding (Decoder.uint64.map Targets.single)),
      ("nodes", .holding ((Decoder.list .uint64).map Targets.nodes)),
      ("edges", .holding ((Decoder.list Edge.decoder).map Targets.edges))]

/-- The known part of a node. -/
structure Node.Draft where
  id : Option Int64 := none
  kind : Option Kind := none
  properties : Option (Dict Json) := none
  relationships : Option (Dict Targets) := none

/-- The fields of a node in order. -/
def Node.fields : List (Decoder.Field Node.Draft) :=
  [Decoder.field "id" .int64 Draft.id fun s x => { s with id := some x },
    Decoder.field "kind" Kind.decoder Draft.kind fun s x => { s with kind := some x },
    Decoder.field "properties" (.dict .value) Draft.properties
      fun s x => { s with properties := some x },
    Decoder.field "relationships" (.dict Targets.decoder) Draft.relationships
      fun s x => { s with relationships := some x }]

/-- The node of a draft that has a number and a kind. -/
def Node.Draft.finish (s : Node.Draft) : Option Node := do
  return ⟨← s.id, ← s.kind, s.properties.getD .empty, s.relationships.getD .empty⟩

/-- A node. -/
def Node.decoder : Decoder Node :=
  .record Node.fields {} Node.Draft.finish

/-- A graph. Its only field is the list of nodes. -/
def Graph.decoder : Decoder Graph :=
  .record
    [Decoder.field "nodes" (.list Node.decoder) id fun (_ : Option (List Node)) x => some x] none
    fun nodes => nodes.map fun ns => ⟨ns.toArray⟩

/-! ### Files -/

/-- Why a file gives no graph. -/
inductive Graph.LoadError
  /-- There is no such file. -/
  | missing
  /-- The file is no text. -/
  | notText
  /-- The text is not the JSON form of a graph. -/
  | unreadable (fault : Json.Fault)
  /-- The graph is not valid. -/
  | invalid (defect : Graph.Defect)
deriving DecidableEq, Repr

/-- The valid graph that a text holds. -/
def Graph.ofText (text : String) : Except Graph.LoadError Graph :=
  match Graph.decoder.ofText text with
  | .error f => .error (.unreadable f)
  | .ok g =>
    match g.defect? with
    | some d => .error (.invalid d)
    | none => .ok g

/-- The valid graph that a file holds, given its contents if there is such a file. -/
def Graph.load (contents : Option ByteArray) : Except Graph.LoadError Graph :=
  match contents with
  | none => .error .missing
  | some bytes =>
    match String.fromUTF8? bytes with
    | none => .error .notText
    | some text => Graph.ofText text

end CodeGraph
