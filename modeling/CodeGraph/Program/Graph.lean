import CodeGraph.Program.Kind
import CodeGraph.Json.Value

/-!
# Program graphs

A program graph is an arena of nodes. A node refers to another by its *slot*, the position in the
arena. Graphs come from outside: a node may hold relationships that its kind does not declare, and
targets that are no slots (see `CodeGraph.Program.Validity`).

* `Edge`, `Targets`: what a node holds under the name of a relationship;
* `Targets.slots`: the slots of its targets in order;
* `Node`: kind, properties and relationships; `Node.name?` and `Node.localName?` skip empty names;
* `Graph`: the arena; `Graph.node? s` is the node of a slot.
-/

namespace CodeGraph

/-- A position in the arena. -/
abbrev Slot := Nat

/-- A target with properties of its own. The slot is a 64-bit word. -/
structure Edge where
  target : UInt64
  properties : Dict Json

/-- What a node holds under the name of a relationship. The slots are 64-bit words. -/
inductive Targets
  /-- One target. -/
  | single (target : UInt64)
  /-- A list of targets. -/
  | nodes (targets : List UInt64)
  /-- A list of targets with properties. -/
  | edges (edges : List Edge)

/-- The form of the targets. -/
def Targets.arity : Targets → Arity
  | .single _ => .single
  | .nodes _ => .nodes
  | .edges _ => .edges

/-- The slots of the targets in order, each with the properties of its edge. -/
def Targets.ends : Targets → List (Slot × Dict Json)
  | .single t => [(t.toNat, .empty)]
  | .nodes ts => ts.map fun t => (t.toNat, .empty)
  | .edges es => es.map fun e => (e.target.toNat, e.properties)

/-- The slots of the targets in order. -/
def Targets.slots (ts : Targets) : List Slot :=
  ts.ends.map Prod.fst

/-- A node. Its number comes from outside and need not be its own. -/
structure Node where
  id : Int64
  kind : Kind
  properties : Dict Json
  relationships : Dict Targets

namespace Node

/-- A node that holds nothing. -/
def bare (id : Int64) (kind : Kind) : Node := ⟨id, kind, .empty, .empty⟩

/-- The node with a property set. -/
def withProperty (n : Node) (key : String) (value : Json) : Node :=
  { n with properties := n.properties.insert key value }

/-- The node with a relationship set. -/
def withRelationship (n : Node) (name : String) (targets : Targets) : Node :=
  { n with relationships := n.relationships.insert name targets }

/-- The text of a property. -/
def text? (n : Node) (key : String) : Option String :=
  (n.properties.get? key).bind Json.text?

/-- A text of a property that is not empty. -/
def nonempty? (n : Node) (key : String) : Option String :=
  (n.text? key).filter (!·.isEmpty)

/-- The name of a node. -/
def name? (n : Node) : Option String :=
  n.nonempty? "name"

/-- The last component of the name, or the name itself. -/
def localName? (n : Node) : Option String :=
  n.nonempty? "localName" <|> n.name?

/-- The text of the node in its program. -/
def code? (n : Node) : Option String :=
  n.text? "code"

/-- The labels of the node's kind. -/
def labels (n : Node) : List String :=
  n.kind.labels

/-- The slots that the node holds under a name. -/
def targets (n : Node) (relationship : String) : List Slot :=
  match n.relationships.get? relationship with
  | some ts => ts.slots
  | none => []

end Node

/-- An arena of nodes. -/
structure Graph where
  nodes : Array Node

namespace Graph

/-- The number of nodes. -/
def size (g : Graph) : Nat := g.nodes.size

/-- The node of a slot. -/
def node? (g : Graph) (s : Slot) : Option Node := g.nodes[s]?

/-- The kind of the node of a slot. -/
def kind? (g : Graph) (s : Slot) : Option Kind := (g.node? s).map Node.kind

/-- The slots with their nodes, in order. -/
def slots (g : Graph) : List (Slot × Node) :=
  g.nodes.toList.mapIdx fun s n => (s, n)

@[simp] theorem length_slots (g : Graph) : g.slots.length = g.size := by
  simp [slots, size]

theorem mem_slots {g : Graph} {s : Slot} {n : Node} : (s, n) ∈ g.slots ↔ g.node? s = some n := by
  simp only [slots, node?, List.mem_mapIdx, Prod.mk.injEq]
  constructor
  · rintro ⟨i, h, rfl, rfl⟩
    simp
  · intro h
    obtain ⟨hlt, rfl⟩ := Array.getElem?_eq_some_iff.1 h
    exact ⟨s, by simpa using hlt, rfl, by simp⟩

end Graph

end CodeGraph
