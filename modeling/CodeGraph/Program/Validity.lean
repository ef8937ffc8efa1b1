import CodeGraph.Program.Graph

/-!
# Validity of program graphs

A graph is valid if every relationship of every node is declared by the node's kind with the arity
of what the node holds, and every target is a slot of the arena.

* `Graph.Defect`: what is wrong with a graph, with `Graph.Defect.message`;
* `Graph.defect?`: the first defect, in the order of slots and then of names;
* `Graph.Valid`: the property, said without the search for a defect.
-/

namespace CodeGraph.Graph

/-- What is wrong with a graph. -/
inductive Defect
  /-- A node holds a relationship that its kind does not declare, or not with this arity. -/
  | undeclared (kind : Kind) (relationship : String)
  /-- A node holds a target outside the arena. -/
  | dangling (slot : Slot) (relationship : String) (target : Slot)
deriving DecidableEq, Repr

/-- The text that a defect is reported with. -/
def Defect.message : Defect → String
  | .undeclared kind relationship =>
    "Invalid program graph: " ++ kind.name ++ " declares no relationship named " ++ relationship
  | .dangling slot relationship target =>
    "Invalid program graph: node " ++ String.ofList (Text.showNat slot) ++
      " references missing slot " ++ String.ofList (Text.showNat target) ++ " via " ++ relationship

/-- Whether a kind declares a relationship of this name and arity. -/
def declares (kind : Kind) (relationship : String) (arity : Arity) : Bool :=
  (kind.relationship? relationship).any (·.arity == arity)

/-- The defect of one relationship of a node, in an arena of `size` slots. -/
def relationshipDefect? (size : Nat) (slot : Slot) (kind : Kind) (relationship : String)
    (ts : Targets) : Option Defect :=
  if declares kind relationship ts.arity then
    (ts.slots.find? fun t => size ≤ t).map (.dangling slot relationship ·)
  else some (.undeclared kind relationship)

/-- The first defect of a node. -/
def nodeDefect? (size : Nat) (slot : Slot) (n : Node) : Option Defect :=
  n.relationships.entries.findSome? fun (name, ts) =>
    relationshipDefect? size slot n.kind name ts

/-- The first defect of a graph. -/
def defect? (g : Graph) : Option Defect :=
  g.slots.findSome? fun (s, n) => nodeDefect? g.size s n

/-- Every relationship is declared with its arity, and every target is in the arena. -/
def Valid (g : Graph) : Prop :=
  ∀ s n, g.node? s = some n → ∀ name ts, (name, ts) ∈ n.relationships.entries →
    (∃ r, n.kind.relationship? name = some r ∧ r.arity = ts.arity) ∧ ∀ t ∈ ts.slots, t < g.size

end CodeGraph.Graph
