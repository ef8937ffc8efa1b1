import CodeGraph.Store.Record

/-!
# Edges of a graph

Every target that a node holds under a relationship of its kind is an edge. `Graph.collect` turns
the edges of a graph into records, node by node and relationship by relationship: it leaves out the
edges that are never stored and those with an end that has no identity, and counts both.

* `HeldEdge.record?`: the record of one edge;
* `Collected.push`, `Collected.addUnder`, `Collected.addNode`: what becomes of one edge, of the
  targets under one relationship and of those of one node;
* `Graph.collect`: what becomes of all.
-/

namespace CodeGraph

/-- The relationships whose targets are never stored as edges. -/
def unstoredRelationships : List String := ["LANGUAGE"]

/-- A target that a node holds. -/
structure HeldEdge where
  source : Slot
  relationship : String
  target : Slot
  properties : Dict Json

/-- The record of an edge, if both ends have an identity. -/
def HeldEdge.record? (ids : IdMap) (e : HeldEdge) : Option EdgeRecord := do
  return ⟨← ids.get? e.source, ← ids.get? e.target, e.relationship, e.properties⟩

/-- What became of the edges of a graph. -/
structure Collected where
  records : Array EdgeRecord := #[]
  /-- The number of edges with an end that has no identity. -/
  unresolved : Nat := 0
  /-- The number of edges that are never stored. -/
  filtered : Nat := 0

namespace Collected

/-- Adds one edge of a kind that is stored. -/
def push (ids : IdMap) (c : Collected) (e : HeldEdge) : Collected :=
  match e.record? ids with
  | some r => { c with records := c.records.push r }
  | none => { c with unresolved := c.unresolved + 1 }

/-- Adds what the node of a slot holds under one relationship. -/
def addUnder (ids : IdMap) (s : Slot) (n : Node) (c : Collected) (r : Relationship) : Collected :=
  match n.relationships.get? r.name with
  | none => c
  | some ts =>
    if unstoredRelationships.contains r.name then
      { c with filtered := c.filtered + ts.slots.length }
    else
      match ts with
      | .edges es => es.foldl (fun c e => c.push ids ⟨s, r.name, e.target.toNat, e.properties⟩) c
      | .nodes ts => ts.foldl (fun c t => c.push ids ⟨s, r.name, t.toNat, .empty⟩) c
      | .single t => c.push ids ⟨s, r.name, t.toNat, .empty⟩

/-- Adds what a node holds under the relationships of its kind. -/
def addNode (ids : IdMap) (c : Collected) : Slot × Node → Collected
  | (s, n) => n.kind.relationships.foldl (addUnder ids s n) c

end Collected

/-- The records of the edges of a graph, in order, and the numbers of those left out. -/
def Graph.collect (g : Graph) (ids : IdMap) : Collected :=
  g.slots.foldl (Collected.addNode ids) {}

end CodeGraph
