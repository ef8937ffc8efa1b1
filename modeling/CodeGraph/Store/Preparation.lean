import CodeGraph.Program.Tagging
import CodeGraph.Store.Record

/-!
# Preparing nodes for the store

`Graph.prepare` gives every node of a graph that is stored an identity and makes its record: the
node's own properties with identity, tenant and names written over them, and its kind's labels with
the label of its tag. The identity of a slot comes from `draw`, which the caller supplies.

* `Node.isStored`, `Graph.storedSlots`: nodes of unknown type are never stored;
* `Graph.displayName`: the name that a node is stored under;
* `Graph.nodeRecord`: the record of one node;
* `Prepared.Draft.add`: what becomes of one node;
* `Graph.prepare`: records, identities and tags of a whole graph.
-/

namespace CodeGraph

/-- Whether a node is stored. -/
def Node.isStored (n : Node) : Bool :=
  n.kind != .unknownType

namespace Graph

/-- The slots of a graph that are stored, with their nodes. -/
def storedSlots (g : Graph) : List (Slot × Node) :=
  g.slots.filter fun (_, n) => n.isStored

/-- The local name of the node that a scope belongs to. -/
def scopedName? (g : Graph) (scope : Node) : Option String := do
  let owner ← (scope.targets "AST_NODE").head?
  (← g.node? owner).localName?

/-- The name that a node is stored under: the path that its name spells. A scope without a name goes
by the name of the node that it belongs to. -/
def displayName (g : Graph) (n : Node) : String :=
  if n.kind.isScope && n.name?.isNone then
    match g.scopedName? n with
    | some name => Symbol.decode name
    | none => n.path
  else n.path

/-- The properties that a node is stored with. -/
def storedProperties (g : Graph) (tenant : Tenant) (id : Identity) (n : Node) : Dict Json :=
  let name := Json.text (g.displayName n)
  ((((n.properties.insert idKey (.text id.text)).insert "name" name).insert "fullName" name).insert
    "localName" name).insert tenantKey (.text tenant)

/-- The record of a node. -/
def nodeRecord (g : Graph) (tenant : Tenant) (id : Identity) (tag? : Option Tag) (n : Node) :
    NodeRecord :=
  ⟨n.labels ++ (tag?.map Tag.label).toList, g.storedProperties tenant id n⟩

end Graph

/-- The nodes of a graph, ready to be stored. -/
structure Prepared where
  ids : IdMap
  /-- The records of the stored nodes in the order of their slots. -/
  records : List NodeRecord
  /-- The number of nodes that are not stored. -/
  filtered : Nat
  /-- The tagged slots in order. -/
  tags : List (Slot × Tag)

/-- What is prepared of the first nodes of a graph. -/
structure Prepared.Draft where
  ids : IdMap
  records : Array NodeRecord := #[]
  filtered : Nat := 0
  tags : Array (Slot × Tag) := #[]

/-- Prepares one more node of a graph with these taggings: one that is stored gets an identity and a
record, and is listed if it is tagged. -/
def Prepared.Draft.add (g : Graph) (taggings : List (Slot × Tag)) (draw : Slot → Identity)
    (tenant : Tenant) (d : Draft) : Slot × Node → Draft
  | (s, n) =>
    if n.isStored then
      let tag? := taggings.lookup s
      { d with
        ids := d.ids.assign s (draw s)
        records := d.records.push (g.nodeRecord tenant (draw s) tag? n)
        tags := match tag? with
          | some t => d.tags.push (s, t)
          | none => d.tags }
    else { d with filtered := d.filtered + 1 }

/-- The nodes of a graph, ready to be stored for a tenant, where `draw` gives identities. -/
def Graph.prepare (draw : Slot → Identity) (g : Graph) (tenant : Tenant) : Prepared :=
  let d := g.slots.foldl (Prepared.Draft.add g g.taggings draw tenant) { ids := .ofSize g.size }
  ⟨d.ids, d.records.toList, d.filtered, d.tags.toList⟩

end CodeGraph
