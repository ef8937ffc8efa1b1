import CodeGraph.Store.Call

/-!
# A store in memory

`Memory` is a store that keeps what it is given in batches. It cannot run queries: rows to return
are queued beforehand. It can be told to fail, and it keeps a log of all calls.

* `Memory.nodes`, `Memory.edges`: what is stored;
* `Memory.perform`: one call;
* `Memory.reads`: the queries of the log.
-/

namespace CodeGraph

/-- What is to fail. Batches are counted from zero, whether they fail or not. -/
structure Faults where
  nodeBatch : Option Nat := none
  edgeBatch : Option Nat := none
  index : Bool := false
  /-- What every query fails with. -/
  reading : Option String := none

/-- A store in memory. -/
structure Memory where
  /-- The batches of nodes, without the nodes that are cleared. -/
  nodeBatches : List (List NodeRecord) := []
  /-- The batches of edges, each with its tenant. -/
  edgeBatches : List (Tenant × List EdgeRecord) := []
  /-- The rows that the next queries return. -/
  results : List (List Row) := []
  /-- The number of batches of nodes so far. -/
  nodeAttempts : Nat := 0
  /-- The number of batches of edges so far. -/
  edgeAttempts : Nat := 0
  faults : Faults := {}
  /-- All calls in order. -/
  log : List Call := []

namespace Memory

/-- The stored nodes. -/
def nodes (m : Memory) : List NodeRecord :=
  m.nodeBatches.flatten

/-- The stored edges. -/
def edges (m : Memory) : List EdgeRecord :=
  m.edgeBatches.flatMap Prod.snd

/-- The queries in order: tenant, text and limit. -/
def reads (m : Memory) : List (Tenant × String × Nat) :=
  m.log.filterMap fun
    | .read tenant query limit => some (tenant, query, limit)
    | _ => none

/-- The failure of a batch that is to fail. -/
def injected (what : String) (batch : Nat) : StoreError :=
  .connection ("injected failure in " ++ what ++ " batch " ++ String.ofList (Text.showNat batch))

/-- Stores a batch of nodes. -/
def createNodes (m : Memory) (records : List NodeRecord) : Except StoreError Unit × Memory :=
  let counted := { m with nodeAttempts := m.nodeAttempts + 1 }
  if m.faults.nodeBatch = some m.nodeAttempts then (.error (injected "node" m.nodeAttempts), counted)
  else (.ok (), { counted with nodeBatches := m.nodeBatches ++ [records] })

/-- Stores a batch of edges. -/
def createEdges (m : Memory) (tenant : Tenant) (records : List EdgeRecord) :
    Except StoreError Unit × Memory :=
  let counted := { m with edgeAttempts := m.edgeAttempts + 1 }
  if m.faults.edgeBatch = some m.edgeAttempts then
    (.error (injected "relationship" m.edgeAttempts), counted)
  else (.ok (), { counted with edgeBatches := m.edgeBatches ++ [(tenant, records)] })

/-- Whether a node belongs to a tenant. -/
def belongs (tenant : Tenant) (r : NodeRecord) : Bool :=
  r.tenant? == some tenant

/-- Deletes the nodes of a tenant, and the edges that were stored for it. -/
def clear (m : Memory) (tenant : Tenant) : Nat × Memory :=
  (m.nodes.countP (belongs tenant),
    { m with
      nodeBatches := m.nodeBatches.map fun batch => batch.filter (!belongs tenant ·)
      edgeBatches := m.edgeBatches.filter fun batch => batch.1 != tenant })

/-- Returns the next rows that are queued. -/
def read (m : Memory) (limit : Nat) : Except StoreError (List Row) × Memory :=
  match m.faults.reading with
  | some reason => (.error (.conversion reason), m)
  | none =>
    match m.results with
    | [] => (.ok [], m)
    | rows :: rest => (.ok (rows.take limit), { m with results := rest })

/-- The failure of the index, if it is to fail. -/
def ensureIndex (m : Memory) : Except StoreError Unit :=
  if m.faults.index then .error (.connection "injected index failure") else .ok ()

/-- One call: what it returns, and the store after it. -/
def perform (m : Memory) (c : Call) : c.Answer × Memory :=
  let m := { m with log := m.log ++ [c] }
  match c with
  | .createNodes records => m.createNodes records
  | .ensureIndex => (m.ensureIndex, m)
  | .createEdges tenant records => m.createEdges tenant records
  | .clear tenant =>
    let (count, m) := m.clear tenant
    (.ok count, m)
  | .read _ _ limit => m.read limit

end Memory

end CodeGraph
