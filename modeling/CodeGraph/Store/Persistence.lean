import CodeGraph.Settings
import CodeGraph.Store.Call
import CodeGraph.Store.Chunk
import CodeGraph.Store.Collection
import CodeGraph.Store.Preparation

/-!
# Writing graphs

Nodes and edges are written in chunks. The store takes each chunk whole or not at all; the first
chunk that fails ends the writing, and the chunks before it stay.

* `PersistError`: why a graph is not written, with `PersistError.message`;
* `writeChunks`: writes chunks until one fails;
* `writeNodes`, `writeEdges`: write records;
* `persist`: writes all of a graph.
-/

namespace CodeGraph

/-- Why a graph is not written. -/
inductive PersistError
  /-- The index cannot be made sure of. -/
  | index (cause : StoreError)
  /-- A chunk of nodes is not written; `committed` counts the chunks before it. -/
  | nodeChunk (chunk committed : Nat) (cause : StoreError)
  /-- A chunk of edges is not written; `committed` counts the chunks before it. -/
  | edgeChunk (chunk committed : Nat) (cause : StoreError)
deriving DecidableEq, Repr

namespace PersistError

/-- What the store reported. -/
def cause : PersistError → StoreError
  | .index e => e
  | .nodeChunk _ _ e => e
  | .edgeChunk _ _ e => e

/-- The text about a chunk that is not written. -/
def chunkMessage (what : String) (chunk committed : Nat) (cause : StoreError) : String :=
  what ++ " chunk " ++ String.ofList (Text.showNat chunk) ++ " failed after " ++
    String.ofList (Text.showNat committed) ++ " committed chunks: " ++ cause.message

/-- The text that an error is reported with. -/
def message : PersistError → String
  | .index e => "Failed to ensure node id index: " ++ e.message
  | .nodeChunk chunk committed e => chunkMessage "Node" chunk committed e
  | .edgeChunk chunk committed e => chunkMessage "Relationship" chunk committed e

end PersistError

/-- A dialogue with the store that can fail. -/
abbrev Attempt (ε α : Type) := ExceptT ε Exchange α

/-- An attempt to make one call, whose failure is reported as `report` says. -/
def attempt {ε : Type} (report : StoreError → ε) (c : Call) : Attempt ε c.Value :=
  ExceptT.mk (do return (← c.ask).mapError report)

/-- Writes chunks in order until one fails, where `written` chunks are written already. -/
def writeChunks {α : Type} (write : Nat → List α → Attempt PersistError Unit) :
    Nat → List (List α) → Attempt PersistError Unit
  | _, [] => pure ()
  | written, chunk :: chunks => do
    write written chunk
    writeChunks write (written + 1) chunks

/-- Writes one chunk of nodes after `written` others. -/
def writeNodeChunk (written : Nat) (chunk : List NodeRecord) : Attempt PersistError Unit :=
  attempt (.nodeChunk written written) (.createNodes chunk)

/-- Writes one chunk of edges after `written` others. -/
def writeEdgeChunk (tenant : Tenant) (written : Nat) (chunk : List EdgeRecord) :
    Attempt PersistError Unit :=
  attempt (.edgeChunk written written) (.createEdges tenant chunk)

/-- Writes records of nodes. -/
def writeNodes (sizes : Settings.Chunks) (records : List NodeRecord) : Attempt PersistError Unit :=
  writeChunks writeNodeChunk 0 (chunksOf sizes.nodes records)

/-- Whether a record is of a kind that is stored. -/
def EdgeRecord.isStored (r : EdgeRecord) : Bool :=
  !unstoredRelationships.contains r.name

/-- Writes records of edges, without those that are never stored, and counts them. -/
def writeEdges (sizes : Settings.Chunks) (tenant : Tenant) (records : List EdgeRecord) :
    Attempt PersistError Nat := do
  let kept := records.filter EdgeRecord.isStored
  attempt .index .ensureIndex
  writeChunks (writeEdgeChunk tenant) 0 (chunksOf sizes.edges kept)
  return kept.length

/-- What became of the nodes and edges of a graph. -/
structure Tally where
  nodesPersisted : Nat
  nodesFiltered : Nat
  edgesPersisted : Nat
  /-- Edges that are never stored or have an end that is not stored. -/
  edgesDropped : Nat
deriving DecidableEq, Repr

/-- Writes a graph for a tenant, where `draw` gives identities. -/
def persist (sizes : Settings.Chunks) (draw : Slot → Identity) (g : Graph) (tenant : Tenant) :
    Attempt PersistError (Prepared × Tally) := do
  let p := g.prepare draw tenant
  writeNodes sizes p.records
  let c := g.collect p.ids
  let written ← writeEdges sizes tenant c.records.toList
  let t : Tally := {
    nodesPersisted := p.records.length
    nodesFiltered := p.filtered
    edgesPersisted := written
    edgesDropped := c.unresolved + c.filtered + (c.records.size - written) }
  return (p, t)

end CodeGraph
