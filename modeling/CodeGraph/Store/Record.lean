import CodeGraph.Json.Decoder
import CodeGraph.Store.Identity

/-!
# Records

What is handed to the store: a `NodeRecord` for every node and an `EdgeRecord` for every edge
between two of them. Records are flat; a node record carries its identity and its tenant among its
properties, under `idKey` and `tenantKey`.
-/

namespace CodeGraph

/-- The project that stored data belongs to. -/
abbrev Tenant := String

/-- The property that holds the identity of a stored node. -/
def idKey : String := "id"

/-- The property that holds the tenant of stored data. -/
def tenantKey : String := "projectId"

/-- A node ready to be stored. -/
structure NodeRecord where
  labels : List String
  properties : Dict Json

namespace NodeRecord

/-- The identity that the record carries. -/
def id? (r : NodeRecord) : Option String :=
  (r.properties.get? idKey).bind Json.text?

/-- The tenant that the record carries. -/
def tenant? (r : NodeRecord) : Option Tenant :=
  (r.properties.get? tenantKey).bind Json.text?

/-- Whether the record has a label. -/
def hasLabel (r : NodeRecord) (label : String) : Bool :=
  r.labels.contains label

/-- The JSON form of a record. -/
def toJson (r : NodeRecord) : Json :=
  .object [("labels", .ofStrings r.labels), ("properties", .ofDict r.properties)]

/-- The known part of a record. -/
structure Draft where
  labels : Option (List String) := none
  properties : Option (Dict Json) := none

/-- A record. Both fields are required. -/
def decoder : Json.Decoder NodeRecord :=
  .record
    [Json.Decoder.field "labels" (.list .text) Draft.labels fun s x => { s with labels := some x },
      Json.Decoder.field "properties" (.dict .value) Draft.properties
        fun s x => { s with properties := some x }]
    {} fun s => do return ⟨← s.labels, ← s.properties⟩

end NodeRecord

/-- An edge ready to be stored. -/
structure EdgeRecord where
  source : Identity
  target : Identity
  /-- The type of the edge, which is the name of a relationship. -/
  name : String
  properties : Dict Json

end CodeGraph
