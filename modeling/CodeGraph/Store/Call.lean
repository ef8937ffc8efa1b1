import CodeGraph.Dialogue
import CodeGraph.Result.Cell
import CodeGraph.Store.Record

/-!
# Calls to the store

The store offers five operations. Programs that use it are dialogues whose questions are `Call`s, so
they do not depend on the kind of store.

* `StoreError`: why a call fails, with `StoreError.message`;
* `Call`, `Call.Answer`: the operations and what they return;
* `Exchange`: a dialogue with the store.
-/

namespace CodeGraph

/-- Why the server does not do what it is asked for. -/
inductive ServerFault
  /-- The server cannot be reached. -/
  | unreachable (detail : String)
  /-- The login is refused. -/
  | login (message : String)
  /-- A statement is refused. -/
  | statement (code message : String)
  /-- Another request, given by its name, is refused. -/
  | request (name : String)
deriving DecidableEq, Repr

/-- The text that a fault of the server is reported with. -/
def ServerFault.message : ServerFault → String
  | .unreachable detail => "an IO error occurred: " ++ detail
  | .login message => message
  | .statement code message => "Neo4j error `" ++ code ++ "`: " ++ message
  | .request name => "unexpected response for " ++ name

/-- Why a call to the store fails. -/
inductive StoreError
  /-- There is no connection. -/
  | connection (reason : String)
  /-- The server does not carry out the call. -/
  | query (fault : ServerFault)
  /-- A row cannot be read. -/
  | conversion (reason : String)
deriving DecidableEq, Repr

/-- The text that an error is reported with. -/
def StoreError.message : StoreError → String
  | .connection reason => "Neo4j connection error: " ++ reason
  | .query fault => "Neo4j query error: " ++ fault.message
  | .conversion reason => "Failed to decode result row: " ++ reason

/-- An operation of the store. -/
inductive Call
  /-- Creates nodes, all or none. -/
  | createNodes (records : List NodeRecord)
  /-- Makes sure that nodes can be found by their identity. -/
  | ensureIndex
  /-- Creates edges between nodes of a tenant, all or none. -/
  | createEdges (tenant : Tenant) (records : List EdgeRecord)
  /-- Deletes the nodes of a tenant with their edges, and counts the nodes. -/
  | clear (tenant : Tenant)
  /-- Runs a query for a tenant and returns at most `limit` rows. -/
  | read (tenant : Tenant) (query : String) (limit : Nat)

/-- What an operation returns if it succeeds. -/
def Call.Value : Call → Type
  | .createNodes _ => Unit
  | .ensureIndex => Unit
  | .createEdges .. => Unit
  | .clear _ => Nat
  | .read .. => List Row

/-- What an operation returns. -/
abbrev Call.Answer (c : Call) : Type := Except StoreError c.Value

/-- A dialogue with the store. -/
abbrev Exchange := Dialogue Call Call.Answer

/-- A single call. -/
def Call.ask (c : Call) : Exchange c.Answer := Dialogue.question c

end CodeGraph
