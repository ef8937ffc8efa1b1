import CodeGraph.Query.DenyList
import CodeGraph.Query.Scope
import CodeGraph.Result.Drawing
import CodeGraph.Store.Persistence

/-!
# The gateway for queries

A query from outside reaches the store only through the gateway, which checks it, scopes it to a
tenant and caps it.

* `QueryError`: why a query has no result, with `QueryError.message`;
* `Gateway.execute`: the rows of a query;
* `Gateway.draw`: the drawing of its result;
* `Gateway.trackedVariables`: the names of a tenant's tracked variables.
-/

namespace CodeGraph

/-- Why a query has no result. -/
inductive QueryError
  /-- The query is refused. -/
  | denied (refusal : Query.Refusal)
  /-- The store does not carry it out. -/
  | execution (cause : StoreError)

/-- The text that an error is reported with. -/
def QueryError.message : QueryError → String
  | .denied refusal => refusal.message
  | .execution cause => "Query execution failed: " ++ cause.message

namespace Gateway

/-- The number of rows that a limit stands for. -/
def rowCount (limit : Nat) : Nat := max limit 1

/-- The query that the store is asked, or why it is refused. -/
def accept (limit : Nat) (query : String) : Except Query.Refusal String := do
  Query.check query.toList
  return String.ofList (← Query.scope query.toList (rowCount limit))

/-- The rows of a query. -/
def execute (limit : Nat) (tenant : Tenant) (query : String) : Attempt QueryError (List Row) :=
  match accept limit query with
  | .error refusal => throw (.denied refusal)
  | .ok query => attempt .execution (.read tenant query (rowCount limit))

/-- The drawing of the result of a query. -/
def draw (limit : Nat) (tenant : Tenant) (query : String) : Attempt QueryError Drawing := do
  return Drawing.ofRows (← execute limit tenant query)

/-- Asks for the tracked variables. -/
def trackedQuery : String := "MATCH (n:TrackedVariable)\nRETURN n"

/-- The names of some nodes in order, each once. -/
def names (nodes : List DrawnNode) : List String :=
  (nodes.filterMap fun n => n.title.lookup "name").eraseDups

/-- The names of the tracked variables of a tenant. -/
def trackedVariables (limit : Nat) (tenant : Tenant) : Attempt QueryError (List String) := do
  return names (← draw limit tenant trackedQuery).nodes.toList

end Gateway

end CodeGraph
