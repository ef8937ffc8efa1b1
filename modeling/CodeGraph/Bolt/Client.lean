import CodeGraph.Bolt.Conversion
import CodeGraph.Bolt.Session
import CodeGraph.Store.Call

/-!
# A client of the server

The store can be a server that speaks Bolt. The client carries each call to the store out as a
dialogue whose questions are requests to the server.

* `Client.write`, `Client.queryOne`, `Client.readOnly`: the three ways to use a connection;
* `Client.collectRows`: the loop that takes the rows of a query;
* `Client.perform`: a call to the store.

A write is a transaction of its own. A read is a transaction that is always rolled back.
-/

namespace CodeGraph.Bolt

namespace Client

/-- Runs a statement in a transaction of its own. -/
def write (server : Settings.Server) (statement : String) (parameters : Parameters) :
    Client Unit := do
  acquire server
  send .beginTransaction
  execute statement parameters
  send .commit

/-- Takes rows, one after the other, until there are `limit` of them or no more. -/
def collectRows {m : Type → Type} [Monad m] {σ ρ : Type} (next : σ → m (Option (ρ × σ))) :
    (limit : Nat) → σ → m (List ρ)
  | 0, _ => return []
  | limit + 1, s => do
    match ← next s with
    | none => return []
    | some (row, s) => return row :: (← collectRows next limit s)

/-- A table of rows under the names of its columns. -/
structure Table where
  columns : List Value
  rows : List (List Value)

/-- Runs a statement and takes at most `limit` of its rows. -/
def collect (server : Settings.Server) (statement : String) (parameters : Parameters)
    (limit : Nat) : Client Table := do
  let columns ← send (.run statement parameters)
  return ⟨columns, ← collectRows (Stream.next server.fetchSize) limit .fresh⟩

/-- Runs a statement and takes its first row, if there is one. -/
def queryOne (server : Settings.Server) (statement : String) (parameters : Parameters) :
    Client (Option (Dict Value)) := do
  acquire server
  let columns ← send (.run statement parameters)
  match ← Stream.fresh.next server.fetchSize with
  | none => return none
  | some (row, _) => return some (rowColumns columns row)

/-- The integer in a column of the first row of a statement; zero if there is none. -/
def query (server : Settings.Server) (statement : String) (parameters : Parameters)
    (column : String) : Client Int := do
  match ← queryOne server statement parameters with
  | none => return 0
  | some row =>
    match row.get? column with
    | some (.int n) => return n
    | _ => return 0

/-- Runs a statement in a transaction that is rolled back. If both fail, the statement's fault is
the one that counts. -/
def readOnly (server : Settings.Server) (statement : String) (parameters : Parameters)
    (limit : Nat) : Client Table := do
  acquire server
  send .beginTransaction
  let outcome ← (observing (collect server statement parameters limit))
  let ending ← observing (send .rollback)
  match outcome, ending with
  | .error fault, _ => throw fault
  | .ok _, .error fault => throw fault
  | .ok table, .ok _ => return table
where
  /-- What comes of an attempt, as a value. -/
  observing {α : Type} (c : Client α) : Client (Except ServerFault α) :=
    ExceptT.mk (do return .ok (← c.run))

end Client

/-! ### Statements -/

/-- The text of a pattern of properties. -/
def pattern (inner : String) : String := "\x7b" ++ inner ++ "\x7d"

/-- Creates the nodes of a list of rows. -/
def createNodesStatement : String :=
  "UNWIND $rows AS row\n" ++
  "             CALL apoc.create.node(row.labels, row.properties) YIELD node\n" ++
  "             RETURN count(node) AS created"

/-- Makes an index over the identities of nodes. -/
def indexStatement : String :=
  "CREATE INDEX node_id IF NOT EXISTS FOR (n:" ++ nodeLabel ++ ") ON (n.id)"

/-- Creates the edges of a list of rows. -/
def createEdgesStatement : String :=
  "UNWIND $rels AS r\n" ++
  "             MATCH (s:" ++ nodeLabel ++ " " ++
    pattern "id: r.startId, projectId: $projectId" ++ ")\n" ++
  "             MATCH (e:" ++ nodeLabel ++ " " ++
    pattern "id: r.endId, projectId: $projectId" ++ ")\n" ++
  "             CALL apoc.create.relationship(s, r.type, r.properties, e) YIELD rel\n" ++
  "             RETURN count(rel) AS created"

/-- Deletes the nodes of a tenant. -/
def clearStatement : String :=
  "MATCH (n " ++ pattern "projectId: $projectId" ++ ")\n" ++
  "             DETACH DELETE n\n" ++
  "             RETURN count(n) AS deleted"

/-- Counts the nodes of a tenant. -/
def countStatement : String :=
  "MATCH (n " ++ pattern "projectId: $projectId" ++ ") RETURN count(n) AS cnt"

/-! ### Parameters -/

/-- A property as the store takes it. Null is no property, and lists and objects are stored as their
JSON text. -/
def ofJson? : Json → Option Value
  | .null => none
  | .bool b => some (.bool b)
  | .number (.int n) =>
    if n < twoTo 63 then some (.int n) else some (.float (Binary64.ofWord (UInt64.ofNat n.toNat)))
  | .number (.float x) => some (.float x)
  | .text s => some (.text s)
  | j => some (.text j.write)

/-- Properties as the store takes them. -/
def ofProperties (properties : Dict Json) : Dict Value :=
  properties.filterMap ofJson?

/-- The row that a node is created from. -/
def nodeRow (r : NodeRecord) : Value :=
  .map [("labels", .list (r.labels.map .text)),
    ("properties", .map (ofProperties r.properties).entries)]

/-- The row that an edge is created from. The edge carries its tenant. -/
def edgeRow (tenant : Tenant) (r : EdgeRecord) : Value :=
  .map [("endId", .text r.target.text),
    ("properties", .map ((ofProperties r.properties).insert tenantKey (.text tenant)).entries),
    ("startId", .text r.source.text), ("type", .text r.name)]

/-- The parameter that names the tenant. -/
def tenantParameter (tenant : Tenant) : String × Value :=
  (tenantKey, .text tenant)

/-! ### Calls -/

namespace Client

/-- Creates nodes. Nothing is sent if there are none. -/
def createNodes (server : Settings.Server) (records : List NodeRecord) : Client Unit :=
  if records.isEmpty then return ()
  else write server createNodesStatement [("rows", .list (records.map nodeRow))]

/-- Makes sure of the index. -/
def ensureIndex (server : Settings.Server) : Client Unit := do
  acquire server
  execute indexStatement []

/-- Creates edges. Nothing is sent if there are none. -/
def createEdges (server : Settings.Server) (tenant : Tenant) (records : List EdgeRecord) :
    Client Unit :=
  if records.isEmpty then return ()
  else
    write server createEdgesStatement
      [tenantParameter tenant, ("rels", .list (records.map (edgeRow tenant)))]

/-- Deletes the nodes of a tenant and counts them. -/
def clear (server : Settings.Server) (tenant : Tenant) : Client Nat := do
  return (← query server clearStatement [tenantParameter tenant] "deleted").toNat

/-- Counts the nodes of a tenant. -/
def countNodes (server : Settings.Server) (tenant : Tenant) : Client Int :=
  query server countStatement [tenantParameter tenant] "cnt"

/-- The cells of a table. -/
def cells (driver : Driver) (table : Table) : Except Malformed (List Row) :=
  table.rows.mapM (rowCells driver table.columns)

/-- What a client's doings mean for a call to the store. -/
def answered {α : Type} (c : Client α) : StateT Bool Talk (Except StoreError α) := do
  return (← c.run).mapError .query

/-- Runs a query for a tenant. -/
def read (driver : Driver) (server : Settings.Server) (tenant : Tenant) (statement : String)
    (limit : Nat) : StateT Bool Talk (Except StoreError (List Row)) := do
  match ← answered (readOnly server statement [tenantParameter tenant] limit) with
  | .error e => return .error e
  | .ok table => return (cells driver table).mapError fun m => .conversion m.message

/-- A call to the store. -/
def perform (driver : Driver) (server : Settings.Server) : (c : Call) → StateT Bool Talk c.Answer
  | .createNodes records => answered (createNodes server records)
  | .ensureIndex => answered (ensureIndex server)
  | .createEdges tenant records => answered (createEdges server tenant records)
  | .clear tenant => answered (clear server tenant)
  | .read tenant statement limit => read driver server tenant statement limit

end Client

end CodeGraph.Bolt
