/-!
# Settings

What can be set from outside: how to reach the server of the store, how large the chunks are in which
a graph is written, and how many rows a query may return. The fields have the defaults that hold
where nothing is set.
-/

namespace CodeGraph

/-- How to reach the server. -/
structure Settings.Server where
  host : String := "localhost"
  tcpPort : Nat := 7687
  /-- The whole address, if it is not made of the fields above. -/
  address? : Option String := none
  user : String := "neo4j"
  password : String := "password"
  maxConnections : Nat := 16
  /-- How many rows are fetched at a time. -/
  fetchSize : Nat := 256
deriving DecidableEq, Repr, Inhabited

/-- The sizes of chunks. A size of zero counts as one. -/
structure Settings.Chunks where
  nodes : Nat := 10000
  edges : Nat := 10000
deriving DecidableEq, Repr, Inhabited

/-- All settings. -/
structure Settings where
  server : Settings.Server := {}
  chunks : Settings.Chunks := {}
  /-- The most rows that a query returns. Zero counts as one. -/
  rowLimit : Nat := 150
deriving DecidableEq, Repr, Inhabited

end CodeGraph
