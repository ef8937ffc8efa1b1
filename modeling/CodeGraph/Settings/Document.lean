import CodeGraph.Json.Decoder
import CodeGraph.Settings

/-!
# Settings as a document

`Settings.toJson` is the JSON form of settings, `Settings.decoder` reads it. Every field that is left
out has its default.
-/

namespace CodeGraph.Settings

open Json (Decoder)

/-- The JSON form of the settings of the server. -/
def Server.toJson (s : Server) : Json :=
  .object [("fetch_size", .nat s.fetchSize), ("host", .text s.host),
    ("max_connections", .nat s.maxConnections), ("password", .text s.password),
    ("port", .nat s.tcpPort), ("uri", (s.address?.map Json.text).getD .null), ("user", .text s.user)]

/-- The JSON form of the settings of chunks. -/
def Chunks.toJson (c : Chunks) : Json :=
  .object [("edge_chunk_size", .nat c.edges), ("node_chunk_size", .nat c.nodes)]

/-- The JSON form of settings. -/
def toJson (s : Settings) : Json :=
  .object [("neo4j", s.server.toJson), ("persist", s.chunks.toJson),
    ("query", .object [("result_limit", .nat s.rowLimit)])]

/-- The known part of a structure whose fields all have defaults. -/
structure Draft (σ : Type) where
  /-- The structure, with defaults where nothing is known. -/
  value : σ
  /-- The fields that are known. -/
  known : List String := []

variable {σ β : Type}

/-- A field that has a default. -/
def field (name : String) (d : Decoder β) (set : σ → β → σ) : Decoder.Field (Draft σ) where
  name := name
  known s := s.known.contains name
  ofJson s j := (d.ofJson j).map fun b => ⟨set s.value b, name :: s.known⟩
  read depth s cs := (d.read depth cs).map fun (b, rest) => (⟨set s.value b, name :: s.known⟩, rest)

/-- A structure whose fields all have defaults. -/
def filled (fields : List (Decoder.Field (Draft σ))) (start : σ) : Decoder σ :=
  .record fields ⟨start, []⟩ fun s => some s.value

/-- The settings of the server. -/
def Server.decoder : Decoder Server :=
  filled
    [field "host" .text fun s x => { s with host := x },
      field "port" (.word 16) fun s x => { s with tcpPort := x },
      field "uri" (.optional .text) fun s x => { s with address? := x },
      field "user" .text fun s x => { s with user := x },
      field "password" .text fun s x => { s with password := x },
      field "max_connections" (.word 32) fun s x => { s with maxConnections := x },
      field "fetch_size" (.word 64) fun s x => { s with fetchSize := x }] {}

/-- The settings of chunks. -/
def Chunks.decoder : Decoder Chunks :=
  filled
    [field "node_chunk_size" (.word 64) fun s x => { s with nodes := x },
      field "edge_chunk_size" (.word 64) fun s x => { s with edges := x }] {}

/-- The settings of queries. -/
def rowLimitDecoder : Decoder Nat :=
  filled [field "result_limit" (.word 64) fun _ x => x] ({} : Settings).rowLimit

/-- Settings. -/
def decoder : Decoder Settings :=
  filled
    [field "neo4j" Server.decoder fun s x => { s with server := x },
      field "persist" Chunks.decoder fun s x => { s with chunks := x },
      field "query" rowLimitDecoder fun s x => { s with rowLimit := x }] {}

end CodeGraph.Settings
