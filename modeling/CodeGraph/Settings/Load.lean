import CodeGraph.Settings
import CodeGraph.Settings.Layer

/-!
# Loading settings

`Settings.load` lays a file, the environment and overrides over one another and takes the known
settings from the result. Whatever is not set keeps its default, and whatever is not known does not
count. A section may be a table, or the list of its settings in order.
-/

namespace CodeGraph.Settings

/-- The settings of a section in order, each with the change that its value makes. -/
abbrev Section (σ : Type) := List (String × (σ → Setting → Option σ))

namespace Section

variable {σ : Type}

/-- The settings after the members of a table. -/
def ofMembers (ms : List (String × Setting)) : Section σ → σ → Option σ
  | [], s => some s
  | (key, change) :: fs, s =>
    match ms.lookup key with
    | none => ofMembers ms fs s
    | some v => (change s v).bind (ofMembers ms fs)

/-- The settings after the items of a list. -/
def ofItems : Section σ → List Setting → σ → Option σ
  | (_, change) :: fs, v :: vs, s => (change s v).bind (ofItems fs vs)
  | _, _, s => some s

/-- The settings after a value for the whole section. -/
def read (fs : Section σ) (s : σ) : Setting → Option σ
  | .table ms => ofMembers ms fs s
  | .list vs => ofItems fs vs s
  | _ => none

end Section

/-- The settings of the server. -/
def serverSection : Section Server :=
  [("host", fun s v => v.text?.map fun x => { s with host := x }),
    ("port", fun s v => (v.word? 16).map fun x => { s with tcpPort := x }),
    ("uri", fun s v =>
      match v with
      | .null => some { s with address? := none }
      | v => v.text?.map fun x => { s with address? := some x }),
    ("user", fun s v => v.text?.map fun x => { s with user := x }),
    ("password", fun s v => v.text?.map fun x => { s with password := x }),
    ("max_connections", fun s v => (v.word? 32).map fun x => { s with maxConnections := x }),
    ("fetch_size", fun s v => (v.word? 64).map fun x => { s with fetchSize := x })]

/-- The settings of chunks. -/
def chunksSection : Section Chunks :=
  [("node_chunk_size", fun s v => (v.word? 64).map fun x => { s with nodes := x }),
    ("edge_chunk_size", fun s v => (v.word? 64).map fun x => { s with edges := x })]

/-- The settings of queries. -/
def querySection : Section Nat :=
  [("result_limit", fun _ v => v.word? 64)]

/-- All settings. -/
def sections : Section Settings :=
  [("neo4j", fun s v => (serverSection.read s.server v).map fun x => { s with server := x }),
    ("persist", fun s v => (chunksSection.read s.chunks v).map fun x => { s with chunks := x }),
    ("query", fun s v => (querySection.read s.rowLimit v).map fun x => { s with rowLimit := x })]

/-- Why settings cannot be loaded. -/
inductive LoadError
  /-- The file is not in its format. -/
  | unreadableFile
  /-- An override has a key that spells no path. -/
  | malformedKey
  /-- A setting has a value of the wrong kind. -/
  | wrongValue
deriving DecidableEq, Repr

/-- A value, or the error that there is none. -/
def expect {α : Type} (e : LoadError) : Option α → Except LoadError α
  | some a => .ok a
  | none => .error e

/-- The layer of the file that a name leads to; an empty one if there is no such file. -/
def fileLayer (formats : Layer.Formats) (read : String → Option String) (name : String) :
    Except LoadError Layer :=
  match formats.findFile read name with
  | some (f, text) => expect .unreadableFile (formats.file? f text)
  | none => .ok []

/-- Loads settings: `read` reads files by name, `name` leads to the file with settings, variables of
the environment go over the file, and overrides over both. -/
def load (formats : Layer.Formats) (read : String → Option String) (name : String)
    (environment : List (String × String)) (overrides : List (String × Option String)) :
    Except LoadError Settings := do
  let top ← expect .malformedKey (Layer.overrides? overrides)
  let file ← fileLayer formats read name
  let set := (file ++ Layer.environment environment ++ top).onto (.table [])
  expect .wrongValue (sections.read {} set)

/-- The overrides that variables of their own set. Their values stay text as they are. -/
def standardOverrides (environment : List (String × String)) : List (String × Option String) :=
  [("neo4j.host", environment.lookup "NEO4J_HOST"), ("neo4j.user", environment.lookup "NEO4J_USER"),
    ("neo4j.password", environment.lookup "NEO4J_PASSWORD")]

end CodeGraph.Settings
