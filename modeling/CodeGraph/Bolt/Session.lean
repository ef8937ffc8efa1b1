import CodeGraph.Bolt.Value
import CodeGraph.Settings
import CodeGraph.Store.Call

/-!
# Sessions with a server

What a driver does for its client: it keeps a connection, sends requests, and fetches the rows of a
statement batch by batch. Nothing of it is the client's own. The requests that it makes are those
that drivers of the protocol are documented to make, and what is proved of clients rests on them.

* `Request`, `Request.Answer`: what is sent, and what comes back;
* `Talk`, `Client`: what a client does, where the state tells whether a connection is open;
* `Client.send`, `Client.acquire`, `Client.execute`: requests, connections and statements;
* `Stream`, `Stream.next`: the rows of a statement, one after the other.

A batch that is not the last holds a row, so that one batch at most is fetched for the next row.
-/

namespace CodeGraph.Bolt

/-- The parameters of a statement in the order of their names. -/
abbrev Parameters := List (String × Value)

/-- The rows that one pull gives. A batch that is not the last holds at least one row. -/
inductive Batch
  | last (rows : List (List Value))
  | more (row : List Value) (rows : List (List Value))

/-- A request of the client. -/
inductive Request
  /-- Opens a connection. -/
  | login (user password : String)
  /-- Makes a connection usable again, whatever went before. -/
  | reset
  | beginTransaction
  | run (statement : String) (parameters : Parameters)
  /-- Asks for some rows of the statement that is running. -/
  | pull (count : Nat)
  /-- Gives up the rows of the statement that is running. -/
  | discard
  | commit
  | rollback

/-- Why a request has no answer. -/
inductive Denial
  /-- The connection is broken. -/
  | broken (detail : String)
  /-- The server refuses the request. -/
  | refused (code message : String)
deriving DecidableEq, Repr

namespace Request

/-- What the server answers if all is well. -/
def Value : Request → Type
  | .run .. => List Bolt.Value
  | .pull _ => Batch
  | _ => Unit

/-- What the server answers. -/
abbrev Answer (r : Request) : Type := Except Denial r.Value

/-- The name of a request. -/
def name : Request → String
  | .login .. => "HELLO"
  | .reset => "RESET"
  | .beginTransaction => "BEGIN"
  | .run .. => "RUN"
  | .pull _ => "PULL"
  | .discard => "DISCARD"
  | .commit => "COMMIT"
  | .rollback => "ROLLBACK"

/-- What a denied request is reported as. -/
def fault (r : Request) : Denial → ServerFault
  | .broken detail => .unreachable detail
  | .refused code message =>
    match r with
    | .login .. => .login message
    | .run .. => .statement code message
    | .discard => .statement code message
    | r => .request r.name

end Request

/-- A dialogue with the server. -/
abbrev Talk := Dialogue Request Request.Answer

/-- What a client does. The state tells whether a connection is open. -/
abbrev Client (α : Type) := ExceptT ServerFault (StateT Bool Talk) α

namespace Client

/-- Sends a request. -/
def send (r : Request) : Client r.Value :=
  ExceptT.mk (StateT.lift (do return (← Dialogue.question r).mapError r.fault))

/-- Makes sure of a usable connection. -/
def acquire (server : Settings.Server) : Client Unit := do
  if ← get then send .reset
  else
    send (.login server.user server.password)
    set true

/-- Runs a statement whose rows nobody needs. -/
def execute (statement : String) (parameters : Parameters) : Client Unit := do
  let _ ← send (.run statement parameters)
  send .discard

end Client

/-! ### Rows, one after the other -/

/-- The rows of a statement that is running. -/
structure Stream where
  /-- The rows that have been fetched and not been taken. -/
  waiting : List (List Value)
  /-- Whether there may be more at the server. -/
  more : Bool

namespace Stream

/-- The rows of a statement of which none has been fetched. -/
def fresh : Stream := ⟨[], true⟩

/-- The rows of a statement behind a batch. -/
def ofBatch : Batch → Stream
  | .last rows => ⟨rows, false⟩
  | .more row rows => ⟨row :: rows, true⟩

/-- Fetches a batch if no row is waiting and there may be more. -/
def fill (fetchSize : Nat) : Stream → Client Stream
  | ⟨[], true⟩ => do return ofBatch (← Client.send (.pull fetchSize))
  | s => return s

/-- The first of the waiting rows, and what is left. -/
def pop? : Stream → Option (List Value × Stream)
  | ⟨[], _⟩ => none
  | ⟨row :: rows, more⟩ => some (row, ⟨rows, more⟩)

/-- The next row, and what is left; none if there are no more. -/
def next (fetchSize : Nat) (s : Stream) : Client (Option (List Value × Stream)) := do
  return (← s.fill fetchSize).pop?

end Stream

end CodeGraph.Bolt
