import CodeGraph.Bolt.Client
import CodeGraph.Command.Errand
import Std.Time.DateTime.Timestamp

/-!
# The command line

Carries out the command that the arguments spell and prints its lines. The exit code is 0 if it
succeeds, 1 if it fails and 2 if the arguments make no sense. Statuses and failures go to the error
output.

There is no transport to a server here, so that every request for a connection fails.
-/

namespace CodeGraph.Main

/-- The contents of a file, if there is one. -/
def contents? (name : String) : IO (Option ByteArray) := do
  try
    return some (← IO.FS.readBinFile name)
  catch _ =>
    return none

/-- All that a stream still holds. -/
partial def drain (s : IO.FS.Stream) (acc : ByteArray) : IO ByteArray := do
  let bytes ← s.read 65536
  if bytes.isEmpty then return acc else drain s (acc ++ bytes)

/-- The variables of a block of texts, each closed by a null character. -/
def blockEntries (block : String) : List (String × String) :=
  (block.splitOn "\x00").filterMap fun entry =>
    match entry.splitOn "=" with
    | name :: value@(_ :: _) => some (name, String.intercalate "=" value)
    | _ => none

/-- The variables of the environment. -/
def environment : IO (List (String × String)) := do
  let block ← contents? "/proc/self/environ"
  return blockEntries ((block.bind String.fromUTF8?).getD "")

/-- A random identity. -/
def identity : IO Identity := do
  let bytes ← IO.getRandomBytes 15
  return .fresh (bytes.toList.foldl (fun n b => 256 * n + b.toNat) 0)

/-- The present time. -/
def clock : IO Timestamp := do
  let nanoseconds := (← Std.Time.Timestamp.now).toNanosecondsSinceUnixEpoch.val
  let perDay : Int := 86400 * tenTo 9
  let ofDay := (nanoseconds % perDay).toNat
  return ⟨nanoseconds / perDay, ofDay / tenTo 9, ofDay % tenTo 9⟩

/-- The answer to a request to a server. -/
def link (r : Bolt.Request) : IO r.Answer :=
  return .error (.broken "no transport")

/-- The answer to a step of a pass. -/
def step (server : Settings.Server) : (s : Step) → IO s.Answer
  | .call c => do
    let (answer, _) ← ((Bolt.Client.perform .timeless server c).run false).run link
    return answer
  | .publish s => IO.eprintln s.toJson.write

/-- The answer to what a command asks for. -/
def answer : (e : Errand) → IO e.Answer
  | .file name => contents? name
  | .input => do return String.fromUTF8? (← drain (← IO.getStdin) .empty)
  | .environment => environment
  | .tenant => do return (← identity).text
  | .identities count => do
    let ids ← (List.range count).mapM fun _ => identity
    let ids := ids.toArray
    return fun s => ids.getD s default
  | .clock => clock
  | .step server s => step server s

/-- How the program is used. -/
def usage : String :=
  "Usage: irgraph [--config <PREFIX>] <COMMAND>\n\n" ++
  "  ingest [--tenant <ID>] --graph <FILE>\n" ++
  "  query --tenant <ID> [--query <TEXT>]\n" ++
  "  tracked --tenant <ID>\n" ++
  "  clear --tenant <ID>\n" ++
  "  demangle <SYMBOL>..."

end CodeGraph.Main

open CodeGraph in
/-- Carries out the command that the arguments spell. -/
def main (args : List String) : IO UInt32 := do
  match Invocation.ofArguments args with
  | .error .help =>
    IO.println Main.usage
    return 0
  | .error .wrong =>
    IO.eprintln Main.usage
    return 2
  | .ok invocation =>
    match ← (invocation.perform .common).run.run Main.answer with
    | .error message =>
      IO.eprintln ("Error: " ++ message)
      return 1
    | .ok lines =>
      for line in lines do
        IO.println line
      return 0
