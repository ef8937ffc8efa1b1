import CodeGraph.Bolt.Address
import CodeGraph.Command.Invocation
import CodeGraph.Job.Report
import CodeGraph.Json.Pretty
import CodeGraph.Program.Document
import CodeGraph.Settings.Load
import CodeGraph.Symbol

/-!
# Carrying commands out

A command is carried out as a dialogue with its surroundings: files, the input, the environment, a
clock, and the store.

* `Errand`, `Errand.Answer`: what a command asks for, and what it gets;
* `Invocation.perform`: carries a command out and returns the lines that it prints, or why it fails.

Symbols are printed without a look at the settings.
-/

namespace CodeGraph

/-- What a command asks its surroundings for. -/
inductive Errand
  /-- The contents of a file, if there is one. -/
  | file (name : String)
  /-- All of the input, if it is text. -/
  | input
  /-- The variables of the environment. -/
  | environment
  /-- A new tenant. -/
  | tenant
  /-- New identities for some slots. -/
  | identities (count : Nat)
  | clock
  /-- A step of a pass over the store at a server. -/
  | step (server : Settings.Server) (s : Step)

/-- What a command gets. -/
def Errand.Answer : Errand → Type
  | .file _ => Option ByteArray
  | .input => Option String
  | .environment => List (String × String)
  | .tenant => Tenant
  | .identities _ => Slot → Identity
  | .clock => Timestamp
  | .step _ s => s.Answer

/-- A command that is being carried out. It fails with the text that is reported. -/
abbrev Errands := ExceptT String (Dialogue Errand Errand.Answer)

namespace Errands

/-- Asks for something. -/
def get (e : Errand) : Errands e.Answer :=
  ExceptT.mk (do return .ok (← Dialogue.question e))

/-- The course of a pass over the store at a server, whose failures are reported as `report` says. -/
def course {ε α : Type} (server : Settings.Server) (report : ε → String)
    (c : Course (Except ε α)) : Errands α :=
  ExceptT.mk (do return (← c.run fun s => Dialogue.question (Errand.step server s)).mapError report)

/-- An attempt to use the store at a server. -/
def viaStore {ε α : Type} (server : Settings.Server) (report : ε → String) (a : Attempt ε α) :
    Errands α :=
  course server report a.run.inCourse

end Errands

/-- The text that a failure to load settings is reported with. -/
def Settings.LoadError.message : Settings.LoadError → String
  | .unreadableFile => "Configuration error: the file cannot be read"
  | .malformedKey => "Configuration error: an override has no valid key"
  | .wrongValue => "Configuration error: a setting has a value of the wrong kind"

/-- The text that a failure to load a graph is reported with. -/
def Graph.LoadError.message : Graph.LoadError → String
  | .missing => "No such file"
  | .notText => "The file is not text"
  | .unreadable _ => "The file does not hold a program graph"
  | .invalid defect => defect.message

open Errands in
/-- Loads settings, where a name leads to the file. The first file that there is counts, unless it
does not hold text, and the formats tell which one that is. -/
def Settings.fetch (formats : Layer.Formats) (name : String) : Errands Settings := do
  let files ← (formats.fileNames name).mapM fun n => do
    let contents : Option ByteArray ← get (.file n)
    return (n, contents)
  let environment : List (String × String) ← get .environment
  let first := files.find? fun (_, contents) => contents.isSome
  let read n := (first.filter (·.1 == n)).bind fun (_, contents) => contents.bind String.fromUTF8?
  let loaded := Settings.load formats read name environment (Settings.standardOverrides environment)
  ExceptT.mk (return loaded.mapError Settings.LoadError.message)

namespace Command

open Errands

/-- The tenant of a command, or a new one. -/
def tenantOrNew : Option Tenant → Errands Tenant
  | some tenant => return tenant
  | none => get .tenant

/-- The query of a command, or the input. -/
def queryOrInput : Option String → Errands String
  | some q => return q
  | none => do
    let text : Option String ← get .input
    match text with
    | some q => return q
    | none => throw "The input is not text"

/-- Replaces what is stored for a tenant by a graph, and reports. -/
def replace (settings : Settings) (tenant : Tenant) (g : Graph) : Errands Report := do
  let draw : Slot → Identity ← get (.identities g.size)
  let started : Timestamp ← get .clock
  let summary ← course settings.server PassError.message (job settings draw tenant g)
  let finished : Timestamp ← get .clock
  return { summary with started, finished }

/-- Carries a command out and returns the lines that it prints. -/
def perform (settings : Settings) : Command → Errands (List String)
  | .ingest tenant? file => do
    let tenant ← tenantOrNew tenant?
    let contents : Option ByteArray ← get (.file file)
    let g ← ExceptT.mk (return (Graph.load contents).mapError Graph.LoadError.message)
    return [(← replace settings tenant g).toJson.pretty]
  | .query tenant query? => do
    let q ← queryOrInput query?
    let drawing ← viaStore settings.server QueryError.message
      (Gateway.draw settings.rowLimit tenant q)
    return [drawing.toJson.pretty]
  | .tracked tenant =>
    viaStore settings.server QueryError.message (Gateway.trackedVariables settings.rowLimit tenant)
  | .clear tenant => do
    let deleted : Nat ← viaStore settings.server StoreError.message
      (attempt id (.clear tenant))
    return [String.ofList (Text.showNat deleted)]
  | .symbols names => return names.map Symbol.decode

end Command

/-- Carries a command out. Its settings are loaded first, and the address of the server must have a
known scheme. -/
def Invocation.perform (formats : Layer.Formats) (i : Invocation) : Errands (List String) :=
  match i.command with
  | .symbols names => return names.map Symbol.decode
  | command => do
    let settings ← Settings.fetch formats i.config
    ExceptT.mk (return (Bolt.checkAddress settings.server.address).mapError StoreError.message)
    command.perform settings

end CodeGraph
