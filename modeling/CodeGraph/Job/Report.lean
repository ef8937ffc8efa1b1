import CodeGraph.Job.Pass
import CodeGraph.Json.Decoder
import CodeGraph.Time.Timestamp

/-!
# Reports

What is written down about passes: the status of a job while it runs, and a report when it is done.

* `Status.ofText`: reads a published status;
* `Report`: the summary of a pass with the times at which it began and ended;
* `Report.toJson`, `Report.decoder`: its JSON form.
-/

namespace CodeGraph

open Json (Decoder)

/-! ### Statuses -/

namespace Status

/-- A name of a status and what else it takes. -/
inductive Tag
  | bare (s : Status)
  | failed
deriving DecidableEq

/-- The names of statuses. -/
def tags : List (String × Tag) :=
  [Status.created, .clearing, .persistingNodes, .persistingEdges, .completed].map
      (fun s => (s.stage, Tag.bare s)) ++ [("FAILED", Tag.failed)]

/-- The key of the name. -/
def tagKey : String := "status"

/-- The part of a status that is read. The other members are kept as they come, last one first. -/
structure Draft where
  tag : Option Tag := none
  others : List (String × Json) := []

/-- The name of a status. -/
def tagDecoder : Decoder Tag :=
  Decoder.text.filterMap fun name => tags.lookup name

/-- The one text among some members that has a key. -/
def onlyText? (key : String) (members : List (String × Json)) : Option String :=
  match members.filter fun m => m.1 == key with
  | [(_, .text s)] => some s
  | _ => none

/-- The status of a draft whose members were given by key. -/
def Draft.finish (d : Draft) : Option Status :=
  d.tag.bind fun
    | .bare s => some s
    | .failed => do return .failed (← onlyText? "stage" d.others) (← onlyText? "message" d.others)

/-- The status of a name and a list of what follows it. -/
def ofTag : Tag → List Json → Option Status
  | .bare s, [] => some s
  | .failed, [.text stage, .text message] => some (.failed stage message)
  | _, _ => none

/-- Reads one member behind the quote that opens its key. The name may not come twice. -/
def readMember (depth : Nat) (d : Draft) (cs : List Char) : Json.Result (Draft × List Char) := do
  let (key, cs) ← Json.readQuoted [] cs
  if key = tagKey then
    if d.tag.isSome then throw .mismatch
    else
      let cs ← Json.readColon cs
      let (tag, cs) ← tagDecoder.read depth cs
      return ({ d with tag := some tag }, cs)
  else
    let cs ← Json.readColon cs
    let (j, cs) ← Json.readValue depth cs
    return ({ d with others := (key, j) :: d.others }, cs)

/-- The items of a list behind the first one. -/
def readOthers (depth : Nat) (cs : List Char) : Json.Result (List Json × List Char) :=
  match Json.skipGap cs with
  | ']' :: rest => .ok ([], rest)
  | ',' :: rest =>
    match Json.skipGap rest with
    | [] => .error .truncated
    | ']' :: _ => .error .malformed
    | rest => Json.readItems (Json.readValue depth) (rest.length + 1) rest
  | rest => .error (Json.unexpected rest)

/-- A status at the front of a text: an object with its name and its other members, or a list of its
name and what follows it. -/
def read (depth : Nat) (cs : List Char) : Json.Result (Status × List Char) :=
  match depth, cs with
  | depth + 1, '{' :: rest => do
    let (d, rest) ← Json.readObject (readMember depth) {} rest
    match d.finish with
    | some s => return (s, rest)
    | none => throw .mismatch
  | depth + 1, '[' :: rest =>
    match Json.skipGap rest with
    | [] => .error .truncated
    | ']' :: _ => .error .mismatch
    | rest => do
      let (tag, rest) ← tagDecoder.read depth rest
      let (others, rest) ← readOthers depth rest
      match ofTag tag others with
      | some s => return (s, rest)
      | none => throw .mismatch
  | _, cs => .error (Json.wrongKind cs)

/-- The status that a text holds. -/
def ofText (text : String) : Json.Result Status :=
  Json.readAll (read Json.deepest) text

end Status

/-! ### Reports -/

/-- The report of a pass. -/
structure Report extends Summary where
  started : Timestamp
  finished : Timestamp
deriving DecidableEq, Repr

namespace Report

/-- How long the pass took, in whole milliseconds. -/
def milliseconds (r : Report) : Int :=
  r.finished.millisecondsSince r.started

/-- The JSON form of a report. -/
def toJson (r : Report) : Json :=
  .object [("edges_dropped", .nat r.edgesDropped), ("edges_persisted", .nat r.edgesPersisted),
    ("finished_at", .text r.finished.write), ("nodes_cleared", .nat r.nodesCleared),
    ("nodes_filtered", .nat r.nodesFiltered), ("nodes_persisted", .nat r.nodesPersisted),
    ("started_at", .text r.started.write), ("tenant_id", .text r.tenant),
    ("tracked_variables", .ofStrings r.trackedVariables)]

/-- The known part of a report. -/
structure Draft where
  tenant : Option Tenant := none
  nodesCleared : Option Nat := none
  nodesPersisted : Option Nat := none
  nodesFiltered : Option Nat := none
  edgesPersisted : Option Nat := none
  edgesDropped : Option Nat := none
  trackedVariables : Option (List String) := none
  started : Option Timestamp := none
  finished : Option Timestamp := none

/-- A count. -/
def count : Decoder Nat := .word 64

/-- A timestamp. -/
def time : Decoder Timestamp :=
  Decoder.text.filterMap Timestamp.read?

/-- The fields of a report in order. -/
def fields : List (Decoder.Field Draft) :=
  [Decoder.field "tenant_id" .text Draft.tenant fun s x => { s with tenant := some x },
    Decoder.field "nodes_cleared" count Draft.nodesCleared
      fun s x => { s with nodesCleared := some x },
    Decoder.field "nodes_persisted" count Draft.nodesPersisted
      fun s x => { s with nodesPersisted := some x },
    Decoder.field "nodes_filtered" count Draft.nodesFiltered
      fun s x => { s with nodesFiltered := some x },
    Decoder.field "edges_persisted" count Draft.edgesPersisted
      fun s x => { s with edgesPersisted := some x },
    Decoder.field "edges_dropped" count Draft.edgesDropped
      fun s x => { s with edgesDropped := some x },
    Decoder.field "tracked_variables" (.list .text) Draft.trackedVariables
      fun s x => { s with trackedVariables := some x },
    Decoder.field "started_at" time Draft.started fun s x => { s with started := some x },
    Decoder.field "finished_at" time Draft.finished fun s x => { s with finished := some x }]

/-- The report of a draft in which nothing is missing. -/
def Draft.finish (s : Draft) : Option Report := do
  return {
    tenant := ← s.tenant
    nodesCleared := ← s.nodesCleared
    nodesPersisted := ← s.nodesPersisted
    nodesFiltered := ← s.nodesFiltered
    edgesPersisted := ← s.edgesPersisted
    edgesDropped := ← s.edgesDropped
    trackedVariables := ← s.trackedVariables
    started := ← s.started
    finished := ← s.finished }

/-- A report. All fields are required. -/
def decoder : Decoder Report :=
  .record fields {} Draft.finish

end Report

end CodeGraph
