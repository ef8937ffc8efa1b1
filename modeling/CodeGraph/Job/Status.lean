import CodeGraph.Json.Value

/-!
# The status of a job

A job goes through stages and ends in one of two. `Status.stage` is the name of a stage, and
`Status.toJson` the form in which a status is published.
-/

namespace CodeGraph

/-- Where a job stands. -/
inductive Status
  | created
  | clearing
  | persistingNodes
  | persistingEdges
  | completed
  /-- The stage that failed, and why. -/
  | failed (stage message : String)
deriving DecidableEq, Repr, Inhabited

namespace Status

/-- Whether nothing follows. -/
def isTerminal : Status → Bool
  | .completed | .failed .. => true
  | _ => false

/-- The name of a stage. -/
def stage : Status → String
  | .created => "CREATED"
  | .clearing => "CLEARING"
  | .persistingNodes => "PERSISTING_NODES"
  | .persistingEdges => "PERSISTING_EDGES"
  | .completed => "COMPLETED"
  | .failed .. => "FAILED"

/-- The JSON form of a status. -/
def toJson : Status → Json
  | .failed stage message =>
    .object [("message", .text message), ("stage", .text stage), ("status", .text "FAILED")]
  | s => .object [("status", .text s.stage)]

end Status

end CodeGraph
