import CodeGraph.Job.Status
import CodeGraph.Query.Gateway

/-!
# Passes and jobs

A *pass* replaces what is stored for a tenant by a graph: it clears the tenant, writes the nodes and
then the edges, and looks the tracked variables up. It publishes its stage on the way. A *job* is a
pass that also publishes how it ended.

* `Step`: what a pass asks for, a call to the store or a status to publish;
* `PassError`: why a pass fails, with `PassError.message`;
* `pass`: the pass, with a `Summary` of what it did;
* `job`: the pass under supervision, which reports a failure as the last status.
-/

namespace CodeGraph

/-- What a pass asks for. -/
inductive Step
  | call (c : Call)
  | publish (s : Status)

/-- What a pass gets. -/
def Step.Answer : Step → Type
  | .call c => c.Answer
  | .publish _ => Unit

/-- The course of a pass. -/
abbrev Course := Dialogue Step Step.Answer

/-- A dialogue with the store as part of a course. -/
def Dialogue.inCourse {α : Type} (d : Exchange α) : Course α :=
  d.run fun c => Dialogue.question (Step.call c)

/-- Publishes a status. -/
def publish (s : Status) : Course Unit :=
  Dialogue.question (Step.publish s)

/-- Why a pass fails. -/
inductive PassError
  /-- The tenant is not cleared. -/
  | clearing (cause : StoreError)
  /-- The graph is not written. -/
  | persisting (cause : PersistError)
deriving DecidableEq, Repr

/-- The text that an error is reported with. -/
def PassError.message : PassError → String
  | .clearing cause => "Graph error: " ++ cause.message
  | .persisting cause => "Persistence failed: " ++ cause.message

/-- What a pass did. -/
structure Summary extends Tally where
  tenant : Tenant
  nodesCleared : Nat
  trackedVariables : List String
deriving DecidableEq, Repr

/-- A part of a pass that talks to the store and can fail. -/
def phase {ε α : Type} (report : ε → PassError) (a : Attempt ε α) : ExceptT PassError Course α :=
  ExceptT.mk (do return (← a.run.inCourse).mapError report)

/-- The tracked variables of a tenant; none if they cannot be looked up. -/
def lookUpTracked (settings : Settings) (tenant : Tenant) : Course (List String) := do
  match ← (Gateway.trackedVariables settings.rowLimit tenant).run.inCourse with
  | .ok names => return names
  | .error _ => return []

/-- Replaces what is stored for a tenant by a graph, where `draw` gives identities. -/
def pass (settings : Settings) (draw : Slot → Identity) (tenant : Tenant) (g : Graph) :
    ExceptT PassError Course Summary := do
  publish .clearing
  let cleared ← phase .clearing (attempt id (.clear tenant))
  publish .persistingNodes
  let p := g.prepare draw tenant
  phase .persisting (writeNodes settings.chunks p.records)
  publish .persistingEdges
  let c := g.collect p.ids
  let written ← phase .persisting (writeEdges settings.chunks tenant c.records.toList)
  let tracked ← lookUpTracked settings tenant
  publish .completed
  return {
    tenant
    nodesCleared := cleared
    nodesPersisted := p.records.length
    nodesFiltered := p.filtered
    edgesPersisted := written
    edgesDropped := c.unresolved + c.filtered + (c.records.size - written)
    trackedVariables := tracked }

/-- Publishes a failure at the end of a course, which is then at the stage that it last published. -/
def supervise {α : Type} : Status → Course (Except PassError α) → Course (Except PassError α)
  | _, .done (.ok a) => .done (.ok a)
  | s, .done (.error e) => .ask (.publish (.failed s.stage e.message)) fun _ => .done (.error e)
  | _, .ask (.publish s) next => .ask (.publish s) fun u => supervise s (next u)
  | s, .ask (.call c) next => .ask (.call c) fun a => supervise s (next a)

/-- A pass that publishes how it ended. It begins as created. -/
def job (settings : Settings) (draw : Slot → Identity) (tenant : Tenant) (g : Graph) :
    Course (Except PassError Summary) :=
  supervise .created (pass settings draw tenant g).run

end CodeGraph
