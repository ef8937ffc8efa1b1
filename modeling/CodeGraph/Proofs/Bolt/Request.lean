import CodeGraph.Bolt.Client
import CodeGraph.Proofs.Protocol

/-!
# Statements that a client sends

A client needs several requests for a call to the store, one of which runs a statement. Whatever the
server answers, it is the statement of the call.

* `Request.Within`, `Sends`: what a client does that runs no other statements than some;
* `Call.statement`, `Client.sends_perform`: the statement of a call;
* `Client.step`, `sends_run`: courses over a client.
-/

namespace CodeGraph

namespace Bolt

open Dialogue

/-- Whether a request runs no statement, or one of some statements with such parameters. -/
def Request.Within (allowed : String → Parameters → Prop) : Request → Prop
  | .run statement parameters => allowed statement parameters
  | _ => True

/-- What a client does that runs no other statements than some, whether it is connected or not. -/
def Sends {α : Type} (allowed : String → Parameters → Prop) (x : StateT Bool Talk α) : Prop :=
  ∀ connected, (x.run connected).Asks (Request.Within allowed)

section Sends

variable {α β ε : Type} {allowed : String → Parameters → Prop}

theorem sends_pure (a : α) : Sends allowed (pure a) := fun _ => asks_done _

theorem Sends.mono {allowed' : String → Parameters → Prop} {x : StateT Bool Talk α}
    (hx : Sends allowed x)
    (h : ∀ statement parameters, allowed statement parameters → allowed' statement parameters) :
    Sends allowed' x := by
  intro connected
  refine (hx connected).mono fun r hr => ?_
  cases r with
  | run statement parameters => exact h statement parameters hr
  | _ => trivial

theorem Sends.bind {x : StateT Bool Talk α} {f : α → StateT Bool Talk β} (hx : Sends allowed x)
    (hf : ∀ a, Sends allowed (f a)) : Sends allowed (x >>= f) := by
  intro connected
  rw [StateT.run_bind]
  exact (hx connected).bind fun r => hf r.1 r.2

/-- One thing after the other, as long as nothing fails. -/
theorem Sends.run_bind {x : Client α} {f : α → Client β} (hx : Sends allowed x.run)
    (hf : ∀ a, Sends allowed (f a).run) : Sends allowed (x >>= f).run := by
  rw [ExceptT.run_bind]
  refine hx.bind fun r => ?_
  cases r with
  | ok a => exact hf a
  | error e => exact sends_pure _

end Sends

namespace Client

variable {α : Type} {allowed : String → Parameters → Prop} {statement : String}
  {parameters : Parameters}

theorem sends_send {r : Request} (h : r.Within allowed) : Sends allowed (send r).run :=
  fun _ => ⟨h, fun _ _ => trivial⟩

theorem sends_acquire (server : Settings.Server) : Sends allowed (acquire server).run := by
  intro connected
  cases connected with
  | true => exact sends_send (r := .reset) trivial true
  | false =>
    have hlogin : Sends allowed (send (.login server.user server.password)).run :=
      sends_send (r := .login ..) trivial
    exact (hlogin.run_bind fun _ => fun _ => asks_done _) false

theorem sends_execute (h : allowed statement parameters) :
    Sends allowed (execute statement parameters).run := by
  unfold execute
  refine Sends.run_bind (sends_send h) fun _ => ?_
  exact sends_send (r := .discard) trivial

theorem sends_write (server : Settings.Server) (h : allowed statement parameters) :
    Sends allowed (write server statement parameters).run := by
  unfold write
  refine (sends_acquire server).run_bind fun _ => ?_
  refine Sends.run_bind (sends_send trivial) fun _ => ?_
  refine (sends_execute h).run_bind fun _ => ?_
  exact sends_send (r := .commit) trivial

/-- To take a row is to run nothing. -/
theorem sends_next (fetchSize : Nat) (s : Stream) : Sends allowed (s.next fetchSize).run := by
  have hfill : Sends allowed (s.fill fetchSize).run := by
    unfold Stream.fill
    split
    · exact Sends.run_bind (sends_send trivial) fun _ => sends_pure _
    · exact sends_pure _
  exact hfill.run_bind fun _ => sends_pure _

/-- To take rows is to run nothing. -/
theorem sends_collectRows (fetchSize limit : Nat) (s : Stream) :
    Sends allowed (collectRows (Stream.next fetchSize) limit s).run := by
  induction limit generalizing s with
  | zero => exact sends_pure _
  | succ n ih =>
    refine Sends.run_bind (sends_next fetchSize s) fun row? => ?_
    cases row? with
    | none => exact sends_pure _
    | some taken => exact (ih taken.2).run_bind fun _ => sends_pure _

theorem sends_collect (server : Settings.Server) (limit : Nat) (h : allowed statement parameters) :
    Sends allowed (collect server statement parameters limit).run := by
  unfold collect
  refine Sends.run_bind (sends_send h) fun columns => ?_
  exact (sends_collectRows _ _ _).run_bind fun _ => sends_pure _

theorem sends_queryOne (server : Settings.Server) (h : allowed statement parameters) :
    Sends allowed (queryOne server statement parameters).run := by
  unfold queryOne
  refine (sends_acquire server).run_bind fun _ => ?_
  refine Sends.run_bind (sends_send h) fun columns => ?_
  refine (sends_next _ _).run_bind fun row? => ?_
  cases row? with
  | none => exact sends_pure _
  | some taken => exact sends_pure _

theorem sends_query (server : Settings.Server) (column : String)
    (h : allowed statement parameters) :
    Sends allowed (query server statement parameters column).run := by
  unfold query
  refine (sends_queryOne server h).run_bind fun row? => ?_
  split
  · exact sends_pure _
  · split
    · exact sends_pure _
    · exact sends_pure _

/-- What comes of an attempt is observed by making it. -/
theorem sends_observing {α : Type} {c : Client α} (h : Sends allowed c.run) :
    Sends allowed (readOnly.observing c).run :=
  h.bind fun _ => sends_pure _

theorem sends_readOnly (server : Settings.Server) (limit : Nat)
    (h : allowed statement parameters) :
    Sends allowed (readOnly server statement parameters limit).run := by
  unfold readOnly
  refine (sends_acquire server).run_bind fun _ => ?_
  refine Sends.run_bind (sends_send trivial) fun _ => ?_
  refine (sends_observing (sends_collect server limit h)).run_bind fun outcome => ?_
  refine Sends.run_bind (sends_observing (sends_send trivial)) fun ending => ?_
  split
  · exact sends_pure _
  · exact sends_pure _
  · exact sends_pure _

/-- What a client does is answered by doing it. -/
theorem sends_answered {c : Client α} (h : Sends allowed c.run) : Sends allowed (answered c) :=
  h.bind fun _ => sends_pure _

theorem sends_createNodes (server : Settings.Server) (records : List NodeRecord)
    (h : allowed createNodesStatement [("rows", .list (records.map nodeRow))]) :
    Sends allowed (createNodes server records).run := by
  unfold createNodes
  split
  · exact sends_pure _
  · exact sends_write server h

theorem sends_createEdges (server : Settings.Server) (tenant : Tenant) (records : List EdgeRecord)
    (h : allowed createEdgesStatement
      [tenantParameter tenant, ("rels", .list (records.map (edgeRow tenant)))]) :
    Sends allowed (createEdges server tenant records).run := by
  unfold createEdges
  split
  · exact sends_pure _
  · exact sends_write server h

end Client

/-- The statement of a call, with its parameters. -/
def statementOf : Call → String × Parameters
  | .createNodes records => (createNodesStatement, [("rows", .list (records.map nodeRow))])
  | .ensureIndex => (indexStatement, [])
  | .createEdges tenant records =>
    (createEdgesStatement,
      [tenantParameter tenant, ("rels", .list (records.map (edgeRow tenant)))])
  | .clear tenant => (clearStatement, [tenantParameter tenant])
  | .read tenant statement _ => (statement, [tenantParameter tenant])

/-- A call runs its statement, and no other one. -/
theorem Client.sends_perform (driver : Driver) (server : Settings.Server) (c : Call) :
    Sends (fun statement parameters => statementOf c = (statement, parameters))
      (perform driver server c) := by
  cases c with
  | createNodes records => exact sends_answered (sends_createNodes server records rfl)
  | ensureIndex =>
    refine sends_answered ?_
    unfold ensureIndex
    exact (sends_acquire server).run_bind fun _ => sends_execute rfl
  | createEdges tenant records => exact sends_answered (sends_createEdges server tenant records rfl)
  | clear tenant =>
    refine sends_answered ?_
    unfold clear
    exact (sends_query server "deleted" rfl).run_bind fun _ => sends_pure _
  | read tenant statement limit =>
    refine (sends_answered (sends_readOnly server limit rfl)).bind fun r => ?_
    cases r with
    | error e => exact sends_pure _
    | ok table => exact sends_pure _

/-! ### Courses -/

namespace Client

/-- How a client answers the steps of a course. Statuses are not for the server. -/
def step (driver : Driver) (server : Settings.Server) : (q : Step) → StateT Bool Talk q.Answer
  | .call c => perform driver server c
  | .publish _ => pure ()

/-- A course sends what its calls send. -/
theorem sends_run {α : Type} (driver : Driver) (server : Settings.Server) {may : Call → Prop} :
    ∀ {d : Course α}, d.Asks (fun q => ∀ c, q = .call c → may c) →
      Sends (fun statement parameters => ∃ c, may c ∧ statementOf c = (statement, parameters))
        (d.run (step driver server))
  | .done a, _ => sends_pure a
  | .ask q next, hd => by
    refine Sends.bind ?_ fun a => sends_run driver server (hd.2 a trivial)
    cases q with
    | call c =>
      refine (sends_perform driver server c).mono fun statement parameters h => ?_
      exact ⟨c, hd.1 c rfl, h⟩
    | publish s => exact sends_pure ()

end Client

end Bolt

end CodeGraph
