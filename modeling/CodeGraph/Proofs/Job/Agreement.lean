import CodeGraph.Proofs.Job.Replacement
import CodeGraph.Proofs.Job.Tasks

/-!
# Passes and the mere writing of a graph

A graph can also be written by itself, with nothing cleared or looked up before or after. A pass that
has cleared its tenant does the same to every store, and then makes one more call.

* `Mirrors`: a part of a pass that does to every store what an attempt does;
* `mirrors_phase`, `mirrors_publish`, `Mirrors.bind`: part by part;
* `Plan.mirrors_loading`: writing the graph as part of a pass;
* `Plan.carryOut_course`, `Plan.callsOf_course`: a pass on any store that has been cleared;
* `Plan.agrees_of_serve`: a pass on a store in memory.
-/

namespace CodeGraph

open Dialogue

/-! ### Parts of a pass -/

/-- Whether a part of a pass does to every store what an attempt does. -/
structure Mirrors {α : Type} (x : ExceptT PassError Course α) (a : Attempt PersistError α) :
    Prop where
  carryOut {σ : Type} (S : Store σ) (s : σ) : x.run.carryOut S.steps s =
    ((a.run.carryOut S s).1.mapError .persisting, (a.run.carryOut S s).2)
  calls {σ : Type} (S : Store σ) (s : σ) :
    callsOf (x.run.transcript S.steps s) = a.run.transcript S s

section Mirrors

variable {α β : Type}

theorem mirrors_publish (status : Status) :
    Mirrors (liftM (publish status) : ExceptT PassError Course Unit) (pure ()) :=
  ⟨fun _ _ => rfl, fun _ _ => rfl⟩

theorem mirrors_pure (a : α) : Mirrors (pure a) (pure a) :=
  ⟨fun _ _ => rfl, fun _ _ => rfl⟩

theorem mirrors_phase (a : Attempt PersistError α) : Mirrors (phase .persisting a) a where
  carryOut S s := by
    show (a.run.inCourse >>= fun r => done (r.mapError _)).carryOut S.steps s = _
    rw [carryOut_bind, S.carryOut_inCourse]
    rfl
  calls S s := by
    show callsOf ((a.run.inCourse >>= fun r => done (r.mapError _)).transcript S.steps s) = _
    rw [transcript_bind, transcript_done, List.append_nil, S.callsOf_inCourse]

/-- One part after the other does what one attempt after the other does. -/
theorem Mirrors.bind {x : ExceptT PassError Course α} {a : Attempt PersistError α}
    {f : α → ExceptT PassError Course β} {g : α → Attempt PersistError β} (hx : Mirrors x a)
    (hf : ∀ v, Mirrors (f v) (g v)) : Mirrors (x >>= f) (a >>= g) where
  carryOut S s := by
    rw [carryOut_run_bind, carryOut_run_bind, hx.carryOut]
    obtain ⟨r, s'⟩ := a.run.carryOut S s
    cases r with
    | ok v => exact (hf v).carryOut S s'
    | error e => rfl
  calls S s := by
    rw [transcript_run_bind, transcript_run_bind, callsOf_append, hx.calls, hx.carryOut]
    obtain ⟨r, s'⟩ := a.run.carryOut S s
    cases r with
    | ok v => exact congrArg _ ((hf v).calls S s')
    | error e => rfl

end Mirrors

/-! ### Writing a graph -/

namespace Plan

variable (P : Plan)

/-- The writing of the graph by itself. -/
def alone : Attempt PersistError (Prepared × Tally) :=
  persist P.settings.chunks P.draw P.graph P.tenant

/-- The graph is written as part of a pass as it is written by itself. -/
theorem mirrors_loading : Mirrors P.loading P.alone := by
  -- a publication is nothing to the store
  have halone : P.alone = (do
      pure ()
      writeNodes P.settings.chunks P.records
      pure ()
      let written ← writeEdges P.settings.chunks P.tenant P.edges
      return (P.prepared, P.tally written)) := rfl
  rw [halone]
  refine (mirrors_publish _).bind fun _ => (mirrors_phase _).bind fun _ => ?_
  exact (mirrors_publish _).bind fun _ => (mirrors_phase _).bind fun _ => mirrors_pure _

/-! ### The whole pass -/

section Store

variable {σ : Type} (S : Store σ)

/-- Once all is written, one call is left, and it does not matter how it is answered. -/
theorem carryOut_concluding (cleared : Nat) (t : Tally) (s : σ) :
    (P.concluding cleared t).run.carryOut S.steps s =
      (.ok (P.summary cleared t (Gateway.foundNames (S s P.lookUp).1)), (S s P.lookUp).2) := by
  unfold concluding
  rw [lookUpTracked_eq]
  rfl

theorem callsOf_concluding (cleared : Nat) (t : Tally) (s : σ) :
    callsOf ((P.concluding cleared t).run.transcript S.steps s) =
      [⟨P.lookUp, (S s P.lookUp).1⟩] := by
  unfold concluding
  rw [lookUpTracked_eq]
  rfl

/-- A pass clears its tenant, and what it does then depends on how many nodes are cleared. -/
theorem course_eq : ∃ next : (Call.clear P.tenant).Answer → Course (Except PassError Summary),
    P.course = .ask (.publish .clearing) (fun _ => .ask (.call (.clear P.tenant)) next) ∧
      ∀ n : Nat, next (.ok n) = (P.writing n).run := by
  rw [course, pass_eq]
  exact ⟨_, rfl, fun _ => rfl⟩

variable {S} {s s₁ : σ} {cleared : Nat} (h : S s (.clear P.tenant) = (.ok cleared, s₁))
include h

/-- A pass whose tenant is cleared writes its graph, and then makes one more call. -/
theorem carryOut_course : P.course.carryOut S.steps s =
    match P.alone.run.carryOut S s₁ with
    | (.ok (_, t), s₂) =>
      (.ok (P.summary cleared t (Gateway.foundNames (S s₂ P.lookUp).1)), (S s₂ P.lookUp).2)
    | (.error e, s₂) => (.error (.persisting e), s₂) := by
  obtain ⟨next, hcourse, hnext⟩ := P.course_eq
  rw [hcourse]
  show (next (S s (.clear P.tenant)).1).carryOut S.steps (S s (.clear P.tenant)).2 = _
  rw [h, hnext, writing, carryOut_run_bind, P.mirrors_loading.carryOut]
  obtain ⟨r, s₂⟩ := P.alone.run.carryOut S s₁
  cases r with
  | ok r => exact P.carryOut_concluding S cleared r.2 s₂
  | error e => rfl

theorem callsOf_course : callsOf (P.course.transcript S.steps s) =
    ⟨.clear P.tenant, .ok cleared⟩ :: (P.alone.run.transcript S s₁ ++
      match P.alone.run.carryOut S s₁ with
      | (.ok _, s₂) => [⟨P.lookUp, (S s₂ P.lookUp).1⟩]
      | (.error _, _) => []) := by
  obtain ⟨next, hcourse, hnext⟩ := P.course_eq
  rw [hcourse]
  show ⟨_, (S s (.clear P.tenant)).1⟩ ::
    callsOf ((next (S s (.clear P.tenant)).1).transcript S.steps (S s (.clear P.tenant)).2) = _
  rw [h, hnext, writing, transcript_run_bind, callsOf_append, P.mirrors_loading.calls,
    P.mirrors_loading.carryOut]
  obtain ⟨r, s₂⟩ := P.alone.run.carryOut S s₁
  cases r with
  | ok r => exact congrArg (fun T => _ :: (_ ++ T)) (P.callsOf_concluding S cleared r.2 s₂)
  | error e => rfl

end Store

end Plan

/-! ### Passes on a store in memory -/

namespace Memory

variable (m : Memory)

/-- To carry a course out is to answer its calls. -/
theorem serve_eq {α : Type} (d : Course α) : m.serve d = d.carryOut (Store.steps perform) m := by
  have hanswer : answer = Store.steps perform := by
    funext m q
    cases q with
    | call c => rfl
    | publish s => rfl
  rw [← hanswer]
  rfl

/-- A look-up changes nothing that is stored. -/
theorem contents_perform_lookUp (P : Plan) : (m.perform P.lookUp).2.contents = m.contents := by
  rw [contents_perform]
  rfl

end Memory

namespace Plan

/-- What the graph of a plan makes of a store when it is written by itself. -/
def writeTo (P : Plan) (m : Memory) : Except PersistError (Prepared × Tally) × Memory :=
  P.alone.run.carryOut Memory.perform m

/-- How a pass on a store compares with what is written by itself, where `m₁` is the store after it is
cleared of `cleared` nodes. -/
structure Agrees (P : Plan) (m : Memory) (cleared : Nat) (m₁ : Memory) : Prop where
  failure (e : PassError) : (m.serve P.course).1 = .error e ↔
    ∃ cause, e = .persisting cause ∧ (P.writeTo m₁).1 = .error cause
  success (p : Prepared) (t : Tally) : (P.writeTo m₁).1 = .ok (p, t) →
    ∃ tracked, (m.serve P.course).1 = .ok (P.summary cleared t tracked)
  contents : (m.serve P.course).2.contents = (P.writeTo m₁).2.contents
  /-- The look-up is all that is added, whatever it returns. -/
  calls : match P.writeTo m₁ with
    | (.ok _, m₂) => (m.serve P.course).2 = (m₂.perform P.lookUp).2 ∧
        callsOf (P.course.transcript (Store.steps Memory.perform) m) =
          ⟨.clear P.tenant, .ok cleared⟩ :: (P.alone.run.transcript Memory.perform m₁ ++
            [⟨P.lookUp, (m₂.perform P.lookUp).1⟩])
    | (.error _, m₂) => (m.serve P.course).2 = m₂ ∧
        callsOf (P.course.transcript (Store.steps Memory.perform) m) =
          ⟨.clear P.tenant, .ok cleared⟩ :: P.alone.run.transcript Memory.perform m₁

section Agrees

variable {P : Plan} {m m₁ m₂ : Memory} {cleared : Nat}
  (hclear : m.perform (.clear P.tenant) = (.ok cleared, m₁))
include hclear

theorem agrees_of_error {cause : PersistError} (hwrite : P.writeTo m₁ = (.error cause, m₂)) :
    P.Agrees m cleared m₁ := by
  have hcourse := carryOut_course P (S := Memory.perform) hclear
  have hcalls := callsOf_course P (S := Memory.perform) hclear
  rw [← m.serve_eq, ← writeTo, hwrite] at hcourse
  rw [← writeTo, hwrite, List.append_nil] at hcalls
  constructor
  case failure =>
    intro e
    rw [hcourse, hwrite]
    constructor
    · rintro ⟨⟩
      exact ⟨cause, rfl, rfl⟩
    · rintro ⟨_, rfl, ⟨⟩⟩
      rfl
  case success =>
    intro p t hok
    rw [hwrite] at hok
    cases hok
  case contents => rw [hcourse, hwrite]
  case calls =>
    rw [hwrite]
    exact ⟨congrArg Prod.snd hcourse, hcalls⟩

theorem agrees_of_ok {r : Prepared × Tally} (hwrite : P.writeTo m₁ = (.ok r, m₂)) :
    P.Agrees m cleared m₁ := by
  have hcourse := carryOut_course P (S := Memory.perform) hclear
  have hcalls := callsOf_course P (S := Memory.perform) hclear
  rw [← m.serve_eq, ← writeTo, hwrite] at hcourse
  rw [← writeTo, hwrite] at hcalls
  constructor
  case failure =>
    intro e
    rw [hcourse, hwrite]
    constructor
    · rintro ⟨⟩
    · rintro ⟨_, -, ⟨⟩⟩
  case success =>
    intro p t hok
    rw [hwrite] at hok
    cases hok
    exact ⟨_, congrArg Prod.fst hcourse⟩
  case contents =>
    rw [hcourse, hwrite]
    exact m₂.contents_perform_lookUp P
  case calls =>
    rw [hwrite]
    exact ⟨congrArg Prod.snd hcourse, hcalls⟩

end Agrees

/-- **A pass writes its graph as it is written by itself.** The store is cleared first, which does not
fail in memory. From there on the pass makes the calls that are made to write the graph, with the same
answers. It fails if and only if one of these fails, for the same reason, and else reports the same
counts. All that it adds is one look-up, whose failure is none of the pass. -/
theorem agrees_of_serve (P : Plan) (m : Memory) :
    ∃ cleared m₁, m.perform (.clear P.tenant) = (.ok cleared, m₁) ∧ P.Agrees m cleared m₁ := by
  obtain ⟨cleared, m₁, hclear⟩ : ∃ cleared m₁, m.perform (.clear P.tenant) = (.ok cleared, m₁) :=
    ⟨_, _, Prod.ext (m.clear_answer P.tenant) rfl⟩
  refine ⟨cleared, m₁, hclear, ?_⟩
  cases hwrite : (P.writeTo m₁).1 with
  | error cause => exact agrees_of_error hclear (Prod.ext hwrite rfl)
  | ok r => exact agrees_of_ok hclear (Prod.ext hwrite rfl)

end Plan

end CodeGraph
