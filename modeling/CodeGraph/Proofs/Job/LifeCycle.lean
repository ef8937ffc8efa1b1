import CodeGraph.Proofs.Job.Replacement
import CodeGraph.Proofs.Job.Tasks

/-!
# The statuses of a job

A job publishes its stage before it makes the calls of that stage, so the stage that it was at last
tells which of its calls failed.

* `Task.statuses`, `published_of_done`: the statuses of a script, and those of its performance;
* `Call.stage?`, `Staged`: calls that are made at their own stage, with `Plan.staged_script`;
* `transcript_supervise`: what a job publishes beside what its pass does;
* `LifeCycle`, `Plan.lifeCycle_of_job`: all that a job publishes.
-/

namespace CodeGraph

open Dialogue

/-! ### Statuses of a script -/

namespace Task

/-- The status that a task publishes. -/
def status? : Task → Option Status
  | .publish s => some s
  | .must .. => none
  | .may _ => none

/-- The statuses that some tasks publish. -/
def statuses (ts : List Task) : List Status := ts.filterMap status?

theorem statuses_append (ts ts' : List Task) : statuses (ts ++ ts') = statuses ts ++ statuses ts' :=
  List.filterMap_append

end Task

/-- Tasks that are done publish their statuses. -/
theorem published_of_done {ts : List Task} {T : List (Turn Step Step.Answer)}
    (h : List.Forall₂ Task.Done ts T) : published T = Task.statuses ts := by
  induction h with
  | nil => rfl
  | cons ht _ ih =>
    cases ht with
    | publish s u => exact congrArg (s :: ·) ih
    | must c report v => exact ih
    | may c a => exact ih

/-- The stage that a call belongs to, if its failure ends the pass. -/
def Call.stage? : Call → Option Status
  | .clear _ => some .clearing
  | .createNodes _ => some .persistingNodes
  | .ensureIndex => some .persistingEdges
  | .createEdges .. => some .persistingEdges
  | .read .. => none

/-- Whether all calls of a script that begins at a stage belong to the stage at which they are made. -/
def Staged : Status → List Task → Prop
  | _, [] => True
  | _, .publish s :: ts => Staged s ts
  | s, .must c _ :: ts => c.stage? = some s ∧ Staged s ts
  | s, .may c :: ts => c.stage? = none ∧ Staged s ts

section Staged

variable {s : Status} {ts ts' : List Task}

theorem staged_append : Staged s (ts ++ ts') ↔
    Staged s ts ∧ Staged ((Task.statuses ts).getLastD s) ts' := by
  induction ts generalizing s with
  | nil => exact ⟨fun h => ⟨trivial, h⟩, fun h => h.2⟩
  | cons t ts ih =>
    cases t with
    | publish s' =>
      have hlast : (Task.statuses (.publish s' :: ts)).getLastD s =
          (Task.statuses ts).getLastD s' := List.getLastD_cons ..
      rw [hlast]
      exact ih
    | must c report => exact (and_congr_right fun _ => ih).trans and_assoc.symm
    | may c => exact (and_congr_right fun _ => ih).trans and_assoc.symm

/-- The failed calls of a script that is performed without an end are those that may fail. -/
theorem Staged.stage?_of_mem {T : List (Turn Step Step.Answer)} (hs : Staged s ts)
    (h : List.Forall₂ Task.Done ts T) {c : Call} {e : StoreError}
    (hmem : ⟨.call c, .error e⟩ ∈ T) : c.stage? = none := by
  induction h generalizing s with
  | nil => cases hmem
  | cons ht _ ih =>
    cases ht with
    | publish s' u =>
      rcases List.mem_cons.1 hmem with heq | hmem
      · cases heq
      · exact ih hs hmem
    | must c' report v =>
      rcases List.mem_cons.1 hmem with heq | hmem
      · cases heq
      · exact ih hs.2 hmem
    | may c' a =>
      rcases List.mem_cons.1 hmem with heq | hmem
      · cases heq
        exact hs.1
      · exact ih hs.2 hmem

/-- Chunks of one stage. -/
theorem staged_chunkTasks {α : Type} {task : Nat → List α → Task} {call : List α → Call}
    {report : Nat → StoreError → PassError} (htask : ∀ n c, task n c = .must (call c) (report n))
    (hstage : ∀ c, (call c).stage? = some s) :
    ∀ (n : Nat) (chunks : List (List α)), Staged s (chunkTasks task n chunks ++ ts) ↔ Staged s ts
  | _, [] => Iff.rfl
  | n, c :: chunks => by
    rw [chunkTasks_cons, htask, List.cons_append, Staged, staged_chunkTasks htask hstage,
      and_iff_right (hstage c)]

theorem statuses_chunkTasks {α : Type} {task : Nat → List α → Task} {call : List α → Call}
    {report : Nat → StoreError → PassError} (htask : ∀ n c, task n c = .must (call c) (report n)) :
    ∀ (n : Nat) (chunks : List (List α)),
      Task.statuses (chunkTasks task n chunks ++ ts) = Task.statuses ts
  | _, [] => rfl
  | n, c :: chunks => by
    rw [chunkTasks_cons, htask, List.cons_append]
    exact statuses_chunkTasks htask (n + 1) chunks

end Staged

/-- A pass makes all its calls at their stages. -/
theorem Plan.staged_script (P : Plan) : Staged .created P.script := by
  have hclosing : Staged .persistingEdges P.closing := ⟨rfl, trivial⟩
  have hlinking : Staged .persistingEdges (P.linking ++ P.closing) :=
    ⟨rfl, (staged_chunkTasks (fun _ _ => rfl) (fun _ => rfl) 0 _).2 hclosing⟩
  exact ⟨rfl, (staged_chunkTasks (fun _ _ => rfl) (fun _ => rfl) 0 _).2 hlinking⟩

/-- The stages of a pass that make calls. -/
def stages : List Status := [.clearing, .persistingNodes, .persistingEdges]

/-- Once all is done, a pass has been at all stages. -/
theorem Plan.statuses_script (P : Plan) : Task.statuses P.script = stages ++ [.completed] := by
  have hlinking : Task.statuses (chunkTasks P.edgeTask 0 P.edgeChunks ++ P.closing) =
      [.completed] := statuses_chunkTasks (fun _ _ => rfl) 0 P.edgeChunks
  have hwriting : Task.statuses (chunkTasks nodeTask 0 P.nodeChunks ++
      .publish .persistingEdges :: (P.linking ++ P.closing)) =
        .persistingEdges :: Task.statuses (P.linking ++ P.closing) :=
    statuses_chunkTasks (fun _ _ => rfl) 0 P.nodeChunks
  exact congrArg (fun l => .clearing :: .persistingNodes :: l)
    (hwriting.trans (congrArg _ hlinking))

/-! ### Supervision -/

section Supervision

variable {α σ : Type} (p : Party Step Step.Answer σ)

/-- What is published of a result: how a pass fails that was at a stage. -/
def notice (stage : Status) : Except PassError α → List (Turn Step Step.Answer)
  | .ok _ => []
  | .error e => [⟨.publish (.failed stage.stage e.message), ()⟩]

/-- Who supervises a course does not change how it ends. -/
theorem carryOut_supervise : ∀ (d : Course (Except PassError α)) (stage : Status) (s : σ),
    ((supervise stage d).carryOut p s).1 = (d.carryOut p s).1
  | .done (.ok _), _, _ => rfl
  | .done (.error _), _, _ => rfl
  | .ask (.publish s') next, _, s =>
    carryOut_supervise (next (p s (.publish s')).1) s' (p s (.publish s')).2
  | .ask (.call c) next, stage, s =>
    carryOut_supervise (next (p s (.call c)).1) stage (p s (.call c)).2

/-- What is supervised asks the same, and then publishes the failure with the last stage. -/
theorem transcript_supervise : ∀ (d : Course (Except PassError α)) (stage : Status) (s : σ),
    (supervise stage d).transcript p s = d.transcript p s ++
      notice ((published (d.transcript p s)).getLastD stage) (d.carryOut p s).1
  | .done (.ok _), _, _ => rfl
  | .done (.error _), _, _ => rfl
  | .ask (.publish s') next, stage, s => by
    have hlast : (published ((Dialogue.ask (.publish s') next).transcript p s)).getLastD stage =
        (published ((next (p s (.publish s')).1).transcript p (p s (.publish s')).2)).getLastD s' :=
      List.getLastD_cons ..
    rw [hlast]
    exact congrArg (_ :: ·)
      (transcript_supervise (next (p s (.publish s')).1) s' (p s (.publish s')).2)
  | .ask (.call c) next, stage, s =>
    congrArg (_ :: ·) (transcript_supervise (next (p s (.call c)).1) stage (p s (.call c)).2)

end Supervision

/-- The pass of a plan under supervision. -/
def Plan.job (P : Plan) : Course (Except PassError Summary) :=
  CodeGraph.job P.settings P.draw P.tenant P.graph

/-! ### Failed calls -/

section Fails

variable {T : List (Turn Step Step.Answer)}

/-- Whether a call fails that belongs to a stage. -/
def FailsAt (T : List (Turn Step Step.Answer)) (stage : Status) : Prop :=
  ∃ c e, ⟨c, .error e⟩ ∈ callsOf T ∧ c.stage? = some stage

theorem failsAt_clearing : FailsAt T .clearing ↔ ∃ t e, ⟨.clear t, .error e⟩ ∈ callsOf T := by
  constructor
  · rintro ⟨c, e, hmem, hc⟩
    cases c with
    | clear t => exact ⟨t, e, hmem⟩
    | _ => cases hc
  · rintro ⟨t, e, hmem⟩
    exact ⟨_, e, hmem, rfl⟩

theorem failsAt_persistingNodes :
    FailsAt T .persistingNodes ↔ ∃ records e, ⟨.createNodes records, .error e⟩ ∈ callsOf T := by
  constructor
  · rintro ⟨c, e, hmem, hc⟩
    cases c with
    | createNodes records => exact ⟨records, e, hmem⟩
    | _ => cases hc
  · rintro ⟨records, e, hmem⟩
    exact ⟨_, e, hmem, rfl⟩

theorem failsAt_persistingEdges :
    FailsAt T .persistingEdges ↔ (∃ e, ⟨.ensureIndex, .error e⟩ ∈ callsOf T) ∨
      ∃ t records e, ⟨.createEdges t records, .error e⟩ ∈ callsOf T := by
  constructor
  · rintro ⟨c, e, hmem, hc⟩
    cases c with
    | ensureIndex => exact .inl ⟨e, hmem⟩
    | createEdges t records => exact .inr ⟨t, records, e, hmem⟩
    | _ => cases hc
  · rintro (⟨e, hmem⟩ | ⟨t, records, e, hmem⟩)
    · exact ⟨_, e, hmem, rfl⟩
    · exact ⟨_, e, hmem, rfl⟩

theorem Call.exists_of_stage?_eq_none {c : Call} (h : c.stage? = none) :
    ∃ t query n, c = .read t query n := by
  cases c with
  | read t query n => exact ⟨t, query, n, rfl⟩
  | _ => cases h

end Fails

/-! ### The life cycle -/

/-- How a job goes that publishes some stages and then a last status, where `T` is all that it asks
and `r` how its pass ends. -/
structure LifeCycle {α : Type} (T : List (Turn Step Step.Answer)) (r : Except PassError α)
    (front : List Status) (last : Status) : Prop where
  statuses : published T = front ++ [last]
  begun : front ≠ []
  ordered : front <+: [.clearing, .persistingNodes, .persistingEdges]
  terminal : last.isTerminal
  completed : last = .completed ↔ ∃ a, r = .ok a
  whole : last = .completed → front = [.clearing, .persistingNodes, .persistingEdges]
  /-- Only a look-up may fail. -/
  spared : last = .completed ↔ ∀ c e, ⟨c, .error e⟩ ∈ callsOf T → ∃ t query n, c = .read t query n
  failed : ∀ e, r = .error e → ∃ stage, last = .failed stage e.message ∧
    (stage = "CLEARING" ↔ ∃ t e, ⟨.clear t, .error e⟩ ∈ callsOf T) ∧
    (stage = "PERSISTING_NODES" ↔ ∃ records e, ⟨.createNodes records, .error e⟩ ∈ callsOf T) ∧
    (stage = "PERSISTING_EDGES" ↔ (∃ e, ⟨.ensureIndex, .error e⟩ ∈ callsOf T) ∨
      ∃ t records e, ⟨.createEdges t records, .error e⟩ ∈ callsOf T)

section LifeCycle

variable {α : Type} {P : Plan} {T : List (Turn Step Step.Answer)}

/-- A job whose pass does all its tasks. -/
theorem Plan.lifeCycle_of_done (hdone : List.Forall₂ Task.Done P.script T) (a : α) :
    LifeCycle T (.ok a) stages .completed where
  statuses := (published_of_done hdone).trans P.statuses_script
  begun := List.cons_ne_nil _ _
  ordered := List.prefix_rfl
  terminal := rfl
  completed := ⟨fun _ => ⟨a, rfl⟩, fun _ => rfl⟩
  whole _ := rfl
  spared := by
    refine ⟨fun _ c e hmem => ?_, fun _ => rfl⟩
    exact Call.exists_of_stage?_eq_none (P.staged_script.stage?_of_mem hdone (mem_callsOf.1 hmem))
  failed _ h := nomatch h

/-- What is published before a call that has to succeed: the stages up to that of the call. -/
theorem Plan.statuses_before {front rest : List Task} {c : Call} {report : StoreError → PassError}
    (hts : P.script = front ++ .must c report :: rest) :
    c.stage? = some ((Task.statuses front).getLastD .created) ∧ Task.statuses front ≠ [] ∧
      Task.statuses front <+: stages := by
  have hstaged := P.staged_script
  rw [hts, staged_append] at hstaged
  have hstage : c.stage? = some ((Task.statuses front).getLastD .created) := hstaged.2.1
  have hprefix : Task.statuses front <+: stages ++ [.completed] := by
    rw [← P.statuses_script, hts, Task.statuses_append]
    exact List.prefix_append _ _
  generalize Task.statuses front = l at hstage hprefix
  refine ⟨hstage, ?_, ?_⟩
  · rintro rfl
    cases c <;> cases hstage
  · rcases List.prefix_concat_iff.1 hprefix with rfl | hprefix
    · -- no call is made once the pass is completed
      cases c <;> cases hstage
    · exact hprefix

/-- The calls before a call that ends the pass are made well, so its stage is the one that fails. -/
theorem Plan.failsAt_iff {front rest : List Task} {c : Call} {report : StoreError → PassError}
    {e : StoreError} (hts : P.script = front ++ .must c report :: rest)
    (hdone : List.Forall₂ Task.Done front T) (stage : Status) :
    FailsAt (T ++ [⟨.call c, .error e⟩]) stage ↔ c.stage? = some stage := by
  have hstaged := P.staged_script
  rw [hts, staged_append] at hstaged
  constructor
  · rintro ⟨c', e', hmem, hc'⟩
    rcases List.mem_append.1 (mem_callsOf.1 hmem) with hmem | hmem
    · rw [hstaged.1.stage?_of_mem hdone hmem] at hc'
      cases hc'
    · cases List.mem_singleton.1 hmem
      exact hc'
  · intro hc
    exact ⟨c, e, mem_callsOf.2 (List.mem_append_right _ (List.mem_singleton_self _)), hc⟩

/-- A job whose pass ends with a call that fails. -/
theorem Plan.lifeCycle_of_broken {front rest : List Task} {c : Call}
    {report : StoreError → PassError} {e : StoreError}
    (hts : P.script = front ++ .must c report :: rest) (hdone : List.Forall₂ Task.Done front T) :
    LifeCycle (T ++ [⟨.call c, .error e⟩] ++
        notice ((Task.statuses front).getLastD .created) (.error (report e) : Except PassError α))
      (.error (report e) : Except PassError α) (Task.statuses front)
      (.failed ((Task.statuses front).getLastD .created).stage (report e).message) := by
  obtain ⟨hstage, hne, hprefix⟩ := P.statuses_before hts
  have hfails := P.failsAt_iff (e := e) hts hdone
  rw [← published_of_done hdone] at *
  generalize hlast : (published T).getLastD .created = last at *
  have hcalls : callsOf (T ++ [⟨.call c, .error e⟩] ++
      notice last (.error (report e) : Except PassError α)) = callsOf (T ++ [⟨.call c, .error e⟩]) := by
    rw [callsOf_append]
    exact List.append_nil _
  constructor
  case statuses =>
    rw [published_append, published_append]
    exact congrArg (· ++ _) (List.append_nil _)
  case begun => exact hne
  case ordered => exact hprefix
  case terminal => rfl
  case completed => simp
  case whole => simp
  case spared =>
    refine iff_of_false (by simp) fun hreads => ?_
    rw [hcalls] at hreads
    obtain ⟨t, query, n, rfl⟩ := hreads c e
      (mem_callsOf.2 (List.mem_append_right _ (List.mem_singleton_self _)))
    cases hstage
  case failed =>
    intro e' he'
    obtain rfl := Except.error.inj he'
    refine ⟨_, rfl, ?_⟩
    rw [hcalls, ← failsAt_clearing, ← failsAt_persistingNodes, ← failsAt_persistingEdges, hfails,
      hfails, hfails, hstage]
    -- the stages of calls are told apart by their names
    cases c <;> cases hstage <;> decide

end LifeCycle

/-- **A job publishes its stages in order, and then once how it ended.** The stages that it publishes
begin with clearing, and go on to the edges if nothing fails. Then it is completed if and only if its
pass returns a report, which is the case as soon as no call fails but the last look-up. Otherwise the
job has failed, with the text of the error, at the stage to which the failed call belongs. -/
theorem Plan.lifeCycle_of_job {σ : Type} (P : Plan) (S : Store σ) (s : σ) :
    (P.job.carryOut S.steps s).1 = (P.course.carryOut S.steps s).1 ∧
      ∃ front last,
        LifeCycle (P.job.transcript S.steps s) (P.job.carryOut S.steps s).1 front last := by
  have hresult := carryOut_supervise S.steps P.course .created s
  have hpass := P.follows_script.performed S.steps s
  refine ⟨hresult, ?_⟩
  show ∃ front last, LifeCycle ((supervise .created P.course).transcript S.steps s)
    ((supervise .created P.course).carryOut S.steps s).1 front last
  rw [hresult, transcript_supervise]
  generalize P.course.transcript S.steps s = T at hpass
  generalize (P.course.carryOut S.steps s).1 = r at hpass
  cases hpass with
  | @whole T a hdone h =>
    have hnotice (stage : Status) : T ++ notice stage (.ok a : Except PassError Summary) = T :=
      List.append_nil T
    rw [hnotice]
    exact ⟨_, _, P.lifeCycle_of_done hdone a⟩
  | @broken T front rest c report e hts hdone =>
    have hlast : (published (T ++ [⟨.call c, .error e⟩])).getLastD .created =
        (Task.statuses front).getLastD .created := by
      rw [published_append, published_of_done hdone]
      exact congrArg (List.getLastD · _) (List.append_nil _)
    rw [hlast]
    exact ⟨_, _, P.lifeCycle_of_broken hts hdone⟩

end CodeGraph
