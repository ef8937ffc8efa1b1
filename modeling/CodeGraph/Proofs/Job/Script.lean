import CodeGraph.Proofs.Job.Plan
import CodeGraph.Proofs.Store.Share

/-!
# Scripts

A pass does one task after the other: it publishes a status, or makes a call. Most of its calls have
to succeed, and the first of them that fails ends the pass. A script is a list of tasks, and where it
leads can be computed from the calls that fail.

* `Outage`: which calls fail;
* `Task`, `Progress`, `Progress.through`: what is done when a script is carried out;
* `Progress.through_of_success`, `Progress.through_of_failure`: a script in which no call fails, and
  one that ends at the first call that does;
* `account`: the courses of one tenant, followed with their progress;
* `Progress.steps_lt_of_obeys`: such a course does not go on for ever.
-/

namespace CodeGraph

open Dialogue

/-- Which calls fail, and with what, told by the number of calls before. -/
abbrev Outage := Nat → Option StoreError

/-- Something that a pass does. -/
inductive Task
  /-- Publishes a status. -/
  | publish (s : Status)
  /-- Makes a call, whose failure is reported and ends the pass. -/
  | must (c : Call) (report : StoreError → PassError)
  /-- Makes a call that may fail. -/
  | may (c : Call)

namespace Task

/-- The call of a task. -/
def call? : Task → Option Call
  | .publish _ => none
  | .must c _ => some c
  | .may c => some c

/-- The calls of some tasks. -/
def calls (ts : List Task) : List Call := ts.filterMap call?

theorem exists_of_call?_eq_none {t : Task} (h : t.call? = none) : ∃ s, t = .publish s := by
  cases t with
  | publish s => exact ⟨s, rfl⟩
  | must c report => cases h
  | may c => cases h

theorem calls_cons_of_some {t : Task} {ts : List Task} {c : Call} (h : t.call? = some c) :
    calls (t :: ts) = c :: calls ts :=
  List.filterMap_cons_some h

theorem calls_append (ts ts' : List Task) : calls (ts ++ ts') = calls ts ++ calls ts' :=
  List.filterMap_append

end Task

/-! ### Carrying out a script -/

/-- What a pass has done so far, and what is stored for its tenant. -/
structure Progress where
  calls : List Call
  statuses : List Status
  share : Share

namespace Progress

variable {o : Outage} {p : Progress}

/-- The progress after a status is published. -/
def publish (p : Progress) (s : Status) : Progress :=
  { p with statuses := p.statuses ++ [s] }

/-- The progress after a call, which is without effect if it fails. -/
def call (p : Progress) (c : Call) : Option StoreError → Progress
  | none => ⟨p.calls ++ [c], p.statuses, p.share.after c⟩
  | some _ => ⟨p.calls ++ [c], p.statuses, p.share⟩

@[simp] theorem calls_call (p : Progress) (c : Call) (failure? : Option StoreError) :
    (p.call c failure?).calls = p.calls ++ [c] := by
  cases failure? <;> rfl

/-- The number of steps so far. -/
def steps (p : Progress) : Nat := p.calls.length + p.statuses.length

@[simp] theorem steps_publish (p : Progress) (s : Status) : (p.publish s).steps = p.steps + 1 := by
  rw [steps, publish, List.length_append, List.length_singleton, steps, Nat.add_assoc]

@[simp] theorem steps_call (p : Progress) (c : Call) (failure? : Option StoreError) :
    (p.call c failure?).steps = p.steps + 1 := by
  have hstatuses : (p.call c failure?).statuses = p.statuses := by
    cases failure? <;> rfl
  rw [steps, calls_call, hstatuses, List.length_append, List.length_singleton, steps,
    Nat.add_right_comm]

/-- The failure of the next call, if it is to fail. -/
def failure? (p : Progress) (o : Outage) : Option StoreError := o p.calls.length

/-- The progress after a task, and why the pass ends there. -/
def step (o : Outage) (p : Progress) : Task → Progress × Option PassError
  | .publish s => (p.publish s, none)
  | .must c report => (p.call c (p.failure? o), (p.failure? o).map report)
  | .may c => (p.call c (p.failure? o), none)

/-- The progress after a script, and why the pass ends in it. -/
def through (o : Outage) : Progress → List Task → Progress × Option PassError
  | p, [] => (p, none)
  | p, t :: ts =>
    match p.step o t with
    | (q, none) => q.through o ts
    | (q, some e) => (q, some e)

theorem through_cons_of_none {t : Task} {ts : List Task} (h : (p.step o t).2 = none) :
    p.through o (t :: ts) = (p.step o t).1.through o ts := by
  rw [through]
  split
  · rename_i q hq
    rw [hq]
  · rename_i q e hq
    rw [hq] at h
    cases h

theorem through_cons_of_some {t : Task} {ts : List Task} {e : PassError}
    (h : (p.step o t).2 = some e) : p.through o (t :: ts) = ((p.step o t).1, some e) := by
  rw [through]
  split
  · rename_i q hq
    rw [hq] at h
    cases h
  · rename_i q e' hq
    rw [hq] at h ⊢
    cases h
    rfl

theorem through_must_of_none {c : Call} {report : StoreError → PassError} {ts : List Task}
    (h : p.failure? o = none) :
    p.through o (.must c report :: ts) = (p.call c none).through o ts := by
  rw [through, step, h]
  rfl

theorem through_must_of_some {c : Call} {report : StoreError → PassError} {ts : List Task}
    {e : StoreError} (h : p.failure? o = some e) :
    p.through o (.must c report :: ts) = (p.call c (some e), some (report e)) := by
  rw [through, step, h]
  rfl

/-- A script that is not ended goes on with what follows. -/
theorem through_append_of_none {ts ts' : List Task} (h : (p.through o ts).2 = none) :
    p.through o (ts ++ ts') = (p.through o ts).1.through o ts' := by
  induction ts generalizing p with
  | nil => rfl
  | cons t ts ih =>
    rw [List.cons_append]
    cases ht : (p.step o t).2 with
    | none =>
      rw [through_cons_of_none ht] at h ⊢
      rw [through_cons_of_none ht, ih h]
    | some e =>
      rw [through_cons_of_some ht] at h
      cases h

/-- A task is no end if its call is not to fail. -/
theorem step_snd_of_success (h : p.failure? o = none) (t : Task) : (p.step o t).2 = none := by
  cases t with
  | publish s => rfl
  | must c report => rw [step, h, Option.map_none]
  | may c => rfl

theorem step_fst_of_call {t : Task} {c : Call} (h : t.call? = some c) :
    (p.step o t).1 = p.call c (p.failure? o) := by
  cases t with
  | publish s => cases h
  | must c' report => cases h; rfl
  | may c' => cases h; rfl

/-- A script in which no call fails is carried out to its end. -/
theorem through_of_success {ts : List Task}
    (h : ∀ i < (Task.calls ts).length, o (p.calls.length + i) = none) :
    (p.through o ts).2 = none ∧ (p.through o ts).1.calls = p.calls ++ Task.calls ts ∧
      (p.through o ts).1.share = (Task.calls ts).foldl Share.after p.share := by
  induction ts generalizing p with
  | nil => exact ⟨rfl, (List.append_nil _).symm, rfl⟩
  | cons t ts ih =>
    cases hc : t.call? with
    | none =>
      obtain ⟨s, rfl⟩ := Task.exists_of_call?_eq_none hc
      rw [through_cons_of_none rfl]
      exact ih (p := p.publish s) h
    | some c =>
      rw [Task.calls_cons_of_some hc] at h ⊢
      have hnow : p.failure? o = none := h 0 (Nat.succ_pos _)
      -- the calls behind it have the numbers that follow
      have hrest : ∀ i < (Task.calls ts).length, o ((p.call c none).calls.length + i) = none := by
        intro i hi
        have hnext := h (i + 1) (Nat.succ_lt_succ hi)
        rwa [calls_call, List.length_append, List.length_singleton, Nat.add_assoc, Nat.add_comm 1]
      obtain ⟨hend, hcalls, hshare⟩ := ih hrest
      rw [through_cons_of_none (step_snd_of_success hnow t), step_fst_of_call hc, hnow]
      refine ⟨hend, ?_, hshare⟩
      rw [hcalls, calls_call, List.append_assoc, List.singleton_append]

/-- A script ends at the first call that fails, if it is one that has to succeed. -/
theorem through_of_failure {front : List Task} {e : StoreError} (c : Call)
    (report : StoreError → PassError) (rest : List Task)
    (h : ∀ i < (Task.calls front).length, o (p.calls.length + i) = none)
    (he : o (p.calls.length + (Task.calls front).length) = some e) :
    (p.through o (front ++ .must c report :: rest)).2 = some (report e) ∧
      (p.through o (front ++ .must c report :: rest)).1.calls =
        p.calls ++ Task.calls front ++ [c] ∧
      (p.through o (front ++ .must c report :: rest)).1.share =
        (Task.calls front).foldl Share.after p.share := by
  obtain ⟨hend, hcalls, hshare⟩ := through_of_success h
  have hfail : (p.through o front).1.failure? o = some e := by
    rw [failure?, hcalls, List.length_append, he]
  have hstep : ((p.through o front).1.step o (.must c report)).2 = some (report e) := by
    rw [step, hfail, Option.map_some]
  rw [through_append_of_none hend, through_cons_of_some hstep, step, hfail, call, hcalls, hshare]
  exact ⟨rfl, rfl, rfl⟩

/-- How a script ends that is carried out: with the progress that it leads to, and with the failure
that ends it or else with a result such that `post`. -/
def Ends {α : Type} (p : Progress) (o : Outage) (ts : List Task) (post : α → Prop) (q : Progress)
    (r : Except PassError α) : Prop :=
  q = (p.through o ts).1 ∧
    match (p.through o ts).2 with
    | some e => r = .error e
    | none => ∃ a, r = .ok a ∧ post a

end Progress

/-! ### Courses with an account of their progress -/

/-- What is returned by a call that does not fail: clearing counts the nodes of its tenant. -/
def Call.Fits (share : Share) : (c : Call) → c.Value → Prop
  | .clear _, (n : Nat) => n = share.nodes.length
  | _, _ => True

/-- How a call is answered that is to fail, or to succeed. -/
def Call.Answered (share : Share) (c : Call) (a : c.Answer) : Option StoreError → Prop
  | some e => a = .error e
  | none => ∃ v, a = .ok v ∧ c.Fits share v

/-- Every call can be answered. -/
theorem Call.exists_answered (share : Share) (c : Call) (failure? : Option StoreError) :
    ∃ a, c.Answered share a failure? := by
  cases failure? with
  | some e => exact ⟨.error e, rfl⟩
  | none =>
    cases c with
    | createNodes records => exact ⟨.ok (), (), rfl, trivial⟩
    | ensureIndex => exact ⟨.ok (), (), rfl, trivial⟩
    | createEdges tenant records => exact ⟨.ok (), (), rfl, trivial⟩
    | clear tenant => exact ⟨_, share.nodes.length, rfl, rfl⟩
    | read tenant query limit => exact ⟨_, [], rfl, trivial⟩

/-- The courses that are about one tenant, followed with their progress. -/
def account (tenant : Tenant) (o : Outage) : Protocol Step Step.Answer Progress where
  may _ := fun
    | .call c => c.Concerns tenant
    | .publish _ => True
  gives p := fun
    | .call c, a => c.Answered p.share a (p.failure? o)
    | .publish _, _ => True
  next p := fun
    | .call c, _ => p.call c (p.failure? o)
    | .publish s, _ => p.publish s

section Steps

variable {tenant : Tenant} {o : Outage} {α : Type} {post : Progress → α → Prop} {p : Progress}

/-- Whatever a course asks, it is answered and goes on, one step further. -/
theorem Progress.exists_obeys_next {q : Step} {next : q.Answer → Course α}
    (h : (Dialogue.ask q next).Obeys (account tenant o) post p) :
    ∃ a p', (next a).Obeys (account tenant o) post p' ∧ p'.steps = p.steps + 1 := by
  cases q with
  | publish s => exact ⟨(), p.publish s, h.2 () trivial, p.steps_publish s⟩
  | call c =>
    obtain ⟨a, ha⟩ := c.exists_answered p.share (p.failure? o)
    exact ⟨a, p.call c (p.failure? o), h.2 a ha, p.steps_call c _⟩

variable {n : Nat} (hpost : ∀ q a, post q a → q.steps = n)
include hpost

/-- A course that ends after a known number of steps has done no more of them. -/
theorem Progress.steps_le_of_obeys :
    ∀ {d : Course α} {p : Progress}, d.Obeys (account tenant o) post p → p.steps ≤ n
  | .done a, p, h => Nat.le_of_eq (hpost p a h)
  | .ask q next, p, h => by
    obtain ⟨a, p', hnext, hsteps⟩ := exists_obeys_next h
    have hle := steps_le_of_obeys hnext
    omega

/-- As long as it asks, it has done fewer. -/
theorem Progress.steps_lt_of_obeys {q : Step} {next : q.Answer → Course α}
    (h : (Dialogue.ask q next).Obeys (account tenant o) post p) : p.steps < n := by
  obtain ⟨a, p', hnext, hsteps⟩ := exists_obeys_next h
  have hle := steps_le_of_obeys hpost hnext
  omega

end Steps

end CodeGraph
