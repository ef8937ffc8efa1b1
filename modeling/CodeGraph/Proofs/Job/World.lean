import CodeGraph.Proofs.Job.Plan
import Mathlib.Logic.Function.Basic
import Mathlib.Logic.Relation

/-!
# Passes that share a store

Any number of passes share one store in memory. Each of them does one step at a time, in any order;
meanwhile the store may be told to fail, or be given rows to return. A pass does not begin as long
as another one of its tenant is running.

* `World`: the store and what is left of each pass;
* `World.Move`: what can happen next;
* `Reachable`: what can be reached from a store;
* `NeverRepeats`: no identity is drawn twice.
-/

namespace CodeGraph

/-- A store, and what is left of each pass that has begun. -/
structure World (ι : Type) where
  memory : Memory
  course : ι → Option (Course (Except PassError Summary))

namespace World

variable {ι : Type} [DecidableEq ι] (w : World ι) (plan : ι → Plan)

/-- Whether a pass has begun and not ended. -/
def Running (i : ι) : Prop := ∃ q next, w.course i = some (.ask q next)

/-- A pass begins. -/
def start (i : ι) : World ι :=
  { w with course := Function.update w.course i (some (plan i).course) }

/-- A pass does its next step, if it has one. -/
def advance (i : ι) : World ι :=
  match w.course i with
  | some (.ask q next) =>
    { memory := (w.memory.answer q).2
      course := Function.update w.course i (some (next (w.memory.answer q).1)) }
  | _ => w

/-- The store is told what is to fail, and which rows to return. -/
def disturb (faults : Faults) (results : List (List Row)) : World ι :=
  { w with memory := { w.memory with faults, results } }

/-- What can happen next. -/
inductive Move (plan : ι → Plan) : World ι → World ι → Prop
  | start {w : World ι} (i : ι) (hnew : w.course i = none)
      (halone : ∀ j, w.Running j → (plan j).tenant ≠ (plan i).tenant) : Move plan w (w.start plan i)
  | advance {w : World ι} (i : ι) : Move plan w (w.advance i)
  | disturb {w : World ι} (faults : Faults) (results : List (List Row)) :
      Move plan w (w.disturb faults results)

variable {w}

theorem advance_of_ask {i : ι} {q : Step} {next : q.Answer → Course (Except PassError Summary)}
    (h : w.course i = some (.ask q next)) :
    w.advance i = { memory := (w.memory.answer q).2
                    course := Function.update w.course i
                      (some (next (w.memory.answer q).1)) } := by
  unfold advance
  rw [h]

theorem advance_of_not_running {i : ι} (h : ¬ w.Running i) : w.advance i = w := by
  unfold advance
  split
  · rename_i q next hask
    exact absurd ⟨q, next, hask⟩ h
  · rfl

/-- Another pass does not notice that one begins or does a step. -/
theorem running_update {i j : ι} (h : j ≠ i) {m : Memory}
    {c : Option (Course (Except PassError Summary))} :
    Running ⟨m, Function.update w.course i c⟩ j ↔ w.Running j := by
  unfold Running
  simp only [Function.update_of_ne h]

end World

variable {ι : Type} [DecidableEq ι]

/-- What can be reached from a store in which no pass has begun. -/
def Reachable (plan : ι → Plan) (m : Memory) (w : World ι) : Prop :=
  Relation.ReflTransGen (World.Move plan) ⟨m, fun _ => none⟩ w

theorem Reachable.advances {plan : ι → Plan} {m : Memory} {w : World ι} (h : Reachable plan m w)
    (is : List ι) : Reachable plan m (is.foldl World.advance w) := by
  induction is generalizing w with
  | nil => exact h
  | cons i is ih => exact ih (h.tail (.advance i))

/-- No identity is drawn twice, neither for one plan nor for two. -/
def NeverRepeats (plan : ι → Plan) : Prop :=
  ∀ i j s t, (plan i).graph.IsStored s → (plan j).graph.IsStored t →
    (plan i).draw s = (plan j).draw t → i = j ∧ s = t

namespace NeverRepeats

variable {plan : ι → Plan}

omit [DecidableEq ι] in
/-- Nodes of different plans carry different identities. -/
theorem eq_of_id?_eq (h : NeverRepeats plan) {i j : ι} {r r' : NodeRecord}
    (hr : r ∈ (plan i).records) (hr' : r' ∈ (plan j).records) (hid : r.id? = r'.id?) : i = j := by
  obtain ⟨s, hs, hrs⟩ := Plan.exists_slot_of_mem hr
  obtain ⟨t, ht, hrt⟩ := Plan.exists_slot_of_mem hr'
  rw [hrs, hrt, Option.some.injEq] at hid
  exact (h i j s t hs ht (Identity.text_injective hid)).1

omit [DecidableEq ι] in
/-- The nodes of a plan carry different identities. -/
theorem nodup_ids (h : NeverRepeats plan) (i : ι) :
    ((plan i).records.map NodeRecord.id?).Nodup :=
  Graph.nodup_ids fun s t hs ht hst => (h i i s t hs ht hst).2

end NeverRepeats

end CodeGraph
