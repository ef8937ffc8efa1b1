import CodeGraph.Proofs.Job.Failure
import Mathlib.Logic.Function.Basic

/-!
# Passes that do not disturb each other

Passes for different tenants share a store in memory and take turns, step by step. Each call fails or
succeeds as it does when its pass is carried out alone. Then each pass leaves what it leaves alone, and
counts what it counts alone.

* `Concert`, `Concert.advance`, `Concert.play`: passes that take turns;
* `Plan.Underway`: a pass that does what it does alone, with `Plan.Underway.left_pos`,
  `Plan.Underway.publish`, `Plan.Underway.call`, `Plan.Underway.ends`;
* `Concert.InTune`: the invariant, with `Concert.InTune.advance` for one step and
  `Concert.InTune.play` for all of them;
* `Concert.alone_of_play`: each pass ends, and with what.
-/

namespace CodeGraph

open Dialogue

/-- What a pass counts; what it finds in the end depends on the rows that the store was given. -/
def Summary.counts (s : Summary) : Nat × Tally := (s.nodesCleared, s.toTally)

/-! ### Passes that take turns -/

/-- A store, and of each pass the number of its calls so far and what is left of it. -/
structure Concert (ι : Type) where
  memory : Memory
  made : ι → Nat
  course : ι → Course (Except PassError Summary)

namespace Concert

variable {ι : Type}

/-- The passes before the first of them begins. -/
def ofPlans (plan : ι → Plan) (m : Memory) : Concert ι :=
  ⟨m, fun _ => 0, fun i => (plan i).course⟩

/-- What a pass ended with, if it has ended. -/
def result? (w : Concert ι) (i : ι) : Option (Except PassError Summary) :=
  match w.course i with
  | .done r => some r
  | .ask .. => none

theorem course_of_result? {w : Concert ι} {i : ι} {r : Except PassError Summary}
    (h : w.result? i = some r) : w.course i = .done r := by
  unfold result? at h
  split at h
  · rename_i r' hr
    rw [hr, Option.some.inj h]
  · cases h

theorem result?_of_done {w : Concert ι} {i : ι} {r : Except PassError Summary}
    (h : w.course i = .done r) : w.result? i = some r := by
  unfold result?
  rw [h]

variable [DecidableEq ι]

/-- A pass does its next step, if it has one. Its calls fail as its own outage says. -/
def advance (o : ι → Outage) (w : Concert ι) (i : ι) : Concert ι :=
  match w.course i with
  | .done _ => w
  | .ask (.publish _) next => { w with course := Function.update w.course i (next ()) }
  | .ask (.call c) next =>
    { memory := (w.memory.obey c (o i (w.made i))).2
      made := Function.update w.made i (w.made i + 1)
      course := Function.update w.course i (next (w.memory.obey c (o i (w.made i))).1) }

/-- The passes take turns. -/
def play (o : ι → Outage) (w : Concert ι) (turns : List ι) : Concert ι :=
  turns.foldl (advance o) w

variable {o : ι → Outage} {w : Concert ι} {i : ι}

theorem advance_of_done {r : Except PassError Summary} (h : w.course i = .done r) :
    w.advance o i = w := by
  unfold advance
  rw [h]

theorem advance_of_publish {s : Status} {next : Unit → Course (Except PassError Summary)}
    (h : w.course i = .ask (.publish s) next) :
    w.advance o i = { w with course := Function.update w.course i (next ()) } := by
  unfold advance
  rw [h]

theorem advance_of_call {c : Call} {next : c.Answer → Course (Except PassError Summary)}
    (h : w.course i = .ask (.call c) next) :
    w.advance o i =
      { memory := (w.memory.obey c (o i (w.made i))).2
        made := Function.update w.made i (w.made i + 1)
        course := Function.update w.course i (next (w.memory.obey c (o i (w.made i))).1) } := by
  unfold advance
  rw [h]

end Concert

/-! ### A single pass -/

namespace Plan

variable {P : Plan} {o : Outage} {m₀ m : Memory} {made left : Nat}

/-- The number of steps of a pass that is carried out alone. -/
def length (P : Plan) (o : Outage) (m₀ : Memory) : Nat :=
  ((P.start m₀).through o P.script).1.steps

/-- Whether a pass does what it does alone: after a number of calls its share is what it has made of
it, and what is left of it goes on with its script from there, for a number of steps. -/
def Underway (P : Plan) (o : Outage) (m₀ : Memory) (made left : Nat) (share : Share)
    (d : Course (Except PassError Summary)) : Prop :=
  ∃ p : Progress, p.calls.length = made ∧ p.steps + left = P.length o m₀ ∧ p.share = share ∧
    d.Obeys (account P.tenant o)
      ((P.start m₀).Ends o P.script (P.Tells (m₀.contents.nodesOf P.tenant).length)) p

/-- A pass that has not begun. -/
theorem underway_course :
    P.Underway o m₀ 0 (P.length o m₀) (m₀.contents.share P.tenant) P.course :=
  ⟨P.start m₀, rfl, Nat.zero_add _, rfl, P.obeys_script o (P.start m₀)⟩

namespace Underway

/-- As long as a pass asks for something, there are steps left. -/
theorem left_pos {share : Share} {q : Step} {next : q.Answer → Course (Except PassError Summary)}
    (h : P.Underway o m₀ made left share (.ask q next)) : 0 < left := by
  obtain ⟨p, -, hsteps, -, hobeys⟩ := h
  have hlt : p.steps < P.length o m₀ :=
    Progress.steps_lt_of_obeys (fun q r hend => congrArg Progress.steps hend.1) hobeys
  omega

/-- When a pass has ended, no steps are left. -/
theorem left_eq_zero {share : Share} {r : Except PassError Summary}
    (h : P.Underway o m₀ made left share (.done r)) : left = 0 := by
  obtain ⟨p, -, hsteps, -, hend, -⟩ := h
  rw [hend] at hsteps
  exact Nat.add_eq_left.1 hsteps

/-- A status that is published changes nothing in the store. -/
theorem publish {share : Share} {s : Status} {next : Unit → Course (Except PassError Summary)}
    (h : P.Underway o m₀ made left share (.ask (.publish s) next)) :
    P.Underway o m₀ made (left - 1) share (next ()) := by
  have hpos := h.left_pos
  obtain ⟨p, hmade, hsteps, hshare, -, hnext⟩ := h
  refine ⟨p.publish s, hmade, ?_, hshare, hnext () trivial⟩
  rw [Progress.steps_publish]
  omega

/-- All calls are about the tenant. -/
theorem concerns {share : Share} {c : Call} {next : c.Answer → Course (Except PassError Summary)}
    (h : P.Underway o m₀ made left share (.ask (.call c) next)) : c.Concerns P.tenant := by
  obtain ⟨p, -, -, -, hmay, -⟩ := h
  exact hmay

/-- A call does to the share what it does when there are no other passes. -/
theorem call {c : Call} {next : c.Answer → Course (Except PassError Summary)}
    (h : P.Underway o m₀ made left (m.contents.share P.tenant) (.ask (.call c) next)) :
    P.Underway o m₀ (made + 1) (left - 1) ((m.obey c (o made)).2.contents.share P.tenant)
      (next (m.obey c (o made)).1) := by
  have hpos := h.left_pos
  obtain ⟨p, rfl, hsteps, hshare, hmay, hnext⟩ := h
  refine ⟨p.call c (p.failure? o), ?_, ?_, ?_, hnext _ ?_⟩
  · rw [Progress.calls_call, List.length_append]
    rfl
  · rw [Progress.steps_call]
    omega
  · exact (Memory.share_obey hmay hshare.symm (p.failure? o)).symm
  · show c.Answered p.share (m.obey c (p.failure? o)).1 (p.failure? o)
    rw [hshare]
    exact m.answered_obey hmay _

/-- A pass that has ended leaves and counts what it leaves and counts alone. -/
theorem ends {share : Share} {r : Except PassError Summary}
    (h : P.Underway o m₀ made left share (.done r)) :
    share = (m₀.serveUnder o 0 P.course).2.contents.share P.tenant ∧
      r.map Summary.counts = (m₀.serveUnder o 0 P.course).1.map Summary.counts := by
  obtain ⟨p, -, -, rfl, rfl, hr⟩ := h
  have halone := P.leaves_through m₀ o
  refine ⟨halone.share.symm, ?_⟩
  -- both runs end as the script says
  have hfailure := halone.failure
  cases hend : ((P.start m₀).through o P.script).2 with
  | some e =>
    simp only [hend] at hr hfailure
    rw [hr, hfailure]
  | none =>
    simp only [hend] at hr hfailure
    obtain ⟨s, rfl, hcleared, htally⟩ := hr
    obtain ⟨s', hs', hcleared', htally'⟩ := hfailure
    have hcounts : s.counts = s'.counts := by
      rw [Summary.counts, Summary.counts, hcleared, htally, hcleared', htally']
    rw [hs']
    exact congrArg Except.ok hcounts

end Underway

end Plan

/-! ### All passes -/

namespace Concert

variable {ι : Type} {plan : ι → Plan} {o : ι → Outage} {m : Memory} {left : ι → Nat}
variable {w : Concert ι} {i : ι}

/-- Whether every pass does what it does alone, with a number of steps left, and no pass touches what
belongs to nobody. -/
structure InTune (plan : ι → Plan) (o : ι → Outage) (m : Memory) (left : ι → Nat) (w : Concert ι) :
    Prop where
  underway : ∀ i, (plan i).Underway (o i) m (w.made i) (left i)
    (w.memory.contents.share (plan i).tenant) (w.course i)
  beside : ∀ t, (∀ i, (plan i).tenant ≠ t) → w.memory.contents.share t = m.contents.share t

namespace InTune

theorem ofPlans (plan : ι → Plan) (o : ι → Outage) (m : Memory) :
    InTune plan o m (fun i => (plan i).length (o i) m) (ofPlans plan m) where
  underway _ := Plan.underway_course
  beside _ _ := rfl

variable [DecidableEq ι]

/-- A pass that has ended leaves everything as it is. -/
theorem done (h : InTune plan o m left w) {r : Except PassError Summary}
    (hdone : w.course i = .done r) :
    InTune plan o m (Function.update left i (left i - 1)) (w.advance o i) := by
  have hi := h.underway i
  rw [hdone] at hi
  rwa [advance_of_done hdone, hi.left_eq_zero, Nat.zero_sub, ← hi.left_eq_zero,
    Function.update_eq_self]

/-- A status concerns the pass that publishes it. -/
theorem publish (h : InTune plan o m left w) {s : Status}
    {next : Unit → Course (Except PassError Summary)} (hask : w.course i = .ask (.publish s) next) :
    InTune plan o m (Function.update left i (left i - 1)) (w.advance o i) := by
  rw [advance_of_publish hask]
  refine ⟨fun j => ?_, h.beside⟩
  rcases eq_or_ne j i with rfl | hji
  · have hj := h.underway j
    rw [hask] at hj
    simp only [Function.update_self]
    exact hj.publish
  · simp only [Function.update_of_ne hji]
    exact h.underway j

/-- A call concerns the pass that makes it: to the others it is as if nothing had happened. -/
theorem call (hne : Function.Injective fun i => (plan i).tenant) (h : InTune plan o m left w)
    {c : Call} {next : c.Answer → Course (Except PassError Summary)}
    (hask : w.course i = .ask (.call c) next) :
    InTune plan o m (Function.update left i (left i - 1)) (w.advance o i) := by
  have hi := h.underway i
  rw [hask] at hi
  have hothers : ∀ t, t ≠ (plan i).tenant →
      (w.memory.obey c (o i (w.made i))).2.contents.share t = w.memory.contents.share t := by
    intro t ht
    rw [w.memory.contents_obey]
    exact Contents.share_after_of_ne hi.concerns ht _
  rw [advance_of_call hask]
  refine ⟨fun j => ?_, fun t ht => ?_⟩
  · rcases eq_or_ne j i with rfl | hji
    · simp only [Function.update_self]
      exact hi.call
    · simp only [Function.update_of_ne hji]
      rw [hothers _ fun ht => hji (hne ht)]
      exact h.underway j
  · rw [hothers t (ht i).symm]
    exact h.beside t ht

/-- One step of any pass keeps all of them going. -/
theorem advance (hne : Function.Injective fun i => (plan i).tenant) (h : InTune plan o m left w)
    (i : ι) : InTune plan o m (Function.update left i (left i - 1)) (w.advance o i) := by
  cases hask : w.course i with
  | done r => exact h.done hask
  | ask q next =>
    cases q with
    | publish s => exact h.publish hask
    | call c => exact h.call hne hask

/-- So do all steps in any order. -/
theorem play (hne : Function.Injective fun i => (plan i).tenant) (h : InTune plan o m left w)
    (turns : List ι) : InTune plan o m (fun i => left i - turns.count i) (w.play o turns) := by
  induction turns generalizing w left with
  | nil => exact h
  | cons i turns ih =>
    have hleft : (fun j => Function.update left i (left i - 1) j - turns.count j) =
        fun j => left j - (i :: turns).count j := by
      funext j
      rcases eq_or_ne j i with rfl | hji
      · rw [Function.update_self, List.count_cons_self]
        omega
      · rw [Function.update_of_ne hji, List.count_cons_of_ne hji.symm]
    rw [← hleft]
    exact ih (h.advance hne i)

end InTune

variable [DecidableEq ι]

/-- **Tenants do not interfere.** When passes for different tenants take turns in one store, in
whatever order and whichever of their calls fail, each pass ends after some number of turns of its own.
Then it has left for its tenant what it leaves alone, and has failed or counted as it does alone.
Nothing changes for other tenants. What the store fails of its own when the pass is alone is one of
these outages. -/
theorem alone_of_play (plan : ι → Plan) (hne : Function.Injective fun i => (plan i).tenant)
    (m : Memory) (o : ι → Outage) :
    (∀ turns i r, ((ofPlans plan m).play o turns).result? i = some r →
      ((ofPlans plan m).play o turns).memory.contents.share (plan i).tenant =
          (m.serveUnder (o i) 0 (plan i).course).2.contents.share (plan i).tenant ∧
        r.map Summary.counts =
          (m.serveUnder (o i) 0 (plan i).course).1.map Summary.counts) ∧
    (∀ i, ∃ n, ∀ turns, n ≤ turns.count i →
      (((ofPlans plan m).play o turns).result? i).isSome) ∧
    (∀ turns t, (∀ i, (plan i).tenant ≠ t) →
      ((ofPlans plan m).play o turns).memory.contents.share t = m.contents.share t) ∧
    ∀ i, ∃ own : Outage,
      (m.serveUnder own 0 (plan i).course).1 = (m.serve (plan i).course).1 ∧
        (m.serve (plan i).course).2.Alike (m.serveUnder own 0 (plan i).course).2 := by
  have hlast : ∀ turns, InTune plan o m (fun i => (plan i).length (o i) m - turns.count i)
      ((ofPlans plan m).play o turns) := (InTune.ofPlans plan o m).play hne
  refine ⟨fun turns i r hr => ?_, fun i => ⟨(plan i).length (o i) m, fun turns hturns => ?_⟩,
    fun turns => (hlast turns).beside, fun i => Memory.exists_outage _ 0 ⟨rfl, rfl, rfl, rfl⟩⟩
  · have hi := (hlast turns).underway i
    rw [course_of_result? hr] at hi
    exact hi.ends
  · have hi := (hlast turns).underway i
    cases hcourse : ((ofPlans plan m).play o turns).course i with
    | done r => rw [result?_of_done hcourse, Option.isSome_some]
    | ask q next =>
      -- a pass that asks for something has steps left
      rw [hcourse] at hi
      have hpos := hi.left_pos
      omega

/-- Two passes, of which one writes its nodes one by one. -/
def partners (b : Bool) : Plan :=
  if b then .piecemeal else .small {} Identity.fresh "theirs"

/-- The third call of that one fails. -/
def oneLost (b : Bool) : Outage := if b then Plan.thirdCallLost else fun _ => none

/-- An order in which they can do their steps. -/
def inTurns : List Bool :=
  [true, false, false, true, false, false, true, false, true, false, false, true, false, false,
    false]

/-- The passes when they have done them. -/
def duet : Concert Bool := (ofPlans partners Plan.leftovers).play oneLost inTurns

theorem alone_of_play_duet :
    (Function.Injective fun b => (partners b).tenant) ∧
      duet.result? true = some (.error (.persisting (.nodeChunk 1 1 (.connection "lost")))) ∧
      (∃ r, duet.result? false = some r ∧
        r.map Summary.counts =
          (Plan.leftovers.serveUnder (fun _ => none) 0 (partners false).course).1.map
            Summary.counts) ∧
      duet.memory.contents.share "ours" =
        (Plan.leftovers.serveUnder Plan.thirdCallLost 0 Plan.piecemeal.course).2.contents.share
          "ours" := by
  have hne : Function.Injective fun b => (partners b).tenant := by
    rintro (_ | _) (_ | _) h
    · rfl
    · exact absurd h (by decide)
    · exact absurd h (by decide)
    · rfl
  have hours : duet.result? true =
      some (.error (.persisting (.nodeChunk 1 1 (.connection "lost")))) := by
    decide +kernel
  have htheirs : (duet.result? false).isSome := by decide +kernel
  obtain ⟨r, hr⟩ := Option.isSome_iff_exists.1 htheirs
  have halone := (alone_of_play partners hne Plan.leftovers oneLost).1 inTurns
  exact ⟨hne, hours, ⟨r, hr, (halone false r hr).2⟩, (halone true _ hours).1⟩

end Concert

end CodeGraph
