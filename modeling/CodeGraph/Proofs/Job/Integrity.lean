import CodeGraph.Proofs.Job.Discipline

/-!
# What passes leave intact

Passes share a store in memory that is empty at first. If no identity is drawn twice and no two
passes of one tenant run at the same time, the contents are intact after every single step, whatever
fails and whoever is interrupted.

* `Sound`: the invariant, which relates the store to what each pass has written and may still do;
* `Sound.start`, `Sound.advance`, `Sound.disturb`: every move keeps it;
* `intact_of_reachable`: what is reached is intact.
-/

namespace CodeGraph

open Dialogue

variable {ι : Type} [DecidableEq ι] {plan : ι → Plan} {written : ι → List NodeRecord} {w : World ι}

/-- What is left of a pass that has written some nodes: nothing is written before it begins, and it
keeps to its discipline. -/
def Disciplined (P : Plan) (written : List NodeRecord) :
    Option (Course (Except PassError Summary)) → Prop
  | none => written = []
  | some d => d.Obeys P.discipline (fun _ _ => True) written

/-- A store and passes such that all goes on well. -/
structure Sound (plan : ι → Plan) (written : ι → List NodeRecord) (w : World ι) : Prop where
  traced : Traced plan written w.memory.contents
  disciplined : ∀ i, Disciplined (plan i) (written i) (w.course i)
  /-- What a running pass has written is still there. -/
  kept : ∀ i, w.Running i → ∀ r ∈ written i, r ∈ w.memory.nodes
  /-- A tenant has one running pass at most. -/
  alone : ∀ i j, w.Running i → w.Running j → (plan i).tenant = (plan j).tenant → i = j

namespace Sound

omit [DecidableEq ι] in
/-- At first there is nothing. -/
theorem initial {m : Memory} (hnodes : m.nodes = []) (hedges : m.ownedEdges = []) :
    Sound plan (fun _ => []) ⟨m, fun _ => none⟩ where
  traced :=
    { front := fun _ => List.nil_prefix
      rows := by simp [Memory.contents, hnodes]
      distinct := by simp [Memory.contents, hnodes]
      ends := by simp [Memory.contents, hedges]
      names := by simp [Memory.contents, hedges] }
  disciplined _ := rfl
  kept := by simp
  alone := by
    rintro i j ⟨q, next, ⟨⟩⟩

/-- A pass may begin when no other one of its tenant is running. -/
theorem start (h : Sound plan written w) {i : ι} (hnew : w.course i = none)
    (halone : ∀ j, w.Running j → (plan j).tenant ≠ (plan i).tenant) :
    Sound plan written (w.start plan i) := by
  have hempty : written i = [] := by
    have hi := h.disciplined i
    rwa [hnew] at hi
  refine ⟨h.traced, fun j => ?_, fun j hj r hr => ?_, fun j k hj hk hjk => ?_⟩
  · show Disciplined (plan j) (written j) (Function.update w.course i (some (plan i).course) j)
    by_cases hji : j = i
    · subst hji
      rw [Function.update_self, hempty]
      exact (plan j).obeys_discipline
    · rw [Function.update_of_ne hji]
      exact h.disciplined j
  · by_cases hji : j = i
    · subst hji
      rw [hempty] at hr
      cases hr
    · exact h.kept j ((World.running_update hji).1 hj) r hr
  · rcases eq_or_ne j i with rfl | hji
    · rcases eq_or_ne k j with rfl | hkj
      · rfl
      · exact absurd hjk.symm (halone k ((World.running_update hkj).1 hk))
    · rcases eq_or_ne k i with rfl | hki
      · exact absurd hjk (halone j ((World.running_update hji).1 hj))
      · exact h.alone j k ((World.running_update hji).1 hj) ((World.running_update hki).1 hk) hjk

omit [DecidableEq ι] in
/-- What the store is told does not touch its contents. -/
theorem disturb (h : Sound plan written w) (faults : Faults) (results : List (List Row)) :
    Sound plan written (w.disturb faults results) :=
  ⟨h.traced, h.disciplined, h.kept, h.alone⟩

/-- A pass may do its next step at any time. -/
theorem advance (hdraw : NeverRepeats plan) (h : Sound plan written w) {i : ι} {q : Step}
    {next : q.Answer → Course (Except PassError Summary)}
    (hask : w.course i = some (.ask q next)) :
    Sound plan (Function.update written i (Plan.next (written i) q (w.memory.answer q).1))
      (w.advance i) := by
  have hrunning : w.Running i := ⟨q, next, hask⟩
  have hi := h.disciplined i
  rw [hask] at hi
  obtain ⟨hmay, hnext⟩ := hi
  have hstill : ∀ {j}, (w.advance i).Running j → w.Running j := by
    intro j hj
    rw [World.advance_of_ask hask] at hj
    rcases eq_or_ne j i with rfl | hji
    · exact hrunning
    · exact (World.running_update hji).1 hj
  have hnodes : (w.advance i).memory.nodes =
      (Memory.next w.memory.contents q (w.memory.answer q).1).nodes := by
    rw [World.advance_of_ask hask]
    exact congrArg Contents.nodes (w.memory.contents_answer q)
  refine ⟨?_, fun j => ?_, fun j hj r hr => ?_, fun j k hj hk hjk => ?_⟩
  · rw [World.advance_of_ask hask]
    show Traced plan _ (w.memory.answer q).2.contents
    rw [w.memory.contents_answer]
    exact h.traced.next hdraw hmay (h.kept i hrunning) _
  · rw [World.advance_of_ask hask]
    show Disciplined (plan j) _ (Function.update w.course i _ j)
    rcases eq_or_ne j i with rfl | hji
    · rw [Function.update_self, Function.update_self]
      exact hnext _ trivial
    · rw [Function.update_of_ne hji, Function.update_of_ne hji]
      exact h.disciplined j
  · rw [hnodes]
    -- the pass that moves deletes nothing of its own, and nothing of the others
    rcases eq_or_ne j i with rfl | hji
    · rw [Function.update_self] at hr
      exact Plan.mem_next_of_mem_next hmay (h.kept j hrunning) _ r hr
    · rw [Function.update_of_ne hji] at hr
      refine Plan.mem_next_of_tenant_ne hmay (h.kept j (hstill hj) r hr) ?_ _
      -- the passes of one tenant do not overlap
      rw [Plan.tenant?_of_mem ((h.traced.front j).subset hr)]
      intro ht
      exact hji (h.alone j i (hstill hj) hrunning (Option.some.inj ht))
  · exact h.alone j k (hstill hj) (hstill hk) hjk

/-- Every move goes on well. -/
theorem move (hdraw : NeverRepeats plan) {w w' : World ι} (hmove : World.Move plan w w')
    (h : Sound plan written w) : ∃ written', Sound plan written' w' := by
  cases hmove with
  | start i hnew halone => exact ⟨_, h.start hnew halone⟩
  | advance i =>
    by_cases hi : w.Running i
    · obtain ⟨q, next, hask⟩ := hi
      exact ⟨_, h.advance hdraw hask⟩
    · rw [World.advance_of_not_running hi]
      exact ⟨_, h⟩
  | disturb faults results => exact ⟨_, h.disturb faults results⟩

/-- All goes on well in everything that can be reached from an empty store. -/
theorem of_reachable (hdraw : NeverRepeats plan) {m : Memory} (hnodes : m.nodes = [])
    (hedges : m.ownedEdges = []) (hreach : Reachable plan m w) :
    ∃ written, Sound plan written w := by
  induction hreach with
  | refl => exact ⟨_, initial hnodes hedges⟩
  | tail _ hmove ih =>
    obtain ⟨written, h⟩ := ih
    exact h.move hdraw hmove

end Sound

/-- **Passes leave the store intact.** Whatever steps are done in whatever order, each stored node
carries an identity of its own, each stored edge begins and ends at stored nodes of its tenant, and
nothing is stored that is not to be stored. -/
theorem intact_of_reachable (plan : ι → Plan) (m : Memory) (w : World ι)
    (hdraw : NeverRepeats plan) (hempty : m.contents = ⟨[], []⟩) (hreach : Reachable plan m w) :
    w.memory.contents.Intact := by
  obtain ⟨hnodes, hedges⟩ := Contents.mk.inj hempty
  obtain ⟨written, h⟩ := Sound.of_reachable hdraw hnodes hedges hreach
  exact h.traced.intact

/-! ### Two passes that take turns -/

/-- Plans for two tenants, whose identities are drawn in turn from one supply. -/
def rivals (b : Bool) : Plan :=
  .small {} (fun s => .fresh (2 * s + b.toNat)) (if b then "ours" else "theirs")

theorem neverRepeats_rivals : NeverRepeats rivals := by
  have hsmall : ∀ i j : Bool, ∀ s < 4, ∀ t < 4,
      Identity.fresh (2 * s + i.toNat) = .fresh (2 * t + j.toNat) → i = j ∧ s = t := by
    decide +kernel
  intro i j s t hs ht
  exact hsmall i j s hs.lt_size t ht.lt_size

/-- Two passes that have begun in an empty store. -/
def begun : World Bool :=
  (World.start ⟨{}, fun _ => none⟩ rivals true).start rivals false

theorem reachable_begun : Reachable rivals {} begun := by
  refine .tail (.single (.start true rfl ?_)) (.start false rfl ?_)
  · rintro j ⟨q, next, ⟨⟩⟩
  · rintro (_ | _) ⟨q, next, h⟩
    · cases h
    · decide

/-- The passes when both have written their nodes, one of them its edges. -/
def halfway : World Bool :=
  [true, true, false, false, false, true, true, false, true, true, true].foldl World.advance begun

theorem intact_of_reachable_halfway :
    NeverRepeats rivals ∧ Memory.contents {} = ⟨[], []⟩ ∧ Reachable rivals {} halfway ∧
      halfway.memory.nodes.length = 6 ∧ halfway.memory.edges.length = 1 ∧
      halfway.memory.contents.Intact := by
  have hreach : Reachable rivals {} halfway := reachable_begun.advances _
  exact ⟨neverRepeats_rivals, rfl, hreach, by decide +kernel, by decide +kernel,
    intact_of_reachable rivals {} halfway neverRepeats_rivals rfl hreach⟩

end CodeGraph
