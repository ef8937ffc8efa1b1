import CodeGraph.Proofs.Job.Script

/-!
# Stores whose calls fail

Any call to a store may fail. A store in memory can be told of each call whether it fails; a call that
does is without effect. What a store fails of its own is a special case.

* `Memory.obey`, `Memory.serveUnder`: a store in memory whose calls fail as an outage says;
* `Memory.exists_outage`: what a store is told beforehand to fail is an outage;
* `Progress.Shows`: what a store shows of a course that it carries out;
* `Memory.serveUnder_obeys`: what is true of a course for all such stores is true of it when it is
  carried out.
-/

namespace CodeGraph

open Dialogue

/-! ### Calls that are told whether they fail -/

namespace Memory

variable (m : Memory)

/-- One call to a store that is told whether it fails. A call that fails has no effect; one that is
not to fail does not fail either for what the store was told before. -/
def obey (c : Call) : Option StoreError → c.Answer × Memory
  | some e => (.error e, { m with log := m.log ++ [c] })
  | none => { m with faults := {} }.perform c

theorem log_perform (c : Call) : (m.perform c).2.log = m.log ++ [c] := by
  cases c with
  | createNodes records => simp only [perform, createNodes]; split <;> rfl
  | ensureIndex => rfl
  | createEdges tenant records => simp only [perform, createEdges]; split <;> rfl
  | clear tenant => rfl
  | read tenant query limit =>
    simp only [perform, read]
    split
    · rfl
    · split
      · rfl
      · rfl

/-- Every call is noted, whether it fails or not. -/
theorem log_obey (c : Call) (failure? : Option StoreError) :
    (m.obey c failure?).2.log = m.log ++ [c] := by
  cases failure? with
  | none => exact log_perform _ c
  | some e => rfl

/-- A call changes the contents as its answer says. -/
theorem contents_obey (c : Call) (failure? : Option StoreError) :
    (m.obey c failure?).2.contents = m.contents.after c (m.obey c failure?).1 := by
  cases failure? with
  | none => exact contents_perform _ c
  | some e => exact (Contents.after_error _ c e).symm

/-- A call fails if it is told to, and else succeeds. -/
theorem answered_obey {c : Call} {tenant : Tenant} (h : c.Concerns tenant)
    (failure? : Option StoreError) :
    c.Answered (m.contents.share tenant) (m.obey c failure?).1 failure? := by
  cases failure? with
  | some e => rfl
  | none =>
    cases c with
    | createNodes records => exact ⟨(), rfl, trivial⟩
    | ensureIndex => exact ⟨(), rfl, trivial⟩
    | createEdges t records => exact ⟨(), rfl, trivial⟩
    | clear t =>
      obtain rfl : t = tenant := h
      exact ⟨_, clear_answer _ t, rfl⟩
    | read t query limit =>
      simp only [obey, perform, read]
      split
      · exact ⟨_, rfl, trivial⟩
      · exact ⟨_, rfl, trivial⟩

/-- Carries a course out of which some number of calls are made, when calls fail as an outage says. -/
def serveUnder {α : Type} (o : Outage) : Nat → Memory → Course α → α × Memory
  | _, m, .done a => (a, m)
  | made, m, .ask (.publish _) next => serveUnder o made m (next ())
  | made, m, .ask (.call c) next =>
    serveUnder o (made + 1) (m.obey c (o made)).2 (next (m.obey c (o made)).1)

/-! ### The failures of a store of its own -/

/-- Whether two stores differ only in what they are told to fail, and in the batches that they count
for it. -/
structure Alike (m m' : Memory) : Prop where
  nodeBatches : m'.nodeBatches = m.nodeBatches
  edgeBatches : m'.edgeBatches = m.edgeBatches
  results : m'.results = m.results
  log : m'.log = m.log

/-- Why a call fails, if it does. -/
def errorOf? {α : Type} : Except StoreError α → Option StoreError
  | .error e => some e
  | .ok _ => none

/-- A store that is told to fail where another one fails does the same. -/
theorem Alike.obey {m m' : Memory} (h : Alike m m') (c : Call) :
    (m'.obey c (errorOf? (m.perform c).1)).1 = (m.perform c).1 ∧
      Alike (m.perform c).2 (m'.obey c (errorOf? (m.perform c).1)).2 := by
  obtain ⟨nodeBatches, edgeBatches, results, nodeAttempts, edgeAttempts, faults, log⟩ := m'
  obtain ⟨rfl, rfl, rfl, rfl⟩ : nodeBatches = m.nodeBatches ∧ edgeBatches = m.edgeBatches ∧
      results = m.results ∧ log = m.log := ⟨h.nodeBatches, h.edgeBatches, h.results, h.log⟩
  cases c with
  | createNodes records =>
    simp only [perform, createNodes]
    split
    · exact ⟨rfl, rfl, rfl, rfl, rfl⟩
    · exact ⟨rfl, rfl, rfl, rfl, rfl⟩
  | ensureIndex =>
    simp only [perform, ensureIndex]
    split
    · exact ⟨rfl, rfl, rfl, rfl, rfl⟩
    · exact ⟨rfl, rfl, rfl, rfl, rfl⟩
  | createEdges tenant records =>
    simp only [perform, createEdges]
    split
    · exact ⟨rfl, rfl, rfl, rfl, rfl⟩
    · exact ⟨rfl, rfl, rfl, rfl, rfl⟩
  | clear tenant => exact ⟨rfl, rfl, rfl, rfl, rfl⟩
  | read tenant query limit =>
    simp only [perform, read]
    split
    · exact ⟨rfl, rfl, rfl, rfl, rfl⟩
    · split
      · rename_i hrows
        simp only [errorOf?, Memory.obey, perform, read, hrows]
        exact ⟨rfl, rfl, rfl, rfl, rfl⟩
      · rename_i hrows
        simp only [errorOf?, Memory.obey, perform, read, hrows]
        exact ⟨rfl, rfl, rfl, rfl, rfl⟩

/-- A course depends only on the failures of its own calls. -/
theorem serveUnder_congr {α : Type} {o o' : Outage} :
    ∀ {d : Course α} {made : Nat} {m : Memory}, (∀ i, made ≤ i → o i = o' i) →
      m.serveUnder o made d = m.serveUnder o' made d
  | .done _, _, _, _ => rfl
  | .ask (.publish _) next, made, m, h => serveUnder_congr (d := next ()) h
  | .ask (.call c) next, made, m, h => by
    rw [serveUnder, serveUnder, h made (Nat.le_refl _)]
    exact serveUnder_congr fun i hi => h i (Nat.le_of_succ_le hi)

/-- What a store is told beforehand to fail is an outage like any other. -/
theorem exists_outage {α : Type} :
    ∀ (d : Course α) {m m' : Memory} (made : Nat), Alike m m' →
      ∃ o, (m'.serveUnder o made d).1 = (m.serve d).1 ∧
        Alike (m.serve d).2 (m'.serveUnder o made d).2
  | .done _, _, _, _, h => ⟨fun _ => none, rfl, h⟩
  | .ask (.publish _) next, m, m', made, h => exists_outage (next ()) made h
  | .ask (.call c) next, m, m', made, h => by
    obtain ⟨hanswer, hafter⟩ := h.obey c
    obtain ⟨o, hresult, hlast⟩ := exists_outage (next (m.perform c).1) (made + 1) hafter
    -- the outage of the rest, with the failure of this call put before it
    let o' : Outage := fun i => if i = made then errorOf? (m.perform c).1 else o i
    have hnow : o' made = errorOf? (m.perform c).1 := if_pos rfl
    have hrest : ∀ i, made + 1 ≤ i → o' i = o i := fun i hi => if_neg (by omega)
    refine ⟨o', ?_⟩
    rw [serveUnder, hnow, hanswer, serveUnder_congr hrest]
    exact ⟨hresult, hlast⟩

end Memory

/-- What a store shows of a course that began at another: its calls and the share of its tenant, with
everything else as it was. -/
structure Progress.Shows (tenant : Tenant) (m₀ m : Memory) (p : Progress) : Prop where
  log : m.log = m₀.log ++ p.calls
  share : m.contents.share tenant = p.share
  nodesBeside : m.contents.nodesBeside tenant = m₀.contents.nodesBeside tenant
  edgesBeside : m.contents.edgesBeside tenant = m₀.contents.edgesBeside tenant

section Serving

variable {tenant : Tenant} {o : Outage} {m₀ m : Memory} {p : Progress} {α : Type}

/-- The share of a tenant after a call that is told whether it fails. -/
theorem Memory.share_obey {c : Call} (h : c.Concerns tenant)
    (hshare : m.contents.share tenant = p.share) (failure? : Option StoreError) :
    (m.obey c failure?).2.contents.share tenant = (p.call c failure?).share := by
  rw [m.contents_obey]
  cases failure? with
  | some e => rw [obey, Contents.after_error]; exact hshare
  | none =>
    obtain ⟨v, hv, -⟩ := m.answered_obey h none
    rw [hv, Contents.share_after_ok h, hshare]
    rfl

/-- What is shown is still shown after a call. -/
theorem Progress.Shows.call (hp : p.Shows tenant m₀ m) {c : Call} (h : c.Concerns tenant)
    (failure? : Option StoreError) :
    (p.call c failure?).Shows tenant m₀ (m.obey c failure?).2 where
  log := by rw [m.log_obey, hp.log, calls_call, List.append_assoc]
  share := Memory.share_obey h hp.share failure?
  nodesBeside := by rw [m.contents_obey, Contents.nodesBeside_after h, hp.nodesBeside]
  edgesBeside := by rw [m.contents_obey, Contents.edgesBeside_after h, hp.edgesBeside]

/-- A course that keeps its account ends as it should when it is carried out. -/
theorem Memory.serveUnder_obeys {post : Progress → α → Prop} :
    ∀ {d : Course α} {m : Memory} {p : Progress}, p.Shows tenant m₀ m →
      d.Obeys (account tenant o) post p →
      ∃ q, q.Shows tenant m₀ (m.serveUnder o p.calls.length d).2 ∧
        post q (m.serveUnder o p.calls.length d).1
  | .done _, _, p, hp, h => ⟨p, hp, h⟩
  | .ask (.publish s) next, m, p, hp, h => by
    have hp' : (p.publish s).Shows tenant m₀ m := ⟨hp.log, hp.share, hp.nodesBeside, hp.edgesBeside⟩
    exact serveUnder_obeys (d := next ()) (p := p.publish s) hp' (h.2 () trivial)
  | .ask (.call c) next, m, p, hp, h => by
    obtain ⟨hmay, hnext⟩ := h
    have hanswered : c.Answered p.share (m.obey c (p.failure? o)).1 (p.failure? o) := by
      rw [← hp.share]
      exact m.answered_obey hmay _
    obtain ⟨q, hq, hpost⟩ := serveUnder_obeys (hp.call hmay (p.failure? o)) (hnext _ hanswered)
    rw [Progress.calls_call, List.length_append] at hq hpost
    exact ⟨q, hq, hpost⟩

end Serving

end CodeGraph
