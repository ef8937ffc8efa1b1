import CodeGraph.Proofs.Job.Plan

/-!
# The outline of a pass

An outline says what holds at each stage of a pass that does not fail: before it clears, while it
writes nodes, and while it writes edges. If each call of the pass leads from one of these to the
next, then the pass only asks what it may, and ends with all edges written.

* `leads_writeChunks`: chunks that are written one after the other, of whatever size;
* `leads_writeNodes`, `leads_writeEdges`, `obeys_lookUpTracked`: the parts of a pass;
* `Plan.Outline`, `Plan.Outline.leads_pass`: the whole pass.
-/

namespace CodeGraph

open Dialogue

/-! ### Writing records -/

section Writing

variable {σ : Type} {p : Protocol Call Call.Answer σ} {sizes : Settings.Chunks}

/-- Chunks that are written one after the other, where `I` holds of the records before. -/
theorem leads_writeChunks {α : Type} {write : Nat → List α → Attempt PersistError Unit}
    {I : List α → σ → Prop} {l : List α}
    (hwrite : ∀ n front c s, front ++ c <+: l → I front s →
      Leads p (fun s _ => I (front ++ c) s) s (write n c)) :
    ∀ {chunks : List (List α)} {n : Nat} {front : List α} {s : σ},
      front ++ chunks.flatten = l → I front s →
        Leads p (fun s _ => I l s) s (writeChunks write n chunks)
  | [], n, front, s, h, hI => by
    rw [List.flatten_nil, List.append_nil] at h
    rw [writeChunks, leads_pure]
    rwa [← h]
  | c :: chunks, n, front, s, h, hI => by
    rw [List.flatten_cons, ← List.append_assoc] at h
    rw [writeChunks, leads_bind]
    apply (hwrite n front c s ⟨_, h⟩ hI).mono
    intro s _ hs
    exact leads_writeChunks hwrite h hs

theorem leads_writeNodes {records : List NodeRecord} {I : List NodeRecord → σ → Prop} {s : σ}
    (hwrite : ∀ front c s, front ++ c <+: records → I front s → p.may s (.createNodes c) ∧
      ∀ u, I (front ++ c) (p.next s (.createNodes c) (.ok u)))
    (h : I [] s) : Leads p (fun s _ => I records s) s (writeNodes sizes records) := by
  unfold writeNodes
  refine leads_writeChunks ?_ (by rw [flatten_chunksOf, List.nil_append]) h
  intro n front c s hfront hI
  obtain ⟨hmay, hnext⟩ := hwrite front c s hfront hI
  exact leads_attempt.2 ⟨hmay, fun u _ => hnext u⟩

theorem leads_writeEdges {tenant : Tenant} {records : List EdgeRecord}
    {I : List EdgeRecord → σ → Prop} {s : σ} (hkept : records.filter EdgeRecord.isStored = records)
    (hindex : p.may s .ensureIndex ∧ ∀ u, I [] (p.next s .ensureIndex (.ok u)))
    (hwrite : ∀ front c s, front ++ c <+: records → I front s → p.may s (.createEdges tenant c) ∧
      ∀ u, I (front ++ c) (p.next s (.createEdges tenant c) (.ok u))) :
    Leads p (fun s n => I records s ∧ n = records.length) s
      (writeEdges sizes tenant records) := by
  unfold writeEdges
  -- what is collected has passed the filter before
  simp only [hkept]
  refine leads_bind.2 (leads_attempt.2 ⟨hindex.1, fun u _ => ?_⟩)
  rw [leads_bind]
  have hchunks : Leads p (fun s _ => I records s) (p.next s .ensureIndex (.ok u))
      (writeChunks (writeEdgeChunk tenant) 0 (chunksOf sizes.edges records)) := by
    refine leads_writeChunks ?_ (by rw [flatten_chunksOf, List.nil_append]) (hindex.2 u)
    intro n front c s hfront hI
    obtain ⟨hmay, hnext⟩ := hwrite front c s hfront hI
    exact leads_attempt.2 ⟨hmay, fun u _ => hnext u⟩
  apply hchunks.mono
  intro s _ hs
  exact leads_pure.2 ⟨hs, rfl⟩

end Writing

/-! ### Reading -/

section Reading

variable {σ α β ε : Type}

/-- What is made of the result of an attempt asks nothing. -/
theorem obeys_run_bind_pure {Q : Type} {A : Q → Type} {p : Protocol Q A σ} {P : σ → Prop}
    {x : ExceptT ε (Dialogue Q A) α} (f : α → β) {s : σ} (h : x.run.Obeys p (fun s _ => P s) s) :
    (x >>= fun a => pure (f a)).run.Obeys p (fun s _ => P s) s := by
  rw [ExceptT.run_bind, obeys_bind]
  apply h.mono
  rintro s (e | a) hs
  · exact hs
  · exact hs

/-- The tracked variables are looked up by reading. -/
theorem obeys_lookUpTracked {p : Protocol Step Step.Answer σ} {settings : Settings}
    {tenant : Tenant} {P : σ → Prop} {s : σ} (h : P s)
    (hread : ∀ query limit, p.may s (.call (.read tenant query limit)) ∧
      ∀ a, P (p.next s (.call (.read tenant query limit)) a)) :
    (lookUpTracked settings tenant).Obeys p (fun s _ => P s) s := by
  have hexecute : ∀ limit query,
      (Gateway.execute limit tenant query).run.Obeys p.calls (fun s _ => P s) s := by
    intro limit query
    unfold Gateway.execute
    cases Gateway.accept limit query with
    | error refusal => exact h
    | ok query =>
      obtain ⟨hmay, hnext⟩ := hread query (Gateway.rowCount limit)
      exact ⟨hmay, fun a _ => hnext a⟩
  unfold lookUpTracked Gateway.trackedVariables Gateway.draw
  rw [obeys_bind, obeys_inCourse]
  apply (obeys_run_bind_pure _ (obeys_run_bind_pure _ (hexecute _ _))).mono
  rintro s (e | names) hs
  · exact hs
  · exact hs

end Reading

/-! ### The whole pass -/

namespace Plan

variable {σ : Type} {P : Plan} {q : Protocol Step Step.Answer σ}

/-- What holds at the stages of a pass that does not fail, where it cleared some number of nodes. -/
structure Outline (P : Plan) (q : Protocol Step Step.Answer σ) where
  /-- Before it clears. -/
  begun : σ → Prop
  /-- While it writes nodes, of which some are written. -/
  writing : Nat → List NodeRecord → σ → Prop
  /-- While it writes edges, of which some are written. -/
  linking : Nat → List EdgeRecord → σ → Prop
  publish : ∀ s status, q.may s (.publish status) ∧ ∀ u, q.next s (.publish status) u = s
  read : ∀ s query limit, q.may s (.call (.read P.tenant query limit)) ∧
    ∀ a, q.next s (.call (.read P.tenant query limit)) a = s
  clear : ∀ s, begun s → q.may s (.call (.clear P.tenant)) ∧
    ∀ n : Nat, q.gives s (.call (.clear P.tenant)) (.ok n) →
      writing n [] (q.next s (.call (.clear P.tenant)) (.ok n))
  write : ∀ n front c s, front ++ c <+: P.records → writing n front s →
    q.may s (.call (.createNodes c)) ∧
      ∀ u, writing n (front ++ c) (q.next s (.call (.createNodes c)) (.ok u))
  index : ∀ n s, writing n P.records s → q.may s (.call .ensureIndex) ∧
    ∀ u, linking n [] (q.next s (.call .ensureIndex) (.ok u))
  link : ∀ n front c s, front ++ c <+: P.edges → linking n front s →
    q.may s (.call (.createEdges P.tenant c)) ∧
      ∀ u, linking n (front ++ c) (q.next s (.call (.createEdges P.tenant c)) (.ok u))

/-- What a pass reports that does not fail: all nodes and all collected edges are written. -/
def Reports (P : Plan) (r : Summary) : Prop :=
  r.toTally = P.tally P.edges.length

namespace Outline

variable {s : σ}

theorem leads_publish (o : P.Outline q) (status : Status) {post : σ → Unit → Prop} (h : post s ()) :
    Leads q post s (liftM (CodeGraph.publish status) : ExceptT PassError Course Unit) := by
  refine leads_lift.2 ⟨(o.publish s status).1, fun u _ => ?_⟩
  show post (q.next s (.publish status) u) ()
  rw [(o.publish s status).2]
  exact h

/-- A pass follows its outline to the end. -/
theorem leads_pass (o : P.Outline q) (h : o.begun s) :
    Leads q (fun s r => o.linking r.nodesCleared P.edges s ∧ P.Reports r) s
      (pass P.settings P.draw P.tenant P.graph) := by
  unfold pass
  rw [leads_bind]
  apply o.leads_publish
  rw [leads_bind, leads_phase]
  obtain ⟨hmay, hclear⟩ := o.clear s h
  refine leads_attempt.2 ⟨hmay, fun cleared hgives => ?_⟩
  rw [leads_bind]
  apply o.leads_publish
  rw [leads_bind, leads_phase]
  apply (leads_writeNodes (o.write cleared) (hclear cleared hgives)).mono
  intro s _ hnodes
  rw [leads_bind]
  apply o.leads_publish
  rw [leads_bind, leads_phase]
  apply (leads_writeEdges (Graph.filter_isStored_collect ..) (o.index cleared s hnodes)
    (o.link cleared)).mono
  rintro s written ⟨hedges, rfl⟩
  rw [leads_bind, leads_lift]
  have hread : ∀ query limit, q.may s (.call (.read P.tenant query limit)) ∧
      ∀ a, o.linking cleared P.edges (q.next s (.call (.read P.tenant query limit)) a) := by
    intro query limit
    refine ⟨(o.read s query limit).1, fun a => ?_⟩
    rw [(o.read s query limit).2]
    exact hedges
  apply (obeys_lookUpTracked hedges hread).mono
  intro s tracked hs
  rw [leads_bind]
  apply o.leads_publish
  rw [leads_pure]
  exact ⟨hs, rfl⟩

end Outline

end Plan

end CodeGraph
