import CodeGraph.Proofs.Job.Outline
import CodeGraph.Proofs.Job.World

/-!
# What passes write

A pass keeps to a discipline: it clears its tenant before it writes anything, writes its nodes in
order, and writes edges when all nodes are written. Where all passes do, what is stored can be
traced back to what each of them has written.

* `Plan.discipline`, `Plan.obeys_discipline`: the discipline, followed with the nodes that are
  written;
* `Contents.Intact`: identities are distinct, edges have ends, and nothing is stored that is not to
  be stored;
* `Traced`, `Traced.next`: what one step keeps true of the contents;
* `Traced.intact`: what can be traced back is intact;
* `Plan.mem_next_of_tenant_ne`, `Plan.mem_next_of_mem_next`: the nodes that a step leaves stored.
-/

namespace CodeGraph

open Dialogue

/-! ### The discipline of a pass -/

namespace Plan

variable (P : Plan)

/-- What a pass may do when it has written some nodes. -/
def may (written : List NodeRecord) : Step → Prop
  | .call (.clear tenant) => tenant = P.tenant ∧ written = []
  | .call (.createNodes records) => written ++ records <+: P.records
  | .call (.createEdges tenant records) =>
    tenant = P.tenant ∧ written = P.records ∧ ∀ e ∈ records, e ∈ P.edges
  | _ => True

/-- The nodes that are written after a step that is answered. -/
def next (written : List NodeRecord) : (q : Step) → q.Answer → List NodeRecord
  | .call (.createNodes records), .ok _ => written ++ records
  | _, _ => written

/-- The discipline of a pass, whatever it is answered. -/
def discipline : Protocol Step Step.Answer (List NodeRecord) :=
  ⟨P.may, fun _ _ _ => True, next⟩

/-- The stages of a pass, told by the nodes that are written. -/
def disciplined : P.Outline P.discipline where
  begun written := written = []
  writing _ front written := written = front
  linking _ front written := front <+: P.edges ∧ written = P.records
  publish _ _ := ⟨trivial, fun _ => rfl⟩
  read _ _ _ := ⟨trivial, fun _ => rfl⟩
  clear := by
    rintro written rfl
    exact ⟨⟨rfl, rfl⟩, fun _ _ => rfl⟩
  write := by
    rintro _ front c written hfront rfl
    exact ⟨hfront, fun _ => rfl⟩
  index := by
    rintro _ written rfl
    exact ⟨trivial, fun _ => ⟨List.nil_prefix, rfl⟩⟩
  link := by
    rintro _ front c written hfront ⟨-, rfl⟩
    refine ⟨⟨rfl, rfl, fun e he => ?_⟩, fun _ => ⟨hfront, rfl⟩⟩
    exact hfront.subset (List.mem_append_right _ he)

/-- A pass keeps to its discipline from beginning to end. -/
theorem obeys_discipline : P.course.Obeys P.discipline (fun _ _ => True) [] :=
  Obeys.mono (fun _ _ _ => trivial) (P.disciplined.leads_pass rfl)

end Plan

/-! ### Intact contents -/

namespace Contents

/-- Whether a node of a tenant carries an identity. -/
def Has (s : Contents) (tenant : Tenant) (id : Identity) : Prop :=
  ∃ r ∈ s.nodesOf tenant, r.id? = some id.text

theorem has_iff {s : Contents} {tenant : Tenant} {id : Identity} :
    s.Has tenant id ↔ ∃ r ∈ s.nodes, r.tenant? = some tenant ∧ r.id? = some id.text := by
  unfold Has nodesOf
  simp only [List.mem_filter, Memory.belongs, beq_iff_eq, and_assoc]

/-- A tenant that keeps its nodes keeps its identities. -/
theorem Has.mono {s s' : Contents} {tenant : Tenant} {id : Identity} (h : s.Has tenant id)
    (hsub : ∀ r ∈ s.nodes, r.tenant? = some tenant → r ∈ s'.nodes) : s'.Has tenant id := by
  obtain ⟨r, hr, ht, hid⟩ := has_iff.1 h
  exact has_iff.2 ⟨r, hsub r hr ht, ht, hid⟩

/-- Contents in which all references hold, and in which nothing is that is not to be stored. -/
structure Intact (s : Contents) : Prop where
  /-- Every node carries an identity. -/
  identified : ∀ r ∈ s.nodes, r.id?.isSome
  /-- No two nodes carry the same. -/
  distinct : (s.nodes.map NodeRecord.id?).Nodup
  /-- An edge of a tenant begins and ends at nodes of that tenant. -/
  ends : ∀ tenant e, (tenant, e) ∈ s.edges → s.Has tenant e.source ∧ s.Has tenant e.target
  /-- No edge is of a kind that is never stored. -/
  names : ∀ tenant e, (tenant, e) ∈ s.edges → e.name ∉ unstoredRelationships
  /-- No node is of unknown type. -/
  labels : ∀ r ∈ s.nodes, r.hasLabel Kind.unknownType.name = false

end Contents

/-! ### Tracing what is stored -/

variable {ι : Type} {plan : ι → Plan} {written : ι → List NodeRecord} {s : Contents}

/-- Contents that can be traced back to what passes have written: each the first nodes of its plan,
in order. -/
structure Traced (plan : ι → Plan) (written : ι → List NodeRecord) (s : Contents) : Prop where
  front : ∀ i, written i <+: (plan i).records
  rows : ∀ r ∈ s.nodes, ∃ i, r ∈ written i
  distinct : (s.nodes.map NodeRecord.id?).Nodup
  ends : ∀ tenant e, (tenant, e) ∈ s.edges → s.Has tenant e.source ∧ s.Has tenant e.target
  names : ∀ tenant e, (tenant, e) ∈ s.edges → e.isStored

namespace Traced

theorem intact (h : Traced plan written s) : s.Intact where
  identified r hr := by
    obtain ⟨i, hi⟩ := h.rows r hr
    obtain ⟨t, -, ht⟩ := Plan.exists_slot_of_mem ((h.front i).subset hi)
    rw [ht]
    rfl
  distinct := h.distinct
  ends := h.ends
  names tenant e he := by simpa [EdgeRecord.isStored] using h.names tenant e he
  labels r hr := by
    obtain ⟨i, hi⟩ := h.rows r hr
    exact Plan.hasLabel_of_mem ((h.front i).subset hi)

/-- Clearing a tenant deletes nodes and edges together. -/
theorem clear (h : Traced plan written s) (tenant : Tenant) :
    Traced plan written ⟨s.nodesBeside tenant, s.edgesBeside tenant⟩ where
  front := h.front
  rows r hr := h.rows r (List.mem_filter.1 hr).1
  distinct := (List.filter_sublist.map _).nodup h.distinct
  ends t e he := by
    obtain ⟨hmem, hne⟩ := List.mem_filter.1 he
    have hkeep : ∀ r ∈ s.nodes, r.tenant? = some t → r ∈ s.nodesBeside tenant := by
      intro r hr ht
      refine List.mem_filter.2 ⟨hr, ?_⟩
      simpa [Memory.belongs, ht] using hne
    obtain ⟨hsource, htarget⟩ := h.ends t e hmem
    exact ⟨hsource.mono hkeep, htarget.mono hkeep⟩
  names t e he := h.names t e (List.mem_filter.1 he).1

/-- A pass writes edges when all its nodes are stored. -/
theorem createEdges (h : Traced plan written s) {i : ι} {records : List EdgeRecord}
    (hall : written i = (plan i).records) (hedges : ∀ e ∈ records, e ∈ (plan i).edges)
    (hkept : ∀ r ∈ written i, r ∈ s.nodes) :
    Traced plan written
      { s with edges := s.edges ++ records.map ((plan i).tenant, ·) } where
  front := h.front
  rows := h.rows
  distinct := h.distinct
  ends t e he := by
    rcases List.mem_append.1 he with he | he
    · exact h.ends t e he
    · obtain ⟨e, hmem, ⟨⟩⟩ := List.mem_map.1 he
      have hhas : ∀ {slot id}, (plan i).prepared.ids.get? slot = some id →
          s.Has (plan i).tenant id := by
        intro slot id hid
        obtain ⟨r, hr, hrid⟩ := Plan.exists_row hid
        exact Contents.has_iff.2 ⟨r, hkept r (hall ▸ hr), Plan.tenant?_of_mem hr, hrid⟩
      obtain ⟨_, _, hsource, htarget⟩ := Graph.ends_of_mem_collect (hedges e hmem)
      exact ⟨hhas hsource, hhas htarget⟩
  names t e he := by
    rcases List.mem_append.1 he with he | he
    · exact h.names t e he
    · obtain ⟨e, hmem, ⟨⟩⟩ := List.mem_map.1 he
      exact Graph.isStored_of_mem_collect (hedges e hmem)

variable [DecidableEq ι]

/-- A pass writes nodes that nobody has written. -/
theorem createNodes (hdraw : NeverRepeats plan) (h : Traced plan written s) {i : ι}
    {records : List NodeRecord} (hfront : written i ++ records <+: (plan i).records) :
    Traced plan (Function.update written i (written i ++ records))
      { s with nodes := s.nodes ++ records } where
  front j := by
    by_cases hj : j = i
    · subst hj
      rwa [Function.update_self]
    · rw [Function.update_of_ne hj]
      exact h.front j
  rows r hr := by
    rcases List.mem_append.1 hr with hr | hr
    · obtain ⟨j, hj⟩ := h.rows r hr
      by_cases hji : j = i
      · subst hji
        exact ⟨j, by rw [Function.update_self]; exact List.mem_append_left _ hj⟩
      · exact ⟨j, by rwa [Function.update_of_ne hji]⟩
    · exact ⟨i, by rw [Function.update_self]; exact List.mem_append_right _ hr⟩
  distinct := by
    have hids : ((written i ++ records).map NodeRecord.id?).Nodup :=
      (hfront.sublist.map _).nodup (hdraw.nodup_ids i)
    rw [List.map_append, List.nodup_append'] at hids ⊢
    refine ⟨h.distinct, hids.2.1, ?_⟩
    -- a node with the identity of a new one would be an earlier node of the same pass
    intro id hold hnew
    obtain ⟨r, hr, rfl⟩ := List.mem_map.1 hold
    obtain ⟨r', hr', hid⟩ := List.mem_map.1 hnew
    obtain ⟨j, hj⟩ := h.rows r hr
    have hmem' : r' ∈ (plan i).records := hfront.subset (List.mem_append_right _ hr')
    have hji : j = i := hdraw.eq_of_id?_eq ((h.front j).subset hj) hmem' hid.symm
    subst hji
    exact hids.2.2 (List.mem_map_of_mem hj) hnew
  ends t e he := by
    have hkeep : ∀ r ∈ s.nodes, r.tenant? = some t → r ∈ s.nodes ++ records :=
      fun r hr _ => List.mem_append_left _ hr
    obtain ⟨hsource, htarget⟩ := h.ends t e he
    exact ⟨hsource.mono hkeep, htarget.mono hkeep⟩
  names := h.names

/-- What can be traced back still can after a step that a pass may do. -/
theorem next (hdraw : NeverRepeats plan) (h : Traced plan written s) {i : ι} {q : Step}
    (hmay : (plan i).may (written i) q) (hkept : ∀ r ∈ written i, r ∈ s.nodes) (a : q.Answer) :
    Traced plan (Function.update written i (Plan.next (written i) q a)) (Memory.next s q a) := by
  have hsame : Traced plan (Function.update written i (written i)) s := by
    rwa [Function.update_eq_self]
  cases q with
  | publish status => exact hsame
  | call c =>
    cases a with
    | error e => cases c <;> exact hsame
    | ok v =>
      cases c with
      | createNodes records => exact h.createNodes hdraw hmay
      | createEdges tenant records =>
        obtain ⟨rfl, hall, hedges⟩ := hmay
        have hlinked := h.createEdges hall hedges hkept
        rwa [← Function.update_eq_self i written] at hlinked
      | clear tenant =>
        have hcleared := h.clear tenant
        rwa [← Function.update_eq_self i written] at hcleared
      | ensureIndex => exact hsame
      | read tenant query limit => exact hsame

end Traced

/-! ### What stays stored -/

namespace Plan

variable {P : Plan} {q : Step}

/-- A step of a pass leaves the nodes of other tenants where they are. -/
theorem mem_next_of_tenant_ne {front : List NodeRecord} (hmay : P.may front q) {r : NodeRecord}
    (hr : r ∈ s.nodes) (ht : r.tenant? ≠ some P.tenant) (a : q.Answer) :
    r ∈ (Memory.next s q a).nodes := by
  cases q with
  | publish status => exact hr
  | call c =>
    apply Contents.mem_nodes_after hr
    rintro tenant rfl
    obtain ⟨rfl, -⟩ := hmay
    simpa [Memory.belongs] using ht

/-- What a pass has written is stored after its next step if it was before. -/
theorem mem_next_of_mem_next {front : List NodeRecord} (hmay : P.may front q)
    (hkept : ∀ r ∈ front, r ∈ s.nodes) (a : q.Answer) :
    ∀ r ∈ Plan.next front q a, r ∈ (Memory.next s q a).nodes := by
  cases q with
  | publish status => exact hkept
  | call c =>
    cases a with
    | error e => cases c <;> exact hkept
    | ok v =>
      cases c with
      | createNodes records =>
        intro r hr
        rcases List.mem_append.1 hr with hr | hr
        · exact List.mem_append_left _ (hkept r hr)
        · exact List.mem_append_right _ hr
      | clear tenant =>
        -- nothing is written before the tenant is cleared
        obtain ⟨-, rfl⟩ := hmay
        rintro r ⟨⟩
      | createEdges tenant records => exact hkept
      | ensureIndex => exact hkept
      | read tenant query limit => exact hkept

end Plan

end CodeGraph
