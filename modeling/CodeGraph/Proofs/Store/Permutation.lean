import CodeGraph.Proofs.Program.Permutation
import CodeGraph.Proofs.Program.Validity
import CodeGraph.Proofs.Store.Collection
import Mathlib.Logic.Equiv.Basic

/-!
# Storing a graph whose slots are permuted

What is stored of a graph does not depend on the places of its nodes: a node is stored in the same way
wherever it stands, and the same edges are stored, in another order.

* `Graph.row?`: the record that is stored for a slot;
* `NodeRecord.SameButId`: the same record of another identity;
* `Graph.Permuted.perm_map_slots`: what is listed slot by slot is listed in another order;
* `Graph.Permuted.lookup_taggings`, `Graph.Permuted.displayName`, `Graph.Permuted.row?`: one node;
* `Graph.Permuted.perm_heldEdges`, `Graph.Permuted.collect`: all edges;
* `Graph.Permuted.prepare_collect`: all of it.
-/

namespace CodeGraph

namespace Graph

variable {β : Type}

/-- What is listed slot by slot is listed in the order of the slots. -/
theorem map_slots (g : Graph) (f : Slot → Node → β) :
    g.slots.map (fun p => f p.1 p.2) =
      (List.range g.size).filterMap fun s => (g.node? s).map (f s) := by
  have hnode : ∀ p ∈ g.slots, some (f p.1 p.2) = (g.node? p.1).map (f p.1) := by
    rintro ⟨s, n⟩ hp
    rw [mem_slots.1 hp]
    rfl
  rw [← map_fst_slots, List.filterMap_map, ← List.filterMap_eq_map]
  exact List.filterMap_congr hnode

/-- The record that is stored for a slot. -/
def row? (g : Graph) (draw : Slot → Identity) (tenant : Tenant) (s : Slot) : Option NodeRecord :=
  ((g.storedSlots.map Prod.fst).zip (g.prepare draw tenant).records).lookup s

variable {g : Graph} {draw : Slot → Identity} {tenant : Tenant} {s : Slot} {r : NodeRecord}

theorem mem_rows : (s, r) ∈ (g.storedSlots.map Prod.fst).zip (g.prepare draw tenant).records ↔
    ∃ n, g.node? s = some n ∧ n.isStored ∧
      g.nodeRecord tenant (draw s) (g.taggings.lookup s) n = r := by
  simp only [records_prepare, List.zip_map', List.mem_map, Prod.exists, mem_storedSlots, Prod.mk.injEq]
  constructor
  · rintro ⟨s, n, ⟨hn, hstored⟩, rfl, rfl⟩
    exact ⟨n, hn, hstored, rfl⟩
  · rintro ⟨n, hn, hstored, rfl⟩
    exact ⟨s, n, ⟨hn, hstored⟩, rfl, rfl⟩

/-- The record of a slot is that of its node, if it is stored. -/
theorem row?_eq (g : Graph) (draw : Slot → Identity) (tenant : Tenant) (s : Slot) :
    g.row? draw tenant s = ((g.node? s).filter Node.isStored).map
      (g.nodeRecord tenant (draw s) (g.taggings.lookup s)) := by
  have hunique : ∀ r r', (s, r) ∈ (g.storedSlots.map Prod.fst).zip (g.prepare draw tenant).records →
      (s, r') ∈ (g.storedSlots.map Prod.fst).zip (g.prepare draw tenant).records → r = r' := by
    intro r r' hr hr'
    obtain ⟨n, hn, -, rfl⟩ := mem_rows.1 hr
    obtain ⟨n', hn', -, rfl⟩ := mem_rows.1 hr'
    rw [Option.some.inj (hn.symm.trans hn')]
  refine Option.ext fun r => ?_
  simp only [row?, lookup_eq_some_iff_mem hunique, mem_rows, Option.map_eq_some_iff,
    Option.filter_eq_some_iff, and_assoc]

end Graph

/-- Whether two records differ in their identity at most. -/
structure NodeRecord.SameButId (r r' : NodeRecord) : Prop where
  labels : r'.labels = r.labels
  properties : ∀ key, key ≠ idKey → r'.properties.get? key = r.properties.get? key

theorem Graph.sameButId_nodeRecord (g : Graph) (tenant : Tenant) (id id' : Identity)
    (tag? : Option Tag) (n : Node) :
    (g.nodeRecord tenant id tag? n).SameButId (g.nodeRecord tenant id' tag? n) where
  labels := rfl
  properties key hkey := by
    simp only [nodeRecord, storedProperties, Dict.get?_insert, if_neg hkey]

/-- An edge whose ends have other names. -/
def HeldEdge.rename (f : Slot → Slot) (e : HeldEdge) : HeldEdge :=
  { e with source := f e.source, target := f e.target }

theorem Node.Renamed.heldEdges {f : Slot → Slot} {n n' : Node} (h : n.Renamed f n') (s : Slot) :
    n'.heldEdges (f s) = (n.heldEdges s).map (HeldEdge.rename f) := by
  have hunder : n'.edgesUnder (f s) = fun r => (n.edgesUnder s r).map (HeldEdge.rename f) := by
    funext r
    unfold Node.edgesUnder
    rcases eq_none_or_exists_of_rel (h.relationships r.name) with ⟨h₁, h₂⟩ | ⟨ts, ts', h₁, h₂, hts⟩
    · rw [h₁, h₂]
      rfl
    · rw [h₁, h₂]
      simp only [hts.ends, List.map_map]
      rfl
  rw [Node.heldEdges, Node.heldEdges, h.kind, hunder, List.map_flatMap]

theorem Node.Renamed.isStored {f : Slot → Slot} {n n' : Node} (h : n.Renamed f n') :
    n'.isStored = n.isStored := by
  rw [Node.isStored, h.kind, ← Node.isStored]

namespace Graph.Permuted

variable {π : Equiv.Perm Slot} {g g' : Graph} {draw draw' : Slot → Identity} {tenant : Tenant}
variable {n n' : Node} {s : Slot} {β : Type}

/-! ### Slots -/

theorem lt_size_iff (h : g.Permuted π g') : π s < g'.size ↔ s < g.size := by
  rcases h.node_cases s with ⟨h₁, h₂⟩ | ⟨n, n', h₁, h₂, -⟩
  · exact iff_of_false (Nat.not_lt.2 (Array.getElem?_eq_none_iff.1 h₂))
      (Nat.not_lt.2 (Array.getElem?_eq_none_iff.1 h₁))
  · exact iff_of_true (lt_size_of_node? h₂) (lt_size_of_node? h₁)

theorem perm_range (h : g.Permuted π g') :
    ((List.range g.size).map π).Perm (List.range g'.size) := by
  refine (List.perm_ext_iff_of_nodup (List.nodup_range.map π.injective) List.nodup_range).2 ?_
  intro t
  rw [List.mem_map, List.mem_range, ← π.apply_symm_apply t, h.lt_size_iff]
  constructor
  · rintro ⟨s, hs, hst⟩
    rwa [← π.injective hst, ← List.mem_range]
  · intro ht
    exact ⟨π.symm t, List.mem_range.2 ht, rfl⟩

/-- What is listed slot by slot is listed in another order. -/
theorem perm_map_slots (h : g.Permuted π g') {f k : Slot → Node → β}
    (hf : ∀ s n n', n.Renamed π n' → k (π s) n' = f s n) :
    (g'.slots.map fun p => k p.1 p.2).Perm (g.slots.map fun p => f p.1 p.2) := by
  have hnode : ∀ s, (g'.node? (π s)).map (k (π s)) = (g.node? s).map (f s) := by
    intro s
    rcases h.node_cases s with ⟨h₁, h₂⟩ | ⟨n, n', h₁, h₂, hn⟩
    · rw [h₁, h₂]
      rfl
    · rw [h₁, h₂, Option.map_some, Option.map_some, hf s n n' hn]
  have hlist : ((List.range g.size).map π).filterMap (fun s => (g'.node? s).map (k s)) =
      (List.range g.size).filterMap fun s => (g.node? s).map (f s) := by
    rw [List.filterMap_map]
    exact List.filterMap_congr fun s _ => hnode s
  rw [map_slots, map_slots, ← hlist]
  exact h.perm_range.symm.filterMap _

/-! ### Nodes -/

theorem lookup_taggings (h : g.Permuted π g') (s : Slot) :
    g'.taggings.lookup (π s) = g.taggings.lookup s :=
  Option.ext fun t => by rw [Graph.lookup_taggings, Graph.lookup_taggings, h.earns_iff]

theorem scopedName? (h : g.Permuted π g') (hn : n.Renamed π n') :
    g'.scopedName? n' = g.scopedName? n := by
  unfold Graph.scopedName?
  rw [hn.targets, List.head?_map]
  cases (n.targets "AST_NODE").head? with
  | none => rfl
  | some owner =>
    show (g'.node? (π owner)).bind Node.localName? = (g.node? owner).bind Node.localName?
    rcases h.node_cases owner with ⟨h₁, h₂⟩ | ⟨m, m', h₁, h₂, hm⟩
    · rw [h₁, h₂]
    · rw [h₁, h₂, Option.bind_some, Option.bind_some, hm.localName?]

theorem displayName (h : g.Permuted π g') (hn : n.Renamed π n') :
    g'.displayName n' = g.displayName n := by
  unfold Graph.displayName
  rw [hn.kind, hn.name?, hn.path, h.scopedName? hn]

/-- A node gets the same record in any place, if it keeps its identity. -/
theorem nodeRecord (h : g.Permuted π g') (hn : n.Renamed π n') (id : Identity)
    (tag? : Option Tag) : g'.nodeRecord tenant id tag? n' = g.nodeRecord tenant id tag? n := by
  unfold Graph.nodeRecord Graph.storedProperties
  rw [h.displayName hn, hn.properties, Node.labels, hn.kind, ← Node.labels]

/-- A node gets the same record in any place, but for its identity. -/
theorem row? (h : g.Permuted π g') (draw draw' : Slot → Identity) (tenant : Tenant) (s : Slot) :
    Option.Rel NodeRecord.SameButId (g.row? draw tenant s) (g'.row? draw' tenant (π s)) := by
  rw [row?_eq, row?_eq, h.lookup_taggings]
  rcases h.node_cases s with ⟨h₁, h₂⟩ | ⟨n, n', h₁, h₂, hn⟩
  · rw [h₁, h₂]
    exact .none
  · rw [h₁, h₂, Option.filter_some, Option.filter_some, hn.isStored]
    by_cases hstored : n.isStored
    · rw [if_pos hstored, if_pos hstored]
      refine .some ?_
      rw [h.nodeRecord hn]
      exact g.sameButId_nodeRecord ..
    · rw [if_neg hstored, if_neg hstored]
      exact .none

theorem filtered (h : g.Permuted π g') :
    (g'.prepare draw' tenant).filtered = (g.prepare draw tenant).filtered := by
  have hperm := h.perm_map_slots (f := fun _ n => !n.isStored) (k := fun _ n => !n.isStored)
    fun s n n' hn => by rw [hn.isStored]
  have hcount := hperm.countP_eq id
  rw [List.countP_map, List.countP_map] at hcount
  rw [filtered_prepare, filtered_prepare]
  exact hcount

/-- The records are the same in another order, if the identities are moved with the nodes. -/
theorem perm_records (h : g.Permuted π g') (hdraw : ∀ s, draw' (π s) = draw s) :
    (g'.prepare draw' tenant).records.Perm (g.prepare draw tenant).records := by
  have hrecords : ∀ (g : Graph) (draw : Slot → Identity), (g.prepare draw tenant).records =
      (g.slots.map fun p => if p.2.isStored then
        some (g.nodeRecord tenant (draw p.1) (g.taggings.lookup p.1) p.2) else none).filterMap id := by
    intro g draw
    rw [records_prepare, List.filterMap_map, Function.id_comp, ← List.filterMap_filter]
    exact (congrFun List.filterMap_eq_map _).symm
  have hperm := h.perm_map_slots
    (f := fun s n => if n.isStored then
      some (g.nodeRecord tenant (draw s) (g.taggings.lookup s) n) else none)
    (k := fun s n => if n.isStored then
      some (g'.nodeRecord tenant (draw' s) (g'.taggings.lookup s) n) else none)
    fun s n n' hn => by rw [hn.isStored, hdraw, h.lookup_taggings, h.nodeRecord hn]
  rw [hrecords, hrecords]
  exact hperm.filterMap id

theorem get?_ids (h : g.Permuted π g') (hdraw : ∀ s, draw' (π s) = draw s) (s : Slot) :
    (g'.prepare draw' tenant).ids.get? (π s) = (g.prepare draw tenant).ids.get? s := by
  have hstored : g'.IsStored (π s) ↔ g.IsStored s := by
    rcases h.node_cases s with ⟨h₁, h₂⟩ | ⟨n, n', h₁, h₂, hn⟩
    · simp [IsStored, h₁, h₂]
    · simp [IsStored, h₁, h₂, hn.isStored]
  refine Option.ext fun id => ?_
  rw [ids_prepare, ids_prepare, get?_identities, get?_identities, hstored, hdraw]

/-! ### Edges -/

/-- The edges are the same in another order, but for their names. -/
theorem perm_heldEdges (h : g.Permuted π g') :
    g'.heldEdges.Perm (g.heldEdges.map (HeldEdge.rename π)) := by
  have hperm := h.perm_map_slots (f := fun s n => (n.heldEdges s).map (HeldEdge.rename π))
    (k := fun s n => n.heldEdges s) fun s n n' hn => hn.heldEdges s
  have hflatten := hperm.flatten
  rw [← List.flatMap_def, ← List.flatMap_def, ← List.map_flatMap] at hflatten
  exact hflatten

/-- What becomes of the edges does not depend on the places of the nodes. -/
theorem collect (h : g.Permuted π g') {ids ids' : IdMap} (hids : ∀ s, ids'.get? (π s) = ids.get? s) :
    (g'.collect ids').records.toList.Perm (g.collect ids).records.toList ∧
      (g'.collect ids').unresolved = (g.collect ids).unresolved ∧
      (g'.collect ids').filtered = (g.collect ids).filtered := by
  have hrecord : ∀ e : HeldEdge, (e.rename π).record? ids' = e.record? ids := by
    intro e
    simp only [HeldEdge.record?, HeldEdge.rename, hids]
  have hkept : HeldEdge.kept? ids' ∘ HeldEdge.rename π = HeldEdge.kept? ids := by
    funext e
    rw [Function.comp_apply, HeldEdge.kept?, hrecord]
    rfl
  rw [collect_eq, collect_eq]
  refine ⟨?_, ?_, ?_⟩
  · have hperm := h.perm_heldEdges.filterMap (HeldEdge.kept? ids')
    rwa [List.filterMap_map, hkept] at hperm
  · have hcount := h.perm_heldEdges.countP_eq fun e => e.isStored && (e.record? ids').isNone
    rw [List.countP_map] at hcount
    simp only [Function.comp_def, hrecord] at hcount
    exact hcount
  · have hcount := h.perm_heldEdges.countP_eq fun e => !e.isStored
    rw [List.countP_map] at hcount
    exact hcount

/-- **It does not matter where nodes stand.** When the slots of a graph are permuted, each node keeps
its tag and its record, but for its identity, and the same number of nodes is left out. With identities
that are moved with the nodes, the same records of nodes and edges are stored in another order, and the
same numbers of edges are left out. -/
theorem prepare_collect (h : g.Permuted π g') (draw draw' : Slot → Identity) (tenant : Tenant) :
    (∀ s t, (π s, t) ∈ (g'.prepare draw' tenant).tags ↔ (s, t) ∈ (g.prepare draw tenant).tags) ∧
      (∀ s, Option.Rel NodeRecord.SameButId (g.row? draw tenant s) (g'.row? draw' tenant (π s))) ∧
      (g'.prepare draw' tenant).filtered = (g.prepare draw tenant).filtered ∧
      ((∀ s, draw' (π s) = draw s) →
        (g'.prepare draw' tenant).records.Perm (g.prepare draw tenant).records ∧
          ∀ s, (g'.prepare draw' tenant).ids.get? (π s) = (g.prepare draw tenant).ids.get? s) ∧
      ∀ ids ids' : IdMap, (∀ s, ids'.get? (π s) = ids.get? s) →
        (g'.collect ids').records.toList.Perm (g.collect ids).records.toList ∧
          (g'.collect ids').unresolved = (g.collect ids).unresolved ∧
          (g'.collect ids').filtered = (g.collect ids).filtered := by
  refine ⟨fun s t => ?_, h.row? draw draw' tenant, h.filtered, fun hdraw => ?_,
    fun ids ids' => h.collect⟩
  · rw [mem_tags, mem_tags, h.earns_iff]
  · exact ⟨h.perm_records hdraw, h.get?_ids hdraw⟩

end Graph.Permuted

/-! ### Two places exchanged -/

/-- The places of the function and of the variable are exchanged. -/
def Graph.exchange : Equiv.Perm Slot := Equiv.swap 0 4

theorem Graph.permuted_traced : traced.Permuted exchange (traced.permute exchange) := by
  have hvalid : traced.Valid := defect?_eq_none_iff.1 (by decide +kernel)
  refine permuted_permute hvalid (fun s => ?_) (by decide)
  rw [exchange, Equiv.swap_apply_def]
  split
  · rename_i hs
    subst hs
    decide
  · split
    · rename_i hs
      subst hs
      decide
    · rfl

theorem Graph.Permuted.prepare_collect_traced :
    Graph.traced.Permuted Graph.exchange (Graph.traced.permute Graph.exchange) ∧
      (4, .trackedVariable) ∈ (Graph.traced.prepare .fresh "ours").tags ∧
      (0, .trackedVariable) ∈ ((Graph.traced.permute Graph.exchange).prepare .fresh "ours").tags := by
  have htags : (4, .trackedVariable) ∈ (Graph.traced.prepare .fresh "ours").tags :=
    mem_tags.2 Graph.earns_traced
  have hmoved := (prepare_collect Graph.permuted_traced .fresh .fresh "ours").1 4 .trackedVariable
  have hplace : Graph.exchange 4 = 0 := by decide
  rw [hplace] at hmoved
  exact ⟨Graph.permuted_traced, htags, hmoved.2 htags⟩

end CodeGraph
