import CodeGraph.Proofs.Store.Identity
import CodeGraph.Store.Preparation

/-!
# What is prepared for the store

The nodes of a graph that are stored are found by their slots. Each of them gets an identity and a
record that carries it.

* `Graph.identities`: the identities that the stored slots get;
* `Prepared.Draft.foldl_add`, `Graph.prepare_eq`: what is prepared, with no fold;
* `Graph.IsStored`, `Graph.sorted_storedSlots`: the slots that are stored, and their order;
* `Graph.get?_identities`: a slot has an identity if and only if it is stored, and then it is the
  one that was drawn for it;
* `Graph.id?_nodeRecord`, `Graph.tenant?_nodeRecord`, `Graph.hasLabel_nodeRecord`: what a record
  says about its node;
* `Graph.mem_records`, `Graph.nodup_ids`: the records of a graph.
-/

namespace CodeGraph

theorem Identity.text_injective : Function.Injective Identity.text := by
  rintro ⟨_⟩ ⟨_⟩ rfl
  rfl

/-- The identities of the stored nodes of a graph. -/
def Graph.identities (draw : Slot → Identity) (g : Graph) : IdMap :=
  g.storedSlots.foldl (fun m (s, _) => m.assign s (draw s)) (.ofSize g.size)

/-- The four parts of a draft grow in step: nodes that are stored are assigned an identity, recorded
and, where tagged, listed in their order, and the others are counted. -/
theorem Prepared.Draft.foldl_add (g : Graph) (taggings : List (Slot × Tag)) (draw : Slot → Identity)
    (tenant : Tenant) (l : List (Slot × Node)) (d : Draft) :
    l.foldl (add g taggings draw tenant) d =
      let stored := l.filter fun (_, n) => n.isStored
      { ids := stored.foldl (fun m (s, _) => m.assign s (draw s)) d.ids
        records := d.records ++ stored.map fun (s, n) =>
          g.nodeRecord tenant (draw s) (taggings.lookup s) n
        filtered := d.filtered + l.countP fun (_, n) => !n.isStored
        tags := d.tags ++ stored.filterMap fun (s, _) =>
          (taggings.lookup s).map fun t => (s, t) } := by
  induction l generalizing d with
  | nil => simp
  | cons p l ih =>
    obtain ⟨s, n⟩ := p
    rw [List.foldl_cons, ih]
    by_cases h : n.isStored
    · cases ht : taggings.lookup s with
      | none => simp [add, h, ht]
      | some t => simp [add, h, ht]
    · simp [add, h, Nat.add_assoc, Nat.add_comm 1]

namespace Graph

variable {g : Graph} {draw : Slot → Identity} {tenant : Tenant}

/-- What is prepared of a graph is told by the slots that are stored. -/
theorem prepare_eq (g : Graph) (draw : Slot → Identity) (tenant : Tenant) :
    g.prepare draw tenant =
      { ids := g.identities draw
        records := g.storedSlots.map fun (s, n) =>
          g.nodeRecord tenant (draw s) (g.taggings.lookup s) n
        filtered := g.slots.countP fun (_, n) => !n.isStored
        tags := g.storedSlots.filterMap fun (s, _) =>
          (g.taggings.lookup s).map fun t => (s, t) } := by
  rw [prepare, Prepared.Draft.foldl_add]
  simp [identities, storedSlots]

theorem ids_prepare : (g.prepare draw tenant).ids = g.identities draw := by
  rw [prepare_eq]

theorem records_prepare : (g.prepare draw tenant).records = g.storedSlots.map fun p =>
    g.nodeRecord tenant (draw p.1) (g.taggings.lookup p.1) p.2 := by
  rw [prepare_eq]

theorem filtered_prepare :
    (g.prepare draw tenant).filtered = g.slots.countP fun p => !p.2.isStored := by
  rw [prepare_eq]

/-- Whether the node of a slot is stored. -/
def IsStored (g : Graph) (s : Slot) : Prop := ∃ n, g.node? s = some n ∧ n.isStored

theorem IsStored.lt_size {s : Slot} (h : g.IsStored s) : s < g.size := by
  obtain ⟨n, hn, -⟩ := h
  exact (Array.getElem?_eq_some_iff.1 hn).1

theorem mem_storedSlots {s : Slot} {n : Node} :
    (s, n) ∈ g.storedSlots ↔ g.node? s = some n ∧ n.isStored := by
  rw [storedSlots, List.mem_filter, mem_slots]

theorem mem_map_fst_storedSlots {s : Slot} : s ∈ g.storedSlots.map Prod.fst ↔ g.IsStored s := by
  simp only [List.mem_map, Prod.exists, exists_and_right, exists_eq_right, mem_storedSlots,
    IsStored]

theorem map_fst_slots (g : Graph) : g.slots.map Prod.fst = List.range g.size := by
  apply List.ext_getElem?
  intro i
  rw [slots, List.getElem?_map, List.getElem?_mapIdx, Option.map_map]
  by_cases hi : i < g.size
  · rw [List.getElem?_range hi, List.getElem?_eq_getElem hi]
    rfl
  · rw [List.getElem?_eq_none (by simpa [size] using hi), List.getElem?_eq_none (by simpa using hi)]
    rfl

theorem pairwise_slots (g : Graph) : g.slots.Pairwise fun x y => x.1 < y.1 := by
  rw [← List.pairwise_map (f := Prod.fst), map_fst_slots]
  exact List.pairwise_lt_range

/-- The slots that are stored are listed in order. -/
theorem sorted_storedSlots (g : Graph) : (g.storedSlots.map Prod.fst).Pairwise (· < ·) := by
  have hsub : (g.storedSlots.map Prod.fst).Sublist (g.slots.map Prod.fst) :=
    List.filter_sublist.map _
  rw [map_fst_slots] at hsub
  exact List.pairwise_lt_range.sublist hsub

theorem nodup_storedSlots (g : Graph) : (g.storedSlots.map Prod.fst).Nodup :=
  g.sorted_storedSlots.imp Nat.ne_of_lt

/-! ### Identities -/

theorem identities_eq_assignAll (g : Graph) (draw : Slot → Identity) : g.identities draw =
    (IdMap.ofSize g.size).assignAll (g.storedSlots.map fun p => (p.1, draw p.1)) := by
  rw [identities, IdMap.assignAll, List.foldl_map]

/-- The stored slots have the identities that were drawn for them, and no other slot has one. -/
theorem get?_identities (g : Graph) (draw : Slot → Identity) (s : Slot) (id : Identity) :
    (g.identities draw).get? s = some id ↔ g.IsStored s ∧ draw s = id := by
  -- a slot is never assigned another identity than the one that was drawn for it
  have hdrawn {id : Identity}
      (h : IdMap.IsLatest (g.storedSlots.map fun p => (p.1, draw p.1)) s id) :
      s ∈ g.storedSlots.map Prod.fst ∧ draw s = id := by
    obtain ⟨p, hp, heq⟩ := List.mem_map.1 h.mem
    cases heq
    exact ⟨List.mem_map_of_mem hp, rfl⟩
  rw [identities_eq_assignAll, IdMap.holds_assignAll, ← mem_map_fst_storedSlots]
  constructor
  · exact hdrawn
  · rintro ⟨hs, rfl⟩
    obtain ⟨id, hid⟩ := IdMap.exists_isLatest_iff.2 (by rwa [List.map_map] :
      s ∈ (g.storedSlots.map fun p => (p.1, draw p.1)).map Prod.fst)
    rwa [(hdrawn hid).2]

/-! ### Records -/

section Record

variable (g tenant) (id : Identity) (tag? : Option Tag) (n : Node)

theorem id?_nodeRecord : (g.nodeRecord tenant id tag? n).id? = some id.text := by
  simp [nodeRecord, NodeRecord.id?, storedProperties, Dict.get?_insert, idKey, tenantKey,
    Json.text?]

theorem tenant?_nodeRecord : (g.nodeRecord tenant id tag? n).tenant? = some tenant := by
  simp [nodeRecord, NodeRecord.tenant?, storedProperties, Dict.get?_insert, Json.text?]

theorem name_unknownType_not_mem_labels {k : Kind} (h : k ≠ .unknownType) :
    Kind.unknownType.name ∉ k.labels := by
  cases k <;> first | exact absurd rfl h | decide

theorem hasLabel_nodeRecord (h : n.isStored) :
    (g.nodeRecord tenant id tag? n).hasLabel Kind.unknownType.name = false := by
  have hkind : n.kind ≠ .unknownType := by simpa [Node.isStored] using h
  have htag : ∀ t : Tag, Kind.unknownType.name ≠ t.label := by
    intro t
    cases t <;> decide
  simp only [NodeRecord.hasLabel, nodeRecord, List.contains_eq_mem, List.mem_append,
    decide_eq_false_iff_not, not_or]
  refine ⟨name_unknownType_not_mem_labels hkind, ?_⟩
  cases tag? with
  | none => simp
  | some t => simpa using htag t

end Record

/-- The records of a graph are those of its stored slots. -/
theorem mem_records {r : NodeRecord} : r ∈ (g.prepare draw tenant).records ↔
    ∃ s n, g.node? s = some n ∧ n.isStored ∧
      r = g.nodeRecord tenant (draw s) (g.taggings.lookup s) n := by
  simp only [records_prepare, List.mem_map, Prod.exists, mem_storedSlots]
  constructor
  · rintro ⟨s, n, ⟨hs, hn⟩, rfl⟩
    exact ⟨s, n, hs, hn, rfl⟩
  · rintro ⟨s, n, hs, hn, rfl⟩
    exact ⟨s, n, ⟨hs, hn⟩, rfl⟩

/-- Records of different slots carry different identities, if no identity is drawn twice. -/
theorem nodup_ids (hdraw : ∀ s t, g.IsStored s → g.IsStored t → draw s = draw t → s = t) :
    ((g.prepare draw tenant).records.map NodeRecord.id?).Nodup := by
  have hids : (g.prepare draw tenant).records.map NodeRecord.id? =
      (g.storedSlots.map Prod.fst).map fun s => some (draw s).text := by
    rw [records_prepare, List.map_map, List.map_map]
    refine List.map_congr_left fun p _ => ?_
    exact id?_nodeRecord ..
  rw [hids]
  refine List.Nodup.map_on (fun s hs t ht h => ?_) g.nodup_storedSlots
  exact hdraw s t (mem_map_fst_storedSlots.1 hs) (mem_map_fst_storedSlots.1 ht)
    (Identity.text_injective (Option.some.inj h))

end Graph

end CodeGraph
