import CodeGraph.Proofs.Program.Tagging

/-!
# One record for every stored node

What is prepared of a graph is told by the slots that are stored: each of them gets an identity and,
in the order of the slots, a record that carries it.

* `Graph.IsRecord`: what the record of a slot holds;
* `Graph.IsPrepared`: what is prepared of a graph;
* `Graph.get?_storedProperties`: the properties of a record, key by key;
* `Graph.rows_prepare`: this is what is prepared of every graph.
-/

namespace CodeGraph

namespace Graph

variable {g : Graph} {draw : Slot → Identity} {tenant : Tenant}

/-- The properties that hold the path of a node. -/
def nameKeys : List String := ["name", "fullName", "localName"]

/-- The keys that are written over the properties of a node. -/
def writtenKeys : List String := idKey :: tenantKey :: nameKeys

/-- Whether a record is that of a slot and its node among what is prepared for a tenant. -/
structure IsRecord (g : Graph) (tenant : Tenant) (p : Prepared) (s : Slot) (n : Node)
    (r : NodeRecord) : Prop where
  node : g.node? s = some n
  id : ∃ id, p.ids.get? s = some id ∧ r.properties.get? idKey = some (.text id.text)
  tenant : r.properties.get? tenantKey = some (.text tenant)
  names : ∀ key ∈ nameKeys, r.properties.get? key = some (.text (g.displayName n))
  others : ∀ key ∉ writtenKeys, r.properties.get? key = n.properties.get? key
  labels : r.labels = n.kind.labels ++ ((g.tag? s).map Tag.label).toList

/-- Whether this is what is prepared of a graph for a tenant. -/
structure IsPrepared (g : Graph) (tenant : Tenant) (p : Prepared) : Prop where
  /-- The slots that are stored have an identity, and no other slot has one. -/
  identified : ∀ s, (∃ id, p.ids.get? s = some id) ↔ g.IsStored s
  /-- No two slots have the same identity. -/
  distinct : ∀ s t id, p.ids.get? s = some id → p.ids.get? t = some id → s = t
  /-- The slots that are stored have one record each, in their order. -/
  recorded : ∃ slots : List Slot, slots.Pairwise (· < ·) ∧ (∀ s, s ∈ slots ↔ g.IsStored s) ∧
    List.Forall₂ (fun s r => ∃ n, g.IsRecord tenant p s n r) slots p.records
  /-- Every node has a record or is counted. -/
  counted : p.filtered + p.records.length = g.size
  /-- The slots that have a tag are listed with it, in their order. -/
  tagged : (p.tags.map Prod.fst).Pairwise (· < ·) ∧ ∀ s t, (s, t) ∈ p.tags ↔ g.tag? s = some t

/-- The properties of a record: five are written over those of the node. -/
theorem get?_storedProperties (g : Graph) (tenant : Tenant) (id : Identity) (n : Node)
    (key : String) :
    (g.storedProperties tenant id n).get? key =
      if key = tenantKey then some (.text tenant)
      else if key ∈ nameKeys then some (.text (g.displayName n))
      else if key = idKey then some (.text id.text)
      else n.properties.get? key := by
  simp only [storedProperties, Dict.get?_insert, nameKeys, List.mem_cons, List.not_mem_nil,
    or_false]
  grind

theorem isRecord_nodeRecord {s : Slot} {n : Node} (hn : g.node? s = some n) (hstored : n.isStored) :
    g.IsRecord tenant (g.prepare draw tenant) s n
      (g.nodeRecord tenant (draw s) (g.tag? s) n) where
  node := hn
  id := by
    refine ⟨draw s, ?_, ?_⟩
    · rw [ids_prepare, get?_identities]
      exact ⟨⟨n, hn, hstored⟩, rfl⟩
    · rw [nodeRecord, get?_storedProperties]
      rfl
  tenant := by
    rw [nodeRecord, get?_storedProperties]
    rfl
  names key hkey := by
    have hne : key ≠ tenantKey := by
      rintro rfl
      exact absurd hkey (by decide)
    rw [nodeRecord, get?_storedProperties, if_neg hne, if_pos hkey]
  others key hkey := by
    simp only [writtenKeys, List.mem_cons, not_or] at hkey
    rw [nodeRecord, get?_storedProperties, if_neg hkey.2.1, if_neg hkey.2.2, if_neg hkey.1]
  labels := rfl

/-- There is one record for each slot that is stored, in their order. -/
theorem forall₂_isRecord : List.Forall₂
    (fun s r => ∃ n, g.IsRecord tenant (g.prepare draw tenant) s n r)
    (g.storedSlots.map Prod.fst) (g.prepare draw tenant).records := by
  rw [records_prepare, List.forall₂_map_left_iff, List.forall₂_map_right_iff, List.forall₂_same]
  rintro ⟨s, n⟩ h
  obtain ⟨hn, hstored⟩ := mem_storedSlots.1 h
  exact ⟨n, isRecord_nodeRecord hn hstored⟩

theorem filtered_add_length :
    (g.prepare draw tenant).filtered + (g.prepare draw tenant).records.length = g.size := by
  have hboth := g.slots.length_eq_countP_add_countP fun p => p.2.isStored
  rw [length_slots] at hboth
  rw [filtered_prepare, records_prepare, List.length_map, storedSlots,
    ← List.countP_eq_length_filter, hboth, Nat.add_comm]
  simp

/-- **Every stored node gets an identity and a record, in step.** Nothing is asked of the graph, and
of the identities only that none is drawn twice. -/
theorem rows_prepare (g : Graph) (draw : Slot → Identity) (tenant : Tenant)
    (hdraw : ∀ s t, g.IsStored s → g.IsStored t → draw s = draw t → s = t) :
    g.IsPrepared tenant (g.prepare draw tenant) where
  identified s := by simp [ids_prepare, get?_identities]
  distinct s t id hs ht := by
    rw [ids_prepare, get?_identities] at hs ht
    exact hdraw s t hs.1 ht.1 (hs.2.trans ht.2.symm)
  recorded :=
    ⟨_, g.sorted_storedSlots, fun _ => mem_map_fst_storedSlots, forall₂_isRecord⟩
  counted := filtered_add_length
  tagged := ⟨sorted_tags, fun s t => by rw [mem_tags, tag?, lookup_taggings]⟩

/-- A node of unknown type, a function that holds keys of its own under names that are written, and
a literal. -/
def foreign : Graph :=
  ⟨#[.bare 0 .unknownType,
    (((Node.bare 1 .functionDeclaration).withProperty "id" (.text "theirs")).withProperty
      "projectId" .null).withProperty "name" (.text "app::main"),
    .bare 2 .literal]⟩

theorem rows_prepare_foreign :
    (∀ s t, foreign.IsStored s → foreign.IsStored t → Identity.fresh s = .fresh t → s = t) ∧
      foreign.IsPrepared "ours" (foreign.prepare .fresh "ours") ∧
      (foreign.prepare .fresh "ours").filtered = 1 ∧
      (foreign.prepare .fresh "ours").ids.get? 2 = some (.fresh 2) := by
  have hfew : ∀ s < 3, ∀ t < 3, Identity.fresh s = .fresh t → s = t := by decide +kernel
  have hdraw : ∀ s t, foreign.IsStored s → foreign.IsStored t → Identity.fresh s = .fresh t →
      s = t := fun s t hs ht => hfew s hs.lt_size t ht.lt_size
  exact ⟨hdraw, rows_prepare foreign .fresh "ours" hdraw, by decide +kernel, by decide +kernel⟩

end Graph

end CodeGraph
