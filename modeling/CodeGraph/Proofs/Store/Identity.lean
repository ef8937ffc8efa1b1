import CodeGraph.Store.Identity
import Mathlib.Data.Finset.Card
import Mathlib.Data.List.Nodup

/-!
# Identities as a finite map

The identities of slots are kept in an array with gaps, which grows when a slot behind its end is
assigned to. What can be seen of it is a finite map: how long the array is and where its gaps are
makes no difference.

* `IdMap.mem_entries`, `IdMap.pairwise_entries`, `IdMap.length_entries`: what is listed;
* `IdMap.IsLatest`: the assignments that count;
* `IdMap.Holds`, `IdMap.assignAll`, `IdMap.holds_assignAll`: a run of assignments;
* `IdMap.Refines`, `IdMap.refines_assignAll`: all that can be seen after a run.
-/

namespace CodeGraph.IdMap

variable {m : IdMap} {s t : Slot} {id : Identity} {calls : List (Slot × Identity)}

/-! ### What is listed -/

theorem mem_entries : (s, id) ∈ m.entries ↔ m.get? s = some id := by
  have hentry : (s, id) ∈ m.entries ↔ some (s, id) ∈
      m.ids.toList.mapIdx fun s id => id.map fun id => (s, id) := by
    simp [entries]
  rw [hentry, List.mem_mapIdx, get?, Option.join_eq_some_iff, Array.getElem?_eq_some_iff]
  simp

/-- Slots are listed in order, whatever gaps there are between them. -/
theorem pairwise_entries (m : IdMap) : m.entries.Pairwise fun e e' => e.1 < e'.1 := by
  rw [entries, List.pairwise_filterMap, List.pairwise_iff_getElem]
  intro i j hi hj hij e he e' he'
  simp only [List.getElem_mapIdx, id_eq, Option.map_eq_some_iff] at he he'
  obtain ⟨_, _, rfl⟩ := he
  obtain ⟨_, _, rfl⟩ := he'
  exact hij

theorem length_entries (m : IdMap) : m.entries.length = m.size := by
  rw [entries, List.mapIdx_eq_zipIdx_map, List.filterMap_map, List.length_filterMap_eq_countP, size]
  calc
    _ = m.ids.toList.zipIdx.countP (Option.isSome ∘ Prod.fst) := by simp [Function.comp_def]
    _ = m.ids.toList.countP Option.isSome := by rw [← List.countP_map, List.zipIdx_map_fst]

/-- The slots that have an identity are counted, each once. -/
theorem size_eq_card {slots : Finset Slot} (h : ∀ s, s ∈ slots ↔ m.get? s ≠ none) :
    m.size = slots.card := by
  have hnodup : (m.entries.map Prod.fst).Nodup :=
    List.pairwise_map.2 (m.pairwise_entries.imp Nat.ne_of_lt)
  have hslots : (m.entries.map Prod.fst).toFinset = slots := by
    ext s
    simp [h, mem_entries, Option.ne_none_iff_exists']
  rw [← hslots, List.toFinset_card_of_nodup hnodup, List.length_map, length_entries]

/-! ### Assignments -/

/-- Whether a slot is assigned this identity, and no other one later. -/
def IsLatest (calls : List (Slot × Identity)) (s : Slot) (id : Identity) : Prop :=
  ∃ before after, calls = before ++ (s, id) :: after ∧ ∀ c ∈ after, c.1 ≠ s

theorem IsLatest.mem (h : IsLatest calls s id) : (s, id) ∈ calls := by
  obtain ⟨before, after, rfl, -⟩ := h
  exact List.mem_append_right _ List.mem_cons_self

theorem isLatest_concat {c : Slot × Identity} :
    IsLatest (calls ++ [c]) s id ↔ c = (s, id) ∨ c.1 ≠ s ∧ IsLatest calls s id := by
  constructor
  · rintro ⟨before, after, heq, hafter⟩
    -- the last call is the one that is meant, or it stands among those behind it
    rcases after.eq_nil_or_concat' with rfl | ⟨after, c', rfl⟩
    · exact .inl (List.singleton_inj.1 (List.append_inj' heq rfl).2)
    · rw [← List.cons_append, ← List.append_assoc] at heq
      obtain ⟨rfl, hlast⟩ := List.append_inj' heq rfl
      obtain rfl := List.singleton_inj.1 hlast
      rw [List.forall_mem_append, List.forall_mem_singleton] at hafter
      exact .inr ⟨hafter.2, before, after, rfl, hafter.1⟩
  · rintro (rfl | ⟨hne, before, after, rfl, hafter⟩)
    · exact ⟨calls, [], rfl, by simp⟩
    · refine ⟨before, after ++ [c], by simp, ?_⟩
      rw [List.forall_mem_append, List.forall_mem_singleton]
      exact ⟨hafter, hne⟩

/-- A slot that is assigned to has a latest identity. -/
theorem exists_isLatest_iff : (∃ id, IsLatest calls s id) ↔ s ∈ calls.map Prod.fst := by
  constructor
  · rintro ⟨id, h⟩
    exact List.mem_map_of_mem h.mem
  · intro h
    induction calls using List.reverseRecOn with
    | nil => cases h
    | append_singleton calls c ih =>
      simp only [isLatest_concat]
      by_cases hc : c.1 = s
      · subst hc
        exact ⟨c.2, .inl rfl⟩
      · rw [List.map_append, List.mem_append] at h
        obtain ⟨id, hid⟩ := ih (h.resolve_right fun hs => hc (List.mem_singleton.1 hs).symm)
        exact ⟨id, .inr ⟨hc, hid⟩⟩

/-- Whether every slot has the identity that it was assigned last. -/
def Holds (m : IdMap) (calls : List (Slot × Identity)) : Prop :=
  ∀ s id, m.get? s = some id ↔ IsLatest calls s id

theorem holds_ofSize (slots : Nat) : (ofSize slots).Holds [] := by
  intro s id
  simp [IsLatest]

/-- One more assignment counts for its slot and leaves the others alone. -/
theorem Holds.assign (h : m.Holds calls) (t : Slot) (id : Identity) :
    (m.assign t id).Holds (calls ++ [(t, id)]) := by
  intro s id'
  rw [get?_assign, isLatest_concat]
  by_cases hs : s = t
  · subst hs
    simp
  · rw [if_neg hs, h s id']
    simp [Ne.symm hs]

/-- The map after a run of assignments. -/
def assignAll (m : IdMap) (calls : List (Slot × Identity)) : IdMap :=
  calls.foldl (fun m c => m.assign c.1 c.2) m

/-- After a run of assignments the latest ones count, whatever room there was at first. -/
theorem holds_assignAll (slots : Nat) (calls : List (Slot × Identity)) :
    ((ofSize slots).assignAll calls).Holds calls := by
  induction calls using List.reverseRecOn with
  | nil => exact holds_ofSize slots
  | append_singleton calls c ih =>
    rw [assignAll, List.foldl_concat]
    exact ih.assign c.1 c.2

theorem Holds.get?_eq_none_iff (h : m.Holds calls) :
    m.get? s = none ↔ s ∉ calls.map Prod.fst := by
  rw [← exists_isLatest_iff, Option.eq_none_iff_forall_ne_some]
  simp only [ne_eq, h s, not_exists]

/-! ### Finite maps -/

/-- Whether a map shows no more of its assignments than a finite map does. -/
structure Refines (m : IdMap) (calls : List (Slot × Identity)) : Prop where
  /-- A slot has the identity that it was assigned last. -/
  get?_eq_some (s : Slot) (id : Identity) : m.get? s = some id ↔ IsLatest calls s id
  /-- It has none if and only if it was never assigned one. -/
  get?_eq_none (s : Slot) : m.get? s = none ↔ s ∉ calls.map Prod.fst
  contains (s : Slot) : m.contains s ↔ ∃ id, m.get? s = some id
  /-- One more assignment changes no other slot. -/
  assign (s t : Slot) (id : Identity) : t ≠ s → (m.assign s id).get? t = m.get? t
  /-- The size is the number of slots that were assigned to. -/
  size : m.size = (calls.map Prod.fst).toFinset.card
  /-- The slots with their identities are listed, and nothing else. -/
  mem_entries (s : Slot) (id : Identity) : (s, id) ∈ m.entries ↔ m.get? s = some id
  /-- They are listed in order, and each slot once. -/
  sorted : m.entries.Pairwise fun e e' => e.1 < e'.1
  /-- No two slots have the same identity. -/
  injective (s t : Slot) (id : Identity) : m.get? s = some id → m.get? t = some id → s = t
  isEmpty : m.isEmpty ↔ calls = []

/-- **After any run of assignments an identity map is a finite map.** The slots may come in any order
and again and again, and they may lie behind the room that there was at first. The identities are
fresh: none is assigned twice. -/
theorem refines_assignAll (slots : Nat) (calls : List (Slot × Identity))
    (hfresh : (calls.map Prod.snd).Nodup) : ((ofSize slots).assignAll calls).Refines calls := by
  have hholds := holds_assignAll slots calls
  have hsize : ((ofSize slots).assignAll calls).size = (calls.map Prod.fst).toFinset.card :=
    size_eq_card fun s => by rw [List.mem_toFinset, ne_eq, hholds.get?_eq_none_iff, not_not]
  constructor
  case get?_eq_some => exact hholds
  case get?_eq_none => exact fun _ => hholds.get?_eq_none_iff
  case contains => exact fun _ => Option.isSome_iff_exists
  case assign =>
    intro s t id hne
    rw [get?_assign, if_neg hne]
  case size => exact hsize
  case mem_entries => exact fun _ _ => mem_entries
  case sorted => exact pairwise_entries _
  case injective =>
    intro s t id hs ht
    -- both slots were assigned to by the same call
    have heq := List.inj_on_of_nodup_map hfresh ((hholds s id).1 hs).mem ((hholds t id).1 ht).mem rfl
    exact congrArg Prod.fst heq
  case isEmpty =>
    rw [isEmpty, beq_iff_eq, hsize, Finset.card_eq_zero, List.toFinset_eq_empty_iff,
      List.map_eq_nil_iff]

/-- A run that goes behind the room there is, leaves gaps and comes back to a slot. -/
def revisit : List (Slot × Identity) :=
  [(5, ⟨"a"⟩), (0, ⟨"b"⟩), (5, ⟨"c"⟩), (3, ⟨"d"⟩)]

theorem refines_assignAll_revisit :
    (revisit.map Prod.snd).Nodup ∧ ((ofSize 2).assignAll revisit).Refines revisit ∧
      ((ofSize 2).assignAll revisit).entries = [(0, ⟨"b"⟩), (3, ⟨"d"⟩), (5, ⟨"c"⟩)] := by
  have hfresh : (revisit.map Prod.snd).Nodup := by decide
  exact ⟨hfresh, refines_assignAll 2 revisit hfresh, by decide⟩

end CodeGraph.IdMap
