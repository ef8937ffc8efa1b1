import CodeGraph.Proofs.Settings.Item

/-!
# What a layer sets an item to

A layer sets an item by a value under the path of the item, or by a table for the whole section. The
last such value counts, and what a layer does not set stays as it was below.

* `Layer.value?`: the value that a layer gives to an item;
* `Layer.IsPlain`: layers that set nothing but items, each to something of worth;
* `Layer.find?_onto`: what items are set to when a plain layer is laid over others.
-/

namespace CodeGraph

open Settings (Item)

/-! ### Tables of sections -/

namespace Setting

/-- A table whose members are tables. -/
def HasSections (set : Setting) : Prop :=
  ∃ ms, set = .table ms ∧ Settings.HasTables ms

theorem hasSections_empty : HasSections (.table []) :=
  ⟨[], rfl, fun _ _ h => (Option.some_ne_none _ h.symm).elim⟩

theorem HasSections.insertInto {ms : List (String × Setting)} (h : Settings.HasTables ms)
    (topic : String) (inner : List (String × Setting)) :
    HasSections (.table (Dict.insertInto topic (.table inner) ms)) := by
  refine ⟨_, rfl, fun topic' v hv => ?_⟩
  rw [Dict.lookup_insertInto] at hv
  split at hv
  · exact ⟨inner, (Option.some.inj hv).symm⟩
  · exact h topic' v hv

/-- A value that is no table is put into its section. -/
theorem HasSections.put_key {set v : Setting} (h : HasSections set) (topic key : String) :
    HasSections (put v [.key topic, .key key] set) := by
  obtain ⟨ms, rfl, hms⟩ := h
  exact .insertInto hms topic _

/-- Merged members count from the last to the first, and before those that were there. -/
theorem lookup_members_merge {inner : List (String × Setting)}
    (h : ∀ e ∈ inner, ∀ ms, e.2 ≠ .table ms) (key : String) (old : Setting) :
    (merge inner old).members.lookup key =
      (inner.filterMap fun e => if e.1 = key then some e.2 else none).getLast?.or
        (old.members.lookup key) := by
  induction inner generalizing old with
  | nil => rw [merge_nil]; rfl
  | cons e inner ih =>
    obtain ⟨key', v⟩ := e
    rw [List.forall_mem_cons] at h
    rw [merge_cons, ih h.2, members_table, store_of_ne_table h.1, Dict.lookup_insertInto,
      Dict.getLast?_filterMap_cons, Option.or_assoc]
    by_cases hkey : key' = key
    · rw [if_pos hkey, if_pos hkey.symm, Option.some_or]
    · rw [if_neg hkey, if_neg (Ne.symm hkey), Option.none_or]

theorem exists_merge_eq_table (inner ms : List (String × Setting)) :
    ∃ ms', merge inner (.table ms) = .table ms' := by
  induction inner generalizing ms with
  | nil => exact ⟨ms, merge_nil _⟩
  | cons e inner ih =>
    rw [merge_cons]
    exact ih _

theorem put_table_eq (topic : String) (inner ms : List (String × Setting)) :
    put (.table inner) [.key topic] (.table ms) =
      .table (Dict.insertInto topic (merge inner ((ms.lookup topic).getD (.table []))) ms) := by
  rw [put, members_table, store]

/-- A table for a whole section is merged into it. -/
theorem HasSections.put_table {set : Setting} (h : HasSections set) (topic : String)
    (inner : List (String × Setting)) : HasSections (put (.table inner) [.key topic] set) := by
  obtain ⟨ms, rfl, hms⟩ := h
  have htable : ∃ old, (ms.lookup topic).getD (.table []) = .table old := by
    cases hv : ms.lookup topic with
    | none => exact ⟨[], rfl⟩
    | some v => exact hms topic v hv
  obtain ⟨old, hold⟩ := htable
  obtain ⟨ms', hms'⟩ := exists_merge_eq_table inner old
  rw [put_table_eq, hold, hms']
  exact .insertInto hms topic ms'

theorem find?_put_table {set : Setting} (h : HasSections set) {inner : List (String × Setting)}
    (hinner : ∀ e ∈ inner, ∀ ms, e.2 ≠ .table ms) (topic topic' key : String) :
    find? [topic', key] (put (.table inner) [.key topic] set) =
      (if topic = topic' then
        (inner.filterMap fun e => if e.1 = key then some e.2 else none).getLast?
      else none).or (find? [topic', key] set) := by
  obtain ⟨ms, rfl, -⟩ := h
  rw [put_table_eq, find?_pair, find?_pair, members_table, members_table, Dict.lookup_insertInto]
  by_cases htopic : topic = topic'
  · subst htopic
    rw [if_pos rfl, if_pos rfl, Option.bind_some, find?_singleton, lookup_members_merge hinner]
    congr 1
    cases ms.lookup topic with
    | none => rfl
    | some v => exact (find?_singleton key v).symm
  · rw [if_neg htopic, if_neg (Ne.symm htopic), Option.none_or]

end Setting

/-! ### Layers -/

namespace Layer

/-- The values that a member of a layer gives to an item. -/
def valuesAt (i : Item) (path : Setting.Path) (v : Setting) : List Setting :=
  if path = [.key i.topic, .key i.key] then [v]
  else if path = [.key i.topic] then
    v.members.filterMap fun e => if e.1 = i.key then some e.2 else none
  else []

/-- The value that a layer gives to an item, which is the last one. -/
def value? (i : Item) (layer : Layer) : Option Setting :=
  (layer.flatMap fun e => valuesAt i e.1 e.2).getLast?

theorem value?_append (i : Item) (a b : Layer) :
    value? i (a ++ b) = (value? i b).or (value? i a) := by
  rw [value?, List.flatMap_append, List.getLast?_append]
  rfl

theorem value?_cons (i : Item) (path : Setting.Path) (v : Setting) (layer : Layer) :
    value? i ((path, v) :: layer) = (value? i layer).or (valuesAt i path v).getLast? := by
  rw [value?, List.flatMap_cons, List.getLast?_append]
  rfl

/-- A table of items of a section, each set to something of worth. -/
def IsPlainSection (topic : String) (inner : List (String × Setting)) : Prop :=
  ∀ e ∈ inner, ∃ i : Item, i.topic = topic ∧ i.key = e.1 ∧ (i.worth? e.2).isSome

/-- A member of a layer that sets one item, or some items of one section. -/
def IsPlainAt (path : Setting.Path) (v : Setting) : Prop :=
  (∃ i : Item, path = [.key i.topic, .key i.key] ∧ (i.worth? v).isSome) ∨
    ∃ topic inner, path = [.key topic] ∧ v = .table inner ∧ IsPlainSection topic inner

/-- A layer that sets nothing but items, each to something of worth. -/
def IsPlain (layer : Layer) : Prop :=
  ∀ e ∈ layer, IsPlainAt e.1 e.2

/-- A table is worth nothing to an item. -/
theorem ne_table_of_isSome_worth? {i : Item} {v : Setting} (h : (i.worth? v).isSome)
    (ms : List (String × Setting)) : v ≠ .table ms := by
  rintro rfl
  cases i <;> cases h

variable {set : Setting} (hset : set.HasSections)

include hset

theorem hasSections_put_of_isPlainAt {path : Setting.Path} {v : Setting} (h : IsPlainAt path v) :
    (Setting.put v path set).HasSections := by
  rcases h with ⟨i, rfl, -⟩ | ⟨topic, inner, rfl, rfl, -⟩
  · exact hset.put_key _ _
  · exact hset.put_table _ _

theorem find?_put_of_isPlainAt {path : Setting.Path} {v : Setting} (h : IsPlainAt path v)
    (i : Item) : Setting.find? [i.topic, i.key] (Setting.put v path set) =
      (valuesAt i path v).getLast?.or (Setting.find? [i.topic, i.key] set) := by
  rcases h with ⟨j, rfl, hworth⟩ | ⟨topic, inner, rfl, rfl, hinner⟩
  · rw [Setting.find?_put (ne_table_of_isSome_worth? hworth)]
    by_cases hij : i = j
    · subst hij
      simp [valuesAt]
    · have hkey : j.key ≠ i.key := fun hkey => hij (Item.key_injective hkey).symm
      simp [valuesAt, hkey, hkey.symm]
  · have hleaf : ∀ e ∈ inner, ∀ ms, e.2 ≠ .table ms := by
      intro e he
      obtain ⟨j, -, -, hworth⟩ := hinner e he
      exact ne_table_of_isSome_worth? hworth
    rw [Setting.find?_put_table hset hleaf]
    by_cases htopic : topic = i.topic
    · simp [valuesAt, htopic]
    · simp [valuesAt, htopic]

/-- **Over a layer below.** An item is set to what a plain layer gives to it, or else to what it was
set to below. -/
theorem find?_onto {layer : Layer} (h : IsPlain layer) :
    (layer.onto set).HasSections ∧ ∀ i : Item,
      Setting.find? [i.topic, i.key] (layer.onto set) =
        (value? i layer).or (Setting.find? [i.topic, i.key] set) := by
  induction layer generalizing set with
  | nil => exact ⟨hset, fun _ => rfl⟩
  | cons e layer ih =>
    obtain ⟨path, v⟩ := e
    obtain ⟨hhead, htail⟩ := List.forall_mem_cons.1 h
    rw [onto_cons]
    obtain ⟨hsections, hfind⟩ := ih (hasSections_put_of_isPlainAt hset hhead) htail
    refine ⟨hsections, fun i => ?_⟩
    rw [hfind, find?_put_of_isPlainAt hset hhead, value?_cons, Option.or_assoc]

omit hset in
theorem isSome_worth?_of_value? {layer : Layer} (h : IsPlain layer) {i : Item} {v : Setting}
    (hv : value? i layer = some v) : (i.worth? v).isSome := by
  obtain ⟨e, he, hmem⟩ := List.mem_flatMap.1 (List.mem_of_getLast? hv)
  obtain ⟨path, w⟩ := e
  rcases h _ he with ⟨j, rfl, hworth⟩ | ⟨topic, inner, rfl, rfl, hinner⟩
  · by_cases hij : i = j
    · subst hij
      obtain rfl : v = w := by simpa [valuesAt] using hmem
      exact hworth
    · have hkey : j.key ≠ i.key := fun hkey => hij (Item.key_injective hkey).symm
      simp [valuesAt, hkey] at hmem
  · by_cases htopic : topic = i.topic
    · subst htopic
      simp only [valuesAt, List.cons.injEq, List.ne_cons_self, and_false, if_false, if_true,
        Setting.members_table, List.mem_filterMap, Option.ite_none_right_eq_some] at hmem
      obtain ⟨e, he, hkey, hvalue⟩ := hmem
      obtain ⟨j, -, hj, hworth⟩ := hinner e he
      obtain rfl : j = i := Item.key_injective (hj.trans hkey)
      rwa [← Option.some.inj hvalue]
    · simp [valuesAt, htopic] at hmem

end Layer

end CodeGraph
