/-!
# Dictionaries

`Dict β` maps texts to values of type `β`. Its entries are kept in the order of their keys, each key
once, so two dictionaries with the same contents are equal and every walk over one is in key order.
The order is that of code points.

* `get?`, `insert`: look up and write one key;
* `ofList`: the dictionary of a list of entries, where the last of equal keys counts;
* `map`, `filterMap`: act on the values.

`get?_insert` says what a write does to every key, and `get?_eq_some_iff` that a look-up finds the
entries; `ofList_entries` says that the entries of a dictionary determine it, and `ofList_eq_of_perm`
that entries with different keys may come in any order.
-/

namespace CodeGraph

/-- A finite map from texts, with its entries in the order of their keys. -/
structure Dict (β : Type) where
  /-- The entries in the order of their keys. -/
  entries : List (String × β)
  sorted : entries.Pairwise fun a b => a.1 < b.1

namespace Dict

variable {β γ : Type}

@[ext] theorem ext {d e : Dict β} (h : d.entries = e.entries) : d = e := by
  cases d
  cases e
  simp_all

/-- The dictionary without entries. -/
def empty : Dict β := ⟨[], .nil⟩

instance : Inhabited (Dict β) := ⟨empty⟩

instance [BEq β] : BEq (Dict β) := ⟨fun d e => d.entries == e.entries⟩

/-- The value of a key. -/
def get? (d : Dict β) (key : String) : Option β :=
  d.entries.lookup key

/-- The keys in order. -/
def keys (d : Dict β) : List String :=
  d.entries.map Prod.fst

/-- Whether there are no entries. -/
def isEmpty (d : Dict β) : Bool :=
  d.entries.isEmpty

/-- Writes one key into a list of entries that is in order. -/
def insertInto (key : String) (value : β) : List (String × β) → List (String × β)
  | [] => [(key, value)]
  | e :: es =>
    if key < e.1 then (key, value) :: e :: es
    else if key = e.1 then (key, value) :: es
    else e :: insertInto key value es

theorem lt_of_not_lt {a b : String} (h : ¬ a < b) (hne : a ≠ b) : b < a := by
  rcases Classical.em (b < a) with h' | h'
  · exact h'
  · exact absurd (String.le_antisymm (String.not_lt.1 h') (String.not_lt.1 h)) hne

theorem forall_insertInto {p : String → Prop} {key : String} {value : β} :
    ∀ {es : List (String × β)}, p key → (∀ e ∈ es, p e.1) →
      ∀ e ∈ insertInto key value es, p e.1
  | [], hk, _, e, he => by
    simp only [insertInto, List.mem_singleton] at he
    subst he
    exact hk
  | a :: es, hk, h, e, he => by
    rw [insertInto] at he
    split at he
    · rcases List.mem_cons.1 he with rfl | he
      · exact hk
      · exact h e he
    · split at he
      · rcases List.mem_cons.1 he with rfl | he
        · exact hk
        · exact h e (List.mem_cons_of_mem _ he)
      · rcases List.mem_cons.1 he with rfl | he
        · exact h e List.mem_cons_self
        · exact forall_insertInto hk (fun x hx => h x (List.mem_cons_of_mem _ hx)) e he

theorem pairwise_insertInto (key : String) (value : β) :
    ∀ {es : List (String × β)}, es.Pairwise (fun a b => a.1 < b.1) →
      (insertInto key value es).Pairwise fun a b => a.1 < b.1
  | [], _ => by simp [insertInto]
  | e :: es, h => by
    rw [List.pairwise_cons] at h
    rw [insertInto]
    split
    case isTrue hlt =>
      refine List.pairwise_cons.2 ⟨fun x hx => ?_, List.pairwise_cons.2 h⟩
      rcases List.mem_cons.1 hx with rfl | hx
      · exact hlt
      · exact String.lt_trans hlt (h.1 x hx)
    case isFalse hnot =>
      split
      case isTrue heq => exact List.pairwise_cons.2 ⟨fun x hx => heq ▸ h.1 x hx, h.2⟩
      case isFalse hne =>
        exact List.pairwise_cons.2
          ⟨forall_insertInto (p := (e.1 < ·)) (lt_of_not_lt hnot hne) h.1,
            pairwise_insertInto key value h.2⟩

/-- The dictionary with a key set to a value. -/
def insert (d : Dict β) (key : String) (value : β) : Dict β :=
  ⟨insertInto key value d.entries, pairwise_insertInto key value d.sorted⟩

/-- The dictionary of a list of entries; the last of equal keys counts. -/
def ofList (es : List (String × β)) : Dict β :=
  es.foldl (fun d e => d.insert e.1 e.2) empty

/-- The dictionary with every value replaced. -/
def map (f : β → γ) (d : Dict β) : Dict γ :=
  ⟨d.entries.map fun e => (e.1, f e.2), List.pairwise_map.2 d.sorted⟩

/-- The dictionary of the values that `f` keeps. -/
def filterMap (f : β → Option γ) (d : Dict β) : Dict γ :=
  ⟨d.entries.filterMap fun e => (f e.2).map fun v => (e.1, v), by
    refine List.Pairwise.filterMap _ (fun a b hab x hx y hy => ?_) d.sorted
    simp only [Option.map_eq_some_iff] at hx hy
    obtain ⟨_, _, rfl⟩ := hx
    obtain ⟨_, _, rfl⟩ := hy
    exact hab⟩

@[simp] theorem get?_empty (key : String) : (empty : Dict β).get? key = none := rfl

theorem lookup_cons_ite (key : String) (e : String × β) (es : List (String × β)) :
    (e :: es).lookup key = if key = e.1 then some e.2 else es.lookup key := by
  obtain ⟨k, v⟩ := e
  by_cases h : key = k
  · simp [h]
  · have : (key == k) = false := by simpa using h
    simp [List.lookup_cons, h, this]

theorem lookup_insertInto (key key' : String) (value : β) :
    ∀ es : List (String × β),
      (insertInto key value es).lookup key' = if key' = key then some value else es.lookup key'
  | [] => by simp [insertInto, lookup_cons_ite]
  | e :: es => by
    rw [insertInto]
    split
    case isTrue => rw [lookup_cons_ite]
    case isFalse =>
      split
      case isTrue heq => rw [lookup_cons_ite, lookup_cons_ite, ← heq]; split <;> rfl
      case isFalse hne =>
        rw [lookup_cons_ite, lookup_insertInto key key' value es, lookup_cons_ite]
        by_cases h : key' = e.1
        · have : ¬ e.1 = key := fun h' => hne h'.symm
          simp [h, this]
        · simp [h]

/-- A write sets its own key and no other. -/
theorem get?_insert (d : Dict β) (key key' : String) (value : β) :
    (d.insert key value).get? key' = if key' = key then some value else d.get? key' :=
  lookup_insertInto key key' value d.entries

theorem getLast?_filterMap_cons {α : Type} (f : α → Option β) (a : α) (l : List α) :
    ((a :: l).filterMap f).getLast? = (l.filterMap f).getLast?.or (f a) := by
  rw [List.getLast?_filterMap, List.getLast?_filterMap, List.reverse_cons, List.findSome?_append,
    List.findSome?_singleton]

theorem get?_foldl_insert (key : String) (es : List (String × β)) (d : Dict β) :
    (es.foldl (fun d e => d.insert e.1 e.2) d).get? key =
      (es.filterMap fun e => if e.1 = key then some e.2 else none).getLast?.or (d.get? key) := by
  induction es generalizing d with
  | nil => rfl
  | cons e es ih =>
    rw [List.foldl_cons, ih, get?_insert, getLast?_filterMap_cons, Option.or_assoc]
    by_cases h : e.1 = key
    · rw [if_pos h, if_pos h.symm, Option.some_or]
    · rw [if_neg h, if_neg (Ne.symm h), Option.none_or]

/-- The last of the values with a key is the one that counts. -/
theorem get?_ofList (es : List (String × β)) (key : String) :
    (ofList es).get? key =
      (es.filterMap fun e => if e.1 = key then some e.2 else none).getLast? := by
  rw [ofList, get?_foldl_insert, get?_empty, Option.or_none]

theorem mem_of_get? {d : Dict β} {key : String} {value : β} (h : d.get? key = some value) :
    (key, value) ∈ d.entries := by
  obtain ⟨front, back, hentries, -⟩ := List.lookup_eq_some_iff.1 h
  rw [hentries]
  exact List.mem_append_right _ List.mem_cons_self

/-- A look-up finds the entries and nothing else. -/
theorem get?_eq_some_iff {d : Dict β} {key : String} {value : β} :
    d.get? key = some value ↔ (key, value) ∈ d.entries := by
  refine ⟨mem_of_get?, fun h => ?_⟩
  obtain ⟨front, back, hentries⟩ := List.append_of_mem h
  have hsorted := d.sorted
  rw [hentries] at hsorted
  refine List.lookup_eq_some_iff.2 ⟨front, back, hentries, fun e he => ?_⟩
  -- the keys in front are smaller
  have hlt : e.1 < key := (List.pairwise_append.1 hsorted).2.2 e he _ List.mem_cons_self
  exact bne_iff_ne.2 fun heq => String.lt_irrefl _ (heq ▸ hlt)

theorem get?_map (f : β → γ) (d : Dict β) (key : String) :
    (d.map f).get? key = (d.get? key).map f := by
  obtain ⟨entries, sorted⟩ := d
  show (entries.map fun e => (e.1, f e.2)).lookup key = (entries.lookup key).map f
  clear sorted
  induction entries with
  | nil => rfl
  | cons e entries ih =>
    rw [List.map_cons, lookup_cons_ite, lookup_cons_ite, ih, apply_ite (Option.map f),
      Option.map_some]

theorem get?_filterMap (f : β → Option γ) (d : Dict β) (key : String) :
    (d.filterMap f).get? key = (d.get? key).bind f := by
  ext value
  rw [get?_eq_some_iff, Option.bind_eq_some_iff]
  simp only [filterMap, List.mem_filterMap, Option.map_eq_some_iff, Prod.mk.injEq, Prod.exists,
    get?_eq_some_iff]
  constructor
  · rintro ⟨k, v, hv, _, hf, rfl, rfl⟩
    exact ⟨v, hv, hf⟩
  · rintro ⟨v, hv, hf⟩
    exact ⟨key, v, hv, value, hf, rfl, rfl⟩

/-- Entries can be in order in one way only. -/
theorem eq_of_perm {d e : Dict β} (h : d.entries.Perm e.entries) : d = e :=
  ext (h.eq_of_pairwise (fun _ _ _ _ hlt hlt' => absurd hlt' (String.lt_asymm hlt)) d.sorted e.sorted)

/-- No key has two entries. -/
theorem nodup_keys (d : Dict β) : d.keys.Nodup := by
  refine List.pairwise_map.2 (d.sorted.imp fun {a b} hlt heq => ?_)
  rw [heq] at hlt
  exact String.lt_irrefl _ hlt

theorem perm_insertInto {key : String} {value : β} :
    ∀ {es : List (String × β)}, key ∉ es.map Prod.fst →
      (insertInto key value es).Perm ((key, value) :: es)
  | [], _ => .refl _
  | e :: es, h => by
    rw [List.map_cons, List.mem_cons, not_or] at h
    rw [insertInto, if_neg h.1]
    split
    · exact .refl _
    · exact ((perm_insertInto h.2).cons e).trans (.swap ..)

theorem perm_entries_foldl_insert : ∀ {es : List (String × β)} {d : Dict β},
    ((d.entries ++ es).map Prod.fst).Nodup →
      (es.foldl (fun d e => d.insert e.1 e.2) d).entries.Perm (d.entries ++ es)
  | [], d, _ => by simp
  | e :: es, d, h => by
    have hnew : e.1 ∉ d.entries.map Prod.fst := by
      rw [List.map_append, List.map_cons, List.nodup_append] at h
      exact fun hmem => h.2.2 _ hmem _ List.mem_cons_self rfl
    have hinsert : ((d.insert e.1 e.2).entries ++ es).Perm (d.entries ++ e :: es) :=
      ((perm_insertInto hnew).append_right es).trans List.perm_middle.symm
    exact (perm_entries_foldl_insert ((hinsert.map Prod.fst).nodup_iff.2 h)).trans hinsert

/-- Entries with different keys are all kept. -/
theorem perm_entries_ofList {es : List (String × β)} (h : (es.map Prod.fst).Nodup) :
    (ofList es).entries.Perm es :=
  perm_entries_foldl_insert (d := empty) h

/-- The order of entries with different keys makes no difference. -/
theorem ofList_eq_of_perm {es es' : List (String × β)} (h : (es.map Prod.fst).Nodup)
    (hperm : es.Perm es') : ofList es = ofList es' := by
  have h' : (es'.map Prod.fst).Nodup := (hperm.map Prod.fst).nodup_iff.1 h
  exact eq_of_perm ((perm_entries_ofList h).trans (hperm.trans (perm_entries_ofList h').symm))

/-- The entries of a dictionary give the dictionary back. -/
@[simp] theorem ofList_entries (d : Dict β) : ofList d.entries = d :=
  eq_of_perm (perm_entries_ofList d.nodup_keys)

end Dict

end CodeGraph
