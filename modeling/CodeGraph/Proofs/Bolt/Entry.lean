import CodeGraph.Bolt.Value
import Mathlib.Data.List.Forall2

/-!
# Entries of maps

The entries of a map come in the order in which they are walked, and are put into the order of their
keys where that is shown. So the walk makes no difference to what is shown of them, as long as no
two of them have the same key.

* `Keyed`: entries with one key whose values belong to each other;
* `mem_of_mem_inOrder`, `inOrder_eq_of_perm`: entries in order are the entries, whatever the walk;
* `forall₂_inOrder`: entries that belong to each other still do in order.
-/

namespace CodeGraph.Bolt

variable {α β : Type} {R : α → β → Prop}

/-- Whether two entries have one key, and values that belong to each other. -/
inductive Keyed (R : α → β → Prop) : String × α → String × β → Prop
  | mk (key : String) {a : α} {b : β} (h : R a b) : Keyed R (key, a) (key, b)

theorem Keyed.mono {S : α → β → Prop} {e : String × α} {e' : String × β} (h : Keyed R e e')
    (hRS : ∀ a b, R a b → S a b) : Keyed S e e' := by
  cases h with
  | mk key h => exact .mk key (hRS _ _ h)

/-- The value of an entry is smaller than the entries. -/
theorem sizeOf_lt_of_mem_entries [SizeOf α] {es : List (String × α)} {key : String} {a : α}
    (h : (key, a) ∈ es) : sizeOf a < sizeOf es := by
  have hlt := List.sizeOf_lt_of_mem h
  simp only [Prod.mk.sizeOf_spec] at hlt
  omega

/-- Entries that belong to each other have the same keys. -/
theorem map_fst_eq_of_keyed {es : List (String × α)} {es' : List (String × β)}
    (h : List.Forall₂ (Keyed R) es es') : es.map Prod.fst = es'.map Prod.fst := by
  induction h with
  | nil => rfl
  | cons hkeyed _ ih =>
    cases hkeyed with
    | mk key _ => rw [List.map_cons, List.map_cons, ih]

/-- Nothing else is among entries in order. -/
theorem mem_of_mem_inOrder {es : List (String × α)} {e : String × α} (h : e ∈ inOrder es) :
    e ∈ es := by
  obtain ⟨key, a⟩ := e
  rw [inOrder, ← Dict.get?_eq_some_iff, Dict.get?_ofList] at h
  obtain ⟨⟨key', a'⟩, hmem, h⟩ := List.mem_filterMap.1 (List.mem_of_getLast? h)
  simp only [Option.ite_none_right_eq_some, Option.some.injEq] at h
  obtain ⟨rfl, rfl⟩ := h
  exact hmem

/-- Entries that are walked in another order are the same in order. -/
theorem inOrder_eq_of_perm {es es' : List (String × α)} (h : (es.map Prod.fst).Nodup)
    (hperm : es.Perm es') : inOrder es = inOrder es' :=
  congrArg Dict.entries (Dict.ofList_eq_of_perm h hperm)

theorem forall₂_insertInto {key : String} {a : α} {b : β} (hab : R a b) {es : List (String × α)}
    {es' : List (String × β)} (h : List.Forall₂ (Keyed R) es es') :
    List.Forall₂ (Keyed R) (Dict.insertInto key a es) (Dict.insertInto key b es') := by
  induction h with
  | nil => exact .cons (.mk key hab) .nil
  | cons hkeyed hrest ih =>
    cases hkeyed with
    | mk key' hab' =>
      rw [Dict.insertInto, Dict.insertInto]
      split
      · exact .cons (.mk key hab) (.cons (.mk key' hab') hrest)
      · split
        · exact .cons (.mk key hab) hrest
        · exact .cons (.mk key' hab') ih

theorem forall₂_foldl_insert {es : List (String × α)} {es' : List (String × β)}
    (h : List.Forall₂ (Keyed R) es es') {d : Dict α} {d' : Dict β}
    (hd : List.Forall₂ (Keyed R) d.entries d'.entries) :
    List.Forall₂ (Keyed R) (es.foldl (fun d e => d.insert e.1 e.2) d).entries
      (es'.foldl (fun d e => d.insert e.1 e.2) d').entries := by
  induction h generalizing d d' with
  | nil => exact hd
  | cons hkeyed _ ih =>
    cases hkeyed with
    | mk key hab => exact ih (forall₂_insertInto hab hd)

/-- Entries that belong to each other still do when they are put in order. -/
theorem forall₂_inOrder {es : List (String × α)} {es' : List (String × β)}
    (h : List.Forall₂ (Keyed R) es es') : List.Forall₂ (Keyed R) (inOrder es) (inOrder es') :=
  forall₂_foldl_insert h .nil

end CodeGraph.Bolt
