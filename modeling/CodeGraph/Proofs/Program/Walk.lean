import CodeGraph.Program.Walk
import Mathlib.Data.List.Nodup
import Mathlib.Logic.Relation

/-!
# What a walk finds

A walk with a stack is a recursive search: below a slot that it finds it searches first, and it passes
over what it has seen. So it finds what can be reached, each slot once.

* `Search`: the recursive search, as a relation;
* `Search.unique`, `Search.nodup`, `Search.mem_iff`: what is found, and in which order;
* `Search.map`: what is found in a renamed graph;
* `search_walk`: a walk is a search;
* `Graph.Below`, `Graph.mem_descendants`, `Graph.mem_blocks`: what is below a slot;
* `Graph.Within`, `Graph.mem_members`: what is in a block and in no nested one.
-/

namespace CodeGraph

/-- A search from some slots that has seen others: it finds a slot that is not seen, then what is below
it, and then goes on with what is left. -/
inductive Search (next : Slot → List Slot) : List Slot → List Slot → List Slot → Prop
  | nil {seen : List Slot} : Search next seen [] []
  | again {seen todo found : List Slot} {s : Slot} (hs : s ∈ seen)
      (h : Search next seen todo found) : Search next seen (s :: todo) found
  | visit {seen todo below beside : List Slot} {s : Slot} (hs : s ∉ seen)
      (hbelow : Search next (s :: seen) (next s) below)
      (hbeside : Search next (below ++ s :: seen) todo beside) :
      Search next seen (s :: todo) (s :: (below ++ beside))

namespace Search

variable {next : Slot → List Slot} {seen todo found : List Slot}

/-- What is found was not seen before. -/
theorem not_mem_seen (h : Search next seen todo found) : ∀ t ∈ found, t ∉ seen := by
  induction h with
  | nil => simp
  | again hs h ih => exact ih
  | @visit seen todo below beside s hs hbelow hbeside ihbelow ihbeside =>
    intro t ht hseen
    rcases List.mem_cons.1 ht with rfl | ht
    · exact hs hseen
    · rcases List.mem_append.1 ht with ht | ht
      · exact ihbelow t ht (List.mem_cons_of_mem _ hseen)
      · exact ihbeside t ht (List.mem_append_right _ (List.mem_cons_of_mem _ hseen))

/-- Nothing is found twice. -/
theorem nodup (h : Search next seen todo found) : found.Nodup := by
  induction h with
  | nil => exact List.nodup_nil
  | again hs h ih => exact ih
  | @visit seen todo below beside s hs hbelow hbeside ihbelow ihbeside =>
    have hs_below : s ∉ below := fun h => hbelow.not_mem_seen s h List.mem_cons_self
    have hs_beside : s ∉ beside := fun h =>
      hbeside.not_mem_seen s h (List.mem_append_right _ List.mem_cons_self)
    have hdisjoint : List.Disjoint below beside := fun t ht ht' =>
      hbeside.not_mem_seen t ht' (List.mem_append_left _ ht)
    refine List.nodup_cons.2 ⟨?_, ihbelow.append ihbeside hdisjoint⟩
    rw [List.mem_append, not_or]
    exact ⟨hs_below, hs_beside⟩

/-- What is searched for is found, unless it was seen. -/
theorem mem_of_mem_todo (h : Search next seen todo found) :
    ∀ t ∈ todo, t ∈ seen ∨ t ∈ found := by
  induction h with
  | nil => simp
  | again hs h ih =>
    intro t ht
    rcases List.mem_cons.1 ht with rfl | ht
    · exact .inl hs
    · exact ih t ht
  | @visit seen todo below beside s hs hbelow hbeside ihbelow ihbeside =>
    intro t ht
    have hfound := ihbeside t
    simp only [List.mem_cons, List.mem_append] at ht hfound ⊢
    grind

/-- What comes next to what is found is found, unless it was seen. -/
theorem closed (h : Search next seen todo found) :
    ∀ t ∈ found, ∀ u ∈ next t, u ∈ seen ∨ u ∈ found := by
  induction h with
  | nil => simp
  | again hs h ih => exact ih
  | @visit seen todo below beside s hs hbelow hbeside ihbelow ihbeside =>
    intro t ht u hu
    have hnext := hbelow.mem_of_mem_todo u
    have hfound := ihbelow t
    have hfound' := ihbeside t
    simp only [List.mem_cons, List.mem_append] at ht hnext hfound hfound' ⊢
    grind

/-- What is found can be reached. -/
theorem reached (h : Search next seen todo found) :
    ∀ t ∈ found, ∃ s ∈ todo, Relation.ReflTransGen (fun a b => b ∈ next a) s t := by
  induction h with
  | nil => simp
  | again hs h ih =>
    intro t ht
    obtain ⟨s, hs, hst⟩ := ih t ht
    exact ⟨s, List.mem_cons_of_mem _ hs, hst⟩
  | @visit seen todo below beside s hs hbelow hbeside ihbelow ihbeside =>
    intro t ht
    rcases List.mem_cons.1 ht with rfl | ht
    · exact ⟨t, List.mem_cons_self, .refl⟩
    · rcases List.mem_append.1 ht with ht | ht
      · obtain ⟨c, hc, hct⟩ := ihbelow t ht
        exact ⟨s, List.mem_cons_self, hct.head hc⟩
      · obtain ⟨c, hc, hct⟩ := ihbeside t ht
        exact ⟨c, List.mem_cons_of_mem _ hc, hct⟩

/-- A slot that leads nowhere is found by itself. -/
theorem visit_leaf {s : Slot} (hs : s ∉ seen) (hleaf : next s = [])
    (h : Search next (s :: seen) todo found) : Search next seen (s :: todo) (s :: found) := by
  have hbelow : Search next (s :: seen) (next s) [] := by
    rw [hleaf]
    exact .nil
  exact .visit hs hbelow h

/-- A search finds one list of slots only. -/
theorem unique {found' : List Slot} (h : Search next seen todo found)
    (h' : Search next seen todo found') : found = found' := by
  induction h generalizing found' with
  | nil =>
    cases h'
    rfl
  | again hs h ih =>
    cases h' with
    | again hs' h' => exact ih h'
    | visit hs' hbelow' hbeside' => exact absurd hs hs'
  | visit hs hbelow hbeside ihbelow ihbeside =>
    cases h' with
    | again hs' h' => exact absurd hs' hs
    | visit hs' hbelow' hbeside' =>
      obtain rfl := ihbelow hbelow'
      rw [ihbeside hbeside']

/-- A search through a renamed graph finds the renamed slots in the same order. -/
theorem map {next' : Slot → List Slot} {f : Slot → Slot} (hf : Function.Injective f)
    (hnext : ∀ s, next' (f s) = (next s).map f) (h : Search next seen todo found) :
    Search next' (seen.map f) (todo.map f) (found.map f) := by
  induction h with
  | nil => exact .nil
  | again hs h ih => exact .again (List.mem_map_of_mem hs) ih
  | visit hs hbelow hbeside ihbelow ihbeside =>
    rw [← hnext] at ihbelow
    rw [List.map_append] at ihbeside
    rw [List.map_cons, List.map_cons, List.map_append]
    exact .visit (fun hmem => hs ((List.mem_map_of_injective hf).1 hmem)) ihbelow ihbeside

/-- A search that begins beside a slot finds what can be reached, apart from that slot. -/
theorem mem_iff {s t : Slot} (h : Search next [s] todo found) (hs : ∀ u ∈ next s, u ∈ todo) :
    t ∈ found ↔
      t ≠ s ∧ ∃ c ∈ todo, Relation.ReflTransGen (fun a b => b ∈ next a) c t := by
  constructor
  · intro ht
    exact ⟨fun hts => h.not_mem_seen t ht (List.mem_singleton.2 hts), h.reached t ht⟩
  · rintro ⟨hts, c, hc, hct⟩
    -- the slot itself and what is found are closed under the steps of the search
    have hall : t ∈ [s] ∨ t ∈ found := by
      induction hct with
      | refl => exact h.mem_of_mem_todo c hc
      | @tail a b hca hab ih =>
        by_cases has : a = s
        · subst has
          exact h.mem_of_mem_todo b (hs b hab)
        · exact h.closed a ((ih has).resolve_left fun hmem => has (List.mem_singleton.1 hmem)) b hab
    exact hall.resolve_left fun hmem => hts (List.mem_singleton.1 hmem)

end Search

/-! ### Walks are searches -/

section Walk

variable {size : Nat} {next : Slot → List Slot}

theorem unseen_le_of_subset {seen seen' : List Slot} (h : ∀ t ∈ seen, t ∈ seen') :
    unseen size seen' ≤ unseen size seen := by
  refine List.countP_mono_left fun t _ ht => ?_
  simp only [decide_eq_true_eq] at ht ⊢
  exact fun hmem => ht (h t hmem)

/-- A search ends, if only slots below a bound lead on. -/
theorem exists_search (hnext : ∀ s, size ≤ s → next s = []) :
    ∀ seen todo : List Slot, ∃ found, Search next seen todo found
  | _, [] => ⟨[], .nil⟩
  | seen, s :: todo => by
    by_cases hs : s ∈ seen
    · obtain ⟨found, h⟩ := exists_search hnext seen todo
      exact ⟨found, .again hs h⟩
    · have hbelow : ∃ below, Search next (s :: seen) (next s) below := by
        by_cases hlt : s < size
        · have hless := unseen_cons_lt hs hlt
          exact exists_search hnext (s :: seen) (next s)
        · rw [hnext s (Nat.le_of_not_lt hlt)]
          exact ⟨[], .nil⟩
      obtain ⟨below, hbelow⟩ := hbelow
      have hle : unseen size (below ++ s :: seen) ≤ unseen size seen :=
        unseen_le_of_subset fun t ht => List.mem_append_right _ (List.mem_cons_of_mem _ ht)
      obtain ⟨beside, hbeside⟩ := exists_search hnext (below ++ s :: seen) todo
      exact ⟨s :: (below ++ beside), .visit hs hbelow hbeside⟩
termination_by seen todo => (unseen size seen, todo.length)
decreasing_by
  · exact Prod.Lex.right _ (Nat.lt_succ_self _)
  · exact Prod.Lex.left _ _ hless
  · rcases Nat.lt_or_eq_of_le hle with h | h
    · exact Prod.Lex.left _ _ h
    · rw [h]
      exact Prod.Lex.right _ (Nat.lt_succ_self _)

/-- A walk does not depend on the order in which slots were seen. -/
theorem walk_congr {seen seen' stack : List Slot} (h : ∀ t, t ∈ seen ↔ t ∈ seen') :
    walk size next seen stack = walk size next seen' stack := by
  have hcons : ∀ {l l' : List Slot}, (∀ t, t ∈ l ↔ t ∈ l') → ∀ s t, t ∈ s :: l ↔ t ∈ s :: l' := by
    intro l l' hl s t
    rw [List.mem_cons, List.mem_cons, hl]
  fun_induction walk size next seen stack generalizing seen' with
  | case1 seen => rw [walk]
  | case2 seen s rest hs ih =>
    rw [ih h, walk.eq_2 (s := s), if_pos ((h s).1 hs)]
  | case3 seen s rest hs hlt ih =>
    rw [walk.eq_2 (s := s), if_neg fun hs' => hs ((h s).2 hs'), if_pos hlt, ih (hcons h s)]
  | case4 seen s rest hs hlt ih =>
    rw [walk.eq_2 (s := s), if_neg fun hs' => hs ((h s).2 hs'), if_neg hlt, ih (hcons h s)]

theorem walk_cons_of_mem {seen rest : List Slot} {s : Slot} (hs : s ∈ seen) :
    walk size next seen (s :: rest) = walk size next seen rest := by
  rw [walk, if_pos hs]

/-- A slot that is not seen is found, and what comes next to it goes on top. -/
theorem walk_cons_of_not_mem (hnext : ∀ s, size ≤ s → next s = []) {seen rest : List Slot} {s : Slot}
    (hs : s ∉ seen) :
    walk size next seen (s :: rest) = s :: walk size next (s :: seen) (next s ++ rest) := by
  by_cases hlt : s < size
  · rw [walk, if_neg hs, if_pos hlt]
  · rw [walk, if_neg hs, if_neg hlt, hnext s (Nat.le_of_not_lt hlt), List.nil_append]

/-- A walk finds what a search finds before it goes on with the rest of the stack. -/
theorem walk_append (hnext : ∀ s, size ≤ s → next s = []) {seen todo found : List Slot}
    (h : Search next seen todo found) (rest : List Slot) :
    walk size next seen (todo ++ rest) = found ++ walk size next (found ++ seen) rest := by
  induction h generalizing rest with
  | nil => rfl
  | again hs h ih =>
    rw [List.cons_append, walk_cons_of_mem hs, ih]
  | @visit seen todo below beside s hs hbelow hbeside ihbelow ihbeside =>
    have hseen : ∀ t, t ∈ beside ++ (below ++ s :: seen) ↔ t ∈ s :: (below ++ beside) ++ seen := by
      intro t
      simp only [List.mem_append, List.mem_cons]
      grind
    calc walk size next seen (s :: todo ++ rest)
        = s :: (below ++ (beside ++ walk size next (beside ++ (below ++ s :: seen)) rest)) := by
          rw [List.cons_append, walk_cons_of_not_mem hnext hs, ihbelow, ihbeside]
      _ = s :: (below ++ beside) ++ walk size next (s :: (below ++ beside) ++ seen) rest := by
          rw [← List.append_assoc, walk_congr hseen]
          rfl

/-- **A walk is a search.** -/
theorem search_walk (hnext : ∀ s, size ≤ s → next s = []) (seen stack : List Slot) :
    Search next seen stack (walk size next seen stack) := by
  obtain ⟨found, h⟩ := exists_search hnext seen stack
  have hwalk := walk_append hnext h []
  have hnil : walk size next (found ++ seen) [] = [] := by rw [walk]
  rw [List.append_nil, hnil, List.append_nil] at hwalk
  rwa [hwalk]

end Walk

/-! ### Program graphs -/

namespace Graph

variable {g : Graph} {s t b : Slot}

theorem node?_eq_none (h : g.size ≤ s) : g.node? s = none :=
  Array.getElem?_eq_none h

theorem lt_size_of_node? {n : Node} (h : g.node? s = some n) : s < g.size :=
  (Array.getElem?_eq_some_iff.1 h).1

theorem isBlock_iff : g.isBlock s ↔ ∃ n, g.node? s = some n ∧ n.kind = .block := by
  rw [isBlock, kind?, beq_iff_eq, Option.map_eq_some_iff]

/-- Slots that are no slots of the graph have no children. -/
theorem children_eq_nil (h : g.size ≤ s) : g.children s = [] := by
  unfold children
  rw [node?_eq_none h]

/-- The children of a slot that is no block. -/
def inner (g : Graph) (s : Slot) : List Slot :=
  if g.isBlock s then [] else g.children s

theorem inner_eq_nil (h : g.size ≤ s) : g.inner s = [] := by
  unfold inner
  rw [children_eq_nil h, ite_self]

theorem mem_inner : t ∈ g.inner s ↔ ¬ g.isBlock s ∧ t ∈ g.children s := by
  unfold inner
  split
  · rename_i hs
    simp [hs]
  · rename_i hs
    simp [hs]

theorem search_descendants (g : Graph) (s : Slot) :
    Search g.children [s] (g.children s) (g.descendants s) :=
  search_walk (fun _ => children_eq_nil) _ _

theorem search_members (g : Graph) (b : Slot) :
    Search g.inner [b] (g.children b) (g.members b) :=
  search_walk (fun _ => inner_eq_nil) _ _

/-- Whether one slot is below another: a child, or a child of one that is. -/
def Below (g : Graph) (s t : Slot) : Prop :=
  Relation.TransGen (fun a b => b ∈ g.children a) s t

/-- The descendants of a slot are the slots below it, without itself. -/
theorem mem_descendants : t ∈ g.descendants s ↔ g.Below s t ∧ t ≠ s := by
  rw [(search_descendants g s).mem_iff fun _ hu => hu, Below, Relation.TransGen.head'_iff, and_comm]

theorem mem_blocks : b ∈ g.blocks s ↔ g.Below s b ∧ b ≠ s ∧ g.isBlock b := by
  rw [blocks, List.mem_filter, mem_descendants, and_assoc]

/-- Whether a slot is below another without a block between them. -/
inductive Within (g : Graph) (b : Slot) : Slot → Prop
  | child {t : Slot} (h : t ∈ g.children b) : Within g b t
  | step {t u : Slot} (h : Within g b t) (ht : ¬ g.isBlock t) (hu : u ∈ g.children t) : Within g b u

theorem within_iff : g.Within b t ↔
    ∃ c ∈ g.children b, Relation.ReflTransGen (fun a u => u ∈ g.inner a) c t := by
  constructor
  · intro h
    induction h with
    | child h => exact ⟨_, h, .refl⟩
    | step h ht hu ih =>
      obtain ⟨c, hc, hct⟩ := ih
      exact ⟨c, hc, hct.tail (mem_inner.2 ⟨ht, hu⟩)⟩
  · rintro ⟨c, hc, hct⟩
    induction hct with
    | refl => exact .child hc
    | tail _ hu ih =>
      obtain ⟨ht, hu⟩ := mem_inner.1 hu
      exact .step ih ht hu

/-- The members of a block are the slots in it and in no nested one, without itself. -/
theorem mem_members : t ∈ g.members b ↔ g.Within b t ∧ t ≠ b := by
  rw [(search_members g b).mem_iff fun _ hu => (mem_inner.1 hu).2, within_iff, and_comm]

end Graph

end CodeGraph
