import CodeGraph.Proofs.Result.Occurrence
import Mathlib.Data.List.Nodup

/-!
# What is seen first

A drawing shows every number once, as it is first seen, and names are listed in the same way.

* `firsts`: the items of a list that are the first ones with their keys;
* `mem_firsts`, `nodup_map_firsts`, `exists_mem_firsts`, `firsts_append`, `mem_firsts_flatMap`: such
  items, and their keys;
* `eraseDups_eq_firsts`: items that are their own keys;
* `pushNew`, `toList_foldl_pushNew`: a list that grows by items with new keys;
* `Drawing.toList_nodes_ofRows`, `Drawing.toList_edges_ofRows`: the nodes and edges of a drawing.
-/

namespace CodeGraph

section Firsts

variable {α κ : Type} [DecidableEq κ] {key : α → κ} {l : List α} {a : α}

/-- The items of a list whose keys no item before them has. -/
def firsts (key : α → κ) : List α → List α
  | [] => []
  | a :: l => a :: (firsts key l).filter (key · ≠ key a)

theorem mem_firsts : a ∈ firsts key l ↔
    ∃ before after, l = before ++ a :: after ∧ ∀ b ∈ before, key b ≠ key a := by
  induction l with
  | nil => simp [firsts]
  | cons c l ih =>
    rw [firsts, List.mem_cons, List.mem_filter, ih, decide_eq_true_eq]
    constructor
    · rintro (rfl | ⟨⟨before, after, rfl, hbefore⟩, hne⟩)
      · exact ⟨[], l, rfl, by simp⟩
      · exact ⟨c :: before, after, rfl, List.forall_mem_cons.2 ⟨hne.symm, hbefore⟩⟩
    · rintro ⟨_ | ⟨d, before⟩, after, hl, hbefore⟩
      · obtain ⟨rfl, -⟩ := List.cons.inj hl
        exact .inl rfl
      · obtain ⟨rfl, rfl⟩ := List.cons.inj hl
        obtain ⟨hne, hbefore⟩ := List.forall_mem_cons.1 hbefore
        exact .inr ⟨⟨before, after, rfl, hbefore⟩, hne.symm⟩

/-- No key is seen first twice. -/
theorem nodup_map_firsts (key : α → κ) (l : List α) : ((firsts key l).map key).Nodup := by
  induction l with
  | nil => exact List.nodup_nil
  | cons a l ih =>
    rw [firsts, List.map_cons, List.nodup_cons]
    refine ⟨fun h => ?_, ih.sublist (List.filter_sublist.map key)⟩
    obtain ⟨b, hb, hkey⟩ := List.mem_map.1 h
    exact of_decide_eq_true (List.mem_filter.1 hb).2 hkey

/-- It makes no difference whether items are left out before or after, as long as all with the same
key are. -/
theorem filter_firsts (p : κ → Bool) (l : List α) :
    (firsts key l).filter (p ∘ key) = firsts key (l.filter (p ∘ key)) := by
  induction l with
  | nil => rfl
  | cons a l ih =>
    by_cases ha : (p ∘ key) a = true
    · rw [firsts, List.filter_cons_of_pos ha, List.filter_cons_of_pos ha, firsts, ← ih,
        List.filter_filter, List.filter_filter]
      simp only [Bool.and_comm]
    · rw [firsts, List.filter_cons_of_neg ha, List.filter_cons_of_neg ha, ← ih, List.filter_filter]
      refine List.filter_congr fun b _ => ?_
      by_cases hb : key b = key a
      · simp_all
      · simp [hb]

/-- To erase duplicates is to keep what is seen first. -/
theorem eraseDups_eq_firsts (l : List κ) : l.eraseDups = firsts id l := by
  match l with
  | [] => rfl
  | a :: l =>
    have hfilter : l.filter (fun b => !b == a) = l.filter ((fun k => decide (k ≠ a)) ∘ id) :=
      List.filter_congr fun b _ => by simp [beq_eq_decide]
    have hlt := List.length_filter_le ((fun k => decide (k ≠ a)) ∘ id) l
    rw [List.eraseDups_cons, hfilter, eraseDups_eq_firsts, ← filter_firsts, firsts]
    rfl
termination_by l.length
decreasing_by
  simp only [List.length_cons]
  omega

/-- Keys are kept when items are replaced. -/
theorem firsts_map {β : Type} (f : β → α) (l : List β) :
    firsts key (l.map f) = (firsts (key ∘ f) l).map f := by
  induction l with
  | nil => rfl
  | cons b l ih =>
    rw [List.map_cons, firsts, ih, List.filter_map, firsts, List.map_cons]
    rfl

theorem firsts_sublist (key : α → κ) (l : List α) : (firsts key l).Sublist l := by
  induction l with
  | nil => exact .slnil
  | cons a l ih => exact (List.filter_sublist.trans ih).cons_cons a

/-- Every key is seen first once. -/
theorem exists_mem_firsts (key : α → κ) (ha : a ∈ l) : ∃ b ∈ firsts key l, key b = key a := by
  induction l with
  | nil => cases ha
  | cons c l ih =>
    by_cases hkey : key c = key a
    · exact ⟨c, List.mem_cons_self, hkey⟩
    · have hne : a ≠ c := fun h => hkey (h ▸ rfl)
      obtain ⟨b, hb, hba⟩ := ih ((List.mem_cons.1 ha).resolve_left hne)
      refine ⟨b, List.mem_cons_of_mem _ (List.mem_filter.2 ⟨hb, ?_⟩), hba⟩
      rw [decide_eq_true_eq, hba]
      exact Ne.symm hkey

theorem mem_firsts_id {l : List κ} {k : κ} : k ∈ firsts id l ↔ k ∈ l := by
  refine ⟨fun h => (firsts_sublist id l).subset h, fun h => ?_⟩
  obtain ⟨k', hk', rfl⟩ := exists_mem_firsts id h
  exact hk'

theorem nodup_firsts_id (l : List κ) : (firsts id l).Nodup := by
  simpa using nodup_map_firsts id l

/-- What comes later only adds to what is seen first. -/
theorem firsts_append (l l' : List α) :
    firsts key (l ++ l') = firsts key l ++ (firsts key l').filter (key · ∉ l.map key) := by
  induction l with
  | nil => simp [firsts]
  | cons a l ih =>
    rw [List.cons_append, firsts, ih, List.filter_append, List.filter_filter, firsts,
      List.cons_append]
    refine congrArg (fun later => a :: (_ ++ later)) (List.filter_congr fun b _ => ?_)
    simp only [List.map_cons, List.mem_cons, not_or, Bool.decide_and]

/-- What is seen first, where the items come in groups that are in order. -/
theorem mem_firsts_flatMap {ι : Type} {before : ι → ι → Prop}
    (hasymm : ∀ i j, before i j → ¬ before j i) {is : List ι} (his : is.Pairwise before)
    (f : ι → List α) :
    a ∈ firsts key (is.flatMap f) ↔
      ∃ i ∈ is, a ∈ firsts key (f i) ∧ ∀ j ∈ is, before j i → ∀ b ∈ f j, key b ≠ key a := by
  induction is with
  | nil => simp [firsts]
  | cons i is ih =>
    obtain ⟨hi, his⟩ := List.pairwise_cons.1 his
    rw [List.flatMap_cons, firsts_append, List.mem_append, List.mem_filter, ih his,
      decide_eq_true_eq]
    constructor
    · rintro (ha | ⟨⟨j, hj, ha, hbefore⟩, hnew⟩)
      · -- no group comes before the first one
        refine ⟨i, List.mem_cons_self, ha, fun j hj hji => ?_⟩
        rcases List.mem_cons.1 hj with rfl | hj
        · exact absurd hji (hasymm _ _ hji)
        · exact absurd hji (hasymm _ _ (hi j hj))
      · have hbeforei : ∀ b ∈ f i, key b ≠ key a := fun b hb hkey =>
          hnew (List.mem_map.2 ⟨b, hb, hkey⟩)
        exact ⟨j, List.mem_cons_of_mem _ hj, ha,
          List.forall_mem_cons.2 ⟨fun _ => hbeforei, hbefore⟩⟩
    · rintro ⟨j, hj, ha, hbefore⟩
      obtain ⟨hbeforei, hbefore⟩ := List.forall_mem_cons.1 hbefore
      rcases List.mem_cons.1 hj with rfl | hj
      · exact .inl ha
      · refine .inr ⟨⟨j, hj, ha, hbefore⟩, fun hmem => ?_⟩
        obtain ⟨b, hb, hkey⟩ := List.mem_map.1 hmem
        exact hbeforei (hi j hj) b hb hkey

end Firsts

/-! ### Lists that grow by what is new -/

section Push

variable {β κ : Type} [DecidableEq κ] {key : β → κ}

/-- Puts an item at the end, unless its key is there. -/
def pushNew (key : β → κ) (bs : Array β) (b : β) : Array β :=
  if bs.any (key · == key b) then bs else bs.push b

theorem toList_foldl_pushNew (l : List β) (bs : Array β) :
    (l.foldl (pushNew key) bs).toList =
      bs.toList ++ (firsts key l).filter ((fun k => !bs.any (key · == k)) ∘ key) := by
  induction l generalizing bs with
  | nil => simp [firsts]
  | cons b l ih =>
    rw [List.foldl_cons, ih, firsts]
    by_cases hb : bs.any (key · == key b)
    · rw [pushNew, if_pos hb, List.filter_cons_of_neg (by simpa using hb), List.filter_filter]
      refine congrArg (bs.toList ++ ·) (List.filter_congr fun c _ => ?_)
      by_cases hkey : key c = key b
      · simp_all
      · simp [hkey]
    · rw [pushNew, if_neg hb, List.filter_cons_of_pos (by simpa using hb), List.filter_filter,
        Array.toList_push, List.append_assoc, List.singleton_append]
      refine congrArg (bs.toList ++ b :: ·) (List.filter_congr fun c _ => ?_)
      by_cases hkey : key c = key b
      · simp [hkey]
      · simp [hkey, Ne.symm hkey]

end Push

namespace Drawing

theorem nodes_foldl_addNode (ns : List (StoreNode Cell)) (d : Drawing) :
    (ns.foldl addNode d).nodes = (ns.map StoreNode.drawn).foldl (pushNew DrawnNode.id) d.nodes := by
  induction ns generalizing d with
  | nil => rfl
  | cons n ns ih =>
    have hnode : (d.addNode n).nodes = pushNew DrawnNode.id d.nodes n.drawn :=
      apply_ite Drawing.nodes _ _ _
    rw [List.foldl_cons, ih, hnode, List.map_cons, List.foldl_cons]

theorem edges_foldl_addEdge (es : List (StoreEdge Cell)) (d : Drawing) :
    (es.foldl addEdge d).edges = (es.map StoreEdge.drawn).foldl (pushNew DrawnEdge.id) d.edges := by
  induction es generalizing d with
  | nil => rfl
  | cons e es ih =>
    have hedge : (d.addEdge e).edges = pushNew DrawnEdge.id d.edges e.drawn :=
      apply_ite Drawing.edges _ _ _
    rw [List.foldl_cons, ih, hedge, List.map_cons, List.foldl_cons]

theorem nodes_foldl_addEdge (es : List (StoreEdge Cell)) (d : Drawing) :
    (es.foldl addEdge d).nodes = d.nodes := by
  induction es generalizing d with
  | nil => rfl
  | cons e es ih =>
    rw [List.foldl_cons, ih]
    unfold addEdge
    split
    · rfl
    · rfl

/-- The nodes of a drawing are those that are first seen with their numbers. -/
theorem toList_nodes_ofRows (rows : List Row) :
    (ofRows rows).nodes.toList =
      (firsts StoreNode.id (rows.flatMap Cell.nodesAll)).map StoreNode.drawn := by
  rw [ofRows_eq, draw, nodes_foldl_addEdge, nodes_foldl_addNode, toList_foldl_pushNew, firsts_map]
  simp [Function.comp_def, StoreNode.drawn]

/-- The edges of a drawing are those that are first seen with their numbers. -/
theorem toList_edges_ofRows (rows : List Row) :
    (ofRows rows).edges.toList =
      (firsts StoreEdge.id (rows.flatMap Cell.edgesAll)).map StoreEdge.drawn := by
  rw [ofRows_eq, draw, edges_foldl_addEdge, edges_foldl_addNode, toList_foldl_pushNew, firsts_map]
  simp [Function.comp_def, StoreEdge.drawn]

end Drawing

end CodeGraph
