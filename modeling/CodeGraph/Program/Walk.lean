import CodeGraph.Program.Graph

/-!
# Walks over program graphs

The targets of containment relationships are the *children* of a node. A graph need not be a tree:
children may be shared, repeated, missing or ancestors, so a walk remembers the slots that it has
seen.

* `Graph.children`: the children in the order of the kind's relationships;
* `walk`: the slots reached from a stack, each once, in pre-order;
* `Graph.descendants`: all slots below a slot;
* `Graph.members`: the slots below a block that are not below a nested one;
* `Graph.blocks`: the blocks below a slot.
-/

namespace CodeGraph

/-- The number of slots below `size` that are not yet seen. -/
def unseen (size : Nat) (seen : List Slot) : Nat :=
  (List.range size).countP fun t => t ∉ seen

theorem unseen_cons_le (size : Nat) (s : Slot) (seen : List Slot) :
    unseen size (s :: seen) ≤ unseen size seen := by
  refine List.countP_mono_left fun t _ h => ?_
  simp only [List.mem_cons, not_or, decide_eq_true_eq] at h ⊢
  exact h.2

theorem countP_lt_countP {p q : Nat → Bool} {s : Nat} (hp : p s = false) (hq : q s = true)
    (hpq : ∀ t, p t = true → q t = true) :
    ∀ {l : List Nat}, s ∈ l → l.countP p < l.countP q
  | t :: l, hs => by
    have hle : l.countP p ≤ l.countP q := List.countP_mono_left fun t _ h => hpq t h
    rw [List.countP_cons, List.countP_cons]
    by_cases hst : s = t
    · subst hst
      simp only [hp, hq, if_true]
      simp
      omega
    · have hlt := countP_lt_countP hp hq hpq ((List.mem_cons.1 hs).resolve_left hst)
      have : (if p t = true then 1 else 0) ≤ if q t = true then 1 else 0 := by
        by_cases hpt : p t = true
        · simp [hpt, hpq t hpt]
        · simp [hpt]
      omega

theorem unseen_cons_lt {size : Nat} {s : Slot} {seen : List Slot} (hs : s ∉ seen)
    (hlt : s < size) : unseen size (s :: seen) < unseen size seen :=
  countP_lt_countP (s := s) (by simp) (by simpa using hs)
    (fun t h => by simp only [List.mem_cons, not_or, decide_eq_true_eq] at h ⊢; exact h.2)
    (List.mem_range.2 hlt)

/-- The slots reached from a stack of slots, where `next` gives the slots below one and only the
slots below `size` have any. A slot is listed when it is first taken from the stack; the slots below
it go on top. -/
def walk (size : Nat) (next : Slot → List Slot) (seen stack : List Slot) : List Slot :=
  match stack with
  | [] => []
  | s :: rest =>
    if s ∈ seen then walk size next seen rest
    else if s < size then s :: walk size next (s :: seen) (next s ++ rest)
    else s :: walk size next (s :: seen) rest
termination_by (unseen size seen, stack.length)
decreasing_by
  · exact Prod.Lex.right _ (Nat.lt_succ_self _)
  · rename_i hseen hlt
    exact Prod.Lex.left _ _ (unseen_cons_lt hseen hlt)
  · rcases Nat.lt_or_eq_of_le (unseen_cons_le size s seen) with h | h
    · exact Prod.Lex.left _ _ h
    · rw [h]
      exact Prod.Lex.right _ (Nat.lt_succ_self _)

namespace Graph

/-- The children of a slot in the order of its kind's relationships. -/
def children (g : Graph) (s : Slot) : List Slot :=
  match g.node? s with
  | none => []
  | some n => (n.kind.relationships.filter Relationship.contains).flatMap fun r => n.targets r.name

/-- Whether the node of a slot is a block. -/
def isBlock (g : Graph) (s : Slot) : Bool :=
  g.kind? s == some .block

/-- The slots below a slot, without the slot itself. -/
def descendants (g : Graph) (s : Slot) : List Slot :=
  walk g.size g.children [s] (g.children s)

/-- The slots below a block whose nearest block above is this one. Nested blocks are listed, but not
entered. -/
def members (g : Graph) (block : Slot) : List Slot :=
  walk g.size (fun s => if g.isBlock s then [] else g.children s) [block] (g.children block)

/-- The blocks below a slot. -/
def blocks (g : Graph) (s : Slot) : List Slot :=
  (g.descendants s).filter g.isBlock

end Graph

end CodeGraph
