import CodeGraph.Proofs.Program.Preorder
import Mathlib.Data.List.Chain

/-!
# Which block a slot is in

The members of a block are found by a walk that lists nested blocks and does not enter them. So a
slot is a member of the blocks that are nearest above it: those from which a path of containment
leads to it without passing through another block. In a tree this is one block.

* `Graph.IsOpenPath`, `Graph.within_iff_exists_path`: paths that pass through no block;
* `Graph.Encloses`, `Graph.reflTransGen_encloses_of_below`: from block to block down to a slot;
* `Graph.mem_descendants_iff_member`: what is below a block is a member of it or of a nested one;
* `Graph.HoldsOnce`, `Graph.holdsOnce_iff_nodup`: graphs in which every slot is a child once;
* `Graph.Within.unique`: in such a graph only one block is nearest;
* `Graph.IsMembership`, `Graph.membership_members`: all of this about the members of a block.
-/

namespace CodeGraph.Graph

variable {g : Graph} {b b' s t : Slot}

/-! ### Paths -/

/-- Whether some slots lead by steps of containment from one slot to another, and none of them is a
block. -/
def IsOpenPath (g : Graph) (s : Slot) (between : List Slot) (t : Slot) : Prop :=
  (s :: (between ++ [t])).IsChain g.Contains ∧ ∀ u ∈ between, ¬ g.isBlock u

theorem isOpenPath_nil : g.IsOpenPath s [] t ↔ g.Contains s t := by
  simp [IsOpenPath]

/-- A path goes on from its last slot, if that one is no block. -/
theorem isOpenPath_append {between : List Slot} {u : Slot} :
    g.IsOpenPath s (between ++ [u]) t ↔
      g.IsOpenPath s between u ∧ ¬ g.isBlock u ∧ g.Contains u t := by
  have hchain : (s :: (between ++ [u] ++ [t])).IsChain g.Contains ↔
      (s :: (between ++ [u])).IsChain g.Contains ∧ g.Contains u t := by
    rw [List.append_assoc, List.singleton_append, ← List.cons_append,
      List.isChain_append_cons_cons, List.cons_append, and_iff_left (List.isChain_singleton t)]
  simp only [IsOpenPath, hchain, List.forall_mem_append, List.forall_mem_singleton]
  tauto

theorem within_iff_exists_path : g.Within b t ↔ ∃ between, g.IsOpenPath b between t := by
  constructor
  · intro h
    induction h with
    | child h => exact ⟨[], isOpenPath_nil.2 (mem_children.1 h)⟩
    | @step t u h ht hu ih =>
      obtain ⟨between, hpath⟩ := ih
      exact ⟨between ++ [t], isOpenPath_append.2 ⟨hpath, ht, mem_children.1 hu⟩⟩
  · rintro ⟨between, hpath⟩
    -- a path grows at its end
    induction between using List.reverseRecOn generalizing t with
    | nil => exact .child (mem_children.2 (isOpenPath_nil.1 hpath))
    | append_singleton between u ih =>
      obtain ⟨hpath, hu, ht⟩ := isOpenPath_append.1 hpath
      exact .step (ih hpath) hu (mem_children.2 ht)

theorem below_of_within (h : g.Within b t) : g.Below b t := by
  induction h with
  | child h => exact .single h
  | step _ _ hu ih => exact ih.tail hu

/-! ### From block to block -/

/-- Whether a slot is a member of a block. -/
def Encloses (g : Graph) (b t : Slot) : Prop :=
  g.isBlock b ∧ t ∈ g.members b

theorem Encloses.below (h : g.Encloses b t) : g.Below b t :=
  below_of_within (mem_members.1 h.2).1

/-- A child of a slot that is reached from block to block is reached in this way too. The walk through
a block may come back to it: then it was reached before. -/
theorem reflTransGen_encloses_child (hb : g.isBlock b)
    (h : Relation.ReflTransGen g.Encloses b t) (hs : s ∈ g.children t) :
    Relation.ReflTransGen g.Encloses b s := by
  -- from the block that is nearest above the child
  have hnearest : ∀ {b'}, g.isBlock b' → Relation.ReflTransGen g.Encloses b b' →
      g.Within b' s → Relation.ReflTransGen g.Encloses b s := by
    intro b' hb' hreached hwithin
    by_cases hs : s = b'
    · rwa [hs]
    · exact hreached.tail ⟨hb', mem_members.2 ⟨hwithin, hs⟩⟩
  by_cases ht : g.isBlock t
  · exact hnearest ht h (.child hs)
  · cases h with
    | refl => exact absurd hb ht
    | tail hreached hlast =>
      exact hnearest hlast.1 hreached (.step (mem_members.1 hlast.2).1 ht hs)

/-- What is below a block is reached from block to block. -/
theorem reflTransGen_encloses_of_below (hb : g.isBlock b) (h : g.Below b t) :
    Relation.ReflTransGen g.Encloses b t := by
  induction h with
  | single h => exact reflTransGen_encloses_child hb .refl h
  | tail _ hchild ih => exact reflTransGen_encloses_child hb ih hchild

theorem below_of_reflTransGen_encloses (h : Relation.ReflTransGen g.Encloses b t) :
    t = b ∨ g.Below b t := by
  induction h with
  | refl => exact .inl rfl
  | tail _ hlast ih =>
    rcases ih with rfl | hbelow
    · exact .inr hlast.below
    · exact .inr (hbelow.trans hlast.below)

/-- What is below a block is a member of it or of a block below it. -/
theorem mem_descendants_iff_member (hb : g.isBlock b) :
    t ∈ g.descendants b ↔
      t ≠ b ∧ (t ∈ g.members b ∨ ∃ b' ∈ g.blocks b, t ∈ g.members b') := by
  rw [mem_descendants, and_comm]
  refine and_congr_right fun htb => ⟨fun h => ?_, ?_⟩
  · cases reflTransGen_encloses_of_below hb h with
    | refl => exact absurd rfl htb
    | @tail b' _ hreached hlast =>
      by_cases hb' : b' = b
      · exact .inl (hb' ▸ hlast.2)
      · have hbelow := (below_of_reflTransGen_encloses hreached).resolve_left hb'
        exact .inr ⟨b', mem_blocks.2 ⟨hbelow, hb', hlast.1⟩, hlast.2⟩
  · rintro (h | ⟨b', hb', h⟩)
    · exact below_of_within (mem_members.1 h).1
    · exact (mem_blocks.1 hb').1.trans (below_of_within (mem_members.1 h).1)

/-! ### Slots that are a child once -/

/-- Whether every slot is held as a child at one place at most. -/
def HoldsOnce (g : Graph) : Prop :=
  ∀ t p q, g.HoldsChild p t → g.HoldsChild q t → p = q

/-- The places of a graph under containment relationships, with what is held there. -/
def placedInside (g : Graph) : List (Place × Slot × Dict Json) :=
  (List.range g.size).flatMap g.placedBelow

theorem mem_placedInside {p : Place} {e : Slot × Dict Json} :
    (p, e) ∈ g.placedInside ↔ g.IsContainment p ∧ g.Holds p e := by
  simp only [placedInside, List.mem_flatMap, List.mem_range, mem_placedBelow]
  constructor
  · rintro ⟨s, -, -, h⟩
    exact h
  · rintro ⟨⟨n, r, hn, hr⟩, he⟩
    exact ⟨p.slot, lt_size_of_node? hn, rfl, ⟨n, r, hn, hr⟩, he⟩

theorem nodup_placedInside (g : Graph) : g.placedInside.Nodup := by
  refine List.pairwise_flatMap.2 ⟨fun s _ => ?_, ?_⟩
  · refine (g.pairwise_placed.sublist (g.placedBelow_sublist s)).imp fun hbefore heq => ?_
    subst heq
    exact hbefore.not_before hbefore
  · refine List.pairwise_lt_range.imp fun hlt x hx y hy heq => ?_
    subst heq
    exact Nat.ne_of_lt hlt ((mem_placedBelow.1 hx).1.symm.trans (mem_placedBelow.1 hy).1)

/-- This is the case if no slot is repeated in the lists of all children. -/
theorem holdsOnce_iff_nodup : g.HoldsOnce ↔ ((List.range g.size).flatMap g.children).Nodup := by
  have hchildren : (List.range g.size).flatMap g.children =
      g.placedInside.map (fun x => x.2.1) := by
    simp only [placedInside, List.map_flatMap, map_placedBelow]
  rw [hchildren, List.nodup_map_iff_inj_on g.nodup_placedInside]
  constructor
  · rintro h ⟨p, t, properties⟩ hp ⟨q, u, properties'⟩ hq (rfl : t = u)
    obtain ⟨hcontainment, hheld⟩ := mem_placedInside.1 hp
    obtain ⟨hcontainment', hheld'⟩ := mem_placedInside.1 hq
    obtain rfl := h t p q ⟨hcontainment, _, hheld⟩ ⟨hcontainment', _, hheld'⟩
    rw [Holds.unique hheld hheld']
  · rintro h t p q ⟨hcontainment, properties, hheld⟩ ⟨hcontainment', properties', hheld'⟩
    exact congrArg Prod.fst (h _ (mem_placedInside.2 ⟨hcontainment, hheld⟩) _
      (mem_placedInside.2 ⟨hcontainment', hheld'⟩) rfl)

theorem HoldsOnce.parent_unique (h : g.HoldsOnce) (hs : s ∈ g.children b) (hs' : s ∈ g.children b') :
    b = b' := by
  obtain ⟨p, rfl, hp⟩ := mem_children.1 hs
  obtain ⟨q, rfl, hq⟩ := mem_children.1 hs'
  rw [h s p q hp hq]

/-- Only one block is nearest above a slot. -/
theorem Within.unique (h : g.HoldsOnce) (hb : g.isBlock b) (hb' : g.isBlock b')
    (ht : g.Within b t) (ht' : g.Within b' t) : b = b' := by
  induction ht with
  | child hchild =>
    cases ht' with
    | child hchild' => exact h.parent_unique hchild hchild'
    | step _ hu hchild' => exact absurd (h.parent_unique hchild hchild' ▸ hb) hu
  | step _ hu hchild ih =>
    cases ht' with
    | child hchild' => exact absurd (h.parent_unique hchild' hchild ▸ hb') hu
    | step hwithin' _ hchild' => exact ih (h.parent_unique hchild' hchild ▸ hwithin')

/-! ### The members of a block -/

/-- Whether some slots are the members of a block. -/
structure IsMembership (g : Graph) (b : Slot) (members : List Slot) : Prop where
  /-- The walk ends when it has taken one turn for every slot that comes on the stack. -/
  ends : ∃ seen, (Walker.turn g.inner)^[turns g.inner (g.children b) members]
    ⟨[b], g.children b, []⟩ = ⟨seen, [], members⟩
  mem (t : Slot) : t ∈ members ↔ t ≠ b ∧ ∃ between, g.IsOpenPath b between t
  nodup : members.Nodup

/-- **A slot is a member of the blocks that are nearest above it.** Whatever the graph, the members of
a block are the slots that a path leads to from there without passing through a block, apart from the
block itself and each once. What is below the block is a member of it or of a block below it. If every
slot is held as a child at one place at most, two blocks have no members in common. -/
theorem membership_members (hb : g.isBlock b) :
    g.IsMembership b (g.members b) ∧
      (∀ t, t ∈ g.descendants b ↔
        t ≠ b ∧ (t ∈ g.members b ∨ ∃ b' ∈ g.blocks b, t ∈ g.members b')) ∧
      (g.HoldsOnce → ∀ b', g.isBlock b' → b' ≠ b → ∀ t ∈ g.members b, t ∉ g.members b') := by
  have hsearch := g.search_members b
  refine ⟨?_, fun t => mem_descendants_iff_member hb, ?_⟩
  · constructor
    case ends =>
      obtain ⟨seen, hturns, -⟩ := exists_iterate_turn hsearch (fun _ => Iff.rfl) [] []
      rw [List.append_nil] at hturns
      exact ⟨seen, hturns⟩
    case mem => exact fun t => by rw [mem_members, within_iff_exists_path, and_comm]
    case nodup => exact hsearch.nodup
  · intro honce b' hb' hne t ht ht'
    exact hne (Within.unique honce hb' hb (mem_members.1 ht').1 (mem_members.1 ht).1)

/-- A block in a block. The inner one holds the outer one again. -/
def nested : Graph :=
  ⟨#[(Node.bare 0 .block).withRelationship "STATEMENTS" (.edges [⟨1, .empty⟩, ⟨2, .empty⟩]),
    .bare 1 .literal,
    (Node.bare 2 .block).withRelationship "STATEMENTS" (.edges [⟨3, .empty⟩, ⟨0, .empty⟩]),
    (Node.bare 3 .declarationStatement).withRelationship "DECLARATIONS" (.edges [⟨4, .empty⟩]),
    .bare 4 .variableDeclaration]⟩

theorem membership_members_nested :
    nested.isBlock 0 ∧ nested.isBlock 2 ∧ nested.HoldsOnce ∧ 4 ∈ nested.members 2 ∧
      4 ∈ nested.descendants 0 ∧ 4 ∉ nested.members 0 ∧
      nested.IsMembership 0 (nested.members 0) := by
  have hchildren : nested.isBlock 0 ∧ nested.isBlock 2 ∧ ¬ nested.isBlock 3 ∧
      2 ∈ nested.children 0 ∧ 3 ∈ nested.children 2 ∧ 4 ∈ nested.children 3 ∧
      ((List.range nested.size).flatMap nested.children).Nodup := by decide +kernel
  obtain ⟨hzero, htwo, hthree, hinner, hstatement, hdeclared, hnodup⟩ := hchildren
  have honce : nested.HoldsOnce := holdsOnce_iff_nodup.2 hnodup
  obtain ⟨hmembers, hcover, hdisjoint⟩ := membership_members hzero
  have hfour : 4 ∈ nested.members 2 := by
    refine ((membership_members htwo).1.mem 4).2 ⟨by decide, [3], ?_⟩
    exact isOpenPath_append.2 ⟨isOpenPath_nil.2 (mem_children.1 hstatement), hthree,
      mem_children.1 hdeclared⟩
  have hblock : 2 ∈ nested.blocks 0 := mem_blocks.2 ⟨.single hinner, by decide, htwo⟩
  exact ⟨hzero, htwo, honce, hfour, (hcover 4).2 ⟨by decide, .inr ⟨2, hblock, hfour⟩⟩,
    fun h => hdisjoint honce 2 htwo (by decide) 4 h hfour, hmembers⟩

end CodeGraph.Graph
