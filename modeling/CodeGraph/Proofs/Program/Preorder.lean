import CodeGraph.Proofs.Program.Walk
import CodeGraph.Proofs.Store.Place
import Mathlib.Data.List.Flatten
import Mathlib.Logic.Function.Iterate

/-!
# Walks below a slot

The slots below a slot are listed by a walk with a stack. Slots may stand on the stack more than
once, and a slot counts as seen only when it is taken from there. Even so the walk ends: a slot puts
others on the stack only once. It lists what a depth-first search finds, in the same order.

* `Walker`, `Walker.turn`: the state of a walk, and one turn of it;
* `exists_iterate_turn`: a search, turn by turn;
* `Graph.Contains`, `Graph.ListsChildren`: one step of containment, and the children of a slot in
  order, both read off the places of the graph, with `Graph.listsChildren_iff`;
* `Graph.depthFirst_descendants`: the slots below a slot, and the blocks among them.
-/

namespace CodeGraph

/-! ### Turn by turn -/

/-- The state of a walk. -/
structure Walker where
  seen : List Slot
  /-- The slots that are still to be taken, the next one first. -/
  stack : List Slot
  /-- The slots that are listed so far. -/
  listed : List Slot

/-- One turn of a walk takes a slot from the stack. If it was not seen before, it is listed, and the
slots next to it go on the stack in its place. -/
def Walker.turn (next : Slot → List Slot) (w : Walker) : Walker :=
  match w.stack with
  | [] => w
  | s :: stack =>
    if s ∈ w.seen then ⟨w.seen, stack, w.listed⟩
    else ⟨s :: w.seen, next s ++ stack, w.listed ++ [s]⟩

section Turn

variable {next : Slot → List Slot} {seen todo found rest listed : List Slot} {s : Slot}

theorem turn_of_mem (hs : s ∈ seen) :
    Walker.turn next ⟨seen, s :: rest, listed⟩ = ⟨seen, rest, listed⟩ :=
  if_pos hs

theorem turn_of_not_mem (hs : s ∉ seen) :
    Walker.turn next ⟨seen, s :: rest, listed⟩ = ⟨s :: seen, next s ++ rest, listed ++ [s]⟩ :=
  if_neg hs

/-- The number of slots that come on the stack in a search: those that it begins with, and those
next to the ones that it finds. -/
def turns (next : Slot → List Slot) (todo found : List Slot) : ℕ :=
  todo.length + (found.flatMap next).length

/-- A search is a walk that takes one turn for every slot that comes on the stack. What lies deeper
in the stack is left alone, and seen slots may be held in any order. -/
theorem exists_iterate_turn (h : Search next seen todo found) {seen' : List Slot}
    (hseen : ∀ t, t ∈ seen' ↔ t ∈ seen) (rest listed : List Slot) :
    ∃ seen'', (Walker.turn next)^[turns next todo found] ⟨seen', todo ++ rest, listed⟩ =
        ⟨seen'', rest, listed ++ found⟩ ∧
      ∀ t, t ∈ seen'' ↔ t ∈ found ++ seen := by
  induction h generalizing seen' rest listed with
  | nil => exact ⟨seen', by simp [turns], by simpa using hseen⟩
  | @again seen todo found s hs h ih =>
    obtain ⟨seen'', hturns, hmem⟩ := ih hseen rest listed
    refine ⟨seen'', ?_, hmem⟩
    have hcount : turns next (s :: todo) found = turns next todo found + 1 := by
      simp only [turns, List.length_cons]
      omega
    rw [hcount, Function.iterate_succ_apply, List.cons_append, turn_of_mem ((hseen s).2 hs), hturns]
  | @visit seen todo below beside s hs hbelow hbeside ihbelow ihbeside =>
    have hseen_s : ∀ t, t ∈ s :: seen' ↔ t ∈ s :: seen := by simp [hseen]
    obtain ⟨seen₁, hturns₁, hmem₁⟩ := ihbelow hseen_s (todo ++ rest) (listed ++ [s])
    obtain ⟨seen₂, hturns₂, hmem₂⟩ := ihbeside hmem₁ rest (listed ++ [s] ++ below)
    refine ⟨seen₂, ?_, fun t => ?_⟩
    · have hcount : turns next (s :: todo) (s :: (below ++ beside)) =
          turns next todo beside + (turns next (next s) below + 1) := by
        simp only [turns, List.length_cons, List.flatMap_cons, List.flatMap_append,
          List.length_append]
        omega
      rw [hcount, Function.iterate_add_apply, Function.iterate_succ_apply, List.cons_append,
        turn_of_not_mem fun hs' => hs ((hseen s).1 hs'), hturns₁, hturns₂]
      simp
    · rw [hmem₂]
      simp only [List.mem_append, List.mem_cons]
      tauto

end Turn

/-! ### Children in order -/

/-- What a node holds under one relationship, place by place. -/
theorem Node.map_placedUnder (n : Node) (s : Slot) (r : Relationship) :
    (n.placedUnder s r).map (fun x => x.2.1) = n.targets r.name := by
  unfold placedUnder targets
  cases n.relationships.get? r.name with
  | none => rfl
  | some ts =>
    refine List.ext_getElem? fun i => ?_
    simp only [Targets.slots, List.getElem?_map, List.getElem?_mapIdx, Option.map_map]
    rfl

namespace Graph

variable {g : Graph} {s t : Slot} {p : Place} {e : Slot × Dict Json} {l l' : List Slot}

/-- Whether a place is under a containment relationship that the kind of its node declares. -/
def IsContainment (g : Graph) (p : Place) : Prop :=
  ∃ n r, g.node? p.slot = some n ∧ r ∈ n.kind.relationships ∧ r.contains = true ∧ p.name = r.name

/-- Whether a slot is held at a place under a containment relationship. -/
def HoldsChild (g : Graph) (p : Place) (t : Slot) : Prop :=
  g.IsContainment p ∧ ∃ properties, g.Holds p (t, properties)

/-- One step of containment. -/
def Contains (g : Graph) (s t : Slot) : Prop :=
  ∃ p, p.slot = s ∧ g.HoldsChild p t

/-- Whether these are the children of a slot: what is held at its places under containment
relationships, in the order of the places. -/
def ListsChildren (g : Graph) (s : Slot) (children : List Slot) : Prop :=
  ∃ places, g.Lists (fun p => p.slot = s ∧ ∃ t, g.HoldsChild p t) places ∧
    List.Forall₂ g.HoldsChild places children

/-- Only one target is held at a place. -/
theorem Holds.unique {e' : Slot × Dict Json} (h : g.Holds p e) (h' : g.Holds p e') : e = e' := by
  obtain ⟨n, ts, hn, -, hts, he⟩ := h
  obtain ⟨n', ts', hn', -, hts', he'⟩ := h'
  obtain rfl : n = n' := Option.some.inj (hn.symm.trans hn')
  obtain rfl : ts = ts' := Option.some.inj (hts.symm.trans hts')
  exact Option.some.inj ((Targets.holds_iff.1 he).symm.trans (Targets.holds_iff.1 he'))

theorem rightUnique_holdsChild (g : Graph) : Relator.RightUnique g.HoldsChild := by
  rintro p t u ⟨-, _, ht⟩ ⟨-, _, hu⟩
  exact congrArg Prod.fst (Holds.unique ht hu)

/-- There is only one such list. -/
theorem ListsChildren.unique (h : g.ListsChildren s l) (h' : g.ListsChildren s l') : l = l' := by
  obtain ⟨places, hplaces, hl⟩ := h
  obtain ⟨places', hplaces', hl'⟩ := h'
  obtain rfl := hplaces.unique hplaces'
  exact g.rightUnique_holdsChild.forall₂ hl hl'

/-- The places of a slot under containment relationships, with what is held there. -/
def placedBelow (g : Graph) (s : Slot) : List (Place × Slot × Dict Json) :=
  match g.node? s with
  | none => []
  | some n => (n.kind.relationships.filter Relationship.contains).flatMap (n.placedUnder s)

theorem placedBelow_sublist (g : Graph) (s : Slot) : (g.placedBelow s).Sublist g.placed := by
  unfold placedBelow
  cases hn : g.node? s with
  | none => exact List.nil_sublist _
  | some n =>
    have hnode : (n.placed s).Sublist g.placed := by
      simpa [placed] using
        (List.singleton_sublist.2 (mem_slots.2 hn)).flatMap fun x => x.2.placed x.1
    exact (List.filter_sublist.flatMap (n.placedUnder s)).trans hnode

theorem mem_placedBelow :
    (p, e) ∈ g.placedBelow s ↔ p.slot = s ∧ g.IsContainment p ∧ g.Holds p e := by
  unfold placedBelow IsContainment Holds
  cases hn : g.node? s with
  | none =>
    refine iff_of_false List.not_mem_nil ?_
    rintro ⟨rfl, -, n, -, hn', -⟩
    simp [hn] at hn'
  | some n =>
    simp only [List.mem_flatMap, List.mem_filter, Node.mem_placedUnder]
    constructor
    · rintro ⟨r, ⟨hr, hcontains⟩, rfl, hname, ts, hts, he⟩
      exact ⟨rfl, ⟨n, r, hn, hr, hcontains, hname⟩, n, ts, hn, List.mem_map.2 ⟨r, hr, hname.symm⟩,
        hname ▸ hts, he⟩
    · rintro ⟨rfl, ⟨n₁, r, hn₁, hr, hcontains, hname⟩, n₂, ts, hn₂, -, hts, he⟩
      obtain rfl : n = n₁ := Option.some.inj (hn.symm.trans hn₁)
      obtain rfl : n = n₂ := Option.some.inj (hn.symm.trans hn₂)
      exact ⟨r, ⟨hr, hcontains⟩, rfl, hname, ts, hname ▸ hts, he⟩

theorem map_placedBelow (g : Graph) (s : Slot) :
    (g.placedBelow s).map (fun x => x.2.1) = g.children s := by
  unfold placedBelow children
  cases g.node? s with
  | none => rfl
  | some n => simp only [List.map_flatMap, Node.map_placedUnder]

/-- The children are listed in the order of their places. -/
theorem listsChildren_children (g : Graph) (s : Slot) : g.ListsChildren s (g.children s) := by
  refine ⟨(g.placedBelow s).map Prod.fst, ⟨?_, fun p => ?_⟩, ?_⟩
  · exact List.pairwise_map.2 (g.pairwise_placed.sublist (g.placedBelow_sublist s))
  · simp only [List.mem_map, Prod.exists, mem_placedBelow, exists_and_right, exists_eq_right,
      exists_and_left, HoldsChild]
  · rw [← map_placedBelow, List.forall₂_map_left_iff, List.forall₂_map_right_iff,
      List.forall₂_same]
    intro x hx
    obtain ⟨-, hcontainment, hheld⟩ := mem_placedBelow.1 hx
    exact ⟨hcontainment, _, hheld⟩

theorem listsChildren_iff : g.ListsChildren s l ↔ l = g.children s := by
  constructor
  · exact fun h => h.unique (g.listsChildren_children s)
  · rintro rfl
    exact g.listsChildren_children s

theorem mem_children : t ∈ g.children s ↔ g.Contains s t := by
  simp only [← map_placedBelow, List.mem_map, Prod.exists, mem_placedBelow]
  constructor
  · rintro ⟨p, _, properties, ⟨hslot, hcontainment, hheld⟩, rfl⟩
    exact ⟨p, hslot, hcontainment, properties, hheld⟩
  · rintro ⟨p, hslot, hcontainment, properties, hheld⟩
    exact ⟨p, t, properties, ⟨hslot, hcontainment, hheld⟩, rfl⟩

theorem below_iff : g.Below s t ↔ Relation.TransGen g.Contains s t := by
  have hstep : (fun a b => b ∈ g.children a) = g.Contains :=
    funext fun _ => funext fun _ => propext mem_children
  rw [Below, hstep]

/-! ### The slots below a slot -/

/-- Whether some slots are what a depth-first search below a slot finds. -/
structure IsDepthFirst (g : Graph) (s : Slot) (found : List Slot) : Prop where
  /-- The walk ends when it has taken one turn for every slot that comes on the stack. -/
  ends : ∃ seen, (Walker.turn g.children)^[turns g.children (g.children s) found]
    ⟨[s], g.children s, []⟩ = ⟨seen, [], found⟩
  /-- The recursive search finds these slots in this order, and it can find nothing else. -/
  search (found' : List Slot) : Search g.children [s] (g.children s) found' ↔ found' = found
  mem (t : Slot) : t ∈ found ↔ Relation.TransGen g.Contains s t ∧ t ≠ s
  nodup : found.Nodup

/-- **A walk is a depth-first search.** Whatever the graph, the slots below a slot are those that
one or more steps of containment lead to, without the slot itself and each once, in the order of
the recursive search that goes through the children in the order of their places and passes over
what it has seen. The blocks below a slot are those of its descendants that are blocks, in the same
order. -/
theorem depthFirst_descendants (g : Graph) (s : Slot) :
    (∀ t l, g.ListsChildren t l ↔ l = g.children t) ∧ g.IsDepthFirst s (g.descendants s) ∧
      (g.blocks s).Sublist (g.descendants s) ∧
      ∀ b, b ∈ g.blocks s ↔
        b ∈ g.descendants s ∧ ∃ n, g.node? b = some n ∧ n.kind = .block := by
  have hsearch := search_descendants g s
  refine ⟨fun t l => listsChildren_iff, ?_, List.filter_sublist, fun b => ?_⟩
  · constructor
    case ends =>
      obtain ⟨seen, hturns, -⟩ := exists_iterate_turn hsearch (fun _ => Iff.rfl) [] []
      rw [List.append_nil] at hturns
      exact ⟨seen, hturns⟩
    case search =>
      intro found'
      constructor
      · exact fun h => h.unique hsearch
      · rintro rfl
        exact hsearch
    case mem => exact fun t => by rw [mem_descendants, below_iff]
    case nodup => exact hsearch.nodup
  · rw [blocks, List.mem_filter, isBlock_iff]

end Graph

end CodeGraph
