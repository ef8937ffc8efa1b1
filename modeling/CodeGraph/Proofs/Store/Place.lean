import CodeGraph.Proofs.Program.Validity
import CodeGraph.Proofs.Store.Collection
import CodeGraph.Proofs.Store.Preparation
import Mathlib.Data.List.Perm.Basic

/-!
# One record for every place of a graph

A graph holds each of its targets at a *place*: a node, a relationship of the node's kind, and a
position among the targets under it. What is collected of a graph is told by its places, which are
listed without repetition in their order.

* `Place`, `Graph.Holds`: the target that is held at a place, read off the form of the targets;
* `Graph.Before`, `Graph.Lists`: the order of places, and the list of some of them, with
  `Graph.Lists.unique`;
* `Graph.placed`: all places with their targets, with `Graph.mem_placed`, `Graph.pairwise_placed`
  and `Graph.map_edge_placed`;
* `Graph.IsKept`, `Graph.IsLost`, `Graph.IsUnstored`: what becomes of a place;
* `Graph.IsCollected`: what is collected of a graph, with `Graph.places_collect`.
-/

namespace CodeGraph

/-- Where a target is held: the slot of a node, the name of a relationship, and the position among
the targets under it. -/
structure Place where
  slot : Slot
  name : String
  index : ℕ

/-- The edge that leads from a place to what is held there. -/
def Place.edge (p : Place) (e : Slot × Dict Json) : HeldEdge :=
  ⟨p.slot, p.name, e.1, e.2⟩

/-- Whether a target stands in a position, with these properties. Only edges have any. -/
inductive Targets.Holds : Targets → ℕ → Slot × Dict Json → Prop
  | single (t : UInt64) : (Targets.single t).Holds 0 (t.toNat, .empty)
  | nodes {ts : List UInt64} {i : ℕ} {t : UInt64} (h : ts[i]? = some t) :
      (Targets.nodes ts).Holds i (t.toNat, .empty)
  | edges {es : List Edge} {i : ℕ} {e : Edge} (h : es[i]? = some e) :
      (Targets.edges es).Holds i (e.target.toNat, e.properties)

theorem Targets.holds_iff {ts : Targets} {i : ℕ} {e : Slot × Dict Json} :
    ts.Holds i e ↔ ts.ends[i]? = some e := by
  constructor
  · intro h
    cases h with
    | single => rfl
    | nodes h => simp [ends, h]
    | edges h => simp [ends, h]
  · intro h
    cases ts with
    | single t =>
      obtain ⟨rfl, rfl⟩ : i = 0 ∧ (t.toNat, .empty) = e := by
        simpa [ends, List.getElem?_singleton] using h
      exact .single t
    | nodes ts =>
      obtain ⟨t, ht, rfl⟩ : ∃ t, ts[i]? = some t ∧ (t.toNat, .empty) = e := by simpa [ends] using h
      exact .nodes ht
    | edges es =>
      obtain ⟨x, hx, rfl⟩ : ∃ x, es[i]? = some x ∧ (x.target.toNat, x.properties) = e := by
        simpa [ends] using h
      exact .edges hx

/-- What a function finds in a list belongs, one by one, to the elements for which it finds
something. -/
theorem forall₂_filterMap {α β : Type} (f : α → Option β) (l : List α) :
    List.Forall₂ (fun a b => f a = some b) (l.filter fun a => (f a).isSome) (l.filterMap f) := by
  induction l with
  | nil => exact .nil
  | cons a l ih =>
    cases h : f a with
    | none => rwa [List.filter_cons_of_neg (by simp [h]), List.filterMap_cons_none h]
    | some b =>
      rw [List.filter_cons_of_pos (by simp [h]), List.filterMap_cons_some h]
      exact .cons h ih

/-- The position of a name among the relationships of a kind. -/
def Kind.rank (k : Kind) (name : String) : ℕ :=
  (k.relationships.map Relationship.name).idxOf name

/-- The relationships of a kind are in the order of their ranks. -/
theorem Kind.pairwise_rank (k : Kind) :
    k.relationships.Pairwise fun r r' => k.rank r.name < k.rank r'.name := by
  have hrank : ∀ i (h : i < k.relationships.length), k.rank (k.relationships[i]).name = i := by
    intro i h
    have hi : i < (k.relationships.map Relationship.name).length := by rwa [List.length_map]
    have hidx := k.nodup_relationships.idxOf_getElem i hi
    rwa [List.getElem_map] at hidx
  rw [List.pairwise_iff_getElem]
  intro i j hi hj hij
  rwa [hrank i hi, hrank j hj]

namespace Graph

variable {g : Graph} {ids : IdMap} {p q : Place} {e : Slot × Dict Json}

/-- Whether a graph holds a target at a place, with these properties. -/
def Holds (g : Graph) (p : Place) (e : Slot × Dict Json) : Prop :=
  ∃ n ts, g.node? p.slot = some n ∧ p.name ∈ n.kind.relationships.map Relationship.name ∧
    n.relationships.get? p.name = some ts ∧ ts.Holds p.index e

/-- Whether a place comes before another: by slots, then by the relationships of the node's kind,
then by positions. -/
def Before (g : Graph) (p q : Place) : Prop :=
  p.slot < q.slot ∨ p.slot = q.slot ∧
    ((∃ n, g.node? p.slot = some n ∧ n.kind.rank p.name < n.kind.rank q.name) ∨
      p.name = q.name ∧ p.index < q.index)

/-- Whether these are the places that have a property, each once and in their order. -/
structure Lists (g : Graph) (P : Place → Prop) (l : List Place) : Prop where
  sorted : l.Pairwise g.Before
  mem : ∀ p, p ∈ l ↔ P p

theorem Lists.congr {P Q : Place → Prop} {l : List Place} (h : g.Lists P l)
    (hPQ : ∀ p, P p ↔ Q p) : g.Lists Q l :=
  ⟨h.sorted, fun p => (h.mem p).trans (hPQ p)⟩

theorem Before.not_before (h : g.Before p q) : ¬ g.Before q p := by
  rcases h with hslot | ⟨hslot, hlater⟩
  · rintro (hslot' | ⟨hslot', -⟩)
    · exact Nat.lt_asymm hslot hslot'
    · exact Nat.ne_of_gt hslot hslot'
  · rintro (hslot' | ⟨-, hlater'⟩)
    · exact Nat.ne_of_gt hslot' hslot
    -- both places are of one node
    rcases hlater with ⟨n, hn, hrank⟩ | ⟨hname, hindex⟩
    · rcases hlater' with ⟨n', hn', hrank'⟩ | ⟨hname', -⟩
      · obtain rfl : n = n' := Option.some.inj (hn.symm.trans (hslot ▸ hn'))
        exact Nat.lt_asymm hrank hrank'
      · exact Nat.lt_irrefl _ (hname' ▸ hrank)
    · rcases hlater' with ⟨n', -, hrank'⟩ | ⟨-, hindex'⟩
      · exact Nat.lt_irrefl _ (hname ▸ hrank')
      · exact Nat.lt_asymm hindex hindex'

/-- There is only one such list. -/
theorem Lists.unique {P : Place → Prop} {l l' : List Place} (h : g.Lists P l) (h' : g.Lists P l') :
    l = l' := by
  have hnodup : ∀ {l : List Place}, l.Pairwise g.Before → l.Nodup :=
    fun h => h.imp fun hpq heq => by
      subst heq
      exact hpq.not_before hpq
  have hperm : l.Perm l' := (List.perm_ext_iff_of_nodup (hnodup h.sorted) (hnodup h'.sorted)).2
    fun p => (h.mem p).trans (h'.mem p).symm
  exact hperm.eq_of_pairwise (fun _ _ _ _ hpq hqp => absurd hqp hpq.not_before) h.sorted h'.sorted

end Graph

/-! ### All places -/

/-- The places of a node under one relationship, with what is held there. -/
def Node.placedUnder (n : Node) (s : Slot) (r : Relationship) : List (Place × Slot × Dict Json) :=
  match n.relationships.get? r.name with
  | some ts => ts.ends.mapIdx fun i e => (⟨s, r.name, i⟩, e)
  | none => []

/-- The places of a node, with what is held there. -/
def Node.placed (n : Node) (s : Slot) : List (Place × Slot × Dict Json) :=
  n.kind.relationships.flatMap (n.placedUnder s)

/-- The places of a graph, with what is held there. -/
def Graph.placed (g : Graph) : List (Place × Slot × Dict Json) :=
  g.slots.flatMap fun (s, n) => n.placed s

namespace Node

variable {n : Node} {s : Slot} {r : Relationship} {p : Place} {e : Slot × Dict Json}

theorem mem_placedUnder : (p, e) ∈ n.placedUnder s r ↔
    p.slot = s ∧ p.name = r.name ∧
      ∃ ts, n.relationships.get? r.name = some ts ∧ ts.Holds p.index e := by
  unfold placedUnder
  cases n.relationships.get? r.name with
  | none => simp
  | some ts =>
    obtain ⟨slot, name, index⟩ := p
    simp only [List.mem_mapIdx, Prod.mk.injEq, Place.mk.injEq, Option.some.injEq, exists_eq_left',
      Targets.holds_iff, List.getElem?_eq_some_iff]
    constructor
    · rintro ⟨i, hi, ⟨rfl, rfl, rfl⟩, rfl⟩
      exact ⟨rfl, rfl, hi, rfl⟩
    · rintro ⟨rfl, rfl, hi, rfl⟩
      exact ⟨index, hi, ⟨rfl, rfl, rfl⟩, rfl⟩

theorem map_edge_placedUnder (n : Node) (s : Slot) (r : Relationship) :
    (n.placedUnder s r).map (fun x => x.1.edge x.2) = n.edgesUnder s r := by
  unfold placedUnder edgesUnder
  cases n.relationships.get? r.name with
  | none => rfl
  | some ts =>
    refine List.ext_getElem? fun i => ?_
    simp only [List.getElem?_map, List.getElem?_mapIdx, Option.map_map]
    rfl

theorem pairwise_placedUnder (n : Node) (s : Slot) (r : Relationship) :
    (n.placedUnder s r).Pairwise fun x y => x.1.index < y.1.index := by
  unfold placedUnder
  cases n.relationships.get? r.name with
  | none => exact .nil
  | some ts =>
    rw [List.pairwise_iff_getElem]
    intro i j hi hj hij
    simpa only [List.getElem_mapIdx] using hij

end Node

namespace Graph

variable {g : Graph} {ids : IdMap} {p q : Place} {e : Slot × Dict Json}

/-- The list has every place with what is held there. -/
theorem mem_placed : (p, e) ∈ g.placed ↔ g.Holds p e := by
  simp only [placed, Node.placed, List.mem_flatMap, Prod.exists, mem_slots, Node.mem_placedUnder,
    Holds, List.mem_map]
  constructor
  · rintro ⟨s, n, hn, r, hr, rfl, hname, ts, hts, he⟩
    exact ⟨n, ts, hn, ⟨r, hr, hname.symm⟩, hname ▸ hts, he⟩
  · rintro ⟨n, ts, hn, ⟨r, hr, hname⟩, hts, he⟩
    exact ⟨p.slot, n, hn, r, hr, rfl, hname.symm, ts, hname ▸ hts, he⟩

/-- The edges of a graph lead from its places, in their order. -/
theorem map_edge_placed (g : Graph) : g.placed.map (fun x => x.1.edge x.2) = g.heldEdges := by
  simp only [placed, Node.placed, heldEdges, Node.heldEdges, List.map_flatMap,
    Node.map_edge_placedUnder]

/-- The places are listed in their order. -/
theorem pairwise_placed (g : Graph) : g.placed.Pairwise fun x y => g.Before x.1 y.1 := by
  refine List.pairwise_flatMap.2 ⟨fun ⟨s, n⟩ hn => List.pairwise_flatMap.2 ⟨fun r hr => ?_, ?_⟩, ?_⟩
  · -- under one relationship
    refine (n.pairwise_placedUnder s r).imp_of_mem fun hx hy hindex => ?_
    obtain ⟨hslot, hname, -⟩ := Node.mem_placedUnder.1 hx
    obtain ⟨hslot', hname', -⟩ := Node.mem_placedUnder.1 hy
    exact .inr ⟨hslot.trans hslot'.symm, .inr ⟨hname.trans hname'.symm, hindex⟩⟩
  · -- under two relationships of one node
    refine n.kind.pairwise_rank.imp fun {r r'} hrank x hx y hy => ?_
    obtain ⟨hslot, hname, -⟩ := Node.mem_placedUnder.1 hx
    obtain ⟨hslot', hname', -⟩ := Node.mem_placedUnder.1 hy
    refine .inr ⟨hslot.trans hslot'.symm, .inl ⟨n, ?_, ?_⟩⟩
    · rw [hslot]
      exact mem_slots.1 hn
    · rwa [hname, hname']
  · -- of two nodes
    refine g.pairwise_slots.imp fun {x y} hlt a ha b hb => .inl ?_
    obtain ⟨r, -, ha⟩ := List.mem_flatMap.1 ha
    obtain ⟨r', -, hb⟩ := List.mem_flatMap.1 hb
    obtain ⟨hslot, -⟩ := Node.mem_placedUnder.1 ha
    obtain ⟨hslot', -⟩ := Node.mem_placedUnder.1 hb
    rwa [hslot, hslot']

/-- The places whose edges have a property, in their order. -/
def placesWhere (g : Graph) (f : HeldEdge → Bool) : List Place :=
  (g.placed.filter fun x => f (x.1.edge x.2)).map Prod.fst

theorem lists_placesWhere (g : Graph) (f : HeldEdge → Bool) :
    g.Lists (fun p => ∃ e, g.Holds p e ∧ f (p.edge e)) (g.placesWhere f) where
  sorted := List.pairwise_map.2 (g.pairwise_placed.sublist List.filter_sublist)
  mem p := by
    simp only [placesWhere, List.mem_map, List.mem_filter, Prod.exists, mem_placed,
      exists_and_right, exists_eq_right]

theorem length_placesWhere (g : Graph) (f : HeldEdge → Bool) :
    (g.placesWhere f).length = g.heldEdges.countP f := by
  rw [placesWhere, List.length_map, ← List.countP_eq_length_filter, ← map_edge_placed,
    List.countP_map]
  rfl

/-! ### What becomes of a place -/

/-- Whether an edge is stored for a place: not under `LANGUAGE`, and between two identities. -/
def IsKept (g : Graph) (ids : IdMap) (p : Place) : Prop :=
  p.name ≠ "LANGUAGE" ∧ (∃ id, ids.get? p.slot = some id) ∧
    ∃ t properties, g.Holds p (t, properties) ∧ ∃ id, ids.get? t = some id

/-- Whether an end has no identity, of an edge that would be stored for a place. -/
def IsLost (g : Graph) (ids : IdMap) (p : Place) : Prop :=
  p.name ≠ "LANGUAGE" ∧
    ∃ t properties, g.Holds p (t, properties) ∧ (ids.get? p.slot = none ∨ ids.get? t = none)

/-- Whether a target is held at a place under `LANGUAGE`. -/
def IsUnstored (g : Graph) (p : Place) : Prop :=
  p.name = "LANGUAGE" ∧ ∃ e, g.Holds p e

/-- Whether a record is that of a place: it goes from the node's identity to that of the target, and
has the name and the properties that the target is held under. -/
def Records (g : Graph) (ids : IdMap) (p : Place) (r : EdgeRecord) : Prop :=
  ∃ t, g.Holds p (t, r.properties) ∧ r.name = p.name ∧ ids.get? p.slot = some r.source ∧
    ids.get? t = some r.target

theorem isStored_edge : (p.edge e).isStored ↔ p.name ≠ "LANGUAGE" := by
  simp [HeldEdge.isStored, Place.edge, unstoredRelationships]

theorem kept?_edge_eq_some_iff {r : EdgeRecord} :
    (∃ e, g.Holds p e ∧ (p.edge e).kept? ids = some r) ↔
      p.name ≠ "LANGUAGE" ∧ g.Records ids p r := by
  simp only [HeldEdge.kept?_eq_some_iff, isStored_edge, HeldEdge.record?_eq_some_iff, Records]
  constructor
  · rintro ⟨⟨t, properties⟩, he, hname, hs, ht, hr, rfl⟩
    exact ⟨hname, t, he, hr.symm, hs, ht⟩
  · rintro ⟨hname, t, he, hr, hs, ht⟩
    exact ⟨(t, r.properties), he, hname, hs, ht, hr.symm, rfl⟩

theorem isKept_iff : g.IsKept ids p ↔ ∃ r, p.name ≠ "LANGUAGE" ∧ g.Records ids p r := by
  constructor
  · rintro ⟨hname, ⟨source, hs⟩, t, properties, he, target, ht⟩
    exact ⟨⟨source, target, p.name, properties⟩, hname, t, he, rfl, hs, ht⟩
  · rintro ⟨r, hname, t, he, -, hs, ht⟩
    exact ⟨hname, ⟨r.source, hs⟩, t, r.properties, he, r.target, ht⟩

/-- The places that are kept are those whose edges are. -/
theorem lists_kept (g : Graph) (ids : IdMap) :
    g.Lists (g.IsKept ids) (g.placesWhere fun e => (e.kept? ids).isSome) := by
  refine (g.lists_placesWhere _).congr fun p => ?_
  simp only [isKept_iff, ← kept?_edge_eq_some_iff, Option.isSome_iff_exists, ← exists_and_left]
  exact exists_comm

/-- The places whose edges lack an identity. -/
theorem lists_lost (g : Graph) (ids : IdMap) :
    g.Lists (g.IsLost ids) (g.placesWhere fun e => e.isStored && (e.record? ids).isNone) := by
  refine (g.lists_placesWhere _).congr fun p => ?_
  simp only [Bool.and_eq_true, isStored_edge, Option.isNone_iff_eq_none,
    HeldEdge.record?_eq_none_iff, IsLost, Prod.exists]
  constructor
  · rintro ⟨t, properties, he, hname, hnone⟩
    exact ⟨hname, t, properties, he, hnone⟩
  · rintro ⟨hname, t, properties, he, hnone⟩
    exact ⟨t, properties, he, hname, hnone⟩

/-- The places whose edges are never stored. -/
theorem lists_unstored (g : Graph) :
    g.Lists g.IsUnstored (g.placesWhere fun e => !e.isStored) := by
  refine (g.lists_placesWhere _).congr fun p => ?_
  simp only [Bool.not_eq_true', ← Bool.not_eq_true, isStored_edge, not_not, IsUnstored]
  rw [exists_and_right, and_comm]

/-- The records are those of the places that are kept, one by one. -/
theorem forall₂_records (g : Graph) (ids : IdMap) :
    List.Forall₂ (g.Records ids) (g.placesWhere fun e => (e.kept? ids).isSome)
      (g.collect ids).records.toList := by
  have hfound := forall₂_filterMap (fun x : Place × Slot × Dict Json => (x.1.edge x.2).kept? ids)
    g.placed
  have hheld := (List.forall₂_and_left (p := fun x => g.Holds x.1 x.2) _ _).2
    ⟨fun x hx => mem_placed.1 (List.mem_of_mem_filter hx), hfound⟩
  rw [collect_eq, ← map_edge_placed, List.filterMap_map, placesWhere, List.forall₂_map_left_iff]
  exact hheld.imp fun x r hr => (kept?_edge_eq_some_iff.1 ⟨x.2, hr⟩).2

/-- Every record is that of a place. -/
theorem exists_records_of_mem {r : EdgeRecord} (h : r ∈ (g.collect ids).records.toList) :
    ∃ p, g.Records ids p r := by
  obtain ⟨e, he, hkept⟩ := mem_collect.1 h
  rw [← map_edge_placed] at he
  obtain ⟨⟨p, t, properties⟩, hmem, rfl⟩ := List.mem_map.1 he
  have hrecords := kept?_edge_eq_some_iff.1
    ⟨_, mem_placed.1 hmem, HeldEdge.kept?_eq_some_iff.2 hkept⟩
  exact ⟨p, hrecords.2⟩

/-! ### All that is collected -/

/-- Whether this is what is collected of a graph. -/
structure IsCollected (g : Graph) (ids : IdMap) (c : Collected) : Prop where
  /-- There is one record for each place that is kept, in the order of the places. -/
  records : ∃ kept, g.Lists (g.IsKept ids) kept ∧
    List.Forall₂ (g.Records ids) kept c.records.toList
  unresolved : ∃ lost, g.Lists (g.IsLost ids) lost ∧ c.unresolved = lost.length
  filtered : ∃ unstored, g.Lists g.IsUnstored unstored ∧ c.filtered = unstored.length
  /-- Every target under a declared name has a record or is counted once. -/
  declared : c.total = g.declaredTargets.length
  /-- In a graph that has passed the check, this is every target. -/
  all : g.defect? = none → c.total = g.allTargets.length

/-- **Each target is accounted for at its place.** Whatever a graph holds and whichever slots have
an identity, the places between two identities have one record each, in their order, and the others
are counted. -/
theorem places_collect (g : Graph) (ids : IdMap) : g.IsCollected ids (g.collect ids) where
  records := ⟨_, g.lists_kept ids, g.forall₂_records ids⟩
  unresolved := ⟨_, g.lists_lost ids, by rw [collect_eq, length_placesWhere]⟩
  filtered := ⟨_, g.lists_unstored, by rw [collect_eq, length_placesWhere]⟩
  declared := g.total_collect_eq ids
  all h := by rw [total_collect_eq, declaredTargets_eq (defect?_eq_none_iff.1 h)]

/-- A call with its callee, two arguments, what it invokes, and its language. The second argument
is a node of unknown type. -/
def called : Graph :=
  ⟨#[((((Node.bare 0 .callExpression).withRelationship "CALLEE" (.single 1)).withRelationship
      "ARGUMENTS" (.edges [⟨2, Dict.empty.insert "index" (.int 0)⟩, ⟨3, .empty⟩])).withRelationship
      "INVOKES" (.nodes [4])).withRelationship "LANGUAGE" (.single 5),
    .bare 1 .reference, .bare 2 .literal, .bare 3 .unknownType, .bare 4 .functionDeclaration,
    .bare 5 .language]⟩

theorem places_collect_called :
    called.defect? = none ∧
      called.IsCollected (called.identities .fresh) (called.collect (called.identities .fresh)) ∧
      (called.collect (called.identities .fresh)).total = called.allTargets.length ∧
      (called.collect (called.identities .fresh)).records.toList.map EdgeRecord.name =
        ["CALLEE", "ARGUMENTS", "INVOKES"] ∧
      (called.collect (called.identities .fresh)).unresolved = 1 ∧
      (called.collect (called.identities .fresh)).filtered = 1 := by
  have hvalid : called.defect? = none := by decide +kernel
  have hcollected := places_collect called (called.identities .fresh)
  exact ⟨hvalid, hcollected, hcollected.all hvalid, by decide +kernel, by decide +kernel,
    by decide +kernel⟩

end Graph

end CodeGraph
