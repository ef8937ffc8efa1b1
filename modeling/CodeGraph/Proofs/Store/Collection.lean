import CodeGraph.Proofs.Program.Validity
import CodeGraph.Store.Persistence
import Mathlib.Data.List.Nodup
import Mathlib.Data.List.Perm.Basic

/-!
# What is collected for the store

The records of a graph are the kept edges of the graph, in the order in which they are held.

* `Graph.heldEdges`: the edges in the order of slots, of the kind's relationships, and of targets;
* `HeldEdge.kept?`: the record of an edge that is kept;
* `Collected.add`: what becomes of one edge, with `Collected.addUnder_eq` for the edges under one
  relationship;
* `Graph.collect_eq`: the records and the two counts, with no fold;
* `Graph.declaredTargets`, `Graph.allTargets`: the targets of a graph, by the names that they are
  held under, with `Graph.total_collect_eq`: none is lost;
* `Graph.namedTargets`: the same with their names, with `Graph.perm_namedTargets`;
* `Graph.isStored_of_mem_collect`: no record is of a kind that is never stored;
* `Graph.ends_of_mem_collect`: both ends of a record have an identity.
-/

namespace CodeGraph

/-! ### Edges in order -/

/-- Whether an edge is of a kind that is stored. -/
def HeldEdge.isStored (e : HeldEdge) : Bool :=
  !unstoredRelationships.contains e.relationship

/-- The edges that a node holds under one relationship. -/
def Node.edgesUnder (n : Node) (s : Slot) (r : Relationship) : List HeldEdge :=
  match n.relationships.get? r.name with
  | some ts => ts.ends.map fun (t, properties) => ⟨s, r.name, t, properties⟩
  | none => []

/-- The edges that a node holds under the relationships of its kind. -/
def Node.heldEdges (n : Node) (s : Slot) : List HeldEdge :=
  n.kind.relationships.flatMap (n.edgesUnder s)

/-- The edges of a graph. -/
def Graph.heldEdges (g : Graph) : List HeldEdge :=
  g.slots.flatMap fun (s, n) => n.heldEdges s

namespace HeldEdge

theorem relationship_of_mem_edgesUnder {n : Node} {s : Slot} {r : Relationship} {e : HeldEdge}
    (h : e ∈ n.edgesUnder s r) : e.relationship = r.name := by
  unfold Node.edgesUnder at h
  cases hr : n.relationships.get? r.name with
  | none => simp [hr] at h
  | some ts =>
    simp only [hr, List.mem_map] at h
    obtain ⟨_, -, rfl⟩ := h
    rfl

variable {ids : IdMap} {e : HeldEdge} {r : EdgeRecord}

/-- The record of an edge that is kept: one of a kind that is stored, between stored nodes. -/
def kept? (ids : IdMap) (e : HeldEdge) : Option EdgeRecord :=
  if e.isStored then e.record? ids else none

theorem record?_eq_some_iff : e.record? ids = some r ↔
    ids.get? e.source = some r.source ∧ ids.get? e.target = some r.target ∧
      e.relationship = r.name ∧ e.properties = r.properties := by
  unfold record?
  cases ids.get? e.source with
  | none => simp
  | some s =>
    cases ids.get? e.target with
    | none => simp
    | some t =>
      cases r
      simp

theorem record?_eq_none_iff :
    e.record? ids = none ↔ ids.get? e.source = none ∨ ids.get? e.target = none := by
  unfold record?
  cases ids.get? e.source <;> cases ids.get? e.target <;> simp

theorem kept?_eq_some_iff : e.kept? ids = some r ↔ e.isStored ∧ e.record? ids = some r := by
  unfold kept?
  by_cases h : e.isStored
  · rw [if_pos h, and_iff_right h]
  · rw [if_neg h]
    exact iff_of_false (by simp) (fun h' => h h'.1)

end HeldEdge

namespace Collected

/-- Adds one edge. -/
def add (ids : IdMap) (c : Collected) (e : HeldEdge) : Collected :=
  if e.isStored then c.push ids e else { c with filtered := c.filtered + 1 }

theorem foldl_add_of_forall_isStored (ids : IdMap) {l : List HeldEdge}
    (h : ∀ e ∈ l, e.isStored) (c : Collected) : l.foldl (add ids) c = l.foldl (push ids) c := by
  induction l generalizing c with
  | nil => rfl
  | cons e l ih =>
    obtain ⟨he, hl⟩ := List.forall_mem_cons.1 h
    rw [List.foldl_cons, List.foldl_cons, add, if_pos he, ih hl]

theorem foldl_add_of_forall_not_isStored (ids : IdMap) {l : List HeldEdge}
    (h : ∀ e ∈ l, ¬ e.isStored) (c : Collected) :
    l.foldl (add ids) c = { c with filtered := c.filtered + l.length } := by
  induction l generalizing c with
  | nil => rfl
  | cons e l ih =>
    obtain ⟨he, hl⟩ := List.forall_mem_cons.1 h
    rw [List.foldl_cons, add, if_neg he, ih hl, List.length_cons, Nat.add_assoc, Nat.add_comm 1]

/-- The targets under a relationship are added edge by edge, whatever their form. -/
theorem addUnder_eq (ids : IdMap) (s : Slot) (n : Node) (c : Collected) (r : Relationship) :
    c.addUnder ids s n r = (n.edgesUnder s r).foldl (add ids) c := by
  have hstored : ∀ e ∈ n.edgesUnder s r, e.isStored = !unstoredRelationships.contains r.name :=
    fun e he => by rw [HeldEdge.isStored, HeldEdge.relationship_of_mem_edgesUnder he]
  -- all of them are stored, or none
  by_cases h : unstoredRelationships.contains r.name
  · rw [foldl_add_of_forall_not_isStored ids fun e he => by simp only [hstored e he, h]; decide]
    unfold addUnder Node.edgesUnder
    cases n.relationships.get? r.name with
    | none => rfl
    | some ts => simp only [if_pos h, Targets.slots, List.length_map]
  · rw [foldl_add_of_forall_isStored ids fun e he => by simp only [hstored e he, h]; decide]
    unfold addUnder Node.edgesUnder
    cases n.relationships.get? r.name with
    | none => rfl
    | some ts =>
      cases ts with
      | single t => simp only [if_neg h]; rfl
      | nodes ts => simp only [if_neg h, Targets.ends, List.foldl_map]
      | edges es => simp only [if_neg h, Targets.ends, List.foldl_map]

theorem foldl_add (ids : IdMap) (l : List HeldEdge) (c : Collected) :
    l.foldl (add ids) c =
      { records := c.records ++ l.filterMap (HeldEdge.kept? ids)
        unresolved := c.unresolved + l.countP fun e => e.isStored && (e.record? ids).isNone
        filtered := c.filtered + l.countP fun e => !e.isStored } := by
  induction l generalizing c with
  | nil => simp
  | cons e l ih =>
    rw [List.foldl_cons, ih]
    -- an edge goes to exactly one of the three places
    by_cases h : e.isStored
    · cases hr : e.record? ids with
      | none => simp [add, push, HeldEdge.kept?, h, hr, Nat.add_assoc, Nat.add_comm 1]
      | some r => simp [add, push, HeldEdge.kept?, h, hr]
    · simp [add, HeldEdge.kept?, h, Nat.add_assoc, Nat.add_comm 1]

/-- The number of edges that were added. -/
def total (c : Collected) : Nat :=
  c.records.size + c.unresolved + c.filtered

/-- An edge goes to exactly one of the three places. -/
theorem total_add (ids : IdMap) (c : Collected) (e : HeldEdge) :
    (c.add ids e).total = c.total + 1 := by
  unfold add push
  split
  · cases e.record? ids with
    | some r => simp only [total, Array.size_push]; omega
    | none => simp only [total]; omega
  · simp only [total]; omega

theorem total_foldl_add (ids : IdMap) (l : List HeldEdge) (c : Collected) :
    (l.foldl (add ids) c).total = c.total + l.length := by
  induction l generalizing c with
  | nil => rfl
  | cons e l ih =>
    rw [List.foldl_cons, ih, total_add, List.length_cons, Nat.add_assoc, Nat.add_comm 1]

end Collected

namespace Graph

variable {g : Graph} {ids : IdMap} {r : EdgeRecord}

/-- What becomes of a graph is what becomes of its edges, one after the other. -/
theorem collect_eq_foldl (g : Graph) (ids : IdMap) :
    g.collect ids = g.heldEdges.foldl (Collected.add ids) {} := by
  have hnode : Collected.addNode ids =
      fun c (p : Slot × Node) => (p.2.heldEdges p.1).foldl (Collected.add ids) c := by
    funext c p
    rw [Node.heldEdges, List.foldl_flatMap, Collected.addNode]
    congr 1
    funext c r
    exact Collected.addUnder_eq ..
  rw [collect, heldEdges, List.foldl_flatMap, hnode]

/-- No edge is lost: each has a record or is counted. -/
theorem total_collect (g : Graph) (ids : IdMap) : (g.collect ids).total = g.heldEdges.length := by
  rw [collect_eq_foldl, Collected.total_foldl_add]
  exact Nat.zero_add _

/-- The records are the kept edges in order; the other edges are counted. -/
theorem collect_eq (g : Graph) (ids : IdMap) :
    g.collect ids =
      { records := (g.heldEdges.filterMap (HeldEdge.kept? ids)).toArray
        unresolved := g.heldEdges.countP fun e => e.isStored && (e.record? ids).isNone
        filtered := g.heldEdges.countP fun e => !e.isStored } := by
  rw [collect_eq_foldl, Collected.foldl_add]
  simp

theorem mem_collect : r ∈ (g.collect ids).records.toList ↔
    ∃ e ∈ g.heldEdges, e.isStored ∧ e.record? ids = some r := by
  rw [collect_eq, List.mem_filterMap]
  exact exists_congr fun e => and_congr_right fun _ => HeldEdge.kept?_eq_some_iff

/-- No record is of a kind that is never stored. -/
theorem isStored_of_mem_collect (h : r ∈ (g.collect ids).records.toList) : r.isStored := by
  obtain ⟨e, -, hstored, hr⟩ := mem_collect.1 h
  obtain ⟨-, -, hname, -⟩ := HeldEdge.record?_eq_some_iff.1 hr
  unfold EdgeRecord.isStored
  rw [← hname]
  exact hstored

/-- Both ends of a record have an identity. -/
theorem ends_of_mem_collect (h : r ∈ (g.collect ids).records.toList) :
    ∃ s t, ids.get? s = some r.source ∧ ids.get? t = some r.target := by
  obtain ⟨e, -, -, hr⟩ := mem_collect.1 h
  obtain ⟨hs, ht, -, -⟩ := HeldEdge.record?_eq_some_iff.1 hr
  exact ⟨e.source, e.target, hs, ht⟩

/-- All records of a graph are written. -/
theorem filter_isStored_collect (g : Graph) (ids : IdMap) :
    (g.collect ids).records.toList.filter EdgeRecord.isStored =
      (g.collect ids).records.toList :=
  List.filter_eq_self.2 fun _ h => isStored_of_mem_collect h

end Graph

/-! ### All targets -/

/-- The targets that a node holds, under any names. -/
def Node.allTargets (n : Node) : List Slot :=
  n.relationships.entries.flatMap fun (_, ts) => ts.slots

/-- The targets that a node holds, each with the name that it is held under. -/
def Node.namedTargets (n : Node) : List (String × Slot) :=
  n.relationships.entries.flatMap fun (name, ts) => ts.slots.map (name, ·)

/-- The targets that a node holds under the names that its kind declares. -/
def Node.declaredTargets (n : Node) : List Slot :=
  (n.relationships.entries.filter fun (name, _) => (n.kind.relationship? name).isSome).flatMap
    fun (_, ts) => ts.slots

/-- The relationships of its kind that a node holds something under, with what it holds. -/
def Node.heldRelationships (n : Node) : List (String × Targets) :=
  (n.kind.relationships.map Relationship.name).filterMap fun name =>
    (n.relationships.get? name).map fun ts => (name, ts)

/-- They are the declared ones among all that the node holds something under. -/
theorem Node.perm_heldRelationships (n : Node) : n.heldRelationships.Perm
    (n.relationships.entries.filter fun (name, _) => (n.kind.relationship? name).isSome) := by
  have hnodup : n.heldRelationships.Nodup := by
    refine n.kind.nodup_relationships.filterMap fun a a' b hb hb' => ?_
    obtain ⟨_, -, rfl⟩ := Option.map_eq_some_iff.1 hb
    obtain ⟨_, -, heq⟩ := Option.map_eq_some_iff.1 hb'
    exact (congrArg Prod.fst heq).symm
  have hentries : n.relationships.entries.Nodup := .of_map _ n.relationships.nodup_keys
  refine (List.perm_ext_iff_of_nodup hnodup (hentries.filter _)).2 fun ⟨name, ts⟩ => ?_
  simp only [heldRelationships, List.mem_filterMap, Option.map_eq_some_iff, Prod.mk.injEq,
    Dict.get?_eq_some_iff, List.mem_filter, Kind.relationship?, List.find?_isSome, List.mem_map,
    beq_iff_eq]
  constructor
  · rintro ⟨_, hr, _, hts, rfl, rfl⟩
    exact ⟨hts, hr⟩
  · rintro ⟨hts, hr⟩
    exact ⟨name, hr, ts, hts, rfl, rfl⟩

/-- The edges of a node have the targets that it holds under declared names, each under its name. -/
theorem Node.perm_map_heldEdges (n : Node) (s : Slot) :
    ((n.heldEdges s).map fun e => (e.relationship, e.target)).Perm
      ((n.relationships.entries.filter fun (name, _) =>
        (n.kind.relationship? name).isSome).flatMap fun (name, ts) => ts.slots.map (name, ·)) := by
  have hunder : ∀ r : Relationship,
      (n.edgesUnder s r).map (fun e => (e.relationship, e.target)) =
        ((n.relationships.get? r.name).map fun ts => (r.name, ts)).toList.flatMap
          fun (name, ts) => ts.slots.map (name, ·) := by
    intro r
    unfold edgesUnder
    cases n.relationships.get? r.name with
    | none => rfl
    | some ts => simp [Targets.slots, Function.comp_def]
  have hheld : (n.heldEdges s).map (fun e => (e.relationship, e.target)) =
      n.heldRelationships.flatMap fun (name, ts) => ts.slots.map (name, ·) := by
    rw [heldRelationships, List.filterMap_eq_flatMap_toList, List.flatMap_assoc, List.flatMap_map,
      heldEdges, List.map_flatMap]
    exact List.flatMap_congr fun r _ => hunder r
  rw [hheld]
  exact n.perm_heldRelationships.flatMap_right _

theorem Node.perm_targets_heldEdges (n : Node) (s : Slot) :
    ((n.heldEdges s).map HeldEdge.target).Perm n.declaredTargets := by
  have hperm := (n.perm_map_heldEdges s).map Prod.snd
  simp only [List.map_map, List.map_flatMap, Function.comp_def, List.map_id'] at hperm
  exact hperm

namespace Graph

variable {g : Graph}

/-- The targets that the nodes of a graph hold, under any names. -/
def allTargets (g : Graph) : List Slot :=
  g.slots.flatMap fun (_, n) => n.allTargets

/-- The targets that the nodes of a graph hold, each with the name that it is held under. -/
def namedTargets (g : Graph) : List (String × Slot) :=
  g.slots.flatMap fun (_, n) => n.namedTargets

/-- The targets that the nodes of a graph hold under the names that their kinds declare. -/
def declaredTargets (g : Graph) : List Slot :=
  g.slots.flatMap fun (_, n) => n.declaredTargets

/-- The edges of a graph have the targets that are held under declared names, as often. -/
theorem perm_targets_heldEdges (g : Graph) :
    (g.heldEdges.map HeldEdge.target).Perm g.declaredTargets := by
  rw [heldEdges, List.map_flatMap]
  exact List.Perm.flatMap_left _ fun p _ => p.2.perm_targets_heldEdges p.1

/-- In a valid graph, the kind of a node declares all that the node holds something under. -/
theorem Valid.filter_entries (h : g.Valid) {s : Slot} {n : Node} (hn : (s, n) ∈ g.slots) :
    (n.relationships.entries.filter fun (name, _) => (n.kind.relationship? name).isSome) =
      n.relationships.entries := by
  refine List.filter_eq_self.2 ?_
  rintro ⟨name, ts⟩ he
  obtain ⟨⟨r, hr, -⟩, -⟩ := h s n (mem_slots.1 hn) name ts he
  exact Option.isSome_iff_exists.2 ⟨r, hr⟩

/-- A valid graph holds all its targets under declared names. -/
theorem declaredTargets_eq (h : g.Valid) : g.declaredTargets = g.allTargets := by
  refine List.flatMap_congr fun ⟨s, n⟩ hn => ?_
  show n.declaredTargets = n.allTargets
  rw [Node.declaredTargets, h.filter_entries hn, Node.allTargets]

/-- The edges of a valid graph have all its targets, each under its name. -/
theorem perm_namedTargets (h : g.Valid) :
    (g.heldEdges.map fun e => (e.relationship, e.target)).Perm g.namedTargets := by
  rw [heldEdges, List.map_flatMap]
  refine List.Perm.flatMap_left _ fun ⟨s, n⟩ hn => ?_
  have hperm := n.perm_map_heldEdges s
  rwa [h.filter_entries hn] at hperm

/-- Each target under a declared name has a record or is counted once. -/
theorem total_collect_eq (g : Graph) (ids : IdMap) :
    (g.collect ids).total = g.declaredTargets.length := by
  rw [total_collect, ← g.perm_targets_heldEdges.length_eq, List.length_map]

end Graph

end CodeGraph
