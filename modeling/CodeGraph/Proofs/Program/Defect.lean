import CodeGraph.Proofs.Program.Walk
import CodeGraph.Proofs.Store.Place
import CodeGraph.Proofs.Text.Bytes

/-!
# The defect that is reported

A graph is refused for the first of its defects. Its relationships are gone through by slots, and
those of one node by the bytes of their names. One that the kind of the node does not declare in this
form is reported as such, whatever its targets are.

* `findSome?_eq_some_iff_of_pairwise`: what is found first in a list that is in order;
* `Graph.Reports`: what is wrong with one relationship, and how this is said;
* `Graph.IsFirstDefect`, `Graph.defect?_eq_some_iff`: the defect that is found;
* `Graph.Valid.lt_size_of_mem_children`: where the walks through a graph lead;
* `Graph.defect_of_check`: what the check of a graph finds.
-/

namespace CodeGraph

/-- In a list that is in order, what is found first is found in an element to which none before it in
the order has anything. -/
theorem findSome?_eq_some_iff_of_pairwise {α β : Type} {r : α → α → Prop} {f : α → Option β}
    {l : List α} {b : β} (hl : l.Pairwise r) (hr : ∀ x y, r x y → ¬ r y x) :
    l.findSome? f = some b ↔ ∃ a ∈ l, f a = some b ∧ ∀ x ∈ l, r x a → f x = none := by
  rw [List.findSome?_eq_some_iff]
  constructor
  · rintro ⟨before, a, after, rfl, ha, hbefore⟩
    refine ⟨a, by simp, ha, fun x hx hxa => ?_⟩
    rcases List.mem_append.1 hx with hx | hx
    · exact hbefore x hx
    · rcases List.mem_cons.1 hx with rfl | hx
      · exact absurd hxa (hr x x hxa)
      · have hax := List.rel_of_pairwise_cons (List.pairwise_append.1 hl).2.1 hx
        exact absurd hax (hr x a hxa)
  · rintro ⟨a, ha, hfa, hnone⟩
    obtain ⟨before, after, rfl⟩ := List.append_of_mem ha
    refine ⟨before, a, after, rfl, hfa, fun x hx => hnone x (List.mem_append_left _ hx) ?_⟩
    exact (List.pairwise_append.1 hl).2.2 x hx a List.mem_cons_self

/-- Whether a kind declares a relationship of this name and arity. -/
def Kind.Declares (k : Kind) (name : String) (arity : Arity) : Prop :=
  ∃ r ∈ k.relationships, r.name = name ∧ r.arity = arity

theorem Kind.relationship?_eq_some_iff {k : Kind} {name : String} {r : Relationship} :
    k.relationship? name = some r ↔ r ∈ k.relationships ∧ r.name = name := by
  constructor
  · intro h
    exact ⟨List.mem_of_find?_eq_some h, by simpa using List.find?_some h⟩
  · rintro ⟨hr, rfl⟩
    obtain ⟨r', hfound⟩ := Option.isSome_iff_exists.1
      (List.find?_isSome (p := (·.name == r.name)).2 ⟨r, hr, beq_self_eq_true _⟩)
    have hname : r'.name = r.name := by simpa using List.find?_some hfound
    rw [relationship?, hfound,
      List.inj_on_of_nodup_map k.nodup_relationships (List.mem_of_find?_eq_some hfound) hr hname]

namespace Graph

variable {g : Graph} {s t : Slot} {n : Node} {name : String} {ts : Targets} {d : Defect}

theorem declares_iff_declares {k : Kind} {arity : Arity} :
    declares k name arity ↔ k.Declares name arity := by
  simp only [declares_iff_exists, Kind.relationship?_eq_some_iff, Kind.Declares, and_assoc]

/-- Whether a relationship of a node is as it should be: its kind declares it in this form, and all
its targets are in the arena. -/
def Fits (g : Graph) (n : Node) (name : String) (ts : Targets) : Prop :=
  n.kind.Declares name ts.arity ∧ ∀ t ∈ ts.slots, t < g.size

/-- Whether a relationship of a node has this defect, reported in these words. -/
inductive Reports (g : Graph) (s : Slot) (n : Node) (name : String) (ts : Targets) :
    Defect → String → Prop
  /-- It is not declared. The node is named by the most specific label of its kind. -/
  | undeclared {label : String} (h : ¬ n.kind.Declares name ts.arity)
      (hlabel : n.kind.labels.head? = some label) :
      Reports g s n name ts (.undeclared n.kind name)
        ("Invalid program graph: " ++ label ++ " declares no relationship named " ++ name)
  /-- It is declared, and its first target outside the arena is this one. -/
  | dangling {before after : List Slot} {t : Slot} (h : n.kind.Declares name ts.arity)
      (hslots : ts.slots = before ++ t :: after) (hbefore : ∀ u ∈ before, u < g.size)
      (ht : g.size ≤ t) :
      Reports g s n name ts (.dangling s name t)
        ("Invalid program graph: node " ++ String.ofList (Text.showNat s) ++
          " references missing slot " ++ String.ofList (Text.showNat t) ++ " via " ++ name)

/-- Whether a defect is reported for a relationship, and all that come before it, by slots and then
by the bytes of their names, are as they should be. -/
def IsFirstDefect (g : Graph) (d : Defect) (message : String) : Prop :=
  ∃ s n name ts, g.node? s = some n ∧ n.relationships.get? name = some ts ∧
    g.Reports s n name ts d message ∧
    ∀ s' n' name' ts', g.node? s' = some n' → n'.relationships.get? name' = some ts' →
      s' < s ∨ s' = s ∧ Text.bytes name' < Text.bytes name → g.Fits n' name' ts'

/-! ### The search for a defect -/

theorem relationshipDefect?_eq_none_iff_fits :
    relationshipDefect? g.size s n.kind name ts = none ↔ g.Fits n name ts := by
  rw [relationshipDefect?_eq_none_iff, ← declares_iff_exists, declares_iff_declares, Fits]

/-- The defect of one relationship is the one that is reported for it. -/
theorem relationshipDefect?_eq_some_iff :
    relationshipDefect? g.size s n.kind name ts = some d ↔ g.Reports s n name ts d d.message := by
  unfold relationshipDefect?
  constructor
  · split
    · rename_i hdeclares
      intro h
      obtain ⟨t, ht, rfl⟩ := Option.map_eq_some_iff.1 h
      obtain ⟨htest, before, after, hslots, hbefore⟩ := List.find?_eq_some_iff_append.1 ht
      exact .dangling (declares_iff_declares.1 hdeclares) hslots
        (fun u hu => by simpa using hbefore u hu) (by simpa using htest)
    · rename_i hdeclares
      rintro ⟨⟩
      exact .undeclared (mt declares_iff_declares.2 hdeclares) rfl
  · intro h
    generalize d.message = message at h
    cases h with
    | undeclared h => rw [if_neg (mt declares_iff_declares.1 h)]
    | @dangling before after t h hslots hbefore ht =>
      rw [if_pos (declares_iff_declares.2 h)]
      refine Option.map_eq_some_iff.2 ⟨t, List.find?_eq_some_iff_append.2 ⟨by simpa using ht,
        before, after, hslots, fun u hu => by simpa using hbefore u hu⟩, rfl⟩

theorem nodeDefect?_eq_none_iff : nodeDefect? g.size s n = none ↔
    ∀ name ts, n.relationships.get? name = some ts → g.Fits n name ts := by
  simp only [nodeDefect?, List.findSome?_eq_none_iff, Prod.forall, Dict.get?_eq_some_iff,
    relationshipDefect?_eq_none_iff_fits]

/-- The names of a node are gone through in order. -/
theorem nodeDefect?_eq_some_iff : nodeDefect? g.size s n = some d ↔
    ∃ name ts, n.relationships.get? name = some ts ∧ g.Reports s n name ts d d.message ∧
      ∀ name' ts', n.relationships.get? name' = some ts' →
        Text.bytes name' < Text.bytes name → g.Fits n name' ts' := by
  rw [nodeDefect?, findSome?_eq_some_iff_of_pairwise n.relationships.sorted
    fun _ _ => String.lt_asymm]
  simp only [Prod.exists, Prod.forall, ← Dict.get?_eq_some_iff, relationshipDefect?_eq_some_iff,
    relationshipDefect?_eq_none_iff_fits, Text.bytes_lt_iff]

/-- The defect of a graph is the one that comes first. -/
theorem defect?_eq_some_iff : g.defect? = some d ↔ g.IsFirstDefect d d.message := by
  rw [defect?, findSome?_eq_some_iff_of_pairwise g.pairwise_slots fun _ _ => Nat.lt_asymm]
  simp only [Prod.exists, Prod.forall, mem_slots, nodeDefect?_eq_some_iff, nodeDefect?_eq_none_iff]
  constructor
  · rintro ⟨s, n, hn, ⟨name, ts, hts, hreports, hnames⟩, hslots⟩
    refine ⟨s, n, name, ts, hn, hts, hreports, fun s' n' name' ts' hn' hts' hbefore => ?_⟩
    rcases hbefore with hslot | ⟨rfl, hname⟩
    · exact hslots s' n' hn' hslot name' ts' hts'
    · obtain rfl : n = n' := Option.some.inj (hn.symm.trans hn')
      exact hnames name' ts' hts' hname
  · rintro ⟨s, n, name, ts, hn, hts, hreports, hbefore⟩
    exact ⟨s, n, hn, ⟨name, ts, hts, hreports,
      fun name' ts' hts' hname => hbefore s n name' ts' hn hts' (.inr ⟨rfl, hname⟩)⟩,
      fun s' n' hn' hslot name' ts' hts' => hbefore s' n' name' ts' hn' hts' (.inl hslot)⟩

/-! ### Walks through a valid graph -/

theorem Valid.lt_size_of_mem_children (h : g.Valid) (ht : t ∈ g.children s) : t < g.size := by
  unfold children at ht
  cases hn : g.node? s with
  | none => simp [hn] at ht
  | some n =>
    simp only [hn, List.mem_flatMap] at ht
    obtain ⟨r, -, ht⟩ := ht
    unfold Node.targets at ht
    cases hts : n.relationships.get? r.name with
    | none => simp [hts] at ht
    | some ts =>
      rw [hts] at ht
      exact (h s n hn r.name ts (Dict.get?_eq_some_iff.1 hts)).2 t ht

/-- What is below a slot is a child. -/
theorem Below.exists_mem_children (h : g.Below s t) : ∃ u, t ∈ g.children u := by
  obtain ⟨u, -, hu⟩ := Relation.TransGen.tail'_iff.1 h
  exact ⟨u, hu⟩

/-- What is in a block is a child. -/
theorem exists_mem_children_of_within (h : g.Within s t) : ∃ u, t ∈ g.children u := by
  cases h with
  | child h => exact ⟨s, h⟩
  | step _ _ hu => exact ⟨_, hu⟩

/-! ### What the check finds -/

/-- **A graph is refused for its first defect.** The check finds none exactly if every relationship
of every node is declared in its form and has its targets in the arena. Otherwise it finds what is
wrong with the first relationship that is not so, and the report says it. In a graph without a defect,
no walk leads out of the arena. -/
theorem defect_of_check (g : Graph) :
    (g.defect? = none ↔ ∀ s n name ts, g.node? s = some n →
      n.relationships.get? name = some ts → g.Fits n name ts) ∧
    (∀ d, g.defect? = some d ↔ g.IsFirstDefect d d.message) ∧
    (g.defect? = none → ∀ s t,
      t ∈ g.children s ∨ t ∈ g.descendants s ∨ t ∈ g.members s ∨ t ∈ g.blocks s → t < g.size) := by
  refine ⟨?_, fun d => defect?_eq_some_iff, fun hnone s t ht => ?_⟩
  · simp only [defect?, List.findSome?_eq_none_iff, Prod.forall, mem_slots, nodeDefect?_eq_none_iff]
    exact ⟨fun h s n name ts hn hts => h s n hn name ts hts,
      fun h s n hn name ts hts => h s n name ts hn hts⟩
  · have hvalid := defect?_eq_none_iff.1 hnone
    have hchild : ∃ u, t ∈ g.children u := by
      rcases ht with ht | ht | ht | ht
      · exact ⟨s, ht⟩
      · exact (mem_descendants.1 ht).1.exists_mem_children
      · exact exists_mem_children_of_within (mem_members.1 ht).1
      · exact (mem_blocks.1 ht).1.exists_mem_children
    obtain ⟨u, hu⟩ := hchild
    exact hvalid.lt_size_of_mem_children hu

/-- A call with two arguments outside the arena and a type that is no single node, and a reference
with a relationship that it does not declare. -/
def faulty : Graph :=
  ⟨#[(((Node.bare 0 .callExpression).withRelationship "TYPE" (.nodes [1])).withRelationship
      "CALLEE" (.single 1)).withRelationship "ARGUMENTS"
      (.edges [⟨1, .empty⟩, ⟨9, .empty⟩, ⟨7, .empty⟩]),
    (Node.bare 1 .reference).withRelationship "BODY" (.single 0)]⟩

theorem defect_of_check_faulty :
    faulty.IsFirstDefect (.dangling 0 "ARGUMENTS" 9)
        "Invalid program graph: node 0 references missing slot 9 via ARGUMENTS" ∧
      called.defect? = none ∧ 2 ∈ called.descendants 0 ∧ 2 < called.size := by
  have hdefects : faulty.defect? = some (.dangling 0 "ARGUMENTS" 9) ∧
      Defect.message (.dangling 0 "ARGUMENTS" 9) =
        "Invalid program graph: node 0 references missing slot 9 via ARGUMENTS" ∧
      called.defect? = none ∧ 2 ∈ called.children 0 := by decide +kernel
  obtain ⟨hfaulty, hmessage, hcalled, hchild⟩ := hdefects
  have hbelow : 2 ∈ called.descendants 0 := mem_descendants.2 ⟨.single hchild, by decide⟩
  exact ⟨hmessage ▸ ((defect_of_check faulty).2.1 _).1 hfaulty, hcalled, hbelow,
    (defect_of_check called).2.2 hcalled 0 2 (.inr (.inl hbelow))⟩

end Graph

end CodeGraph
