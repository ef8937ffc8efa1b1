import CodeGraph.Program.Validity
import CodeGraph.Proofs.Program.Tagging
import Mathlib.Logic.Equiv.Defs

/-!
# Graphs whose slots are permuted

The nodes of a graph can stand in its arena in any order, if every target is renamed with them. What a
graph says about a slot, its permutation says about the slot's new place.

* `Targets.Renamed`, `Node.Renamed`: the same node with renamed targets, with
  `Node.Renamed.targets` and `Node.Renamed.path`;
* `Graph.Permuted`: the same graph with permuted slots, with `Graph.Permuted.symm`;
* `Graph.Permuted.children`, `Graph.Permuted.below`, `Graph.Permuted.within`,
  `Graph.Permuted.firstDeclares`: the walks through both graphs;
* `Graph.Permuted.earns_iff`: a slot earns its tag in any place;
* `Graph.permute`, `Graph.permuted_permute`: the permutation of a valid graph.
-/

namespace CodeGraph

/-- Two options that are related hold nothing, or two things that are related. -/
theorem eq_none_or_exists_of_rel {α β : Type} {r : α → β → Prop} {a : Option α} {b : Option β}
    (h : Option.Rel r a b) : (a = none ∧ b = none) ∨ ∃ x y, a = some x ∧ b = some y ∧ r x y := by
  cases h with
  | none => exact .inl ⟨rfl, rfl⟩
  | some hxy => exact .inr ⟨_, _, rfl, rfl, hxy⟩

/-! ### Nodes -/

/-- The same targets under other names. -/
structure Targets.Renamed (f : Slot → Slot) (ts ts' : Targets) : Prop where
  arity : ts'.arity = ts.arity
  ends : ts'.ends = ts.ends.map fun e => (f e.1, e.2)

/-- The same node, whose targets have other names. -/
structure Node.Renamed (f : Slot → Slot) (n n' : Node) : Prop where
  id : n'.id = n.id
  kind : n'.kind = n.kind
  properties : n'.properties = n.properties
  relationships : ∀ name,
    Option.Rel (Targets.Renamed f) (n.relationships.get? name) (n'.relationships.get? name)

theorem Targets.Renamed.symm {π : Equiv.Perm Slot} {ts ts' : Targets} (h : ts.Renamed π ts') :
    ts'.Renamed π.symm ts where
  arity := h.arity.symm
  ends := by
    rw [h.ends, List.map_map]
    have hid : ∀ e ∈ ts.ends,
        ((fun e => (π.symm e.1, e.2)) ∘ fun e : Slot × Dict Json => (π e.1, e.2)) e = e := by
      rintro ⟨t, properties⟩ -
      simp
    rw [List.map_congr_left hid, List.map_id']

namespace Node.Renamed

variable {f : Slot → Slot} {n n' : Node}

theorem symm {π : Equiv.Perm Slot} (h : n.Renamed π n') : n'.Renamed π.symm n where
  id := h.id.symm
  kind := h.kind.symm
  properties := h.properties.symm
  relationships name := by
    rcases eq_none_or_exists_of_rel (h.relationships name) with ⟨h₁, h₂⟩ | ⟨ts, ts', h₁, h₂, hts⟩
    · rw [h₁, h₂]
      exact .none
    · rw [h₁, h₂]
      exact .some hts.symm

theorem text? (h : n.Renamed f n') (key : String) : n'.text? key = n.text? key := by
  rw [Node.text?, h.properties, ← Node.text?]

theorem name? (h : n.Renamed f n') : n'.name? = n.name? := by
  rw [Node.name?, Node.nonempty?, h.text?, ← Node.nonempty?, ← Node.name?]

theorem localName? (h : n.Renamed f n') : n'.localName? = n.localName? := by
  rw [Node.localName?, Node.nonempty?, h.text?, h.name?, ← Node.nonempty?, ← Node.localName?]

theorem code? (h : n.Renamed f n') : n'.code? = n.code? :=
  h.text? "code"

theorem path (h : n.Renamed f n') : n'.path = n.path := by
  rw [Node.path, h.name?, ← Node.path]

/-- The targets under a relationship, in the same order. -/
theorem targets (h : n.Renamed f n') (name : String) : n'.targets name = (n.targets name).map f := by
  unfold Node.targets
  rcases eq_none_or_exists_of_rel (h.relationships name) with ⟨h₁, h₂⟩ | ⟨ts, ts', h₁, h₂, hts⟩
  · rw [h₁, h₂]
    rfl
  · rw [h₁, h₂]
    simp only [Targets.slots, hts.ends, List.map_map]
    rfl

end Node.Renamed

/-! ### Graphs -/

namespace Graph

/-- The same graph, whose slots are permuted: the node of a slot stands in the slot's new place, and
all its targets are renamed. -/
structure Permuted (π : Equiv.Perm Slot) (g g' : Graph) : Prop where
  size : g'.size = g.size
  node : ∀ s, Option.Rel (Node.Renamed π) (g.node? s) (g'.node? (π s))

namespace Permuted

variable {π : Equiv.Perm Slot} {g g' : Graph} {s t b : Slot} {name : String}

/-- A slot has a node in both places or in none. -/
theorem node_cases (h : g.Permuted π g') (s : Slot) :
    (g.node? s = none ∧ g'.node? (π s) = none) ∨
      ∃ n n', g.node? s = some n ∧ g'.node? (π s) = some n' ∧ n.Renamed π n' :=
  eq_none_or_exists_of_rel (h.node s)

theorem symm (h : g.Permuted π g') : g'.Permuted π.symm g where
  size := h.size.symm
  node s := by
    have hcases := h.node_cases (π.symm s)
    rw [π.apply_symm_apply] at hcases
    rcases hcases with ⟨h₁, h₂⟩ | ⟨n, n', h₁, h₂, hn⟩
    · rw [h₁, h₂]
      exact .none
    · rw [h₁, h₂]
      exact .some hn.symm

theorem exists_node (h : g.Permuted π g') {n : Node} (hn : g.node? s = some n) :
    ∃ n', g'.node? (π s) = some n' ∧ n.Renamed π n' := by
  rcases h.node_cases s with ⟨h₁, -⟩ | ⟨n, n', h₁, h₂, hrenamed⟩
  · rw [hn] at h₁
    cases h₁
  · rw [hn] at h₁
    cases h₁
    exact ⟨n', h₂, hrenamed⟩

theorem kind? (h : g.Permuted π g') (s : Slot) : g'.kind? (π s) = g.kind? s := by
  unfold Graph.kind?
  rcases h.node_cases s with ⟨h₁, h₂⟩ | ⟨n, n', h₁, h₂, hn⟩
  · rw [h₁, h₂]
  · rw [h₁, h₂, Option.map_some, Option.map_some, hn.kind]

theorem isBlock (h : g.Permuted π g') (s : Slot) : g'.isBlock (π s) = g.isBlock s := by
  rw [Graph.isBlock, h.kind?, ← Graph.isBlock]

/-- The children are renamed and keep their order. -/
theorem children (h : g.Permuted π g') (s : Slot) :
    g'.children (π s) = (g.children s).map π := by
  unfold Graph.children
  rcases h.node_cases s with ⟨h₁, h₂⟩ | ⟨n, n', h₁, h₂, hn⟩
  · rw [h₁, h₂]
    rfl
  · rw [h₁, h₂]
    simp only [hn.kind, hn.targets, List.map_flatMap]

theorem inner (h : g.Permuted π g') (s : Slot) : g'.inner (π s) = (g.inner s).map π := by
  unfold Graph.inner
  rw [h.isBlock, h.children, apply_ite (List.map π), List.map_nil]

theorem below (h : g.Permuted π g') (hst : g.Below s t) : g'.Below (π s) (π t) := by
  refine Relation.TransGen.lift π (fun a b hab => ?_) _ _ hst
  show π b ∈ g'.children (π a)
  rw [h.children]
  exact List.mem_map_of_mem hab

theorem within (h : g.Permuted π g') (hbt : g.Within b t) : g'.Within (π b) (π t) := by
  induction hbt with
  | child hchild =>
    refine .child ?_
    rw [h.children]
    exact List.mem_map_of_mem hchild
  | step _ ht hu ih =>
    refine .step ih ?_ ?_
    · rwa [h.isBlock]
    · rw [h.children]
      exact List.mem_map_of_mem hu

theorem declares (h : g.Permuted π g') (hs : g.Declares s name) : g'.Declares (π s) name := by
  obtain ⟨n, hn, hkind, hname⟩ := hs
  obtain ⟨n', hn', hrenamed⟩ := h.exists_node hn
  exact ⟨n', hn', hrenamed.kind.trans hkind, hrenamed.localName?.trans hname⟩

theorem of_declares (h : g.Permuted π g') (hs : g'.Declares (π s) name) : g.Declares s name := by
  have hback := h.symm.declares hs
  rwa [π.symm_apply_apply] at hback

theorem debugs (h : g.Permuted π g') (hs : g.Debugs s name) : g'.Debugs (π s) name := by
  obtain ⟨call, a, argument, code, hcall, hkind, hname, ha, hargument, hcode, hpart⟩ := hs
  obtain ⟨call', hcall', hrenamed⟩ := h.exists_node hcall
  obtain ⟨argument', hargument', hrenamed'⟩ := h.exists_node hargument
  have ha' : (call'.targets "ARGUMENTS").head? = some (π a) := by
    rw [hrenamed.targets, List.head?_map, ha, Option.map_some]
  exact ⟨call', π a, argument', code, hcall', hrenamed.kind.trans hkind, hrenamed.name?.trans hname,
    ha', hargument', hrenamed'.code?.trans hcode, hpart⟩

/-- A block is searched in the same order, so the same declaration comes first. -/
theorem firstDeclares (h : g.Permuted π g') (hs : g.FirstDeclares b s name) :
    g'.FirstDeclares (π b) (π s) name := by
  obtain ⟨before, after, hsearch, hdeclares, hbefore⟩ := hs
  have hsearch' := hsearch.map π.injective h.inner
  rw [← h.children, List.map_append, List.map_cons] at hsearch'
  refine ⟨before.map π, after.map π, hsearch', h.declares hdeclares, fun t' ht' hdeclares' => ?_⟩
  obtain ⟨t, ht, rfl⟩ := List.mem_map.1 ht'
  exact hbefore t ht (h.of_declares hdeclares')

theorem earns (h : g.Permuted π g') {tag : Tag} (hs : g.Earns s tag) : g'.Earns (π s) tag := by
  cases tag with
  | mainFunction =>
    obtain ⟨n, hn, hkind, hpath⟩ := hs
    obtain ⟨n', hn', hrenamed⟩ := h.exists_node hn
    exact ⟨n', hn', hrenamed.kind ▸ hkind, hrenamed.path ▸ hpath⟩
  | trackedVariable =>
    obtain ⟨f, b, c, name, ⟨n, hn, hkind, hpath⟩, hfb, hb, hbc, hc, hs⟩ := hs
    obtain ⟨n', hn', hrenamed⟩ := h.exists_node hn
    have hfunction : g'.IsProgramFunction (π f) :=
      ⟨n', hn', hrenamed.kind ▸ hkind, hrenamed.path ▸ hpath⟩
    have hblock : g'.isBlock (π b) = true := (h.isBlock b).trans hb
    exact ⟨π f, π b, π c, name, hfunction, h.below hfb, hblock, h.within hbc, h.debugs hc,
      h.firstDeclares hs⟩

/-- A slot earns in its new place what it earned before. -/
theorem earns_iff (h : g.Permuted π g') {tag : Tag} : g'.Earns (π s) tag ↔ g.Earns s tag := by
  refine ⟨fun hs => ?_, h.earns⟩
  have hback := h.symm.earns hs
  rwa [π.symm_apply_apply] at hback

end Permuted

end Graph

/-! ### Permuting a graph -/

/-- The targets under other names. -/
def Targets.rename (f : Slot → Slot) : Targets → Targets
  | .single t => .single (.ofNat (f t.toNat))
  | .nodes ts => .nodes (ts.map fun t => .ofNat (f t.toNat))
  | .edges es => .edges (es.map fun e => { e with target := .ofNat (f e.target.toNat) })

/-- Targets whose names are slots of 64 bits can be renamed. -/
theorem Targets.renamed_rename {f : Slot → Slot} {ts : Targets}
    (h : ∀ t ∈ ts.slots, f t < UInt64.size) : ts.Renamed f (ts.rename f) where
  arity := by
    cases ts with
    | single t => rfl
    | nodes ts => rfl
    | edges es => rfl
  ends := by
    cases ts with
    | single t =>
      have ht := h t.toNat (List.mem_singleton.2 rfl)
      simp only [rename, ends, List.map_cons, List.map_nil, UInt64.toNat_ofNat_of_lt' ht]
    | nodes ts =>
      simp only [rename, ends, List.map_map]
      refine List.map_congr_left fun t ht => ?_
      have hlt := h t.toNat (by simpa [slots, ends] using ⟨t, ht, rfl⟩)
      simp only [Function.comp_apply, UInt64.toNat_ofNat_of_lt' hlt]
    | edges es =>
      simp only [rename, ends, List.map_map]
      refine List.map_congr_left fun e he => ?_
      have hlt := h e.target.toNat (by simpa [slots, ends] using ⟨e, he, rfl⟩)
      simp only [Function.comp_apply, UInt64.toNat_ofNat_of_lt' hlt]

/-- The node, whose targets have other names. -/
def Node.rename (f : Slot → Slot) (n : Node) : Node :=
  { n with relationships := n.relationships.map (Targets.rename f) }

theorem Node.renamed_rename {f : Slot → Slot} {n : Node}
    (h : ∀ name ts, (name, ts) ∈ n.relationships.entries → ∀ t ∈ ts.slots, f t < UInt64.size) :
    n.Renamed f (n.rename f) where
  id := rfl
  kind := rfl
  properties := rfl
  relationships name := by
    rw [Node.rename, Dict.get?_map]
    cases hts : n.relationships.get? name with
    | none => exact .none
    | some ts => exact .some (Targets.renamed_rename (h name ts (Dict.mem_of_get? hts)))

namespace Graph

/-- The graph with its slots permuted. -/
def permute (π : Equiv.Perm Slot) (g : Graph) : Graph :=
  ⟨.ofFn fun s : Fin g.size => ((g.node? (π.symm s)).getD (.bare 0 .language)).rename π⟩

@[simp] theorem size_permute (π : Equiv.Perm Slot) (g : Graph) : (g.permute π).size = g.size :=
  Array.size_ofFn

/-- A valid graph that fits an arena of 64-bit slots can be permuted in any way. -/
theorem permuted_permute {π : Equiv.Perm Slot} {g : Graph} (hvalid : g.Valid)
    (hπ : ∀ s, π s < g.size ↔ s < g.size) (hsize : g.size ≤ UInt64.size) :
    g.Permuted π (g.permute π) where
  size := size_permute π g
  node s := by
    by_cases hs : s < g.size
    · obtain ⟨n, hn⟩ : ∃ n, g.node? s = some n := ⟨_, Array.getElem?_eq_getElem hs⟩
      have hn' : (g.permute π).node? (π s) = some (n.rename π) := by
        rw [permute, node?, Array.getElem?_ofFn, dif_pos ((hπ s).2 hs)]
        simp only [π.symm_apply_apply, hn, Option.getD_some]
      rw [hn, hn']
      refine .some (Node.renamed_rename fun name ts hts t ht => ?_)
      exact Nat.lt_of_lt_of_le ((hπ t).2 ((hvalid s n hn name ts hts).2 t ht)) hsize
    · have hs' : ¬ π s < g.size := fun h => hs ((hπ s).1 h)
      rw [node?_eq_none (Nat.le_of_not_lt hs),
        node?_eq_none (by rw [size_permute]; exact Nat.le_of_not_lt hs')]
      exact .none

end Graph

end CodeGraph
