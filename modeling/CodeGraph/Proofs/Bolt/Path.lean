import CodeGraph.Bolt.Conversion
import CodeGraph.Proofs.Bolt.Entry
import CodeGraph.Proofs.Outcome

/-!
# Paths that are converted

The edges of a path are rebuilt from indices. Whatever the indices are, the edges are those of a
walk that starts at the first node of the path and goes from one of its nodes to another.

* `StoreEdge.Joins`, `IsWalk`, `isWalk_of_hops`: the walk that indices describe;
* `toProperties`, `AreConverted`, `toProperties_eq_ok`: what properties are converted to;
* `IsCell`, `isCell_of_toCell`: what a value can be converted to;
* `IsPath`, `isPath_of_toCell`: the edges of a converted path;
* `Cell.Holds`, `isPath_of_holds`: the paths that a converted value holds, at any depth.
-/

namespace CodeGraph

namespace StoreEdge

variable {α : Type}

/-- Whether an edge joins two nodes, in one direction or the other. -/
def Joins (e : StoreEdge α) (id id' : Int) : Prop :=
  e.source = id ∧ e.target = id' ∨ e.source = id' ∧ e.target = id

/-- Whether an edge starts or ends at a node. -/
def Touches (e : StoreEdge α) (id : Int) : Prop := e.source = id ∨ e.target = id

/-- Whether both ends of an edge are among some nodes. -/
def EndsIn (e : StoreEdge α) (nodes : List (StoreNode α)) : Prop :=
  (∃ n ∈ nodes, n.id = e.source) ∧ ∃ n ∈ nodes, n.id = e.target

theorem Joins.touches_left {e : StoreEdge α} {id id' : Int} (h : e.Joins id id') : e.Touches id :=
  h.imp And.left And.right

theorem Joins.touches_right {e : StoreEdge α} {id id' : Int} (h : e.Joins id id') : e.Touches id' :=
  h.symm.imp And.left And.right

/-- An edge between two of some nodes ends in them. -/
theorem Joins.endsIn {e : StoreEdge α} {nodes : List (StoreNode α)} {n n' : StoreNode α}
    (h : e.Joins n.id n'.id) (hn : n ∈ nodes) (hn' : n' ∈ nodes) : e.EndsIn nodes := by
  rcases h with ⟨hsource, htarget⟩ | ⟨hsource, htarget⟩
  · exact ⟨⟨n, hn, hsource.symm⟩, ⟨n', hn', htarget.symm⟩⟩
  · exact ⟨⟨n', hn', hsource.symm⟩, ⟨n, hn, htarget.symm⟩⟩

theorem EndsIn.mono {e : StoreEdge α} {nodes nodes' : List (StoreNode α)} (h : e.EndsIn nodes)
    (hsubset : nodes ⊆ nodes') : e.EndsIn nodes' := by
  obtain ⟨⟨n, hn, hsource⟩, n', hn', htarget⟩ := h
  exact ⟨⟨n, hsubset hn, hsource⟩, n', hsubset hn', htarget⟩

end StoreEdge

namespace Bolt

/-! ### Walks -/

/-- Whether edges are walked along one after the other, from this node to others of these. -/
inductive IsWalk (nodes : List (StoreNode Cell)) :
    StoreNode Cell → List (StoreEdge Cell) → Prop
  | nil {here : StoreNode Cell} : IsWalk nodes here []
  | cons {here next : StoreNode Cell} {e : StoreEdge Cell} {es : List (StoreEdge Cell)}
      (hjoins : e.Joins here.id next.id) (hnext : next ∈ nodes) (hrest : IsWalk nodes next es) :
      IsWalk nodes here (e :: es)

theorem mem_of_node? {nodes : List (StoreNode Cell)} {i : Int} {n : StoreNode Cell}
    (h : node? nodes i = some n) : n ∈ nodes := by
  unfold node? at h
  split at h
  · cases h
  · exact List.mem_of_getElem? h

theorem mem_of_link? {links : List Link} {i : Int} {l : Link} (h : link? links i = some l) :
    l ∈ links := by
  unfold link? at h
  split at h
  · cases h
  · exact List.mem_of_getElem? h

/-- One hop: the relationship, the next node, and the properties of the edge are all there. -/
theorem hops_cons_eq_ok {nodes : List (StoreNode Cell)} {links : List Link} {here r n : Int}
    {rest : List Int} {edges : List (StoreEdge Cell)} :
    hops nodes links here (r :: n :: rest) = .ok edges ↔
      ∃ link, link? links r = some link ∧ ∃ next, node? nodes n = some next ∧
        ∃ cells, link.properties = .ok cells ∧ ∃ es, hops nodes links next.id rest = .ok es ∧
          edges = ⟨link.id, if 0 < r then here else next.id, if 0 < r then next.id else here,
            link.name, cells⟩ :: es := by
  rw [hops]
  cases link? links r with
  | none =>
    constructor
    · rintro ⟨⟩
    · rintro ⟨_, ⟨⟩, _⟩
  | some link =>
    cases node? nodes n with
    | none =>
      constructor
      · rintro ⟨⟩
      · rintro ⟨_, _, _, ⟨⟩, _⟩
    | some next =>
      simp only [Option.some.injEq, ↓existsAndEq, true_and]
      rw [except_bind_eq_ok]
      by_cases hr : 0 < r
      · simp only [if_pos hr, except_map_eq_ok]
      · simp only [if_neg hr, except_map_eq_ok]

/-- An edge that is made by a hop joins the node before it and the node after it. -/
theorem exists_of_hops_cons {nodes : List (StoreNode Cell)} {links : List Link} {here r n : Int}
    {rest : List Int} {edges : List (StoreEdge Cell)}
    (h : hops nodes links here (r :: n :: rest) = .ok edges) :
    ∃ link, link? links r = some link ∧ ∃ next, node? nodes n = some next ∧
      ∃ e es, edges = e :: es ∧ e.Joins here next.id ∧ link.properties = .ok e.properties ∧
        hops nodes links next.id rest = .ok es := by
  obtain ⟨link, hlink, next, hnext, cells, hcells, es, hes, rfl⟩ := hops_cons_eq_ok.1 h
  refine ⟨link, hlink, next, hnext, _, es, rfl, ?_, hcells, hes⟩
  by_cases hr : 0 < r
  · exact .inl ⟨if_pos hr, if_pos hr⟩
  · exact .inr ⟨if_neg hr, if_neg hr⟩

/-- Whatever the indices are, the edges are those of a walk. -/
theorem isWalk_of_hops {nodes : List (StoreNode Cell)} {links : List Link} :
    ∀ {here : StoreNode Cell} {indices : List Int} {edges : List (StoreEdge Cell)},
      hops nodes links here.id indices = .ok edges → IsWalk nodes here edges
  | _, [], _, h => by cases h; exact .nil
  | _, [_], _, h => by cases h; exact .nil
  | _, _ :: _ :: _, _, h => by
    obtain ⟨_, _, next, hnext, e, es, rfl, hjoins, _, hrest⟩ := exists_of_hops_cons h
    exact .cons hjoins (mem_of_node? hnext) (isWalk_of_hops hrest)

/-- An edge of a path has the properties of one of its relationships. -/
theorem exists_link_of_hops {nodes : List (StoreNode Cell)} {links : List Link} :
    ∀ {here : Int} {indices : List Int} {edges : List (StoreEdge Cell)} {e : StoreEdge Cell},
      hops nodes links here indices = .ok edges → e ∈ edges →
      ∃ link ∈ links, link.properties = .ok e.properties
  | _, [], _, _, h, he => by cases h; cases he
  | _, [_], _, _, h, he => by cases h; cases he
  | _, _ :: _ :: _, _, _, h, he => by
    obtain ⟨link, hlink, next, _, e, es, rfl, _, hproperties, hrest⟩ := exists_of_hops_cons h
    rcases List.mem_cons.1 he with rfl | he
    · exact ⟨link, mem_of_link? hlink, hproperties⟩
    · exact exists_link_of_hops hrest he

namespace IsWalk

variable {nodes : List (StoreNode Cell)} {here : StoreNode Cell} {edges : List (StoreEdge Cell)}

/-- A walk that starts at one of some nodes does not leave them. -/
theorem endsIn (h : IsWalk nodes here edges) (hhere : here ∈ nodes) :
    ∀ e ∈ edges, e.EndsIn nodes := by
  induction h with
  | nil => exact fun _ hmem => absurd hmem List.not_mem_nil
  | cons hjoins hnext _ ih => exact List.forall_mem_cons.2 ⟨hjoins.endsIn hhere hnext, ih hnext⟩

/-- The first edge starts or ends where the walk starts. -/
theorem touches_head (h : IsWalk nodes here edges) : ∀ e ∈ edges.head?, e.Touches here.id := by
  cases h with
  | nil => exact fun _ hmem => by cases hmem
  | cons hjoins _ _ =>
    rintro e ⟨⟩
    exact hjoins.touches_left

/-- Two edges in a row have a node in common. -/
theorem isChain (h : IsWalk nodes here edges) :
    edges.IsChain fun e e' => ∃ n ∈ nodes, e.Touches n.id ∧ e'.Touches n.id := by
  induction h with
  | nil => exact .nil
  | @cons here next e es hjoins hnext hrest ih =>
    cases hrest with
    | nil => exact .singleton e
    | cons hjoins' _ _ =>
      exact .cons_cons ⟨next, hnext, hjoins.touches_right, hjoins'.touches_left⟩ ih

end IsWalk

/-! ### Conversions -/

theorem toCells_eq_mapM : ∀ vs : List Value, toCells vs = vs.mapM Value.toCell
  | [] => rfl
  | v :: vs => by rw [toCells, List.mapM_cons, toCells_eq_mapM vs]

theorem pathNodes_eq_mapM : ∀ vs : List Value, pathNodes vs = vs.mapM toNode
  | [] => rfl
  | v :: vs => by rw [pathNodes, List.mapM_cons, pathNodes_eq_mapM vs]

theorem pathLinks_eq_mapM : ∀ vs : List Value, pathLinks vs = vs.mapM toLink
  | [] => rfl
  | v :: vs => by rw [pathLinks, List.mapM_cons, pathLinks_eq_mapM vs]

theorem toEntries_eq_mapM : ∀ es : List (String × Value),
    toEntries es = es.mapM fun e => do return (e.1, ← e.2.toCell)
  | [] => rfl
  | e :: es => by rw [toEntries, List.mapM_cons, toEntries_eq_mapM es, bind_assoc]; rfl

/-- The properties of a node or a relationship as cells. -/
def toProperties (properties : List (String × Value)) :
    Except Malformed (List (String × Cell)) := do
  return inOrder (← toEntries properties)

/-- Whether entries are others whose values are converted. -/
def AreConvertedEntries : List (String × Value) → List (String × Cell) → Prop :=
  List.Forall₂ (Keyed fun v c => v.toCell = .ok c)

/-- Whether some properties are others whose values are converted, in the order of their keys. -/
def AreConverted (properties : List (String × Value)) (cells : List (String × Cell)) : Prop :=
  ∃ es, AreConvertedEntries properties es ∧ cells = inOrder es

theorem toEntries_eq_ok : ∀ {es : List (String × Value)} {cells : List (String × Cell)},
    toEntries es = .ok cells ↔ AreConvertedEntries es cells
  | [], cells => by
    rw [toEntries, AreConvertedEntries, List.forall₂_nil_left_iff, Except.ok.injEq, eq_comm]
  | (key, v) :: es, cells => by
    rw [toEntries, AreConvertedEntries, List.forall₂_cons_left_iff, except_bind_eq_ok]
    constructor
    · rintro ⟨c, hc, htail⟩
      obtain ⟨rest, hrest, rfl⟩ := except_map_eq_ok.1 htail
      exact ⟨(key, c), rest, .mk key hc, toEntries_eq_ok.1 hrest, rfl⟩
    · rintro ⟨_, rest, ⟨_, hc⟩, hrest, rfl⟩
      exact ⟨_, hc, except_map_eq_ok.2 ⟨rest, toEntries_eq_ok.2 hrest, rfl⟩⟩

theorem toProperties_eq_ok {properties : List (String × Value)} {cells : List (String × Cell)} :
    toProperties properties = .ok cells ↔ AreConverted properties cells := by
  simp only [toProperties, except_map_eq_ok, toEntries_eq_ok, AreConverted]

/-- Properties in order are converted as their entries are. -/
theorem toProperties_of_toEntries {properties : List (String × Value)}
    {es : List (String × Cell)} (h : toEntries properties = .ok es) :
    toProperties properties = .ok (inOrder es) :=
  except_map_eq_ok.2 ⟨es, h, rfl⟩

/-- A property is a converted value. -/
theorem exists_of_mem_toProperties {properties : List (String × Value)}
    {cells : List (String × Cell)} {key : String} {c : Cell}
    (h : toProperties properties = .ok cells) (hc : (key, c) ∈ cells) :
    ∃ v : Value, v.toCell = .ok c := by
  obtain ⟨es, hes, rfl⟩ := toProperties_eq_ok.1 h
  obtain ⟨_, _, _, hconverted⟩ := exists_of_mem_forall₂ hes (mem_of_mem_inOrder hc)
  exact ⟨_, hconverted⟩

/-- What a value can be converted to. -/
inductive IsCell : Value → Cell → Prop
  | null : IsCell .null .null
  | text (v : Value) : IsCell v (.text v.plain)
  | list {items : List Value} {cells : List Cell} (h : toCells items = .ok cells) :
      IsCell (.list items) (.list cells)
  | node {id : Int} {labels : List Value} {properties : List (String × Value)}
      {cells : List (String × Cell)} (h : toProperties properties = .ok cells) :
      IsCell (.node id labels properties) (.node ⟨id, labelTexts labels, cells⟩)
  | edge {id source target : Int} {name : String} {properties : List (String × Value)}
      {cells : List (String × Cell)} (h : toProperties properties = .ok cells) :
      IsCell (.relation id source target name properties) (.edge ⟨id, source, target, name, cells⟩)
  /-- A path without nodes has no edges either. -/
  | nowhere {nodes rels indices : List Value} : IsCell (.path nodes rels indices) (.path [] [])
  | path {nodes rels indices : List Value} {first : StoreNode Cell} {ns : List (StoreNode Cell)}
      {links : List Link} {numbers : List Int} {es : List (StoreEdge Cell)}
      (hnodes : pathNodes nodes = .ok (first :: ns)) (hlinks : pathLinks rels = .ok links)
      (hhops : hops (first :: ns) links first.id numbers = .ok es) :
      IsCell (.path nodes rels indices) (.path (first :: ns) es)

theorem isCell_of_toCell {v : Value} {c : Cell} (h : v.toCell = .ok c) : IsCell v c := by
  unfold Value.toCell at h
  split at h
  case h_1 id labels properties =>
    obtain ⟨es, hes, rfl⟩ := except_map_eq_ok.1 h
    exact .node (toProperties_of_toEntries hes)
  case h_2 id source target name properties =>
    obtain ⟨es, hes, rfl⟩ := except_map_eq_ok.1 h
    exact .edge (toProperties_of_toEntries hes)
  case h_3 nodes rels indices =>
    obtain ⟨ns, hns, h⟩ := except_bind_eq_ok.1 h
    obtain ⟨links, hlinks, h⟩ := except_bind_eq_ok.1 h
    obtain ⟨numbers, -, h⟩ := except_bind_eq_ok.1 h
    cases ns with
    | nil =>
      cases h
      exact .nowhere
    | cons first ns =>
      obtain ⟨es, hes, rfl⟩ := except_map_eq_ok.1 h
      exact .path hns hlinks hes
  case h_4 items =>
    obtain ⟨cells, hcells, rfl⟩ := except_map_eq_ok.1 h
    exact .list hcells
  case h_5 =>
    cases h
    exact .null
  case h_6 =>
    cases h
    exact .text v

/-! ### Paths -/

/-- Whether the edges of a path belong together: its nodes are their ends, two in a row have a node
in common, and the first one starts or ends at the first node. -/
structure IsPath (nodes : List (StoreNode Cell)) (edges : List (StoreEdge Cell)) : Prop where
  ends : ∀ e ∈ edges, e.EndsIn nodes
  consecutive : edges.IsChain fun e e' => ∃ n ∈ nodes, e.Touches n.id ∧ e'.Touches n.id
  first : ∀ e ∈ edges.head?, ∃ n ∈ nodes.head?, e.Touches n.id

theorem isPath_of_toCell {v : Value} {nodes : List (StoreNode Cell)}
    {edges : List (StoreEdge Cell)} (h : v.toCell = .ok (.path nodes edges)) :
    IsPath nodes edges := by
  cases isCell_of_toCell h with
  | nowhere => exact ⟨by simp, .nil, by simp⟩
  | @path _ _ _ first ns links numbers _ _ _ hhops =>
    have hwalk := isWalk_of_hops hhops
    exact ⟨hwalk.endsIn List.mem_cons_self, hwalk.isChain,
      fun e he => ⟨first, rfl, hwalk.touches_head e he⟩⟩

/-! ### Paths at any depth -/

end Bolt

/-- Whether a cell holds another one, as an item or as a property, at any depth. -/
inductive Cell.Holds : Cell → Cell → Prop
  | self (c : Cell) : Holds c c
  | item {items : List Cell} {c c' : Cell} (h : c ∈ items) (hc : Holds c c') :
      Holds (.list items) c'
  | nodeProperty {n : StoreNode Cell} {key : String} {c c' : Cell} (h : (key, c) ∈ n.properties)
      (hc : Holds c c') : Holds (.node n) c'
  | edgeProperty {e : StoreEdge Cell} {key : String} {c c' : Cell} (h : (key, c) ∈ e.properties)
      (hc : Holds c c') : Holds (.edge e) c'
  | pathNode {nodes : List (StoreNode Cell)} {edges : List (StoreEdge Cell)} {n : StoreNode Cell}
      {c' : Cell} (h : n ∈ nodes) (hc : Holds (.node n) c') : Holds (.path nodes edges) c'
  | pathEdge {nodes : List (StoreNode Cell)} {edges : List (StoreEdge Cell)} {e : StoreEdge Cell}
      {c' : Cell} (h : e ∈ edges) (hc : Holds (.edge e) c') : Holds (.path nodes edges) c'

namespace Bolt

/-- A node of a path is a value whose cell is a node. -/
theorem toNode_eq_ok {v : Value} {n : StoreNode Cell} :
    toNode v = .ok n ↔ v.toCell = .ok (.node n) := by
  constructor
  · intro h
    cases v with
    | node id labels properties =>
      obtain ⟨cells, hcells, rfl⟩ := except_map_eq_ok.1 h
      exact except_map_eq_ok.2 ⟨cells, hcells, rfl⟩
    | _ => cases h
  · intro h
    cases isCell_of_toCell h with
    | node hcells =>
      obtain ⟨es, hes, rfl⟩ := except_map_eq_ok.1 hcells
      exact except_map_eq_ok.2 ⟨es, hes, rfl⟩

/-- The properties of a relationship without ends are converted like all others. -/
theorem toLink_eq_ok {v : Value} {l : Link} : toLink v = .ok l ↔
    ∃ id name properties, v = .unbound id name properties ∧
      l = ⟨id, name, toProperties properties⟩ := by
  constructor
  · intro h
    cases v with
    | unbound id name properties =>
      cases h
      exact ⟨id, name, properties, rfl, rfl⟩
    | _ => cases h
  · rintro ⟨id, name, properties, rfl, rfl⟩
    rfl

/-- What a converted value holds is a converted value. -/
theorem exists_of_holds {c c' : Cell} (h : c.Holds c') :
    ∀ {v : Value}, v.toCell = .ok c → ∃ v' : Value, v'.toCell = .ok c' := by
  induction h with
  | self c => exact fun {v} hv => ⟨v, hv⟩
  | item hmem _ ih =>
    intro v hv
    cases isCell_of_toCell hv with
    | list hitems =>
      rw [toCells_eq_mapM] at hitems
      obtain ⟨_, _, hitem⟩ := exists_of_mem_of_mapM_eq_ok hitems hmem
      exact ih hitem
  | nodeProperty hmem _ ih =>
    intro v hv
    cases isCell_of_toCell hv with
    | node hproperties =>
      obtain ⟨_, hproperty⟩ := exists_of_mem_toProperties hproperties hmem
      exact ih hproperty
  | edgeProperty hmem _ ih =>
    intro v hv
    cases isCell_of_toCell hv with
    | edge hproperties =>
      obtain ⟨_, hproperty⟩ := exists_of_mem_toProperties hproperties hmem
      exact ih hproperty
  | pathNode hmem _ ih =>
    intro v hv
    cases isCell_of_toCell hv with
    | nowhere => cases hmem
    | path hnodes _ _ =>
      rw [pathNodes_eq_mapM] at hnodes
      obtain ⟨_, _, hnode⟩ := exists_of_mem_of_mapM_eq_ok hnodes hmem
      exact ih (toNode_eq_ok.1 hnode)
  | @pathEdge nodes edges e c' hmem _ ih =>
    intro v hv
    cases isCell_of_toCell hv with
    | nowhere => cases hmem
    | path _ hlinks hhops =>
      rw [pathLinks_eq_mapM] at hlinks
      obtain ⟨link, hlink, hproperties⟩ := exists_link_of_hops hhops hmem
      obtain ⟨_, _, hlink⟩ := exists_of_mem_of_mapM_eq_ok hlinks hlink
      obtain ⟨_, _, properties, -, rfl⟩ := toLink_eq_ok.1 hlink
      -- an edge of a path is like an edge that stands alone with the same properties
      have hedge : (Value.relation e.id e.source e.target e.name properties).toCell =
          .ok (.edge e) := by
        obtain ⟨es, hes, heq⟩ := except_map_eq_ok.1 hproperties
        exact except_map_eq_ok.2 ⟨es, hes, by rw [← heq]⟩
      exact ih hedge

/-- Every path that a converted value holds is one. -/
theorem isPath_of_holds {v : Value} {c : Cell} {nodes : List (StoreNode Cell)}
    {edges : List (StoreEdge Cell)} (hv : v.toCell = .ok c) (h : c.Holds (.path nodes edges)) :
    IsPath nodes edges := by
  obtain ⟨v', hv'⟩ := exists_of_holds h hv
  exact isPath_of_toCell hv'

end Bolt

end CodeGraph
