import CodeGraph.Proofs.Bolt.Path
import CodeGraph.Proofs.Result.First

/-!
# Walks that are sent as paths

A path is sent as what it walks over, each node and each relationship once and the relationships
without their ends, and as indices that say in which order and in which direction. What is read from
it is the walk again, however often it comes back to a node or to a relationship.

* `Vertex`, `Hop`, `Walk`: a walk over nodes and relationships, in one direction or the other;
* `AreConvertible`, `Vertex.Becomes`, `EdgeBecomes`: what nodes and relationships become;
* `IsIndex`, `Numbers`, `Encoding`, `Walk.nonempty_encoding`: a walk as it is sent;
* `IsIndex.link?_eq`, `hops_of_numbers`: what is read from the indices of a walk;
* `Walk.restored_of_encoding`: every walk can be sent, and is read as it was.
-/

namespace CodeGraph.Bolt

/-! ### Walks -/

/-- A node as the store sends it. -/
structure Vertex where
  id : Int
  labels : List Value
  properties : List (String × Value)

/-- A relationship and the node that it leads to. -/
structure Hop where
  edge : StoreEdge Value
  next : Vertex

/-- Whether each relationship joins the node before it and the node after it. -/
def IsTrail : Vertex → List Hop → Prop
  | _, [] => True
  | here, h :: hs => h.edge.Joins here.id h.next.id ∧ IsTrail h.next hs

/-- A walk from a node on. -/
structure Walk where
  start : Vertex
  hops : List Hop
  joined : IsTrail start hops

namespace Walk

/-- The nodes of a walk in its order. -/
def nodes (w : Walk) : List Vertex := w.start :: w.hops.map Hop.next

/-- The relationships of a walk in its order. -/
def edges (w : Walk) : List (StoreEdge Value) := w.hops.map Hop.edge

end Walk

/-! ### What nodes and relationships become -/

/-- Whether all values of some properties can be converted. -/
def AreConvertible (properties : List (String × Value)) : Prop :=
  ∀ property ∈ properties, ∃ c, property.2.toCell = .ok c

/-- What a node becomes. -/
structure Vertex.Becomes (v : Vertex) (n : StoreNode Cell) : Prop where
  id : n.id = v.id
  labels : n.labels = labelTexts v.labels
  properties : AreConverted v.properties n.properties

/-- What a relationship becomes: it keeps its ends. -/
structure EdgeBecomes (e : StoreEdge Value) (e' : StoreEdge Cell) : Prop where
  id : e'.id = e.id
  source : e'.source = e.source
  target : e'.target = e.target
  name : e'.name = e.name
  properties : AreConverted e.properties e'.properties

theorem AreConvertible.exists_areConverted {properties : List (String × Value)}
    (h : AreConvertible properties) : ∃ cells, AreConverted properties cells := by
  obtain ⟨es, hes⟩ : ∃ es, AreConvertedEntries properties es := exists_forall₂ fun property hmem => by
    obtain ⟨c, hc⟩ := h property hmem
    exact ⟨(property.1, c), .mk property.1 hc⟩
  exact ⟨inOrder es, es, hes, rfl⟩

theorem Vertex.exists_becomes {v : Vertex} (h : AreConvertible v.properties) : ∃ n, v.Becomes n := by
  obtain ⟨cells, hcells⟩ := h.exists_areConverted
  exact ⟨⟨v.id, labelTexts v.labels, cells⟩, rfl, rfl, hcells⟩

/-! ### Walks as they are sent -/

/-- A node as a value. -/
def Vertex.value (v : Vertex) : Value := .node v.id v.labels v.properties

/-- A relationship as a value, without its ends. -/
def unbound (e : StoreEdge Value) : Value := .unbound e.id e.name e.properties

/-- The index of the relationship of a hop. It counts from one, and it is negative if the hop goes
against the relationship. From a node to itself, a hop goes both along it and against it. -/
inductive IsIndex (edges : List (StoreEdge Value)) (here : Vertex) (h : Hop) : Int → Prop
  | along {i : Nat} (hedge : edges[i]? = some h.edge) (hsource : h.edge.source = here.id)
      (htarget : h.edge.target = h.next.id) : IsIndex edges here h (i + 1)
  | against {i : Nat} (hedge : edges[i]? = some h.edge) (hsource : h.edge.source = h.next.id)
      (htarget : h.edge.target = here.id) : IsIndex edges here h (-(i + 1))

/-- The indices of a walk: for each hop that of its relationship and that of the next node, which
counts from zero. -/
inductive Numbers (nodes : List Vertex) (edges : List (StoreEdge Value)) :
    Vertex → List Hop → List Int → Prop
  | nil (here : Vertex) : Numbers nodes edges here [] []
  | cons {here : Vertex} {h : Hop} {hs : List Hop} {r : Int} {j : Nat} {rest : List Int}
      (hindex : IsIndex edges here h r) (hnext : nodes[j]? = some h.next)
      (hrest : Numbers nodes edges h.next hs rest) :
      Numbers nodes edges here (h :: hs) (r :: j :: rest)

/-- A walk as it is sent: its nodes, each once and the first one in front, its relationships, each
once, and its indices. -/
structure Encoding (w : Walk) where
  nodes : List Vertex
  edges : List (StoreEdge Value)
  indices : List Int
  first : nodes.head? = some w.start
  nodup_nodes : nodes.Nodup
  mem_nodes : ∀ v, v ∈ nodes ↔ v ∈ w.nodes
  nodup_edges : edges.Nodup
  mem_edges : ∀ e, e ∈ edges ↔ e ∈ w.edges
  numbers : Numbers nodes edges w.start w.hops indices

/-- The value that is sent. -/
def Encoding.value {w : Walk} (c : Encoding w) : Value :=
  .path (c.nodes.map Vertex.value) (c.edges.map unbound) (c.indices.map .int)

section Sent

variable {nodes : List Vertex} {edges : List (StoreEdge Value)}

theorem exists_isIndex {here : Vertex} {h : Hop} (hjoins : h.edge.Joins here.id h.next.id)
    (hedge : h.edge ∈ edges) : ∃ r, IsIndex edges here h r := by
  obtain ⟨i, hi⟩ := List.getElem?_of_mem hedge
  rcases hjoins with ⟨hsource, htarget⟩ | ⟨hsource, htarget⟩
  · exact ⟨_, .along hi hsource htarget⟩
  · exact ⟨_, .against hi hsource htarget⟩

theorem exists_numbers : ∀ {here : Vertex} {hs : List Hop}, IsTrail here hs →
    (∀ h ∈ hs, h.next ∈ nodes) → (∀ h ∈ hs, h.edge ∈ edges) →
    ∃ indices, Numbers nodes edges here hs indices
  | here, [], _, _, _ => ⟨[], .nil here⟩
  | here, h :: hs, ⟨hjoins, htrail⟩, hnodes, hedges => by
    obtain ⟨hnext, hnodes⟩ := List.forall_mem_cons.1 hnodes
    obtain ⟨hedge, hedges⟩ := List.forall_mem_cons.1 hedges
    obtain ⟨r, hr⟩ := exists_isIndex hjoins hedge
    obtain ⟨j, hj⟩ := List.getElem?_of_mem hnext
    obtain ⟨rest, hrest⟩ := exists_numbers htrail hnodes hedges
    exact ⟨r :: j :: rest, .cons hr hj hrest⟩

end Sent

open Classical in
/-- Every walk can be sent. -/
theorem Walk.nonempty_encoding (w : Walk) : Nonempty (Encoding w) := by
  have hnext : ∀ h ∈ w.hops, h.next ∈ firsts id w.nodes := fun h hmem =>
    mem_firsts_id.2 (List.mem_cons_of_mem _ (List.mem_map_of_mem hmem))
  have hedge : ∀ h ∈ w.hops, h.edge ∈ firsts id w.edges := fun h hmem =>
    mem_firsts_id.2 (List.mem_map_of_mem hmem)
  obtain ⟨indices, hindices⟩ := exists_numbers w.joined hnext hedge
  exact ⟨⟨firsts id w.nodes, firsts id w.edges, indices, rfl, nodup_firsts_id _,
    fun _ => mem_firsts_id, nodup_firsts_id _, fun _ => mem_firsts_id, hindices⟩⟩

/-! ### Walks as they are read -/

section Read

variable {nodes : List Vertex} {edges : List (StoreEdge Value)} {ns : List (StoreNode Cell)}

theorem toNode_value {v : Vertex} {n : StoreNode Cell} (h : v.Becomes n) :
    toNode v.value = .ok n := by
  obtain ⟨id, labels, cells⟩ := n
  obtain ⟨rfl, rfl, es, hes, rfl⟩ := h
  exact except_map_eq_ok.2 ⟨es, toEntries_eq_ok.2 hes, rfl⟩

theorem pathNodes_map_value (h : List.Forall₂ Vertex.Becomes nodes ns) :
    pathNodes (nodes.map Vertex.value) = .ok ns := by
  induction h with
  | nil => rfl
  | cons hbecomes _ ih =>
    rw [List.map_cons, pathNodes, toNode_value hbecomes, ih]
    rfl

/-- A relationship of a path that is read. -/
def link (e : StoreEdge Value) : Link := ⟨e.id, e.name, toProperties e.properties⟩

theorem pathLinks_map_unbound (edges : List (StoreEdge Value)) :
    pathLinks (edges.map unbound) = .ok (edges.map link) := by
  induction edges with
  | nil => rfl
  | cons e edges ih =>
    rw [List.map_cons, pathLinks, ih]
    rfl

theorem indexNumbers_map_int (indices : List Int) :
    indexNumbers (indices.map .int) = .ok indices := by
  induction indices with
  | nil => rfl
  | cons i indices ih =>
    rw [List.map_cons, indexNumbers, ih]
    rfl

theorem node?_natCast (ns : List (StoreNode Cell)) (j : Nat) : node? ns j = ns[j]? := by
  rw [node?, if_neg (Int.not_lt.2 (Int.natCast_nonneg j)), Int.toNat_natCast]

/-- The index of a relationship points to it, and its sign says which end comes first. -/
theorem IsIndex.link?_eq {here : Vertex} {h : Hop} {r : Int} (hindex : IsIndex edges here h r) :
    link? (edges.map link) r = some (link h.edge) ∧
      h.edge.source = (if 0 < r then here.id else h.next.id) ∧
      h.edge.target = (if 0 < r then h.next.id else here.id) := by
  cases hindex with
  | @along i hedge hsource htarget =>
    have hpositive : (0 : Int) < i + 1 := by omega
    rw [link?, if_neg (Int.ne_of_gt hpositive), show (i + 1 : Int).natAbs - 1 = i by omega,
      List.getElem?_map, hedge, if_pos hpositive, if_pos hpositive]
    exact ⟨rfl, hsource, htarget⟩
  | @against i hedge hsource htarget =>
    have hnegative : ¬(0 : Int) < -(i + 1) := by omega
    rw [link?, if_neg (by omega), show (-(i + 1 : Int)).natAbs - 1 = i by omega,
      List.getElem?_map, hedge, if_neg hnegative, if_neg hnegative]
    exact ⟨rfl, hsource, htarget⟩

/-- The indices of a walk describe its relationships with the ends that they had. By induction on
the walk: where the reader is, the walk is. -/
theorem hops_of_numbers {here : Vertex} {hs : List Hop} {indices : List Int}
    (hnumbers : Numbers nodes edges here hs indices) (hnodes : List.Forall₂ Vertex.Becomes nodes ns)
    (hedges : ∀ h ∈ hs, AreConvertible h.edge.properties) :
    ∃ es, hops ns (edges.map link) here.id indices = .ok es ∧
      List.Forall₂ EdgeBecomes (hs.map Hop.edge) es := by
  induction hnumbers with
  | nil here => exact ⟨[], rfl, .nil⟩
  | @cons here h hs r j rest hindex hnext _ ih =>
    obtain ⟨hconvert, hedges⟩ := List.forall_mem_cons.1 hedges
    obtain ⟨cells, hcells⟩ := hconvert.exists_areConverted
    obtain ⟨n, hn, hbecomes⟩ := exists_getElem?_of_forall₂ hnodes hnext
    obtain ⟨hlink, hsource, htarget⟩ := hindex.link?_eq
    obtain ⟨es, hes, hrest⟩ := ih hedges
    rw [← hbecomes.id] at hsource htarget hes
    refine ⟨_, hops_cons_eq_ok.2 ⟨_, hlink, n, (node?_natCast ns j).trans hn, cells,
      toProperties_eq_ok.2 hcells, es, hes, rfl⟩, .cons ?_ hrest⟩
    exact ⟨rfl, hsource.symm, htarget.symm, rfl, hcells⟩

end Read

/-- A walk can be sent, and from everything that is sent for it the same nodes are read, each once,
and the same relationships, in the order of the walk and with the ends that they had. -/
theorem Walk.restored_of_encoding (w : Walk) (hnodes : ∀ v ∈ w.nodes, AreConvertible v.properties)
    (hedges : ∀ e ∈ w.edges, AreConvertible e.properties) :
    Nonempty (Encoding w) ∧
      ∀ c : Encoding w, ∃ ns es, c.value.toCell = .ok (.path ns es) ∧
        List.Forall₂ Vertex.Becomes c.nodes ns ∧ List.Forall₂ EdgeBecomes w.edges es := by
  refine ⟨w.nonempty_encoding, fun c => ?_⟩
  obtain ⟨ns, hns⟩ := exists_forall₂ fun v hv =>
    Vertex.exists_becomes (hnodes v ((c.mem_nodes v).1 hv))
  obtain ⟨es, hes, hrestored⟩ := hops_of_numbers c.numbers hns fun h hmem =>
    hedges h.edge (List.mem_map_of_mem hmem)
  refine ⟨ns, es, ?_, hns, hrestored⟩
  have hpath : pathCell ns (c.edges.map link) c.indices = .ok (.path ns es) := by
    obtain ⟨nodes, hnodes⟩ := List.head?_eq_some_iff.1 c.first
    obtain ⟨first, ns, hfirst, _, rfl⟩ := List.forall₂_cons_left_iff.1 (hnodes ▸ hns)
    rw [pathCell, hfirst.id, hes]
    rfl
  rw [Encoding.value, Value.toCell, pathNodes_map_value hns, pathLinks_map_unbound,
    indexNumbers_map_int]
  exact hpath

namespace Round

def home : Vertex := ⟨1, [.text "Block"], [("name", .text "a"), ("lines", .list [.int 3, .null])]⟩

def away : Vertex := ⟨2, [.text "Call", .int 0], []⟩

def out : StoreEdge Value := ⟨10, 1, 2, "AST", [("index", .int 0)]⟩

def back : StoreEdge Value := ⟨11, 1, 2, "EOG", []⟩

def loop : StoreEdge Value := ⟨12, 1, 1, "DFG", []⟩

/-- A walk along one edge, against another one back, along a loop, and along the first edge
again. -/
def walk : Walk where
  start := home
  hops := [⟨out, away⟩, ⟨back, home⟩, ⟨loop, home⟩, ⟨out, away⟩]
  joined := ⟨.inl ⟨rfl, rfl⟩, .inr ⟨rfl, rfl⟩, .inl ⟨rfl, rfl⟩, .inl ⟨rfl, rfl⟩, trivial⟩

def sent : Encoding walk where
  nodes := [home, away]
  edges := [out, back, loop]
  indices := [1, 1, -2, 0, 3, 0, 1, 1]
  first := rfl
  nodup_nodes := by simp [home, away]
  mem_nodes v := by
    simp only [Walk.nodes, walk, List.map_cons, List.map_nil, List.mem_cons, List.not_mem_nil]
    tauto
  nodup_edges := by simp [out, back, loop]
  mem_edges e := by
    simp only [Walk.edges, walk, List.map_cons, List.map_nil, List.mem_cons, List.not_mem_nil]
    tauto
  numbers :=
    .cons (.along rfl rfl rfl) rfl <| .cons (.against rfl rfl rfl) rfl <|
      .cons (.along rfl rfl rfl) rfl <| .cons (.along rfl rfl rfl) rfl <| .nil away

end Round

theorem restored_of_encoding_round :
    (∀ v ∈ Round.walk.nodes, AreConvertible v.properties) ∧
      (∀ e ∈ Round.walk.edges, AreConvertible e.properties) ∧
      ∃ ns es, Round.sent.value.toCell = .ok (.path ns es) ∧
        List.Forall₂ Vertex.Becomes [Round.home, Round.away] ns ∧
        List.Forall₂ EdgeBecomes [Round.out, Round.back, Round.loop, Round.out] es := by
  have hhome : AreConvertible Round.home.properties := by
    simp only [AreConvertible, Round.home, List.forall_mem_cons]
    exact ⟨⟨_, rfl⟩, ⟨_, rfl⟩, by simp⟩
  have hout : AreConvertible Round.out.properties := List.forall_mem_singleton.2 ⟨_, rfl⟩
  have haway : AreConvertible Round.away.properties := fun _ hmem => absurd hmem List.not_mem_nil
  have hback : AreConvertible Round.back.properties := fun _ hmem => absurd hmem List.not_mem_nil
  have hloop : AreConvertible Round.loop.properties := fun _ hmem => absurd hmem List.not_mem_nil
  have hnodes : ∀ v ∈ Round.walk.nodes, AreConvertible v.properties := by
    simp [Walk.nodes, Round.walk, hhome, haway]
  have hedges : ∀ e ∈ Round.walk.edges, AreConvertible e.properties := by
    simp [Walk.edges, Round.walk, hout, hback, hloop]
  exact ⟨hnodes, hedges, (Round.walk.restored_of_encoding hnodes hedges).2 Round.sent⟩

end CodeGraph.Bolt
