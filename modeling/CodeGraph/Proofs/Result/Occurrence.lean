import CodeGraph.Result.Drawing

/-!
# What is drawn of a result

Nodes and edges occur in the cells of a result from left to right. As they are drawn apart from one
another, a drawing is the one that comes of all nodes first and then all edges.

* `Cell.nodes`, `Cell.edges`: what occurs in a cell, with `Cell.flatMap_nodesAll` and
  `Cell.flatMap_edgesAll` for all cells of a result;
* `Drawing.draw`, `Drawing.visit_eq`, `Drawing.ofRows_eq`: a drawing from what occurs;
* `Drawing.Draws`, `Drawing.draws_ofRows`: every node that occurs is drawn by its number;
* `Drawing.exists_of_mem_edges_ofRows`: every edge that is drawn occurs.
-/

namespace CodeGraph

namespace Cell

mutual

/-- The nodes that occur in a cell. -/
def nodes : Cell → List (StoreNode Cell)
  | .null => []
  | .text _ => []
  | .list items => nodesAll items
  | .node n => [n]
  | .edge _ => []
  | .path ns _ => ns

/-- The nodes that occur in some cells. -/
def nodesAll : List Cell → List (StoreNode Cell)
  | [] => []
  | c :: cs => c.nodes ++ nodesAll cs

end

mutual

/-- The edges that occur in a cell. -/
def edges : Cell → List (StoreEdge Cell)
  | .null => []
  | .text _ => []
  | .list items => edgesAll items
  | .node _ => []
  | .edge e => [e]
  | .path _ es => es

/-- The edges that occur in some cells. -/
def edgesAll : List Cell → List (StoreEdge Cell)
  | [] => []
  | c :: cs => c.edges ++ edgesAll cs

end

theorem nodesAll_eq_flatMap : ∀ cs : List Cell, nodesAll cs = cs.flatMap nodes
  | [] => rfl
  | c :: cs => by rw [nodesAll, nodesAll_eq_flatMap cs, List.flatMap_cons]

theorem edgesAll_eq_flatMap : ∀ cs : List Cell, edgesAll cs = cs.flatMap edges
  | [] => rfl
  | c :: cs => by rw [edgesAll, edgesAll_eq_flatMap cs, List.flatMap_cons]

/-- The nodes that occur in a result are those of its cells. -/
theorem flatMap_nodesAll (rows : List Row) : rows.flatMap nodesAll = rows.flatten.flatMap nodes := by
  rw [List.flatten_eq_flatMap, List.flatMap_assoc]
  exact congrArg rows.flatMap (funext nodesAll_eq_flatMap)

theorem flatMap_edgesAll (rows : List Row) : rows.flatMap edgesAll = rows.flatten.flatMap edges := by
  rw [List.flatten_eq_flatMap, List.flatMap_assoc]
  exact congrArg rows.flatMap (funext edgesAll_eq_flatMap)

end Cell

namespace Drawing

variable {d : Drawing} {n : StoreNode Cell} {e : StoreEdge Cell} {ns : List (StoreNode Cell)}
  {es : List (StoreEdge Cell)}

/-- Draws nodes and then edges. -/
def draw (d : Drawing) (ns : List (StoreNode Cell)) (es : List (StoreEdge Cell)) : Drawing :=
  es.foldl addEdge (ns.foldl addNode d)

/-- Nodes and edges are drawn apart from one another. -/
theorem addNode_addEdge (d : Drawing) (n : StoreNode Cell) (e : StoreEdge Cell) :
    (d.addEdge e).addNode n = (d.addNode n).addEdge e := by
  unfold addNode addEdge
  by_cases hn : d.nodes.any (·.id == n.id) <;> by_cases he : d.edges.any (·.id == e.id) <;>
    simp only [hn, he, if_true, if_false, Bool.false_eq_true]

theorem foldl_addNode_addEdge (ns : List (StoreNode Cell)) (d : Drawing) (e : StoreEdge Cell) :
    ns.foldl addNode (d.addEdge e) = (ns.foldl addNode d).addEdge e := by
  induction ns generalizing d with
  | nil => rfl
  | cons n ns ih => rw [List.foldl_cons, addNode_addEdge, ih, List.foldl_cons]

theorem foldl_addNode_foldl_addEdge (ns : List (StoreNode Cell)) (es : List (StoreEdge Cell))
    (d : Drawing) :
    ns.foldl addNode (es.foldl addEdge d) = es.foldl addEdge (ns.foldl addNode d) := by
  induction es generalizing d with
  | nil => rfl
  | cons e es ih => rw [List.foldl_cons, ih, foldl_addNode_addEdge, List.foldl_cons]

/-- To draw twice is to draw all nodes and then all edges. -/
theorem draw_draw (d : Drawing) (ns ns' : List (StoreNode Cell)) (es es' : List (StoreEdge Cell)) :
    (d.draw ns es).draw ns' es' = d.draw (ns ++ ns') (es ++ es') := by
  unfold draw
  rw [foldl_addNode_foldl_addEdge, List.foldl_append, List.foldl_append]

mutual

/-- A cell is drawn from what occurs in it. -/
theorem visit_eq (d : Drawing) : ∀ c : Cell, d.visit c = d.draw c.nodes c.edges
  | .null => rfl
  | .text _ => rfl
  | .list items => visitAll_eq d items
  | .node _ => rfl
  | .edge _ => rfl
  | .path _ _ => rfl

/-- Some cells are drawn from what occurs in them. -/
theorem visitAll_eq (d : Drawing) :
    ∀ cs : List Cell, d.visitAll cs = d.draw (Cell.nodesAll cs) (Cell.edgesAll cs)
  | [] => rfl
  | c :: cs => by
    rw [visitAll, visit_eq d c, visitAll_eq _ cs, draw_draw]
    rfl

end

/-- A result is drawn from what occurs in it. -/
theorem ofRows_eq (rows : List Row) :
    ofRows rows = draw {} (rows.flatMap Cell.nodesAll) (rows.flatMap Cell.edgesAll) := by
  suffices h : ∀ d : Drawing, rows.foldl visitAll d =
      d.draw (rows.flatMap Cell.nodesAll) (rows.flatMap Cell.edgesAll) from h {}
  intro d
  induction rows generalizing d with
  | nil => rfl
  | cons row rows ih =>
    rw [List.foldl_cons, visitAll_eq, ih, draw_draw, List.flatMap_cons, List.flatMap_cons]

/-! ### Nodes that are drawn -/

/-- Whether a node with this number is drawn. -/
def Draws (d : Drawing) (id : Int) : Prop := ∃ n ∈ d.nodes, n.id = id

theorem draws_addNode {id : Int} : (d.addNode n).Draws id ↔ d.Draws id ∨ n.id = id := by
  unfold addNode
  split
  case isTrue hany =>
    obtain ⟨n', hn', hid⟩ := Array.any_eq_true'.1 hany
    constructor
    · exact .inl
    · rintro (hdraws | rfl)
      · exact hdraws
      · exact ⟨n', hn', by simpa using hid⟩
  case isFalse => simp [Draws, or_and_right, exists_or, StoreNode.drawn]

theorem draws_addEdge {id : Int} : (d.addEdge e).Draws id ↔ d.Draws id := by
  unfold addEdge
  split
  · rfl
  · rfl

theorem draws_foldl_addNode {id : Int} :
    (ns.foldl addNode d).Draws id ↔ d.Draws id ∨ ∃ n ∈ ns, n.id = id := by
  induction ns generalizing d with
  | nil => simp
  | cons n ns ih =>
    rw [List.foldl_cons, ih, draws_addNode, or_assoc]
    simp only [List.mem_cons, exists_eq_or_imp]

theorem draws_foldl_addEdge {id : Int} : (es.foldl addEdge d).Draws id ↔ d.Draws id := by
  induction es generalizing d with
  | nil => rfl
  | cons e es ih => rw [List.foldl_cons, ih, draws_addEdge]

/-- The nodes that occur, and no others, are drawn by their numbers. -/
theorem draws_ofRows {rows : List Row} {id : Int} :
    (ofRows rows).Draws id ↔ ∃ n ∈ rows.flatMap Cell.nodesAll, n.id = id := by
  rw [ofRows_eq, draw, draws_foldl_addEdge, draws_foldl_addNode, or_iff_right]
  rintro ⟨n, hn, -⟩
  simp at hn

/-! ### Edges that are drawn -/

theorem exists_of_mem_edges_foldl {e' : DrawnEdge} (h : e' ∈ (es.foldl addEdge d).edges) :
    e' ∈ d.edges ∨ ∃ e ∈ es, e' = e.drawn := by
  induction es generalizing d with
  | nil => exact .inl h
  | cons e es ih =>
    simp only [List.mem_cons, exists_eq_or_imp]
    rcases ih h with hbefore | hoccurs
    · unfold addEdge at hbefore
      split at hbefore
      · exact .inl hbefore
      · rw [Array.mem_push] at hbefore
        exact hbefore.imp_right .inl
    · exact .inr (.inr hoccurs)

theorem edges_foldl_addNode : (ns.foldl addNode d).edges = d.edges := by
  induction ns generalizing d with
  | nil => rfl
  | cons n ns ih =>
    rw [List.foldl_cons, ih]
    unfold addNode
    split
    · rfl
    · rfl

/-- What is drawn as an edge occurs as one. -/
theorem exists_of_mem_edges_ofRows {rows : List Row} {e' : DrawnEdge}
    (h : e' ∈ (ofRows rows).edges) : ∃ e ∈ rows.flatMap Cell.edgesAll, e' = e.drawn := by
  rw [ofRows_eq, draw] at h
  rcases exists_of_mem_edges_foldl h with hnone | hoccurs
  · rw [edges_foldl_addNode] at hnone
    simp at hnone
  · exact hoccurs

end Drawing

end CodeGraph
