import CodeGraph.Proofs.Bolt.Path
import CodeGraph.Proofs.Result.Occurrence

/-!
# No edge dangles

An edge that stands alone in a result says where it starts and ends, but its ends need not be there.
The edges of paths are different: their ends are nodes of the path, and these are drawn too.

* `Value.holdsEdge`, `anyHoldsEdge`: values with an edge that stands alone;
* `endsIn_of_toCell`: the ends of the edges that occur in other values;
* `Drawing.IsClosed`: drawings in which no edge dangles;
* `Drawing.isClosed_ofRows`: the drawing of a result without edges that stand alone.
-/

namespace CodeGraph

namespace Bolt

mutual

/-- Whether a value is an edge that stands alone, or a list that holds one. -/
def Value.holdsEdge : Value → Bool
  | .relation .. => true
  | .list items => anyHoldsEdge items
  | _ => false

/-- Whether some values hold an edge that stands alone. -/
def anyHoldsEdge : List Value → Bool
  | [] => false
  | v :: vs => v.holdsEdge || anyHoldsEdge vs

end

mutual

/-- In a value without an edge that stands alone, every edge has its ends among the nodes. -/
theorem endsIn_of_toCell : ∀ {c : Cell} {v : Value}, v.toCell = .ok c → v.holdsEdge = false →
    ∀ e ∈ c.edges, e.EndsIn c.nodes
  | .null, _, _, _, _, he => absurd he List.not_mem_nil
  | .text _, _, _, _, _, he => absurd he List.not_mem_nil
  | .node _, _, _, _, _, he => absurd he List.not_mem_nil
  | .path _ _, _, h, _, e, he => (isPath_of_toCell h).ends e he
  | .edge _, _, h, hv, _, _ => by
    cases isCell_of_toCell h with
    | edge => cases hv
  | .list _, _, h, hv, e, he => by
    cases isCell_of_toCell h with
    | list hitems => exact endsIn_of_toCells hitems hv e he

/-- And so it is in some values. -/
theorem endsIn_of_toCells : ∀ {cs : List Cell} {vs : List Value}, toCells vs = .ok cs →
    anyHoldsEdge vs = false → ∀ e ∈ Cell.edgesAll cs, e.EndsIn (Cell.nodesAll cs)
  | [], _, _, _, _, he => absurd he List.not_mem_nil
  | c :: cs, [], h, _, _, _ => by cases h
  | c :: cs, v :: vs, h, hvs, e, he => by
    obtain ⟨hv, hvs⟩ := Bool.or_eq_false_iff.1 hvs
    obtain ⟨c', hc, htail⟩ := except_bind_eq_ok.1 h
    obtain ⟨cs', hcs, heq⟩ := except_map_eq_ok.1 htail
    obtain ⟨rfl, rfl⟩ := List.cons.inj heq
    rcases List.mem_append.1 he with he | he
    · exact (endsIn_of_toCell hc hv e he).mono (List.subset_append_left _ _)
    · exact (endsIn_of_toCells hcs hvs e he).mono (List.subset_append_right _ _)

end

/-- And so it is in a result. -/
theorem endsIn_of_rows {rows : List (List Value)} {cells : List Row}
    (h : rows.mapM toCells = .ok cells) (hrows : ∀ row ∈ rows, anyHoldsEdge row = false) :
    ∀ e ∈ cells.flatMap Cell.edgesAll, e.EndsIn (cells.flatMap Cell.nodesAll) := by
  intro e he
  obtain ⟨row, hrow, he⟩ := List.mem_flatMap.1 he
  obtain ⟨vs, hvs, hcells⟩ := exists_of_mem_of_mapM_eq_ok h hrow
  exact (endsIn_of_toCells hcells (hrows vs hvs) e he).mono
    fun n hn => List.mem_flatMap.2 ⟨row, hrow, hn⟩

end Bolt

namespace Drawing

open Bolt

/-- Whether no edge dangles: where one starts and where it ends, a node is drawn. -/
def IsClosed (d : Drawing) : Prop := ∀ e ∈ d.edges, d.Draws e.source ∧ d.Draws e.target

/-- **No edge dangles in the drawing of a result without edges that stand alone.** Paths and nodes
may overlap, and the indices of a path may be any: both ends of each edge are drawn. In each path
that the result holds, two edges in a row have a node in common, and the first edge starts or ends
at the first node. -/
theorem isClosed_ofRows {rows : List (List Value)} {cells : List Row}
    (h : rows.mapM toCells = .ok cells) (hrows : ∀ row ∈ rows, anyHoldsEdge row = false) :
    (ofRows cells).IsClosed ∧
      ∀ row ∈ cells, ∀ c ∈ row, ∀ nodes edges, c.Holds (.path nodes edges) →
        IsPath nodes edges := by
  constructor
  · intro drawn hdrawn
    obtain ⟨e, he, rfl⟩ := exists_of_mem_edges_ofRows hdrawn
    obtain ⟨hsource, htarget⟩ := endsIn_of_rows h hrows e he
    exact ⟨draws_ofRows.2 hsource, draws_ofRows.2 htarget⟩
  · intro row hrow c hc nodes edges hholds
    obtain ⟨vs, -, hcells⟩ := exists_of_mem_of_mapM_eq_ok h hrow
    rw [toCells_eq_mapM] at hcells
    obtain ⟨v, -, hv⟩ := exists_of_mem_of_mapM_eq_ok hcells hc
    exact isPath_of_holds hv hholds

/-- Two paths that overlap, the second one in a list. One has an index too many, and the other goes
back over its only edge. -/
def overlapping : List (List Value) :=
  [[.path [.node 1 [] [], .node 2 [] [], .node 3 [] []] [.unbound 10 "AST" [], .unbound 11 "DFG" []]
      [.int 1, .int 1, .int (-2), .int 2, .int 7]],
    [.null, .text "x", .list [.node 2 [] [],
      .path [.node 2 [] [], .node 4 [] []] [.unbound 12 "EOG" []]
        [.int 1, .int 1, .int (-1), .int 0]]]]

theorem isClosed_ofRows_overlapping :
    ∃ cells, overlapping.mapM toCells = .ok cells ∧
      (∀ row ∈ overlapping, anyHoldsEdge row = false) ∧
      (ofRows cells).edges.toList.map (fun e => (e.id, e.source, e.target)) =
        [(10, 1, 2), (11, 3, 2), (12, 2, 4)] ∧
      (ofRows cells).IsClosed ∧
      ∀ row ∈ cells, ∀ c ∈ row, ∀ nodes edges, c.Holds (.path nodes edges) →
        IsPath nodes edges := by
  have hnone : ∀ row ∈ overlapping, anyHoldsEdge row = false := by decide
  refine ⟨_, rfl, hnone, ?_, isClosed_ofRows rfl hnone⟩
  cbv

end Drawing

end CodeGraph
