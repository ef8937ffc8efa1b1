import CodeGraph.Proofs.Result.First
import CodeGraph.Proofs.Text.Number

/-!
# What a drawing shows of a result

The nodes and edges of a result are drawn in the order in which they first occur, each number once.
A number that is written tells which one it is, so no two nodes and no two edges are written alike.

* `idText_injective`: numbers as they are written;
* `Drawing.Shows`, `Drawing.shows_ofRows`: what is drawn, and what more rows add to it.
-/

namespace CodeGraph

theorem idText_injective : Function.Injective idText := by
  intro n m h
  exact Text.showInt_injective (String.ofList_injective (Json.text.inj h))

namespace Cell

theorem nodesAll_map_node (ns : List (StoreNode Cell)) : nodesAll (ns.map .node) = ns := by
  rw [nodesAll_eq_flatMap, List.flatMap_map]
  exact List.flatMap_singleton' ns

theorem edgesAll_map_edge (es : List (StoreEdge Cell)) : edgesAll (es.map .edge) = es := by
  rw [edgesAll_eq_flatMap, List.flatMap_map]
  exact List.flatMap_singleton' es

end Cell

namespace Drawing

/-- Whether a drawing shows the nodes and edges of a result. -/
structure Shows (rows : List Row) (d : Drawing) : Prop where
  /-- Of the nodes that occur, those are drawn that are first seen with their numbers. -/
  nodes : d.nodes.toList = (firsts StoreNode.id (rows.flatMap Cell.nodesAll)).map StoreNode.drawn
  /-- And so it is for the edges. -/
  edges : d.edges.toList = (firsts StoreEdge.id (rows.flatMap Cell.edgesAll)).map StoreEdge.drawn
  /-- No two nodes are written with the same number. -/
  nodup_nodes : (d.nodes.toList.map fun n => idText n.id).Nodup
  nodup_edges : (d.edges.toList.map fun e => idText e.id).Nodup
  exists_node : ∀ n ∈ rows.flatMap Cell.nodesAll, ∃ n' ∈ d.nodes, idText n'.id = idText n.id
  exists_edge : ∀ e ∈ rows.flatMap Cell.edgesAll, ∃ e' ∈ d.edges, idText e'.id = idText e.id
  /-- The nodes are drawn as if there were nothing else, whatever the numbers of the edges are. -/
  nodes_apart : d.nodes = (ofRows [(rows.flatMap Cell.nodesAll).map .node]).nodes
  edges_apart : d.edges = (ofRows [(rows.flatMap Cell.edgesAll).map .edge]).edges

variable {α β : Type}

/-- What is seen first is written with different numbers. -/
theorem nodup_map_idText_firsts (id : α → Int) (drawn : α → β) (id' : β → Int)
    (hid : ∀ a, id' (drawn a) = id a) (l : List α) :
    (((firsts id l).map drawn).map fun b => idText (id' b)).Nodup := by
  have hkeys : ((firsts id l).map drawn).map (fun b => idText (id' b)) =
      ((firsts id l).map id).map idText := by
    simp [hid]
  rw [hkeys]
  exact (nodup_map_firsts id l).map idText_injective

/-- What occurs is written with the number of something that is seen first. -/
theorem exists_mem_map_firsts (id : α → Int) (drawn : α → β) (id' : β → Int)
    (hid : ∀ a, id' (drawn a) = id a) {l : List α} {a : α} (ha : a ∈ l) :
    ∃ b ∈ (firsts id l).map drawn, idText (id' b) = idText (id a) := by
  obtain ⟨a', ha', heq⟩ := exists_mem_firsts id ha
  exact ⟨drawn a', List.mem_map_of_mem ha', by rw [hid, heq]⟩

theorem firsts_isPrefix {κ : Type} [DecidableEq κ] (key : α → κ) (drawn : α → β) (l l' : List α) :
    (firsts key l).map drawn <+: (firsts key (l ++ l')).map drawn := by
  rw [firsts_append]
  exact (List.prefix_append _ _).map drawn

/-- **A drawing shows what occurs in a result, as it is first seen.** Lists are entered at any depth,
and a path gives its nodes and its edges. More rows only add to what is drawn. -/
theorem shows_ofRows (rows more : List Row) :
    Shows rows (ofRows rows) ∧
      (ofRows rows).nodes.toList <+: (ofRows (rows ++ more)).nodes.toList ∧
      (ofRows rows).edges.toList <+: (ofRows (rows ++ more)).edges.toList := by
  have hnodes := toList_nodes_ofRows rows
  have hedges := toList_edges_ofRows rows
  refine ⟨⟨hnodes, hedges, ?_, ?_, ?_, ?_, ?_, ?_⟩, ?_, ?_⟩
  · rw [hnodes]
    exact nodup_map_idText_firsts StoreNode.id StoreNode.drawn DrawnNode.id (fun _ => rfl) _
  · rw [hedges]
    exact nodup_map_idText_firsts StoreEdge.id StoreEdge.drawn DrawnEdge.id (fun _ => rfl) _
  · intro n hn
    simp only [← Array.mem_toList_iff, hnodes]
    exact exists_mem_map_firsts StoreNode.id StoreNode.drawn DrawnNode.id (fun _ => rfl) hn
  · intro e he
    simp only [← Array.mem_toList_iff, hedges]
    exact exists_mem_map_firsts StoreEdge.id StoreEdge.drawn DrawnEdge.id (fun _ => rfl) he
  · rw [← Array.toList_inj, hnodes, toList_nodes_ofRows, List.flatMap_singleton,
      Cell.nodesAll_map_node]
  · rw [← Array.toList_inj, hedges, toList_edges_ofRows, List.flatMap_singleton,
      Cell.edgesAll_map_edge]
  · rw [hnodes, toList_nodes_ofRows, List.flatMap_append]
    exact firsts_isPrefix _ _ _ _
  · rw [hedges, toList_edges_ofRows, List.flatMap_append]
    exact firsts_isPrefix _ _ _ _

end Drawing

end CodeGraph
