import CodeGraph.Proofs.Bolt.Entry
import CodeGraph.Proofs.Result.First

/-!
# Results that differ in their texts only

Two results can be the same but for texts in them. Then the same nodes and the same edges occur in
both, with the same numbers, and so the drawings are the same but for such texts.

* `StoreNode.Matches`, `StoreEdge.Matches`: nodes and edges whose properties belong to each other;
* `Cell.Alike`, `Cell.Alike.induct`: cells that differ in their texts only, with `Cell.Alike.refl`,
  `Cell.Alike.eq`, `Cell.Alike.nodes` and `Cell.Alike.edges`;
* `forall₂_firsts`: what is seen first in both;
* `Drawing.Alike`, `Drawing.alike_ofRows`: the drawings of such results.
-/

namespace CodeGraph

open Bolt (Keyed sizeOf_lt_of_mem_entries)

section Matches

variable {α : Type} {R S : α → α → Prop}

/-- Whether two nodes are the same but for their properties, which belong to each other. -/
inductive StoreNode.Matches (R : α → α → Prop) : StoreNode α → StoreNode α → Prop
  | mk {id : Int} {labels : List String} {properties properties' : List (String × α)}
      (h : List.Forall₂ (Keyed R) properties properties') :
      Matches R ⟨id, labels, properties⟩ ⟨id, labels, properties'⟩

/-- Whether two edges are the same but for their properties, which belong to each other. -/
inductive StoreEdge.Matches (R : α → α → Prop) : StoreEdge α → StoreEdge α → Prop
  | mk {id source target : Int} {name : String} {properties properties' : List (String × α)}
      (h : List.Forall₂ (Keyed R) properties properties') :
      Matches R ⟨id, source, target, name, properties⟩ ⟨id, source, target, name, properties'⟩

theorem StoreNode.sizeOf_lt [SizeOf α] {n : StoreNode α} {key : String} {a : α}
    (h : (key, a) ∈ n.properties) : sizeOf a < sizeOf n := by
  have hlt := sizeOf_lt_of_mem_entries h
  cases n
  simp only [StoreNode.mk.sizeOf_spec] at hlt ⊢
  omega

theorem StoreEdge.sizeOf_lt [SizeOf α] {e : StoreEdge α} {key : String} {a : α}
    (h : (key, a) ∈ e.properties) : sizeOf a < sizeOf e := by
  have hlt := sizeOf_lt_of_mem_entries h
  cases e
  simp only [StoreEdge.mk.sizeOf_spec] at hlt ⊢
  omega

theorem StoreNode.Matches.id_eq {n n' : StoreNode α} (h : n.Matches R n') : n.id = n'.id := by
  cases h
  rfl

theorem StoreEdge.Matches.id_eq {e e' : StoreEdge α} (h : e.Matches R e') : e.id = e'.id := by
  cases h
  rfl

theorem eq_of_forall₂_keyed {es es' : List (String × α)}
    (h : List.Forall₂ (Keyed (· = ·)) es es') : es = es' := by
  induction h with
  | nil => rfl
  | cons hkeyed _ ih =>
    cases hkeyed with
    | mk key heq => rw [heq, ih]

theorem StoreNode.Matches.mono {n n' : StoreNode α} (h : n.Matches R n')
    (hRS : ∀ a b, R a b → S a b) : n.Matches S n' := by
  cases h with
  | mk h => exact .mk (h.imp fun _ _ hkeyed => hkeyed.mono hRS)

theorem StoreEdge.Matches.mono {e e' : StoreEdge α} (h : e.Matches R e')
    (hRS : ∀ a b, R a b → S a b) : e.Matches S e' := by
  cases h with
  | mk h => exact .mk (h.imp fun _ _ hkeyed => hkeyed.mono hRS)

theorem StoreNode.Matches.eq {n n' : StoreNode α} (h : n.Matches (· = ·) n') : n = n' := by
  cases h with
  | mk h => rw [eq_of_forall₂_keyed h]

theorem StoreEdge.Matches.eq {e e' : StoreEdge α} (h : e.Matches (· = ·) e') : e = e' := by
  cases h with
  | mk h => rw [eq_of_forall₂_keyed h]

end Matches

/-! ### Cells -/

theorem forall₂_flatMap {α β : Type} {R : β → β → Prop} {f : α → List β} {l l' : List α}
    (h : List.Forall₂ (fun a a' => List.Forall₂ R (f a) (f a')) l l') :
    List.Forall₂ R (l.flatMap f) (l'.flatMap f) :=
  List.rel_flatten (List.forall₂_map_left_iff.2 (List.forall₂_map_right_iff.2 h))

/-- Whether two cells differ in their texts only, each of which belongs to the other one. -/
inductive Cell.Alike (T : String → String → Prop) : Cell → Cell → Prop
  | null : Alike T .null .null
  | text {s s' : String} (h : T s s') : Alike T (.text s) (.text s')
  | list {items items' : List Cell} (h : List.Forall₂ (Alike T) items items') :
      Alike T (.list items) (.list items')
  | node {n n' : StoreNode Cell} (h : n.Matches (Alike T) n') : Alike T (.node n) (.node n')
  | edge {e e' : StoreEdge Cell} (h : e.Matches (Alike T) e') : Alike T (.edge e) (.edge e')
  | path {ns ns' : List (StoreNode Cell)} {es es' : List (StoreEdge Cell)}
      (hnodes : List.Forall₂ (StoreNode.Matches (Alike T)) ns ns')
      (hedges : List.Forall₂ (StoreEdge.Matches (Alike T)) es es') :
      Alike T (.path ns es) (.path ns' es')

namespace Cell

variable {T : String → String → Prop} {c c' : Cell}

namespace Alike

/-- The induction for all that two cells hold. -/
theorem induct {motive : (c c' : Cell) → c.Alike T c' → Prop} (null : motive .null .null .null)
    (text : ∀ s s' h, motive (.text s) (.text s') (.text h))
    (list : ∀ items items' h, List.Forall₂ (fun c c' => ∃ h, motive c c' h) items items' →
      motive (.list items) (.list items') h)
    (node : ∀ n n' h, n.Matches (fun c c' => ∃ h, motive c c' h) n' → motive (.node n) (.node n') h)
    (edge : ∀ e e' h, e.Matches (fun c c' => ∃ h, motive c c' h) e' → motive (.edge e) (.edge e') h)
    (path : ∀ ns ns' es es' h,
      List.Forall₂ (StoreNode.Matches fun c c' => ∃ h, motive c c' h) ns ns' →
      List.Forall₂ (StoreEdge.Matches fun c c' => ∃ h, motive c c' h) es es' →
      motive (.path ns es) (.path ns' es') h)
    (h : c.Alike T c') : motive c c' h :=
  @Alike.rec T motive
    (fun cs cs' _ => List.Forall₂ (fun c c' => ∃ h, motive c c' h) cs cs')
    (fun n n' _ => n.Matches (fun c c' => ∃ h, motive c c' h) n')
    (fun e e' _ => e.Matches (fun c c' => ∃ h, motive c c' h) e')
    (fun ns ns' _ => List.Forall₂ (StoreNode.Matches fun c c' => ∃ h, motive c c' h) ns ns')
    (fun es es' _ => List.Forall₂ (StoreEdge.Matches fun c c' => ∃ h, motive c c' h) es es')
    (fun ps ps' _ => List.Forall₂ (Keyed fun c c' => ∃ h, motive c c' h) ps ps')
    (fun p p' _ => Keyed (fun c c' => ∃ h, motive c c' h) p p')
    null (fun h => text _ _ h) (fun _ => list _ _ _) (fun _ => node _ _ _) (fun _ => edge _ _ _)
    (fun _ _ => path _ _ _ _ _)
    .nil (fun hc _ ihc ih => .cons ⟨hc, ihc⟩ ih) (fun _ ih => .mk ih) (fun _ ih => .mk ih)
    .nil (fun _ _ ihn ih => .cons ihn ih) .nil (fun _ _ ihe ih => .cons ihe ih)
    .nil (fun _ _ ihp ih => .cons ihp ih) (fun key _ _ hc ihc => .mk key ⟨hc, ihc⟩) c c' h

theorem properties_refl {properties : List (String × Cell)}
    (h : ∀ key c, (key, c) ∈ properties → c.Alike T c) :
    List.Forall₂ (Keyed (Alike T)) properties properties :=
  List.forall₂_same.2 fun (key, c) hmem => .mk key (h key c hmem)

/-- A cell is like itself, if every text is. -/
theorem refl (hT : ∀ s, T s s) (c : Cell) : c.Alike T c := by
  cases c with
  | null => exact .null
  | text s => exact .text (hT s)
  | list items =>
    exact .list (List.forall₂_same.2 fun c hc =>
      have := List.sizeOf_lt_of_mem hc
      refl hT c)
  | node n =>
    exact .node (.mk (properties_refl fun key c hc =>
      have := StoreNode.sizeOf_lt hc
      refl hT c))
  | edge e =>
    exact .edge (.mk (properties_refl fun key c hc =>
      have := StoreEdge.sizeOf_lt hc
      refl hT c))
  | path ns es =>
    refine .path (List.forall₂_same.2 fun n hn => .mk (properties_refl fun key c hc => ?_))
      (List.forall₂_same.2 fun e he => .mk (properties_refl fun key c hc => ?_))
    · have hlt := Nat.lt_trans (StoreNode.sizeOf_lt hc) (List.sizeOf_lt_of_mem hn)
      exact refl hT c
    · have hlt := Nat.lt_trans (StoreEdge.sizeOf_lt hc) (List.sizeOf_lt_of_mem he)
      exact refl hT c
termination_by sizeOf c
decreasing_by
  all_goals
    simp only [list.sizeOf_spec, node.sizeOf_spec, edge.sizeOf_spec, path.sizeOf_spec]
    omega

/-- Cells that are alike in every text are the same. -/
theorem eq (h : c.Alike (· = ·) c') : c = c' := by
  induction h using induct with
  | null => rfl
  | text s s' h => rw [h]
  | list items items' _ ih =>
    have heq : List.Forall₂ (· = ·) items items' := ih.imp fun _ _ ⟨_, h⟩ => h
    rw [List.forall₂_eq_eq_eq] at heq
    rw [heq]
  | node n n' _ ih => rw [(ih.mono fun _ _ ⟨_, h⟩ => h).eq]
  | edge e e' _ ih => rw [(ih.mono fun _ _ ⟨_, h⟩ => h).eq]
  | path ns ns' es es' _ ihnodes ihedges =>
    have hnodes : List.Forall₂ (· = ·) ns ns' :=
      ihnodes.imp fun _ _ h => (h.mono fun _ _ ⟨_, h⟩ => h).eq
    have hedges : List.Forall₂ (· = ·) es es' :=
      ihedges.imp fun _ _ h => (h.mono fun _ _ ⟨_, h⟩ => h).eq
    rw [List.forall₂_eq_eq_eq] at hnodes hedges
    rw [hnodes, hedges]

/-- The same nodes occur in cells that are alike. -/
theorem nodes (h : c.Alike T c') :
    List.Forall₂ (StoreNode.Matches (Alike T)) c.nodes c'.nodes := by
  induction h using induct with
  | list items items' _ ih =>
    rw [Cell.nodes, Cell.nodes, nodesAll_eq_flatMap, nodesAll_eq_flatMap]
    exact forall₂_flatMap (ih.imp fun _ _ ⟨_, h⟩ => h)
  | node n n' h _ =>
    cases h with
    | node h => exact .cons h .nil
  | path ns ns' es es' h _ _ =>
    cases h with
    | path hnodes _ => exact hnodes
  | _ => exact .nil

/-- The same edges occur in cells that are alike. -/
theorem edges (h : c.Alike T c') :
    List.Forall₂ (StoreEdge.Matches (Alike T)) c.edges c'.edges := by
  induction h using induct with
  | list items items' _ ih =>
    rw [Cell.edges, Cell.edges, edgesAll_eq_flatMap, edgesAll_eq_flatMap]
    exact forall₂_flatMap (ih.imp fun _ _ ⟨_, h⟩ => h)
  | edge e e' h _ =>
    cases h with
    | edge h => exact .cons h .nil
  | path ns ns' es es' h _ _ =>
    cases h with
    | path _ hedges => exact hedges
  | _ => exact .nil

end Alike

end Cell

/-! ### Drawings -/

/-- What is seen first is seen first among items with the same keys. -/
theorem forall₂_firsts {α κ : Type} [DecidableEq κ] {R : α → α → Prop} {key : α → κ}
    (hkey : ∀ a b, R a b → key a = key b) {l l' : List α} (h : List.Forall₂ R l l') :
    List.Forall₂ R (firsts key l) (firsts key l') := by
  induction h with
  | nil => exact .nil
  | cons hab _ ih =>
    refine .cons hab (List.rel_filter (fun c d hcd => ?_) ih)
    simp only [hkey _ _ hab, hkey _ _ hcd]

variable {T : String → String → Prop}

/-- Whether two texts are those of cells that differ in their texts only. -/
def ShowAlike (T : String → String → Prop) (s s' : String) : Prop :=
  ∃ c c' : Cell, c.Alike T c' ∧ s = c.display ∧ s' = c'.display

/-- Whether two drawn nodes differ in their titles only, and there in the texts. -/
inductive DrawnNode.Alike (T : String → String → Prop) : DrawnNode → DrawnNode → Prop
  | mk {id : Int} {label : String} {labels : List String} {title title' : List (String × String)}
      (h : List.Forall₂ (Keyed (ShowAlike T)) title title') :
      Alike T ⟨id, label, labels, title⟩ ⟨id, label, labels, title'⟩

/-- Whether two drawn edges differ in their titles only, and there in the texts. -/
inductive DrawnEdge.Alike (T : String → String → Prop) : DrawnEdge → DrawnEdge → Prop
  | mk {id source target : Int} {label : String} {title title' : List (String × String)}
      (h : List.Forall₂ (Keyed (ShowAlike T)) title title') :
      Alike T ⟨id, source, target, label, title⟩ ⟨id, source, target, label, title'⟩

theorem forall₂_titles {properties properties' : List (String × Cell)}
    (h : List.Forall₂ (Keyed (Cell.Alike T)) properties properties') :
    List.Forall₂ (Keyed (ShowAlike T)) (titles properties) (titles properties') := by
  induction h with
  | nil => exact .nil
  | cons hkeyed _ ih =>
    cases hkeyed with
    | mk key hc => exact .cons (.mk key ⟨_, _, hc, rfl, rfl⟩) ih

theorem StoreNode.Matches.drawn {n n' : StoreNode Cell} (h : n.Matches (Cell.Alike T) n') :
    n.drawn.Alike T n'.drawn := by
  cases h with
  | mk h => exact .mk (forall₂_titles h)

theorem StoreEdge.Matches.drawn {e e' : StoreEdge Cell} (h : e.Matches (Cell.Alike T) e') :
    e.drawn.Alike T e'.drawn := by
  cases h with
  | mk h => exact .mk (forall₂_titles h)

/-- Whether two drawings have the same nodes and the same edges in the same order, but for the texts
of their titles. -/
structure Drawing.Alike (T : String → String → Prop) (d d' : Drawing) : Prop where
  nodes : List.Forall₂ (DrawnNode.Alike T) d.nodes.toList d'.nodes.toList
  edges : List.Forall₂ (DrawnEdge.Alike T) d.edges.toList d'.edges.toList

/-- Results that are alike have drawings that are. -/
theorem Drawing.alike_ofRows {rows rows' : List Row}
    (h : List.Forall₂ (List.Forall₂ (Cell.Alike T)) rows rows') :
    (ofRows rows).Alike T (ofRows rows') := by
  have hcells := List.rel_flatten h
  constructor
  case nodes =>
    rw [toList_nodes_ofRows, toList_nodes_ofRows, Cell.flatMap_nodesAll, Cell.flatMap_nodesAll]
    exact List.rel_map (fun _ _ hn => hn.drawn) (forall₂_firsts (fun _ _ hn => hn.id_eq)
      (forall₂_flatMap (hcells.imp fun _ _ hc => hc.nodes)))
  case edges =>
    rw [toList_edges_ofRows, toList_edges_ofRows, Cell.flatMap_edgesAll, Cell.flatMap_edgesAll]
    exact List.rel_map (fun _ _ he => he.drawn) (forall₂_firsts (fun _ _ he => he.id_eq)
      (forall₂_flatMap (hcells.imp fun _ _ hc => hc.edges)))

end CodeGraph
