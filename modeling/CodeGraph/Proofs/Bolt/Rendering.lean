import CodeGraph.Bolt.Conversion
import CodeGraph.Proofs.Outcome
import Mathlib.Logic.Relation

/-!
# Two ways to one text

A value can be written as text as it is, or it is first converted to a cell, which is then displayed.
Both texts are the same, at any depth of nested lists, unless a node, a relationship or a path stands
among the items: of those a cell shows no more than a number.

* `Value.isElement`, `Value.HasItem`, `Value.IsPrintable`: values without elements of the graph among
  their items, with `isPrintable_list` and `isPrintable_of_ne_list` to tell them;
* `displayAll_of_forall₂`: the items of a list;
* `Value.display_toCell`: the two texts of such a value.
-/

namespace CodeGraph.Bolt

open Relation (ReflTransGen)

namespace Value

/-- Whether a value is a node, a relationship with its ends, or a path. -/
def isElement : Value → Bool
  | .node .. | .relation .. | .path .. => true
  | _ => false

/-- Whether a value is a list with this item. -/
def HasItem (v w : Value) : Prop := ∃ items, v = .list items ∧ w ∈ items

/-- Whether no element of the graph is reached from a value by going from lists to their items. The
value itself is none, either. -/
def IsPrintable (v : Value) : Prop := ∀ w, ReflTransGen HasItem v w → w.isElement = false

theorem isPrintable_iff {v : Value} : v.IsPrintable ↔
    v.isElement = false ∧ ∀ items, v = .list items → ∀ w ∈ items, w.IsPrintable := by
  constructor
  · refine fun h => ⟨h v .refl, ?_⟩
    rintro items rfl w hw w' hw'
    exact h w' (.head ⟨items, rfl, hw⟩ hw')
  · rintro ⟨helement, hitems⟩ w hw
    rcases hw.cases_head with rfl | ⟨v', ⟨items, hlist, hv'⟩, hw⟩
    · exact helement
    · exact hitems items hlist v' hv' w hw

theorem isPrintable_list {items : List Value} :
    (list items).IsPrintable ↔ ∀ w ∈ items, w.IsPrintable := by
  rw [isPrintable_iff]
  constructor
  · rintro ⟨-, hitems⟩
    exact hitems items rfl
  · refine fun h => ⟨rfl, ?_⟩
    rintro _ ⟨⟩
    exact h

theorem isPrintable_of_ne_list {v : Value} (hlist : ∀ items, v ≠ .list items)
    (helement : v.isElement = false) : v.IsPrintable :=
  isPrintable_iff.2 ⟨helement, fun items h => absurd h (hlist items)⟩

end Value

theorem displayAll_of_forall₂ {vs : List Value} {cells : List Cell}
    (h : List.Forall₂ (fun v c => v.toCell = .ok c ∧ c.display = v.plain) vs cells) :
    toCells vs = .ok cells ∧ Cell.displayAll cells = plainAll vs := by
  induction h with
  | nil => exact ⟨rfl, rfl⟩
  | cons hhead _ ih =>
    obtain ⟨hc, hdisplay⟩ := hhead
    obtain ⟨hcells, hrest⟩ := ih
    refine ⟨except_bind_eq_ok.2 ⟨_, hc, except_map_eq_ok.2 ⟨_, hcells, rfl⟩⟩, ?_⟩
    rw [Cell.displayAll, hdisplay, hrest, plainAll]

/-- **Both texts are the same.** A value without elements of the graph among its items, at any depth,
has a cell, and the cell is displayed as the value is written. By induction on the size of the value:
only a list is more than one text. -/
theorem Value.display_toCell (v : Value) (h : v.IsPrintable) :
    ∃ c, v.toCell = .ok c ∧ c.display = v.plain := by
  obtain ⟨helement, hitems⟩ := isPrintable_iff.1 h
  cases v with
  | list items =>
    have hitem : ∀ v ∈ items, ∃ c, v.toCell = .ok c ∧ c.display = v.plain := fun v hv =>
      have := List.sizeOf_lt_of_mem hv
      v.display_toCell (hitems items rfl v hv)
    obtain ⟨cells, hcells⟩ := exists_forall₂ hitem
    obtain ⟨hcells, hdisplay⟩ := displayAll_of_forall₂ hcells
    refine ⟨.list cells, except_map_eq_ok.2 ⟨cells, hcells, rfl⟩, ?_⟩
    rw [Cell.display, hdisplay, Value.plain]
  | null => exact ⟨.null, rfl, rfl⟩
  | node | relation | path => cases helement
  | _ => exact ⟨_, rfl, rfl⟩
termination_by sizeOf v

/-- A list that holds a list, and in it a map that holds a node. -/
def mixture : Value :=
  .list [.int 3, .null, .list [.text "x", .map [("n", .node 1 [] [])]], .bool true]

theorem display_toCell_mixture :
    mixture.IsPrintable ∧ ∃ c, mixture.toCell = .ok c ∧ c.display = mixture.plain := by
  have hmixture : mixture.IsPrintable := by
    simp only [mixture, Value.isPrintable_list, List.forall_mem_cons, List.not_mem_nil,
      false_implies, implies_true, and_true]
    refine ⟨?_, ?_, ⟨?_, ?_⟩, ?_⟩
    all_goals exact Value.isPrintable_of_ne_list (by simp) rfl
  exact ⟨hmixture, mixture.display_toCell hmixture⟩

end CodeGraph.Bolt
