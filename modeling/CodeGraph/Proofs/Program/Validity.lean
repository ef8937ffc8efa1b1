import CodeGraph.Program.Validity

/-!
# Valid program graphs

The search for a defect finds none exactly if the graph is valid.

* `Graph.relationshipDefect?_eq_none_iff`: one relationship;
* `Graph.defect?_eq_none_iff`: a whole graph.
-/

namespace CodeGraph.Graph

variable {g : Graph} {size : Nat} {s : Slot}

theorem declares_iff_exists {kind : Kind} {name : String} {arity : Arity} :
    declares kind name arity ↔ ∃ r, kind.relationship? name = some r ∧ r.arity = arity := by
  simp only [declares, Option.any_eq_true, beq_iff_eq]

/-- A relationship is as it should be if it is declared and its targets are in the arena. -/
theorem relationshipDefect?_eq_none_iff {kind : Kind} {name : String} {ts : Targets} :
    relationshipDefect? size s kind name ts = none ↔
      (∃ r, kind.relationship? name = some r ∧ r.arity = ts.arity) ∧ ∀ t ∈ ts.slots, t < size := by
  unfold relationshipDefect?
  rw [← declares_iff_exists]
  by_cases h : declares kind name ts.arity
  · simp [h, List.find?_eq_none]
  · simp [h]

/-- No defect is found in a graph exactly if it is valid. -/
theorem defect?_eq_none_iff : g.defect? = none ↔ g.Valid := by
  simp only [defect?, nodeDefect?, List.findSome?_eq_none_iff, Prod.forall, mem_slots,
    relationshipDefect?_eq_none_iff, Valid]

end CodeGraph.Graph
