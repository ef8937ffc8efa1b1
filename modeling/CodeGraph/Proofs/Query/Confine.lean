import CodeGraph.Proofs.Outcome
import CodeGraph.Query.Scope

/-!
# What confining does to a clause

`confine` goes through the clauses of a query from left to right and can fail at each of them. The
lemmas here say once what a clause becomes when nothing fails, so that no later proof opens
`confine` again.

* `confine_other_eq_ok`, `confine_pattern_eq_ok`, `confine_filter_eq_ok`: one clause;
* `scope_eq_ok`: the whole text;
* `confine_append_pattern`: the clauses before a pattern are confined as if they stood alone.
-/

namespace CodeGraph.Query

open Text

/-! ### Clause by clause -/

variable {pending : Option (List Char)} {line : Line} {rest : List Clause} {out : List Line}

theorem confine_other_eq_ok : confine pending (.other line :: rest) = .ok out ↔
    ∃ tail, confine pending rest = .ok tail ∧ out = line :: tail := by
  rw [confine, except_map_eq_ok]

/-- A pattern leaves its variable to the filter that follows, or gets a filter of its own. -/
theorem confine_pattern_eq_ok : confine pending (.pattern line :: rest) = .ok out ↔
    ∃ v, patternVariable? line = some v ∧
      if filterFollows rest then ∃ tail, confine (some v) rest = .ok tail ∧ out = line :: tail
      else ∃ tail, confine none rest = .ok tail ∧ out = line :: patternFilter v :: tail := by
  rw [confine]
  cases hv : patternVariable? line with
  | none => simp
  | some v =>
    simp only [Option.some.injEq, exists_eq_left']
    split
    · rw [except_map_eq_ok]
    · rw [except_map_eq_ok]

/-- A filter needs a predicate and a variable. -/
theorem confine_filter_eq_ok {keyword predicate : List Char} :
    confine pending (.filter line keyword predicate :: rest) = .ok out ↔
      predicate ≠ [] ∧ ∃ v, (filterVariable? predicate <|> pending) = some v ∧
        ∃ tail, confine none rest = .ok tail ∧
          out = wrapped keyword predicate :: conjunct v :: tail := by
  rw [confine]
  cases predicate with
  | nil => simp
  | cons c cs =>
    simp only [List.isEmpty_cons, Bool.false_eq_true, ↓reduceIte, ne_eq, reduceCtorEq,
      not_false_eq_true, true_and]
    cases hv : (filterVariable? (c :: cs) <|> pending) with
    | none => simp
    | some v => simp only [Option.some.injEq, exists_eq_left', except_map_eq_ok]

theorem scope_eq_ok {query text : List Char} {limit : Nat} : scope query limit = .ok text ↔
    ∃ out, confine none (clauses query) = .ok out ∧ text = cap limit (unlines out) := by
  rw [scope, except_map_eq_ok]

/-! ### A pattern as a seam -/

theorem filterFollows_append_pattern (cs after : List Clause) (line : Line) :
    filterFollows (cs ++ .pattern line :: after) = filterFollows cs := by
  induction cs with
  | nil => rfl
  | cons c cs ih =>
    cases c with
    | pattern => rfl
    | filter => rfl
    | other l => simp only [List.cons_append, filterFollows, ih]

/-- A pattern needs nothing from the clauses before it, and they need nothing from it. -/
theorem confine_append_pattern {before after : List Clause}
    (h : confine pending (before ++ .pattern line :: after) = .ok out) :
    ∃ front back, confine pending before = .ok front ∧
      confine none (.pattern line :: after) = .ok back ∧ out = front ++ back := by
  induction before generalizing pending out with
  | nil =>
    rw [List.nil_append, confine_pattern_eq_ok] at h
    exact ⟨[], out, rfl, confine_pattern_eq_ok.2 h, rfl⟩
  | cons c cs ih =>
    cases c with
    | other l =>
      obtain ⟨tail, ht, rfl⟩ := confine_other_eq_ok.1 h
      obtain ⟨front, back, hf, hb, rfl⟩ := ih ht
      exact ⟨l :: front, back, confine_other_eq_ok.2 ⟨front, hf, rfl⟩, hb, rfl⟩
    | pattern l =>
      obtain ⟨v, hv, h⟩ := confine_pattern_eq_ok.1 h
      change if filterFollows (cs ++ .pattern line :: after) then _ else _ at h
      rw [filterFollows_append_pattern] at h
      split at h
      · rename_i hfollows
        obtain ⟨tail, ht, rfl⟩ := h
        obtain ⟨front, back, hf, hb, rfl⟩ := ih ht
        refine ⟨l :: front, back, confine_pattern_eq_ok.2 ⟨v, hv, ?_⟩, hb, rfl⟩
        rw [if_pos hfollows]
        exact ⟨front, hf, rfl⟩
      · rename_i hfollows
        obtain ⟨tail, ht, rfl⟩ := h
        obtain ⟨front, back, hf, hb, rfl⟩ := ih ht
        refine ⟨l :: patternFilter v :: front, back, confine_pattern_eq_ok.2 ⟨v, hv, ?_⟩, hb, rfl⟩
        rw [if_neg hfollows]
        exact ⟨front, hf, rfl⟩
    | filter l keyword predicate =>
      obtain ⟨hp, v, hv, tail, ht, rfl⟩ := confine_filter_eq_ok.1 h
      obtain ⟨front, back, hf, hb, rfl⟩ := ih ht
      exact ⟨wrapped keyword predicate :: conjunct v :: front, back,
        confine_filter_eq_ok.2 ⟨hp, v, hv, front, hf, rfl⟩, hb, rfl⟩

end CodeGraph.Query
