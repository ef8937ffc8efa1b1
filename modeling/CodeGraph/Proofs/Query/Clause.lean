import CodeGraph.Query.Scope

/-!
# Cutting a query at a clause

The clauses of a query are found line by line, and a filter takes all lines up to the next one that
opens a clause. A line that opens a clause is therefore a seam: what stands before it and what
begins with it are cut independently of each other.

* `opensClause_of_afterMatch?`: a pattern opens a clause;
* `Clause.ofLines_append`: the seam;
* `Clause.ofLines_append_pattern`: the clauses around a pattern.
-/

namespace CodeGraph.Query

open Text

theorem opensClause_of_afterMatch? {line : Line} (h : (afterMatch? line).isSome) :
    opensClause line = true := by
  obtain ⟨rest, hrest⟩ := Option.isSome_iff_exists.1 h
  simp only [opensClause, twoKeywords?, clauseKeywords, List.any_cons, Bool.or_eq_true]
  simp only [afterMatch?, Option.orElse_eq_orElse, Option.orElse_eq_or, Option.or_eq_some_iff] at hrest
  rcases hrest with h | ⟨-, h⟩
  · exact Or.inl (Or.inl (by rw [h]; rfl))
  · exact Or.inr (Or.inl (by rw [h]; rfl))

theorem isSome_afterMatch?_of_patternVariable? {line : Line} {v : List Char}
    (h : patternVariable? line = some v) : (afterMatch? line).isSome := by
  obtain ⟨rest, hrest, -⟩ := Option.bind_eq_some_iff.1 h
  rw [hrest]
  rfl

namespace Clause

theorem ofLines_pattern {line : Line} (h : (afterMatch? line).isSome) (rest : List Line) :
    ofLines (line :: rest) = .pattern line :: ofLines rest := by
  rw [ofLines, if_pos h]

theorem ofLines_filter {line : Line} {keyword front : List Char} (h : ¬ (afterMatch? line).isSome)
    (hf : filter? line = some (keyword, front)) (rest : List Line) :
    ofLines (line :: rest) =
      .filter line keyword (trim (unlines (front :: rest.takeWhile (!opensClause ·)))) ::
        ofLines (rest.dropWhile (!opensClause ·)) := by
  rw [ofLines, if_neg h, hf]

theorem ofLines_other {line : Line} (h : ¬ (afterMatch? line).isSome) (hf : filter? line = none)
    (rest : List Line) : ofLines (line :: rest) = .other line :: ofLines rest := by
  rw [ofLines, if_neg h, hf]

section Seam

variable {line : Line} (h : opensClause line = true) (before after : List Line)

include h

theorem takeWhile_seam :
    (before ++ line :: after).takeWhile (!opensClause ·) = before.takeWhile (!opensClause ·) := by
  rw [List.takeWhile_append]
  split
  · rename_i hlen
    rw [List.takeWhile_cons_of_neg (by simp [h]), List.append_nil]
    exact ((List.takeWhile_prefix _).eq_of_length hlen).symm
  · rfl

theorem dropWhile_seam :
    (before ++ line :: after).dropWhile (!opensClause ·) =
      before.dropWhile (!opensClause ·) ++ line :: after := by
  rw [List.dropWhile_append]
  split
  · rename_i hnil
    rw [List.dropWhile_cons_of_neg (by simp [h]), List.isEmpty_iff.1 hnil, List.nil_append]
  · rfl

/-- The lines before one that opens a clause are cut as if they stood alone. -/
theorem ofLines_append :
    ofLines (before ++ line :: after) = ofLines before ++ ofLines (line :: after) := by
  -- along the cut of `before`; only a filter looks past its own line
  induction before using ofLines.induct with
  | case1 => simp [ofLines]
  | case2 l rest hl ih =>
    rw [List.cons_append, ofLines_pattern hl, ofLines_pattern hl, ih, List.cons_append]
  | case3 l rest hl keyword front hf ih =>
    rw [List.cons_append, ofLines_filter hl hf, ofLines_filter hl hf, takeWhile_seam h,
      dropWhile_seam h, ih, List.cons_append]
  | case4 l rest hl hf ih =>
    rw [List.cons_append, ofLines_other hl hf, ofLines_other hl hf, ih, List.cons_append]

end Seam

/-- A pattern is a clause of its own, whatever stands around it. -/
theorem ofLines_append_pattern {line : Line} (h : (afterMatch? line).isSome)
    (before after : List Line) :
    ofLines (before ++ line :: after) = ofLines before ++ .pattern line :: ofLines after := by
  rw [ofLines_append (opensClause_of_afterMatch? h), ofLines_pattern h]

end Clause

end CodeGraph.Query
