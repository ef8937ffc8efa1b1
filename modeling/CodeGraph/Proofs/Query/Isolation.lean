import CodeGraph.Proofs.Query.Cap
import CodeGraph.Proofs.Query.Clause
import CodeGraph.Proofs.Query.Confine
import CodeGraph.Proofs.Query.Variable

/-!
# The condition behind a pattern

A pattern of a query is confined to the tenant by the condition that follows it: a filter line of
its own, or the filter of the query that stands there already. The second kind is about the variable
that its predicate begins with, which need not be the variable of the pattern.

* `followingPredicate?`: the predicate of the filter that a pattern is left to;
* `subject`: the variable that the condition behind a pattern is about;
* `condition`: the lines of the condition, blank lines before it included;
* `tenantFilter_isSuffix_condition_iff`: which patterns are confined through their own variable;
* `condition_of_scope`: where the condition stands in the text, and when it is about the pattern;
* `unscoped_pattern`: a query of which one pattern is not confined.
-/

namespace CodeGraph.Query

open Text

/-- The predicate of the filter that follows, if only blank lines stand before it. -/
def followingPredicate? : List Clause → Option (List Char)
  | .filter _ _ predicate :: _ => some predicate
  | .other line :: rest => if isBlankText line then followingPredicate? rest else none
  | _ => none

/-- The variable that the condition behind a pattern of variable `v` is about. -/
def subject (v : List Char) (rest : List Clause) : List Char :=
  ((followingPredicate? rest).bind filterVariable?).getD v

/-- The lines behind a pattern of variable `v` up to the end of its condition. -/
def condition (v : List Char) : List Clause → List Line
  | .filter _ keyword predicate :: _ =>
    [wrapped keyword predicate, conjunct ((filterVariable? predicate).getD v)]
  | .other line :: rest =>
    if isBlankText line && filterFollows rest then line :: condition v rest else [patternFilter v]
  | _ => [patternFilter v]

theorem isSome_followingPredicate? (rest : List Clause) :
    (followingPredicate? rest).isSome = filterFollows rest := by
  induction rest with
  | nil => rfl
  | cons c rest ih =>
    cases c with
    | pattern => rfl
    | filter => rfl
    | other line =>
      rw [followingPredicate?, filterFollows, ← ih]
      cases isBlankText line <;> rfl

theorem condition_of_not_filterFollows {v : List Char} {rest : List Clause}
    (h : filterFollows rest = false) : condition v rest = [patternFilter v] := by
  cases rest with
  | nil => rfl
  | cons c rest =>
    cases c with
    | pattern => rfl
    | filter => cases h
    | other line =>
      rw [filterFollows] at h
      rw [condition, h, if_neg Bool.false_ne_true]

/-- A condition ends in the tenant's condition on its subject. -/
theorem exists_condition_eq (v : List Char) (rest : List Clause) :
    ∃ init front, condition v rest = init ++ [front ++ tenantFilter (subject v rest)] := by
  induction rest with
  | nil => exact ⟨[], "WHERE ".toList, rfl⟩
  | cons c rest ih =>
    cases c with
    | pattern => exact ⟨[], "WHERE ".toList, rfl⟩
    | filter _ keyword predicate => exact ⟨[wrapped keyword predicate], "AND ".toList, rfl⟩
    | other line =>
      cases hblank : isBlankText line && filterFollows rest with
      | true =>
        obtain ⟨init, front, h⟩ := ih
        refine ⟨line :: init, front, ?_⟩
        have hsubject : subject v (.other line :: rest) = subject v rest := by
          rw [subject, followingPredicate?, if_pos (Bool.and_eq_true_iff.1 hblank).1, subject]
        rw [condition, if_pos hblank, hsubject, h, List.cons_append]
      | false =>
        refine ⟨[], "WHERE ".toList, ?_⟩
        have hsubject : subject v (.other line :: rest) = v := by
          have : followingPredicate? (.other line :: rest) = none := by
            rw [← Option.not_isSome_iff_eq_none, isSome_followingPredicate?, filterFollows, hblank]
            exact Bool.false_ne_true
          rw [subject, this]
          rfl
        rw [condition, hblank, if_neg Bool.false_ne_true, hsubject]
        rfl

theorem tenantFilter_isSuffix_condition (v : List Char) (rest : List Clause) :
    tenantFilter (subject v rest) <:+ unlines (condition v rest) := by
  obtain ⟨init, front, h⟩ := exists_condition_eq v rest
  obtain ⟨cs, hcs⟩ := exists_unlines_eq init front (tenantFilter (subject v rest))
  rw [h, hcs]
  exact List.suffix_append _ _

/-! ### The condition in the text -/

/-- A pattern whose variable is remembered, only blank lines standing before the next filter. -/
theorem exists_of_confine_some {v : List Char} {rest : List Clause} {out : List Line}
    (hfollows : filterFollows rest) (h : confine (some v) rest = .ok out) :
    ∃ back, out = condition v rest ++ back := by
  induction rest generalizing out with
  | nil => cases hfollows
  | cons c rest ih =>
    cases c with
    | pattern => cases hfollows
    | filter line keyword predicate =>
      obtain ⟨-, w, hw, tail, -, rfl⟩ := confine_filter_eq_ok.1 h
      have hgetD : (filterVariable? predicate).getD v = w := by
        cases hp : filterVariable? predicate with
        | none =>
          rw [hp] at hw
          exact Option.some.inj hw
        | some u =>
          rw [hp] at hw
          exact Option.some.inj hw
      exact ⟨tail, by rw [condition, hgetD]; rfl⟩
    | other line =>
      rw [filterFollows] at hfollows
      obtain ⟨tail, htail, rfl⟩ := confine_other_eq_ok.1 h
      obtain ⟨back, rfl⟩ := ih (Bool.and_eq_true_iff.1 hfollows).2 htail
      exact ⟨back, by rw [condition, if_pos hfollows, List.cons_append]⟩

/-- A pattern stands in front of its condition. -/
theorem exists_of_confine_pattern {pending : Option (List Char)} {line : Line} {v : List Char}
    {rest : List Clause} {out : List Line} (hv : patternVariable? line = some v)
    (h : confine pending (.pattern line :: rest) = .ok out) :
    ∃ back, out = line :: condition v rest ++ back := by
  obtain ⟨w, hw, h⟩ := confine_pattern_eq_ok.1 h
  obtain rfl : v = w := Option.some.inj (hv.symm.trans hw)
  cases hfollows : filterFollows rest with
  | true =>
    rw [if_pos hfollows] at h
    obtain ⟨tail, htail, rfl⟩ := h
    obtain ⟨back, rfl⟩ := exists_of_confine_some hfollows htail
    exact ⟨back, rfl⟩
  | false =>
    rw [hfollows, if_neg Bool.false_ne_true] at h
    obtain ⟨tail, -, rfl⟩ := h
    exact ⟨tail, by rw [condition_of_not_filterFollows hfollows]; rfl⟩

/-- Two splits of a text at the last occurrence of a character agree. -/
theorem eq_of_append_cons_eq {α : Type} {c : α} {a b v w : List α} (hv : c ∉ v) (hw : c ∉ w)
    (h : a ++ c :: v = b ++ c :: w) : v = w := by
  rcases List.append_eq_append_iff.1 h with ⟨_ | ⟨d, more⟩, -, h⟩ | ⟨_ | ⟨d, more⟩, -, h⟩
  · exact (List.cons.inj h).2
  · exact absurd ((List.cons.inj h).2 ▸ by simp) hv
  · exact ((List.cons.inj h).2).symm
  · exact absurd ((List.cons.inj h).2 ▸ by simp) hw

/-- Conditions on different variables do not end alike. -/
theorem tenantFilter_isSuffix_iff {v w : List Char} (hv : ' ' ∉ v) (hw : ' ' ∉ w)
    (front : List Char) : tenantFilter v <:+ front ++ tenantFilter w ↔ w = v := by
  constructor
  · rintro ⟨pre, h⟩
    -- both texts end in the same words behind the variable, and in a blank before it
    have hsplit : ∀ (x u : List Char), x ++ tenantFilter u =
        (x ++ u ++ ".projectId IS NOT NULL AND".toList) ++ ' ' :: u ++
          ".projectId = $projectId".toList := by
      intro x u
      simp [tenantFilter]
    rw [hsplit, hsplit] at h
    exact (eq_of_append_cons_eq hv hw (List.append_cancel_right h)).symm
  · rintro rfl
    exact List.suffix_append _ _

/-- A condition is about the variable of its pattern unless a filter follows whose predicate is
about another one. -/
theorem subject_eq_iff (v : List Char) (rest : List Clause) : subject v rest = v ↔
    ∀ predicate w, followingPredicate? rest = some predicate →
      filterVariable? predicate = some w → w = v := by
  unfold subject
  cases hp : followingPredicate? rest with
  | none => simp
  | some predicate =>
    rw [Option.bind_some]
    constructor
    · rintro h _ w ⟨⟩ hw
      rwa [hw, Option.getD_some] at h
    · intro h
      cases hw : filterVariable? predicate with
      | none => rfl
      | some w => exact h predicate w rfl hw

theorem not_mem_subject {line : Line} {v : List Char} (hv : patternVariable? line = some v)
    (rest : List Clause) : ' ' ∉ subject v rest := by
  unfold subject
  cases hp : (followingPredicate? rest).bind filterVariable? with
  | none => exact not_mem_of_patternVariable? (by decide) hv
  | some w =>
    obtain ⟨predicate, -, hw⟩ := Option.bind_eq_some_iff.1 hp
    exact not_mem_of_filterVariable? (by decide) hw

theorem tenantFilter_isSuffix_condition_iff {line : Line} {v : List Char}
    (hv : patternVariable? line = some v) (rest : List Clause) :
    tenantFilter v <:+ unlines (condition v rest) ↔ subject v rest = v := by
  obtain ⟨init, front, h⟩ := exists_condition_eq v rest
  obtain ⟨cs, hcs⟩ := exists_unlines_eq init front (tenantFilter (subject v rest))
  rw [h, hcs]
  exact tenantFilter_isSuffix_iff (not_mem_of_patternVariable? (by decide) hv)
    (not_mem_subject hv rest) cs

/-- **The condition behind a pattern.** In a scoped query every pattern stands behind the scoped
lines of what came before it and in front of a condition, which ends in the tenant's condition on
some variable. That is the pattern's own variable unless a filter follows whose predicate is about
another one. -/
theorem condition_of_scope {query text : List Char} {limit : Nat}
    (h : scope query limit = .ok text) {before after : List Line} {line : Line}
    (hlines : lines (trimEnd query) = before ++ line :: after) {v : List Char}
    (hv : patternVariable? line = some v) :
    ∃ front back, confine none (Clause.ofLines before) = .ok front ∧
      text = unlines (front ++ line :: condition v (Clause.ofLines after)) ++ '\n' :: back ∧
      tenantFilter (subject v (Clause.ofLines after)) <:+
        unlines (condition v (Clause.ofLines after)) ∧
      (tenantFilter v <:+ unlines (condition v (Clause.ofLines after)) ↔
        ∀ predicate w, followingPredicate? (Clause.ofLines after) = some predicate →
          filterVariable? predicate = some w → w = v) := by
  obtain ⟨out, hout, rfl⟩ := scope_eq_ok.1 h
  rw [clauses, hlines,
    Clause.ofLines_append_pattern (isSome_afterMatch?_of_patternVariable? hv)] at hout
  obtain ⟨front, tail, hfront, htail, rfl⟩ := confine_append_pattern hout
  obtain ⟨more, rfl⟩ := exists_of_confine_pattern hv htail
  obtain ⟨init, opening, hcondition⟩ := exists_condition_eq v (Clause.ofLines after)
  obtain ⟨back, hback⟩ := exists_cap_unlines_eq limit (front ++ line :: init) more opening
    (subject v (Clause.ofLines after))
  refine ⟨front, back, hfront, ?_, tenantFilter_isSuffix_condition v _, ?_⟩
  · simpa [hcondition] using hback
  · rw [tenantFilter_isSuffix_condition_iff hv, subject_eq_iff]

/-! ### A pattern without a condition of its own -/

/-- A query whose second pattern is followed by a filter on the first one. -/
def sharedFilter : List Char :=
  "MATCH (a)\nMATCH (b)\nWHERE a.x = 1\nRETURN b".toList

/-- The scoped form of `sharedFilter`. -/
def sharedFilterScoped : List Char :=
  unlines ["MATCH (a)".toList, patternFilter ['a'], "MATCH (b)".toList, "WHERE (a.x = 1)".toList,
    conjunct ['a'], "RETURN b".toList, "LIMIT 150".toList]

theorem scope_sharedFilter : scope sharedFilter 150 = .ok sharedFilterScoped := by
  -- the literals are given as lists of characters before anything is computed
  unfold sharedFilter sharedFilterScoped
  repeat rw [String.toList_ofList]
  exact eq_ok_of_toOption (by decide +kernel)

theorem lines_sharedFilter : lines (trimEnd sharedFilter) = ["MATCH (a)".toList] ++
    "MATCH (b)".toList :: ["WHERE a.x = 1".toList, "RETURN b".toList] := by
  unfold sharedFilter
  repeat rw [String.toList_ofList]
  decide +kernel

theorem patternVariable?_sharedFilter : patternVariable? "MATCH (b)".toList = some ['b'] := by
  decide +kernel

theorem condition_of_scope_sharedFilter :
    scope sharedFilter 150 = .ok sharedFilterScoped ∧
      lines (trimEnd sharedFilter) = ["MATCH (a)".toList] ++ "MATCH (b)".toList ::
        ["WHERE a.x = 1".toList, "RETURN b".toList] ∧
      patternVariable? "MATCH (b)".toList = some ['b'] ∧
      ∃ front back, confine none (Clause.ofLines ["MATCH (a)".toList]) = .ok front ∧
        sharedFilterScoped = unlines (front ++ "MATCH (b)".toList :: condition ['b']
          (Clause.ofLines ["WHERE a.x = 1".toList, "RETURN b".toList])) ++ '\n' :: back := by
  obtain ⟨front, back, hfront, heq, -, -⟩ :=
    condition_of_scope scope_sharedFilter lines_sharedFilter patternVariable?_sharedFilter
  exact ⟨scope_sharedFilter, lines_sharedFilter, patternVariable?_sharedFilter, front, back,
    hfront, heq⟩

/-- An accepted query may keep a pattern that no condition confines: the text that the store is
asked does not hold the tenant's condition on the second variable anywhere. -/
theorem unscoped_pattern :
    check sharedFilter = .ok () ∧ scope sharedFilter 150 = .ok sharedFilterScoped ∧
      "MATCH (b)".toList ∈ lines (trimEnd sharedFilter) ∧
      patternVariable? "MATCH (b)".toList = some ['b'] ∧
      ¬ tenantFilter ['b'] <:+: sharedFilterScoped :=
  ⟨eq_ok_of_toOption (by decide +kernel), scope_sharedFilter,
    lines_sharedFilter ▸ by simp, patternVariable?_sharedFilter, by decide +kernel⟩

end CodeGraph.Query
