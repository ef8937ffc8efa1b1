import CodeGraph.Proofs.Query.Cap
import CodeGraph.Proofs.Query.Confine
import CodeGraph.Proofs.Query.Variable
import CodeGraph.Proofs.Text.Parenthesis

/-!
# The parentheses around a predicate

Scoping puts the predicate of a filter in parentheses and adds the tenant's condition behind them.
Nothing looks at the parentheses that the predicate itself holds, so the two that are added belong
together exactly for a balanced predicate; any other predicate reaches out of them.

* `exists_of_confine_filter`: the lines that a filter becomes;
* `enclosure_of_scope`: when the tenant's condition stands outside all parentheses, with the whole
  predicate inside;
* `escaping_predicate`: a predicate that makes the tenant's condition one of two alternatives.
-/

namespace CodeGraph.Query

open Text

/-- A text without parentheses. -/
def Plain (cs : List Char) : Prop := '(' ∉ cs ∧ ')' ∉ cs

theorem plain_of_patternVariable? {line : Line} {v : List Char}
    (h : patternVariable? line = some v) : Plain v :=
  ⟨not_mem_of_patternVariable? (by decide) h,
    not_mem_of_patternVariable? (by decide) h⟩

theorem plain_of_filterVariable? {predicate v : List Char}
    (h : filterVariable? predicate = some v) : Plain v :=
  ⟨not_mem_of_filterVariable? (by decide) h,
    not_mem_of_filterVariable? (by decide) h⟩

/-- A filter becomes two lines, its predicate in parentheses and the condition on a variable. -/
theorem exists_of_confine_filter {pending : Option (List Char)} {before after : List Clause}
    {line : Line} {keyword predicate : List Char} {out : List Line}
    (hpending : ∀ v, pending = some v → Plain v)
    (h : confine pending (before ++ .filter line keyword predicate :: after) = .ok out) :
    ∃ front v back, out = front ++ wrapped keyword predicate :: conjunct v :: back ∧ Plain v := by
  induction before generalizing pending out with
  | nil =>
    obtain ⟨-, v, hv, back, -, rfl⟩ := confine_filter_eq_ok.1 h
    refine ⟨[], v, back, rfl, ?_⟩
    rcases Option.or_eq_some_iff.1 ((Option.orElse_eq_or ..).symm.trans hv) with hv | ⟨-, hv⟩
    · exact plain_of_filterVariable? hv
    · exact hpending v hv
  | cons c cs ih =>
    have hnone : ∀ v, (none : Option (List Char)) = some v → Plain v := fun v hv => nomatch hv
    cases c with
    | other l =>
      obtain ⟨tail, ht, rfl⟩ := confine_other_eq_ok.1 h
      obtain ⟨front, v, back, rfl, hv⟩ := ih hpending ht
      exact ⟨l :: front, v, back, rfl, hv⟩
    | pattern l =>
      obtain ⟨w, hw, h⟩ := confine_pattern_eq_ok.1 h
      split at h
      · obtain ⟨tail, ht, rfl⟩ := h
        have hsome : ∀ v, some w = some v → Plain v := by
          rintro _ ⟨⟩
          exact plain_of_patternVariable? hw
        obtain ⟨front, v, back, rfl, hv⟩ := ih hsome ht
        exact ⟨l :: front, v, back, rfl, hv⟩
      · obtain ⟨tail, ht, rfl⟩ := h
        obtain ⟨front, v, back, rfl, hv⟩ := ih hnone ht
        exact ⟨l :: patternFilter w :: front, v, back, rfl, hv⟩
    | filter l k p =>
      obtain ⟨-, w, -, tail, ht, rfl⟩ := confine_filter_eq_ok.1 h
      obtain ⟨front, v, back, rfl, hv⟩ := ih hnone ht
      exact ⟨wrapped k p :: conjunct w :: front, v, back, rfl, hv⟩

theorem plain_conjunct {v : List Char} (hv : Plain v) : Plain ('\n' :: conjunct v) := by
  unfold Plain conjunct tenantFilter
  simp [hv.1, hv.2]

theorem exists_unlines_pair (front : List Line) (first second : Line) :
    ∃ cs, unlines (front ++ [first, second]) = cs ++ first ++ '\n' :: second := by
  obtain ⟨cs, hcs⟩ := exists_unlines_eq front [] first
  refine ⟨cs, ?_⟩
  rw [show front ++ [first, second] = (front ++ [[] ++ first]) ++ [second] by simp,
    unlines_append (by simp) (by simp), hcs]
  simp [unlines]

/-- **The parentheses around a predicate.** In a scoped query every filter reads as its keyword, its
predicate in parentheses, and the tenant's condition on some variable. The two parentheses match if
and only if the predicate is balanced, and just then the tenant's condition is a conjunct beside
the predicate as a whole: outside all parentheses nothing else is left. -/
theorem enclosure_of_scope {query text : List Char} {limit : ℕ}
    (h : scope query limit = .ok text) {before after : List Clause} {line : Line}
    {keyword predicate : List Char}
    (hclauses : clauses query = before ++ .filter line keyword predicate :: after) :
    ∃ front v back,
      text = front ++ keyword ++ " (".toList ++ predicate ++
        ')' :: ('\n' :: conjunct v ++ '\n' :: back) ∧
      (afterClosing? 0 (predicate ++ ')' :: ('\n' :: conjunct v ++ '\n' :: back)) =
        some ('\n' :: conjunct v ++ '\n' :: back) ↔ Balanced predicate) ∧
      (outermost 0 ('(' :: predicate ++ ')' :: '\n' :: conjunct v) =
        '(' :: ')' :: '\n' :: conjunct v ↔ Balanced predicate) := by
  obtain ⟨out, hout, rfl⟩ := scope_eq_ok.1 h
  rw [hclauses] at hout
  obtain ⟨front, v, back, rfl, hv⟩ := exists_of_confine_filter (by simp) hout
  obtain ⟨rest, hrest⟩ := exists_cap_unlines_eq limit (front ++ [wrapped keyword predicate]) back
    "AND ".toList v
  obtain ⟨cs, hcs⟩ := exists_unlines_pair front (wrapped keyword predicate) (conjunct v)
  have hplain := plain_conjunct hv
  refine ⟨cs, v, rest, ?_, afterClosing?_append_iff _ _, outermost_append_iff hplain.1 hplain.2 _⟩
  rw [show front ++ wrapped keyword predicate :: conjunct v :: back =
      front ++ [wrapped keyword predicate] ++ ["AND ".toList ++ tenantFilter v] ++ back by
    simp [conjunct], hrest]
  rw [show front ++ [wrapped keyword predicate] ++ ["AND ".toList ++ tenantFilter v] =
    front ++ [wrapped keyword predicate, conjunct v] by simp [conjunct], hcs]
  simp [wrapped]

/-! ### A predicate that escapes -/

/-- A query whose predicate closes the parenthesis before it and opens the one behind it again. -/
def escaping : List Char :=
  "MATCH (n)\nWHERE n.x = 1) OR (n.y = 2\nRETURN n".toList

/-- The predicate of `escaping`. -/
def escapingPredicate : List Char := "n.x = 1) OR (n.y = 2".toList

/-- The scoped form of `escaping`. -/
def escapingScoped : List Char :=
  unlines ["MATCH (n)".toList, wrapped "WHERE".toList escapingPredicate, conjunct ['n'],
    "RETURN n".toList, "LIMIT 150".toList]

theorem clauses_escaping : clauses escaping = [.pattern "MATCH (n)".toList] ++
    .filter "WHERE n.x = 1) OR (n.y = 2".toList "WHERE".toList escapingPredicate ::
      [.other "RETURN n".toList] := by
  -- the literals are given as lists of characters before anything is computed
  unfold escaping escapingPredicate
  repeat rw [String.toList_ofList]
  decide +kernel

theorem scope_escaping : scope escaping 150 = .ok escapingScoped := by
  unfold escaping escapingScoped escapingPredicate
  repeat rw [String.toList_ofList]
  exact eq_ok_of_toOption (by decide +kernel)

theorem enclosure_of_scope_escaping :
    scope escaping 150 = .ok escapingScoped ∧
      clauses escaping = [.pattern "MATCH (n)".toList] ++
        .filter "WHERE n.x = 1) OR (n.y = 2".toList "WHERE".toList escapingPredicate ::
          [.other "RETURN n".toList] ∧
      ∃ front v back,
        escapingScoped = front ++ "WHERE".toList ++ " (".toList ++ escapingPredicate ++
          ')' :: ('\n' :: conjunct v ++ '\n' :: back) ∧
        (afterClosing? 0 (escapingPredicate ++ ')' :: ('\n' :: conjunct v ++ '\n' :: back)) =
          some ('\n' :: conjunct v ++ '\n' :: back) ↔ Balanced escapingPredicate) := by
  obtain ⟨front, v, back, htext, hclosing, -⟩ := enclosure_of_scope scope_escaping clauses_escaping
  exact ⟨scope_escaping, clauses_escaping, front, v, back, htext, hclosing⟩

/-- Neither quotes nor comments begin in `escaping`. -/
theorem not_mem_escaping : ∀ c ∈ ['\x22', '\x27', '\x60', '/'], c ∉ escaping := by
  unfold escaping
  rw [String.toList_ofList]
  simp only [List.forall_mem_cons, List.not_mem_nil, false_implies, implies_true, and_true]
  decide +kernel

/-- An accepted query without quotes and comments may hold a predicate that is not balanced: the
alternative that it offers stands outside all parentheses, beside the tenant's condition. -/
theorem escaping_predicate :
    check escaping = .ok () ∧ scope escaping 150 = .ok escapingScoped ∧
      (∀ c ∈ ['\x22', '\x27', '\x60', '/'], c ∉ escaping) ∧
      .filter "WHERE n.x = 1) OR (n.y = 2".toList "WHERE".toList escapingPredicate ∈
        clauses escaping ∧
      ¬ Balanced escapingPredicate ∧
      outermost 0 (wrapped "WHERE".toList escapingPredicate ++ '\n' :: conjunct ['n']) =
        "WHERE () OR ()".toList ++ '\n' :: conjunct ['n'] :=
  ⟨eq_ok_of_toOption (by decide +kernel), scope_escaping, not_mem_escaping,
    clauses_escaping ▸ by simp, by decide +kernel, by decide +kernel⟩

end CodeGraph.Query
