import CodeGraph.Proofs.Query.Confine
import CodeGraph.Proofs.Query.Cut

/-!
# What becomes of the clauses of a query

What becomes of a clause when its query is scoped is told by the clause and its neighbours: a
pattern looks at the next filter, and a filter without a variable of its own looks back at the
pattern it follows. What is remembered from one clause to the next never reaches further.

* `FollowsPattern`, `FilterNext`: a pattern and a filter with only blank lines between;
* `Clause.IsScopable`, `Clause.Becomes`: which clauses can be scoped, and to what lines;
* `Remembers`, `exists_confine_cons`: what is remembered between two clauses, and one step;
* `Laid`, `confine_eq_ok_iff`: the lines of all clauses in order;
* `laid_of_scope`: which queries can be scoped, and to what.
-/

namespace CodeGraph.Query

open Text

/-! ### Neighbours -/

/-- Clauses that end in a pattern, with only blank lines behind it. -/
inductive FollowsPattern (line : Line) : List Clause → Prop
  | pattern (before : List Clause) : FollowsPattern line (before ++ [.pattern line])
  | blank {before : List Clause} {l : Line} : isBlankText l → FollowsPattern line before →
      FollowsPattern line (before ++ [.other l])

/-- Clauses that begin with a filter, with only blank lines before it. -/
inductive FilterNext : List Clause → Prop
  | filter (line : Line) (keyword predicate : List Char) (after : List Clause) :
      FilterNext (.filter line keyword predicate :: after)
  | blank {l : Line} {after : List Clause} : isBlankText l → FilterNext after →
      FilterNext (.other l :: after)

/-- A clause that can be scoped, given the clauses before it: a pattern has a variable, and a filter
has a predicate and either refers to a variable or follows a pattern. -/
def Clause.IsScopable (before : List Clause) : Clause → Prop
  | .pattern line => ∃ v, patternVariable? line = some v
  | .filter _ _ predicate => predicate ≠ [] ∧
      ((∃ v, filterVariable? predicate = some v) ∨ ∃ line, FollowsPattern line before)
  | .other _ => True

/-- The lines that a clause becomes, given the clauses around it. -/
inductive Clause.Becomes (before after : List Clause) : Clause → List Line → Prop
  | other (line : Line) : Becomes before after (.other line) [line]
  | left {line : Line} {v : List Char} : patternVariable? line = some v → FilterNext after →
      Becomes before after (.pattern line) [line]
  | filtered {line : Line} {v : List Char} : patternVariable? line = some v → ¬ FilterNext after →
      Becomes before after (.pattern line) [line, patternFilter v]
  | own {line : Line} {keyword predicate v : List Char} : predicate ≠ [] →
      filterVariable? predicate = some v →
      Becomes before after (.filter line keyword predicate) [wrapped keyword predicate, conjunct v]
  | inherited {line l : Line} {keyword predicate v : List Char} : predicate ≠ [] →
      filterVariable? predicate = none → FollowsPattern l before → patternVariable? l = some v →
      Becomes before after (.filter line keyword predicate) [wrapped keyword predicate, conjunct v]

/-- The lines of clauses in order, given the clauses before them. -/
inductive Laid : List Clause → List Clause → List (List Line) → Prop
  | nil (before : List Clause) : Laid before [] []
  | cons {before after : List Clause} {c : Clause} {part : List Line} {parts : List (List Line)} :
      c.Becomes before after part → Laid (before ++ [c]) after parts →
      Laid before (c :: after) (part :: parts)

/-! ### What clauses become -/

theorem filterNext_iff {cs : List Clause} : FilterNext cs ↔ filterFollows cs = true := by
  constructor
  · intro h
    induction h with
    | filter => rfl
    | blank hblank _ ih => rw [filterFollows, hblank, ih, Bool.and_self]
  · intro h
    induction cs with
    | nil => cases h
    | cons c cs ih =>
      cases c with
      | pattern => cases h
      | filter line keyword predicate => exact .filter line keyword predicate cs
      | other line =>
        obtain ⟨hblank, hnext⟩ := Bool.and_eq_true_iff.1 h
        exact .blank hblank (ih hnext)

theorem filterNext_other_iff {line : Line} {cs : List Clause} :
    FilterNext (.other line :: cs) ↔ isBlankText line ∧ FilterNext cs := by
  rw [filterNext_iff, filterNext_iff, filterFollows, Bool.and_eq_true]

section Follows

variable {before : List Clause} {line l : Line}

theorem followsPattern_append_other_iff :
    FollowsPattern line (before ++ [.other l]) ↔ isBlankText l ∧ FollowsPattern line before := by
  constructor
  · intro h
    generalize hcs : before ++ [Clause.other l] = cs at h
    cases h with
    | pattern init => simp at hcs
    | blank hblank hfollows =>
      obtain ⟨rfl, hl⟩ := List.append_inj' hcs rfl
      cases hl
      exact ⟨hblank, hfollows⟩
  · rintro ⟨hblank, hfollows⟩
    exact .blank hblank hfollows

theorem followsPattern_append_pattern_iff :
    FollowsPattern line (before ++ [.pattern l]) ↔ line = l := by
  constructor
  · intro h
    generalize hcs : before ++ [Clause.pattern l] = cs at h
    cases h with
    | pattern init => simpa [eq_comm] using (List.append_inj' hcs rfl).2
    | blank => simp at hcs
  · rintro rfl
    exact .pattern before

theorem not_followsPattern_append_filter (keyword predicate : List Char) :
    ¬ FollowsPattern line (before ++ [.filter l keyword predicate]) := by
  intro h
  generalize hcs : before ++ [Clause.filter l keyword predicate] = cs at h
  cases h with
  | pattern => simp at hcs
  | blank => simp at hcs

theorem pattern_mem_of_followsPattern (h : FollowsPattern line before) :
    .pattern line ∈ before := by
  induction h with
  | pattern before => simp
  | blank _ _ ih => exact List.mem_append_left _ ih

end Follows

/-- What is remembered between two clauses: the variable of the pattern before them if the next
filter follows it. -/
def Remembers (pending : Option (List Char)) (before after : List Clause) : Prop :=
  ∀ v, pending = some v ↔
    FilterNext after ∧ ∃ line, FollowsPattern line before ∧ patternVariable? line = some v

section Remembers

variable {pending : Option (List Char)} {before after : List Clause} {line : Line}

theorem remembers_nil (cs : List Clause) : Remembers none [] cs := by
  intro v
  refine iff_of_false (Option.some_ne_none v).symm ?_
  rintro ⟨-, line, hline, -⟩
  exact absurd (pattern_mem_of_followsPattern hline) List.not_mem_nil

theorem Remembers.other (h : Remembers pending before (.other line :: after)) :
    Remembers pending (before ++ [.other line]) after := by
  intro v
  rw [h v, filterNext_other_iff]
  simp only [followsPattern_append_other_iff]
  constructor
  · rintro ⟨⟨hblank, hnext⟩, l, hl, hv⟩
    exact ⟨hnext, l, ⟨hblank, hl⟩, hv⟩
  · rintro ⟨hnext, l, ⟨hblank, hl⟩, hv⟩
    exact ⟨⟨hblank, hnext⟩, l, hl, hv⟩

theorem remembers_pattern (hnext : FilterNext after) :
    Remembers (patternVariable? line) (before ++ [.pattern line]) after := by
  intro v
  simp [followsPattern_append_pattern_iff, hnext]

theorem remembers_pattern_of_not (hnext : ¬ FilterNext after) :
    Remembers none (before ++ [.pattern line]) after := by
  intro v
  simp [hnext]

theorem remembers_filter (keyword predicate : List Char) :
    Remembers none (before ++ [.filter line keyword predicate]) after := by
  intro w
  simp [not_followsPattern_append_filter]

end Remembers

/-! ### One clause -/

section Step

variable {pending : Option (List Char)} {before after : List Clause} {line : Line}
  {part : List Line}

theorem becomes_other_iff :
    (Clause.other line).Becomes before after part ↔ part = [line] := by
  constructor
  · rintro ⟨⟩
    rfl
  · rintro rfl
    exact .other line

theorem becomes_pattern_iff : (Clause.pattern line).Becomes before after part ↔
    ∃ v, patternVariable? line = some v ∧ (FilterNext after ∧ part = [line] ∨
      ¬ FilterNext after ∧ part = [line, patternFilter v]) := by
  constructor
  · intro h
    cases h with
    | left hv hnext => exact ⟨_, hv, .inl ⟨hnext, rfl⟩⟩
    | filtered hv hnext => exact ⟨_, hv, .inr ⟨hnext, rfl⟩⟩
  · rintro ⟨v, hv, ⟨hnext, rfl⟩ | ⟨hnext, rfl⟩⟩
    · exact .left hv hnext
    · exact .filtered hv hnext

theorem becomes_filter_iff {keyword predicate : List Char} :
    (Clause.filter line keyword predicate).Becomes before after part ↔
      predicate ≠ [] ∧ ∃ v, (filterVariable? predicate = some v ∨ filterVariable? predicate = none ∧
        ∃ l, FollowsPattern l before ∧ patternVariable? l = some v) ∧
        part = [wrapped keyword predicate, conjunct v] := by
  constructor
  · intro h
    cases h with
    | own hp hv => exact ⟨hp, _, .inl hv, rfl⟩
    | inherited hp hnone hl hv => exact ⟨hp, _, .inr ⟨hnone, _, hl, hv⟩, rfl⟩
  · rintro ⟨hp, v, hv | ⟨hnone, l, hl, hv⟩, rfl⟩
    · exact .own hp hv
    · exact .inherited hp hnone hl hv

theorem exists_becomes_iff {c : Clause}
    (h : ∀ l, .pattern l ∈ before → ∃ v, patternVariable? l = some v) :
    (∃ part, c.Becomes before after part) ↔ c.IsScopable before := by
  cases c with
  | other line => exact iff_of_true ⟨[line], .other line⟩ trivial
  | pattern line =>
    constructor
    · rintro ⟨part, hpart⟩
      obtain ⟨v, hv, -⟩ := becomes_pattern_iff.1 hpart
      exact ⟨v, hv⟩
    · rintro ⟨v, hv⟩
      by_cases hnext : FilterNext after
      · exact ⟨_, .left hv hnext⟩
      · exact ⟨_, .filtered hv hnext⟩
  | filter line keyword predicate =>
    constructor
    · rintro ⟨part, hpart⟩
      obtain ⟨hp, v, hv | ⟨-, l, hl, -⟩, -⟩ := becomes_filter_iff.1 hpart
      · exact ⟨hp, .inl ⟨v, hv⟩⟩
      · exact ⟨hp, .inr ⟨l, hl⟩⟩
    · rintro ⟨hp, hv⟩
      cases hown : filterVariable? predicate with
      | some v => exact ⟨_, .own hp hown⟩
      | none =>
        rcases hv with ⟨v, hv⟩ | ⟨l, hl⟩
        · exact absurd (hv.symm.trans hown) (Option.some_ne_none v)
        · obtain ⟨v, hv⟩ := h l (pattern_mem_of_followsPattern hl)
          exact ⟨_, .inherited hp hown hl hv⟩

/-- A clause is scoped to what it becomes between its neighbours, and what is remembered behind it
is right again. -/
theorem exists_confine_cons {c : Clause} (h : Remembers pending before (c :: after)) :
    ∃ next, Remembers next (before ++ [c]) after ∧ ∀ out, confine pending (c :: after) = .ok out ↔
      ∃ part tail, c.Becomes before after part ∧ confine next after = .ok tail ∧
        out = part ++ tail := by
  cases c with
  | other line =>
    refine ⟨pending, h.other, fun out => ?_⟩
    rw [confine_other_eq_ok]
    constructor
    · rintro ⟨tail, htail, rfl⟩
      exact ⟨[line], tail, .other line, htail, rfl⟩
    · rintro ⟨part, tail, hpart, htail, rfl⟩
      obtain rfl := becomes_other_iff.1 hpart
      exact ⟨tail, htail, rfl⟩
  | pattern line =>
    simp only [confine_pattern_eq_ok, becomes_pattern_iff]
    by_cases hnext : FilterNext after
    · refine ⟨patternVariable? line, remembers_pattern hnext, fun out => ?_⟩
      simp only [filterNext_iff.1 hnext, hnext, not_true, true_and, false_and, or_false, ↓reduceIte]
      constructor
      · rintro ⟨v, hv, tail, htail, rfl⟩
        exact ⟨_, tail, ⟨v, hv, rfl⟩, hv ▸ htail, rfl⟩
      · rintro ⟨_, tail, ⟨v, hv, rfl⟩, htail, rfl⟩
        exact ⟨v, hv, tail, hv ▸ htail, rfl⟩
    · refine ⟨none, remembers_pattern_of_not hnext, fun out => ?_⟩
      have hfollows : ¬ filterFollows after = true := mt filterNext_iff.2 hnext
      simp only [hfollows, hnext, not_false_eq_true, true_and, false_and, false_or,
        Bool.false_eq_true, ↓reduceIte]
      constructor
      · rintro ⟨v, hv, tail, htail, rfl⟩
        exact ⟨_, tail, ⟨v, hv, rfl⟩, htail, rfl⟩
      · rintro ⟨_, tail, ⟨v, hv, rfl⟩, htail, rfl⟩
        exact ⟨v, hv, tail, htail, rfl⟩
  | filter line keyword predicate =>
    -- the variable of a filter is one that its predicate refers to, or else what is remembered
    have hvariable (v : List Char) : (filterVariable? predicate <|> pending) = some v ↔
        filterVariable? predicate = some v ∨ filterVariable? predicate = none ∧
          ∃ l, FollowsPattern l before ∧ patternVariable? l = some v := by
      rw [Option.orElse_eq_orElse, Option.orElse_eq_or, Option.or_eq_some_iff, h v]
      simp only [FilterNext.filter, true_and]
    refine ⟨none, remembers_filter keyword predicate, fun out => ?_⟩
    simp only [confine_filter_eq_ok, becomes_filter_iff, hvariable]
    constructor
    · rintro ⟨hp, v, hv, tail, htail, rfl⟩
      exact ⟨_, tail, ⟨hp, v, hv, rfl⟩, htail, rfl⟩
    · rintro ⟨_, tail, ⟨hp, v, hv, rfl⟩, htail, rfl⟩
      exact ⟨hp, v, hv, tail, htail, rfl⟩

end Step

/-! ### All clauses -/

theorem laid_cons_iff {before after : List Clause} {c : Clause} {parts : List (List Line)} :
    Laid before (c :: after) parts ↔ ∃ part rest, c.Becomes before after part ∧
      Laid (before ++ [c]) after rest ∧ parts = part :: rest := by
  constructor
  · intro h
    cases h with
    | cons hpart hrest => exact ⟨_, _, hpart, hrest, rfl⟩
  · rintro ⟨part, rest, hpart, hrest, rfl⟩
    exact .cons hpart hrest

/-- Clauses are scoped to what they are laid out as. -/
theorem confine_eq_ok_iff {pending : Option (List Char)} {before cs : List Clause} {out : List Line}
    (h : Remembers pending before cs) :
    confine pending cs = .ok out ↔ ∃ parts, Laid before cs parts ∧ out = parts.flatten := by
  induction cs generalizing pending before out with
  | nil =>
    constructor
    · rintro ⟨⟩
      exact ⟨[], .nil before, rfl⟩
    · rintro ⟨_, ⟨⟩, rfl⟩
      rfl
  | cons c cs ih =>
    obtain ⟨next, hnext, hconfine⟩ := exists_confine_cons h
    simp only [hconfine, laid_cons_iff]
    constructor
    · rintro ⟨part, tail, hpart, htail, rfl⟩
      obtain ⟨parts, hparts, rfl⟩ := (ih hnext).1 htail
      exact ⟨part :: parts, ⟨part, parts, hpart, hparts, rfl⟩, rfl⟩
    · rintro ⟨_, ⟨part, parts, hpart, hparts, rfl⟩, rfl⟩
      exact ⟨part, _, hpart, (ih hnext).2 ⟨parts, hparts, rfl⟩, rfl⟩

/-- Clauses can be laid out if each of them can be scoped. -/
theorem exists_laid_iff {before cs : List Clause}
    (h : ∀ l, .pattern l ∈ before → ∃ v, patternVariable? l = some v) :
    (∃ parts, Laid before cs parts) ↔
      ∀ init c after, cs = init ++ c :: after → c.IsScopable (before ++ init) := by
  induction cs generalizing before with
  | nil => exact iff_of_true ⟨[], .nil before⟩ fun init c after hnil => by simp at hnil
  | cons c cs ih =>
    have hlaid : (∃ parts, Laid before (c :: cs) parts) ↔
        (∃ part, c.Becomes before cs part) ∧ ∃ rest, Laid (before ++ [c]) cs rest := by
      simp only [laid_cons_iff]
      constructor
      · rintro ⟨_, part, rest, hpart, hrest, rfl⟩
        exact ⟨⟨part, hpart⟩, rest, hrest⟩
      · rintro ⟨⟨part, hpart⟩, rest, hrest⟩
        exact ⟨_, part, rest, hpart, hrest, rfl⟩
    have hscopable : (∀ init c' after, c :: cs = init ++ c' :: after →
          c'.IsScopable (before ++ init)) ↔
        c.IsScopable before ∧ ∀ init c' after, cs = init ++ c' :: after →
          c'.IsScopable (before ++ [c] ++ init) := by
      constructor
      · intro hall
        refine ⟨by simpa using hall [] c cs rfl, fun init c' after hcs => ?_⟩
        simpa using hall (c :: init) c' after (by rw [hcs, List.cons_append])
      · rintro ⟨hc, htail⟩ (_ | ⟨d, init⟩) c' after hcs
        · obtain ⟨rfl, -⟩ := List.cons.inj hcs
          simpa using hc
        · obtain ⟨rfl, hrest⟩ := List.cons.inj hcs
          simpa using htail init c' after hrest
    rw [hlaid, hscopable, exists_becomes_iff h]
    refine and_congr_right fun hc => ih fun l hl => ?_
    rcases List.mem_append.1 hl with hl | hl
    · exact h l hl
    · obtain rfl := List.mem_singleton.1 hl
      exact hc

/-- **A query line by line.** The lines of a query are cut into clauses in one way. The query can be
scoped if every pattern has a variable and every filter has a predicate and either refers to a
variable or follows a pattern. It is then scoped to the clauses in order: a pattern as it stands,
with a filter line of its own if no filter follows; a filter as its keyword and its whole predicate
in parentheses, with a conjunct on the variable it refers to or else on that of the pattern right
before it; and any other line as it stands. The cap comes last. -/
theorem laid_of_scope (query : List Char) (limit : Nat) :
    (∀ cs, Cut (lines (trimEnd query)) cs ↔ cs = clauses query) ∧
    ((∃ text, scope query limit = .ok text) ↔
      ∀ before c after, clauses query = before ++ c :: after → c.IsScopable before) ∧
    ∀ text, scope query limit = .ok text ↔
      ∃ parts, Laid [] (clauses query) parts ∧ text = cap limit (unlines parts.flatten) := by
  have hscope (text : List Char) : scope query limit = .ok text ↔
      ∃ parts, Laid [] (clauses query) parts ∧ text = cap limit (unlines parts.flatten) := by
    simp only [scope_eq_ok, confine_eq_ok_iff (remembers_nil _)]
    constructor
    · rintro ⟨_, ⟨parts, hparts, rfl⟩, rfl⟩
      exact ⟨parts, hparts, rfl⟩
    · rintro ⟨parts, hparts, rfl⟩
      exact ⟨_, ⟨parts, hparts, rfl⟩, rfl⟩
  refine ⟨fun cs => cut_iff, ?_, hscope⟩
  have hlaid : (∃ text, scope query limit = .ok text) ↔ ∃ parts, Laid [] (clauses query) parts := by
    simp only [hscope]
    rw [exists_comm]
    simp
  rw [hlaid, exists_laid_iff fun l hl => absurd hl List.not_mem_nil]
  simp only [List.nil_append]

end CodeGraph.Query
