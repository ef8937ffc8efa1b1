import CodeGraph.Proofs.Query.Clause
import CodeGraph.Proofs.Text.Word

/-!
# The clauses of a query, line by line

What a line opens is told by the keywords it begins with, in any case and with white space around
them. That alone says how the lines of a query are cut into clauses.

* `Begins`: a line that begins with some keywords;
* `IsPattern`, `OpensFilter`, `OpensClause`: what a line opens;
* `Cut`, `cut_iff`: the lines of a query in clauses, in the only way there is.
-/

namespace CodeGraph.Query

open Text

/-! ### Lines -/

/-- A text that begins with keywords in any case, behind white space and with white space between
two of them. The last one is a whole word, and `rest` is the text behind it. -/
inductive Begins (rest : List Char) : List (List Char) → List Char → Prop
  | last {gap word key : List Char} : isBlankText gap → folded word = key → endsWord rest →
      Begins rest [key] (gap ++ (word ++ rest))
  | next {gap word key : List Char} {keys : List (List Char)} {c : Char} {cs : List Char} :
      isBlankText gap → folded word = key → isBlank c → Begins rest keys (c :: cs) →
      Begins rest (key :: keys) (gap ++ (word ++ c :: cs))

/-- A line that opens with `MATCH` or `OPTIONAL MATCH`. -/
def IsPattern (line : Line) : Prop :=
  ∃ rest, Begins rest ["match".toList] line ∨
    Begins rest ["optional".toList, "match".toList] line

/-- A line that opens with `WHERE`: the keyword with the white space before it, and what follows the
white space behind it. -/
def OpensFilter (line : Line) (keyword front : List Char) : Prop :=
  ∃ gap, line = keyword ++ (gap ++ front) ∧ isBlankText gap ∧ dropBlank front = front ∧
    Begins (gap ++ front) ["where".toList] line

/-- What the lines begin with that open a clause. -/
def openings : List (List (List Char)) :=
  ["optional".toList, "match".toList] :: ["order".toList, "by".toList] ::
    clauseKeywords.map fun key => [key]

/-- A line that opens a clause. -/
def OpensClause (line : Line) : Prop :=
  ∃ keys ∈ openings, ∃ rest, Begins rest keys line

/-- The lines of a query in clauses: a pattern is a line, a filter takes all lines up to the next
one that opens a clause, and any other line stands by itself. -/
inductive Cut : List Line → List Clause → Prop
  | nil : Cut [] []
  | pattern {line : Line} {rest : List Line} {cs : List Clause} : IsPattern line → Cut rest cs →
      Cut (line :: rest) (.pattern line :: cs)
  | filter {line : Line} {keyword front : List Char} {more rest : List Line} {cs : List Clause} :
      OpensFilter line keyword front → (∀ l ∈ more, ¬ OpensClause l) →
      (∀ l ∈ rest.head?, OpensClause l) → Cut rest cs →
      Cut (line :: (more ++ rest)) (.filter line keyword (trim (unlines (front :: more))) :: cs)
  | other {line : Line} {rest : List Line} {cs : List Clause} : ¬ IsPattern line →
      (∀ keyword front, ¬ OpensFilter line keyword front) → Cut rest cs →
      Cut (line :: rest) (.other line :: cs)

/-! ### Keywords -/

/-- A keyword: it does not begin with white space. -/
def IsKey (key : List Char) : Prop :=
  ∃ k ks, key = k :: ks ∧ isBlank k = false

section Keywords

variable {key first second rest : List Char} {keys : List (List Char)} {line : Line}

theorem dropBlank_word {word : List Char} (hkey : IsKey key) (hword : folded word = key)
    (cs : List Char) : dropBlank (word ++ cs) = word ++ cs := by
  obtain ⟨k, ks, rfl, hk⟩ := hkey
  cases word with
  | nil => cases hword
  | cons w word =>
    obtain ⟨hfold, -⟩ := List.cons.inj hword
    refine dropBlank_eq_self_iff.2 fun c hc => ?_
    obtain rfl : w = c := by simpa using hc
    by_contra hblank
    rw [fold_of_not_isWord (isWord_of_isBlank (by simpa using hblank))] at hfold
    exact hblank (hfold ▸ hk)

theorem begins_singleton_iff (hkey : IsKey key) :
    Begins rest [key] line ↔ wholeKeyword? key (dropBlank line) = some rest := by
  rw [wholeKeyword?_eq_some_iff]
  constructor
  · rintro (⟨hgap, hword, hend⟩ | ⟨-, -, -, ⟨⟩⟩)
    rw [dropBlank_append hgap (dropBlank_word hkey hword _)]
    exact ⟨⟨_, rfl, hword⟩, hend⟩
  · rintro ⟨⟨word, hcs, hword⟩, hend⟩
    obtain ⟨gap, hline, hgap⟩ := exists_eq_append_dropBlank line
    rw [hline, hcs]
    exact .last hgap hword hend

theorem begins_pair_iff (hfirst : IsKey first) (hsecond : IsKey second) :
    Begins rest [first, second] line ↔
      twoKeywords? first second (dropBlank line) = some rest := by
  simp only [twoKeywords?, Option.bind_eq_some_iff, keyword?_eq_some_iff]
  constructor
  · rintro (_ | ⟨hgap, hword, hc, hnext⟩)
    rw [dropBlank_append hgap (dropBlank_word hfirst hword _)]
    refine ⟨_, ⟨_, rfl, hword⟩, _, ?_, (begins_singleton_iff hsecond).1 hnext⟩
    rw [blanks?, if_pos hc, dropBlank, dropBlank, List.dropWhile_cons_of_pos hc]
  · rintro ⟨r, ⟨word, hcs, hword⟩, s, hblanks, hs⟩
    obtain ⟨gap, hline, hgap⟩ := exists_eq_append_dropBlank line
    cases r with
    | nil => cases hblanks
    | cons c r =>
      rw [blanks?, Option.ite_none_right_eq_some, Option.some.injEq] at hblanks
      obtain ⟨hc, rfl⟩ := hblanks
      rw [hline, hcs]
      refine .next hgap hword hc ((begins_singleton_iff hsecond).2 ?_)
      rwa [dropBlank, List.dropWhile_cons_of_pos hc]

/-- The first letter of a line that begins with a keyword. -/
theorem exists_of_begins (hkey : IsKey key) (h : Begins rest (key :: keys) line) :
    ∃ w cs, dropBlank line = w :: cs ∧ key.head? = some (fold w) := by
  have hfront {gap word cs : List Char} (hgap : isBlankText gap) (hword : folded word = key) :
      ∃ w ds, dropBlank (gap ++ (word ++ cs)) = w :: ds ∧ key.head? = some (fold w) := by
    rw [dropBlank_append hgap (dropBlank_word hkey hword _)]
    cases word with
    | nil =>
      obtain ⟨k, ks, rfl, -⟩ := hkey
      cases hword
    | cons w word => exact ⟨w, _, rfl, by rw [← hword]; rfl⟩
  cases h with
  | last hgap hword hend => exact hfront hgap hword
  | next hgap hword hc hnext => exact hfront hgap hword

end Keywords

theorem isKey_match : IsKey "match".toList := ⟨'m', "atch".toList, rfl, by decide⟩

theorem isKey_where : IsKey "where".toList := ⟨'w', "here".toList, rfl, by decide⟩

theorem isKey_optional : IsKey "optional".toList := ⟨'o', "ptional".toList, rfl, by decide⟩

theorem isKey_order : IsKey "order".toList := ⟨'o', "rder".toList, rfl, by decide⟩

theorem isKey_by : IsKey "by".toList := ⟨'b', "y".toList, rfl, by decide⟩

theorem isKey_of_mem_clauseKeywords {key : List Char} (h : key ∈ clauseKeywords) : IsKey key := by
  simp only [clauseKeywords, List.mem_cons, List.not_mem_nil, or_false] at h
  rcases h with rfl | rfl | rfl | rfl | rfl | rfl | rfl | rfl | rfl <;>
    exact ⟨_, _, rfl, by decide⟩

/-! ### The cut -/

section Cut

variable {line : Line} {keyword front : List Char}

theorem isPattern_iff : IsPattern line ↔ (afterMatch? line).isSome := by
  simp only [IsPattern, begins_singleton_iff isKey_match,
    begins_pair_iff isKey_optional isKey_match]
  rw [exists_or, or_comm, ← Option.isSome_iff_exists, ← Option.isSome_iff_exists, afterMatch?,
    Option.orElse_eq_orElse, Option.orElse_eq_or, Option.isSome_or, Bool.or_eq_true]
  rfl

theorem opensFilter_iff :
    OpensFilter line keyword front ↔ filter? line = some (keyword, front) := by
  simp only [filter?, Option.map_eq_some_iff, Prod.mk.injEq, OpensFilter,
    begins_singleton_iff isKey_where]
  constructor
  · rintro ⟨gap, hline, hgap, hfront, hbegins⟩
    refine ⟨_, hbegins, ?_, dropBlank_append hgap hfront⟩
    simp [hline]
  · rintro ⟨rest, hrest, rfl, rfl⟩
    obtain ⟨gap, hgap, hblank⟩ := exists_eq_append_dropBlank rest
    refine ⟨gap, ?_, hblank, dropBlank_dropBlank rest, hgap ▸ hrest⟩
    obtain ⟨⟨word, hword, -⟩, -⟩ := wholeKeyword?_eq_some_iff.1 hrest
    have hsuffix : rest <:+ line :=
      (hword ▸ List.suffix_append word rest).trans (List.dropWhile_suffix _)
    rw [← hgap]
    exact (List.suffix_iff_eq_append.1 hsuffix).symm

theorem opensClause_iff : OpensClause line ↔ opensClause line = true := by
  have hpair {first second : List Char} (hfirst : IsKey first) (hsecond : IsKey second) :
      (∃ rest, Begins rest [first, second] line) ↔
        (twoKeywords? first second (dropBlank line)).isSome := by
    simp only [begins_pair_iff hfirst hsecond, Option.isSome_iff_exists]
  have hsingle {key : List Char} (hkey : key ∈ clauseKeywords) :
      (∃ rest, Begins rest [key] line) ↔ (wholeKeyword? key (dropBlank line)).isSome := by
    simp only [begins_singleton_iff (isKey_of_mem_clauseKeywords hkey), Option.isSome_iff_exists]
  simp only [OpensClause, openings, List.mem_cons, List.mem_map, exists_eq_or_imp, opensClause,
    Bool.or_eq_true, List.any_eq_true, or_assoc]
  refine or_congr (hpair isKey_optional isKey_match) (or_congr (hpair isKey_order isKey_by) ?_)
  constructor
  · rintro ⟨_, ⟨key, hkey, rfl⟩, h⟩
    exact ⟨key, hkey, (hsingle hkey).1 h⟩
  · rintro ⟨key, hkey, h⟩
    exact ⟨_, ⟨key, hkey, rfl⟩, (hsingle hkey).2 h⟩

/-- No line opens with two different keywords. -/
theorem not_isPattern_of_opensFilter (h : OpensFilter line keyword front) : ¬ IsPattern line := by
  obtain ⟨gap, -, -, -, hwhere⟩ := h
  obtain ⟨w, cs, hw, hwhere⟩ := exists_of_begins isKey_where hwhere
  rintro ⟨rest, hmatch | hmatch⟩
  · obtain ⟨w', cs', hw', hmatch⟩ := exists_of_begins isKey_match hmatch
    obtain rfl : w = w' := (List.cons.inj (hw.symm.trans hw')).1
    exact absurd (hwhere.trans hmatch.symm) (by decide)
  · obtain ⟨w', cs', hw', hmatch⟩ := exists_of_begins isKey_optional hmatch
    obtain rfl : w = w' := (List.cons.inj (hw.symm.trans hw')).1
    exact absurd (hwhere.trans hmatch.symm) (by decide)

end Cut

/-- The lines up to the first one that opens a clause. -/
theorem span_of_opensClause {more rest : List Line} (hmore : ∀ l ∈ more, ¬ OpensClause l)
    (hrest : ∀ l ∈ rest.head?, OpensClause l) :
    (more ++ rest).takeWhile (!opensClause ·) = more ∧
      (more ++ rest).dropWhile (!opensClause ·) = rest := by
  have hall : ∀ l ∈ more, (!opensClause l) = true := by
    intro l hl
    rw [Bool.not_eq_true', ← Bool.not_eq_true, ← opensClause_iff]
    exact hmore l hl
  rw [List.takeWhile_append_of_pos hall, List.dropWhile_append_of_pos hall]
  cases rest with
  | nil => simp
  | cons l rest =>
    have hl : opensClause l = true := opensClause_iff.1 (hrest l rfl)
    rw [List.takeWhile_cons_of_neg (by simp [hl]), List.dropWhile_cons_of_neg (by simp [hl])]
    exact ⟨List.append_nil more, rfl⟩

theorem not_opensClause_of_mem_takeWhile (ls : List Line) :
    ∀ l ∈ ls.takeWhile (!opensClause ·), ¬ OpensClause l := by
  intro l hl
  have := List.mem_takeWhile_imp hl
  rwa [Bool.not_eq_true', ← Bool.not_eq_true, ← opensClause_iff] at this

theorem opensClause_of_mem_head?_dropWhile (ls : List Line) :
    ∀ l ∈ (ls.dropWhile (!opensClause ·)).head?, OpensClause l := by
  intro l hl
  have := List.head?_dropWhile_not (!opensClause ·) ls
  rw [Option.mem_def.1 hl] at this
  rw [opensClause_iff]
  simpa using this

theorem cut_ofLines (ls : List Line) : Cut ls (Clause.ofLines ls) := by
  induction ls using Clause.ofLines.induct with
  | case1 => simpa [Clause.ofLines] using Cut.nil
  | case2 line rest hline ih =>
    rw [Clause.ofLines_pattern hline]
    exact .pattern (isPattern_iff.2 hline) ih
  | case3 line rest hline keyword front hfilter ih =>
    rw [Clause.ofLines_filter hline hfilter]
    have hcut := Cut.filter (opensFilter_iff.2 hfilter) (not_opensClause_of_mem_takeWhile rest)
      (opensClause_of_mem_head?_dropWhile rest) ih
    rwa [List.takeWhile_append_dropWhile] at hcut
  | case4 line rest hline hfilter ih =>
    rw [Clause.ofLines_other hline hfilter]
    refine .other (mt isPattern_iff.1 hline) (fun keyword front hopens => ?_) ih
    exact Option.some_ne_none _ ((opensFilter_iff.1 hopens).symm.trans hfilter)

/-- Lines are cut into clauses in one way, and that is how a query is read. -/
theorem cut_iff {ls : List Line} {cs : List Clause} : Cut ls cs ↔ cs = Clause.ofLines ls := by
  constructor
  · intro h
    induction h with
    | nil => simp [Clause.ofLines]
    | pattern hline _ ih => rw [Clause.ofLines_pattern (isPattern_iff.1 hline), ih]
    | filter hopens hmore hrest _ ih =>
      obtain ⟨htake, hdrop⟩ := span_of_opensClause hmore hrest
      rw [Clause.ofLines_filter (mt isPattern_iff.2 (not_isPattern_of_opensFilter hopens))
        (opensFilter_iff.1 hopens), htake, hdrop, ih]
    | other hline hopens _ ih =>
      rw [Clause.ofLines_other (mt isPattern_iff.2 hline) ?_, ih]
      refine Option.eq_none_iff_forall_ne_some.2 ?_
      rintro ⟨keyword, front⟩ hfilter
      exact hopens keyword front (opensFilter_iff.2 hfilter)
  · rintro rfl
    exact cut_ofLines ls

end CodeGraph.Query
