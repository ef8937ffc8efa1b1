import CodeGraph.Text.Run
import CodeGraph.Text.Line
import Mathlib.Data.List.DropRight

/-!
# Words, keywords and white space in a text

* `keyword?_eq_some_iff`, `wholeKeyword?_eq_some_iff`: a keyword at the front, in any case;
* `blanks?_eq_some_iff`: white space at the front;
* `dropBlank_append`: a text behind white space;
* `beginsWord`: whether a word may begin behind a text, as `endsWord` tells whether one may end
  before it;
* `mem_words_iff`: the words of a text, by what stands around them;
* `Word.StandsIn`: a word in a text, with `Word.StandsIn.append` and `Word.StandsIn.behind` for longer
  texts.
-/

namespace CodeGraph.Text

variable {key cs rest gap : List Char}

theorem keyword?_eq_some_iff :
    keyword? key cs = some rest ↔ ∃ word, cs = word ++ rest ∧ folded word = key := by
  unfold keyword?
  constructor
  · intro h
    split at h
    · rename_i hkey
      cases h
      exact ⟨cs.take key.length, (List.take_append_drop _ _).symm, hkey⟩
    · cases h
  · rintro ⟨word, rfl, rfl⟩
    simp [folded]

theorem wholeKeyword?_eq_some_iff : wholeKeyword? key cs = some rest ↔
    (∃ word, cs = word ++ rest ∧ folded word = key) ∧ endsWord rest := by
  rw [wholeKeyword?, Option.filter_eq_some_iff, keyword?_eq_some_iff]

/-! ### White space -/

theorem dropBlank_eq_self_iff : dropBlank cs = cs ↔ ∀ c ∈ cs.head?, isBlank c = false := by
  cases cs with
  | nil => simp [dropBlank]
  | cons c cs =>
    rw [dropBlank, List.dropWhile_eq_self_iff]
    simp

theorem dropBlank_append (hgap : isBlankText gap) (hcs : dropBlank cs = cs) :
    dropBlank (gap ++ cs) = cs := by
  rw [dropBlank, List.dropWhile_append, List.dropWhile_eq_nil_iff.2 (List.all_eq_true.1 hgap)]
  exact hcs

/-- A text is what it is without the white space at its front, behind that white space. -/
theorem exists_eq_append_dropBlank (cs : List Char) :
    ∃ gap, cs = gap ++ dropBlank cs ∧ isBlankText gap :=
  ⟨cs.takeWhile isBlank, List.takeWhile_append_dropWhile.symm, List.all_takeWhile⟩

theorem dropBlank_dropBlank (cs : List Char) : dropBlank (dropBlank cs) = dropBlank cs :=
  List.dropWhile_idempotent ..

theorem blanks?_eq_some_iff : blanks? cs = some rest ↔
    ∃ gap, cs = gap ++ rest ∧ gap ≠ [] ∧ isBlankText gap ∧ dropBlank rest = rest := by
  cases cs with
  | nil => simp [blanks?]
  | cons c cs =>
    rw [blanks?, Option.ite_none_right_eq_some, Option.some.injEq]
    constructor
    · rintro ⟨hc, rfl⟩
      obtain ⟨gap, hgap, hblank⟩ := exists_eq_append_dropBlank cs
      refine ⟨c :: gap, by rw [List.cons_append, ← hgap], by simp, ?_, dropBlank_dropBlank cs⟩
      rw [isBlankText, List.all_cons, hc]
      exact hblank
    · rintro ⟨_ | ⟨d, gap⟩, hcs, hne, hblank, hrest⟩
      · exact absurd rfl hne
      · obtain ⟨rfl, rfl⟩ := List.cons.inj hcs
        obtain ⟨hc, hgap⟩ := Bool.and_eq_true_iff.1 hblank
        exact ⟨hc, dropBlank_append hgap hrest⟩

/-! ### Words -/

/-- Whether no word character ends the text, so that a word may begin just behind it. -/
def beginsWord (cs : List Char) : Bool :=
  endsWord cs.reverse

theorem endsWord_iff : endsWord cs = true ↔ ∀ c ∈ cs.head?, isWord c = false := by
  cases cs with
  | nil => simp [endsWord]
  | cons c cs => simp [endsWord]

theorem beginsWord_iff : beginsWord cs = true ↔ ∀ c ∈ cs.getLast?, isWord c = false := by
  rw [beginsWord, endsWord_iff, List.head?_reverse]

theorem endsWord_of_isBlankText (h : isBlankText cs = true) : endsWord cs = true := by
  rw [endsWord_iff]
  intro c hc
  exact isWord_of_isBlank (List.all_eq_true.1 h c (List.mem_of_head? hc))

theorem beginsWord_of_isBlankText (h : isBlankText cs = true) : beginsWord cs = true := by
  rw [beginsWord_iff]
  intro c hc
  exact isWord_of_isBlank (List.all_eq_true.1 h c (List.mem_of_getLast? hc))

theorem endsWord_append {front : List Char} (h : front ≠ []) (cs : List Char) :
    endsWord (front ++ cs) = endsWord front := by
  cases front with
  | nil => exact absurd rfl h
  | cons c front => rfl

theorem beginsWord_append (front : List Char) (h : cs ≠ []) :
    beginsWord (front ++ cs) = beginsWord cs := by
  rw [beginsWord, List.reverse_append, endsWord_append (by simpa using h), beginsWord]

theorem endsWord_of_append (h : endsWord (cs ++ rest) = true) : endsWord cs = true := by
  by_cases hcs : cs = []
  · rw [hcs]
    rfl
  · rwa [endsWord_append hcs] at h

theorem beginsWord_of_append (front : List Char) (h : beginsWord (front ++ cs) = true) :
    beginsWord cs = true := by
  by_cases hcs : cs = []
  · rw [hcs]
    rfl
  · rwa [beginsWord_append front hcs] at h

theorem endsWord_folded (cs : List Char) : endsWord (folded cs) = endsWord cs := by
  cases cs with
  | nil => rfl
  | cons c cs => simp [folded, endsWord, isWord_fold]

theorem beginsWord_folded (cs : List Char) : beginsWord (folded cs) = beginsWord cs := by
  rw [beginsWord, beginsWord, ← endsWord_folded cs.reverse, folded, folded, List.map_reverse]

theorem endsWord_dropWhile (cs : List Char) : endsWord (cs.dropWhile isWord) = true := by
  rw [endsWord_iff]
  intro c hc
  have := List.head?_dropWhile_not isWord cs
  rw [Option.mem_def.1 hc] at this
  simpa using this

/-- A run of word characters is not cut short by one that begins where a word may. -/
theorem span_isWord {run : List Char} (hrun : ∀ c ∈ run, isWord c = true)
    (hrest : endsWord rest = true) :
    (run ++ rest).takeWhile isWord = run ∧ (run ++ rest).dropWhile isWord = rest := by
  rw [List.takeWhile_append_of_pos hrun, List.dropWhile_append_of_pos hrun]
  cases rest with
  | nil => simp
  | cons c rest =>
    have hc : ¬ isWord c = true := by simpa [endsWord] using hrest
    rw [List.takeWhile_cons_of_neg hc, List.dropWhile_cons_of_neg hc, List.append_nil]
    exact ⟨rfl, rfl⟩

/-- A word stands in a text between two places where no word goes on. -/
structure Word.StandsBehind (w : Word) (front : List Char) : Prop where
  ne_nil : w.run ≠ []
  isWord : ∀ c ∈ w.run, isWord c = true
  begins : beginsWord front = true
  ends : endsWord w.rest = true

theorem dropWhile_ne_nil_of_beginsWord {front : List Char} (hne : front ≠ [])
    (h : beginsWord front = true) : front.dropWhile isWord ≠ [] := by
  intro hnil
  obtain ⟨init, c, rfl⟩ := (List.eq_nil_or_concat' front).resolve_left hne
  have hword := List.dropWhile_eq_nil_iff.1 hnil c (by simp)
  have hnot := beginsWord_iff.1 h c (by simp)
  rw [hnot] at hword
  cases hword

/-- The words of a text are the runs of word characters between two places where no word goes on,
each with the text behind it. -/
theorem mem_words_iff {w : Word} :
    w ∈ words cs ↔ ∃ front, cs = front ++ w.onward ∧ w.StandsBehind front := by
  induction cs using words.induct with
  | case1 =>
    rw [words_nil]
    refine iff_of_false List.not_mem_nil ?_
    rintro ⟨front, hcs, hw⟩
    exact hw.ne_nil (List.append_eq_nil_iff.1 (List.append_eq_nil_iff.1 hcs.symm).2).1
  | case2 c cs hc ih =>
    rw [words_cons_of_isWord hc, List.mem_cons, ih]
    have hcs : c :: cs = (c :: cs.takeWhile isWord) ++ cs.dropWhile isWord := by
      rw [List.cons_append, List.takeWhile_append_dropWhile]
    constructor
    · rintro (rfl | ⟨front, hfront, hw⟩)
      · refine ⟨[], hcs, List.cons_ne_nil _ _, ?_, rfl, endsWord_dropWhile cs⟩
        exact List.forall_mem_cons.2 ⟨hc, fun d hd => List.mem_takeWhile_imp hd⟩
      · -- a word right at the front of the rest would belong to the first one
        have hne : front ≠ [] := by
          rintro rfl
          obtain ⟨d, run, hrun⟩ := List.exists_cons_of_ne_nil hw.ne_nil
          have hends := endsWord_dropWhile cs
          rw [hfront, List.nil_append, Word.onward, hrun, List.cons_append, endsWord,
            hw.isWord d (hrun ▸ List.mem_cons_self)] at hends
          cases hends
        refine ⟨(c :: cs.takeWhile isWord) ++ front, ?_, hw.ne_nil, hw.isWord, ?_, hw.ends⟩
        · rw [hcs, hfront, List.append_assoc]
        · rw [beginsWord_append _ hne]
          exact hw.begins
    · rintro ⟨front, hfront, hw⟩
      rcases eq_or_ne front [] with rfl | hne
      · obtain ⟨htake, hdrop⟩ := span_isWord hw.isWord hw.ends
        rw [← Word.onward, ← List.nil_append w.onward, ← hfront,
          List.takeWhile_cons_of_pos hc] at htake
        rw [← Word.onward, ← List.nil_append w.onward, ← hfront,
          List.dropWhile_cons_of_pos hc] at hdrop
        exact .inl (by rw [htake, hdrop])
      · have hdrop := dropWhile_ne_nil_of_beginsWord hne hw.begins
        refine .inr ⟨front.dropWhile isWord, ?_, hw.ne_nil, hw.isWord, ?_, hw.ends⟩
        · rw [← List.dropWhile_cons_of_pos (l := cs) hc, hfront, List.dropWhile_append,
            if_neg (by simpa using hdrop)]
        · refine beginsWord_of_append (front.takeWhile isWord) ?_
          rw [List.takeWhile_append_dropWhile]
          exact hw.begins
  | case3 c cs hc ih =>
    rw [words_cons_of_not_isWord (by simpa using hc), ih]
    constructor
    · rintro ⟨front, rfl, hw⟩
      refine ⟨c :: front, rfl, hw.ne_nil, hw.isWord, ?_, hw.ends⟩
      rcases eq_or_ne front [] with rfl | hne
      · simpa [beginsWord, endsWord] using hc
      · rw [← List.singleton_append, beginsWord_append _ hne]
        exact hw.begins
    · rintro ⟨_ | ⟨d, front⟩, hfront, hw⟩
      · obtain ⟨d, run, hrun⟩ := List.exists_cons_of_ne_nil hw.ne_nil
        rw [List.nil_append, Word.onward, hrun] at hfront
        obtain ⟨rfl, -⟩ := List.cons.inj hfront
        exact absurd (hw.isWord c (hrun ▸ List.mem_cons_self)) hc
      · obtain ⟨rfl, rfl⟩ := List.cons.inj hfront
        exact ⟨front, rfl, hw.ne_nil, hw.isWord, beginsWord_of_append [c] hw.begins,
          hw.ends⟩

/-- Behind a word of a text come the words of what stands behind it. -/
theorem words_rest_of_words_eq {before after : List Word} {w : Word}
    (h : words cs = before ++ w :: after) : words w.rest = after := by
  induction cs using words.induct generalizing before with
  | case1 =>
    rw [words_nil] at h
    simp at h
  | case2 c cs hc ih =>
    rw [words_cons_of_isWord hc] at h
    cases before with
    | nil =>
      obtain ⟨rfl, hafter⟩ := List.cons.inj h
      exact hafter
    | cons w' before => exact ih (List.cons.inj h).2
  | case3 c cs hc ih =>
    rw [words_cons_of_not_isWord (by simpa using hc)] at h
    exact ih h

/-- Whether a word stands in a text. -/
def Word.StandsIn (w : Word) (cs : List Char) : Prop :=
  ∃ front, cs = front ++ w.onward ∧ w.StandsBehind front

theorem Word.standsIn_iff {w : Word} : w.StandsIn cs ↔ w ∈ words cs :=
  mem_words_iff.symm

/-- A word of a text stands in a longer one too, if no word goes on where the text ends. -/
theorem Word.StandsIn.append {w : Word} (h : w.StandsIn cs) (hrest : endsWord rest = true) :
    Word.StandsIn ⟨w.run, w.rest ++ rest⟩ (cs ++ rest) := by
  obtain ⟨front, rfl, hw⟩ := h
  refine ⟨front, by simp [Word.onward], hw.ne_nil, hw.isWord, hw.begins, ?_⟩
  by_cases hnil : w.rest = []
  · simpa [hnil] using hrest
  · show endsWord (w.rest ++ rest) = true
    rw [endsWord_append hnil]
    exact hw.ends

/-- A word of a text stands in a longer one too, if a word may begin where the text begins. -/
theorem Word.StandsIn.behind {w : Word} (h : w.StandsIn cs) {front : List Char}
    (hfront : beginsWord front = true) : w.StandsIn (front ++ cs) := by
  obtain ⟨more, rfl, hw⟩ := h
  refine ⟨front ++ more, by simp, hw.ne_nil, hw.isWord, ?_, hw.ends⟩
  by_cases hnil : more = []
  · rw [hnil, List.append_nil]
    exact hfront
  · rw [beginsWord_append front hnil]
    exact hw.begins

end CodeGraph.Text
