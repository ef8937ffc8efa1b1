import CodeGraph.Proofs.Text.Word
import CodeGraph.Query.Clause

/-!
# Variables are words

The variable of a pattern or a filter is an identifier that is read where a word may begin: behind
white space, behind a parenthesis or at the front of a predicate. So it is a whole word of the text
that it is read from.

* `IsBack`: the back of a text from a place where a word may begin;
* `exists_word_of_patternVariable?`, `exists_word_of_filterVariable?`: variables are whole words;
* `not_mem_of_patternVariable?`, `not_mem_of_filterVariable?`: what stands in no word stands in no
  variable.
-/

namespace CodeGraph.Query

open Text

/-! ### Where an identifier is read -/

/-- The back of a text from a place where a word may begin. -/
def IsBack (cs text : List Char) : Prop :=
  ∃ front, text = front ++ cs ∧ beginsWord front = true

section Back

variable {cs rest text v : List Char} {c : Char}

theorem isBack_refl (cs : List Char) : IsBack cs cs :=
  ⟨[], rfl, rfl⟩

theorem IsBack.isSuffix (h : IsBack cs text) : cs <:+ text := by
  obtain ⟨front, rfl, -⟩ := h
  exact List.suffix_append front cs

theorem IsBack.dropBlank (h : IsBack cs text) : IsBack (dropBlank cs) text := by
  obtain ⟨front, rfl, hfront⟩ := h
  obtain ⟨gap, hgap, hblank⟩ := exists_eq_append_dropBlank cs
  refine ⟨front ++ gap, by rw [List.append_assoc, ← hgap], ?_⟩
  rcases eq_or_ne gap [] with rfl | hne
  · rwa [List.append_nil]
  · rw [beginsWord_append front hne]
    exact beginsWord_of_isBlankText hblank

theorem isBack_of_cons (h : c :: cs <:+ text) (hc : isWord c = false) : IsBack cs text := by
  obtain ⟨front, rfl⟩ := h
  refine ⟨front ++ [c], by simp, ?_⟩
  rw [beginsWord_append front (List.cons_ne_nil c [])]
  simp [beginsWord, endsWord, hc]

theorem isBack_of_blanks? (h : cs <:+ text) (hblanks : blanks? cs = some rest) :
    IsBack rest text := by
  obtain ⟨front, rfl⟩ := h
  obtain ⟨gap, rfl, hne, hblank, -⟩ := blanks?_eq_some_iff.1 hblanks
  refine ⟨front ++ gap, by simp, ?_⟩
  rw [beginsWord_append front hne]
  exact beginsWord_of_isBlankText hblank

/-- An identifier that is read where a word may begin is a word. -/
theorem IsBack.exists_word (h : IsBack cs text) (hid : identifier? cs = some (v, rest)) :
    ∃ w ∈ words text, w.run = v := by
  obtain ⟨front, rfl, hfront⟩ := h
  cases cs with
  | nil => cases hid
  | cons c cs =>
    rw [identifier?] at hid
    split at hid
    · rename_i hc
      cases hid
      refine ⟨⟨c :: cs.takeWhile isWord, cs.dropWhile isWord⟩, mem_words_iff.2 ⟨front, ?_, ?_⟩, rfl⟩
      · rw [Word.onward, List.cons_append, List.takeWhile_append_dropWhile]
      · refine ⟨List.cons_ne_nil _ _, ?_, hfront, endsWord_dropWhile cs⟩
        exact List.forall_mem_cons.2
          ⟨isWord_of_startsIdentifier hc, fun d hd => List.mem_takeWhile_imp hd⟩
    · cases hid

theorem exists_identifier_of_owner? (h : owner? cs = some v) :
    ∃ r, identifier? cs = some (v, r) := by
  obtain ⟨⟨name, r⟩, hid, h⟩ := Option.bind_eq_some_iff.1 h
  cases hd : dropBlank r with
  | nil => simp [hd] at h
  | cons d ds =>
    simp only [hd, Option.ite_none_right_eq_some, Option.some.injEq] at h
    obtain ⟨-, rfl⟩ := h
    exact ⟨r, hid⟩

theorem IsBack.exists_word_of_openedOwner? (h : IsBack cs text) (hv : openedOwner? cs = some v) :
    ∃ w ∈ words text, w.run = v := by
  unfold openedOwner? at hv
  split at hv
  · rename_i r hr
    obtain ⟨rest, hid⟩ := exists_identifier_of_owner? hv
    refine (isBack_of_cons (c := '(') ?_ (by decide)).dropBlank.exists_word hid
    exact (hr ▸ h.dropBlank).isSuffix
  · obtain ⟨rest, hid⟩ := exists_identifier_of_owner? hv
    exact h.dropBlank.exists_word hid

theorem isBack_of_afterCall? (h : cs <:+ text) (hcall : afterCall? cs = some rest) :
    IsBack rest text := by
  unfold afterCall? at hcall
  split at hcall
  · cases hcall
  · split at hcall
    · rename_i r hr
      cases hcall
      refine isBack_of_cons (c := '(') ?_ (by decide)
      rw [← hr]
      exact ((List.dropWhile_suffix _).trans (List.dropWhile_suffix _)).trans h
    · cases hcall

theorem IsBack.exists_word_of_calledOwner? (h : IsBack cs text) (hv : calledOwner? cs = some v) :
    ∃ w ∈ words text, w.run = v := by
  rcases Option.or_eq_some_iff.1 ((Option.orElse_eq_or ..).symm.trans hv) with hv | ⟨-, hv⟩
  · obtain ⟨r, hr, hv⟩ := Option.bind_eq_some_iff.1 hv
    exact (isBack_of_afterCall? h.isSuffix hr).exists_word_of_openedOwner? hv
  · exact h.exists_word_of_openedOwner? hv

end Back

/-! ### Variables -/

/-- The variable of a filter is a word of its predicate. -/
theorem exists_word_of_filterVariable? {predicate v : List Char}
    (h : filterVariable? predicate = some v) : ∃ w ∈ words predicate, w.run = v := by
  rcases Option.or_eq_some_iff.1 ((Option.orElse_eq_or ..).symm.trans h) with h | ⟨-, h⟩
  · obtain ⟨r, hr, hv⟩ := Option.bind_eq_some_iff.1 h
    obtain ⟨cs, hkey, hblanks⟩ := Option.bind_eq_some_iff.1 hr
    obtain ⟨word, rfl, -⟩ := keyword?_eq_some_iff.1 hkey
    exact (isBack_of_blanks? (List.suffix_append word cs) hblanks).exists_word_of_calledOwner? hv
  · exact (isBack_refl predicate).exists_word_of_calledOwner? h

theorem isSuffix_of_afterMatch? {line : Line} {rest : List Char}
    (h : afterMatch? line = some rest) : rest <:+ line := by
  have hmatch {cs : List Char} (hcs : wholeKeyword? "match".toList cs = some rest) :
      rest <:+ cs := by
    obtain ⟨⟨word, rfl, -⟩, -⟩ := wholeKeyword?_eq_some_iff.1 hcs
    exact List.suffix_append word rest
  have hline : dropBlank line <:+ line := List.dropWhile_suffix _
  rcases Option.or_eq_some_iff.1 ((Option.orElse_eq_or ..).symm.trans h) with h | ⟨-, h⟩
  · obtain ⟨r, hr, h⟩ := Option.bind_eq_some_iff.1 h
    obtain ⟨cs, hblanks, hcs⟩ := Option.bind_eq_some_iff.1 h
    obtain ⟨word, hword, -⟩ := keyword?_eq_some_iff.1 hr
    obtain ⟨gap, rfl, -⟩ := blanks?_eq_some_iff.1 hblanks
    have hgap : gap ++ cs <:+ dropBlank line := ⟨word, hword.symm⟩
    exact ((hmatch hcs).trans (List.suffix_append gap cs)).trans (hgap.trans hline)
  · exact (hmatch h).trans hline

/-- The variable of a pattern is a word of its line. -/
theorem exists_word_of_patternVariable? {line : Line} {v : List Char}
    (h : patternVariable? line = some v) : ∃ w ∈ words line, w.run = v := by
  obtain ⟨rest, hrest, h⟩ := Option.bind_eq_some_iff.1 h
  split at h
  · cases h
  · rename_i c cs hopen
    obtain ⟨⟨_, r⟩, hid, rfl⟩ := Option.map_eq_some_iff.1 h
    have hc : c = '(' := by
      have := List.head?_dropWhile_not (· != '(') rest
      rw [hopen] at this
      simpa using this
    have hsuffix : c :: cs <:+ line := by
      rw [← hopen]
      exact (List.dropWhile_suffix _).trans (isSuffix_of_afterMatch? hrest)
    exact (isBack_of_cons hsuffix (by rw [hc]; decide)).dropBlank.exists_word hid

section NotMem

variable {c : Char} {v : List Char}

theorem not_mem_of_exists_word {text : List Char} (hc : isWord c = false)
    (h : ∃ w ∈ words text, w.run = v) : c ∉ v := by
  obtain ⟨w, hw, rfl⟩ := h
  obtain ⟨front, -, hstands⟩ := mem_words_iff.1 hw
  intro hmem
  have := hstands.isWord c hmem
  rw [hc] at this
  cases this

theorem not_mem_of_patternVariable? {line : Line} (hc : isWord c = false)
    (h : patternVariable? line = some v) : c ∉ v :=
  not_mem_of_exists_word hc (exists_word_of_patternVariable? h)

theorem not_mem_of_filterVariable? {predicate : List Char} (hc : isWord c = false)
    (h : filterVariable? predicate = some v) : c ∉ v :=
  not_mem_of_exists_word hc (exists_word_of_filterVariable? h)

end NotMem

end CodeGraph.Query
