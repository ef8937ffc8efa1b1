import CodeGraph.Text.WordTable

/-!
# Classes of characters

The character classes that queries, names and settings are read with.

* `isBlank`: white space, the twenty-five characters of that Unicode property;
* `isDigit`: decimal digits of any script; `isAsciiDigit`: the ten of ASCII;
* `isWord`: letters, marks, digits, connectors and joiners of any script;
* `fold`: simple case folding, as far as it reaches ASCII letters;
* `startsIdentifier`: an ASCII letter up to folding, or an underscore.

`isWord_of_startsIdentifier`, `isWord_of_isBlank`, `isDigit_of_isBlank` and `isWord_fold` relate the
classes to one another.
-/

namespace CodeGraph.Text

/-- White space in the sense of Unicode. -/
def isBlank (c : Char) : Bool :=
  let n := c.toNat
  (9 ≤ n && n ≤ 13) || n == 0x20 || n == 0x85 || n == 0xA0 || n == 0x1680 ||
    (0x2000 ≤ n && n ≤ 0x200A) || n == 0x2028 || n == 0x2029 || n == 0x202F || n == 0x205F ||
    n == 0x3000

/-- One of the ten ASCII digits. -/
def isAsciiDigit (c : Char) : Bool :=
  0x30 ≤ c.toNat && c.toNat ≤ 0x39

/-- An ASCII letter of either case. -/
def isAsciiLetter (c : Char) : Bool :=
  (0x41 ≤ c.toNat && c.toNat ≤ 0x5A) || (0x61 ≤ c.toNat && c.toNat ≤ 0x7A)

/-- A decimal digit of any script. -/
def isDigit (c : Char) : Bool :=
  if c.toNat < 0x80 then isAsciiDigit c else decimalDigitRanges.contains c.toNat

/-- A word character: what an unbroken run of a word is made of. -/
def isWord (c : Char) : Bool :=
  if c.toNat < 0x80 then isAsciiLetter c || isAsciiDigit c || c == '_'
  else wordRanges.contains c.toNat

/-- Simple case folding, as far as it reaches ASCII letters: besides the capitals, the long s folds
to `s` and the Kelvin sign to `k`. -/
def fold (c : Char) : Char :=
  if 0x41 ≤ c.toNat ∧ c.toNat ≤ 0x5A then Char.ofNat (c.toNat + 0x20)
  else if c = '\u017F' then 's'
  else if c = '\u212A' then 'k'
  else c

/-- An ASCII letter up to folding, or an underscore. -/
def startsIdentifier (c : Char) : Bool :=
  isAsciiLetter (fold c) || c == '_'

theorem isWord_of_isAsciiLetter {c : Char} (h : isAsciiLetter c = true) : isWord c = true := by
  have hsmall : c.toNat < 0x80 := by
    simp only [isAsciiLetter, Bool.or_eq_true, Bool.and_eq_true, decide_eq_true_eq] at h
    omega
  rw [isWord, if_pos hsmall, h, Bool.true_or, Bool.true_or]

/-- Whether a character is one of a word does not depend on its case. -/
theorem isWord_fold (c : Char) : isWord (fold c) = isWord c := by
  unfold fold
  split
  · rename_i hcapital
    have hsmall : (Char.ofNat (c.toNat + 0x20)).toNat = c.toNat + 0x20 := by
      rw [Char.ofNat, dif_pos (.inl (by omega))]
      rfl
    have hletter : isAsciiLetter (Char.ofNat (c.toNat + 0x20)) = true := by
      simp only [isAsciiLetter, hsmall, Bool.or_eq_true, Bool.and_eq_true, decide_eq_true_eq]
      omega
    have hcapital : isAsciiLetter c = true := by
      simp only [isAsciiLetter, Bool.or_eq_true, Bool.and_eq_true, decide_eq_true_eq]
      exact .inl hcapital
    rw [isWord_of_isAsciiLetter hletter, isWord_of_isAsciiLetter hcapital]
  · split
    · rename_i hlong
      rw [hlong]
      decide +kernel
    · split
      · rename_i hkelvin
        rw [hkelvin]
        decide +kernel
      · rfl

theorem isWord_of_startsIdentifier {c : Char} (h : startsIdentifier c = true) :
    isWord c = true := by
  rcases Bool.or_eq_true_iff.1 h with h | h
  · rw [← isWord_fold]
    exact isWord_of_isAsciiLetter h
  · obtain rfl : c = '_' := by simpa using h
    decide

theorem isDigit_of_isAsciiDigit {c : Char} (h : isAsciiDigit c = true) : isDigit c = true := by
  have hsmall : c.toNat < 0x80 := by
    simp only [isAsciiDigit, Bool.and_eq_true, decide_eq_true_eq] at h
    omega
  rw [isDigit, if_pos hsmall, h]

/-- The white space beyond ASCII, in ranges that hold no word characters. -/
def blankRanges : Ranges :=
  [(0x85, 0x85), (0xA0, 0xA0), (0x1680, 0x1680), (0x2000, 0x200A), (0x2028, 0x202F),
    (0x205F, 0x205F), (0x3000, 0x3000)]

/-- White space lies in no range that is apart from its own. -/
theorem Ranges.contains_of_isBlank {rs : Ranges} {c : Char} (h : isBlank c = true)
    (hc : 0x80 ≤ c.toNat)
    (hrs : (rs.all fun r => blankRanges.all fun b => Nat.blt r.2 b.1 || Nat.blt b.2 r.1) = true) :
    rs.contains c.toNat = false := by
  simp only [isBlank, Bool.or_eq_true, Bool.and_eq_true, decide_eq_true_eq, beq_iff_eq] at h
  simp only [List.all_eq_true, Bool.or_eq_true, Nat.blt_eq] at hrs
  rw [Ranges.contains, List.any_eq_false]
  intro r hr
  have hapart := hrs r hr
  simp only [blankRanges, List.mem_cons, List.not_mem_nil, or_false, forall_eq_or_imp, forall_eq]
    at hapart
  simp only [Bool.and_eq_true, decide_eq_true_eq]
  omega

/-- White space stands in no word. -/
theorem isWord_of_isBlank {c : Char} (h : isBlank c = true) : isWord c = false := by
  unfold isWord
  split
  · have hplain : c ≠ '_' := by
      rintro rfl
      exact absurd h (by decide)
    simp only [isBlank, Bool.or_eq_true, Bool.and_eq_true, decide_eq_true_eq, beq_iff_eq] at h
    simp only [isAsciiLetter, isAsciiDigit, Bool.or_eq_false_iff, Bool.and_eq_false_iff,
      decide_eq_false_iff_not, beq_eq_false_iff_ne]
    exact ⟨⟨by omega, by omega⟩, hplain⟩
  · exact Ranges.contains_of_isBlank h (by omega) (by decide +kernel)

/-- White space is no digit. -/
theorem isDigit_of_isBlank {c : Char} (h : isBlank c = true) : isDigit c = false := by
  unfold isDigit
  split
  · simp only [isBlank, Bool.or_eq_true, Bool.and_eq_true, decide_eq_true_eq, beq_iff_eq] at h
    simp only [isAsciiDigit, Bool.and_eq_false_iff, decide_eq_false_iff_not]
    omega
  · exact Ranges.contains_of_isBlank h (by omega) (by decide)

/-- Case folding leaves alone what stands in no word. -/
theorem fold_of_not_isWord {c : Char} (h : isWord c = false) : fold c = c := by
  have hcapital : ¬ (0x41 ≤ c.toNat ∧ c.toNat ≤ 0x5A) := by
    intro hcapital
    have hletter : isAsciiLetter c = true := by simp [isAsciiLetter, hcapital]
    rw [isWord_of_isAsciiLetter hletter] at h
    cases h
  have hlong : c ≠ '\u017F' := by
    rintro rfl
    exact absurd h (by decide +kernel)
  have hkelvin : c ≠ '\u212A' := by
    rintro rfl
    exact absurd h (by decide +kernel)
  rw [fold, if_neg hcapital, if_neg hlong, if_neg hkelvin]

end CodeGraph.Text
