import Mathlib.Data.List.Basic

/-!
# Matching parentheses

Which parenthesis closes which is found by counting: going on from an opening one, the first place
at which no further one is open closes it.

* `afterClosing?`: what follows the parenthesis that closes an open one;
* `outermost`: what stands in no parentheses;
* `Balanced`: no front of the text closes more than it opens, and the whole closes all;
* `afterClosing?_append_iff`, `outermost_append_iff`: a text put in parentheses is what stands
  between the one and the other that match if and only if it is balanced.
-/

namespace CodeGraph.Text

/-- How many parentheses are open behind a character, when `n` are open before it. -/
def openAfter (n : ℕ) (c : Char) : ℕ :=
  if c = '(' then n + 1 else if c = ')' then n - 1 else n

/-- What follows the parenthesis that closes the first of the `n + 1` that are open. -/
def afterClosing? : ℕ → List Char → Option (List Char)
  | _, [] => none
  | n, c :: cs => if c = ')' ∧ n = 0 then some cs else afterClosing? (openAfter n c) cs

/-- The characters that stand in no parentheses, when `n` are open before the text. The outermost
parentheses are among them. -/
def outermost : ℕ → List Char → List Char
  | _, [] => []
  | n, c :: cs =>
    if n = 0 ∨ openAfter n c = 0 then c :: outermost (openAfter n c) cs
    else outermost (openAfter n c) cs

/-- No front of the text has more closing parentheses than opening ones, and the whole has as many
of one kind as of the other. -/
structure Balanced (cs : List Char) : Prop where
  front : ∀ p, p <+: cs → p.count ')' ≤ p.count '('
  whole : cs.count ')' = cs.count '('

/-- The text behind `n` opening parentheses closes them all and never more than are open. -/
structure Closes (n : ℕ) (cs : List Char) : Prop where
  front : ∀ p, p <+: cs → p.count ')' ≤ p.count '(' + n
  whole : cs.count ')' = cs.count '(' + n

theorem balanced_iff_closes {cs : List Char} : Balanced cs ↔ Closes 0 cs :=
  ⟨fun h => ⟨h.front, h.whole⟩, fun h => ⟨h.front, h.whole⟩⟩

/-! ### Character by character -/

section Closes

variable {n : ℕ} {c : Char} {cs : List Char}

theorem closes_nil_iff : Closes n [] ↔ n = 0 := by
  constructor
  · intro h
    simpa using h.whole.symm
  · rintro rfl
    exact ⟨fun p hp => by simp [List.prefix_nil.1 hp], rfl⟩

theorem not_closes_zero_close : ¬ Closes 0 (')' :: cs) := by
  intro h
  have := h.front [')'] (by simp)
  simp at this

theorem count_open_add_openAfter (h : ¬ (c = ')' ∧ n = 0)) :
    [c].count '(' + n = [c].count ')' + openAfter n c := by
  unfold openAfter
  split_ifs with ho hc
  · subst ho
    simp
    omega
  · subst hc
    have : n ≠ 0 := fun hn => h ⟨rfl, hn⟩
    simp
    omega
  · simp [ho, hc]

/-- A character that closes no more than is open leaves the rest of the text to close what is then
open. -/
theorem closes_cons_iff (h : ¬ (c = ')' ∧ n = 0)) :
    Closes n (c :: cs) ↔ Closes (openAfter n c) cs := by
  have hopen := count_open_add_openAfter h
  have hcount : ∀ (d : Char) (p : List Char), (c :: p).count d = [c].count d + p.count d := by
    intro d p
    rw [← List.count_append, List.singleton_append]
  have hone : [c].count ')' ≤ [c].count '(' + n := by omega
  constructor
  · intro hc
    refine ⟨fun p hp => ?_, ?_⟩
    · have := hc.front (c :: p) ((List.prefix_cons_inj c).2 hp)
      rw [hcount ')' p, hcount '(' p] at this
      omega
    · have := hc.whole
      rw [hcount ')' cs, hcount '(' cs] at this
      omega
  · intro hc
    refine ⟨fun p hp => ?_, ?_⟩
    · rcases List.prefix_cons_iff.1 hp with rfl | ⟨q, rfl, hq⟩
      · simp
      · have := hc.front q hq
        rw [hcount ')' q, hcount '(' q]
        omega
    · have := hc.whole
      rw [hcount ')' cs, hcount '(' cs]
      omega

end Closes

/-! ### The matching parenthesis -/

theorem length_lt_of_afterClosing? {n : ℕ} {cs rest : List Char}
    (h : afterClosing? n cs = some rest) : rest.length < cs.length := by
  induction cs generalizing n with
  | nil => cases h
  | cons c cs ih =>
    rw [afterClosing?] at h
    split at h
    · cases h
      exact Nat.lt_succ_self _
    · exact Nat.lt_succ_of_lt (ih h)

/-- The parenthesis behind a text closes the first of the `n + 1` before it if and only if the text
closes the other `n`. -/
theorem afterClosing?_append_iff_closes (n : ℕ) (cs rest : List Char) :
    afterClosing? n (cs ++ ')' :: rest) = some rest ↔ Closes n cs := by
  induction cs generalizing n with
  | nil =>
    rw [closes_nil_iff, List.nil_append, afterClosing?]
    split
    · rename_i h
      exact iff_of_true rfl h.2
    · rename_i h
      refine ⟨fun hrest => ?_, fun hn => absurd ⟨rfl, hn⟩ h⟩
      exact absurd (length_lt_of_afterClosing? hrest) (Nat.lt_irrefl _)
  | cons c cs ih =>
    rw [List.cons_append, afterClosing?]
    split
    · rename_i h
      obtain ⟨rfl, rfl⟩ := h
      refine ⟨fun hrest => ?_, fun hc => absurd hc not_closes_zero_close⟩
      have hlen := congrArg List.length (Option.some.inj hrest)
      rw [List.length_append, List.length_cons] at hlen
      omega
    · rename_i h
      rw [ih, closes_cons_iff h]

/-- **The parenthesis put behind a text matches the one put before it if and only if the text is
balanced.** -/
theorem afterClosing?_append_iff (cs rest : List Char) :
    afterClosing? 0 (cs ++ ')' :: rest) = some rest ↔ Balanced cs := by
  rw [afterClosing?_append_iff_closes, balanced_iff_closes]

instance (cs : List Char) : Decidable (Balanced cs) :=
  decidable_of_iff _ (afterClosing?_append_iff cs [])

example : Balanced "(a)b()".toList ∧ ¬ Balanced "a) (b".toList := by decide +kernel

/-! ### What stands outside -/

section Outermost

variable {rest : List Char} (ho : '(' ∉ rest) (hc : ')' ∉ rest)

include ho hc

/-- A text without parentheses shows as a whole or not at all. -/
theorem outermost_of_not_mem (n : ℕ) : outermost n rest = if n = 0 then rest else [] := by
  induction rest with
  | nil => simp [outermost]
  | cons c rest ih =>
    rw [List.mem_cons, not_or] at ho hc
    have hopen : openAfter n c = n := by
      rw [openAfter, if_neg (Ne.symm ho.1), if_neg (Ne.symm hc.1)]
    rw [outermost, hopen, ih ho.2 hc.2]
    by_cases hn : n = 0
    · simp [hn]
    · simp [hn]

omit ho hc in
/-- The first parenthesis of a text is an outermost one. -/
theorem mem_outermost_zero {cs : List Char} (h : ')' ∈ cs) :
    '(' ∈ outermost 0 cs ∨ ')' ∈ outermost 0 cs := by
  induction cs with
  | nil => cases h
  | cons c cs ih =>
    rw [outermost, if_pos (Or.inl rfl), List.mem_cons, List.mem_cons]
    rcases List.mem_cons.1 h with hc | h
    · exact Or.inr (Or.inl hc)
    · by_cases ho : c = '('
      · exact Or.inl (Or.inl ho.symm)
      · have hopen : openAfter 0 c = 0 := by simp [openAfter, ho]
        rw [hopen]
        exact (ih h).imp Or.inr Or.inr

theorem outermost_append_iff_closes (n : ℕ) (cs : List Char) :
    outermost (n + 1) (cs ++ ')' :: rest) = ')' :: rest ↔ Closes n cs := by
  induction cs generalizing n with
  | nil =>
    have hopen : openAfter (n + 1) ')' = n := rfl
    rw [closes_nil_iff, List.nil_append, outermost, hopen, outermost_of_not_mem ho hc]
    by_cases hn : n = 0
    · simp [hn]
    · simp [hn]
  | cons c cs ih =>
    rw [List.cons_append, outermost]
    by_cases h : c = ')' ∧ n = 0
    · obtain ⟨rfl, rfl⟩ := h
      refine ⟨fun h => ?_, fun h => absurd h not_closes_zero_close⟩
      -- the closing parenthesis behind the text would be left over
      have hrest : outermost 0 (cs ++ ')' :: rest) = rest := (List.cons.inj h).2
      have hclose : ')' ∈ cs ++ ')' :: rest := by simp
      rcases mem_outermost_zero hclose with hmem | hmem
      · exact absurd (hrest ▸ hmem) ho
      · exact absurd (hrest ▸ hmem) hc
    · have hopen : openAfter (n + 1) c = openAfter n c + 1 := by
        unfold openAfter
        split_ifs with h1 h2
        · rfl
        · have : n ≠ 0 := fun hn => h ⟨h2, hn⟩
          omega
        · rfl
      rw [hopen, if_neg (by simp), ih, closes_cons_iff h]

/-- **A text put in parentheses is hidden by them, and nothing behind it is, if and only if the text
is balanced.** -/
theorem outermost_append_iff (cs : List Char) :
    outermost 0 ('(' :: cs ++ ')' :: rest) = '(' :: ')' :: rest ↔ Balanced cs := by
  rw [List.cons_append, outermost, if_pos (Or.inl rfl), List.cons.injEq, balanced_iff_closes,
    ← outermost_append_iff_closes ho hc]
  exact and_iff_right rfl

end Outermost

end CodeGraph.Text
