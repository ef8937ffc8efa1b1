import CodeGraph.Text.Number
import Mathlib.Data.List.Induction
import Mathlib.Data.Nat.Init

/-!
# Numerals that are read back

* `decimal_showNat`, `integer?_showInt`, `hexadecimal?_showHex`: a number that is written is read
  back;
* `decimal?_eq_some_iff`, `SpellsInteger`, `integer?_eq_some_iff`: what is read is a number that is
  written, with zeros before it and perhaps a sign;
* `isAsciiDigit_of_mem_showNat`, `isSome_hexDigit?_of_mem_showHex`: numbers are written in digits.
-/

namespace CodeGraph.Text

theorem decimal_showNat (n : ℕ) : decimal (showNat n) = n :=
  Nat.ofDigitChars_ten_toDigits

theorem showNat_ne_nil (n : ℕ) : showNat n ≠ [] :=
  Nat.toDigits_ne_nil

theorem isAsciiDigit_of_mem_showNat {n : ℕ} {c : Char} (h : c ∈ showNat n) :
    isAsciiDigit c = true := by
  have hdigit := Nat.isDigit_of_mem_toDigits (by decide) (by decide) h
  simp only [Char.isDigit, Bool.and_eq_true, decide_eq_true_eq, ge_iff_le,
    UInt32.le_iff_toNat_le] at hdigit
  simp only [isAsciiDigit, Bool.and_eq_true, decide_eq_true_eq]
  exact hdigit

/-- Digits have no case. -/
theorem fold_of_isAsciiDigit {c : Char} (h : isAsciiDigit c = true) : fold c = c := by
  simp only [isAsciiDigit, Bool.and_eq_true, decide_eq_true_eq] at h
  have hlong : c ≠ '\u017F' := by
    rintro rfl
    exact absurd h (by decide)
  have hkelvin : c ≠ '\u212A' := by
    rintro rfl
    exact absurd h (by decide)
  rw [fold, if_neg (by omega), if_neg hlong, if_neg hkelvin]

/-! ### Decimal numbers with zeros before them -/

/-- A digit is what its value is written as. -/
theorem showNat_digitValue {d : Char} (h : isAsciiDigit d = true) :
    digitValue d < 10 ∧ showNat (digitValue d) = [d] := by
  simp only [isAsciiDigit, Bool.and_eq_true, decide_eq_true_eq] at h
  have hlt : digitValue d < 10 := by
    unfold digitValue
    omega
  refine ⟨hlt, ?_⟩
  have hd : d = Char.ofNat (digitValue d + 0x30) := by
    rw [digitValue, Nat.sub_add_cancel h.1, Char.ofNat_toNat]
  have hwritten : ∀ v < 10, showNat v = [Char.ofNat (v + 0x30)] := by decide
  rw [hwritten _ hlt, ← hd]

theorem decimal_append_singleton (ds : List Char) (d : Char) :
    decimal (ds ++ [d]) = 10 * decimal ds + digitValue d := by
  simp [decimal, decimalFrom]

/-- Zeros before a number do not change it. -/
theorem decimal_zeros_append (zeros : ℕ) (ds : List Char) :
    decimal (List.replicate zeros '0' ++ ds) = decimal ds := by
  induction zeros with
  | zero => rfl
  | succ zeros ih => exact ih

/-- A string of digits is the number that it stands for, with zeros before it. -/
theorem exists_zeros_append_showNat {ds : List Char} (hne : ds ≠ [])
    (hdigits : ∀ c ∈ ds, isAsciiDigit c = true) :
    ∃ zeros, ds = List.replicate zeros '0' ++ showNat (decimal ds) := by
  induction ds using List.reverseRecOn with
  | nil => exact absurd rfl hne
  | append_singleton ds d ih =>
    obtain ⟨hlt, hd⟩ := showNat_digitValue (hdigits d (by simp))
    rw [decimal_append_singleton]
    by_cases hds : ds = []
    · refine ⟨0, ?_⟩
      rw [hds, show decimal [] = 0 from rfl, Nat.mul_zero, Nat.zero_add, hd]
      rfl
    · obtain ⟨zeros, hzeros⟩ := ih hds fun c hc => hdigits c (List.mem_append_left _ hc)
      by_cases hzero : decimal ds = 0
      · -- nothing but zeros stands before the last digit
        refine ⟨zeros + 1, ?_⟩
        rw [hzero] at hzeros ⊢
        rw [hzeros, Nat.mul_zero, Nat.zero_add, hd, List.replicate_succ']
        rfl
      · refine ⟨zeros, ?_⟩
        have hshow : showNat (10 * decimal ds + digitValue d) = showNat (decimal ds) ++ [d] := by
          rw [← hd]
          exact (Nat.toDigits_append_toDigits (by omega) (by omega) hlt).symm
        rw [hshow, ← List.append_assoc, ← hzeros]

theorem decimal?_eq_some_iff_digits {ds : List Char} {n : ℕ} : decimal? ds = some n ↔
    (ds ≠ [] ∧ ∀ c ∈ ds, isAsciiDigit c = true) ∧ decimal ds = n := by
  rw [decimal?, Option.ite_none_left_eq_some, Option.some.injEq]
  simp

/-- The numbers that are read are those that are written, with zeros before them. -/
theorem decimal?_eq_some_iff {ds : List Char} {n : ℕ} :
    decimal? ds = some n ↔ ∃ zeros, ds = List.replicate zeros '0' ++ showNat n := by
  rw [decimal?_eq_some_iff_digits]
  constructor
  · rintro ⟨⟨hne, hdigits⟩, rfl⟩
    exact exists_zeros_append_showNat hne hdigits
  · rintro ⟨zeros, rfl⟩
    refine ⟨⟨?_, fun c hc => ?_⟩, ?_⟩
    · simp [showNat_ne_nil]
    · rcases List.mem_append.1 hc with hc | hc
      · rw [List.eq_of_mem_replicate hc]
        decide
      · exact isAsciiDigit_of_mem_showNat hc
    · rw [decimal_zeros_append, decimal_showNat]

theorem decimal?_zeros_append (zeros n : ℕ) :
    decimal? (List.replicate zeros '0' ++ showNat n) = some n :=
  decimal?_eq_some_iff.2 ⟨zeros, rfl⟩

/-! ### Integers -/

/-- Whether a text spells an integer: a sign or none, zeros, and the number as it is written. -/
inductive SpellsInteger : List Char → ℤ → Prop
  | plain (zeros n : ℕ) : SpellsInteger (List.replicate zeros '0' ++ showNat n) n
  | plus (zeros n : ℕ) : SpellsInteger ('+' :: (List.replicate zeros '0' ++ showNat n)) n
  | minus (zeros n : ℕ) : SpellsInteger ('-' :: (List.replicate zeros '0' ++ showNat n)) (-n)

/-- Digits have no sign before them. -/
theorem readSign_of_decimal? {ds : List Char} {n : ℕ} (h : decimal? ds = some n) :
    readSign ds = (false, ds) := by
  obtain ⟨⟨-, hdigits⟩, -⟩ := decimal?_eq_some_iff_digits.1 h
  unfold readSign
  split
  case h_1 => exact absurd (hdigits _ List.mem_cons_self) (by decide)
  case h_2 => exact absurd (hdigits _ List.mem_cons_self) (by decide)
  case h_3 => rfl

theorem integer?_eq (cs : List Char) : integer? cs =
    (decimal? (readSign cs).2).map fun n : ℕ => if (readSign cs).1 then -(n : ℤ) else n := by
  simp only [integer?]
  cases decimal? (readSign cs).2 <;> rfl

theorem integer?_eq_some_iff {cs : List Char} {z : ℤ} :
    integer? cs = some z ↔ SpellsInteger cs z := by
  rw [integer?_eq]
  constructor
  · intro h
    obtain ⟨n, hn, rfl⟩ := Option.map_eq_some_iff.1 h
    obtain ⟨zeros, hzeros⟩ := decimal?_eq_some_iff.1 hn
    unfold readSign at hzeros ⊢
    split at hzeros
    case h_1 cs =>
      obtain rfl : cs = _ := hzeros
      exact .minus zeros n
    case h_2 cs =>
      obtain rfl : cs = _ := hzeros
      exact .plus zeros n
    case h_3 =>
      obtain rfl : cs = _ := hzeros
      exact .plain zeros n
  · intro h
    cases h with
    | plain zeros n =>
      rw [readSign_of_decimal? (decimal?_zeros_append zeros n), decimal?_zeros_append]
      rfl
    | plus zeros n | minus zeros n =>
      rw [readSign, decimal?_zeros_append]
      rfl

theorem spellsInteger_showInt (n : ℤ) : SpellsInteger (showInt n) n := by
  unfold showInt
  split
  · have hspells := SpellsInteger.minus 0 n.natAbs
    rwa [show -(n.natAbs : ℤ) = n by omega] at hspells
  · have hspells := SpellsInteger.plain 0 n.natAbs
    rwa [show (n.natAbs : ℤ) = n by omega] at hspells

theorem integer?_showInt (n : ℤ) : integer? (showInt n) = some n :=
  integer?_eq_some_iff.2 (spellsInteger_showInt n)

theorem showInt_injective : Function.Injective showInt := by
  intro n m h
  have hread := congrArg integer? h
  rwa [integer?_showInt, integer?_showInt, Option.some.injEq] at hread

/-! ### Hexadecimal numbers -/

theorem hexDigit?_digitChar {d : ℕ} (h : d < 16) : hexDigit? d.digitChar = some d := by
  revert d
  decide

theorem hexadecimalFrom?_append (n : ℕ) (front back : List Char) :
    hexadecimalFrom? n (front ++ back) =
      (hexadecimalFrom? n front).bind fun m => hexadecimalFrom? m back := by
  induction front generalizing n with
  | nil => rfl
  | cons c front ih =>
    simp only [List.cons_append, hexadecimalFrom?, ih]
    cases hexDigit? c <;> rfl

theorem hexadecimalFrom?_showHex (n : ℕ) : hexadecimalFrom? 0 (showHex n) = some n := by
  induction n using Nat.strong_induction_on with
  | _ n ih =>
    rw [showHex, Nat.toDigits_eq_if (by decide)]
    split
    case isTrue h => simp [hexadecimalFrom?, hexDigit?_digitChar h]
    case isFalse h =>
      have hfront := ih (n / 16) (by omega)
      rw [showHex] at hfront
      rw [hexadecimalFrom?_append, hfront]
      simp [hexadecimalFrom?, hexDigit?_digitChar (Nat.mod_lt n (by decide)), Nat.div_add_mod]

theorem hexadecimal?_showHex (n : ℕ) : hexadecimal? (showHex n) = some n := by
  rw [hexadecimal?, if_neg (by simp [showHex, Nat.toDigits_ne_nil]), hexadecimalFrom?_showHex]

theorem isSome_hexDigit?_of_mem {cs : List Char} {c : Char} (hc : c ∈ cs) {n m : ℕ}
    (h : hexadecimalFrom? n cs = some m) : (hexDigit? c).isSome := by
  induction cs generalizing n with
  | nil => cases hc
  | cons d cs ih =>
    obtain ⟨v, hv, hrest⟩ := Option.bind_eq_some_iff.1 h
    rcases List.mem_cons.1 hc with rfl | hc
    · rw [hv]
      rfl
    · exact ih hc hrest

theorem isSome_hexDigit?_of_mem_showHex {n : ℕ} {c : Char} (h : c ∈ showHex n) :
    (hexDigit? c).isSome :=
  isSome_hexDigit?_of_mem h (hexadecimalFrom?_showHex n)

end CodeGraph.Text
