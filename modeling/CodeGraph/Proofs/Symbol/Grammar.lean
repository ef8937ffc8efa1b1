import CodeGraph.Proofs.Symbol.Segment
import Mathlib.Data.List.TakeWhile

/-!
# Which names are symbols

A name is read as a symbol all or not at all: the payload of its envelope is cut into segments from
left to right, and if it cannot be cut the name stays as it is.

* `LeadingDigits`: a maximal run of digits at the front of a text;
* `Splits`: how a payload is cut into segments;
* `Encloses`, `Spells`: an envelope around a payload, and the segments that a name spells;
* `pathFrom_of_splits`, `exists_splits_of_pathFrom`: a path is read of the payloads that can be cut;
* `decode_splits`: which names are decoded, and to what.
-/

namespace CodeGraph.Symbol

open Text

/-- Whether a text begins with some digits, not none, and no further one follows them. -/
structure LeadingDigits (digits rest : List Char) : Prop where
  ne_nil : digits ≠ []
  all : ∀ d ∈ digits, isAsciiDigit d = true
  maximal : ∀ c ∈ rest.head?, isAsciiDigit c = false

/-- How a payload is cut into segments: each item is a length and that many characters. Behind a
length that announces the hash, the rest of the payload is the hash if it is as long. -/
inductive Splits : List Char → List (List Char) → Prop
  /-- The payload ends behind an item. -/
  | nil : Splits [] []
  /-- The payload ends in a hash. -/
  | hash {digits rest : List Char} (hdigits : LeadingDigits digits rest)
      (hlength : decimal digits = hashLength) (hrest : rest.length = hashLength) :
      Splits (digits ++ rest) []
  /-- An item and what follows it. -/
  | cons {digits segment rest : List Char} {segments : List (List Char)}
      (hdigits : LeadingDigits digits (segment ++ rest)) (hlength : decimal digits = segment.length)
      (hhash : ¬ (decimal digits = hashLength ∧ (segment ++ rest).length = hashLength))
      (hrest : Splits rest segments) :
      Splits (digits ++ (segment ++ rest)) (segment :: segments)

/-- Whether a name is a payload in its envelope. -/
def Encloses (name payload : List Char) : Prop :=
  name = ['_', 'Z', 'N'] ++ payload ++ ['E'] ∨ name = ['Z', 'N'] ++ payload ++ ['E']

/-- Whether some segments are those of a name. -/
def Spells (name : List Char) (segments : List (List Char)) : Prop :=
  ∃ payload, Encloses name payload ∧ Splits payload segments

/-! ### Digits -/

namespace LeadingDigits

variable {digits rest : List Char}

theorem of_all (hne : digits ≠ []) (hall : digits.all isAsciiDigit)
    (hrest : rest.head?.all (!isAsciiDigit ·)) : LeadingDigits digits rest where
  ne_nil := hne
  all := List.all_eq_true.1 hall
  maximal c hc := by simpa [Option.mem_def.1 hc] using hrest

theorem takeWhile_eq (h : LeadingDigits digits rest) :
    (digits ++ rest).takeWhile isAsciiDigit = digits := by
  rw [List.takeWhile_append_of_pos h.all]
  cases rest with
  | nil => simp
  | cons c rest => rw [List.takeWhile_cons_of_neg (by simp [h.maximal c rfl]), List.append_nil]

theorem dropWhile_eq (h : LeadingDigits digits rest) :
    (digits ++ rest).dropWhile isAsciiDigit = rest := by
  rw [List.dropWhile_append_of_pos h.all]
  cases rest with
  | nil => rfl
  | cons c rest => rw [List.dropWhile_cons_of_neg (by simp [h.maximal c rfl])]

end LeadingDigits

theorem exists_leadingDigits {cs : List Char} (h : cs.takeWhile isAsciiDigit ≠ []) :
    ∃ digits rest, LeadingDigits digits rest ∧ cs = digits ++ rest := by
  refine ⟨cs.takeWhile isAsciiDigit, cs.dropWhile isAsciiDigit,
    ⟨h, fun d => List.mem_takeWhile_imp, fun c hc => ?_⟩, List.takeWhile_append_dropWhile.symm⟩
  have hhead := List.head?_dropWhile_not isAsciiDigit cs
  rw [Option.mem_def.1 hc] at hhead
  simpa using hhead

/-- What follows a segment is the end of the payload or a digit. -/
theorem Splits.head?_ne_dollar {cs : List Char} {segments : List (List Char)}
    (h : Splits cs segments) : cs.head? ≠ some '$' := by
  have hdigit : ∀ {digits rest}, LeadingDigits digits rest →
      (digits ++ rest).head? ≠ some '$' := by
    intro digits rest hdigits hhead
    obtain ⟨d, ds, rfl⟩ := List.exists_cons_of_ne_nil hdigits.ne_nil
    obtain rfl : d = '$' := Option.some.inj hhead
    exact absurd (hdigits.all '$' List.mem_cons_self) (by decide)
  cases h with
  | nil => simp
  | hash hdigits => exact hdigit hdigits
  | cons hdigits => exact hdigit hdigits

/-! ### Paths -/

theorem pathFrom_nil (path : List Char) : pathFrom path [] = some path := by
  simp [pathFrom]

theorem pathFrom_of_not_digit {cs : List Char} (hcs : cs ≠ [])
    (h : cs.takeWhile isAsciiDigit = []) (path : List Char) : pathFrom path cs = none := by
  rw [pathFrom, if_neg (by simpa using hcs), dif_pos (by simp [h])]

theorem pathFrom_append {digits rest : List Char} (h : LeadingDigits digits rest)
    (path : List Char) :
    pathFrom path (digits ++ rest) =
      if decimal digits = hashLength ∧ rest.length = hashLength then some path
      else if decimal digits ≤ rest.length then
        pathFrom (path ++ readFirst (decimal digits) none rest ++ separator)
          (rest.drop (decimal digits))
      else none := by
  rw [pathFrom, if_neg (by simp [h.ne_nil])]
  simp only [h.takeWhile_eq, h.dropWhile_eq]
  rw [dif_neg (by simpa using h.ne_nil)]

/-- The path of a payload that can be cut holds the text of each segment, as if it stood alone, and
a separator behind it. -/
theorem pathFrom_of_splits {cs : List Char} {segments : List (List Char)} (h : Splits cs segments)
    (path : List Char) :
    pathFrom path cs = some (path ++ segments.flatMap fun s => readable s ++ separator) := by
  induction h generalizing path with
  | nil => rw [pathFrom_nil, List.flatMap_nil, List.append_nil]
  | hash hdigits hlength hrest =>
    rw [pathFrom_append hdigits, if_pos ⟨hlength, hrest⟩, List.flatMap_nil, List.append_nil]
  | @cons digits segment rest segments hdigits hlength hhash hrest ih =>
    have htext : readFirst (decimal digits) none (segment ++ rest) = readable segment := by
      rw [hlength, readFirst_append hrest.head?_ne_dollar]
      rfl
    have hfits : decimal digits ≤ (segment ++ rest).length := by
      rw [hlength, List.length_append]
      exact Nat.le_add_right _ _
    have hdrop : (segment ++ rest).drop (decimal digits) = rest := by
      rw [hlength, List.drop_left]
    rw [pathFrom_append hdigits, if_neg hhash, if_pos hfits, htext, hdrop, ih, List.flatMap_cons,
      List.append_assoc, List.append_assoc, List.append_assoc]

/-- A payload of which a path is read can be cut. -/
theorem exists_splits_of_pathFrom {path cs out : List Char} (h : pathFrom path cs = some out) :
    ∃ segments, Splits cs segments := by
  by_cases hcs : cs = []
  · subst hcs
    exact ⟨[], .nil⟩
  by_cases hnone : cs.takeWhile isAsciiDigit = []
  · rw [pathFrom_of_not_digit hcs hnone] at h
    cases h
  obtain ⟨digits, rest, hdigits, hcut⟩ := exists_leadingDigits hnone
  rw [hcut, pathFrom_append hdigits] at h
  rw [hcut]
  by_cases hhash : decimal digits = hashLength ∧ rest.length = hashLength
  · exact ⟨[], .hash hdigits hhash.1 hhash.2⟩
  rw [if_neg hhash] at h
  by_cases hfits : decimal digits ≤ rest.length
  · rw [if_pos hfits] at h
    obtain ⟨segments, hsegments⟩ := exists_splits_of_pathFrom h
    have hlength : decimal digits = (rest.take (decimal digits)).length := by
      rw [List.length_take, Nat.min_eq_left hfits]
    rw [← List.take_append_drop (decimal digits) rest] at hdigits hhash
    refine ⟨rest.take (decimal digits) :: segments, ?_⟩
    have hsplits := Splits.cons hdigits hlength hhash hsegments
    rwa [List.take_append_drop] at hsplits
  · rw [if_neg hfits] at h
    cases h
termination_by cs.length
decreasing_by
  have hpos : 0 < digits.length := List.length_pos_iff.2 hdigits.ne_nil
  rw [hcut, List.length_drop, List.length_append]
  omega

/-- Texts with a separator behind each are the joined texts and a last separator. -/
theorem flatMap_append_separator {texts : List (List Char)} (h : texts ≠ []) :
    texts.flatMap (· ++ separator) = separator.intercalate texts ++ separator := by
  induction texts with
  | nil => exact absurd rfl h
  | cons text texts ih =>
    cases texts with
    | nil => simp
    | cons next texts =>
      rw [List.flatMap_cons, ih (List.cons_ne_nil _ _), List.intercalate_cons_cons]
      simp

theorem dropSeparator_append (path : List Char) : dropSeparator (path ++ separator) = path := by
  have hsuffix : separator.isSuffixOf (path ++ separator) :=
    List.isSuffixOf_iff_suffix.2 (List.suffix_append path separator)
  rw [dropSeparator, if_pos hsuffix, List.length_append, Nat.add_sub_cancel, List.take_left]

/-- Without the last separator the path holds the joined texts of the segments. -/
theorem dropSeparator_flatMap (segments : List (List Char)) :
    dropSeparator (segments.flatMap fun s => readable s ++ separator) =
      separator.intercalate (segments.map readable) := by
  cases segments with
  | nil => rfl
  | cons segment segments =>
    have hne : (segment :: segments).map readable ≠ [] := by simp
    have hjoin := flatMap_append_separator hne
    rw [List.flatMap_map] at hjoin
    rw [hjoin, dropSeparator_append]

/-! ### Names -/

theorem stripFront?_eq_some_iff {front cs rest : List Char} :
    stripFront? front cs = some rest ↔ cs = front ++ rest := by
  unfold stripFront?
  by_cases h : front <+: cs
  · obtain ⟨back, rfl⟩ := h
    simp [List.isPrefixOf_iff_prefix]
  · rw [if_neg (by rwa [List.isPrefixOf_iff_prefix])]
    refine iff_of_false (by simp) ?_
    rintro rfl
    exact h (List.prefix_append front rest)

/-- The payload of a name is what its envelope encloses. -/
theorem payload?_eq_some_iff {name payload : List Char} :
    payload? name = some payload ↔ Encloses name payload := by
  have hback : ∀ cs : List Char,
      (if cs.getLast? = some 'E' then some cs.dropLast else none) = some payload ↔
        cs = payload ++ ['E'] := by
    intro cs
    rw [Option.ite_none_right_eq_some, Option.some.injEq]
    constructor
    · rintro ⟨hlast, rfl⟩
      obtain ⟨front, rfl⟩ := List.getLast?_eq_some_iff.1 hlast
      rw [List.dropLast_concat]
    · rintro rfl
      simp
  -- no name begins with both fronts
  have hfront : ∀ cs : List Char,
      (stripFront? ['_', 'Z', 'N'] name <|> stripFront? ['Z', 'N'] name) = some cs ↔
        name = ['_', 'Z', 'N'] ++ cs ∨ name = ['Z', 'N'] ++ cs := by
    intro cs
    rw [Option.orElse_eq_orElse, Option.orElse_eq_or, Option.or_eq_some_iff,
      stripFront?_eq_some_iff, stripFront?_eq_some_iff]
    refine or_congr_right ⟨And.right, fun h => ⟨?_, h⟩⟩
    rw [h]
    rfl
  rw [payload?, Option.bind_eq_some_iff]
  simp only [hback, hfront, Encloses, List.append_assoc]
  constructor
  · rintro ⟨cs, h, rfl⟩
    exact h
  · intro h
    exact ⟨payload ++ ['E'], h, rfl⟩

theorem decode_of_spells {name : String} {segments : List (List Char)}
    (h : Spells name.toList segments) :
    decode name = String.ofList (separator.intercalate (segments.map readable)) := by
  obtain ⟨payload, hname, hsplits⟩ := h
  rw [decode, path?, payload?_eq_some_iff.2 hname, Option.bind_some, pathFrom_of_splits hsplits,
    Option.map_some, List.nil_append, dropSeparator_flatMap]

theorem decode_of_not_spells {name : String} (h : ∀ segments, ¬ Spells name.toList segments) :
    decode name = name := by
  have hpath : path? name.toList = none := by
    rw [path?, Option.bind_eq_none_iff]
    intro payload hpayload
    rw [Option.map_eq_none_iff, Option.eq_none_iff_forall_ne_some]
    intro path hpath
    obtain ⟨segments, hsplits⟩ := exists_splits_of_pathFrom hpath
    exact h segments ⟨payload, payload?_eq_some_iff.1 hpayload, hsplits⟩
  rw [decode, hpath]

/-- **A name is decoded as a whole or not at all.** A name that spells segments is decoded to the
path of their texts, and each of them is what is read where nothing follows the segment. Any other
name stays as it is. -/
theorem decode_splits (name : String) :
    (∀ segments, Spells name.toList segments →
        decode name = String.ofList (separator.intercalate (segments.map readable))) ∧
      ((∀ segments, ¬ Spells name.toList segments) → decode name = name) ∧
      ∀ segment, readable segment = readFirst segment.length none segment :=
  ⟨fun _ => decode_of_spells, decode_of_not_spells, readable_eq_readFirst⟩

/-- An underscore at the end of a segment, with another segment behind it and with a dollar. -/
theorem decode_splits_lastUnderscore :
    Spells "_ZN2a_1bE".toList [['a', '_'], ['b']] ∧ decode "_ZN2a_1bE" = "a_::b" ∧
      (∀ segments, ¬ Spells "_ZN2a_$E".toList segments) ∧ decode "_ZN2a_$E" = "_ZN2a_$E" := by
  have hspells : Spells "_ZN2a_1bE".toList [['a', '_'], ['b']] := by
    have hlast : Splits (['1'] ++ (['b'] ++ [])) [['b']] :=
      .cons (.of_all (by decide) rfl rfl) rfl (by decide) .nil
    have hboth : Splits (['2'] ++ (['a', '_'] ++ (['1'] ++ (['b'] ++ [])))) [['a', '_'], ['b']] :=
      .cons (.of_all (by decide) rfl rfl) rfl (by decide) hlast
    exact ⟨_, .inl rfl, hboth⟩
  have hnot : ∀ segments, ¬ Spells "_ZN2a_$E".toList segments := by
    rintro segments ⟨payload, hname, hsplits⟩
    have hpayload : payload? "_ZN2a_$E".toList = some "2a_$".toList := by decide
    rw [payload?_eq_some_iff.2 hname, Option.some.injEq] at hpayload
    have hpath := pathFrom_of_splits hsplits []
    rw [hpayload, show pathFrom [] "2a_$".toList = none by decide +kernel] at hpath
    cases hpath
  have hdecode := (decode_splits "_ZN2a_1bE").1 _ hspells
  exact ⟨hspells, hdecode.trans (by decide +kernel), hnot, (decode_splits "_ZN2a_$E").2.1 hnot⟩

end CodeGraph.Symbol
