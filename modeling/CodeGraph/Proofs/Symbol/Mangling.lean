import CodeGraph.Proofs.Symbol.Grammar
import CodeGraph.Proofs.Text.Number

/-!
# Mangled names

A path is *mangled* into a symbol: each of its segments is written with escapes for all characters
but ASCII letters and digits, behind its length, and a hash comes last.

* `escaped`, `encode`: a character and a segment as a symbol holds them;
* `mangle`: the symbol of a path;
* `unescape_escapeToken`, `readable_encode`: what is encoded is read back;
* `splits_mangled`: a symbol is cut into the segments that it was made of;
* `decode_mangle`: a mangled path is decoded to the path.
-/

namespace CodeGraph.Symbol

open Text

/-- The names of the escapes that have one. -/
def escapeName? : Char → Option (List Char)
  | '@' => some ['S', 'P']
  | '*' => some ['B', 'P']
  | '&' => some ['R', 'F']
  | '<' => some ['L', 'T']
  | '>' => some ['G', 'T']
  | '(' => some ['L', 'P']
  | ')' => some ['R', 'P']
  | ',' => some ['C']
  | _ => none

/-- What stands between the dollars of an escape: its name, or else the code point. -/
def escapeToken (c : Char) : List Char :=
  (escapeName? c).getD ('u' :: showHex c.toNat)

/-- A character as a segment holds it. A digit is escaped where it would lengthen the number before
the segment. -/
def encodeChar (first : Bool) (c : Char) : List Char :=
  if isAsciiLetter c ∨ (isAsciiDigit c ∧ ¬ first) then [c] else '$' :: escapeToken c ++ ['$']

/-- A segment as a symbol holds it. -/
def encode : List Char → List Char
  | [] => []
  | c :: cs => encodeChar true c ++ cs.flatMap (encodeChar false)

/-- A text behind its length. -/
def item (text : List Char) : List Char :=
  showNat text.length ++ text

/-- The symbol of a path, with the front of its envelope and its hash. -/
def mangle (front : List Char) (segments : List (List Char)) (hash : List Char) : List Char :=
  front ++ (segments.flatMap (fun s => item (encode s)) ++ (['1', '7'] ++ hash)) ++ ['E']

/-- Whether a text is a hash: `h` and sixteen hexadecimal digits. -/
def IsHash (hash : List Char) : Prop :=
  ∃ digits, hash = 'h' :: digits ∧ digits.length = 16 ∧ ∀ d ∈ digits, (hexDigit? d).isSome

/-! ### Characters -/

/-- A character of a class that none of the three special ones is in. -/
theorem isOrdinary_of_class {p : Char → Bool} (hp : p '_' = false ∧ p '.' = false ∧ p '$' = false)
    {c : Char} (h : p c = true) : IsOrdinary c := by
  have hne : ∀ {d : Char}, p d = false → c ≠ d := by
    rintro d hd rfl
    exact absurd h (by simp [hd])
  exact ⟨hne hp.1, hne hp.2.1, hne hp.2.2⟩

theorem codePoint?_showHex (c : Char) : codePoint? (showHex c.toNat) = some c := by
  have hplus : ∀ r, showHex c.toNat ≠ '+' :: r := by
    intro r hr
    have hdigit : (hexDigit? '+').isSome :=
      isSome_hexDigit?_of_mem_showHex (n := c.toNat) (by rw [hr]; exact List.mem_cons_self)
    exact absurd hdigit (by decide)
  have hvalid : c.toNat.isValidChar := c.valid
  unfold codePoint?
  split
  · rename_i hcs
    exact absurd hcs (hplus _)
  · simp only [hexadecimal?_showHex, Option.bind_some, if_pos hvalid, Char.ofNat_toNat]

theorem unescape_escapeToken (c : Char) : unescape (escapeToken c) = [c] := by
  unfold escapeToken
  cases h : escapeName? c with
  | none => simp [unescape, escape?, codePoint?_showHex]
  | some name =>
    unfold escapeName? at h
    split at h <;> cases h <;> decide

theorem isOrdinary_of_mem_escapeToken {c d : Char} (h : d ∈ escapeToken c) : IsOrdinary d := by
  unfold escapeToken at h
  cases hname : escapeName? c with
  | none =>
    rw [hname, Option.getD_none, List.mem_cons] at h
    rcases h with rfl | h
    · exact isOrdinary_of_class (p := isAsciiLetter) (by decide) (by decide)
    · exact isOrdinary_of_class (p := fun d => (hexDigit? d).isSome) (by decide)
        (isSome_hexDigit?_of_mem_showHex h)
  | some name =>
    have hletters : name.all isAsciiLetter := by
      unfold escapeName? at hname
      split at hname <;> cases hname <;> decide
    rw [hname, Option.getD_some] at h
    exact isOrdinary_of_class (p := isAsciiLetter) (by decide) (List.all_eq_true.1 hletters d h)

/-- An encoded character is read back, whatever follows it. -/
theorem readFrom_encodeChar (first : Bool) (c : Char) (cs : List Char) :
    readFrom none (encodeChar first c ++ cs) = c :: readFrom none cs := by
  unfold encodeChar
  split
  case isTrue h =>
    refine readFrom_plain ?_
    rcases h with h | ⟨h, -⟩
    · exact isOrdinary_of_class (by decide) h
    · exact isOrdinary_of_class (by decide) h
  case isFalse =>
    rw [List.cons_append, List.cons_append, List.append_assoc, List.singleton_append,
      readFrom_escape fun d => isOrdinary_of_mem_escapeToken, unescape_escapeToken,
      List.singleton_append]

theorem readFrom_flatMap_encodeChar (first : Bool) (cs : List Char) :
    readFrom none (cs.flatMap (encodeChar first)) = cs := by
  induction cs with
  | nil => rw [List.flatMap_nil, readFrom]
  | cons c cs ih => rw [List.flatMap_cons, readFrom_encodeChar, ih]

/-! ### Segments -/

/-- What is encoded is read back. -/
theorem readable_encode (segment : List Char) : readable (encode segment) = segment := by
  cases segment with
  | nil => rw [encode, readable, readFrom]
  | cons c cs => rw [encode, readable, readFrom_encodeChar, readFrom_flatMap_encodeChar]

theorem not_isAsciiDigit_of_isAsciiLetter {c : Char} (h : isAsciiLetter c) :
    isAsciiDigit c = false := by
  simp only [isAsciiLetter, Bool.or_eq_true, Bool.and_eq_true, decide_eq_true_eq] at h
  simp only [isAsciiDigit, Bool.and_eq_false_iff, decide_eq_false_iff_not]
  omega

/-- No encoded segment begins with a digit. -/
theorem exists_encode_eq_cons {segment : List Char} (h : segment ≠ []) :
    ∃ c cs, encode segment = c :: cs ∧ isAsciiDigit c = false := by
  obtain ⟨c, cs, rfl⟩ := List.exists_cons_of_ne_nil h
  by_cases hletter : isAsciiLetter c
  · refine ⟨c, cs.flatMap (encodeChar false), ?_, not_isAsciiDigit_of_isAsciiLetter hletter⟩
    rw [encode, encodeChar, if_pos (.inl hletter), List.singleton_append]
  · refine ⟨'$', escapeToken c ++ ['$'] ++ cs.flatMap (encodeChar false), ?_, by decide⟩
    rw [encode, encodeChar, if_neg (by simp [hletter]), List.cons_append, List.cons_append]

/-- A symbol is cut into the segments that it was made of. -/
theorem splits_mangled {segments : List (List Char)} (hne : ∀ s ∈ segments, s ≠ [])
    {hash : List Char} (hhash : IsHash hash) :
    Splits (segments.flatMap (fun s => item (encode s)) ++ (['1', '7'] ++ hash))
      (segments.map encode) := by
  obtain ⟨digits, rfl, hcount, -⟩ := hhash
  have hlength : ('h' :: digits).length = hashLength := by rw [List.length_cons, hcount]; rfl
  induction segments with
  | nil =>
    have hdigits : LeadingDigits ['1', '7'] ('h' :: digits) :=
      .of_all (List.cons_ne_nil _ _) rfl rfl
    rw [List.flatMap_nil, List.nil_append, List.map_nil]
    exact .hash hdigits rfl hlength
  | cons segment segments ih =>
    rw [List.flatMap_cons, List.map_cons, item, List.append_assoc, List.append_assoc]
    refine .cons ⟨showNat_ne_nil _, fun _ => isAsciiDigit_of_mem_showNat, fun d hd => ?_⟩
      (decimal_showNat _) ?_ (ih fun s hs => hne s (List.mem_cons_of_mem _ hs))
    · obtain ⟨c, cs, hcs, hc⟩ := exists_encode_eq_cons (hne segment List.mem_cons_self)
      rw [hcs] at hd
      obtain rfl : c = d := Option.some.inj hd
      exact hc
    -- the hash and the number before it are behind the segment, so it is not at the end
    rintro ⟨-, hrest⟩
    simp only [List.length_append, hlength, hashLength, List.length_cons, List.length_nil] at hrest
    omega

/-- **Decoding undoes mangling.** The symbol of a path, whatever characters its segments hold, is
decoded to the path. -/
theorem decode_mangle {front : List Char} (hfront : front = ['_', 'Z', 'N'] ∨ front = ['Z', 'N'])
    {segments : List String} (hne : ∀ s ∈ segments, s ≠ "") {hash : List Char}
    (hhash : IsHash hash) :
    decode (String.ofList (mangle front (segments.map String.toList) hash)) =
      "::".intercalate segments := by
  have hne' : ∀ s ∈ segments.map String.toList, s ≠ [] := by
    intro s hs
    obtain ⟨text, htext, rfl⟩ := List.mem_map.1 hs
    exact fun h => hne text htext (String.toList_eq_nil_iff.1 h)
  have hspells : Spells (mangle front (segments.map String.toList) hash)
      ((segments.map String.toList).map encode) := by
    refine ⟨_, ?_, splits_mangled hne' hhash⟩
    rcases hfront with rfl | rfl
    · exact .inl rfl
    · exact .inr rfl
  have hread : ((segments.map String.toList).map encode).map readable =
      segments.map String.toList := by
    rw [List.map_map]
    exact List.map_id'' readable_encode _
  rw [decode_of_spells (by rwa [String.toList_ofList]), hread]
  exact String.toList_inj.1 (by rw [String.toList_ofList, String.toList_intercalate]; rfl)

/-- A segment with escapes, one that begins with a digit, and one that is as long as a hash. -/
theorem decode_mangle_threeSegments :
    (∀ s ∈ ["<T>", "1a", "abcdefghijklmnopq"], s ≠ "") ∧ IsHash "h0123456789abcdef".toList ∧
      decode "_ZN9$LT$T$GT$6$u31$a17abcdefghijklmnopq17h0123456789abcdefE" =
        "<T>::1a::abcdefghijklmnopq" := by
  have hne : ∀ s ∈ ["<T>", "1a", "abcdefghijklmnopq"], s ≠ "" := by decide
  have hhash : IsHash "h0123456789abcdef".toList :=
    ⟨"0123456789abcdef".toList, rfl, rfl, List.all_eq_true.1 (by decide)⟩
  have hsymbol : String.ofList (mangle ['_', 'Z', 'N']
      (["<T>", "1a", "abcdefghijklmnopq"].map String.toList) "h0123456789abcdef".toList) =
      "_ZN9$LT$T$GT$6$u31$a17abcdefghijklmnopq17h0123456789abcdefE" := by decide +kernel
  have hdecode := decode_mangle (.inl rfl) hne hhash
  rw [hsymbol] at hdecode
  exact ⟨hne, hhash, hdecode.trans (by decide +kernel)⟩

end CodeGraph.Symbol
