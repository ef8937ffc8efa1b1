import CodeGraph.Decimal.Rounding
import CodeGraph.Text.Run
import CodeGraph.Time.Calendar

/-!
# Scalars of TOML

A reader takes a value from the front of a text and returns it with the text behind it, or nothing
if there is no such value.

* `readString`: the four kinds of strings;
* `readInteger`, `readFloat`: numbers, in which underscores may separate digits;
* `readMoment`: dates and times, as normalised text;
* `spelledMoment?`: the date or time that a text spells, which may have forms of its own.
-/

namespace CodeGraph.Toml

open Text

/-- A reader of values. -/
abbrev Reader (α : Type) := List Char → Option (α × List Char)

/-- White space inside a line. -/
def isSpace (c : Char) : Bool :=
  c == ' ' || c == '\t'

/-- The text behind the white space at its front. -/
def skipSpace (cs : List Char) : List Char :=
  cs.dropWhile isSpace

/-- Whether a character may stand in a comment or a string: no control character but the tab. -/
def isPlain (c : Char) : Bool :=
  c == '\t' || (0x20 ≤ c.toNat && c.toNat != 0x7F)

/-- The text behind a line break at its front. -/
def newline? : List Char → Option (List Char)
  | '\n' :: cs => some cs
  | '\r' :: '\n' :: cs => some cs
  | _ => none

/-! ### Strings -/

/-- The escapes of one letter. -/
def escapes : List (Char × Char) :=
  [('b', Char.ofNat 8), ('t', '\t'), ('n', '\n'), ('f', Char.ofNat 12), ('r', '\r'), ('"', '"'),
    ('\\', '\\')]

/-- The character with a code point of `n` hexadecimal digits. -/
def codePoint? (n : Nat) (cs : List Char) : Option Char :=
  let ds := cs.take n
  if ds.length = n then
    (hexadecimal? ds).bind fun v => if v.isValidChar then some (Char.ofNat v) else none
  else none

/-- The character that an escape stands for, given the text behind its backslash, and how many
characters of that text it takes. -/
def escape? : List Char → Option (Char × Nat)
  | 'u' :: cs => (codePoint? 4 cs).map (·, 5)
  | 'U' :: cs => (codePoint? 8 cs).map (·, 9)
  | c :: _ => (escapes.lookup c).map (·, 1)
  | [] => none

/-- The rest of a string between double quotes; `acc` holds what is already read, last character
first. -/
def readBasic (acc : List Char) (cs : List Char) : Option (String × List Char) :=
  match cs with
  | [] => none
  | c :: cs =>
    if c = '"' then some (String.ofList acc.reverse, cs)
    else if c = '\\' then
      match escape? cs with
      | some (c, n) => readBasic (c :: acc) (cs.drop n)
      | none => none
    else if isPlain c then readBasic (c :: acc) cs
    else none
termination_by cs.length
decreasing_by
  · simp only [List.length_drop, List.length_cons]
    omega
  · simp

/-- The rest of a string between single quotes. -/
def readLiteral (cs : List Char) : Option (String × List Char) :=
  let body := cs.takeWhile fun c => c != '\'' && isPlain c
  match cs.drop body.length with
  | '\'' :: rest => some (String.ofList body, rest)
  | _ => none

/-- The number of quotes at the front of a text that close a string over several lines: three, with
at most two more that belong to it. -/
def closing? (quote : Char) (cs : List Char) : Option Nat :=
  let n := ((cs.take 5).takeWhile (· == quote)).length
  if n < 3 then none else some n

/-- The text behind the white space and the line breaks at its front. -/
def skipBreaks : List Char → List Char
  | '\r' :: '\n' :: cs => skipBreaks cs
  | c :: cs => if isSpace c || c == '\n' then skipBreaks cs else c :: cs
  | [] => []

/-- The text behind a line break that a backslash hides, with all white space that follows it. -/
def hiddenBreak? (cs : List Char) : Option (List Char) :=
  (newline? (skipSpace cs)).map skipBreaks

theorem length_newline?_lt {cs rest : List Char} (h : newline? cs = some rest) :
    rest.length < cs.length := by
  unfold newline? at h
  split at h
  · simp_all
  · simp only [Option.some.injEq] at h
    subst h
    simp only [List.length_cons]
    omega
  · simp at h

theorem length_skipBreaks_le (cs : List Char) : (skipBreaks cs).length ≤ cs.length := by
  fun_induction skipBreaks cs with
  | case1 cs ih =>
    simp only [List.length_cons]
    omega
  | case2 c cs _ _ ih =>
    simp only [List.length_cons]
    omega
  | case3 => simp
  | case4 => simp

theorem length_hiddenBreak?_lt {cs rest : List Char} (h : hiddenBreak? cs = some rest) :
    rest.length < cs.length := by
  obtain ⟨r, hr, rfl⟩ := Option.map_eq_some_iff.1 h
  have h1 := length_newline?_lt hr
  have h2 : (skipSpace cs).length ≤ cs.length := length_dropWhile_le isSpace cs
  have h3 := length_skipBreaks_le r
  omega

/-- The rest of a string over several lines between `quote`s. Backslashes have a meaning only if
`escaping`. -/
def readLong (quote : Char) (escaping : Bool) (acc : List Char) (cs : List Char) :
    Option (String × List Char) :=
  match closing? quote cs with
  | some n =>
    some (String.ofList (acc.reverse ++ List.replicate (n - 3) quote), cs.drop n)
  | none =>
    match _hn : newline? cs with
    | some rest => readLong quote escaping ('\n' :: acc) rest
    | none =>
      match cs with
      | [] => none
      | c :: cs =>
        if escaping && c == '\\' then
          match _hb : hiddenBreak? cs with
          | some rest => readLong quote escaping acc rest
          | none =>
            match escape? cs with
            | some (c, n) => readLong quote escaping (c :: acc) (cs.drop n)
            | none => none
        else if isPlain c then readLong quote escaping (c :: acc) cs
        else none
termination_by cs.length
decreasing_by
  · exact length_newline?_lt _hn
  · have := length_hiddenBreak?_lt _hb
    simp only [List.length_cons]
    omega
  · simp only [List.length_drop, List.length_cons]
    omega
  · simp

/-- A text without a line break at its front. -/
def dropNewline (cs : List Char) : List Char :=
  (newline? cs).getD cs

/-- A string. -/
def readString : Reader String
  | '"' :: '"' :: '"' :: cs => readLong '"' true [] (dropNewline cs)
  | '"' :: cs => readBasic [] cs
  | '\'' :: '\'' :: '\'' :: cs => readLong '\'' false [] (dropNewline cs)
  | '\'' :: cs => readLiteral cs
  | _ => none

/-! ### Numbers -/

/-- The digits of class `p` at the front of a text, an underscore between two of them being left
out. -/
def digitRun (p : Char → Bool) : List Char → List Char × List Char
  | '_' :: c :: cs =>
    if p c then
      let (ds, rest) := digitRun p cs
      (c :: ds, rest)
    else ([], '_' :: c :: cs)
  | c :: cs =>
    if p c then
      let (ds, rest) := digitRun p cs
      (c :: ds, rest)
    else ([], c :: cs)
  | [] => ([], [])

/-- At least one digit of class `p`, the first without an underscore before it. -/
def readDigits (p : Char → Bool) : Reader (List Char)
  | c :: cs =>
    if p c then
      let (ds, rest) := digitRun p cs
      some (c :: ds, rest)
    else none
  | [] => none

/-- Decimal digits without a zero in front, or a single zero. -/
def readWhole : Reader (List Char)
  | '0' :: cs => some (['0'], cs)
  | cs => readDigits isAsciiDigit cs

/-- The value of digits in a base, as far as it is used here a power of two. -/
def valueIn (base : Nat) (ds : List Char) : Nat :=
  ds.foldl (fun n d => base * n + (hexDigit? d).getD 0) 0

/-- Whether a character is a digit in a base. -/
def isDigitIn (base : Nat) (c : Char) : Bool :=
  (hexDigit? c).any (· < base)

/-- A natural number in a base, behind the letter for the base. -/
def readIn (base : Nat) (cs : List Char) : Option (Int × List Char) := do
  let (ds, rest) ← readDigits (isDigitIn base) cs
  return (← int64? (valueIn base ds), rest)

/-- An integer. -/
def readInteger : Reader Int
  | '0' :: 'x' :: cs => readIn 16 cs
  | '0' :: 'o' :: cs => readIn 8 cs
  | '0' :: 'b' :: cs => readIn 2 cs
  | cs => do
    let (minus, cs) := readSign cs
    let (ds, rest) ← readWhole cs
    return (← int64? (if minus then -(decimal ds : Int) else decimal ds), rest)

/-- The digits of a fraction; none if there is none. -/
def readFraction (cs : List Char) : List Char × List Char :=
  match cs with
  | '.' :: rest => (readDigits isAsciiDigit rest).getD ([], cs)
  | _ => ([], cs)

/-- The exponent, if there is one. -/
def readExponent (cs : List Char) : Option Int × List Char :=
  match cs with
  | c :: rest =>
    if c = 'e' ∨ c = 'E' then
      let (minus, rest) := readSign rest
      match readDigits isAsciiDigit rest with
      | some (ds, rest) => (some (if minus then -(decimal ds : Int) else decimal ds), rest)
      | none => (none, cs)
    else (none, cs)
  | [] => (none, cs)

/-- The text behind a word. -/
def word? (w : String) (cs : List Char) : Option (List Char) :=
  if w.toList.isPrefixOf cs then some (cs.drop w.length) else none

/-- A number with a fraction or an exponent, or one of the words for what is no number. -/
def readFloat : Reader Binary64 := fun cs =>
  let (minus, cs) := readSign cs
  match word? "inf" cs, word? "nan" cs with
  | some rest, _ => some (Binary64.infinity.signed minus, rest)
  | _, some rest => some (Binary64.notANumber.signed minus, rest)
  | none, none => do
    let (whole, cs) ← readWhole cs
    let (fraction, cs) := readFraction cs
    let (exponent, cs) := readExponent cs
    if fraction.isEmpty && exponent.isNone then none
    else
      let x := Binary64.ofDecimal (decimal (whole ++ fraction)) (exponent.getD 0 - fraction.length)
      if x.isInfinite && !minus then none else some (x.signed minus, cs)

/-! ### Dates and times -/

/-- Exactly `n` digits, with their value between two bounds. -/
def readField (n least most : Nat) : Reader Nat := fun cs =>
  let ds := cs.take n
  if ds.length = n ∧ ds.all isAsciiDigit ∧ least ≤ decimal ds ∧ decimal ds ≤ most then
    some (decimal ds, cs.drop n)
  else none

/-- The text behind a character. -/
def mark? (c : Char) : List Char → Option (List Char)
  | d :: cs => if d = c then some cs else none
  | [] => none

/-- A number in at least two digits. -/
def twoDigits (n : Nat) : List Char :=
  padZeros 2 (showNat n)

/-- A date. -/
def readDate : Reader (List Char) := fun cs => do
  let (year, cs) ← readField 4 0 9999 cs
  let cs ← mark? '-' cs
  let (month, cs) ← readField 2 1 12 cs
  let cs ← mark? '-' cs
  let (day, cs) ← readField 2 1 (daysInMonth year month) cs
  return (padZeros 4 (showNat year) ++ '-' :: twoDigits month ++ '-' :: twoDigits day, cs)

/-- A fraction of a second to nine digits, without zeros at its end. -/
def readSecondFraction (cs : List Char) : List Char × List Char :=
  match cs with
  | '.' :: rest =>
    let ds := rest.takeWhile isAsciiDigit
    if ds.isEmpty then ([], cs)
    else
      let kept := (((ds.take 9).reverse).dropWhile (· == '0')).reverse
      (if kept.isEmpty then [] else '.' :: kept, rest.drop ds.length)
  | _ => ([], cs)

/-- A time of day. -/
def readTime : Reader (List Char) := fun cs => do
  let (hour, cs) ← readField 2 0 23 cs
  let cs ← mark? ':' cs
  let (minute, cs) ← readField 2 0 59 cs
  let cs ← mark? ':' cs
  let (second, cs) ← readField 2 0 60 cs
  let (fraction, cs) := readSecondFraction cs
  return (twoDigits hour ++ ':' :: twoDigits minute ++ ':' :: twoDigits second ++ fraction, cs)

/-- The offset behind a time; empty if there is none. -/
def readOffset (cs : List Char) : List Char × List Char :=
  match cs with
  | 'Z' :: rest => (['Z'], rest)
  | 'z' :: rest => (['Z'], rest)
  | c :: rest =>
    if c = '+' ∨ c = '-' then
      let size? : Option (Nat × Nat × List Char) := do
        let (hours, rest) ← readField 2 0 23 rest
        let rest ← mark? ':' rest
        let (minutes, rest) ← readField 2 0 59 rest
        return (hours, minutes, rest)
      match size? with
      | some (hours, minutes, rest) =>
        let sign := if hours = 0 ∧ minutes = 0 then '+' else c
        (sign :: twoDigits hours ++ ':' :: twoDigits minutes, rest)
      | none => ([], cs)
    else ([], cs)
  | [] => ([], cs)

/-- The time behind a date, with its offset; empty if there is none. -/
def readTimeOfDate (cs : List Char) : List Char × List Char :=
  match cs with
  | c :: rest =>
    if c = 'T' ∨ c = 't' ∨ c = ' ' then
      match readTime rest with
      | some (time, rest) =>
        let (offset, rest) := readOffset rest
        ('T' :: time ++ offset, rest)
      | none => ([], cs)
    else ([], cs)
  | [] => ([], cs)

/-- A date, a time, or both, with or without an offset. -/
def readMoment : Reader String := fun cs =>
  match readDate cs with
  | some (date, cs) =>
    let (time, cs) := readTimeOfDate cs
    some (String.ofList (date ++ time), cs)
  | none => (readTime cs).map fun (time, cs) => (String.ofList time, cs)

/-! ### Spelled moments -/

/-- A time of day that a text spells, which may be as late as the hour 24. -/
def readSpelledTime : Reader (List Char) := fun cs => do
  let (hour, cs) ← readField 2 0 24 cs
  let cs ← mark? ':' cs
  let (minute, cs) ← readField 2 0 59 cs
  let cs ← mark? ':' cs
  let (second, cs) ← readField 2 0 60 cs
  let time := twoDigits hour ++ ':' :: twoDigits minute ++ ':' :: twoDigits second
  match cs, readSecondFraction cs with
  | '.' :: _, (fraction, rest) =>
    if rest.length < cs.length then some (time ++ fraction, rest) else none
  | _, _ => some (time, cs)

/-- The offset that a text spells, if it is one: at most a day, in hours and minutes, of which there
may be more than 59. -/
def spelledOffset? : List Char → Option (List Char)
  | [] => some []
  | ['Z'] => some ['Z']
  | ['z'] => some ['Z']
  | c :: cs => do
    if c = '+' ∨ c = '-' then
      let (hours, cs) ← readField 2 0 99 cs
      let cs ← mark? ':' cs
      let (minutes, cs) ← readField 2 0 99 cs
      let total := 60 * hours + minutes
      if cs.isEmpty ∧ total ≤ 1440 then
        let sign := if total = 0 then '+' else c
        some (sign :: twoDigits (total / 60) ++ ':' :: twoDigits (total % 60))
      else none
    else none

/-- The moment that a whole text spells, as normalised text. An offset may follow a date or a date
with a time. -/
def spelledMoment? (s : String) : Option String :=
  let cs := s.toList
  if cs[2]? = some ':' then do
    let (time, rest) ← readSpelledTime cs
    if rest.isEmpty then some (String.ofList time) else none
  else do
    let (date, cs) ← readDate cs
    match cs with
    | c :: rest =>
      if c = 'T' ∨ c = 't' ∨ c = ' ' then
        let (time, rest) ← readSpelledTime rest
        return String.ofList (date ++ 'T' :: time ++ (← spelledOffset? rest))
      else
        return String.ofList (date ++ (← spelledOffset? cs))
    | [] => return String.ofList date

end CodeGraph.Toml
