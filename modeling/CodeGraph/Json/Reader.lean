import CodeGraph.Json.Value

/-!
# Reading JSON text

A reader takes a value from the front of a text and returns what is left. It stops at the first
fault, and a fault says no more than how the text fails:

* `malformed`: no JSON, or a number or character that cannot be represented;
* `truncated`: the text ends too early;
* `mismatch`: JSON, but not the data that was asked for.

`document` reads any value, `skip` passes over one that nobody asked for. A value that is passed
over may nest to any depth, hold any number and escape half a surrogate pair.
-/

namespace CodeGraph.Json

open Text

/-- How a text fails to give the data that was asked for. -/
inductive Fault
  /-- The text is no JSON. -/
  | malformed
  /-- The text ends too early. -/
  | truncated
  /-- The text is JSON of another shape. -/
  | mismatch
deriving DecidableEq, Repr

/-- What a reader returns: as a rule a value and the text behind it. -/
abbrev Result := Except Fault

/-- How deep the values of a document may nest. -/
def deepest : Nat := 127

/-- White space between the parts of a document. -/
def isGap (c : Char) : Bool :=
  c == ' ' || c == '\n' || c == '\t' || c == '\r'

/-- The text behind the white space at its front. -/
def skipGap (cs : List Char) : List Char :=
  cs.dropWhile isGap

/-- What is wrong if something else was expected at the front of a text. -/
def unexpected : List Char → Fault
  | [] => .truncated
  | _ => .malformed

/-- The text behind a given word. -/
def readWord : List Char → List Char → Result (List Char)
  | [], cs => .ok cs
  | _ :: _, [] => .error .truncated
  | k :: ks, c :: cs => if c = k then readWord ks cs else .error .malformed

/-! ### Texts -/

/-- The number of bytes of a text. -/
def byteCount (cs : List Char) : Nat :=
  cs.foldl (fun n c => n + c.utf8Size) 0

/-- The value of the four hexadecimal digits at the front of a text. Fewer than four bytes are a text
that ends too early. -/
def hexWord (cs : List Char) : Result Nat :=
  if byteCount (cs.take 4) < 4 then .error .truncated
  else
    match hexadecimal? (cs.take 4) with
    | some n => if (cs.take 4).length = 4 then .ok n else .error .malformed
    | none => .error .malformed

/-- The characters that an escape with one letter stands for. -/
def shortEscapes : List (Char × Char) :=
  [('"', '"'), ('\\', '\\'), ('/', '/'), ('b', Char.ofNat 8), ('f', Char.ofNat 12), ('n', '\n'),
    ('r', '\r'), ('t', '\t')]

/-- The character that the two halves of a surrogate pair stand for. -/
def joinSurrogates (high low : Nat) : Char :=
  Char.ofNat ((high - 0xD800) * 0x400 + (low - 0xDC00) + 0x10000)

/-- The second half of a surrogate pair, escaped at the front of a text. -/
def lowSurrogate : List Char → Result Nat
  | '\\' :: 'u' :: cs => do
    let n ← hexWord cs
    if 0xDC00 ≤ n ∧ n ≤ 0xDFFF then return n else throw .malformed
  | ['\\'] => .error .truncated
  | cs => .error (unexpected cs)

/-- The character that an escape stands for, given the text behind its backslash, and how many
characters of that text the escape takes. -/
def escape : List Char → Result (Char × Nat)
  | [] => .error .truncated
  | 'u' :: cs => do
    let n ← hexWord cs
    if 0xDC00 ≤ n ∧ n ≤ 0xDFFF then throw .malformed
    else if 0xD800 ≤ n ∧ n ≤ 0xDBFF then
      return (joinSurrogates n (← lowSurrogate (cs.drop 4)), 11)
    else return (Char.ofNat n, 5)
  | c :: _ =>
    match shortEscapes.lookup c with
    | some c => .ok (c, 1)
    | none => .error .malformed

/-- How many characters an escape takes, its meaning aside. -/
def escapeLength : List Char → Result Nat
  | [] => .error .truncated
  | 'u' :: cs => do
    let _ ← hexWord cs
    return 5
  | c :: _ => if (shortEscapes.lookup c).isSome then .ok 1 else .error .malformed

/-- The rest of a quoted text; `acc` holds what is already read, last character first. -/
def readQuoted (acc : List Char) (cs : List Char) : Result (String × List Char) :=
  match cs with
  | [] => .error .truncated
  | c :: cs =>
    if c = '"' then .ok (String.ofList acc.reverse, cs)
    else if c = '\\' then
      match escape cs with
      | .ok (c, n) => readQuoted (c :: acc) (cs.drop n)
      | .error f => .error f
    else if c.toNat < 0x20 then .error .malformed
    else readQuoted (c :: acc) cs
termination_by cs.length
decreasing_by
  · simp only [List.length_drop, List.length_cons]
    omega
  · simp

/-- The text behind a quoted text that nobody asked for. -/
def skipQuoted (cs : List Char) : Result (List Char) :=
  match cs with
  | [] => .error .truncated
  | c :: cs =>
    if c = '"' then .ok cs
    else if c = '\\' then
      match escapeLength cs with
      | .ok n => skipQuoted (cs.drop n)
      | .error f => .error f
    else if c.toNat < 0x20 then .error .malformed
    else skipQuoted cs
termination_by cs.length
decreasing_by
  · simp only [List.length_drop, List.length_cons]
    omega
  · simp

/-! ### Numbers -/

/-- A number as it is written. -/
structure Numeral where
  /-- Whether there is a minus sign. -/
  negative : Bool
  /-- The digits before the point. -/
  whole : List Char
  /-- The digits behind the point. -/
  fraction : List Char
  /-- Whether the exponent has a minus sign, and its digits. -/
  exponent : Option (Bool × List Char)
  /-- Whether there is a point. -/
  hasPoint : Bool

/-- The digits at the front of a text, at least one. -/
def readDigits (cs : List Char) : Result (List Char × List Char) :=
  let ds := cs.takeWhile isAsciiDigit
  let rest := cs.dropWhile isAsciiDigit
  if ds.isEmpty then .error (unexpected rest) else .ok (ds, rest)

/-- The digits before the point: no zero stands before another digit. -/
def readWhole (cs : List Char) : Result (List Char × List Char) := do
  let (ds, rest) ← readDigits cs
  match ds with
  | '0' :: _ :: _ => throw .malformed
  | _ => return (ds, rest)

/-- The digits behind the point, if there is one. -/
def readFraction : List Char → Result (Option (List Char) × List Char)
  | '.' :: cs => do
    let (ds, rest) ← readDigits cs
    return (some ds, rest)
  | cs => .ok (none, cs)

/-- The sign and the digits of the exponent, if there is one. -/
def readExponent : List Char → Result (Option (Bool × List Char) × List Char)
  | c :: cs =>
    if c = 'e' ∨ c = 'E' then do
      let (minus, cs) := match cs with
        | '+' :: r => (false, r)
        | '-' :: r => (true, r)
        | _ => (false, cs)
      let (ds, rest) ← readDigits cs
      return (some (minus, ds), rest)
    else .ok (none, c :: cs)
  | [] => .ok (none, [])

/-- The number at the front of a text, as it is written. -/
def readNumeral (cs : List Char) : Result (Numeral × List Char) := do
  let (negative, cs) := match cs with
    | '-' :: r => (true, r)
    | _ => (false, cs)
  let (whole, cs) ← readWhole cs
  let (fraction, cs) ← readFraction cs
  let (exponent, cs) ← readExponent cs
  return (⟨negative, whole, fraction.getD [], exponent, fraction.isSome⟩, cs)

/-- The greatest 64-bit word. -/
def greatestWord : Nat := twoTo 64 - 1

/-- The significand of a numeral as far as it fits a word: the digits that fit, and how many follow
them. -/
def significand (n : Nat) : List Char → Nat × List Char
  | [] => (n, [])
  | d :: ds =>
    let n' := 10 * n + digitValue d
    if n' ≤ greatestWord then significand n' ds else (n, d :: ds)

/-- The double `n · 10 ^ e`, computed from the nearest double to `n` by one multiplication or
division, and by divisions by `1e308` before it while `e` is out of range. `none` if it is out of
range itself. The last argument bounds the divisions: four of them reach zero. -/
def scale (x : Binary64) (e : Int) : Nat → Option Binary64
  | 0 => some x
  | fuel + 1 =>
    if e.natAbs ≤ 308 then
      if 0 ≤ e then
        let y := x.mul (.powerOfTen e.natAbs)
        if y.isInfinite then none else some y
      else some (x.div (.powerOfTen e.natAbs))
    else if x.isZero then some x
    else if 0 ≤ e then none
    else scale (x.div (.powerOfTen 308)) (e + 308) fuel

/-- The greatest exponent that is calculated with. -/
def greatestExponent : Nat := twoTo 31 - 1

/-- The exponent of a numeral after `start` digits are accounted for, within the range that is
calculated with. -/
def Numeral.power (start : Int) (minus : Bool) (e : Nat) : Int :=
  if minus then max (start - e) (-(greatestExponent : Int) - 1)
  else min (start + e) greatestExponent

/-- The double that a numeral stands for, if it is in range. Digits that no longer fit a word count
by their place only before the point, and not at all behind it. -/
def Numeral.float? (n : Numeral) : Option Binary64 :=
  let (whole, excess) := significand 0 n.whole
  let (digits, dropped) := significand whole n.fraction
  let start : Int := excess.length - (n.fraction.length - dropped.length : Nat)
  let x := Binary64.ofWord (UInt64.ofNat digits)
  match n.exponent with
  | none => (scale x start 8).map (Binary64.signed · n.negative)
  | some (minus, ds) =>
    if decimal ds ≤ greatestExponent then
      (scale x (Numeral.power start minus (decimal ds)) 8).map (Binary64.signed · n.negative)
    else if digits ≠ 0 ∧ !minus then none
    else some (Binary64.signed ⟨0⟩ n.negative)

/-- Whether a numeral is written as an integer. -/
def Numeral.isWhole (n : Numeral) : Bool :=
  !n.hasPoint && n.exponent.isNone

/-- The number that a numeral stands for: an integer if it is written as one, has no minus sign
before a zero and fits sixty-four bits, else a double. -/
def Numeral.number? (n : Numeral) : Option Number :=
  let v := decimal n.whole
  if n.isWhole ∧ !n.negative ∧ v ≤ greatestWord then some (.int v)
  else if n.isWhole ∧ n.negative ∧ 0 < v ∧ v ≤ twoTo 63 then some (.int (-v))
  else n.float?.map .float

/-- The number at the front of a text. -/
def readNumber (cs : List Char) : Result (Number × List Char) := do
  let (n, rest) ← readNumeral cs
  match n.number? with
  | some x => return (x, rest)
  | none => throw .malformed

/-- The text behind a number that nobody asked for; here a number that ends too early is just
malformed. -/
def skipNumber (cs : List Char) : Result (List Char) :=
  match readNumeral cs with
  | .ok (_, rest) => .ok rest
  | .error _ => .error .malformed

/-! ### Lists and objects -/

/-- The items of a list from the first one on, given how to read an item. -/
def readItems {α : Type} (item : List Char → Result (α × List Char)) :
    Nat → List Char → Result (List α × List Char)
  | 0, _ => .error .malformed
  | fuel + 1, cs => do
    let (a, rest) ← item cs
    match skipGap rest with
    | ']' :: rest => return ([a], rest)
    | ',' :: rest =>
      match skipGap rest with
      | ']' :: _ => throw .malformed
      | [] => throw .truncated
      | rest => do
        let (as, rest) ← readItems item fuel rest
        return (a :: as, rest)
    | rest => throw (unexpected rest)

/-- A list behind its opening bracket, given how to read an item. -/
def readList {α : Type} (item : List Char → Result (α × List Char)) (cs : List Char) :
    Result (List α × List Char) :=
  match skipGap cs with
  | ']' :: rest => .ok ([], rest)
  | [] => .error .truncated
  | rest => readItems item (rest.length + 1) rest

/-- The text behind the colon of a member. -/
def readColon (cs : List Char) : Result (List Char) :=
  match skipGap cs with
  | ':' :: rest => .ok (skipGap rest)
  | rest => .error (unexpected rest)

/-- The members of an object from the first one on. `member` reads one behind the quote that opens
its key, and adds it to what is already read. -/
def readMembers {σ : Type} (member : σ → List Char → Result (σ × List Char)) :
    Nat → σ → List Char → Result (σ × List Char)
  | 0, _, _ => .error .malformed
  | fuel + 1, s, cs =>
    match cs with
    | '"' :: cs => do
      let (s, rest) ← member s cs
      match skipGap rest with
      | '}' :: rest => return (s, rest)
      | ',' :: rest =>
        match skipGap rest with
        | [] => throw .truncated
        | rest => readMembers member fuel s rest
      | rest => throw (unexpected rest)
    | _ => .error .malformed

/-- An object behind its opening brace. -/
def readObject {σ : Type} (member : σ → List Char → Result (σ × List Char)) (s : σ)
    (cs : List Char) : Result (σ × List Char) :=
  match skipGap cs with
  | '}' :: rest => .ok (s, rest)
  | [] => .error .truncated
  | rest => readMembers member (rest.length + 1) s rest

/-! ### Any value -/

/-- Reads what does not nest. -/
def readScalar (cs : List Char) : Result (Json × List Char) :=
  match cs with
  | [] => .error .truncated
  | c :: rest =>
    if c = 'n' then (readWord "ull".toList rest).map (.null, ·)
    else if c = 't' then (readWord "rue".toList rest).map (.bool true, ·)
    else if c = 'f' then (readWord "alse".toList rest).map (.bool false, ·)
    else if c = '"' then (readQuoted [] rest).map fun (s, rest) => (.text s, rest)
    else if c = '-' ∨ isAsciiDigit c then (readNumber cs).map fun (n, rest) => (.number n, rest)
    else .error .malformed

/-- Any value at the front of a text, nested at most to the given depth. -/
def readValue : Nat → List Char → Result (Json × List Char)
  | 0, cs =>
    match cs with
    | '[' :: _ => .error .malformed
    | '{' :: _ => .error .malformed
    | _ => readScalar cs
  | depth + 1, cs =>
    match cs with
    | '[' :: rest => (readList (readValue depth) rest).map fun (js, rest) => (.list js, rest)
    | '{' :: rest =>
      (readObject (fun d cs => do
        let (key, cs) ← readQuoted [] cs
        let cs ← readColon cs
        let (j, cs) ← readValue depth cs
        return (d.insert key j, cs)) Dict.empty rest).map fun (d, rest) => (ofDict d, rest)
    | _ => readScalar cs

/-- The text behind a value that does not nest and that nobody asked for. -/
def skipScalar (cs : List Char) : Result (List Char) :=
  match cs with
  | [] => .error .truncated
  | c :: rest =>
    if c = 'n' then readWord "ull".toList rest
    else if c = 't' then readWord "rue".toList rest
    else if c = 'f' then readWord "alse".toList rest
    else if c = '"' then skipQuoted rest
    else if c = '-' ∨ isAsciiDigit c then skipNumber cs
    else .error .malformed

/-- The text behind a value that nobody asked for. The first argument bounds the nesting. -/
def skipValue : Nat → List Char → Result (Unit × List Char)
  | 0, _ => .error .malformed
  | fuel + 1, cs =>
    match cs with
    | '[' :: rest => (readList (skipValue fuel) rest).map fun (_, rest) => ((), rest)
    | '{' :: rest =>
      readObject (fun _ cs => do
        let cs ← skipQuoted cs
        let cs ← readColon cs
        skipValue fuel cs) () rest
    | _ => (skipScalar cs).map ((), ·)

/-- The text behind a value that nobody asked for. -/
def skip (cs : List Char) : Result (List Char) :=
  (skipValue (cs.length + 1) cs).map Prod.snd

/-- Reads a whole text, with nothing but white space around the value. -/
def readAll {α : Type} (value : List Char → Result (α × List Char)) (text : String) :
    Result α := do
  let (a, rest) ← value (skipGap text.toList)
  if (skipGap rest).isEmpty then return a else throw .malformed

/-- The value of a text. -/
def document (text : String) : Result Json :=
  readAll (readValue deepest) text

end CodeGraph.Json
