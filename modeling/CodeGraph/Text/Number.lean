import CodeGraph.Power
import CodeGraph.Text.Class

/-!
# Numerals

Numbers written in ASCII digits: `decimal?`, `integer?` and `hexadecimal?` read them, `showNat` and
`showInt` write them. A digit string has a value at any length, so readers that have a bound test
the value.
-/

namespace CodeGraph.Text

/-- The value of an ASCII digit. -/
def digitValue (c : Char) : Nat :=
  c.toNat - 0x30

/-- The value of a digit string read on from `n`. -/
def decimalFrom (n : Nat) (ds : List Char) : Nat :=
  ds.foldl (fun n d => 10 * n + digitValue d) n

/-- The value of a digit string; that of the empty one is zero. -/
def decimal (ds : List Char) : Nat :=
  decimalFrom 0 ds

/-- The value of a string of ASCII digits, if it is one and not empty. -/
def decimal? (ds : List Char) : Option Nat :=
  if ds.isEmpty || !ds.all isAsciiDigit then none else some (decimal ds)

/-- Whether there is a minus sign, and what follows a sign of either kind. -/
def readSign : List Char → Bool × List Char
  | '-' :: cs => (true, cs)
  | '+' :: cs => (false, cs)
  | cs => (false, cs)

/-- The value of a string of ASCII digits that a sign may precede. -/
def integer? (cs : List Char) : Option Int :=
  let (minus, ds) := readSign cs
  (decimal? ds).map fun n => if minus then -(n : Int) else n

/-- An integer, if it fits sixty-four bits. -/
def int64? (n : Int) : Option Int :=
  if -(twoTo 63 : Int) ≤ n ∧ n < twoTo 63 then some n else none

/-- The value of a hexadecimal digit of either case. -/
def hexDigit? (c : Char) : Option Nat :=
  let n := c.toNat
  if 0x30 ≤ n ∧ n ≤ 0x39 then some (n - 0x30)
  else if 0x41 ≤ n ∧ n ≤ 0x46 then some (n - 0x37)
  else if 0x61 ≤ n ∧ n ≤ 0x66 then some (n - 0x57)
  else none

/-- The value of a hexadecimal digit string read on from `n`. -/
def hexadecimalFrom? (n : Nat) : List Char → Option Nat
  | [] => some n
  | c :: cs => (hexDigit? c).bind fun d => hexadecimalFrom? (16 * n + d) cs

/-- The value of a non-empty string of hexadecimal digits. -/
def hexadecimal? (cs : List Char) : Option Nat :=
  if cs.isEmpty then none else hexadecimalFrom? 0 cs

/-- A natural number in decimal. -/
def showNat (n : Nat) : List Char :=
  Nat.toDigits 10 n

/-- An integer in decimal. -/
def showInt (n : Int) : List Char :=
  if n < 0 then '-' :: showNat n.natAbs else showNat n.natAbs

/-- A natural number in lower-case hexadecimal. -/
def showHex (n : Nat) : List Char :=
  Nat.toDigits 16 n

/-- A text filled up with zeros on the left to a least width. -/
def padZeros (width : Nat) (cs : List Char) : List Char :=
  List.replicate (width - cs.length) '0' ++ cs

end CodeGraph.Text
