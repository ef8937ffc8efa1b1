import CodeGraph.Decimal.Binary64
import CodeGraph.Text.Number

/-!
# Rounding to double precision

* `Binary64.ofRatio`: the double nearest to a fraction, a tie going to the even neighbour;
* `Binary64.ofDecimal`: the double nearest to a decimal number;
* `Binary64.roundToNat`: the natural number nearest to a double, a tie going up.

All of it is exact arithmetic on natural numbers.
-/

namespace CodeGraph.Binary64

/-- The bits of infinity. -/
def infinityBits : Nat := 2047 * twoTo 52

/-- Positive infinity. -/
def infinity : Binary64 := ⟨UInt64.ofNat infinityBits⟩

/-- A number that is none. -/
def notANumber : Binary64 := ⟨UInt64.ofNat (infinityBits + twoTo 51)⟩

/-- A fraction divided by `2 ^ q`. -/
def scaled (num den : Nat) (q : Int) : Nat × Nat :=
  if 0 ≤ q then (num, den * twoTo q.toNat) else (num * twoTo (-q).toNat, den)

/-- The exponent at which a fraction has fifty-three binary digits before the point, or the least one
of doubles. -/
def exponentOf (num den : Nat) : Int :=
  let q : Int := (Nat.log2 num : Int) - Nat.log2 den - 52
  let (n, d) := scaled num den q
  max (if n < twoTo 52 * d then q - 1 else q) (-1074)

/-- The quotient rounded to the nearest natural number, a tie going to the even one. -/
def nearestEven (num den : Nat) : Nat :=
  let m := num / den
  let r := num % den
  if den < 2 * r ∨ (2 * r = den ∧ m % 2 = 1) then m + 1 else m

/-- The double nearest to a fraction; infinity if it is too large. -/
def ofRatio (num den : Nat) : Binary64 :=
  if num = 0 then ⟨0⟩
  else
    let q := exponentOf num den
    let (n, d) := scaled num den q
    let bits := (q + 1074).toNat * twoTo 52 + nearestEven n d
    ⟨UInt64.ofNat (min bits infinityBits)⟩

/-- The number of decimal digits of a number. -/
def digitCount (n : Nat) : Nat := (Text.showNat n).length

/-- The double nearest to `n · 10 ^ e`. Numbers far out of range are not calculated. -/
def ofDecimal (n : Nat) (e : Int) : Binary64 :=
  if n = 0 then ⟨0⟩
  else if 400 < digitCount n + e then infinity
  else if digitCount n + e < -400 then ⟨0⟩
  else if 0 ≤ e then ofRatio (n * tenTo e.toNat) 1
  else ofRatio n (tenTo (-e).toNat)

/-- The natural number nearest to a double, a tie going up. Negative numbers and those that are none
count as zero, and `most` is the greatest result. -/
def roundToNat (most : Nat) (x : Binary64) : Nat :=
  if x.isNaN || x.isNegative then 0
  else if x.isInfinite then most
  else
    let (m, q) := x.magnitude
    let (n, d) := scaled m 1 (-q)
    min ((2 * n + d) / (2 * d)) most

end CodeGraph.Binary64
