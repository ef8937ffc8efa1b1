import CodeGraph.Power

/-!
# Double-precision numbers

A `Binary64` is a floating-point number given by its sixty-four bits, so that equality is equality
of bits and every digit that is printed is computed exactly. A finite number is `± m · 2 ^ q`.

* `isNegative`, `isNaN`, `isInfinite`, `isZero`: the kinds of numbers;
* `magnitude`: the pair `(m, q)` of a finite number;
* `ofNat`, `mul`, `div`: correctly rounded arithmetic.
-/

namespace CodeGraph

/-- A double-precision number by its bits. -/
structure Binary64 where
  /-- Sign, exponent and fraction, as in the interchange format. -/
  bits : UInt64
deriving DecidableEq, Repr, Inhabited

namespace Binary64

/-- The number as the machine calculates with it. -/
def toFloat (x : Binary64) : Float := Float.ofBits x.bits

/-- The bits of a machine number. -/
def ofFloat (x : Float) : Binary64 := ⟨x.toBits⟩

/-- The nearest number to a 64-bit word, a tie going to the even neighbour. -/
def ofWord (n : UInt64) : Binary64 := ofFloat n.toFloat

/-- The number nearest to `10 ^ k`. -/
def powerOfTen (k : Nat) : Binary64 := ofFloat (Float.ofScientific 1 false k)

/-- The rounded product. -/
def mul (x y : Binary64) : Binary64 := ofFloat (x.toFloat * y.toFloat)

/-- The rounded quotient. -/
def div (x y : Binary64) : Binary64 := ofFloat (x.toFloat / y.toFloat)

/-- Whether the sign bit is set. -/
def isNegative (x : Binary64) : Bool := twoTo 63 ≤ x.bits.toNat

/-- The number with its sign bit flipped. -/
def neg (x : Binary64) : Binary64 := ⟨x.bits ^^^ 0x8000000000000000⟩

/-- A number with a sign in front of it. -/
def signed (x : Binary64) (minus : Bool) : Binary64 := if minus then x.neg else x

/-- The biased exponent. -/
def exponentField (x : Binary64) : Nat := x.bits.toNat / twoTo 52 % twoTo 11

/-- The bits behind the binary point. -/
def fractionField (x : Binary64) : Nat := x.bits.toNat % twoTo 52

/-- Whether this is not a number. -/
def isNaN (x : Binary64) : Bool := x.exponentField == 2047 && x.fractionField != 0

/-- Whether this is an infinity. -/
def isInfinite (x : Binary64) : Bool := x.exponentField == 2047 && x.fractionField == 0

/-- Whether this is zero of either sign. -/
def isZero (x : Binary64) : Bool := x.exponentField == 0 && x.fractionField == 0

/-- The pair `(m, q)` such that a finite number is `± m · 2 ^ q`. -/
def magnitude (x : Binary64) : Nat × Int :=
  if x.exponentField = 0 then (x.fractionField, -1074)
  else (twoTo 52 + x.fractionField, (x.exponentField : Int) - 1075)

end Binary64

end CodeGraph
