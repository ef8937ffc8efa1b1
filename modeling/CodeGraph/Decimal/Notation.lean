import CodeGraph.Decimal.Shortest

/-!
# How numbers are written

The shortest digits of a number can be laid out in several ways. A `Layout` says where positional
notation ends and how the rest is spelled; `write` writes a number in a layout.

* `Layout.document`: numbers of a document;
* `Layout.plain`: numbers as text of their own, always positional;
* `Layout.detailed`: numbers inside the description of a composite value.
-/

namespace CodeGraph.Decimal

/-- How the digits of a number are laid out. The exponent is the one of the first digit. -/
structure Layout where
  /-- The least exponent that is written positionally, if there is one. -/
  least : Option Int
  /-- The greatest exponent that is written positionally, if there is one. -/
  greatest : Option Int
  /-- Whether a whole number written positionally ends in `.0`. -/
  pointZero : Bool
  /-- Whether a positive exponent has a plus sign. -/
  plusSign : Bool
  /-- Which of two equally near decimals is taken. -/
  tie : Tie

/-- Documents: positional from `1e-5` to below `1e16`, a fraction always, exponents with a sign. -/
def Layout.document : Layout := ⟨some (-5), some 15, true, true, .even⟩

/-- Plain text: always positional, whole numbers without a point. -/
def Layout.plain : Layout := ⟨none, none, false, false, .up⟩

/-- Descriptions: positional from `1e-4` to below `1e16`, a fraction always. -/
def Layout.detailed : Layout := ⟨some (-4), some 15, true, false, .up⟩

/-- Whether an exponent is written positionally. -/
def Layout.isPositional (l : Layout) (exponent : Int) : Bool :=
  l.least.all (· ≤ exponent) && l.greatest.all (exponent ≤ ·)

/-- Digits written with a point and as many zeros as it takes. -/
def positional (l : Layout) (ds : List Char) (point : Int) : List Char :=
  if point ≤ 0 then "0.".toList ++ List.replicate (-point).toNat '0' ++ ds
  else if ds.length ≤ point.toNat then
    ds ++ List.replicate (point.toNat - ds.length) '0' ++ if l.pointZero then ".0".toList else []
  else ds.take point.toNat ++ '.' :: ds.drop point.toNat

/-- Digits written with an exponent. -/
def exponential (l : Layout) (ds : List Char) (exponent : Int) : List Char :=
  let mantissa := match ds with
    | d :: r@(_ :: _) => d :: '.' :: r
    | _ => ds
  mantissa ++ 'e' :: (if 0 ≤ exponent ∧ l.plusSign then ['+'] else []) ++ Text.showInt exponent

/-- The digits of a number in a layout. -/
def Digits.show (l : Layout) (d : Digits) : List Char :=
  let ds := Text.showNat d.digits
  if l.isPositional (d.point - 1) then positional l ds d.point
  else exponential l ds (d.point - 1)

/-- A number in a layout. -/
def write (l : Layout) (x : Binary64) : String :=
  let sign : List Char := if x.isNegative then ['-'] else []
  if x.isNaN then "NaN"
  else if x.isInfinite then String.ofList (sign ++ "inf".toList)
  else if x.isZero then String.ofList (sign ++ if l.pointZero then "0.0".toList else ['0'])
  else
    let (m, q) := x.magnitude
    String.ofList (sign ++ (shortest l.tie m q).show l)

end CodeGraph.Decimal
