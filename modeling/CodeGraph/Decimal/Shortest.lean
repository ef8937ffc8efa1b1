import CodeGraph.Decimal.Binary64
import CodeGraph.Text.Number

/-!
# The shortest decimal that reads back

A finite number stands for every real that rounds to it. `shortest` finds the decimal with the
fewest digits among those reals, and among several with that many digits the one nearest to the
number. It tries the grids of one, two, … seventeen digits; on each grid only the two neighbours of
the number can be the answer.

* `Span`: the reals that round to a number, over a common denominator;
* `Span.contains`: whether a decimal is one of them;
* `shortest`: digits and position of the point.
-/

namespace CodeGraph.Decimal

/-- The number that is written `0.d₁d₂… · 10 ^ point`, its digits being those of `digits`. -/
structure Digits where
  /-- The digits without zeros at either end, as one natural number. -/
  digits : Nat
  /-- The power of ten of the point. -/
  point : Int
deriving DecidableEq, Repr

/-- Which of two equally near decimals is taken. -/
inductive Tie
  /-- The larger one. -/
  | up
  /-- The one with an even last digit. -/
  | even
deriving DecidableEq, Repr

/-- The reals that round to a positive number: from `low / unit` to `high / unit` around
`mid / unit`, the ends included if `closed`. -/
structure Span where
  low : Nat
  mid : Nat
  high : Nat
  unit : Nat
  closed : Bool

/-- The reals that round to `m · 2 ^ q`. Below a power of two the next number is half as far away,
unless the numbers are already as dense as they get. -/
def Span.ofMagnitude (m : Nat) (q : Int) : Span :=
  let scale := twoTo (q - 2).toNat
  let below := if m = twoTo 52 ∧ -1074 < q then 1 else 2
  { low := (4 * m - below) * scale
    mid := 4 * m * scale
    high := (4 * m + 2) * scale
    unit := twoTo (2 - q).toNat
    closed := m % 2 == 0 }

/-- Whether the decimal `c · 10 ^ k` rounds to the number. -/
def Span.contains (s : Span) (c : Nat) (k : Int) : Bool :=
  let x := c * tenTo k.toNat * s.unit
  let scale := tenTo (-k).toNat
  if s.closed then s.low * scale ≤ x && x ≤ s.high * scale
  else s.low * scale < x && x < s.high * scale

/-- The number of digits before the point: the `p` with `10 ^ (p - 1) ≤ mid / unit < 10 ^ p`. -/
def Span.point (s : Span) : Int :=
  if s.unit ≤ s.mid then (Text.showNat (s.mid / s.unit)).length
  else
    let zeros := (Text.showNat (s.unit / s.mid)).length - 1
    if s.unit ≤ s.mid * tenTo zeros then 1 - (zeros : Int) else -(zeros : Int)

/-- The one of the neighbours `c` and `c + 1` on the grid of `10 ^ k` that is nearer. -/
def Span.nearer (s : Span) (tie : Tie) (c : Nat) (k : Int) : Nat :=
  let scale := tenTo (-k).toNat
  match compare ((2 * c + 1) * tenTo k.toNat * s.unit) (2 * s.mid * scale) with
  | .lt => c + 1
  | .gt => c
  | .eq =>
    match tie with
    | .up => c + 1
    | .even => if c % 2 = 0 then c else c + 1

/-- The decimal on the grid of `10 ^ k` that rounds to the number and is nearest to it. -/
def Span.onGrid? (s : Span) (tie : Tie) (k : Int) : Option Nat :=
  let c := s.mid * tenTo (-k).toNat / (s.unit * tenTo k.toNat)
  match s.contains c k, s.contains (c + 1) k with
  | true, true => some (s.nearer tie c k)
  | true, false => some c
  | false, true => some (c + 1)
  | false, false => none

/-- A number without the zeros at its end, and how many of its digits these were. -/
def stripZeros : Nat → Nat → Nat
  | 0, n => n
  | fuel + 1, n => if n % 10 = 0 ∧ n ≠ 0 then stripZeros fuel (n / 10) else n

/-- The decimal `c · 10 ^ k`. -/
def Digits.ofGrid (c : Nat) (k : Int) : Digits :=
  { digits := stripZeros (Text.showNat c).length c
    point := k + (Text.showNat c).length }

/-- The shortest decimal that rounds to `m · 2 ^ q`, for a positive `m`. Seventeen digits always
suffice. -/
def shortest (tie : Tie) (m : Nat) (q : Int) : Digits :=
  let s := Span.ofMagnitude m q
  let grid (n : Nat) : Int := s.point - n
  match ((List.range 17).map (· + 1)).findSome? fun n =>
      (s.onGrid? tie (grid n)).map (Digits.ofGrid · (grid n)) with
  | some d => d
  | none => Digits.ofGrid (s.mid * tenTo (-grid 17).toNat / (s.unit * tenTo (grid 17).toNat)) (grid 17)

end CodeGraph.Decimal
