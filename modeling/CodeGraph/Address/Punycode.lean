import CodeGraph.Text.Class

/-!
# Punycode

A label of a domain that holds characters beyond ASCII is written in ASCII: first its ASCII
characters, then, behind a hyphen, where the others are inserted and which they are. Each insertion
is one number, in digits whose weights adapt to the numbers before it.

* `readNumber`: one number in variable weights, which takes at least a character of the text
  (`length_readNumber_lt`);
* `decode`: the label that a text stands for.
-/

namespace CodeGraph.Punycode

/-- The value of a digit: letters of either case, then the ten ASCII digits. -/
def digit? (c : Char) : Option Nat :=
  let n := c.toNat
  if 0x61 ≤ n ∧ n ≤ 0x7A then some (n - 0x61)
  else if 0x41 ≤ n ∧ n ≤ 0x5A then some (n - 0x41)
  else if 0x30 ≤ n ∧ n ≤ 0x39 then some (n - 0x30 + 26)
  else none

/-- The least value of a digit at place `place` that another digit follows. -/
def threshold (place bias : Nat) : Nat :=
  if place ≤ bias then 1 else if bias + 26 ≤ place then 26 else place - bias

/-- Divides a number until it is small, and counts 36 for each division. -/
def reduce (n count : Nat) : Nat × Nat :=
  if 455 < n then reduce (n / 35) (count + 36) else (n, count)
termination_by n
decreasing_by omega

/-- The bias for the number after `delta`, of which the label then has `length` characters. -/
def adapt (delta length : Nat) (first : Bool) : Nat :=
  let start := if first then delta / 700 else delta / 2
  let (rest, count) := reduce (start + start / length) 0
  count + 36 * rest / (rest + 38)

/-- A number at the front of a text, added to `n`. The next digit is the one at `place` and counts
`weight` times. -/
def readNumber (bias : Nat) : Nat → Nat → Nat → List Char → Option (Nat × List Char)
  | _, _, _, [] => none
  | place, weight, n, c :: cs =>
    match digit? c with
    | none => none
    | some d =>
      let t := threshold place bias
      if d < t then some (n + d * weight, cs)
      else readNumber bias (place + 36) (weight * (36 - t)) (n + d * weight) cs

theorem length_readNumber_lt {bias place weight n : Nat} {cs : List Char} {m : Nat}
    {rest : List Char} (h : readNumber bias place weight n cs = some (m, rest)) :
    rest.length < cs.length := by
  fun_induction readNumber bias place weight n cs with
  | case1 => simp at h
  | case2 => simp at h
  | case3 => simp_all
  | case4 place weight n c cs d _ t _ ih =>
    have := ih h
    simp only [List.length_cons]
    omega

/-- Inserts the characters that a text tells into a label. The last one had code point `code`, and
the next one goes `start` places after it at the least. -/
def insertAll (bias code start : Nat) (label : List Char) (cs : List Char) : Option (List Char) :=
  match cs with
  | [] => some label
  | c :: cs =>
    match _h : readNumber bias 36 1 start (c :: cs) with
    | none => none
    | some (n, rest) =>
      let length := label.length + 1
      let code := code + n / length
      if code.isValidChar then
        insertAll (adapt (n - start) length (start == 0)) code (n % length + 1)
          (label.insertIdx (n % length) (Char.ofNat code)) rest
      else none
termination_by cs.length
decreasing_by exact length_readNumber_lt _h

/-- The label that a text stands for. -/
def decode (cs : List Char) : Option (List Char) :=
  let tail := cs.reverse.takeWhile (· != '-')
  let front := cs.take (cs.length - tail.length - 1)
  if front.all fun c => c.toNat < 0x80 then insertAll 72 0x80 0 front tail.reverse else none

end CodeGraph.Punycode
