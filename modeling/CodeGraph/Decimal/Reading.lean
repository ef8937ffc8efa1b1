import CodeGraph.Decimal.Rounding

/-!
# Numbers in plain text

`Decimal.read?` reads the double that a whole text spells: digits with at most one point anywhere
among them and perhaps an exponent, or a word for infinity or for no number in any case. A sign may
precede all of these.
-/

namespace CodeGraph.Decimal

open Text

/-- The words for numbers, in lower case. -/
def words : List (String × Binary64) :=
  [("inf", .infinity), ("infinity", .infinity), ("nan", .notANumber)]

/-- The exponent that stands at the end of a text. No text is no exponent. -/
def exponent? : List Char → Option Int
  | [] => some 0
  | c :: cs => if c = 'e' ∨ c = 'E' then integer? cs else none

/-- The digits behind a point at the front of a text, and what follows them. -/
def fraction : List Char → List Char × List Char
  | '.' :: cs => (cs.takeWhile isAsciiDigit, cs.dropWhile isAsciiDigit)
  | cs => ([], cs)

/-- The number that a text without a sign spells. -/
def unsigned? (cs : List Char) : Option Binary64 :=
  match words.lookup (String.ofList (cs.map Char.toLower)) with
  | some x => some x
  | none =>
    let whole := cs.takeWhile isAsciiDigit
    let (part, rest) := fraction (cs.dropWhile isAsciiDigit)
    if whole.isEmpty && part.isEmpty then none
    else (exponent? rest).map fun e => .ofDecimal (decimal (whole ++ part)) (e - part.length)

/-- The number that a text spells. -/
def read? (s : String) : Option Binary64 :=
  let (minus, cs) := readSign s.toList
  (unsigned? cs).map fun x => x.signed minus

end CodeGraph.Decimal
