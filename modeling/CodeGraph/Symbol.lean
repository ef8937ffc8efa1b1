import CodeGraph.Text.Run
import CodeGraph.Text.Number

/-!
# Symbol names

A compiled symbol spells a path such as `core::fmt` as `_ZN4core3fmtE`: an envelope around
*segments*, each a decimal length followed by that many characters. The last segment may be a hash
of seventeen characters, which is no part of the path. Characters that no identifier holds are
escaped as `$…$` inside a segment, and a dot stands for the separator.

* `payload?`: what stands inside the envelope;
* `readFirst`: the text of a segment, read where it stands in the payload;
* `pathFrom`: the path that grows by one segment after another, up to the hash;
* `decode`: the path of a symbol, or the name itself if it is no well-formed symbol.
-/

namespace CodeGraph.Symbol

open Text

/-- Written between the segments of a path. -/
def separator : List Char := [':', ':']

/-- The length of the hash segment. -/
def hashLength : Nat := 17

/-- Stands for an escape that has no meaning. -/
def placeholder : List Char := ['?', '?', '?']

/-- The escapes that have a name. -/
def namedEscapes : List (List Char × Char) :=
  [(['S', 'P'], '@'), (['B', 'P'], '*'), (['R', 'F'], '&'), (['L', 'T'], '<'), (['G', 'T'], '>'),
   (['L', 'P'], '('), (['R', 'P'], ')'), (['C'], ',')]

/-- The character with a hexadecimal code point, which may carry a plus sign. -/
def codePoint? (cs : List Char) : Option Char :=
  let digits := match cs with
    | '+' :: r => r
    | _ => cs
  (hexadecimal? digits).bind fun n => if n.isValidChar then some (Char.ofNat n) else none

/-- The character that an escape stands for: `u` and a code point, or one of the named escapes. -/
def escape? : List Char → Option Char
  | 'u' :: digits => codePoint? digits
  | token => namedEscapes.lookup token

/-- The text that an escape stands for. -/
def unescape (token : List Char) : List Char :=
  match escape? token with
  | some c => [c]
  | none => placeholder

/-- The text of a segment that takes up the first `n` of some characters, read on from inside an
escape (`some token`) or outside one (`none`). A dollar opens or closes an escape; an underscore
before a dollar carries no text, where the dollar may stand behind the segment; one or two dots of
the segment are a separator, also inside an escape. An escape that is never closed is dropped. -/
def readFirst : Nat → Option (List Char) → List Char → List Char
  | 0, _, _ => []
  | _, _, [] => []
  | n + 1, token, c :: cs =>
    if c = '_' ∧ cs.head? = some '$' then readFirst n token cs
    else if c = '.' then
      match n, cs with
      | m + 1, '.' :: cs => separator ++ readFirst m token cs
      | n, cs => separator ++ readFirst n token cs
    else if c = '$' then
      match token with
      | none => readFirst n (some []) cs
      | some token => unescape token ++ readFirst n none cs
    else
      match token with
      | none => c :: readFirst n none cs
      | some token => readFirst n (some (token ++ [c])) cs

/-- The segments at the front of a payload, each followed by a separator, written behind `path` up
to the end of the payload or to a hash that ends it; `none` if a length is missing or exceeds what
is left. -/
def pathFrom (path cs : List Char) : Option (List Char) :=
  if cs.isEmpty then some path
  else
    let digits := cs.takeWhile isAsciiDigit
    let rest := cs.dropWhile isAsciiDigit
    if _h : digits.isEmpty then none
    else if decimal digits = hashLength ∧ rest.length = hashLength then some path
    else if decimal digits ≤ rest.length then
      pathFrom (path ++ readFirst (decimal digits) none rest ++ separator)
        (rest.drop (decimal digits))
    else none
termination_by cs.length
decreasing_by
  have key : (cs.takeWhile isAsciiDigit).length + (cs.dropWhile isAsciiDigit).length =
      cs.length := by
    rw [← List.length_append, List.takeWhile_append_dropWhile]
  have pos : 0 < (cs.takeWhile isAsciiDigit).length :=
    List.length_pos_iff.2 (by simpa [digits] using _h)
  simp only [List.length_drop]
  omega

/-- A path without the separator at its end. -/
def dropSeparator (path : List Char) : List Char :=
  if separator.isSuffixOf path then path.take (path.length - separator.length) else path

/-- A text without `front` at its beginning. -/
def stripFront? (front cs : List Char) : Option (List Char) :=
  if front.isPrefixOf cs then some (cs.drop front.length) else none

/-- What stands between the envelope's front, `_ZN` or `ZN`, and the `E` at the end. -/
def payload? (name : List Char) : Option (List Char) :=
  (stripFront? ['_', 'Z', 'N'] name <|> stripFront? ['Z', 'N'] name).bind fun cs =>
    if cs.getLast? = some 'E' then some cs.dropLast else none

/-- The path that a well-formed symbol spells. -/
def path? (name : List Char) : Option (List Char) :=
  (payload? name).bind fun cs => (pathFrom [] cs).map dropSeparator

/-- The path of a symbol; a name that is no well-formed symbol comes back unchanged. -/
def decode (name : String) : String :=
  match path? name.toList with
  | some path => String.ofList path
  | none => name

end CodeGraph.Symbol
