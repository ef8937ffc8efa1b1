import CodeGraph.Text.Class

/-!
# Lines and trimming

Texts are handled as lists of characters.

* `dropBlank`, `dropBlankEnd`, `trim`: white space cut at the front, the end, both;
* `lines`: a text cut at its line feeds, where a carriage return just before a line feed goes with
  it and nothing follows the last line feed;
* `unlines`: lines joined by line feeds;
* `firstPiece`: the first piece between white space.
-/

namespace CodeGraph.Text

/-- The text without the white space at its front. -/
def dropBlank (cs : List Char) : List Char :=
  cs.dropWhile isBlank

/-- The text without the longest run of `p` at its end. -/
def dropEndWhile (p : Char → Bool) (cs : List Char) : List Char :=
  (cs.reverse.dropWhile p).reverse

/-- The text without the white space at its end. -/
def dropBlankEnd (cs : List Char) : List Char :=
  dropEndWhile isBlank cs

/-- The text without the white space at either end. -/
def trim (cs : List Char) : List Char :=
  dropBlankEnd (dropBlank cs)

/-- Whether a text holds nothing but white space. -/
def isBlankText (cs : List Char) : Bool :=
  cs.all isBlank

/-- A line without the carriage return that its line break begins with. -/
def dropReturn (line : List Char) : List Char :=
  match line.getLast? with
  | some '\r' => line.dropLast
  | _ => line

/-- The lines of a text, given the part of the first line that is already read, last character
first. -/
def linesFrom : List Char → List Char → List (List Char)
  | [], [] => []
  | acc, [] => [acc.reverse]
  | acc, c :: cs =>
    if c = '\n' then dropReturn acc.reverse :: linesFrom [] cs else linesFrom (c :: acc) cs

/-- The lines of a text. A text that ends in a line feed has no further, empty line. -/
def lines (cs : List Char) : List (List Char) :=
  linesFrom [] cs

/-- The text of the given lines, one line feed between two. -/
def unlines (ls : List (List Char)) : List Char :=
  ['\n'].intercalate ls

/-- The first of the pieces that white space divides a text into; empty if there is none. -/
def firstPiece (cs : List Char) : List Char :=
  (dropBlank cs).takeWhile (!isBlank ·)

end CodeGraph.Text
