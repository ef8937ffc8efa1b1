import CodeGraph.Text.Line

/-!
# Words of a text

A *word* is a maximal run of word characters. `words` lists the words of a text from left to right,
each with the text that follows it, so that a rule about a word can look at what comes next.

* `spelling`: a word's characters after case folding;
* `keyword?`: strips a keyword, in any case, from the front of a text;
* `endsWord`: whether a word may end where the text begins.
-/

namespace CodeGraph.Text

/-- A maximal run of word characters, with the text behind it. -/
structure Word where
  /-- The characters of the run. -/
  run : List Char
  /-- The text after the run. -/
  rest : List Char
deriving DecidableEq, Repr

/-- The characters of a text after case folding. -/
def folded (cs : List Char) : List Char :=
  cs.map fold

/-- A word as it reads whatever its case. -/
def Word.spelling (w : Word) : List Char :=
  folded w.run

/-- The word and all that follows it. -/
def Word.onward (w : Word) : List Char :=
  w.run ++ w.rest

theorem length_dropWhile_le {α : Type} (p : α → Bool) (l : List α) :
    (l.dropWhile p).length ≤ l.length :=
  (List.dropWhile_sublist p).length_le

/-- The words of a text, from left to right. -/
def words : List Char → List Word
  | [] => []
  | c :: cs =>
    if isWord c then
      ⟨c :: cs.takeWhile isWord, cs.dropWhile isWord⟩ :: words (cs.dropWhile isWord)
    else words cs
termination_by cs => cs.length
decreasing_by
  · have := length_dropWhile_le isWord cs
    simp only [List.length_cons]
    omega
  · simp

@[simp] theorem words_nil : words [] = [] := by
  simp [words]

theorem words_cons_of_not_isWord {c : Char} (h : isWord c = false) (cs : List Char) :
    words (c :: cs) = words cs := by
  rw [words]
  simp [h]

theorem words_cons_of_isWord {c : Char} (h : isWord c = true) (cs : List Char) :
    words (c :: cs) =
      ⟨c :: cs.takeWhile isWord, cs.dropWhile isWord⟩ :: words (cs.dropWhile isWord) := by
  rw [words]
  simp [h]

/-- What is left of a text after a keyword at its front, the keyword being read in any case. -/
def keyword? (key : List Char) (cs : List Char) : Option (List Char) :=
  if folded (cs.take key.length) = key then some (cs.drop key.length) else none

/-- Whether no word character begins the text, so that a word may end just before it. -/
def endsWord : List Char → Bool
  | [] => true
  | c :: _ => !isWord c

/-- What is left of a text after a whole word at its front that reads as `key`. -/
def wholeKeyword? (key : List Char) (cs : List Char) : Option (List Char) :=
  (keyword? key cs).filter endsWord

/-- What is left of a text after white space at its front, if there is any. -/
def blanks? : List Char → Option (List Char)
  | [] => none
  | c :: cs => if isBlank c then some (dropBlank cs) else none

/-- An identifier at the front of a text and what is left after it. -/
def identifier? : List Char → Option (List Char × List Char)
  | [] => none
  | c :: cs =>
    if startsIdentifier c then some (c :: cs.takeWhile isWord, cs.dropWhile isWord) else none

end CodeGraph.Text
