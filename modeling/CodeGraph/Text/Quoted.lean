import CodeGraph.Text.EscapeTable
import CodeGraph.Text.Number

/-!
# Quoted texts and bytes

`quoted` and `quotedBytes` write a text and a string of bytes between double quotes, so that every
character that would not show is spelled out. (JSON texts have an escape syntax of their own.)
-/

namespace CodeGraph.Text

/-- A character between quotes. Quotes and backslashes are escaped, and characters that do not show
are written by their code point. -/
def quotedChar (c : Char) : List Char :=
  if c.toNat = 0 then ['\\', '0']
  else if c = '\t' then ['\\', 't']
  else if c = '\n' then ['\\', 'n']
  else if c = '\r' then ['\\', 'r']
  else if c = '"' then ['\\', '"']
  else if c = '\\' then ['\\', '\\']
  else if c.toNat < 0x20 ∨ (0x7F ≤ c.toNat ∧ unprintableRanges.contains c.toNat) then
    ['\\', 'u', '{'] ++ showHex c.toNat ++ ['}']
  else [c]

/-- A text between quotes. -/
def quoted (s : String) : String :=
  String.ofList ('"' :: s.toList.flatMap quotedChar ++ ['"'])

/-- A byte between quotes: itself if it is a printing ASCII character, else a named escape or its two
hexadecimal digits. -/
def quotedByte (b : UInt8) : List Char :=
  let n := b.toNat
  if n = 0 then ['\\', '0']
  else if n = 9 then ['\\', 't']
  else if n = 10 then ['\\', 'n']
  else if n = 13 then ['\\', 'r']
  else if n = 34 then ['\\', '"']
  else if n = 92 then ['\\', '\\']
  else if 0x20 ≤ n ∧ n < 0x7F then [Char.ofNat n]
  else '\\' :: 'x' :: padZeros 2 (showHex n)

/-- A string of bytes between quotes, with a `b` in front. -/
def quotedBytes (bs : List UInt8) : String :=
  String.ofList ('b' :: '"' :: bs.flatMap quotedByte ++ ['"'])

end CodeGraph.Text
