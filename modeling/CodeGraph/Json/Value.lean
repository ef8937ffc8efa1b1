import CodeGraph.Dict
import CodeGraph.Decimal.Notation

/-!
# JSON values

`Json` is the data that properties of a program graph hold and that reports are written in. A number
is an integer or a double; the reader takes a number for an integer if it is written as one and fits
sixty-four bits.

* `Json.ofDict`, `Json.ofStrings`: objects and lists of other data;
* `Json.text?`, `Json.members?`: the contents of a value of a kind;
* `Json.write`: the text of a value, without white space.
-/

namespace CodeGraph

/-- A number of a document. -/
inductive Number
  /-- An integer. -/
  | int (n : Int)
  /-- A number with a fraction or an exponent, or one that fits no 64-bit word. -/
  | float (x : Binary64)
deriving DecidableEq, Repr

/-- A JSON value. The members of an object are in the order of their keys, each key once. -/
inductive Json
  | null
  | bool (b : Bool)
  | number (n : Number)
  | text (s : String)
  | list (items : List Json)
  | object (members : List (String × Json))
deriving Repr, Inhabited

namespace Json

/-- The value of an integer. -/
def int (n : Int) : Json := .number (.int n)

/-- The value of a natural number. -/
def nat (n : Nat) : Json := .number (.int n)

/-- The list of some texts. -/
def ofStrings (ss : List String) : Json := .list (ss.map .text)

/-- The object with the given members. -/
def ofDict (d : Dict Json) : Json := .object d.entries

/-- The object of some members; the last of equal keys counts. -/
def ofMembers (members : List (String × Json)) : Json := ofDict (Dict.ofList members)

/-- The contents of a text. -/
def text? : Json → Option String
  | .text s => some s
  | _ => none

/-- The member of an object with a key. -/
def member? (key : String) : Json → Option Json
  | .object members => members.lookup key
  | _ => none

/-- The text of a number. -/
def writeNumber : Number → String
  | .int n => String.ofList (Text.showInt n)
  | .float x => Decimal.write .document x

/-- A character of a quoted text. Quotes, backslashes and control characters are escaped. -/
def writeChar (c : Char) : List Char :=
  if c = '"' then ['\\', '"']
  else if c = '\\' then ['\\', '\\']
  else if c.toNat = 8 then ['\\', 'b']
  else if c.toNat = 12 then ['\\', 'f']
  else if c = '\n' then ['\\', 'n']
  else if c = '\r' then ['\\', 'r']
  else if c = '\t' then ['\\', 't']
  else if c.toNat < 0x20 then '\\' :: 'u' :: Text.padZeros 4 (Text.showHex c.toNat)
  else [c]

/-- A text between quotes. -/
def quote (s : String) : String :=
  String.ofList ('"' :: s.toList.flatMap writeChar ++ ['"'])

/-- The text between two braces. -/
def braced (s : String) : String :=
  String.singleton (Char.ofNat 0x7B) ++ s ++ String.singleton (Char.ofNat 0x7D)

mutual

/-- The text of a value, without white space. -/
def write : Json → String
  | .null => "null"
  | .bool b => if b then "true" else "false"
  | .number n => writeNumber n
  | .text s => quote s
  | .list items => "[" ++ String.intercalate "," (writeItems items) ++ "]"
  | .object members => braced (String.intercalate "," (writeMembers members))

/-- The texts of the items of a list. -/
def writeItems : List Json → List String
  | [] => []
  | j :: js => write j :: writeItems js

/-- The texts of the members of an object. -/
def writeMembers : List (String × Json) → List String
  | [] => []
  | (key, j) :: ms => (quote key ++ ":" ++ write j) :: writeMembers ms

end

end Json

end CodeGraph
