import CodeGraph.Decimal.Reading
import CodeGraph.Json.Value
import CodeGraph.Toml.Document

/-!
# Values that are set

A file, a variable or an override sets a `Setting`. Files may nest settings in tables, whose keys
are told apart without regard to case.

* `Setting.ofToml`, `Setting.ofJson`: the settings of a document;
* `Setting.ofVariable`: the setting that a variable spells;
* `Setting.text?`, `Setting.number?`: what a setting is worth where text or a number is wanted.
-/

namespace CodeGraph

/-- What something is set to. The keys of a table are in lower case. -/
inductive Setting
  | null
  | bool (b : Bool)
  | int (n : Int)
  | float (x : Binary64)
  | text (s : String)
  | list (items : List Setting)
  | table (members : List (String × Setting))
deriving Repr, Inhabited

namespace Setting

/-- A character of a key in lower case, as far as keys of settings are concerned: besides the
capitals, the Kelvin sign stands for `k`. -/
def lowerChar (c : Char) : Char :=
  if c = '\u212A' then 'k' else c.toLower

/-- A key in lower case. -/
def lower (key : String) : String :=
  String.ofList (key.toList.map lowerChar)

mutual

/-- The setting of a value of a document. Dates and times are text. -/
def ofToml : Toml → Setting
  | .text s => .text s
  | .int n => .int n
  | .float x => .float x
  | .bool b => .bool b
  | .moment s => .text s
  | .list items => .list (ofTomlItems items)
  | .table members => .table (ofTomlMembers members)

/-- The settings of a list of values. -/
def ofTomlItems : List Toml → List Setting
  | [] => []
  | v :: vs => ofToml v :: ofTomlItems vs

/-- The settings of the members of a table. -/
def ofTomlMembers : List (String × Toml) → List (String × Setting)
  | [] => []
  | (key, v) :: ms => (lower key, ofToml v) :: ofTomlMembers ms

end

/-- The setting of a number. Only integers of sixty-four bits with a sign are settings as such. -/
def ofNumber : Number → Setting
  | .int n =>
    match Text.int64? n with
    | some n => .int n
    | none => .float (Binary64.ofDecimal n.natAbs 0)
  | .float x => .float x

mutual

/-- The setting of a JSON value. -/
def ofJson : Json → Setting
  | .null => .null
  | .bool b => .bool b
  | .number n => ofNumber n
  | .text s => .text s
  | .list items => .list (ofJsonItems items)
  | .object members => .table (ofJsonMembers members)

/-- The settings of a list of JSON values. -/
def ofJsonItems : List Json → List Setting
  | [] => []
  | j :: js => ofJson j :: ofJsonItems js

/-- The settings of the members of an object. -/
def ofJsonMembers : List (String × Json) → List (String × Setting)
  | [] => []
  | (key, j) :: ms => (lower key, ofJson j) :: ofJsonMembers ms

end

/-- The truth value that a text names, in any case. -/
def truth? (names : List (String × Bool)) (s : String) : Option Bool :=
  names.lookup (String.ofList (s.toList.map Char.toLower))

/-- The setting that the text of a variable spells: a truth value, an integer, another number, or
else the text. -/
def ofVariable (s : String) : Setting :=
  match truth? [("true", true), ("false", false)] s with
  | some b => .bool b
  | none =>
    match (Text.integer? s.toList).bind Text.int64? with
    | some n => .int n
    | none =>
      match Decimal.read? s with
      | some x => .float x
      | none => .text s

/-! ### What a setting is worth -/

/-- A setting as text. Tables, lists and null are none. -/
def text? : Setting → Option String
  | .text s => some s
  | .bool b => some (if b then "true" else "false")
  | .int n => some (String.ofList (Text.showInt n))
  | .float x => some (Decimal.write .plain x)
  | _ => none

/-- The names of truth values that count as numbers. -/
def switches : List (String × Bool) :=
  [("true", true), ("on", true), ("yes", true), ("false", false), ("off", false), ("no", false)]

/-- The natural number of sixty-four bits that a text spells. A plus sign may precede it. -/
def natural? (s : String) : Option Nat :=
  let ds := match s.toList with
    | '+' :: ds => ds
    | ds => ds
  (Text.decimal? ds).filter (· < twoTo 64)

/-- A setting as a natural number of sixty-four bits. A number with a fraction is rounded, and a
truth value is one or zero. -/
def number? : Setting → Option Nat
  | .int n => if 0 ≤ n then some n.toNat else none
  | .float x => some (x.roundToNat (twoTo 64 - 1))
  | .bool b => some b.toNat
  | .text s =>
    match truth? switches s with
    | some b => some b.toNat
    | none => natural? s
  | _ => none

/-- A setting as a natural number of at most `bits` bits. -/
def word? (bits : Nat) (v : Setting) : Option Nat :=
  v.number?.filter (· < twoTo bits)

/-- The members of a table; nothing else has any. -/
def members : Setting → List (String × Setting)
  | .table ms => ms
  | _ => []

/-- The items of a list; nothing else has any. -/
def items : Setting → List Setting
  | .list vs => vs
  | _ => []

end Setting

end CodeGraph
