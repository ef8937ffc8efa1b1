import CodeGraph.Json.Reader

/-!
# Decoders

A `Decoder α` knows the JSON form of the values of a type. It takes such a value apart when it is
there as a whole (`ofJson`), and it reads it off the front of a text (`read`), where it reports the
first fault that it meets.

* `text`, `int64`, `word`, `value`: single values;
* `list`, `dict`, `optional`, `map`, `filterMap`: decoders made of others;
* `tagged`: one of several cases, written as its name or as an object with its name for a key;
* `record`: a structure, written as an object or as the list of its fields in order. Members that
  are no fields are passed over; a field may not occur twice.
-/

namespace CodeGraph.Json

open Text

/-- How the values of a type are written in JSON. -/
structure Decoder (α : Type) where
  /-- The data of a value, if it has the right shape. -/
  ofJson : Json → Option α
  /-- The data at the front of a text, nested at most to the given depth. -/
  read : Nat → List Char → Result (α × List Char)

/-- What is wrong with a value at the front of a text that has another kind than was asked for. A
list or an object is not looked into. -/
def wrongKind (cs : List Char) : Fault :=
  match cs with
  | '[' :: _ => .mismatch
  | '{' :: _ => .mismatch
  | _ =>
    match readScalar cs with
    | .ok _ => .mismatch
    | .error f => f

namespace Decoder

variable {α β σ : Type}

/-- Any value, as it is. -/
def value : Decoder Json where
  ofJson := some
  read := readValue

/-- A text. -/
def text : Decoder String where
  ofJson := Json.text?
  read _ cs :=
    match cs with
    | '"' :: rest => readQuoted [] rest
    | _ => .error (wrongKind cs)

/-- An integer that `f` accepts. -/
def int (f : Int → Option α) : Decoder α where
  ofJson
    | .number (.int n) => f n
    | _ => none
  read _ cs :=
    match readScalar cs with
    | .ok (.number (.int n), rest) =>
      match f n with
      | some a => .ok (a, rest)
      | none => .error .mismatch
    | _ => .error (wrongKind cs)

/-- A signed 64-bit integer. -/
def int64 : Decoder Int64 :=
  int fun n => (Text.int64? n).map Int64.ofInt

/-- A natural number of at most the given number of bits. -/
def word (bits : Nat) : Decoder Nat :=
  int fun n => if 0 ≤ n ∧ n < twoTo bits then some n.toNat else none

/-- An unsigned 64-bit word. -/
def uint64 : Decoder UInt64 :=
  int fun n => if 0 ≤ n ∧ n < twoTo 64 then some (UInt64.ofNat n.toNat) else none

/-- The data that `f` makes of other data. -/
def filterMap (f : α → Option β) (d : Decoder α) : Decoder β where
  ofJson j := (d.ofJson j).bind f
  read depth cs := do
    let (a, rest) ← d.read depth cs
    match f a with
    | some b => return (b, rest)
    | none => throw .mismatch

/-- The data that `f` makes of other data, whatever it is. -/
def map (f : α → β) (d : Decoder α) : Decoder β where
  ofJson j := (d.ofJson j).map f
  read depth cs := (d.read depth cs).map fun (a, rest) => (f a, rest)

/-- Null for nothing, else a value. -/
def optional (d : Decoder α) : Decoder (Option α) where
  ofJson
    | .null => some none
    | j => (d.ofJson j).map some
  read depth cs :=
    match cs with
    | 'n' :: rest => (readWord "ull".toList rest).map (none, ·)
    | _ => (d.read depth cs).map fun (a, rest) => (some a, rest)

/-- The data of a list of values. -/
def ofItems (d : Decoder α) : List Json → Option (List α)
  | [] => some []
  | j :: js => do
    let a ← d.ofJson j
    let as ← ofItems d js
    return a :: as

/-- A list. -/
def list (d : Decoder α) : Decoder (List α) where
  ofJson
    | .list js => ofItems d js
    | _ => none
  read depth cs :=
    match depth, cs with
    | 0, '[' :: _ => .error .malformed
    | depth + 1, '[' :: rest => readList (d.read depth) rest
    | _, _ => .error (wrongKind cs)

/-- The data of the members of an object. -/
def ofEntries (d : Decoder α) : List (String × Json) → Option (List (String × α))
  | [] => some []
  | (key, j) :: ms => do
    let a ← d.ofJson j
    let as ← ofEntries d ms
    return (key, a) :: as

/-- An object whose keys are free. -/
def dict (d : Decoder α) : Decoder (Dict α) where
  ofJson
    | .object ms => (ofEntries d ms).map Dict.ofList
    | _ => none
  read depth cs :=
    match depth, cs with
    | 0, '{' :: _ => .error .malformed
    | depth + 1, '{' :: rest =>
      readObject (fun (entries : Dict α) cs => do
        let (key, cs) ← readQuoted [] cs
        let cs ← readColon cs
        let (a, cs) ← d.read depth cs
        return (entries.insert key a, cs)) Dict.empty rest
    | _, _ => .error (wrongKind cs)

/-! ### Cases -/

/-- One case of a type. -/
inductive Case (α : Type)
  /-- A case without data. -/
  | bare (a : α)
  /-- A case with data. -/
  | holding (d : Decoder α)

/-- The data of a case that is written as its name alone. -/
def Case.bare? : Case α → Option α
  | .bare a => some a
  | .holding _ => none

/-- The data of a case from the value under its name. -/
def Case.ofJson : Case α → Json → Option α
  | .bare a, .null => some a
  | .bare _, _ => none
  | .holding d, j => d.ofJson j

/-- The data of a case at the front of a text behind its name. -/
def Case.read (depth : Nat) (cs : List Char) : Case α → Result (α × List Char)
  | .bare a =>
    match cs with
    | 'n' :: rest => (readWord "ull".toList rest).map (a, ·)
    | _ => .error (wrongKind cs)
  | .holding d => d.read depth cs

/-- One of several cases by name: the name alone for a case without data, or an object with the name
as its only key. -/
def tagged (cases : List (String × Case α)) : Decoder α where
  ofJson
    | .text name => (cases.lookup name).bind Case.bare?
    | .object [(name, j)] => (cases.lookup name).bind (Case.ofJson · j)
    | _ => none
  read depth cs :=
    match depth, cs with
    | _, '"' :: rest => do
      let (name, rest) ← readQuoted [] rest
      match (cases.lookup name).bind Case.bare? with
      | some a => return (a, rest)
      | none => throw .mismatch
    | 0, '{' :: _ => .error .malformed
    | depth + 1, '{' :: rest =>
      match skipGap rest with
      | '"' :: rest => do
        let (name, rest) ← readQuoted [] rest
        match cases.lookup name with
        | none => throw .mismatch
        | some c =>
          let rest ← readColon rest
          let (a, rest) ← c.read depth rest
          match skipGap rest with
          | '}' :: rest => return (a, rest)
          | rest => throw (unexpected rest)
      | rest => .error (unexpected rest)
    | _, cs => .error (unexpected cs)

/-! ### Records -/

/-- A field of a structure of which `σ` is the part that is already known. -/
structure Field (σ : Type) where
  /-- The key of the field. -/
  name : String
  /-- Whether the field is known. -/
  known : σ → Bool
  /-- Adds the field from its value. -/
  ofJson : σ → Json → Option σ
  /-- Adds the field from the front of a text. -/
  read : Nat → σ → List Char → Result (σ × List Char)

/-- The field whose data a decoder reads. -/
def field (name : String) (d : Decoder β) (get : σ → Option β) (set : σ → β → σ) : Field σ where
  name := name
  known s := (get s).isSome
  ofJson s j := (d.ofJson j).map (set s)
  read depth s cs := (d.read depth cs).map fun (b, rest) => (set s b, rest)

/-- The known part after the members of an object. -/
def ofMembers (ms : List (String × Json)) : List (Field σ) → σ → Option σ
  | [], s => some s
  | f :: fs, s =>
    match ms.lookup f.name with
    | none => ofMembers ms fs s
    | some j => (f.ofJson s j).bind (ofMembers ms fs)

/-- The known part after the items of a list, which are the first fields in order. -/
def ofPositions : List (Field σ) → List Json → σ → Option σ
  | _, [], s => some s
  | [], _ :: _, _ => none
  | f :: fs, j :: js, s => (f.ofJson s j).bind (ofPositions fs js)

/-- Reads one member of a structure behind the quote that opens its key. -/
def readField (fields : List (Field σ)) (depth : Nat) (s : σ) (cs : List Char) :
    Result (σ × List Char) := do
  let (key, cs) ← readQuoted [] cs
  match fields.find? (·.name == key) with
  | some f =>
    if f.known s then throw .mismatch
    else
      let cs ← readColon cs
      f.read depth s cs
  | none =>
    let cs ← readColon cs
    return (s, ← skip cs)

/-- Reads the fields of a structure that is written as a list, behind its bracket or a field. Behind
the last field the list has to end. -/
def readPositions (depth : Nat) : List (Field σ) → Bool → σ → List Char → Result (σ × List Char)
  | [], _, s, cs =>
    match skipGap cs with
    | ']' :: rest => .ok (s, rest)
    | [] => .error .truncated
    | _ => .error .malformed
  | f :: fs, first, s, cs =>
    match first, skipGap cs with
    | _, ']' :: rest => .ok (s, rest)
    | true, rest@(_ :: _) => do
      let (s, rest) ← f.read depth s rest
      readPositions depth fs false s rest
    | false, ',' :: rest =>
      match skipGap rest with
      | [] => .error .truncated
      | ']' :: _ => .error .malformed
      | rest => do
        let (s, rest) ← f.read depth s rest
        readPositions depth fs false s rest
    | _, rest => .error (unexpected rest)

/-- A structure with the given fields; `finish` fills in defaults and fails if a field is missing. -/
def record (fields : List (Field σ)) (start : σ) (finish : σ → Option α) : Decoder α where
  ofJson
    | .object ms => (ofMembers ms fields start).bind finish
    | .list js => (ofPositions fields js start).bind finish
    | _ => none
  read depth cs :=
    match depth, cs with
    | 0, '{' :: _ => .error .malformed
    | 0, '[' :: _ => .error .malformed
    | depth + 1, '{' :: rest => do
      let (s, rest) ← readObject (readField fields depth) start rest
      match finish s with
      | some a => return (a, rest)
      | none => throw .mismatch
    | depth + 1, '[' :: rest => do
      let (s, rest) ← readPositions depth fields true start rest
      match finish s with
      | some a => return (a, rest)
      | none => throw .mismatch
    | _, _ => .error (wrongKind cs)

/-- The data of a whole text. -/
def ofText (d : Decoder α) (text : String) : Result α :=
  readAll (d.read deepest) text

end Decoder

end CodeGraph.Json
