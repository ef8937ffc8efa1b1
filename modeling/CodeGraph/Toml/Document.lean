import CodeGraph.Toml.Scalar

/-!
# TOML documents

A document is a table of values. Its tables are opened by headers in brackets, or come about by keys
with dots; a table is defined in one place only.

* `Toml`: the values;
* `Entry`, `Origin`: a table while it is being read, where it matters how it came about;
* `Entry.toToml`: the value of a table that is read;
* `settled?`: a value with moments for the tables that stand for one;
* `Toml.read?`: the table of a document.
-/

namespace CodeGraph

/-- A value of a document. Dates and times are kept as text. -/
inductive Toml
  | text (s : String)
  | int (n : Int)
  | float (x : Binary64)
  | bool (b : Bool)
  | moment (s : String)
  | list (items : List Toml)
  | table (members : List (String × Toml))
deriving Repr, Inhabited

namespace Toml

/-! ### Tables that are being read -/

/-- How a table came about. -/
inductive Origin
  /-- By its own header or by braces; it is complete. -/
  | explicit
  /-- By the header of a table inside it. -/
  | header
  /-- By a key with dots. -/
  | dotted
deriving DecidableEq, Repr

/-- What stands under a key of a table that is being read. -/
inductive Entry
  | value (v : Toml)
  | table (origin : Origin) (entries : List (String × Entry))
  /-- The tables of a list, the last one first. -/
  | tables (items : List (List (String × Entry)))

/-- The entries of a table. -/
abbrev Entries := List (String × Entry)

/-- Puts an entry under a key. -/
def put (key : String) (e : Entry) : Entries → Entries
  | [] => [(key, e)]
  | (k, old) :: es => if k = key then (key, e) :: es else (k, old) :: put key e es

/-- Changes the table that a path leads to. Tables on the way that do not exist come about as
`origin`. A key with dots does not lead into a complete table; of a list of tables the last one
counts. -/
def change (origin : Origin) (f : Origin → Entries → Option Entries) :
    List String → Origin → Entries → Option Entries
  | [], here, es => f here es
  | key :: path, _, es =>
    match es.lookup key with
    | none => (change origin f path origin []).map fun sub => put key (.table origin sub) es
    | some (.table there sub) =>
      if origin = .dotted ∧ there = .explicit then none
      else (change origin f path there sub).map fun sub => put key (.table there sub) es
    | some (.tables (item :: items)) =>
      (change origin f path .explicit item).map fun item => put key (.tables (item :: items)) es
    | some _ => none

/-- Adds a value under a key, whose last component is given apart. -/
def addValue (path : List String) (key : String) (v : Toml) : Origin → Entries → Option Entries :=
  change .dotted
    (fun here es =>
      if (here = .dotted) = path.isEmpty then none
      else if (es.lookup key).isSome then none
      else some (put key (.value v) es))
    path

/-- Opens the table of a header. It may have come about by the header of a table inside it, and then
it moves behind the other entries. -/
def openTable (key : String) (_here : Origin) (es : Entries) : Option Entries :=
  match es.lookup key with
  | none => some (put key (.table .explicit []) es)
  | some (.table .header sub) =>
    some (put key (.table .explicit sub) (es.filter fun e => e.1 != key))
  | some _ => none

/-- Opens a further table of a list. -/
def openItem (key : String) (_here : Origin) (es : Entries) : Option Entries :=
  match es.lookup key with
  | none => some (put key (.tables [[]]) es)
  | some (.tables items) => some (put key (.tables ([] :: items)) es)
  | some _ => none

mutual

/-- The value of an entry. -/
def Entry.toToml : Entry → Toml
  | .value v => v
  | .table _ es => .table (ofEntries es)
  | .tables items => .list (ofItems items).reverse

/-- The members of a table. -/
def ofEntries : List (String × Entry) → List (String × Toml)
  | [] => []
  | (key, e) :: es => (key, e.toToml) :: ofEntries es

/-- The tables of a list. -/
def ofItems : List (List (String × Entry)) → List Toml
  | [] => []
  | es :: items => .table (ofEntries es) :: ofItems items

end

/-! ### Moments in the form of tables -/

/-- The key that a table begins with if it stands for a moment. -/
def momentKey : String := "$__toml_private_datetime"

/-- Whether a table stands for a moment. What follows its first member does not count. -/
def isMoment (members : List (String × Toml)) : Bool :=
  members.head?.any fun (key, _) => key == momentKey

/-- The moment that the first member of a table spells. -/
def firstMoment? (members : List (String × Toml)) : Option Toml :=
  members.head?.bind fun
    | (_, .text s) => (spelledMoment? s).map .moment
    | _ => none

mutual

/-- A value with moments for the tables in it that stand for one; none if such a table spells no
moment. -/
def settled? : Toml → Option Toml
  | .list items => (settledItems? items).map .list
  | .table members =>
    if isMoment members then firstMoment? members else (settledMembers? members).map .table
  | v => some v

/-- Some values with moments for the tables that stand for one. -/
def settledItems? : List Toml → Option (List Toml)
  | [] => some []
  | v :: vs => do
    let w ← settled? v
    return w :: (← settledItems? vs)

/-- Some members with moments for the tables that stand for one. -/
def settledMembers? : List (String × Toml) → Option (List (String × Toml))
  | [] => some []
  | (key, v) :: ms => do
    let w ← settled? v
    return (key, w) :: (← settledMembers? ms)

end

/-! ### Keys -/

/-- Whether a character may stand in a key without quotes. -/
def isKeyChar (c : Char) : Bool :=
  Text.isAsciiLetter c || Text.isAsciiDigit c || c == '_' || c == '-'

/-- One component of a key. -/
def readName : Reader String
  | '"' :: cs => readBasic [] cs
  | '\'' :: cs => readLiteral cs
  | cs =>
    let name := cs.takeWhile isKeyChar
    if name.isEmpty then none else some (String.ofList name, cs.drop name.length)

/-- The components of a key, with white space around them. The first argument bounds their
number. -/
def readKey : Nat → Reader (List String)
  | 0, _ => none
  | fuel + 1, cs => do
    let (name, cs) ← readName (skipSpace cs)
    match skipSpace cs with
    | '.' :: cs => do
      let (names, cs) ← readKey fuel cs
      return (name :: names, cs)
    | cs => return ([name], cs)

/-- How deep values nest, and how many components a key has at most. -/
def deepest : Nat := 79

/-- A key: all its components but the last, and the last. -/
def readPath : Reader (List String × String) := fun cs => do
  let (names, cs) ← readKey deepest cs
  match names.getLast? with
  | some last => return ((names.dropLast, last), cs)
  | none => none

/-! ### Values -/

/-- The text behind a comment. -/
def skipComment (cs : List Char) : List Char :=
  match cs with
  | '#' :: rest => rest.dropWhile isPlain
  | _ => cs

/-- The text behind white space, line breaks and comments. The first argument bounds the number of
lines. -/
def skipLines : Nat → List Char → List Char
  | 0, cs => cs
  | fuel + 1, cs =>
    let cs := skipComment (skipSpace cs)
    match newline? cs with
    | some rest => skipLines fuel rest
    | none => cs

/-- The text behind all white space, line breaks and comments. -/
def skipFiller (cs : List Char) : List Char :=
  skipLines (cs.length + 1) cs

/-- The items of a list behind its bracket or behind a comma. The first argument bounds their
number. -/
def readItems (item : Reader Toml) : Nat → Reader (List Toml)
  | 0, _ => none
  | fuel + 1, cs =>
    match skipFiller cs with
    | ']' :: rest => some ([], rest)
    | cs => do
      let (v, cs) ← item cs
      match skipFiller cs with
      | ']' :: rest => return ([v], rest)
      | ',' :: rest => do
        let (vs, rest) ← readItems item fuel rest
        return (v :: vs, rest)
      | _ => none

/-- A key and its value, where `value` reads the value. -/
def readPair (value : Reader Toml) : Reader ((List String × String) × Toml) := fun cs => do
  let (key, cs) ← readPath cs
  let cs ← mark? '=' cs
  let (v, cs) ← value (skipSpace cs)
  return ((key, v), cs)

/-- The members of a table between braces, from one on. The first argument bounds their number. -/
def readMembers (value : Reader Toml) : Nat → Entries → Reader Entries
  | 0, _, _ => none
  | fuel + 1, es, cs => do
    let (((path, key), v), cs) ← readPair value cs
    let es ← addValue path key v .explicit es
    match skipSpace cs with
    | '}' :: rest => return (es, rest)
    | ',' :: rest => readMembers value fuel es rest
    | _ => none

/-- A value that does not nest. -/
def readScalar : Reader Toml := fun cs =>
  match cs with
  | '"' :: _ => (readString cs).map fun (s, rest) => (.text s, rest)
  | '\'' :: _ => (readString cs).map fun (s, rest) => (.text s, rest)
  | 't' :: _ => (word? "true" cs).map fun rest => (.bool true, rest)
  | 'f' :: _ => (word? "false" cs).map fun rest => (.bool false, rest)
  | _ =>
    ((readMoment cs).map fun (s, rest) => (Toml.moment s, rest)) <|>
      ((readFloat cs).map fun (x, rest) => (Toml.float x, rest)) <|>
      (readInteger cs).map fun (n, rest) => (Toml.int n, rest)

/-- A value, nested at most to the given depth. -/
def readValue : Nat → Reader Toml
  | 0, cs =>
    match cs with
    | '[' :: _ => none
    | '{' :: _ => none
    | _ => readScalar cs
  | depth + 1, cs =>
    match cs with
    | '[' :: rest =>
      (readItems (readValue depth) (rest.length + 1) rest).map fun (vs, rest) => (.list vs, rest)
    | '{' :: rest =>
      match skipSpace rest with
      | '}' :: rest => some (.table [], rest)
      | cs =>
        (readMembers (readValue depth) (cs.length + 1) [] cs).map fun (es, rest) =>
          (.table (ofEntries es), rest)
    | _ => readScalar cs

/-! ### Documents -/

/-- The tables read so far, and the one that is open. -/
structure State where
  entries : Entries := []
  /-- The path of the open table. -/
  here : List String := []

/-- Changes the table that a header names. -/
def State.change? (s : State) (path : List String) (f : Origin → Entries → Option Entries) :
    Option Entries :=
  change .header f path .explicit s.entries

/-- The text behind the end of a line. -/
def endLine? (cs : List Char) : Option (List Char) :=
  match skipComment (skipSpace cs) with
  | [] => some []
  | cs => newline? cs

/-- Reads a header behind its opening bracket or brackets. -/
def readHeader (s : State) (closing : List Char)
    (enter : String → Origin → Entries → Option Entries) (cs : List Char) :
    Option (State × List Char) := do
  let ((path, key), cs) ← readPath cs
  if closing.isPrefixOf cs then do
    let entries ← s.change? path (enter key)
    return (⟨entries, path ++ [key]⟩, cs.drop closing.length)
  else none

/-- Reads a key and its value into the open table. -/
def readMember (s : State) (cs : List Char) : Option (State × List Char) := do
  let (((path, key), v), cs) ← readPair (readValue deepest) cs
  return ({ s with entries := ← s.change? s.here (addValue path key v) }, cs)

/-- Reads one line that is not empty. -/
def readLine (s : State) : List Char → Option (State × List Char)
  | '[' :: '[' :: cs => readHeader s "]]".toList openItem cs
  | '[' :: cs => readHeader s "]".toList openTable cs
  | cs => readMember s cs

/-- Reads all lines. The first argument bounds their number. -/
def readLines : Nat → State → List Char → Option State
  | 0, _, _ => none
  | fuel + 1, s, cs =>
    match skipFiller cs with
    | [] => some s
    | cs => do
      let (s, cs) ← readLine s cs
      readLines fuel s (← endLine? cs)

/-- The table of a document. A byte order mark may precede it. -/
def read? (text : String) : Option (List (String × Toml)) := do
  let cs := match text.toList with
    | '\ufeff' :: cs => cs
    | cs => cs
  let s ← readLines (cs.length + 1) {} cs
  match settled? (.table (ofEntries s.entries)) with
  | some (.table members) => some members
  | _ => none

end Toml

end CodeGraph
