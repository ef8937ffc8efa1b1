import CodeGraph.Bolt.Value

/-!
# From Bolt values to cells

A result comes in as Bolt values and goes on as cells. Only a malformed path has no cell. The values
of a row are decoded before they are converted, which is the business of the driver.

* `Malformed`: what is wrong with a path or a row, with `Malformed.message`;
* `Value.toCell`: the cell of a value;
* `hops`: the edges of a path, rebuilt from its indices;
* `Driver`, `Value.inRow`: what becomes of a value in a row;
* `rowCells`: the cells of a row in the order of its column names.
-/

namespace CodeGraph.Bolt

/-- Why a value has no cell. -/
inductive Malformed
  /-- A node of a path is no node. -/
  | node (v : Value)
  /-- A relationship of a path is no relationship without ends. -/
  | relationship (v : Value)
  /-- An index of a path is no integer. -/
  | index (v : Value)
  /-- An index points to no relationship. -/
  | relationshipIndex (i : Int)
  /-- An index points to no node. -/
  | nodeIndex (i : Int)
  /-- A row cannot be decoded. -/
  | row (complaint : String)
deriving Repr

/-- What is wrong, in words. -/
def Malformed.message : Malformed → String
  | .node v => "path node: " ++ v.describe
  | .relationship v => "path relationship: " ++ v.describe
  | .index v => "path index: " ++ v.describe
  | .relationshipIndex i => "path rel index " ++ String.ofList (Text.showInt i)
  | .nodeIndex i => "path node index " ++ String.ofList (Text.showInt i)
  | .row complaint => "row: " ++ complaint

/-- The texts among the labels of a node. -/
def labelTexts (labels : List Value) : List String :=
  labels.filterMap fun
    | .text s => some s
    | _ => none

/-- A relationship of a path. Its properties are needed only where a hop goes over it. -/
structure Link where
  id : Int
  name : String
  properties : Except Malformed (List (String × Cell))

/-- The relationship that an index points to: it counts from one, and its sign is a direction. -/
def link? (links : List Link) (i : Int) : Option Link :=
  if i = 0 then none else links[i.natAbs - 1]?

/-- The node that an index points to. -/
def node? (nodes : List (StoreNode Cell)) (i : Int) : Option (StoreNode Cell) :=
  if i < 0 then none else nodes[i.toNat]?

/-- The edges of a path from a node on. Each pair of indices is one hop: the relationship, against
its direction if the index is negative, and the next node. -/
def hops (nodes : List (StoreNode Cell)) (links : List Link) (here : Int) :
    List Int → Except Malformed (List (StoreEdge Cell))
  | r :: n :: rest => do
    let some link := link? links r | throw (.relationshipIndex r)
    let some next := node? nodes n | throw (.nodeIndex n)
    let properties ← link.properties
    let (source, target) := if 0 < r then (here, next.id) else (next.id, here)
    return ⟨link.id, source, target, link.name, properties⟩ :: (← hops nodes links next.id rest)
  | _ => .ok []

/-- The integers of a path's indices. -/
def indexNumbers : List Value → Except Malformed (List Int)
  | [] => .ok []
  | .int n :: vs => do return n :: (← indexNumbers vs)
  | v :: _ => .error (.index v)

/-- The cell of a path. -/
def pathCell (nodes : List (StoreNode Cell)) (links : List Link) (indices : List Int) :
    Except Malformed Cell :=
  match nodes with
  | [] => .ok (.path [] [])
  | first :: _ => do return .path nodes (← hops nodes links first.id indices)

mutual

/-- The cell of a value. -/
def Value.toCell : Value → Except Malformed Cell
  | .node id labels properties => do
    return .node ⟨id, labelTexts labels, inOrder (← toEntries properties)⟩
  | .relation id source target name properties => do
    return .edge ⟨id, source, target, name, inOrder (← toEntries properties)⟩
  | .path nodes rels indices => do
    let nodes ← pathNodes nodes
    let links ← pathLinks rels
    let indices ← indexNumbers indices
    pathCell nodes links indices
  | .list items => do return .list (← toCells items)
  | .null => .ok .null
  | v => .ok (.text v.plain)

/-- The cells of some values. -/
def toCells : List Value → Except Malformed (List Cell)
  | [] => .ok []
  | v :: vs => do
    let c ← v.toCell
    return c :: (← toCells vs)

/-- The cells of some entries, which are converted in the order in which they are walked. -/
def toEntries : List (String × Value) → Except Malformed (List (String × Cell))
  | [] => .ok []
  | (key, v) :: es => do
    let c ← v.toCell
    return (key, c) :: (← toEntries es)

/-- The nodes of a path. -/
def pathNodes : List Value → Except Malformed (List (StoreNode Cell))
  | [] => .ok []
  | v :: vs => do
    let n ← toNode v
    return n :: (← pathNodes vs)

/-- The node that a value is. -/
def toNode : Value → Except Malformed (StoreNode Cell)
  | .node id labels properties => do
    return ⟨id, labelTexts labels, inOrder (← toEntries properties)⟩
  | v => .error (.node v)

/-- The relationships of a path. -/
def pathLinks : List Value → Except Malformed (List Link)
  | [] => .ok []
  | v :: vs => do
    let l ← toLink v
    return l :: (← pathLinks vs)

/-- The relationship without ends that a value is. -/
def toLink : Value → Except Malformed Link
  | .unbound id name properties => .ok ⟨id, name, do return inOrder (← toEntries properties)⟩
  | v => .error (.relationship v)

end

/-! ### Rows -/

/-- The number of 64 bits that is closest to a number. -/
def clamp (n : Int) : Int :=
  max (-(twoTo 63 : Int)) (min n (twoTo 63 - 1))

/-- The seconds that a duration counts for: a day has 86400, and a month a twelfth of an average
year. What grows too large at some step stays at the bound. -/
def durationSeconds (months days seconds : Int) : Int :=
  clamp (clamp (seconds + clamp (days * 86400)) + clamp (months * 2629800))

/-- What a driver does when it decodes a row, as far as it is left open here. -/
structure Driver where
  /-- What becomes of a time, or of a date and time in a zone; none if no row can hold it. -/
  moment? : Value → Option Value
  /-- What is wrong with a row that cannot be decoded, given its columns and their values. -/
  complaint : List Value → List Value → String

/-- A driver whose rows hold no times, and which says the same of whatever it cannot decode. -/
def Driver.timeless : Driver where
  moment? _ := none
  complaint _ _ := "Invalid type: tuple variant, expected struct variant"

mutual

/-- A value as it stands in a row, if it can: a duration is a list of seconds and nanoseconds, and
there are no points. So it is with all that the value holds. -/
def Value.inRow (driver : Driver) : Value → Option Value
  | .duration months days seconds nanoseconds =>
    some (.list [.int (durationSeconds months days seconds), .int nanoseconds])
  | .time nanoseconds offset => driver.moment? (.time nanoseconds offset)
  | .localTime nanoseconds => driver.moment? (.localTime nanoseconds)
  | .dateTime seconds nanoseconds offset =>
    driver.moment? (.dateTime seconds nanoseconds offset)
  | .zonedDateTime seconds nanoseconds zone =>
    driver.moment? (.zonedDateTime seconds nanoseconds zone)
  | .point2 .. => none
  | .point3 .. => none
  | .list items => do return .list (← allInRow driver items)
  | .map entries => do return .map (← entriesInRow driver entries)
  | .node id labels properties => do
    return .node id (← allInRow driver labels) (← entriesInRow driver properties)
  | .relation id source target name properties => do
    return .relation id source target name (← entriesInRow driver properties)
  | .unbound id name properties => do
    return .unbound id name (← entriesInRow driver properties)
  | .path nodes rels indices => do
    return .path (← allInRow driver nodes) (← allInRow driver rels) (← allInRow driver indices)
  | v => some v

/-- Some values as they stand in a row. -/
def allInRow (driver : Driver) : List Value → Option (List Value)
  | [] => some []
  | v :: vs => do
    let w ← v.inRow driver
    return w :: (← allInRow driver vs)

/-- Properties or entries as they stand in a row. -/
def entriesInRow (driver : Driver) : List (String × Value) → Option (List (String × Value))
  | [] => some []
  | (key, v) :: es => do
    let w ← v.inRow driver
    return (key, w) :: (← entriesInRow driver es)

end

/-- The values of a row by column. A column whose name is no text is dropped, and so are values
without a column; of columns with one name the last counts. -/
def rowColumns (columns values : List Value) : Dict Value :=
  Dict.ofList ((columns.zip values).filterMap fun
    | (.text name, v) => some (name, v)
    | _ => none)

/-- The cells of a row in the order of its column names. Nothing is converted of a row that cannot
be decoded. -/
def rowCells (driver : Driver) (columns values : List Value) : Except Malformed Row :=
  match allInRow driver ((rowColumns columns values).entries.map Prod.snd) with
  | some vs => toCells vs
  | none => .error (.row (driver.complaint columns values))

end CodeGraph.Bolt
