import CodeGraph.Decimal.Notation
import CodeGraph.Result.Cell
import CodeGraph.Text.Quoted

/-!
# Bolt values

Bolt is the protocol that the store speaks. `Bolt.Value` is what a query can return in it. Values
nest, and nothing keeps a server from sending a list of labels with numbers in it or a path whose
nodes are no nodes, so those parts are values too.

A map has no order. Each time that a value is decoded its maps are made anew, and each of them can
then be walked in another order. So a `Value` is what one decoding makes of what is sent.

* `Value`: the values, of 21 kinds;
* `Value.plain`: a value as text;
* `Value.describe`: a value of a kind without a plain text, described with all its parts.
-/

namespace CodeGraph.Bolt

/-- A value as it is decoded. Properties and entries stand in the order in which they are walked,
and no two of a map have the same key. -/
inductive Value
  | null
  | bool (b : Bool)
  | int (n : Int)
  | float (x : Binary64)
  | text (s : String)
  | list (items : List Value)
  | map (entries : List (String × Value))
  | node (id : Int) (labels : List Value) (properties : List (String × Value))
  | relation (id source target : Int) (name : String) (properties : List (String × Value))
  /-- A relationship without its ends, as it stands in a path. -/
  | unbound (id : Int) (name : String) (properties : List (String × Value))
  /-- The nodes and relationships of a path, each once, and the indices that order them. -/
  | path (nodes rels indices : List Value)
  | bytes (bs : List UInt8)
  | duration (months days seconds nanoseconds : Int)
  /-- A date by its distance from 1970-01-01 in days. -/
  | date (days : Int)
  /-- A time of the day, and the distance of its zone from Greenwich in seconds. -/
  | time (nanoseconds offset : Int)
  | localTime (nanoseconds : Int)
  | dateTime (seconds nanoseconds offset : Int)
  | localDateTime (seconds nanoseconds : Int)
  /-- A date and time in a zone that is named. -/
  | zonedDateTime (seconds nanoseconds : Int) (zone : String)
  | point2 (system : Int) (x y : Binary64)
  | point3 (system : Int) (x y z : Binary64)
deriving Repr, Inhabited

/-! ### Descriptions -/

/-- A structure by its name and its fields. -/
def structured (name : String) (fields : List (String × String)) : String :=
  name ++ " \x7b " ++ String.intercalate ", " (fields.map fun (key, s) => key ++ ": " ++ s) ++ " \x7d"

/-- A structure whose only field is its value. -/
def boxed (name value : String) : String :=
  structured name [("value", value)]

/-- A case by its name and what it holds. -/
def variant (name inner : String) : String :=
  name ++ "(" ++ inner ++ ")"

/-- The structure of an integer. -/
def describeInt (n : Int) : String :=
  boxed "BoltInteger" (String.ofList (Text.showInt n))

/-- The structure of a floating-point number. -/
def describeFloat (x : Binary64) : String :=
  boxed "BoltFloat" (Decimal.write .detailed x)

/-- The structure of a text. -/
def describeText (s : String) : String :=
  boxed "BoltString" (Text.quoted s)

/-- The structure of a list, given its items. -/
def describeList (items : List String) : String :=
  boxed "BoltList" (bracketed items)

/-- The structure of a map, given its entries. -/
def describeMap (entries : List String) : String :=
  boxed "BoltMap" ("\x7b" ++ String.intercalate ", " entries ++ "\x7d")

mutual

/-- A value described with all its parts. -/
def Value.describe : Value → String
  | .null => "Null(BoltNull)"
  | .bool b => variant "Boolean" (boxed "BoltBoolean" (if b then "true" else "false"))
  | .int n => variant "Integer" (describeInt n)
  | .float x => variant "Float" (describeFloat x)
  | .text s => variant "String" (describeText s)
  | .list items => variant "List" (describeList (describeAll items))
  | .map entries => variant "Map" (describeMap (describeEntries entries))
  | .node id labels properties =>
    variant "Node" (structured "BoltNode" [("id", describeInt id),
      ("labels", describeList (describeAll labels)),
      ("properties", describeMap (describeEntries properties))])
  | .relation id source target name properties =>
    variant "Relation" (structured "BoltRelation" [("id", describeInt id),
      ("start_node_id", describeInt source), ("end_node_id", describeInt target),
      ("typ", describeText name), ("properties", describeMap (describeEntries properties))])
  | .unbound id name properties =>
    variant "UnboundedRelation" (structured "BoltUnboundedRelation" [("id", describeInt id),
      ("typ", describeText name), ("properties", describeMap (describeEntries properties))])
  | .path nodes rels indices =>
    variant "Path" (structured "BoltPath" [("nodes", describeList (describeAll nodes)),
      ("rels", describeList (describeAll rels)),
      ("indices", describeList (describeAll indices))])
  | .bytes bs => variant "Bytes" (boxed "BoltBytes" (Text.quotedBytes bs))
  | .duration months days seconds nanoseconds =>
    variant "Duration" (structured "BoltDuration" [("months", describeInt months),
      ("days", describeInt days), ("seconds", describeInt seconds),
      ("nanoseconds", describeInt nanoseconds)])
  | .date days => variant "Date" (structured "BoltDate" [("days", describeInt days)])
  | .time nanoseconds offset =>
    variant "Time" (structured "BoltTime" [("nanoseconds", describeInt nanoseconds),
      ("tz_offset_seconds", describeInt offset)])
  | .localTime nanoseconds =>
    variant "LocalTime" (structured "BoltLocalTime" [("nanoseconds", describeInt nanoseconds)])
  | .dateTime seconds nanoseconds offset =>
    variant "DateTime" (structured "BoltDateTime" [("seconds", describeInt seconds),
      ("nanoseconds", describeInt nanoseconds), ("tz_offset_seconds", describeInt offset)])
  | .localDateTime seconds nanoseconds =>
    variant "LocalDateTime" (structured "BoltLocalDateTime" [("seconds", describeInt seconds),
      ("nanoseconds", describeInt nanoseconds)])
  | .zonedDateTime seconds nanoseconds zone =>
    variant "DateTimeZoneId" (structured "BoltDateTimeZoneId" [("seconds", describeInt seconds),
      ("nanoseconds", describeInt nanoseconds), ("tz_id", describeText zone)])
  | .point2 system x y =>
    variant "Point2D" (structured "BoltPoint2D" [("sr_id", describeInt system),
      ("x", describeFloat x), ("y", describeFloat y)])
  | .point3 system x y z =>
    variant "Point3D" (structured "BoltPoint3D" [("sr_id", describeInt system),
      ("x", describeFloat x), ("y", describeFloat y), ("z", describeFloat z)])

/-- The descriptions of some values. -/
def describeAll : List Value → List String
  | [] => []
  | v :: vs => v.describe :: describeAll vs

/-- The descriptions of some entries, in the order in which they are walked. -/
def describeEntries : List (String × Value) → List String
  | [] => []
  | (key, v) :: es => (describeText key ++ ": " ++ v.describe) :: describeEntries es

end

/-! ### Plain text -/

/-- Entries in the order of their keys. -/
def inOrder {α : Type} (entries : List (String × α)) : List (String × α) :=
  (Dict.ofList entries).entries

mutual

/-- A value as text. Kinds without a text of their own are described. -/
def Value.plain : Value → String
  | .null => ""
  | .bool b => if b then "true" else "false"
  | .int n => String.ofList (Text.showInt n)
  | .float x => Decimal.write .plain x
  | .text s => s
  | .list items => bracketed (plainAll items)
  | .map entries =>
    let items := (inOrder (plainEntries entries)).map fun (key, s) => key ++ ": " ++ s
    "\x7b" ++ String.intercalate ", " items ++ "\x7d"
  | v => v.describe

/-- The texts of some values. -/
def plainAll : List Value → List String
  | [] => []
  | v :: vs => v.plain :: plainAll vs

/-- The texts of some entries under their keys. -/
def plainEntries : List (String × Value) → List (String × String)
  | [] => []
  | (key, v) :: es => (key, v.plain) :: plainEntries es

end

end CodeGraph.Bolt
