import CodeGraph.Json.Reader
import CodeGraph.Settings.Path

/-!
# Layers of settings

Settings come in layers, a later one over an earlier one: a file, variables of the environment, and
overrides. A `Layer` lists what is set and the paths that lead there, in the order in which it is
set.

* `Layer.Format`, `Layer.Formats`: the formats of files, and what is left open of them here;
* `Layer.Formats.file?`, `Layer.environment`, `Layer.overrides?`: the three kinds of layers;
* `Layer.onto`: sets a layer on top of what is set.
-/

namespace CodeGraph

/-- What is set, with the paths that lead there. -/
abbrev Layer := List (Setting.Path × Setting)

namespace Layer

/-- Sets a layer on top of what is set. -/
def onto (layer : Layer) (below : Setting) : Setting :=
  layer.foldl (fun s (path, v) => Setting.put v path s) below

@[simp] theorem onto_cons (path : Setting.Path) (v : Setting) (layer : Layer) (below : Setting) :
    onto ((path, v) :: layer) below = onto layer (Setting.put v path below) := rfl

/-! ### Files -/

/-- The formats of files with settings. -/
inductive Format
  | toml
  | json
  | yaml
  | ini
  | ron
  | json5
deriving DecidableEq, Repr

/-- The endings of the names of files in a format. -/
def Format.suffixes : Format → List String
  | .toml => ["toml"]
  | .json => ["json"]
  | .yaml => ["yaml", "yml"]
  | .ini => ["ini"]
  | .ron => ["ron"]
  | .json5 => ["json5"]

/-- What is left open of the formats: the order in which they are tried, which can be another one
each time, and the readers of all formats but TOML and JSON. -/
structure Formats where
  order : List Format
  /-- No format is left out. -/
  mem_order (f : Format) : f ∈ order
  /-- The table that a text holds in a format that is neither TOML nor JSON. -/
  foreign : Format → String → Option (List (String × Setting))

/-- The formats in the order of their definition, of which only TOML and JSON can be read. -/
def Formats.common : Formats where
  order := [.toml, .json, .yaml, .ini, .ron, .json5]
  mem_order f := by cases f <;> decide
  foreign _ _ := none

/-- The part of the last component of a file's name behind its last point. A point at its front does
not count. -/
def ending (name : String) : List Char :=
  let last := (name.toList.reverse.takeWhile (· != '/')).reverse
  let tail := last.drop 1
  if tail.contains '.' then (tail.reverse.takeWhile (· != '.')).reverse else []

/-- The format that the name of a file tells. -/
def Formats.ofName? (formats : Formats) (name : String) : Option Format :=
  formats.order.find? fun f => f.suffixes.any (·.toList == ending name)

/-- A name, last character first, without the separators at its end and without components at its
end that are a single point. -/
def dropSelf : List Char → List Char
  | '/' :: cs => dropSelf cs
  | '.' :: '/' :: cs => dropSelf cs
  | cs => cs

/-- A name up to the end of its last component; none if that is no name of a file. -/
def base? (name : String) : Option String :=
  let cs := dropSelf name.toList.reverse
  let last := cs.takeWhile (· != '/')
  if last = [] ∨ last = ['.'] ∨ last = ['.', '.'] then none else some (String.ofList cs.reverse)

/-- The names of the files that a name leads to if there is no file of that name, with their
formats. -/
def Formats.extended (formats : Formats) (name : String) : List (Format × String) :=
  match base? name with
  | some base => formats.order.flatMap fun f => f.suffixes.map fun s => (f, base ++ "." ++ s)
  | none => []

/-- The names of the files that a name may lead to. -/
def Formats.fileNames (formats : Formats) (name : String) : List String :=
  name :: (formats.extended name).map Prod.snd

/-- The file with settings that a name leads to: the file of that name, if there is one, or the
first one whose name goes on with the ending of a format. A file in no known format does not count.
-/
def Formats.findFile (formats : Formats) (read : String → Option String) (name : String) :
    Option (Format × String) :=
  match read name with
  | some text => (formats.ofName? name).map (·, text)
  | none => (formats.extended name).findSome? fun (f, n) => (read n).map (f, ·)

/-- The table that a text in a format holds. -/
def Formats.table? (formats : Formats) (f : Format) (text : String) :
    Option (List (String × Setting)) :=
  match f with
  | .toml => (Toml.read? text).map Setting.ofTomlMembers
  | .json =>
    match Json.document text with
    | .ok (.object ms) => some (Setting.ofJsonMembers ms)
    | _ => none
  | f => formats.foreign f text

/-- The layer of a file, if its text can be read. -/
def Formats.file? (formats : Formats) (f : Format) (text : String) : Option Layer :=
  (formats.table? f text).map fun ms => ms.map fun (key, v) => (.ofKey key, v)

/-! ### Variables -/

/-- What the names of variables with settings begin with, in lower case. -/
def variablePrefix : String := "irgraph__"

/-- A name with points for double underscores. -/
def pointed : List Char → List Char
  | '_' :: '_' :: cs => '.' :: pointed cs
  | c :: cs => c :: pointed cs
  | [] => []

/-- The key that a variable sets, if it sets one. -/
def variableKey? (name : String) : Option String :=
  let cs := (Setting.lower name).toList
  if variablePrefix.toList.isPrefixOf cs then
    some (String.ofList (pointed (cs.drop variablePrefix.length)))
  else none

/-- The layer of the variables of an environment. They are taken in the order of their keys. -/
def environment (vars : List (String × String)) : Layer :=
  let set := vars.filterMap fun (name, value) =>
    (variableKey? name).map fun key => (key, Setting.ofVariable value)
  (Dict.ofList set).entries.map fun (key, v) => (.ofKey key, v)

/-! ### Overrides -/

/-- The layer of overrides, given by key. An override without a value does not count, and nothing
else may have a key that spells no path. -/
def overrides? (given : List (String × Option String)) : Option Layer :=
  (given.filterMap fun (key, value) => value.map (key, ·)).mapM fun (key, value) =>
    (Setting.Path.read? key).map (·, .text value)

end Layer

end CodeGraph
