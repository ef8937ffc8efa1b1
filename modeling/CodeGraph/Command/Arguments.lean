/-!
# Arguments

The arguments of a command line are flags and operands. A flag takes a value and is written in one of
five ways: `-t x`, `-tx`, `-t=x`, `--tenant x` and `--tenant=x`. Behind `--` there are only operands.

* `Flag`: the flags;
* `Arguments.collect`: sorts arguments that may hold some flags and perhaps operands;
* `Arguments.leading`: the flags before the first operand, and what follows it.

Arguments are taken from left to right, and the first that makes no sense counts.
-/

namespace CodeGraph

/-- A flag. -/
inductive Flag
  | config
  | tenant
  | graph
  | query
deriving DecidableEq, Repr

/-- The long name of a flag. The short one is its first letter. -/
def Flag.name : Flag → String
  | .config => "config"
  | .tenant => "tenant"
  | .graph => "graph"
  | .query => "query"

/-- The short name of a flag. -/
def Flag.letter : Flag → Char
  | .config => 'c'
  | .tenant => 't'
  | .graph => 'g'
  | .query => 'q'

/-- Why arguments are not followed. -/
inductive Usage
  /-- They ask for help. -/
  | help
  /-- They make no sense. -/
  | wrong
deriving DecidableEq, Repr

/-- Arguments that are sorted. -/
structure Arguments where
  /-- The flags with their values, each flag once. -/
  values : List (Flag × String) := []
  operands : List String := []
deriving DecidableEq, Repr

namespace Arguments

/-- The value of a flag. -/
def value? (a : Arguments) (f : Flag) : Option String :=
  a.values.lookup f

/-- Adds the value of a flag. A flag may not come twice, and a file has a name. -/
def add (a : Arguments) (f : Flag) (v : String) : Except Usage Arguments :=
  if (a.value? f).isSome || (f == .graph && v.isEmpty) then .error .wrong
  else .ok { a with values := a.values ++ [(f, v)] }

/-- What a single argument is. -/
inductive Kind
  | operand (s : String)
  /-- The mark before operands. -/
  | mark
  /-- A flag, with its value if that is part of the argument. -/
  | flag (f : Flag) (value? : Option String)

/-- What an argument is that goes on like this behind two dashes. -/
def long (flags : List Flag) (cs : List Char) : Except Usage Kind :=
  let name := String.ofList (cs.takeWhile (· != '='))
  let value := cs.dropWhile (· != '=')
  match flags.find? (·.name == name) with
  | some f => .ok (.flag f (if value.isEmpty then none else some (String.ofList (value.drop 1))))
  | none => .error (if name == "help" && value.isEmpty then .help else .wrong)

/-- What an argument is that goes on like this behind one dash. -/
def short (flags : List Flag) (c : Char) (cs : List Char) : Except Usage Kind :=
  match flags.find? (·.letter == c) with
  | some f =>
    .ok (.flag f (match cs with
      | [] => none
      | '=' :: value => some (String.ofList value)
      | value => some (String.ofList value)))
  | none => .error (if c == 'h' then .help else .wrong)

/-- What an argument is. -/
def kind (flags : List Flag) (argument : String) : Except Usage Kind :=
  match argument.toList with
  | ['-', '-'] => .ok .mark
  | '-' :: '-' :: cs => long flags cs
  | '-' :: c :: cs => short flags c cs
  | _ => .ok (.operand argument)

/-- Whether an argument may be the value of the flag before it. -/
def isValue (argument : String) : Bool :=
  match argument.toList with
  | '-' :: _ :: _ => false
  | _ => true

/-- Sorts arguments in addition to those that are sorted already. -/
def collect (flags : List Flag) (operands : Bool) :
    Arguments → List String → Except Usage Arguments
  | a, [] => .ok a
  | a, argument :: rest =>
    match kind flags argument with
    | .error u => .error u
    | .ok .mark =>
      if operands || rest.isEmpty then .ok { a with operands := a.operands ++ rest }
      else .error .wrong
    | .ok (.operand s) =>
      if operands then collect flags operands { a with operands := a.operands ++ [s] } rest
      else .error .wrong
    | .ok (.flag f (some v)) => (a.add f v).bind fun a => collect flags operands a rest
    | .ok (.flag f none) =>
      match rest with
      | v :: rest =>
        if isValue v then (a.add f v).bind fun a => collect flags operands a rest
        else .error .wrong
      | [] => .error .wrong

/-- The flags before the first operand, the operand and what follows it. -/
def leading (flags : List Flag) :
    Arguments → List String → Except Usage (Arguments × String × List String)
  | _, [] => .error .wrong
  | a, argument :: rest =>
    match kind flags argument with
    | .error u => .error u
    | .ok .mark => .error .wrong
    | .ok (.operand s) => .ok (a, s, rest)
    | .ok (.flag f (some v)) => (a.add f v).bind fun a => leading flags a rest
    | .ok (.flag f none) =>
      match rest with
      | v :: rest =>
        if isValue v then (a.add f v).bind fun a => leading flags a rest else .error .wrong
      | [] => .error .wrong

end Arguments

end CodeGraph
