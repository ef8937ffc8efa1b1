import CodeGraph.Command.Arguments
import CodeGraph.Store.Record

/-!
# Commands

The program carries out one command at a time.

* `Command`: the commands;
* `Invocation`: a command and the name that leads to the file with settings;
* `Invocation.ofArguments`: the invocation that a command line spells.
-/

namespace CodeGraph

/-- What the program is asked to do. -/
inductive Command
  /-- Replaces what is stored for a tenant by the graph in a file. Without a tenant there is a new
  one. -/
  | ingest (tenant? : Option Tenant) (file : String)
  /-- Draws the result of a query. Without a query it is read from the input. -/
  | query (tenant : Tenant) (query? : Option String)
  /-- Lists the tracked variables of a tenant. -/
  | tracked (tenant : Tenant)
  /-- Deletes what is stored for a tenant. -/
  | clear (tenant : Tenant)
  /-- Prints the readable form of symbols. -/
  | symbols (names : List String)
deriving DecidableEq, Repr

namespace Command

/-- How a command is written. -/
structure Form where
  flags : List Flag
  /-- Whether there may be operands. -/
  operands : Bool := false
  /-- The command of sorted arguments, if nothing is missing. -/
  command? : Arguments → Option Command

/-- The forms of the commands by name. -/
def forms : List (String × Form) :=
  [("ingest",
      { flags := [.tenant, .graph]
        command? := fun a => (a.value? .graph).map (.ingest (a.value? .tenant)) }),
    ("query",
      { flags := [.tenant, .query]
        command? := fun a => (a.value? .tenant).map fun t => .query t (a.value? .query) }),
    ("tracked", { flags := [.tenant], command? := fun a => (a.value? .tenant).map .tracked }),
    ("clear", { flags := [.tenant], command? := fun a => (a.value? .tenant).map .clear }),
    ("demangle",
      { flags := []
        operands := true
        command? := fun a => if a.operands.isEmpty then none else some (.symbols a.operands) })]

/-- The name of the command for help. -/
def helpName : String := "help"

/-- What a request for help comes to: it may name one command. -/
def help : List String → Usage
  | [] => .help
  | [name] => if name = helpName ∨ (forms.lookup name).isSome then .help else .wrong
  | _ => .wrong

end Command

/-- A command with the name that leads to the file with settings. -/
structure Invocation where
  config : String := "irgraph"
  command : Command
deriving DecidableEq, Repr

/-- The invocation that a command line spells. The file with settings may be named before the command
or behind it, where the second counts. -/
def Invocation.ofArguments (args : List String) : Except Usage Invocation :=
  match Arguments.leading [.config] {} args with
  | .error u => .error u
  | .ok (front, name, args) =>
    match Command.forms.lookup name with
    | none => .error (if name = Command.helpName then Command.help args else .wrong)
    | some form =>
      match Arguments.collect (.config :: form.flags) form.operands {} args with
      | .error u => .error u
      | .ok a =>
        match form.command? a with
        | none => .error .wrong
        | some command =>
          match (a.value? .config).or (front.value? .config) with
          | some config => .ok { config, command }
          | none => .ok { command }

end CodeGraph
