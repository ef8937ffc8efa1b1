import CodeGraph.Program.Walk
import CodeGraph.Symbol

/-!
# Tags

Some nodes get a label of their own when they are stored. The entry point of a program is tagged,
and so are the variables that its functions declare to a debugger.

* `Graph.isEntryPoint`, `isRuntime`: what the name of a function says about it;
* `Graph.tracked`: the declarations in a block that a debug call of the same block is about;
* `Graph.taggings`: all reasons to tag a slot, in the order of functions;
* `Graph.tag?`: the tag of a slot, which is the first one that there is a reason for.
-/

namespace CodeGraph

/-- A reason for an additional label. -/
inductive Tag
  /-- A variable that a debug call declares. -/
  | trackedVariable
  /-- The entry point of a program. -/
  | mainFunction
deriving DecidableEq, Repr

/-- The label of a tag. -/
def Tag.label : Tag → String
  | .trackedVariable => "TrackedVariable"
  | .mainFunction => "MainFunctionDeclaration"

/-- How the names of functions begin that belong to a language's runtime and not to a program. -/
def runtimePrefixes : List String :=
  ["std::", "core::", "alloc::", "proc_macro::", "std_detect::", "test::", "__rust", "__CxxFrame",
    "llvm.", "literal_"]

/-- Whether a function of this name belongs to the runtime. -/
def isRuntime (name : String) : Bool :=
  runtimePrefixes.any fun front => front.toList.isPrefixOf name.toList

/-- Whether a function of this name is an entry point. -/
def isEntryPoint (name : String) : Bool :=
  "::main".toList.isSuffixOf name.toList

/-- The path that the name of a node spells; empty if it has no name. -/
def Node.path (n : Node) : String :=
  Symbol.decode (n.name?.getD "")

/-- The function that declares a variable to the debugger. -/
def debugDeclare : String := "llvm.dbg.declare"

/-- Whether a node is a call that declares a variable to the debugger. -/
def Node.isDebugDeclare (n : Node) : Bool :=
  n.kind == .callExpression && n.name? == some debugDeclare

/-- Whether a node declares a variable with this local name. -/
def Node.declares (n : Node) (name : String) : Bool :=
  n.kind == .variableDeclaration && n.localName? == some name

/-- The part of a text after its last `c`, or the whole text if there is none. -/
def afterLast (c : Char) (s : String) : String :=
  String.ofList (s.toList.reverse.takeWhile (· != c)).reverse

namespace Graph

/-- The variable that a debug call is about: its first argument reads like `metadata ptr %x`. -/
def register? (g : Graph) (call : Node) : Option String := do
  let argument ← (call.targets "ARGUMENTS").head?
  let code ← (← g.node? argument).code?
  return afterLast '%' code

/-- The variable that the node of a slot declares to the debugger. -/
def debugged? (g : Graph) (s : Slot) : Option String := do
  let call ← g.node? s
  if call.isDebugDeclare then g.register? call else none

/-- The first of some slots that declares a variable of this local name. -/
def declaration? (g : Graph) (slots : List Slot) (name : String) : Option Slot :=
  slots.find? fun s => (g.node? s).any (·.declares name)

/-- The declarations in a block that the debug calls in the block are about. Nodes whose nearest
block is another one take no part. -/
def tracked (g : Graph) (block : Slot) : List Slot :=
  let members := g.members block
  members.filterMap fun s => (g.debugged? s).bind (g.declaration? members)

/-- The reasons that a function gives to tag slots. -/
def functionTaggings (g : Graph) (s : Slot) (n : Node) : List (Slot × Tag) :=
  let path := n.path
  (if isEntryPoint path then [(s, Tag.mainFunction)] else []) ++
    if isRuntime path then []
    else (g.blocks s).flatMap fun b => (g.tracked b).map fun v => (v, Tag.trackedVariable)

/-- All reasons to tag a slot, in the order of functions. -/
def taggings (g : Graph) : List (Slot × Tag) :=
  g.slots.flatMap fun (s, n) => if n.kind.isFunction then g.functionTaggings s n else []

/-- The tag of a slot. -/
def tag? (g : Graph) (s : Slot) : Option Tag :=
  g.taggings.lookup s

end Graph

end CodeGraph
