import CodeGraph.Dict

/-!
# Kinds of nodes

A program graph has twenty kinds of nodes. The kind of a node fixes its labels and the relationships
that it may hold.

* `Kind`, `Kind.all`: the kinds; `Kind.name` is also the most specific label;
* `Relationship`: a relationship that a kind declares, by name, arity and whether it is
  *containment*, that is whether its targets are syntactic parts of the node;
* `Kind.relationships`: the declared relationships in the order in which they are walked;
* `Kind.labels`: the labels, most specific first, ending in `nodeLabel`.
-/

namespace CodeGraph

/-- How many targets a relationship holds, and in which form. -/
inductive Arity
  /-- Exactly one target. -/
  | single
  /-- A list of targets. -/
  | nodes
  /-- A list of targets, each with properties. -/
  | edges
deriving DecidableEq, Repr

/-- A relationship that nodes of a kind may hold. -/
structure Relationship where
  name : String
  arity : Arity
  /-- Whether the targets are syntactic parts of the node. -/
  contains : Bool
deriving DecidableEq, Repr

/-- The kinds of nodes. -/
inductive Kind
  | translationUnitDeclaration
  | functionDeclaration
  | methodDeclaration
  | variableDeclaration
  | parameterDeclaration
  | block
  | declarationStatement
  | returnStatement
  | callExpression
  | reference
  | literal
  | binaryOperator
  | unaryOperator
  | assignExpression
  | functionScope
  | blockScope
  | objectType
  | pointerType
  | unknownType
  | language
deriving DecidableEq, Repr

/-- The label that every node carries. -/
def nodeLabel : String := "Node"

namespace Kind

/-- All kinds. -/
def all : List Kind :=
  [.translationUnitDeclaration, .functionDeclaration, .methodDeclaration, .variableDeclaration,
   .parameterDeclaration, .block, .declarationStatement, .returnStatement, .callExpression,
   .reference, .literal, .binaryOperator, .unaryOperator, .assignExpression, .functionScope,
   .blockScope, .objectType, .pointerType, .unknownType, .language]

/-- The name of a kind, which is its most specific label. -/
def name : Kind → String
  | .translationUnitDeclaration => "TranslationUnitDeclaration"
  | .functionDeclaration => "FunctionDeclaration"
  | .methodDeclaration => "MethodDeclaration"
  | .variableDeclaration => "VariableDeclaration"
  | .parameterDeclaration => "ParameterDeclaration"
  | .block => "Block"
  | .declarationStatement => "DeclarationStatement"
  | .returnStatement => "ReturnStatement"
  | .callExpression => "CallExpression"
  | .reference => "Reference"
  | .literal => "Literal"
  | .binaryOperator => "BinaryOperator"
  | .unaryOperator => "UnaryOperator"
  | .assignExpression => "AssignExpression"
  | .functionScope => "FunctionScope"
  | .blockScope => "BlockScope"
  | .objectType => "ObjectType"
  | .pointerType => "PointerType"
  | .unknownType => "UnknownType"
  | .language => "Language"

/-- The labels that a kind has besides its name, most specific first. -/
def generalLabels : Kind → List String
  | .translationUnitDeclaration => ["Declaration", "AstNode", nodeLabel]
  | .functionDeclaration | .variableDeclaration | .parameterDeclaration =>
    ["ValueDeclaration", "Declaration", "AstNode", nodeLabel]
  | .methodDeclaration =>
    ["FunctionDeclaration", "ValueDeclaration", "Declaration", "AstNode", nodeLabel]
  | .block | .callExpression | .reference | .literal | .binaryOperator | .unaryOperator
    | .assignExpression =>
    ["Expression", "Statement", "AstNode", nodeLabel]
  | .declarationStatement | .returnStatement => ["Statement", "AstNode", nodeLabel]
  | .functionScope | .blockScope => ["Scope", nodeLabel]
  | .objectType | .pointerType | .unknownType => ["Type", nodeLabel]
  | .language => [nodeLabel]

/-- The labels of a kind, most specific first. -/
def labels (k : Kind) : List String :=
  k.name :: k.generalLabels

/-- Whether nodes of this kind are functions. -/
def isFunction : Kind → Bool
  | .functionDeclaration | .methodDeclaration => true
  | _ => false

/-- Whether nodes of this kind are scopes. -/
def isScope : Kind → Bool
  | .functionScope | .blockScope => true
  | _ => false

end Kind

namespace Relationship

/-- A relationship with exactly one target. -/
def single (name : String) : Relationship := ⟨name, .single, false⟩

/-- A relationship with a list of targets. -/
def nodes (name : String) : Relationship := ⟨name, .nodes, false⟩

/-- A relationship with a list of targets that have properties. -/
def edges (name : String) : Relationship := ⟨name, .edges, false⟩

/-- The relationship as containment. -/
def containment (r : Relationship) : Relationship := { r with contains := true }

/-- The language of a node. -/
def toLanguage : Relationship := single "LANGUAGE"

/-- The scope that a node stands in. -/
def toScope : Relationship := single "SCOPE"

/-- The type of a node. -/
def toType : Relationship := single "TYPE"

/-- The nodes that are evaluated next. -/
def evaluation : Relationship := edges "EOG"

/-- The nodes that data flows to. -/
def flow : Relationship := edges "DFG"

end Relationship

section

open Relationship

/-- The relationships that nodes of a kind may hold, in the order in which they are walked. -/
def Kind.relationships : Kind → List Relationship
  | .translationUnitDeclaration => [(edges "DECLARATIONS").containment, toLanguage]
  | .functionDeclaration | .methodDeclaration =>
    [(edges "PARAMETERS").containment, (single "BODY").containment, nodes "RETURN_TYPES", toScope,
     toLanguage, evaluation]
  | .variableDeclaration =>
    [(single "INITIALIZER").containment, toType, toScope, toLanguage, evaluation, flow]
  | .parameterDeclaration => [toType, toScope, toLanguage, flow]
  | .block => [(edges "STATEMENTS").containment, toScope, toLanguage, evaluation]
  | .declarationStatement => [(edges "DECLARATIONS").containment, toLanguage, evaluation]
  | .returnStatement => [(edges "RETURN_VALUES").containment, toLanguage, evaluation]
  | .callExpression =>
    [(single "CALLEE").containment, (edges "ARGUMENTS").containment, nodes "INVOKES", toType,
     toLanguage, evaluation, flow]
  | .reference => [single "REFERS_TO", toType, toLanguage, evaluation, flow]
  | .literal => [toType, toLanguage, evaluation, flow]
  | .binaryOperator =>
    [(single "LHS").containment, (single "RHS").containment, toType, toLanguage, evaluation, flow]
  | .unaryOperator => [(single "INPUT").containment, toType, toLanguage, evaluation, flow]
  | .assignExpression =>
    [(edges "LHS").containment, (edges "RHS").containment, toLanguage, evaluation, flow]
  | .functionScope | .blockScope => [single "AST_NODE", single "PARENT"]
  | .objectType => [nodes "SUPER_TYPES", toLanguage]
  | .pointerType => [single "ELEMENT_TYPE", toLanguage]
  | .unknownType | .language => []

end

namespace Kind

/-- The declared relationship of a name. -/
def relationship? (k : Kind) (name : String) : Option Relationship :=
  k.relationships.find? (·.name == name)

/-- The kind of a name. -/
def ofName? (name : String) : Option Kind :=
  all.find? (·.name == name)

/-- A kind declares each name once. -/
theorem nodup_relationships (k : Kind) : (k.relationships.map Relationship.name).Nodup := by
  cases k <;> decide

/-- No two kinds have the same name. -/
theorem ofName?_name (k : Kind) : ofName? k.name = some k := by
  cases k <;> decide

end Kind

end CodeGraph
