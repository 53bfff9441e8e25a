import CppsFrontend.Arena.Basic
import CppsFrontend.Tree.Basic

/-!
# Nodes

The tree of a file as it is kept in an arena: a value of its own for each node, which
reaches the nodes below it by handles.  Parts that are no nodes stand in the value of the
node that they belong to.
-/

set_option autoImplicit false

namespace CppsFrontend

inductive NodeKind where
  | declaration
  | functionSignature
  | parameterList
  | parameter
  | unqualifiedIdentifier
  | qualifiedIdentifier
  | identifierExpression
  | statement
  | compound
  | expressionStatement
  | iteration
  | result
  | selection
  | expression
  | chain
  | basic
  | primary
  | expressionList
deriving DecidableEq, Repr

namespace Cst

open NodeKind

/-! ## Declarations -/

inductive DeclarationType where
  | function (signature : Node functionSignature)
  | object (type : Node identifierExpression)

structure Declaration where
  identifier : Option (Node unqualifiedIdentifier)
  type : DeclarationType
  pointer : Option TokenId
  initializer : Option (Node statement)
  first : Location
  last : Location
  equal : Option Location

inductive Returns where
  | nothing
  | value (type : Node identifierExpression)
  | named (results : Node parameterList)

structure ParameterList where
  parameters : List (Node parameter)
  opening : Location
  closing : Location

structure FunctionSignature where
  parameters : ParameterList
  throws : Bool
  returns : Returns

structure Parameter where
  modifier : ParameterModifier
  declaration : Node declaration
  location : Location

/-! ## Names -/

/-- A name and the `::` before it, which the first of several names does not have. -/
structure QualifiedTerm where
  scope : Option TokenId
  identifier : Node unqualifiedIdentifier

structure QualifiedIdentifier where
  terms : List QualifiedTerm

inductive Identifier where
  | unqualified (name : Node unqualifiedIdentifier)
  | qualified (names : Node qualifiedIdentifier)

structure IdentifierExpression where
  identifier : Identifier
  location : Location

/-! ## Statements -/

inductive Statement where
  | declaration (declaration : Node NodeKind.declaration)
  | compound (block : Node NodeKind.compound)
  | expression (statement : Node expressionStatement)
  | iteration (loop : Node NodeKind.iteration)
  | result (statement : Node NodeKind.result)
  | selection (statement : Node NodeKind.selection)

structure Compound where
  statements : List (Node statement)
  opening : Location
  closing : Location

structure ExpressionStatement where
  expression : Node NodeKind.expression
  semicolon : Bool

structure Iteration where
  kind : IterationKind
  keyword : TokenId
  condition : Node expression
  body : Node compound

structure Result where
  keyword : TokenId
  expression : Option (Node NodeKind.expression)

structure Selection where
  keyword : TokenId
  constant : Option TokenId
  condition : Node expression
  positive : Node compound
  negative : Option (Node compound)

/-! ## Expressions -/

inductive Operand where
  | basic (expression : Node NodeKind.basic)
  | chain (chain : Node NodeKind.chain)

structure Expression where
  root : Operand

structure ChainTerm where
  operator : TokenId
  operand : Operand

structure Chain where
  level : Precedence
  first : Operand
  terms : List ChainTerm

structure Argument where
  modifier : ParameterModifier
  expression : Node NodeKind.expression

structure ExpressionList where
  terms : List Argument
  opening : Location
  closing : Location

structure PostfixTerm where
  operator : TokenId
  member : Option (Node identifierExpression)
  arguments : Option ExpressionList
  closing : Option TokenId

structure Basic where
  signs : List TokenId
  primary : Node NodeKind.primary
  terms : List PostfixTerm

inductive Primary where
  | token (token : TokenId)
  | list (list : Node expressionList)
  | identifier (expression : Node identifierExpression)
  | function (declaration : Node NodeKind.declaration)

end Cst

namespace NodeKind

@[reducible] def Content : NodeKind → Type
  | declaration => Cst.Declaration
  | functionSignature => Cst.FunctionSignature
  | parameterList => Cst.ParameterList
  | parameter => Cst.Parameter
  | unqualifiedIdentifier => UnqualifiedIdentifier
  | qualifiedIdentifier => Cst.QualifiedIdentifier
  | identifierExpression => Cst.IdentifierExpression
  | statement => Cst.Statement
  | compound => Cst.Compound
  | expressionStatement => Cst.ExpressionStatement
  | iteration => Cst.Iteration
  | result => Cst.Result
  | selection => Cst.Selection
  | expression => Cst.Expression
  | chain => Cst.Chain
  | basic => Cst.Basic
  | primary => Cst.Primary
  | expressionList => Cst.ExpressionList

/-- How many bytes each kind of node takes, which is for the compiler to say. -/
class Layouts where
  layout : NodeKind → Layout

instance [Layouts] : NodeKinds NodeKind where
  Value := Content
  layout := Layouts.layout
  decEq := inferInstance

end NodeKind

end CppsFrontend
