import CppsFrontend.Precedence
import CppsFrontend.Token.Basic

/-!
# The tree of a file

What the grammar derives from a token stream.  Tokens stand in the tree by their
place in the stream.  Locations that reports need are kept where they are read.
-/

set_option autoImplicit false

namespace CppsFrontend

/-- A name, perhaps after `const`.  Keywords may stand for names, because the
fundamental types are spelled with them. -/
structure UnqualifiedIdentifier where
  constant : Option TokenId
  identifier : TokenId
deriving DecidableEq

structure ScopedIdentifier where
  scope : TokenId
  identifier : UnqualifiedIdentifier
deriving DecidableEq

inductive Identifier where
  | unqualified (name : UnqualifiedIdentifier)
  | qualified (first : UnqualifiedIdentifier) (more : List ScopedIdentifier)
deriving DecidableEq

structure IdentifierExpression where
  identifier : Identifier
  location : Location
deriving DecidableEq

inductive IterationKind where
  | testBefore
  | testAfter
deriving DecidableEq

mutual

/-- A named or unnamed declaration, from its first token `first` to its last one
`last`.  `pointer` is the `*` before the type of an object. -/
structure Declaration where
  identifier : Option UnqualifiedIdentifier
  type : DeclarationType
  pointer : Option TokenId
  initializer : Option Statement
  first : Location
  last : Location
  equal : Option Location

inductive DeclarationType where
  | function (signature : FunctionSignature)
  | object (type : IdentifierExpression)

structure FunctionSignature where
  parameters : ParameterList
  throws : Bool
  returns : Returns

inductive Returns where
  | nothing
  | value (type : IdentifierExpression)
  | named (results : ParameterList)

structure ParameterList where
  parameters : List Parameter
  opening : Location
  closing : Location

structure Parameter where
  modifier : ParameterModifier
  declaration : Declaration
  location : Location

inductive Statement where
  | declaration (declaration : Declaration)
  | compound (block : Compound)
  | expression (expression : Expression) (semicolon : Bool)
  | iteration (kind : IterationKind) (keyword : TokenId) (condition : Expression)
      (body : Compound)
  | result (keyword : TokenId) (expression : Option Expression)
  | selection (keyword : TokenId) (constant : Option TokenId) (condition : Expression)
      (positive : Compound) (negative : Option Compound)

/-- Statements between braces.  `opening` is the `=` before the brace where both
are on one line. -/
structure Compound where
  statements : List Statement
  opening : Location
  closing : Location

inductive Expression where
  | basic (signs : List TokenId) (primary : Primary) (terms : List PostfixTerm)
  | chain (level : Precedence) (first : Expression) (terms : List ChainTerm)

structure ChainTerm where
  operator : TokenId
  operand : Expression

inductive Primary where
  | token (token : TokenId)
  | list (list : ExpressionList)
  | identifier (expression : IdentifierExpression)
  | function (declaration : Declaration)

inductive PostfixTerm where
  | operator (operator : TokenId)
  | member (dot : TokenId) (member : IdentifierExpression)
  | arguments (opening : TokenId) (arguments : ExpressionList) (closing : TokenId)

structure ExpressionList where
  terms : List Argument
  opening : Location
  closing : Location

structure Argument where
  modifier : ParameterModifier
  expression : Expression

end

def Declaration.isFunction (declaration : Declaration) : Bool :=
  match declaration.type with
  | .function _ => true
  | .object _ => false

end CppsFrontend
