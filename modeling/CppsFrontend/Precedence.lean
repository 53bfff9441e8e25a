import CppsFrontend.Lexeme.Basic

/-!
# Precedence of binary operators

Thirteen levels, loosest first; the operators of a level associate to the left.
-/

set_option autoImplicit false

namespace CppsFrontend

inductive Precedence where
  | assignment | logicalOr | logicalAnd | bitOr | bitXor | bitAnd | equality | relational
  | compare | shift | additive | multiplicative | isAs
deriving DecidableEq

namespace Precedence

def all : List Precedence := [
  .assignment, .logicalOr, .logicalAnd, .bitOr, .bitXor, .bitAnd, .equality, .relational,
  .compare, .shift, .additive, .multiplicative, .isAs]

def name : Precedence → String
  | .assignment => "assignment"
  | .logicalOr => "logical-or"
  | .logicalAnd => "logical-and"
  | .bitOr => "bit-or"
  | .bitXor => "bit-xor"
  | .bitAnd => "bit-and"
  | .equality => "equality"
  | .relational => "relational"
  | .compare => "compare"
  | .shift => "shift"
  | .additive => "additive"
  | .multiplicative => "multiplicative"
  | .isAs => "is-as"

def ofName? (name : String) : Option Precedence :=
  all.find? fun level => level.name == name

def ofLexeme? : Lexeme → Option Precedence
  | .keyword .asWord | .keyword .isWord => some .isAs
  | .punctuator mark =>
      match mark with
      | .ampersandEqual | .assignment | .caretEqual | .leftShiftEqual | .minusEqual
      | .moduloEqual | .multiplyEqual | .pipeEqual | .plusEqual | .rightShiftEqual
      | .slashEqual => some .assignment
      | .logicalOr => some .logicalOr
      | .logicalAnd => some .logicalAnd
      | .pipe => some .bitOr
      | .caret => some .bitXor
      | .ampersand => some .bitAnd
      | .compareEqual | .compareNotEqual => some .equality
      | .less | .lessEqual | .greater | .greaterEqual => some .relational
      | .spaceship => some .compare
      | .leftShift | .rightShift => some .shift
      | .plus | .minus => some .additive
      | .multiply | .slash | .modulo => some .multiplicative
      | _ => none
  | _ => none

/-- The level of a binary operator; the relational ones only count if they are
allowed, because `<` may also open a bracket. -/
def ofOperator? (lexeme : Lexeme) (allowRelational : Bool) : Option Precedence :=
  (ofLexeme? lexeme).filter fun level => allowRelational || level ≠ .relational

def andTighter (level : Precedence) : List Precedence :=
  all.dropWhile (· ≠ level)

end Precedence

end CppsFrontend
