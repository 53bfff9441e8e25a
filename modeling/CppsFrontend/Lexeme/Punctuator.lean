/-!
# Punctuators

The operators and separators with their spellings.  No spelling is longer than
three characters.
-/

set_option autoImplicit false

namespace CppsFrontend

/-- Operators and separators, in the order of their names. -/
inductive Punctuator where
  | ampersand | ampersandEqual | arrow | assignment | caret | caretEqual | closeBrace
  | closeBracket | closeParenthesis | colon | comma | compareEqual | compareNotEqual | dollar
  | dot | doubleColon | ellipsis | greater | greaterEqual | leftShift | leftShiftEqual | less
  | lessEqual | logicalAnd | logicalAndEqual | logicalOr | logicalOrEqual | minus | minusEqual
  | minusMinus | modulo | moduloEqual | logicalNot | multiply | multiplyEqual | openBrace
  | openBracket | openParenthesis | pipe | pipeEqual | plus | plusEqual | plusPlus
  | questionMark | rightShift | rightShiftEqual | semicolon | slash | slashEqual | spaceship
  | tilde | tildeEqual
deriving DecidableEq

namespace Punctuator

def spelling : Punctuator → String
  | .ampersand => "&"
  | .ampersandEqual => "&="
  | .arrow => "->"
  | .assignment => "="
  | .caret => "^"
  | .caretEqual => "^="
  | .closeBrace => "\x7d"
  | .closeBracket => "]"
  | .closeParenthesis => ")"
  | .colon => ":"
  | .comma => ","
  | .compareEqual => "=="
  | .compareNotEqual => "!="
  | .dollar => "$"
  | .dot => "."
  | .doubleColon => "::"
  | .ellipsis => "..."
  | .greater => ">"
  | .greaterEqual => ">="
  | .leftShift => "<<"
  | .leftShiftEqual => "<<="
  | .less => "<"
  | .lessEqual => "<="
  | .logicalAnd => "&&"
  | .logicalAndEqual => "&&="
  | .logicalOr => "||"
  | .logicalOrEqual => "||="
  | .minus => "-"
  | .minusEqual => "-="
  | .minusMinus => "--"
  | .modulo => "%"
  | .moduloEqual => "%="
  | .logicalNot => "!"
  | .multiply => "*"
  | .multiplyEqual => "*="
  | .openBrace => "\x7b"
  | .openBracket => "["
  | .openParenthesis => "("
  | .pipe => "|"
  | .pipeEqual => "|="
  | .plus => "+"
  | .plusEqual => "+="
  | .plusPlus => "++"
  | .questionMark => "?"
  | .rightShift => ">>"
  | .rightShiftEqual => ">>="
  | .semicolon => ";"
  | .slash => "/"
  | .slashEqual => "/="
  | .spaceship => "<=>"
  | .tilde => "~"
  | .tildeEqual => "~="

def all : List Punctuator := [
  .ampersand, .ampersandEqual, .arrow, .assignment, .caret, .caretEqual, .closeBrace,
  .closeBracket, .closeParenthesis, .colon, .comma, .compareEqual, .compareNotEqual, .dollar,
  .dot, .doubleColon, .ellipsis, .greater, .greaterEqual, .leftShift, .leftShiftEqual, .less,
  .lessEqual, .logicalAnd, .logicalAndEqual, .logicalOr, .logicalOrEqual, .minus, .minusEqual,
  .minusMinus, .modulo, .moduloEqual, .logicalNot, .multiply, .multiplyEqual, .openBrace,
  .openBracket, .openParenthesis, .pipe, .pipeEqual, .plus, .plusEqual, .plusPlus,
  .questionMark, .rightShift, .rightShiftEqual, .semicolon, .slash, .slashEqual, .spaceship,
  .tilde, .tildeEqual]

end Punctuator

end CppsFrontend
