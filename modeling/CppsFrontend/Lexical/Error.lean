/-!
# Lexical errors

What can be wrong with the text of a line, and how it is reported.
-/

set_option autoImplicit false

namespace CppsFrontend

inductive LexicalError where
  | binaryLiteralWithoutDigits
  | hexadecimalLiteralWithoutDigits
  | floatingLiteralWithoutFraction (text : String)
  | characterLiteralEmpty
  | characterLiteralUnclosed
  | stringLiteralUnclosed
  | universalNameTooShort (letter : Char) (digits : Nat)
  | unexpectedText (c : Char)
deriving DecidableEq, Repr

def LexicalError.message : LexicalError → String
  | .binaryLiteralWithoutDigits =>
      "binary literal cannot be empty, 0b (or 0B) must be followed by binary digits"
  | .hexadecimalLiteralWithoutDigits =>
      "hexadecimal literal cannot be empty, 0x (or 0X) must be followed by hexadecimal digits"
  | .floatingLiteralWithoutFraction text =>
      "floating point literal " ++ text ++ " fractional part cannot be empty " ++
        "(if floating point was intended, use .0)"
  | .characterLiteralEmpty => "empty character constant"
  | .characterLiteralUnclosed => "character literal is missing its closing '"
  | .stringLiteralUnclosed => "string literal is missing its closing \""
  | .universalNameTooShort letter digits =>
      "invalid universal character name (\\" ++ letter.toString ++ " must be followed by " ++
        toString digits ++ " hexadecimal digits)"
  | .unexpectedText c => "unexpected text '" ++ c.toString ++ "'"

end CppsFrontend
