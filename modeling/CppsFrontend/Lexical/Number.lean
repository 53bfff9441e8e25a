import CppsFrontend.Lexical.Piece
import CppsFrontend.Text.Character

/-!
# Number literals

Binary and hexadecimal literals have a prefix and at least one digit.  Decimal
digits may be followed by a point and a fraction, which then must begin with a
digit.  A mark may stand among the digits after the first one.
-/

set_option autoImplicit false

namespace CppsFrontend.Lexical

open Text

def moreDigits (digit : Char → Bool) (rest : List Char) : List Char :=
  rest.takeWhile (isDigitOrMark digit)

/-- A zero and the letter of a base, with `rest` after the letter.  Without a digit
there only the zero is passed over. -/
def prefixedNumber (letter : Char) (digit : Char → Bool) (lexeme : Lexeme)
    (error : LexicalError) (rest : List Char) : Piece :=
  match rest with
  | d :: more =>
      if digit d then ⟨.token lexeme, '0', letter :: d :: moreDigits digit more, []⟩
      else ⟨.skipped, '0', [], [⟨error, some 0⟩]⟩
  | [] => ⟨.skipped, '0', [], [⟨error, some 0⟩]⟩

/-- A number without a digit behind its point: the digits and the point are passed
over. -/
def withoutFraction (c : Char) (digits : List Char) : Piece :=
  let text := digits ++ ['.']
  ⟨.skipped, c, text,
    [⟨.floatingLiteralWithoutFraction (String.ofList (c :: text)), some 0⟩]⟩

def decimalNumber (c : Char) (rest : List Char) : Piece :=
  let digits := moreDigits isDigit rest
  match rest.drop digits.length with
  | '.' :: after =>
      match after with
      | d :: more =>
          if isDigit d then
            ⟨.token .floatingLiteral, c, digits ++ '.' :: d :: moreDigits isDigit more, []⟩
          else withoutFraction c digits
      | [] => withoutFraction c digits
  | _ => ⟨.token .decimalLiteral, c, digits, []⟩

def number? (c : Char) (rest : List Char) : Option Piece :=
  if !isDigit c then none
  else if c = '0' then
    match rest with
    | letter :: after =>
        if letter = 'b' || letter = 'B' then
          some (prefixedNumber letter isBinaryDigit .binaryLiteral
            .binaryLiteralWithoutDigits after)
        else if letter = 'x' || letter = 'X' then
          some (prefixedNumber letter isHexDigit .hexadecimalLiteral
            .hexadecimalLiteralWithoutDigits after)
        else some (decimalNumber c rest)
    | [] => some (decimalNumber c rest)
  else some (decimalNumber c rest)

end CppsFrontend.Lexical
