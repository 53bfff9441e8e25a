import CppsFrontend.Lexical.Number
import CppsFrontend.Lexical.Quoted
import CppsFrontend.Text.BlockComment

/-!
# Cutting a line

`pieces` cuts a line into its pieces.  A piece is chosen by its first characters:
comments come before punctuators, which are told apart by up to three
characters; then come literals, words and space, and what is left is unexpected.
The pieces of a line, joined, are the line.
-/

set_option autoImplicit false

namespace CppsFrontend.Lexical

open Text

def either (next : Option Char) (second : Char) (long short : Punctuator) : Punctuator :=
  if next = some second then long else short

/-- The mark that begins with a character, chosen by the two characters behind it. -/
def markAt? (c : Char) (next after : Option Char) : Option Punctuator :=
  match c with
  | '&' =>
      match next, after with
      | some '&', some '=' => some .logicalAndEqual
      | some '&', _ => some .logicalAnd
      | _, _ => some (either next '=' .ampersandEqual .ampersand)
  | '=' => some (either next '=' .compareEqual .assignment)
  | '^' => some (either next '=' .caretEqual .caret)
  | '\x7d' => some .closeBrace
  | ']' => some .closeBracket
  | ')' => some .closeParenthesis
  | ':' => some (either next ':' .doubleColon .colon)
  | ',' => some .comma
  | '$' => some .dollar
  | '.' => if next = some '.' && after = some '.' then some .ellipsis else some .dot
  | '>' =>
      match next, after with
      | some '>', some '=' => some .rightShiftEqual
      | some '>', _ => some .rightShift
      | _, _ => some (either next '=' .greaterEqual .greater)
  | '<' =>
      match next, after with
      | some '<', some '=' => some .leftShiftEqual
      | some '<', _ => some .leftShift
      | some '=', some '>' => some .spaceship
      | some '=', _ => some .lessEqual
      | _, _ => some .less
  | '-' =>
      match next with
      | some '-' => some .minusMinus
      | some '=' => some .minusEqual
      | some '>' => some .arrow
      | _ => some .minus
  | '%' => some (either next '=' .moduloEqual .modulo)
  | '*' => some (either next '=' .multiplyEqual .multiply)
  | '!' => some (either next '=' .compareNotEqual .logicalNot)
  | '\x7b' => some .openBrace
  | '[' => some .openBracket
  | '(' => some .openParenthesis
  | '|' =>
      match next, after with
      | some '|', some '=' => some .logicalOrEqual
      | some '|', _ => some .logicalOr
      | _, _ => some (either next '=' .pipeEqual .pipe)
  | '+' =>
      if next = some '+' then some .plusPlus else some (either next '=' .plusEqual .plus)
  | '?' => some .questionMark
  | ';' => some .semicolon
  | '/' => some (either next '=' .slashEqual .slash)
  | '~' => some (either next '=' .tildeEqual .tilde)
  | _ => none

/-- The mark at the front of a text that begins no comment. -/
def punctuator? : List Char → Option Punctuator
  | [] => none
  | c :: rest => markAt? c rest[0]? rest[1]?

def comment? (c : Char) (rest : List Char) : Option Piece :=
  if c = '/' then
    match rest with
    | '*' :: _ => some ⟨.commentOpening, c, ['*'], []⟩
    | '/' :: _ => some ⟨.lineComment, c, rest, []⟩
    | _ => none
  else none

def punctuation? (c : Char) (rest : List Char) : Option Piece :=
  match punctuator? (c :: rest) with
  | some mark =>
      some ⟨.token (.punctuator mark), c, rest.take (mark.spelling.length - 1), []⟩
  | none => none

/-- The whole run of word characters, a reserved word or an identifier. -/
def word? (c : Char) (rest : List Char) : Option Piece :=
  if isWordStart c then
    let tail := rest.takeWhile isWordPart
    some ⟨.token (.ofWord (String.ofList (c :: tail))), c, tail, []⟩
  else none

def space? (c : Char) (rest : List Char) : Option Piece :=
  if isSpace c then some ⟨.space, c, rest.takeWhile isSpace, []⟩ else none

def codePiece (c : Char) (rest : List Char) : Piece :=
  (comment? c rest
    <|> punctuation? c rest
    <|> characterLiteral? c rest
    <|> number? c rest
    <|> stringLiteral? c rest
    <|> word? c rest
    <|> space? c rest).getD ⟨.skipped, c, [], [⟨.unexpectedText c, some 0⟩]⟩

def commentPiece (c : Char) (rest : List Char) : Piece :=
  let fragment := throughCommentEnd (c :: rest)
  ⟨.commentText fragment.2, c, fragment.1.tail, []⟩

def pieceAt (inComment : Bool) (c : Char) (rest : List Char) : Piece :=
  if inComment then commentPiece c rest else codePiece c rest

def pieces (inComment : Bool) : List Char → List Piece
  | [] => []
  | c :: rest =>
      let piece := pieceAt inComment c rest
      piece :: pieces piece.kind.leavesCommentOpen (rest.drop piece.tail.length)
termination_by text => text.length
decreasing_by simp only [List.length_drop, List.length_cons]; omega

end CppsFrontend.Lexical
