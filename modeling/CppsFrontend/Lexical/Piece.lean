import CppsFrontend.Lexeme.Basic
import CppsFrontend.Lexical.Error

/-!
# Pieces of a line

The text of a line is cut from left to right into pieces, and each piece is
space, a token, part of a comment, or text that no token begins with.  A piece
holds at least one character.  Faults of a piece are anchored at a byte of it, or
at the whole line.
-/

set_option autoImplicit false

namespace CppsFrontend

inductive PieceKind where
  | space
  | token (lexeme : Lexeme)
  /-- A comment that reaches to the end of its line. -/
  | lineComment
  /-- The two characters that open a block comment. -/
  | commentOpening
  /-- Text inside a block comment, with the closing characters if `closed`. -/
  | commentText (closed : Bool)
  /-- Text that is passed over because of a fault. -/
  | skipped
deriving DecidableEq

def PieceKind.leavesCommentOpen : PieceKind → Bool
  | .commentOpening => true
  | .commentText closed => !closed
  | _ => false

/-- What is wrong with a piece, and how many bytes after its first one; without
a distance the whole line is meant. -/
structure Fault where
  cause : LexicalError
  distance : Option Nat
deriving DecidableEq

/-- A piece of a line: one character and the ones after it that belong to it. -/
structure Piece where
  kind : PieceKind
  first : Char
  tail : List Char
  faults : List Fault
deriving DecidableEq

def Piece.text (piece : Piece) : List Char := piece.first :: piece.tail

@[simp] theorem Piece.text_ne_nil (piece : Piece) : piece.text ≠ [] := by
  simp [Piece.text]

end CppsFrontend
