import CppsFrontend.Lexeme.Basic
import CppsFrontend.Location

/-!
# Tokens

A token is a lexeme, the location of its first byte and the exact text that it
covers.  Tokens of a stream are named by their place in it.
-/

set_option autoImplicit false

namespace CppsFrontend

structure Token where
  lexeme : Lexeme
  location : Location
  text : String
deriving DecidableEq

abbrev TokenId := Nat

namespace Token

/-- What stands past the end of a stream. -/
def invalid : Token := ⟨.invalid, .unknown, ""⟩

instance : Inhabited Token := ⟨invalid⟩

def isValid (token : Token) : Bool := token.lexeme.isValid

def endColumn (token : Token) : Option Nat :=
  Location.axis (Location.rank token.location.column + token.text.utf8ByteSize)

/-- Whether `next` begins on the same line exactly where `token` ends. -/
def isAdjacentTo (token next : Token) : Bool :=
  token.location.line = next.location.line && token.endColumn = next.location.column

def quoted (text : String) : String :=
  "\"" ++ String.join (text.toList.map fun c =>
    if c = '"' || c = '\\' then "\\" ++ c.toString else c.toString) ++ "\""

def fullText (token : Token) : String :=
  token.lexeme.fullText ++ " " ++ quoted token.text ++ " @ " ++ token.location.bracedText

end Token

end CppsFrontend
