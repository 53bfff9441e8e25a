import CppsFrontend.Comment
import CppsFrontend.Diagnosis.Basic
import CppsFrontend.Lexical.Line
import CppsFrontend.Source.Basic
import CppsFrontend.Token.Stream

/-!
# Lexing a source

The lines of kind `cpps` are cut into pieces one after the other; tokens,
comments and errors are read off the pieces.  An open block comment is all that
one line hands to the next.
-/

set_option autoImplicit false

namespace CppsFrontend.Lexical

open Text

/-- What has been read so far.  `pending` is the block comment that is open. -/
structure Progress where
  tokens : Array Token
  comments : Array Comment
  errors : Array Entry
  pending : Option Comment

namespace Progress

def start : Progress := ⟨#[], #[], #[], none⟩

def faultEntry (line column : Nat) (fault : Fault) : Entry :=
  .located fault.cause.message <|
    match fault.distance with
    | some distance => .ofIndices line (column + distance)
    | none => .wholeLine line

def read (progress : Progress) (line column : Nat) (piece : Piece) : Progress :=
  let location := Location.ofIndices line column
  let last := Location.ofIndices line (column + byteLength piece.text - 1)
  match piece.kind with
  | .space | .skipped => progress
  | .token lexeme =>
      let token := ⟨lexeme, location, String.ofList piece.text⟩
      { progress with tokens := progress.tokens.push token }
  | .lineComment =>
      let comment := ⟨.line, String.ofList piece.text, location, last⟩
      { progress with comments := progress.comments.push comment }
  | .commentOpening =>
      let comment := ⟨.block, String.ofList piece.text, location, .unknown⟩
      { progress with pending := some comment }
  | .commentText closed =>
      match progress.pending with
      | none => progress
      | some comment =>
          let comment := { comment with text := comment.text ++ String.ofList piece.text }
          if closed then
            { progress with
              comments := progress.comments.push { comment with last := last }
              pending := none }
          else { progress with pending := some comment }

def step (line : Nat) (state : Progress × Nat) (piece : Piece) : Progress × Nat :=
  let faults := piece.faults.map (faultEntry line state.2)
  let progress := state.1.read line state.2 piece
  ({ progress with errors := progress.errors ++ faults.toArray },
    state.2 + byteLength piece.text)

def readLine (progress : Progress) (line : Nat) (text : String) : Progress :=
  ((pieces progress.pending.isSome text.toList).foldl (step line) (progress, 0)).1

def readLines (progress : Progress) (index : Nat) : List Line → Progress
  | [] => progress
  | line :: rest =>
      let progress := if line.kind = .cpps then progress.readLine index line.text else progress
      readLines progress (index + 1) rest

end Progress

end CppsFrontend.Lexical

namespace CppsFrontend

structure Lexed where
  stream : TokenStream
  comments : Array Comment
  errors : Array Entry

/-- Lexes every line of the language.  A block comment that is still open at the
end is kept without its last location. -/
def lex (source : Source) : Lexed :=
  let progress := Lexical.Progress.start.readLines 0 source.lines
  { stream := .ofTokens progress.tokens.toList
    comments := progress.comments ++ progress.pending.toArray
    errors := progress.errors }

end CppsFrontend
