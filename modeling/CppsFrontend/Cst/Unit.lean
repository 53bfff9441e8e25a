import CppsFrontend.Cst.Statement
import CppsFrontend.Grammar.File

/-!
# Translation units

The declarations of a file, by their handles, with the arena that keeps their nodes.
-/

set_option autoImplicit false

namespace CppsFrontend

variable [NodeKind.Layouts]

namespace Cst

open Grammar.Production (Round isAtEnd)
open Storing

def deepen (nested : StoringNested) : StoringNested where
  statement := statement nested
  expression := expression nested true
  declaration := declaration nested

def productions (depth : Nat) : StoringNested := depth.repeat deepen .none

def fileRound (nested : StoringNested) : Storing (Round (Node NodeKind.declaration)) := do
  if ← isAtEnd then return .stop
  match ← outcome (orReject (declaration nested true) .declarationExpected) with
  | some declaration => return .more declaration
  | none => return .stop

def file (nested : StoringNested) : Storing (List (Node NodeKind.declaration)) :=
  collect (fileRound nested)

end Cst

/-- The declarations of a file, and the arena that keeps them. -/
structure TranslationUnit where
  declarations : List (Node NodeKind.declaration)
  arena : Arena NodeKind

namespace TranslationUnit

def blockCapacity : Nat := 1024 * 500

/-- Parses a token stream into a unit whose arena has a number of its own; with the unit
come the errors and the place of the first token that no declaration holds. -/
def parseAfter (number : Nat) (earlier : Array Entry) (reporting : Reporting)
    (stream : TokenStream) : Except Breach (TranslationUnit × Array Entry × Nat) := do
  let nested := Cst.productions (stream.size + 1)
  let (declarations, state, arena) ←
    Cst.file nested ⟨stream, reporting⟩ ⟨0, earlier⟩ (.start number blockCapacity)
  return (⟨declarations.getD [], arena⟩, state.reports, state.position)

end TranslationUnit

end CppsFrontend
