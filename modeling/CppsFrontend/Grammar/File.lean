import CppsFrontend.Grammar.Statement

/-!
# Parsing a file

A file is a sequence of declarations.  `productions depth` are the productions in
which nothing is nested deeper than `depth`; one level more than there are tokens
is enough for every file, since each level passes a token.
-/

set_option autoImplicit false

namespace CppsFrontend

namespace Grammar

open Production

def deepen (nested : Nested) : Nested where
  statement := statement nested
  expression := expression nested true
  declaration := declaration nested

def productions (depth : Nat) : Nested := depth.repeat deepen .none

/-- The next declaration of a file; the file ends where there is none. -/
def fileRound (nested : Nested) : Production (Round Declaration) := do
  if ← isAtEnd then return .stop
  match ← outcome (orReject (declaration nested true) .declarationExpected) with
  | some declaration => return .more declaration
  | none => return .stop

/-- The declarations up to the first that fails. -/
def file (nested : Nested) : Production (List Declaration) := collect (fileRound nested)

end Grammar

structure Parsed where
  declarations : List Declaration
  errors : Array Entry
  position : Nat

/-- Parses a token stream; `earlier` are the errors that are there already. -/
def parseAfter (earlier : Array Entry) (reporting : Reporting) (stream : TokenStream) :
    Parsed :=
  let nested := Grammar.productions (stream.size + 1)
  match Grammar.file nested ⟨stream, reporting⟩ ⟨0, earlier⟩ with
  | (declarations, state) => ⟨declarations.getD [], state.reports, state.position⟩

def parse (reporting : Reporting) (stream : TokenStream) : Parsed :=
  parseAfter #[] reporting stream

end CppsFrontend
