import CppsFrontend.Grammar.File
import CppsFrontend.Lexical.Lexing
import CppsFrontend.Source.Reading

/-!
# Analysing a file

A file is classified, lexed and parsed, and the reports of all three are one
diagnosis.  A file that has no classified lines has neither tokens nor
declarations.
-/

set_option autoImplicit false

namespace CppsFrontend

structure Analysis where
  source : Except ReadError Source
  stream : TokenStream
  comments : Array Comment
  declarations : List Declaration
  diagnosis : Diagnosis

def Analysis.ofBytes (reporting : Reporting) (bytes : List UInt8) : Analysis :=
  let read := readSource bytes
  let diagnosis := Diagnosis.empty.addErrors read.errors
  match read.source with
  | .error error => ⟨.error error, .ofTokens [], #[], [], diagnosis⟩
  | .ok source =>
      let lexed := lex source
      let diagnosis := diagnosis.addErrors lexed.errors
      let parsed := parseAfter diagnosis.errors reporting lexed.stream
      ⟨.ok source, lexed.stream, lexed.comments, parsed.declarations,
        { diagnosis with errors := parsed.errors }⟩

/-- The lines of the file, none if it has not been classified. -/
def Analysis.lines (analysis : Analysis) : List Line :=
  match analysis.source with
  | .ok source => source.lines
  | .error _ => []

end CppsFrontend
