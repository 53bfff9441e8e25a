import CppsFrontend.Diagnosis.Basic

/-!
# Expectations on a diagnosis

An expectation is met by a diagnosis without entries of a severity; if it is
not met, the unexpected entries are listed.
-/

set_option autoImplicit false

namespace CppsFrontend.Diagnosis

def unexpected (what : String) (entries : Array Entry) : String :=
  "expected no " ++ what ++ ", got " ++ toString entries.size ++ ":\n" ++
    "\n".intercalate (entries.toList.map fun entry => "  " ++ entry.text)

def unexpectedErrors? (diagnosis : Diagnosis) : Option String :=
  if diagnosis.errors.isEmpty then none else some (unexpected "errors" diagnosis.errors)

def unexpectedWarnings? (diagnosis : Diagnosis) : Option String :=
  if diagnosis.warnings.isEmpty then none
  else some (unexpected "warnings" diagnosis.warnings)

/-- The errors, or else the warnings, if there are any. -/
def unexpectedEntries? (diagnosis : Diagnosis) : Option String :=
  diagnosis.unexpectedErrors? <|> diagnosis.unexpectedWarnings?

end CppsFrontend.Diagnosis
