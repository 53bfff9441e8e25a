import CppsFrontend.Location

/-!
# Diagnoses

Every stage reports what it finds as entries.  A diagnosis keeps the errors and
the warnings, each in the order of their reports.
-/

set_option autoImplicit false

namespace CppsFrontend

inductive Severity where
  | error
  | warning
deriving DecidableEq, Repr

def Severity.name : Severity → String
  | .error => "error"
  | .warning => "warning"

/-- One report.  A location without a column concerns its whole line. -/
structure Entry where
  message : String
  location : Option Location
  fix : Option String
deriving DecidableEq, Repr

namespace Entry

def located (message : String) (location : Location) : Entry := ⟨message, some location, none⟩

def text (entry : Entry) : String :=
  (match entry.location with
    | some location => location.text ++ ": "
    | none => "") ++ entry.message ++
  (match entry.fix with
    | some fix => " (fix: " ++ fix ++ ")"
    | none => "")

end Entry

structure Diagnosis where
  errors : Array Entry
  warnings : Array Entry
deriving DecidableEq, Repr

namespace Diagnosis

def empty : Diagnosis := ⟨#[], #[]⟩

instance : Inhabited Diagnosis := ⟨empty⟩

def error (diagnosis : Diagnosis) (entry : Entry) : Diagnosis :=
  { diagnosis with errors := diagnosis.errors.push entry }

def warning (diagnosis : Diagnosis) (entry : Entry) : Diagnosis :=
  { diagnosis with warnings := diagnosis.warnings.push entry }

def add (diagnosis : Diagnosis) : Severity → Entry → Diagnosis
  | .error, entry => diagnosis.error entry
  | .warning, entry => diagnosis.warning entry

def addErrors (diagnosis : Diagnosis) (entries : Array Entry) : Diagnosis :=
  { diagnosis with errors := diagnosis.errors ++ entries }

def addWarnings (diagnosis : Diagnosis) (entries : Array Entry) : Diagnosis :=
  { diagnosis with warnings := diagnosis.warnings ++ entries }

def hasErrors (diagnosis : Diagnosis) : Bool := !diagnosis.errors.isEmpty

def isEmpty (diagnosis : Diagnosis) : Bool :=
  diagnosis.errors.isEmpty && diagnosis.warnings.isEmpty

def entries (diagnosis : Diagnosis) : List (Severity × Entry) :=
  diagnosis.errors.toList.map (fun entry => (.error, entry)) ++
    diagnosis.warnings.toList.map (fun entry => (.warning, entry))

end Diagnosis

end CppsFrontend
