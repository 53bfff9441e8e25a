import CppsFrontend.Diagnosis.Basic

/-!
# Errors of classification

Faults are reported where they stand and do not end the classification.  At its
end a file may turn out not to be classified at all, and the error says why.
-/

set_option autoImplicit false

namespace CppsFrontend

inductive SourceFault where
  | lineUnreadable
  | closeBraceUnexpected
  | textAfterDefinition (c : Char)
  | endNotFound
deriving DecidableEq, Repr

def SourceFault.message : SourceFault → String
  | .lineUnreadable => "source line is unreadable"
  | .closeBraceUnexpected => "unexpected \x7d"
  | .textAfterDefinition c =>
      "unexpected char '" ++ c.toString ++ "'- after cpps definition closing ; or \x7d"
  | .endNotFound => "source end not found"

def SourceFault.entry (fault : SourceFault) (location : Location) : Entry :=
  .located fault.message location

inductive ReadError where
  | endNotFound (line : Nat)
  | unreadable (count : Nat)
deriving DecidableEq, Repr

def ReadError.message : ReadError → String
  | .endNotFound line =>
      "source end not found: the cpps definition starting on line " ++ toString (line + 1) ++
        " is never closed"
  | .unreadable count => toString count ++ " source line(s) are not valid UTF-8"

end CppsFrontend
