import CppsFrontend.Output.Sink

/-!
# Printing lines of a source

Every printed line is a line of the source, and a reader of the output counts on:
the next line printed is the next line of the source.  Where it is not, a line
directive tells which one it is.
-/

set_option autoImplicit false

namespace CppsFrontend

/-- A sink with the source line that a reader expects next, if something has been
printed, and the count of lines in the sink. -/
structure Printer where
  sink : Sink
  expected : Option Nat
  linesWritten : Nat

namespace Printer

def start (sink : Sink) : Printer := ⟨sink, none, 0⟩

def write (printer : Printer) (text : String) (expected : Nat) :
    Printer × Option WriteError :=
  match printer.sink.write (text ++ "\n") with
  | (sink, none) => (⟨sink, some expected, printer.linesWritten + 1⟩, none)
  | (sink, some error) => ({ printer with sink := sink }, some error)

def line (printer : Printer) (text : String) (index : Nat) : Printer × Option WriteError :=
  printer.write text (index + 1)

/-- The directive by which the next line is a source line.  Directives count lines
from one. -/
def directive (printer : Printer) (index : Nat) : Printer × Option WriteError :=
  printer.write ("#line " ++ toString (index + 1)) index

def isOutOfStep (printer : Printer) (index : Nat) : Bool :=
  index ≠ printer.expected.getD 0

end Printer

end CppsFrontend
