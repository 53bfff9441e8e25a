/-!
# Sinks

A sink takes bytes until it is full.  A text that fits only in part is taken in
part, so a sink always holds the beginning of what was written to it.
-/

set_option autoImplicit false

namespace CppsFrontend

inductive WriteError where
  | sinkFull
deriving DecidableEq, Repr

def WriteError.message : WriteError → String
  | .sinkFull => "sink full"

/-- The bytes taken so far, and how many there can be at most; without a capacity
there is no limit. -/
structure Sink where
  bytes : ByteArray
  capacity : Option Nat

namespace Sink

def empty (capacity : Option Nat) : Sink := ⟨.empty, capacity⟩

def accept (sink : Sink) (bytes : ByteArray) : ByteArray :=
  match sink.capacity with
  | none => bytes
  | some capacity => bytes.extract 0 (capacity - sink.bytes.size)

def write (sink : Sink) (text : String) : Sink × Option WriteError :=
  let accepted := sink.accept text.toUTF8
  ({ sink with bytes := sink.bytes ++ accepted },
    if accepted.size = text.utf8ByteSize then none else some .sinkFull)

/-- Bytes as text, with a replacement character for a character that is cut at the
end.  Of a character of four bytes at most three can be left. -/
def decode (bytes : ByteArray) : String :=
  let without (count : Nat) : Option String :=
    (String.fromUTF8? (bytes.extract 0 (bytes.size - count))).map (· ++ "\ufffd")
  (String.fromUTF8? bytes <|> without 1 <|> without 2 <|> without 3).getD "\ufffd"

def text (sink : Sink) : String := decode sink.bytes

end Sink

end CppsFrontend
