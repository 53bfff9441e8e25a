import CppsFrontend.Diagnosis.Basic
import CppsFrontend.Output.Sink

/-!
# Diagnoses as JSON

A diagnosis is written as one array with an object for each entry, errors
first.  What an entry does not have is `null`, and so is an unknown column;
a location without a line is no location.  The array is written entry by entry.
-/

set_option autoImplicit false

namespace CppsFrontend

namespace DiagnosisJson

def isControl (c : Char) : Bool :=
  c.toNat < 0x20 || (0x7f ≤ c.toNat && c.toNat < 0xa0)

def hexDigit (value : Nat) : Char := Nat.digitChar (value % 16)

def fourDigits (value : Nat) : List Char :=
  [hexDigit (value / 4096), hexDigit (value / 256), hexDigit (value / 16), hexDigit value]

def escapeChar (c : Char) : List Char :=
  if c = '"' then ['\\', '"']
  else if c = '\\' then ['\\', '\\']
  else if c = '\n' then ['\\', 'n']
  else if c = '\r' then ['\\', 'r']
  else if c = '\t' then ['\\', 't']
  else if isControl c then '\\' :: 'u' :: fourDigits c.toNat
  else [c]

def stringLiteral (text : String) : String :=
  "\"" ++ String.ofList (text.toList.flatMap escapeChar) ++ "\""

def optionalString : Option String → String
  | some text => stringLiteral text
  | none => "null"

/-- A location as an object, `null` if its line is unknown. -/
def locationText : Option Location → String
  | some ⟨some line, column⟩ =>
      "\x7b\"line\":" ++ toString line ++ ",\"column\":" ++
        (match column with
          | some column => toString column
          | none => "null") ++ "\x7d"
  | _ => "null"

def entryText (severity : Severity) (entry : Entry) : String :=
  "\x7b\"severity\":\"" ++ severity.name ++ "\",\"message\":" ++
    stringLiteral entry.message ++ ",\"fixMessage\":" ++ optionalString entry.fix ++
    ",\"location\":" ++ locationText entry.location ++ "\x7d"

end DiagnosisJson

/-- An array on its way to a sink; its next entry may be the first one.  What the sink
refuses is lost. -/
structure JsonEmitter where
  sink : Sink
  first : Bool

namespace JsonEmitter

def start (sink : Sink) : JsonEmitter := ⟨sink, true⟩

variable (emitter : JsonEmitter)

def write (text : String) : JsonEmitter :=
  { emitter with sink := (emitter.sink.write text).1 }

def begin : JsonEmitter := emitter.write "["

def finish : JsonEmitter := emitter.write "]\n"

def emit (severity : Severity) (entry : Entry) : JsonEmitter :=
  let separated := if emitter.first then emitter else emitter.write ","
  { separated.write (DiagnosisJson.entryText severity entry) with first := false }

def emitAll (diagnosis : Diagnosis) : JsonEmitter :=
  diagnosis.entries.foldl (fun emitter item => emitter.emit item.1 item.2) emitter

end JsonEmitter

def DiagnosisJson.diagnosisText (diagnosis : Diagnosis) : String :=
  ((JsonEmitter.start (.empty none)).begin.emitAll diagnosis).finish.sink.text

end CppsFrontend
