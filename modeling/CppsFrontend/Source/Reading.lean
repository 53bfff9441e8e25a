import CppsFrontend.Source.Basic
import CppsFrontend.Source.Definition
import CppsFrontend.Source.Foreign
import CppsFrontend.Source.PhysicalLine

/-!
# Classifying a file

The lines of a file are classified one after the other.  A blank line, a
directive, the beginning of a definition and an import are recognized by how they
begin, in this order; all others are comments or C++.  A directive goes on behind
a backslash, and a definition up to its end.
-/

set_option autoImplicit false

namespace CppsFrontend

open Text

inductive ReadingMode where
  | outside
  | directive
  /-- A definition that began on a line. -/
  | definition (first : Nat)
deriving DecidableEq, Repr

/-- What is known between two lines of a file. -/
structure Reading where
  source : Source
  errors : Array Entry
  inComment : Bool
  inString : Bool
  depth : Nat
  unreadable : Nat
  mode : ReadingMode

namespace Reading

def start : Reading := ⟨.empty, #[], false, false, 0, 0, .outside⟩

variable (reading : Reading)

def add (text : String) (kind : LineKind) : Reading :=
  { reading with source := reading.source.add text kind }

def addFaults (line : Nat) (faults : List (SourceFault × Nat)) : Reading :=
  let entries := faults.reverse.map fun item => item.1.entry (.ofIndices line item.2)
  { reading with errors := reading.errors ++ entries.toArray }

def continues (line : List Char) : Bool :=
  (line.reverse.dropWhile isBlank).head? = some '\\'

def directiveLine (text : String) (line : List Char) : Reading :=
  { reading.add text .preprocessor with
    mode := if continues line then .directive else .outside }

def scanDefinition (first indent : Nat) (line : List Char) : Reading :=
  let scan := (DefinitionScan.start reading.inComment reading.depth).run indent line
  let after := reading.addFaults (reading.source.lineCount - 1) scan.faults
  { after with
    inComment := scan.inComment
    depth := scan.depth
    mode := if scan.ended then .outside else .definition first }

/-- A line that begins a definition, together with the commentary before it. -/
def definitionStart (text : String) (indent : Nat) (line : List Char) : Reading :=
  let first := reading.source.lineCount
  { reading with source := (reading.source.add text .cpps).claimCommentary }.scanDefinition
    first indent line

def foreignLine (text : String) (indent : Nat) (line : List Char) : Reading :=
  let scan :=
    (ForeignScan.start reading.inComment reading.inString reading.depth).line indent line
  let after := reading.addFaults reading.source.lineCount scan.faults
  { after.add text (if scan.hasCode then .cpp else .comment) with
    inComment := scan.inComment
    inString := scan.inString
    depth := scan.depth }

def outsideLine (text : String) (indent : Nat) (line : List Char) : Reading :=
  if line.isEmpty then reading.add text .blank
  else if line.head? = some '#' then reading.directiveLine text line
  else if !reading.inComment && reading.depth = 0 && opensDefinition line then
    reading.definitionStart text indent line
  else if "import".toList.isPrefixOf line then reading.add text .importing
  else reading.foreignLine text indent line

/-- A line that cannot be read is kept as an empty line of C++. -/
def unreadableLine : Reading :=
  let after := reading.addFaults reading.source.lineCount [(.lineUnreadable, 0)]
  { after.add "" .cpp with unreadable := reading.unreadable + 1 }

def step (reading : Reading) (physical : PhysicalLine) : Reading :=
  match physical with
  | none => reading.unreadableLine
  | some text =>
      let indent := (text.toList.takeWhile isSpace).length
      let line := text.toList.dropWhile isSpace
      match reading.mode with
      | .outside => reading.outsideLine text indent line
      | .directive => reading.directiveLine text line
      | .definition first => (reading.add text .cpps).scanDefinition first indent line

end Reading

structure ReadResult where
  source : Except ReadError Source
  errors : Array Entry

/-- Lines that cannot be read count before a definition without an end. -/
def Reading.finish (reading : Reading) : ReadResult :=
  if reading.unreadable = 0 then
    match reading.mode with
    | .definition first =>
        ⟨.error (.endNotFound first),
          reading.errors.push (SourceFault.endNotFound.entry (.ofIndices first 0))⟩
    | _ => ⟨.ok reading.source, reading.errors⟩
  else ⟨.error (.unreadable reading.unreadable), reading.errors⟩

def readSource (bytes : List UInt8) : ReadResult :=
  ((PhysicalLine.ofBytes bytes).foldl Reading.step .start).finish

end CppsFrontend
