/-!
# Classified lines

A file of the language is an ordinary C++ file with definitions of the language
among its lines.  Every line has a kind: the lexer reads the lines of kind
`cpps`, and all others are passed through.
-/

set_option autoImplicit false

namespace CppsFrontend

inductive LineKind where
  | cpp
  | cpps
  | comment
  | blank
  | importing
  | preprocessor
deriving DecidableEq, Repr

namespace LineKind

def all : List LineKind := [.cpp, .cpps, .comment, .blank, .importing, .preprocessor]

def name : LineKind → String
  | .cpp => "cpp"
  | .cpps => "cpps"
  | .comment => "comment"
  | .blank => "empty"
  | .importing => "import"
  | .preprocessor => "preprocessor"

def ofName? (name : String) : Option LineKind :=
  all.find? fun kind => kind.name == name

def isCommentary : LineKind → Bool
  | .comment | .blank => true
  | _ => false

end LineKind

structure Line where
  text : String
  kind : LineKind
deriving DecidableEq, Repr

/-- The lines of one input; the latest line is stored first, because a source
grows at its end. -/
structure Source where
  latestFirst : List Line
deriving DecidableEq, Repr

namespace Source

def empty : Source := ⟨[]⟩

instance : Inhabited Source := ⟨empty⟩

def ofLines (lines : List Line) : Source := ⟨lines.reverse⟩

def lines (source : Source) : List Line := source.latestFirst.reverse

def add (source : Source) (text : String) (kind : LineKind) : Source :=
  ⟨⟨text, kind⟩ :: source.latestFirst⟩

/-- Lines, latest first, with their leading run of commentary made part of a
definition. -/
def claim : List Line → List Line
  | [] => []
  | line :: rest =>
      if line.kind.isCommentary then { line with kind := .cpps } :: claim rest
      else line :: rest

/-- The commentary directly before the last line joins the last line's
definition. -/
def claimCommentary (source : Source) : Source :=
  match source.latestFirst with
  | [] => source
  | last :: before => ⟨last :: claim before⟩

/-- Whether some line is C++ code or a preprocessor directive. -/
def hasCpp (source : Source) : Bool :=
  source.latestFirst.any fun line => line.kind = .cpp || line.kind = .preprocessor

def hasCpps (source : Source) : Bool :=
  source.latestFirst.any fun line => line.kind = .cpps

def isEmpty (source : Source) : Bool := source.latestFirst.isEmpty

def lineCount (source : Source) : Nat := source.latestFirst.length

def textAt (source : Source) (index : Nat) : String :=
  match source.lines[index]? with
  | some line => line.text
  | none => ""

@[simp] theorem lines_ofLines (lines : List Line) : (ofLines lines).lines = lines := by
  simp [ofLines, Source.lines]

@[simp] theorem lines_add (source : Source) (text : String) (kind : LineKind) :
    (source.add text kind).lines = source.lines ++ [⟨text, kind⟩] := by
  simp [add, Source.lines]

@[simp] theorem length_claim (lines : List Line) : (claim lines).length = lines.length := by
  induction lines with
  | nil => rfl
  | cons line rest induction => unfold claim; split <;> simp [induction]

end Source

end CppsFrontend
