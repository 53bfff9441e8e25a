import CppsFrontend.Diagnosis.Basic

/-!
# Diagnoses for a terminal

An entry is written as a header with its path and its place counted from one,
then the line that it concerns with a caret below the reported column, then its
fix.  Colours are terminal control sequences around parts of the text.
-/

set_option autoImplicit false

namespace CppsFrontend

/-- When colours are used; `auto` leaves it to the output being a terminal. -/
inductive ColorMode where
  | auto
  | always
  | never
deriving DecidableEq, Repr

namespace ColorMode

def name : ColorMode → String
  | .auto => "auto"
  | .always => "always"
  | .never => "never"

def all : List ColorMode := [.auto, .always, .never]

def ofName? (name : String) : Option ColorMode :=
  all.find? fun mode => mode.name == name

def isColored (mode : ColorMode) (onTerminal : Bool) : Bool :=
  match mode with
  | .auto => onTerminal
  | .always => true
  | .never => false

end ColorMode

/-- How diagnoses are shown: in colour or not, under which path, and with the
source lines that snippets are cut from. -/
structure TerminalStyle where
  colored : Bool
  path : Option String
  lines : Array String

namespace TerminalStyle

inductive Accent where
  | error
  | warning
  | help
  | place
  | gutter
deriving DecidableEq, Repr

/-- The control sequence that begins a colour: bold red, yellow and green for
severities and help, bold for places and bold blue for line numbers. -/
def Accent.sequence : Accent → String
  | .error => "\x1b[1;31m"
  | .warning => "\x1b[1;33m"
  | .help => "\x1b[1;32m"
  | .place => "\x1b[1m"
  | .gutter => "\x1b[1;34m"

def plainSequence : String := "\x1b[0m"

def Accent.ofSeverity : Severity → Accent
  | .error => .error
  | .warning => .warning

variable (style : TerminalStyle)

def accented (accent : Accent) (text : String) : String :=
  if style.colored then accent.sequence ++ text ++ plainSequence else text

def blanks (count : Nat) : String := String.ofList (List.replicate count ' ')

def gutterCell (text : String) : String :=
  blanks (4 - text.length) ++ text ++ " | "

/-- Where the entry points, counted from one; empty for an unknown line. -/
def placeText (location : Option Location) : String :=
  match location with
  | some ⟨some line, some column⟩ => toString (line + 1) ++ ":" ++ toString (column + 1)
  | some ⟨some line, none⟩ => toString (line + 1)
  | _ => ""

def header (entry : Entry) : String :=
  let path := style.path.getD ""
  let place := placeText entry.location
  let between := if path.isEmpty || place.isEmpty then "" else ":"
  let text := path ++ between ++ place
  if text.isEmpty then "" else style.accented .place text ++ ": "

/-- The line with its number, and the caret line below it if a column is known. -/
def snippet (entry : Entry) : String :=
  match entry.location with
  | some ⟨some line, column⟩ =>
      match style.lines[line]? with
      | none => ""
      | some text =>
          let number := toString (line + 1)
          let shown := style.accented .gutter (gutterCell number) ++ text ++ "\n"
          match column with
          | none => shown
          | some column =>
              shown ++ style.accented .gutter (gutterCell (blanks number.length)) ++
                blanks column ++ style.accented .error "^" ++ "\n"
  | _ => ""

def fixLine (entry : Entry) : String :=
  match entry.fix with
  | some fix => "  = " ++ style.accented .help "help" ++ ": " ++ fix ++ "\n"
  | none => ""

def entryText (severity : Severity) (entry : Entry) : String :=
  style.header entry ++ style.accented (.ofSeverity severity) severity.name ++ ": " ++
    entry.message ++ "\n" ++ style.snippet entry ++ style.fixLine entry

def diagnosisText (diagnosis : Diagnosis) : String :=
  String.join (diagnosis.entries.map fun item => style.entryText item.1 item.2)

end TerminalStyle

def countText (count : Nat) (noun : String) : String :=
  toString count ++ " " ++ noun ++ if count = 1 then "" else "s"

def summaryText (errors warnings : Nat) : String :=
  let parts := (if errors = 0 then [] else [countText errors "error"]) ++
    (if warnings = 0 then [] else [countText warnings "warning"])
  if parts.isEmpty then "" else " and ".intercalate parts ++ " emitted\n"

end CppsFrontend
