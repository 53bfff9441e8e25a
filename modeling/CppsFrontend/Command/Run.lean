import CppsFrontend.Command.Files
import CppsFrontend.Command.Listing
import CppsFrontend.Command.Options
import CppsFrontend.Diagnosis.Json
import CppsFrontend.Output.Generated

/-!
# Running a command

A command analyses its file, writes its own output, and then the diagnosis.
Listings show what was recovered in spite of errors; nothing is generated for a
file with errors.
-/

set_option autoImplicit false

namespace CppsFrontend

inductive CommandError where
  | read (path : String) (error : FileError)
  | write (path : String) (error : FileError)
  | output (error : WriteError)
  | classify (error : ReadError)
deriving DecidableEq, Repr

def CommandError.message : CommandError → String
  | .read path error => "cannot read '" ++ path ++ "': " ++ error.message
  | .write path error => "cannot write '" ++ path ++ "': " ++ error.message
  | .output error => "cannot write output: " ++ error.message
  | .classify error => error.message

structure Counts where
  errors : Nat
  warnings : Nat
deriving DecidableEq, Repr

def Counts.isSuccess (counts : Counts) : Bool := counts.errors = 0

/-- What a command leaves behind: its output, the text of its diagnosis, and its
result. -/
structure CommandRun where
  out : Sink
  diagnosis : String
  result : Except CommandError Counts

namespace Options

variable (options : Options)

def diagnosisText (onTerminal : Bool) (lines : List Line) (diagnosis : Diagnosis) : String :=
  match options.format with
  | .terminal =>
      let style : TerminalStyle :=
        ⟨options.color.isColored onTerminal, some options.path,
          (lines.map Line.text).toArray⟩
      style.diagnosisText diagnosis ++
        summaryText diagnosis.errors.size diagnosis.warnings.size
  | .json => DiagnosisJson.diagnosisText diagnosis

def finish (onTerminal : Bool) (analysis : Analysis) (diagnosis : Diagnosis) (out : Sink) :
    CommandRun where
  out := out
  diagnosis := options.diagnosisText onTerminal analysis.lines diagnosis
  result :=
    match analysis.source with
    | .error error => .error (.classify error)
    | .ok _ => .ok ⟨diagnosis.errors.size, diagnosis.warnings.size⟩

def list (onTerminal : Bool) (analysis : Analysis) (listing : String) (out : Sink) :
    CommandRun :=
  match out.write listing with
  | (out, none) => options.finish onTerminal analysis analysis.diagnosis out
  | (out, some error) => ⟨out, "", .error (.output error)⟩

variable {m : Type → Type} [Monad m]

/-- Output is generated for a source without errors, into a file if a path is given;
a file is only written when all of the output is there. -/
def generateFor (files : FileAccess m) (onTerminal : Bool) (analysis : Analysis)
    (source : Source) (out : Sink) : m CommandRun := do
  let target := match options.output with
    | some _ => Sink.empty none
    | none => out
  let generated := generate options.directives source analysis.stream analysis.declarations
    (.start target)
  let diagnosis := analysis.diagnosis.addWarnings generated.warnings
  let sink := generated.printer.sink
  match generated.error, options.output with
  | some error, _ => return ⟨sink, "", .error (.output error)⟩
  | none, none => return options.finish onTerminal analysis diagnosis sink
  | none, some path =>
      match ← files.write path sink.bytes.toList with
      | .ok () => return options.finish onTerminal analysis diagnosis out
      | .error error => return ⟨out, "", .error (.write path error)⟩

def runOn (files : FileAccess m) (onTerminal : Bool) (bytes : List UInt8) (out : Sink) :
    m CommandRun := do
  let analysis := Analysis.ofBytes options.reporting bytes
  match options.command with
  | .lex => return options.list onTerminal analysis analysis.tokenListing out
  | .parse => return options.list onTerminal analysis analysis.declarationListing out
  | .check => return options.finish onTerminal analysis analysis.diagnosis out
  | .generate =>
      match analysis.source with
      | .error _ => return options.finish onTerminal analysis analysis.diagnosis out
      | .ok source =>
          if analysis.diagnosis.hasErrors then
            return options.finish onTerminal analysis analysis.diagnosis out
          else options.generateFor files onTerminal analysis source out

def run (files : FileAccess m) (onTerminal : Bool) (out : Sink) : m CommandRun := do
  match ← files.read options.path with
  | .ok bytes => options.runOn files onTerminal bytes out
  | .error error => return ⟨out, "", .error (.read options.path error)⟩

end Options

end CppsFrontend
