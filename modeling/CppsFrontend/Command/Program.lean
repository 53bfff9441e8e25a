import CppsFrontend.Command.Run

/-!
# The program

`program` is the command line program up to its input and output: from arguments
and files to an exit status and two texts.
-/

set_option autoImplicit false

namespace CppsFrontend

def usageText : String :=
  "\n".intercalate [
    "cppsc: the cpps front end",
    "",
    "Usage: cppsc <command> <file.cpps> [options]",
    "",
    "Commands:",
    "  lex <file>        Print the tokens and comments of every cpps line",
    "  parse <file>      Print every top-level declaration",
    "  check <file>      Report diagnoses only",
    "  generate <file>   Write C++ output",
    "  help              Show this help message",
    "  version           Show version information",
    "",
    "Options:",
    "  --json                   Write diagnoses as JSON",
    "  --color=<mode>           auto (default), always or never",
    "  --verbatim               Also report follow-on diagnoses",
    "  -o <path>                Output file for generate",
    "  --no-line-directives     Omit #line markers from generate output",
    "",
    "Environment:",
    "  RUST_LOG=<filter>        Enable tracing, e.g. RUST_LOG=cpps_parse=trace",
    ""]

def versionText : String := "cppsc 0.1.0-alpha.1\n"

/-- What the program leaves behind: an exit status, its output and its messages. -/
structure ProgramRun where
  status : Nat
  out : Sink
  err : String

namespace ProgramRun

def printing (status : Nat) (text : String) (out : Sink) (err : String) : ProgramRun :=
  ⟨status, (out.write text).1, err⟩

def ofCommand (run : CommandRun) : ProgramRun :=
  match run.result with
  | .ok counts => ⟨if counts.isSuccess then 0 else 1, run.out, run.diagnosis⟩
  | .error error =>
      ⟨1, run.out, run.diagnosis ++ "error: " ++ error.message ++ "\n"⟩

end ProgramRun

def program {m : Type → Type} [Monad m] (files : FileAccess m) (onTerminal : Bool)
    (arguments : List String) (out : Sink) : m ProgramRun := do
  match arguments with
  | [] => return .printing 1 usageText out ""
  | first :: _ =>
      if ["help", "--help", "-h"].contains first then return .printing 0 usageText out ""
      else if ["version", "--version", "-V"].contains first then
        return .printing 0 versionText out ""
      else
        match Options.ofArguments arguments with
        | .error error =>
            return .printing 1 usageText out ("error: " ++ error.message ++ "\n\n")
        | .ok options => return .ofCommand (← options.run files onTerminal out)

end CppsFrontend
