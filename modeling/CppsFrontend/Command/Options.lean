import CppsFrontend.Diagnosis.Terminal
import CppsFrontend.Grammar.Production

/-!
# Command line arguments

A command comes first; then a file and any options follow in any order.
-/

set_option autoImplicit false

namespace CppsFrontend

inductive Command where
  | lex
  | parse
  | check
  | generate
deriving DecidableEq, Repr

namespace Command

def all : List Command := [.lex, .parse, .check, .generate]

def name : Command → String
  | .lex => "lex"
  | .parse => "parse"
  | .check => "check"
  | .generate => "generate"

def ofName? (name : String) : Option Command :=
  all.find? fun command => command.name == name

end Command

inductive DiagnosisFormat where
  | terminal
  | json
deriving DecidableEq, Repr

/-- What a command line asks for.  Without an output path, output goes to the
standard output. -/
structure Options where
  command : Command
  path : String
  output : Option String
  format : DiagnosisFormat
  color : ColorMode
  reporting : Reporting
  directives : Bool
deriving DecidableEq, Repr

inductive UsageError where
  | commandMissing
  | commandUnknown (name : String)
  | outputPathMissing
  | colorInvalid (value : String)
  | optionUnknown (argument : String)
  | argumentUnexpected (argument : String)
  | outputNotUsed (command : Command)
  | fileMissing (command : Command)
deriving DecidableEq, Repr

def UsageError.message : UsageError → String
  | .commandMissing => "missing command"
  | .commandUnknown name => "unknown command '" ++ name ++ "'"
  | .outputPathMissing => "-o needs a path"
  | .colorInvalid value =>
      "invalid --color value '" ++ value ++ "' (expected auto, always or never)"
  | .optionUnknown argument => "unknown option '" ++ argument ++ "'"
  | .argumentUnexpected argument => "unexpected argument '" ++ argument ++ "'"
  | .outputNotUsed command => "-o is only valid with generate, not " ++ command.name
  | .fileMissing command => "missing file: cppsc " ++ command.name ++ " <file.cpps>"

namespace Options

/-- What the arguments so far ask for; the file may still come. -/
structure Draft where
  path : Option String
  output : Option String
  format : DiagnosisFormat
  color : ColorMode
  reporting : Reporting
  directives : Bool

def Draft.start : Draft := ⟨none, none, .terminal, .auto, .filtered, true⟩

inductive Meaning where
  | output
  | json
  | verbatim
  | noDirectives
  | color (value : String)
  | unknown (argument : String)
  | file (path : String)
deriving DecidableEq, Repr

def after? (lead text : String) : Option String :=
  if lead.toList.isPrefixOf text.toList then
    some (String.ofList (text.toList.drop lead.length))
  else none

def Meaning.ofArgument (argument : String) : Meaning :=
  if argument = "-o" then .output
  else if argument = "--json" then .json
  else if argument = "--verbatim" then .verbatim
  else if argument = "--no-line-directives" then .noDirectives
  else
    match after? "--color=" argument with
    | some value => .color value
    | none => if (after? "-" argument).isSome then .unknown argument else .file argument

def Draft.read (options : Draft) : List String → Except UsageError Draft
  | [] => .ok options
  | argument :: rest =>
      match Meaning.ofArgument argument with
      | .output =>
          match rest with
          | [] => .error .outputPathMissing
          | path :: rest => { options with output := some path }.read rest
      | .json => { options with format := .json }.read rest
      | .verbatim => { options with reporting := .verbatim }.read rest
      | .noDirectives => { options with directives := false }.read rest
      | .color value =>
          match ColorMode.ofName? value with
          | some color => { options with color := color }.read rest
          | none => .error (.colorInvalid value)
      | .unknown argument => .error (.optionUnknown argument)
      | .file path =>
          match options.path with
          | none => { options with path := some path }.read rest
          | some _ => .error (.argumentUnexpected path)

def Draft.finish (options : Draft) (command : Command) : Except UsageError Options :=
  if options.output.isSome && command ≠ .generate then .error (.outputNotUsed command)
  else
    match options.path with
    | none => .error (.fileMissing command)
    | some path =>
        .ok ⟨command, path, options.output, options.format, options.color,
          options.reporting, options.directives⟩

/-- What a command line, without the program's name, asks for. -/
def ofArguments : List String → Except UsageError Options
  | [] => .error .commandMissing
  | name :: rest =>
      match Command.ofName? name with
      | none => .error (.commandUnknown name)
      | some command => do (← Draft.start.read rest).finish command

end Options

end CppsFrontend
