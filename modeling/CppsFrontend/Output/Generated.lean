import CppsFrontend.Diagnosis.Basic
import CppsFrontend.Output.Printer
import CppsFrontend.Source.Basic
import CppsFrontend.Token.Stream
import CppsFrontend.Tree.Basic

/-!
# Generated output

The output for a source is every line that is not part of a definition, in order.
Definitions are left out block by block, and each block is a warning.
-/

set_option autoImplicit false

namespace CppsFrontend

/-- The lines `first`, ..., `last` of definitions, with no such line before or
behind, and how much was read from them. -/
structure Block where
  first : Nat
  last : Nat
  declarations : Nat
  tokens : Nat
deriving DecidableEq, Repr

namespace Block

/-- The first and last lines of the blocks among lines from an index on; `first` is
where the block before the index began, if one reaches up to it. -/
def bounds (index : Nat) (first : Option Nat) : List Line → List (Nat × Nat)
  | [] =>
      match first with
      | some first => [(first, index - 1)]
      | none => []
  | line :: rest =>
      if line.kind = .cpps then bounds (index + 1) (some (first.getD index)) rest
      else
        match first with
        | some first => (first, index - 1) :: bounds (index + 1) none rest
        | none => bounds (index + 1) none rest

def holds (first last : Nat) (declaration : Declaration) : Bool :=
  let line := Location.rank declaration.first.line
  first ≤ line && line ≤ last

def ofBounds (stream : TokenStream) (declarations : List Declaration)
    (bounds : Nat × Nat) : Block where
  first := bounds.1
  last := bounds.2
  declarations := declarations.countP (holds bounds.1 bounds.2)
  tokens := (List.range' bounds.1 (bounds.2 + 1 - bounds.1)).foldr
    (fun line count => stream.countOn line + count) 0

def ofSource (source : Source) (stream : TokenStream) (declarations : List Declaration) :
    List Block :=
  (bounds 0 none source.lines).map (ofBounds stream declarations)

def entry (block : Block) : Entry :=
  .located "cpps declarations are not lowered to C++ yet" (.wholeLine block.first)

end Block

namespace Printer

def pass (directives : Bool) (printer : Printer) (index : Nat) (text : String) :
    Printer × Option WriteError :=
  if directives && printer.isOutOfStep index then
    match printer.directive index with
    | (printer, none) => printer.line text index
    | failed => failed
  else printer.line text index

/-- The source lines from an index on, without those of definitions, up to the
first that cannot be written. -/
def passLines (directives : Bool) (printer : Printer) (index : Nat) :
    List Line → Printer × Option WriteError
  | [] => (printer, none)
  | line :: rest =>
      if line.kind = .cpps then passLines directives printer (index + 1) rest
      else
        match printer.pass directives index line.text with
        | (printer, none) => passLines directives printer (index + 1) rest
        | failed => failed

end Printer

/-- The blocks that were left out, and the printer with the lines that were not.
An `error` ended the output early. -/
structure Generated where
  blocks : List Block
  printer : Printer
  error : Option WriteError

def generate (directives : Bool) (source : Source) (stream : TokenStream)
    (declarations : List Declaration) (printer : Printer) : Generated :=
  let blocks := Block.ofSource source stream declarations
  let (printer, error) := printer.passLines directives 0 source.lines
  ⟨blocks, printer, error⟩

def Generated.warnings (generated : Generated) : Array Entry :=
  (generated.blocks.map Block.entry).toArray

end CppsFrontend
