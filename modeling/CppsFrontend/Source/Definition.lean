import CppsFrontend.Source.Error
import CppsFrontend.Text.BlockComment
import CppsFrontend.Text.Character

/-!
# The extent of a definition

A definition begins with a name and a single colon.  It ends at a semicolon that
is in no braces, or at the brace that closes its outermost one; delimiters in
comments and in string literals do not count.  Only comments may stand behind the
end on its line.
-/

set_option autoImplicit false

namespace CppsFrontend

open Text

/-- Whether a line begins with a name and a single colon. -/
def opensDefinition : List Char → Bool
  | [] => false
  | c :: rest =>
      isWordStart c &&
        match (rest.dropWhile isWordPart).dropWhile isSpace with
        | ':' :: ':' :: _ => false
        | ':' :: _ => true
        | _ => false

/-- What is known at a byte of a line of a definition. -/
structure DefinitionScan where
  inComment : Bool
  inString : Bool
  depth : Nat
  ended : Bool
  /-- The character before, unless it has been used up. -/
  previous : Char
  /-- Faults with their columns, the latest first. -/
  faults : List (SourceFault × Nat)

namespace DefinitionScan

def start (inComment : Bool) (depth : Nat) : DefinitionScan :=
  ⟨inComment, false, depth, false, ' ', []⟩

variable (scan : DefinitionScan)

def fault (cause : SourceFault) (column : Nat) : DefinitionScan :=
  { scan with faults := (cause, column) :: scan.faults }

def enterComment : DefinitionScan := { scan with inComment := true, previous := ' ' }

def leaveComment : DefinitionScan := { scan with inComment := false, previous := ' ' }

def closeBrace (column : Nat) : DefinitionScan :=
  match scan.depth with
  | 0 => scan.fault .closeBraceUnexpected column
  | depth + 1 => { scan with depth := depth, ended := depth = 0 }

def code (c : Char) (column : Nat) : DefinitionScan :=
  let after :=
    match c with
    | '\x7b' => { scan with depth := scan.depth + 1 }
    | '\x7d' => scan.closeBrace column
    | ';' => { scan with ended := scan.depth = 0 }
    | '"' => { scan with inString := true }
    | _ => scan
  { after with previous := c }

def run (scan : DefinitionScan) (column : Nat) : List Char → DefinitionScan
  | [] => scan
  | c :: rest =>
      let next := column + c.utf8Size
      if scan.inComment then
        if scan.previous = '*' && c = '/' then run scan.leaveComment next rest
        else run { scan with previous := c } next rest
      else if scan.inString then
        match c, rest with
        | '\\', escaped :: rest =>
            run { scan with previous := c } (next + escaped.utf8Size) rest
        | '"', rest => run { scan with inString := false, previous := c } next rest
        | _, rest => run { scan with previous := c } next rest
      else if scan.ended then
        match c, rest with
        | '/', '/' :: _ => scan
        | '/', '*' :: rest =>
            if (throughCommentEnd rest).2 then
              run scan.enterComment (next + 1) rest
            else scan.fault (.textAfterDefinition c) column
        | _, rest =>
            if isSpace c then run { scan with previous := c } next rest
            else scan.fault (.textAfterDefinition c) column
      else if c = '*' && scan.previous = '/' then run scan.enterComment next rest
      else if c = '/' && scan.previous = '/' then scan
      else run (scan.code c column) next rest

end DefinitionScan

end CppsFrontend
