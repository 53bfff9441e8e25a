import CppsFrontend.Source.Error
import CppsFrontend.Text.BlockComment
import CppsFrontend.Text.Character

/-!
# Lines of C++ and of comments

Lines outside definitions are passed through, but their braces are counted, so
that a label inside a C++ body is not taken for a definition.  Braces in strings,
in character literals and in comments do not count.  A line is a comment if no
part of it is code.
-/

set_option autoImplicit false

namespace CppsFrontend

open Text

structure ForeignScan where
  inComment : Bool
  inString : Bool
  depth : Nat
  /-- Whether some part of the line is not comment. -/
  hasCode : Bool
  /-- The character before, unless it has been used up. -/
  previous : Char
  /-- Faults with their columns, the latest first. -/
  faults : List (SourceFault × Nat)

namespace ForeignScan

def start (inComment inString : Bool) (depth : Nat) : ForeignScan :=
  ⟨inComment, inString, depth, false, ' ', []⟩

variable (scan : ForeignScan)

def closeBrace (column : Nat) : ForeignScan :=
  match scan.depth with
  | 0 => { scan with faults := (.closeBraceUnexpected, column) :: scan.faults }
  | depth + 1 => { scan with depth := depth }

/-- Whether a character between `previous` and `rest` stands between single quotes. -/
def isQuoted (rest : List Char) : Bool :=
  scan.previous = '\'' && rest.head? = some '\''

/-- After a character of code that neither begins nor ends a comment.  A double
quote does not count behind a backslash, nor behind a single quote outside of
strings. -/
def code (c : Char) (rest : List Char) (column : Nat) : ForeignScan :=
  let after :=
    match c with
    | '"' =>
        if scan.previous ≠ '\\' && (scan.inString || scan.previous ≠ '\'') then
          { scan with inString := !scan.inString }
        else scan
    | '\x7b' =>
        if !scan.inString && !scan.isQuoted rest then { scan with depth := scan.depth + 1 }
        else scan
    | '\x7d' =>
        if !scan.inString && !scan.isQuoted rest then scan.closeBrace column else scan
    | _ => scan
  { after with hasCode := true, previous := c }

def run (scan : ForeignScan) (column : Nat) : List Char → ForeignScan
  | [] => scan
  | c :: rest =>
      let next := column + c.utf8Size
      if scan.inComment then
        if scan.previous = '*' && c = '/' then
          run { scan with inComment := false, previous := ' ' } next rest
        else run { scan with previous := c } next rest
      else if !scan.inString && c = '*' && scan.previous = '/' then
        run { scan with inComment := true, hasCode := true, previous := ' ' } next rest
      else if !scan.inString && c = '/' && scan.previous = '/' then
        { scan with hasCode := true }
      else run (scan.code c rest column) next rest

/-- The scan of a whole line.  A comment at its front is no code. -/
def line (scan : ForeignScan) (column : Nat) (text : List Char) : ForeignScan :=
  if scan.inComment || scan.inString then scan.run column text
  else
    match text with
    | '/' :: '/' :: _ => scan
    | '/' :: '*' :: rest => { scan with inComment := true }.run (column + 2) rest
    | _ => scan.run column text

end ForeignScan

end CppsFrontend
