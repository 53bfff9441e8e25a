import CppsFrontend.Analysis

/-!
# Listings

What the commands `lex` and `parse` show: tokens line by line with the comments
behind them, and the declarations of the file.  Places are counted from one.
-/

set_option autoImplicit false

namespace CppsFrontend.Analysis

variable (analysis : Analysis)

/-- Line and column, counted from one; an unknown axis counts as the last index. -/
def place (location : Location) : String :=
  toString (Location.rank location.line + 1) ++ ":" ++
    toString (Location.rank location.column + 1)

def stretch (first last : Location) : String := place first ++ "-" ++ place last

def tokenText (token : Token) : String :=
  let kind := match token.lexeme.kind? with
    | some kind => kind.name
    | none => "invalid"
  "  " ++ place token.location ++ " " ++ kind ++ " " ++ token.text ++ "\n"

def lineText (line : Nat) : String :=
  let tokens := (analysis.stream.on line).toList
  if tokens.isEmpty then ""
  else "line " ++ toString (line + 1) ++ ":\n" ++ String.join (tokens.map tokenText)

def commentText (comment : Comment) : String :=
  "comment " ++ stretch comment.first comment.last ++ ": " ++ comment.text ++ "\n"

def tokenListing : String :=
  toString analysis.stream.size ++ " tokens, " ++ toString analysis.comments.size ++
    " comments\n" ++
    String.join ((List.range analysis.lines.length).map analysis.lineText) ++
    String.join (analysis.comments.toList.map commentText)

def declarationText (declaration : Declaration) : String :=
  let name := match declaration.identifier with
    | some name => (analysis.stream.get name.identifier).text
    | none => "<unnamed>"
  let kind := if declaration.isFunction then "function" else "object"
  "  " ++ name ++ ": " ++ kind ++ " " ++ stretch declaration.first declaration.last ++ "\n"

def declarationListing : String :=
  toString analysis.declarations.length ++ " declarations\n" ++
    String.join (analysis.declarations.map analysis.declarationText)

end CppsFrontend.Analysis
