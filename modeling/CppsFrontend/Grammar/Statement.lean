import CppsFrontend.Grammar.Expression

/-!
# Productions for statements

The alternatives for a statement are tried in order: selection, return,
iteration, compound statement, declaration, expression.
-/

set_option autoImplicit false

namespace CppsFrontend.Grammar

open Production

def statementRound (nested : Nested) : Production (Round Statement) := do
  if ← check (.punctuator .closeBrace) then return .stop
  else return .more (← orReject (nested.statement true none) .statementInvalid)

/-- Where a compound statement opens: at the `=` before it if both are on one line,
and at its brace otherwise. -/
def openingLocation (equal : Option Location) (brace : Location) : Location :=
  match equal with
  | some equal => if equal.hasLine && equal.line = brace.line then equal else brace
  | none => brace

def compound (nested : Nested) (equal : Option Location) : Production Compound :=
  restoring do
    let brace := (← current).location
    let _ ← expect (.punctuator .openBrace)
    let statements ← collect (statementRound nested)
    let closing ← here
    let _ ← advance
    return ⟨statements, openingLocation equal brace, closing⟩

def condition (nested : Nested) (word : Keyword) : Production Expression :=
  orReject (expression nested true) (.expressionExpectedAfter word.spelling)

def branch (nested : Nested) (word : Keyword) : Production Compound :=
  orReject (compound nested none) (.compoundExpectedAfter word)

def closingSemicolon : Production Unit := do
  match ← eat (.punctuator .semicolon) with
  | some _ => pure ()
  | none => reject .statementSemicolonExpected (← here)

def selectionStatement (nested : Nested) : Production Statement :=
  restoring do
    let keyword ← expect (.keyword .ifWord)
    let constant ← eat (.keyword .constexprWord)
    let test ← condition nested .ifWord
    let positive ← branch nested .ifWord
    match ← eat (.keyword .elseWord) with
    | some _ =>
        return .selection keyword constant test positive (some (← branch nested .elseWord))
    | none => return .selection keyword constant test positive none

def returnStatement (nested : Nested) : Production Statement :=
  restoring do
    let keyword ← expect (.keyword .returnWord)
    match ← eat (.punctuator .semicolon) with
    | some _ => return .result keyword none
    | none =>
        let value ← orReject (expression nested true) .returnExpressionInvalid
        closingSemicolon
        return .result keyword (some value)

def whileLoop (nested : Nested) (keyword : TokenId) : Production Statement := do
  let test ← condition nested .whileWord
  return .iteration .testBefore keyword test (← branch nested .whileWord)

def doLoop (nested : Nested) (keyword : TokenId) : Production Statement := do
  let body ← branch nested .doWord
  match ← eat (.keyword .whileWord) with
  | none => reject .whileExpected (← here)
  | some _ =>
      let test ← condition nested .whileWord
      closingSemicolon
      return .iteration .testAfter keyword test body

def iterationStatement (nested : Nested) : Production Statement :=
  restoring do
    match ← eat (.keyword .whileWord) with
    | some keyword => whileLoop nested keyword
    | none => doLoop nested (← expect (.keyword .doWord))

/-- An expression and its semicolon, which may be missing where it is not needed. -/
def expressionStatement (nested : Nested) (semicolon : Bool) : Production Statement :=
  restoring do
    let value ← expression nested true
    let closed := (← eat (.punctuator .semicolon)).isSome
    if !closed && semicolon then reject .statementSemicolonExpected (← here)
    else return .expression value closed

def statement (nested : Nested) (semicolon : Bool) (equal : Option Location) :
    Production Statement :=
  restoring do
    firstOf (← reportCount) [
      selectionStatement nested,
      returnStatement nested,
      iterationStatement nested,
      .compound <$> compound nested equal,
      .declaration <$> declaration nested semicolon,
      expressionStatement nested semicolon]

end CppsFrontend.Grammar
