import CppsFrontend.Cst.Expression
import CppsFrontend.Grammar.Statement

/-!
# Storing statements

The productions for statements, with their nodes.
-/

set_option autoImplicit false

namespace CppsFrontend.Cst

open Grammar (closingSemicolon openingLocation)
open Grammar.Production (Round advance check current eat expect here reject reportCount)
open Storing

variable [NodeKind.Layouts] (nested : StoringNested)

def statementRound : Storing (Round (Node NodeKind.statement)) := do
  if ← check (.punctuator .closeBrace) then return .stop
  else return .more (← orReject (nested.statement true none) .statementInvalid)

def compound (equal : Option Location) : Storing (Node NodeKind.compound) :=
  restoring do
    let brace := (← current).location
    let _ ← expect (.punctuator .openBrace)
    let statements ← collect (statementRound nested)
    let closing ← here
    let _ ← advance
    create .compound ⟨statements, openingLocation equal brace, closing⟩

def condition (word : Keyword) : Storing (Node NodeKind.expression) :=
  orReject (expression nested true) (.expressionExpectedAfter word.spelling)

def branch (word : Keyword) : Storing (Node NodeKind.compound) :=
  orReject (compound nested none) (.compoundExpectedAfter word)

def selectionStatement : Storing (Node NodeKind.selection) :=
  restoring do
    let keyword ← expect (.keyword .ifWord)
    let constant ← eat (.keyword .constexprWord)
    let test ← condition nested .ifWord
    let positive ← branch nested .ifWord
    match ← eat (.keyword .elseWord) with
    | some _ =>
        let negative ← branch nested .elseWord
        create .selection ⟨keyword, constant, test, positive, some negative⟩
    | none => create .selection ⟨keyword, constant, test, positive, none⟩

def returnStatement : Storing (Node NodeKind.result) :=
  restoring do
    let keyword ← expect (.keyword .returnWord)
    match ← eat (.punctuator .semicolon) with
    | some _ => create .result ⟨keyword, none⟩
    | none =>
        let value ← orReject (expression nested true) .returnExpressionInvalid
        closingSemicolon
        create .result ⟨keyword, some value⟩

def whileLoop (keyword : TokenId) : Storing (Node NodeKind.iteration) := do
  let test ← condition nested .whileWord
  let body ← branch nested .whileWord
  create .iteration ⟨.testBefore, keyword, test, body⟩

def doLoop (keyword : TokenId) : Storing (Node NodeKind.iteration) := do
  let body ← branch nested .doWord
  match ← eat (.keyword .whileWord) with
  | none => reject .whileExpected (← here)
  | some _ =>
      let test ← condition nested .whileWord
      closingSemicolon
      create .iteration ⟨.testAfter, keyword, test, body⟩

def iterationStatement : Storing (Node NodeKind.iteration) :=
  restoring do
    match ← eat (.keyword .whileWord) with
    | some keyword => whileLoop nested keyword
    | none => doLoop nested (← expect (.keyword .doWord))

def expressionStatement (semicolon : Bool) : Storing (Node NodeKind.expressionStatement) :=
  restoring do
    let value ← expression nested true
    let closed := (← eat (.punctuator .semicolon)).isSome
    if !closed && semicolon then reject .statementSemicolonExpected (← here)
    else create .expressionStatement ⟨value, closed⟩

def statement (semicolon : Bool) (equal : Option Location) :
    Storing (Node NodeKind.statement) :=
  restoring do
    let kind ← firstOf (← reportCount) [
      Statement.selection <$> selectionStatement nested,
      Statement.result <$> returnStatement nested,
      Statement.iteration <$> iterationStatement nested,
      Statement.compound <$> compound nested equal,
      Statement.declaration <$> declaration nested semicolon,
      Statement.expression <$> expressionStatement nested semicolon]
    create .statement kind

end CppsFrontend.Cst
