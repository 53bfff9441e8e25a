import CppsFrontend.Cst.Declaration
import CppsFrontend.Grammar.Expression

/-!
# Storing expressions

The productions for expressions, with their nodes.
-/

set_option autoImplicit false

namespace CppsFrontend.Cst

open Grammar (argumentModifier continuesPostfix isPrimaryToken signRound)
open Grammar.Production (Round advance check current eat here lexeme peek position previous
  reject reportCount returnTo)
open Storing

variable [NodeKind.Layouts] (nested : StoringNested)

/-! ## Arguments -/

def argument : Storing Argument := do
  let modifier ← argumentModifier
  return ⟨modifier, ← nested.expression⟩

def argumentRound : Storing (Round Argument) := do
  match ← eat (.punctuator .comma) with
  | some _ => return .more (← orReject (argument nested) .argumentInvalid)
  | none => return .stop

def arguments : Storing (List Argument) := do
  let start ← position
  let before ← reportCount
  match ← outcome (argument nested) with
  | some first => return first :: (← collect (argumentRound nested))
  | none =>
      if before < (← reportCount) then fail
      else
        returnTo start
        return []

/-! ## Primary expressions -/

def parenthesized : Storing (Node NodeKind.primary) :=
  restoring do
    let opening ← here
    let _ ← advance
    let terms ← orReject (arguments nested) .argumentsExpected
    let closing ← here
    match ← eat (.punctuator .closeParenthesis) with
    | some _ =>
        let list ← create .expressionList ⟨terms, opening, closing⟩
        create .primary (.list list)
    | none => reject .textAfterArguments closing

/-- What keeps a declaration from being an expression: only functions with at most
one result are. -/
def expressionScopeError? (node : Node NodeKind.declaration) :
    Storing (Option (GrammarError × Location)) := do
  let declaration ← get node
  match declaration.type with
  | .object _ => return some (.unnamedNotFunction, declaration.first)
  | .function signature =>
      match (← get signature).returns with
      | .named results => return some (.unnamedWithNamedResults, (← get results).opening)
      | _ => return none

def unnamedFunction : Storing (Node NodeKind.primary) :=
  restoring do
    let declaration ← unnamedDeclaration nested (← here) true
    match ← expressionScopeError? declaration with
    | some (error, location) => reject error location
    | none => create .primary (.function declaration)

def primary : Storing (Node NodeKind.primary) := do
  match ← outcome identifierExpression with
  | some identifier => create .primary (.identifier identifier)
  | none =>
      if isPrimaryToken (← lexeme) then create .primary (.token (← advance))
      else if ← check (.punctuator .openParenthesis) then parenthesized nested
      else unnamedFunction nested

/-! ## Postfix terms -/

def callArguments (opening : TokenId) (location : Location) : Storing PostfixTerm := do
  let terms ← orRejectAt (arguments nested) .textAfterArguments location
  let closing ← here
  match ← eat (.punctuator .closeParenthesis) with
  | some token => return ⟨opening, none, some ⟨terms, location, closing⟩, some token⟩
  | none => reject .parenthesisUnmatched closing

def subscriptArguments (opening : TokenId) (location : Location) : Storing PostfixTerm := do
  let terms ← orRejectAt (arguments nested) .subscriptEmpty location
  if terms.isEmpty then reject .subscriptEmpty location
  let closing ← here
  match ← eat (.punctuator .closeBracket) with
  | some token => return ⟨opening, none, some ⟨terms, location, closing⟩, some token⟩
  | none => reject .bracketUnmatched closing

def member (dot : TokenId) (location : Location) : Storing PostfixTerm := do
  match ← outcome identifierExpression with
  | some identifier => return ⟨dot, some identifier, none, none⟩
  | none => reject .memberNameExpected location

def postfixRound : Storing (Round PostfixTerm) := do
  let mark ← current
  if continuesPostfix (← previous) mark (← peek 1).lexeme then
    let operator ← advance
    match mark.lexeme with
    | .punctuator .openBracket =>
        return .more (← subscriptArguments nested operator mark.location)
    | .punctuator .openParenthesis =>
        return .more (← callArguments nested operator mark.location)
    | .punctuator .dot => return .more (← member operator mark.location)
    | _ => return .more ⟨operator, none, none, none⟩
  else return .stop

/-! ## Basic expressions and chains -/

def basicExpression : Storing (Node NodeKind.basic) :=
  restoring do
    let signs ← Grammar.Production.collect signRound
    let primary ← primary nested
    let terms ← collect (postfixRound nested)
    create .basic ⟨signs, primary, terms⟩

abbrev StoringLevels := List (Precedence × Storing Operand)

def chainRound (allowRelational : Bool) (level : Precedence) (operand : Storing Operand) :
    Storing (Round ChainTerm) := do
  let operator ← current
  if Precedence.ofOperator? operator.lexeme allowRelational = some level then
    let token ← advance
    return .more ⟨token, ← orReject operand (.expressionExpectedAfter operator.text)⟩
  else return .stop

def levelRound (allowRelational : Bool) (levels : StoringLevels) (first : Operand) :
    Storing (Round Operand) := do
  match Precedence.ofOperator? (← lexeme) allowRelational with
  | none => return .stop
  | some level =>
      match levels.lookup level with
      | none => return .stop
      | some operand =>
          let terms ← collect (chainRound allowRelational level operand)
          return .more (.chain (← create .chain ⟨level, first, terms⟩))

def chainsOver (allowRelational : Bool) (levels : StoringLevels) : Storing Operand := do
  let first ← basicExpression nested
  loop (levelRound allowRelational levels) (.basic first)

def operandLevels (allowRelational : Bool) : List Precedence → StoringLevels
  | [] => []
  | level :: tighter =>
      let levels := operandLevels allowRelational tighter
      (level, chainsOver nested allowRelational levels) :: levels

def binaryExpression (allowRelational : Bool) (loosest : Precedence) : Storing Operand :=
  chainsOver nested allowRelational
    (operandLevels nested allowRelational loosest.andTighter)

def expression (allowRelational : Bool) : Storing (Node NodeKind.expression) :=
  restoring do
    create .expression ⟨← binaryExpression nested allowRelational .assignment⟩

end CppsFrontend.Cst
