import CppsFrontend.Grammar.Declaration

/-!
# Productions for expressions

Binary operators are read by climbing: after an operand, the operators of one
level and their operands are gathered into a chain, and the chain is the first
operand of the next one.  `chainsOver` is given each level together with the
production for its operands, so a level is only known together with the tighter
ones.
-/

set_option autoImplicit false

namespace CppsFrontend.Grammar

open Production

/-! ## Arguments -/

/-- `out` and `move` mark an argument; without them it is passed in. -/
def argumentModifier : Production ParameterModifier := do
  match ← lexeme with
  | .parameterModifier .output =>
      let _ ← advance
      return .output
  | .parameterModifier .move =>
      let _ ← advance
      return .move
  | _ => return .input

def argument (nested : Nested) : Production Argument := do
  let modifier ← argumentModifier
  return ⟨modifier, ← nested.expression⟩

def argumentRound (nested : Nested) : Production (Round Argument) := do
  match ← eat (.punctuator .comma) with
  | some _ => return .more (← orReject (argument nested) .argumentInvalid)
  | none => return .stop

/-- Arguments with commas between them; there may be none.  A first argument that
fails without a report is no argument at all. -/
def arguments (nested : Nested) : Production (List Argument) := do
  let start ← position
  let before ← reportCount
  match ← outcome (argument nested) with
  | some first => return first :: (← collect (argumentRound nested))
  | none =>
      if before < (← reportCount) then fail
      else
        returnTo start
        return []

/-! ## Primary expressions -/

def isPrimaryToken (lexeme : Lexeme) : Bool := lexeme.isLiteral || isNaming lexeme

def parenthesized (nested : Nested) : Production Primary :=
  restoring do
    let opening ← here
    let _ ← advance
    let terms ← orReject (arguments nested) .argumentsExpected
    let closing ← here
    match ← eat (.punctuator .closeParenthesis) with
    | some _ => return .list ⟨terms, opening, closing⟩
    | none => reject .textAfterArguments closing

/-- What keeps a declaration from being an expression: only functions with at most
one result are. -/
def expressionScopeError? (declaration : Declaration) : Option (GrammarError × Location) :=
  match declaration.type with
  | .object _ => some (.unnamedNotFunction, declaration.first)
  | .function signature =>
      match signature.returns with
      | .named results => some (.unnamedWithNamedResults, results.opening)
      | _ => none

def unnamedFunction (nested : Nested) : Production Primary :=
  restoring do
    let declaration ← unnamedDeclaration nested (← here) true
    match expressionScopeError? declaration with
    | some (error, location) => reject error location
    | none => return .function declaration

/-- A name, a literal, a list between parentheses, or a function. -/
def primary (nested : Nested) : Production Primary := do
  match ← outcome identifierExpression with
  | some identifier => return .identifier identifier
  | none =>
      if isPrimaryToken (← lexeme) then return .token (← advance)
      if ← check (.punctuator .openParenthesis) then parenthesized nested
      else unnamedFunction nested

/-! ## Postfix terms -/

/-- Whether a mark behind `before` and before `after` continues a postfix chain.
Operators must touch the token before them, and `*`, `&` and `~` are binary where
a name or a parenthesis follows. -/
def continuesPostfix (before : Token) (mark : Token) (after : Lexeme) : Bool :=
  match mark.lexeme with
  | .punctuator .openBracket | .punctuator .openParenthesis | .punctuator .dot => true
  | .punctuator .plusPlus | .punctuator .minusMinus => before.isAdjacentTo mark
  | .punctuator .multiply | .punctuator .ampersand | .punctuator .tilde =>
      before.isAdjacentTo mark && after ≠ .punctuator .openParenthesis && !after.isIdentifier
  | _ => false

def callArguments (nested : Nested) (opening : TokenId) (location : Location) :
    Production PostfixTerm := do
  let terms ← orRejectAt (arguments nested) .textAfterArguments location
  let closing ← here
  match ← eat (.punctuator .closeParenthesis) with
  | some token => return .arguments opening ⟨terms, location, closing⟩ token
  | none => reject .parenthesisUnmatched closing

def subscriptArguments (nested : Nested) (opening : TokenId) (location : Location) :
    Production PostfixTerm := do
  let terms ← orRejectAt (arguments nested) .subscriptEmpty location
  if terms.isEmpty then reject .subscriptEmpty location
  let closing ← here
  match ← eat (.punctuator .closeBracket) with
  | some token => return .arguments opening ⟨terms, location, closing⟩ token
  | none => reject .bracketUnmatched closing

def member (dot : TokenId) (location : Location) : Production PostfixTerm := do
  match ← outcome identifierExpression with
  | some identifier => return .member dot identifier
  | none => reject .memberNameExpected location

def postfixRound (nested : Nested) : Production (Round PostfixTerm) := do
  let mark ← current
  if continuesPostfix (← previous) mark (← peek 1).lexeme then
    let operator ← advance
    match mark.lexeme with
    | .punctuator .openBracket =>
        return .more (← subscriptArguments nested operator mark.location)
    | .punctuator .openParenthesis =>
        return .more (← callArguments nested operator mark.location)
    | .punctuator .dot => return .more (← member operator mark.location)
    | _ => return .more (.operator operator)
  else return .stop

/-! ## Basic expressions and chains -/

def signRound : Production (Round TokenId) := do
  match ← lexeme with
  | .punctuator .logicalNot | .punctuator .plus | .punctuator .minus =>
      return .more (← advance)
  | _ => return .stop

def basicExpression (nested : Nested) : Production Expression :=
  restoring do
    let signs ← collect signRound
    let primary ← primary nested
    return .basic signs primary (← collect (postfixRound nested))

abbrev Levels := List (Precedence × Production Expression)

def chainRound (allowRelational : Bool) (level : Precedence)
    (operand : Production Expression) : Production (Round ChainTerm) := do
  let operator ← current
  if Precedence.ofOperator? operator.lexeme allowRelational = some level then
    let token ← advance
    return .more ⟨token, ← orReject operand (.expressionExpectedAfter operator.text)⟩
  else return .stop

def levelRound (allowRelational : Bool) (levels : Levels) :
    Production (Round (Precedence × List ChainTerm)) := do
  match Precedence.ofOperator? (← lexeme) allowRelational with
  | none => return .stop
  | some level =>
      match levels.lookup level with
      | none => return .stop
      | some operand =>
          return .more (level, ← collect (chainRound allowRelational level operand))

/-- Chains of operators of the levels, from a basic expression on. -/
def chainsOver (nested : Nested) (allowRelational : Bool) (levels : Levels) :
    Production Expression := do
  let first ← basicExpression nested
  let chains ← collect (levelRound allowRelational levels)
  return chains.foldl (fun operand chain => .chain chain.1 operand chain.2) first

/-- Each level with the production for its operands, which are chains of tighter
levels. -/
def operandLevels (nested : Nested) (allowRelational : Bool) : List Precedence → Levels
  | [] => []
  | level :: tighter =>
      let levels := operandLevels nested allowRelational tighter
      (level, chainsOver nested allowRelational levels) :: levels

def binaryExpression (nested : Nested) (allowRelational : Bool) (loosest : Precedence) :
    Production Expression :=
  chainsOver nested allowRelational
    (operandLevels nested allowRelational loosest.andTighter)

def expression (nested : Nested) (allowRelational : Bool) : Production Expression :=
  restoring (binaryExpression nested allowRelational .assignment)

end CppsFrontend.Grammar
