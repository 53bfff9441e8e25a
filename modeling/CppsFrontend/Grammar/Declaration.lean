import CppsFrontend.Grammar.Identifier
import CppsFrontend.Grammar.Nested

/-!
# Productions for declarations
-/

set_option autoImplicit false

namespace CppsFrontend.Grammar

open Production

inductive ParameterRole where
  | argument
  | result
deriving DecidableEq, Repr

namespace ParameterRole

def defaultModifier : ParameterRole → ParameterModifier
  | .argument => .input
  | .result => .output

/-- Results are passed out or forwarded. -/
def allows : ParameterRole → ParameterModifier → Bool
  | .argument, _ => true
  | .result, .output => true
  | .result, .forward => true
  | .result, _ => false

end ParameterRole

def parameterModifier (role : ParameterRole) : Production ParameterModifier := do
  let start ← current
  match start.lexeme with
  | .parameterModifier modifier =>
      if role.allows modifier then
        let _ ← advance
        return modifier
      else reject (.resultModifierInvalid modifier) start.location
  | _ => return role.defaultModifier

def parameter (nested : Nested) (role : ParameterRole) : Production Parameter :=
  restoring do
    let location := (← current).location
    let modifier ← parameterModifier role
    return ⟨modifier, ← nested.declaration false, location⟩

/-- A parameter and the comma behind it; the last one stands before the closing
parenthesis.  Where no parameter stands the list ends. -/
def parameterRound (nested : Nested) (role : ParameterRole) :
    Production (Round Parameter) := do
  match ← outcome (parameter nested role) with
  | none => return .stop
  | some parameter =>
      if ← check (.punctuator .closeParenthesis) then return .last parameter
      match ← eat (.punctuator .comma) with
      | some _ => return .more parameter
      | none => reject .commaExpected (← here)

def parameterList (nested : Nested) (role : ParameterRole) : Production ParameterList :=
  restoring do
    let opening ← here
    let _ ← expect (.punctuator .openParenthesis)
    let before ← reportCount
    let parameters ← collect (parameterRound nested role)
    let closing ← here
    match ← eat (.punctuator .closeParenthesis) with
    | some _ => return ⟨parameters, opening, closing⟩
    | none =>
        reportFollowOn before .parameterListUnclosed closing
        fail

def results (nested : Nested) : Production Returns :=
  orReject
    (either (.value <$> identifierExpression) (.named <$> parameterList nested .result))
    .returnsExpected

def functionSignature (nested : Nested) : Production FunctionSignature :=
  restoring do
    let parameters ← parameterList nested .argument
    let throws := (← eat (.keyword .throwsWord)).isSome
    match ← eat (.punctuator .arrow) with
    | some _ => return ⟨parameters, throws, ← results nested⟩
    | none => return ⟨parameters, throws, .nothing⟩

def declarationType (nested : Nested) : Production (DeclarationType × Option TokenId) := do
  match ← outcome (functionSignature nested) with
  | some signature => return (.function signature, none)
  | none =>
      let pointer ← eat (.punctuator .multiply)
      return (.object (← identifierExpression), pointer)

/-- What follows the type: an initializer behind `=`, which functions must have,
or the semicolon of an object. -/
def initializer (nested : Nested) (type : DeclarationType) (first : Location)
    (semicolon : Bool) : Production (Option Statement × Option Location) := do
  if ← check (.punctuator .assignment) then
    let equal ← here
    let _ ← advance
    let statement ←
      orRejectAt (nested.statement semicolon (some equal)) .initializerIllFormed equal
    return (some statement, some equal)
  match type with
  | .function _ => reject .equalExpected first
  | .object _ =>
      if (← eat (.punctuator .semicolon)).isNone && semicolon then
        reject .declarationSemicolonExpected first
      else return (none, none)

/-- A declaration from its colon on; `first` is the location of its first token. -/
def unnamedDeclaration (nested : Nested) (first : Location) (semicolon : Bool) :
    Production Declaration := do
  let _ ← expect (.punctuator .colon)
  let (type, pointer) ← declarationType nested
  let (statement, equal) ← initializer nested type first semicolon
  let last := (← previous).location
  return ⟨none, type, pointer, statement, first, last, equal⟩

def declaration (nested : Nested) (semicolon : Bool) : Production Declaration :=
  restoring do
    let first := (← current).location
    let identifier ← unqualifiedIdentifier
    let unnamed ← unnamedDeclaration nested first semicolon
    return { unnamed with identifier := some identifier }

end CppsFrontend.Grammar
