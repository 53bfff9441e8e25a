import CppsFrontend.Cst.Storing
import CppsFrontend.Grammar.Declaration

/-!
# Storing names and declarations

The productions for names and declarations, with their nodes.
-/

set_option autoImplicit false

namespace CppsFrontend.Cst

open Grammar (Nested ParameterRole)
open Grammar.Production (Round check current eat expect here previous reject reportCount
  reportFollowOn)
open Storing

variable [NodeKind.Layouts]

/-! ## Names -/

def unqualifiedIdentifier : Storing (Node NodeKind.unqualifiedIdentifier) := do
  create .unqualifiedIdentifier (← Grammar.unqualifiedIdentifier)

def scopedRound : Storing (Round QualifiedTerm) := do
  match ← eat (.punctuator .doubleColon) with
  | some scope => return .more ⟨some scope, ← unqualifiedIdentifier⟩
  | none => return .stop

/-- Names joined by `::`.  A single name is used up again. -/
def qualifiedIdentifier : Storing (Node NodeKind.qualifiedIdentifier) :=
  restoring do
    let first ← unqualifiedIdentifier
    if ← check (.punctuator .doubleColon) then
      let more ← collect scopedRound
      create .qualifiedIdentifier ⟨⟨none, first⟩ :: more⟩
    else
      destroy first
      fail

def identifierExpression : Storing (Node NodeKind.identifierExpression) := do
  let location := (← current).location
  let identifier ←
    either (Identifier.qualified <$> qualifiedIdentifier)
      (Identifier.unqualified <$> unqualifiedIdentifier)
  create .identifierExpression ⟨identifier, location⟩

/-! ## Declarations -/

structure StoringNested where
  statement : Bool → Option Location → Storing (Node NodeKind.statement)
  expression : Storing (Node NodeKind.expression)
  declaration : Bool → Storing (Node NodeKind.declaration)

def StoringNested.none : StoringNested :=
  ⟨fun _ _ => fail, fail, fun _ => fail⟩

variable (nested : StoringNested)

def parameter (role : ParameterRole) : Storing (Node NodeKind.parameter) :=
  restoring do
    let location := (← current).location
    let modifier ← Grammar.parameterModifier role
    let declaration ← nested.declaration false
    create .parameter ⟨modifier, declaration, location⟩

def parameterRound (role : ParameterRole) : Storing (Round (Node NodeKind.parameter)) := do
  match ← outcome (parameter nested role) with
  | none => return .stop
  | some parameter =>
      if ← check (.punctuator .closeParenthesis) then return .last parameter
      match ← eat (.punctuator .comma) with
      | some _ => return .more parameter
      | none => reject .commaExpected (← here)

def parameterList (role : ParameterRole) : Storing ParameterList :=
  restoring do
    let opening ← here
    let _ ← expect (.punctuator .openParenthesis)
    let before ← reportCount
    let parameters ← collect (parameterRound nested role)
    let closing ← here
    match ← eat (.punctuator .closeParenthesis) with
    | some _ => return ⟨parameters, opening, closing⟩
    | none =>
        reportFollowOn before .parameterListUnclosed closing
        fail

def namedResults : Storing Returns := do
  return .named (← create .parameterList (← parameterList nested .result))

def results : Storing Returns :=
  orReject (either (Returns.value <$> identifierExpression) (namedResults nested))
    .returnsExpected

def functionSignature : Storing (Node NodeKind.functionSignature) :=
  restoring do
    let parameters ← parameterList nested .argument
    let throws := (← eat (.keyword .throwsWord)).isSome
    match ← eat (.punctuator .arrow) with
    | some _ => create .functionSignature ⟨parameters, throws, ← results nested⟩
    | none => create .functionSignature ⟨parameters, throws, .nothing⟩

def declarationType : Storing (DeclarationType × Option TokenId) := do
  match ← outcome (functionSignature nested) with
  | some signature => return (.function signature, none)
  | none =>
      let pointer ← eat (.punctuator .multiply)
      return (.object (← identifierExpression), pointer)

def initializer (type : DeclarationType) (first : Location) (semicolon : Bool) :
    Storing (Option (Node NodeKind.statement) × Option Location) := do
  if ← check (.punctuator .assignment) then
    let equal ← here
    let _ ← Grammar.Production.advance
    let statement ←
      orRejectAt (nested.statement semicolon (some equal)) .initializerIllFormed equal
    return (some statement, some equal)
  match type with
  | .function _ => reject .equalExpected first
  | .object _ =>
      if (← eat (.punctuator .semicolon)).isNone && semicolon then
        reject .declarationSemicolonExpected first
      else return (none, none)

def unnamedDeclaration (first : Location) (semicolon : Bool) :
    Storing (Node NodeKind.declaration) := do
  let _ ← expect (.punctuator .colon)
  let (type, pointer) ← declarationType nested
  let (statement, equal) ← initializer nested type first semicolon
  let last := (← previous).location
  create .declaration ⟨none, type, pointer, statement, first, last, equal⟩

/-- A named declaration: the name is put into the node of the unnamed one. -/
def declaration (semicolon : Bool) : Storing (Node NodeKind.declaration) :=
  restoring do
    let first := (← current).location
    let identifier ← unqualifiedIdentifier
    let unnamed ← unnamedDeclaration nested first semicolon
    set unnamed { ← get unnamed with identifier := some identifier }
    return unnamed

end CppsFrontend.Cst
