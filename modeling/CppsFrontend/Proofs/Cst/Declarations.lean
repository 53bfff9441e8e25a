import CppsFrontend.Proofs.Cst.Names

/-!
# Stored declarations

The storing productions for declarations mirror the productions for declarations, if those
for what stands inside them do.
-/

set_option autoImplicit false

namespace CppsFrontend.Cst

open Grammar (Nested ParameterRole Input State)
open Grammar.Production (Round)
open Storing

variable [NodeKind.Layouts]

/-- Storing productions for what stands inside others, each of which mirrors a production. -/
structure MirrorsNested (input : Input) (storing : StoringNested) (nested : Nested) : Prop where
  statement : ∀ {state} semicolon equal,
    Mirrors input state [] (storing.statement semicolon equal) (nested.statement semicolon equal)
      Held
  expression : ∀ {state}, Mirrors input state [] storing.expression nested.expression Held
  declaration : ∀ {state} semicolon,
    Mirrors input state [] (storing.declaration semicolon) (nested.declaration semicolon) Held

variable {input : Input} {state : State} {storing : StoringNested} {nested : Nested}
variable (inner : MirrorsNested input storing nested)

include inner

theorem parameter_mirrors (role : ParameterRole) :
    Mirrors input state [] (parameter storing role) (Grammar.parameter nested role) Held := by
  refine .restoring (.read fun token _ _ => .read fun modifier _ _ => ?_)
  refine .bind (inner.declaration false) fun node declaration parts _ held => ?_
  exact .create (.intro held)

theorem parameterRound_mirrors (role : ParameterRole) :
    Mirrors input state [] (parameterRound storing role) (Grammar.parameterRound nested role)
      (OfRound Held) := by
  refine .attempt (parameter_mirrors inner role) ?_ fun _ => .pure .stop
  intro node parameter parts middle held
  refine .read fun closes _ _ => ?_
  cases closes with
  | true => exact .pure (.last held)
  | false =>
      refine .read fun comma _ _ => ?_
      cases comma with
      | some place => exact .pure (.more held)
      | none => exact .read fun _ _ _ => .reject

theorem parameterList_mirrors (role : ParameterRole) :
    Mirrors input state [] (parameterList storing role) (Grammar.parameterList nested role)
      ParameterList.Denotes := by
  refine .restoring (.read fun opening _ _ => .read fun _ _ _ => .read fun before _ _ => ?_)
  refine .bind (.collect fun _ => parameterRound_mirrors inner role) ?_
  intro nodes parameters parts _ each
  refine .read fun closing _ _ => .read fun closed _ _ => ?_
  cases closed with
  | some place => exact .pure (.intro each)
  | none => exact .read fun _ _ _ => .fail

theorem results_mirrors :
    Mirrors input state [] (results storing) (Grammar.results nested) Returns.Denotes := by
  refine .orReject fun _ => .either ?_ ?_
  · exact .map identifierExpression_mirrors fun _ _ _ held => .value held
  · intro _
    refine .bind (parameterList_mirrors inner .result) fun list results parts _ denotes => ?_
    exact .creating denotes fun node => .pure (.named (.of ..))

theorem functionSignature_mirrors :
    Mirrors input state [] (functionSignature storing) (Grammar.functionSignature nested)
      Held := by
  refine .restoring (.bind (parameterList_mirrors inner .argument) ?_)
  intro list parameters parts _ takes
  refine .read fun throws _ _ => .read fun arrow _ _ => ?_
  cases arrow with
  | some place =>
      refine .bind (results_mirrors inner) fun stored returns others _ gives => ?_
      exact .create (.intro takes gives)
  | none =>
      have denotes : FunctionSignature.Denotes ⟨list, throws.isSome, .nothing⟩
          ⟨parameters, throws.isSome, .nothing⟩ (parts ++ []) := .intro takes .nothing
      rw [List.append_nil] at denotes
      exact .create denotes

def PointedType.Denotes (size : Nat) (stored : DeclarationType × Option TokenId)
    (type : CppsFrontend.DeclarationType × Option TokenId) (parts : List Part) : Prop :=
  DeclarationType.Denotes stored.1 type.1 parts ∧ stored.2 = type.2 ∧
    ∀ token ∈ type.2, token < size

theorem declarationType_mirrors :
    Mirrors input state [] (declarationType storing) (Grammar.declarationType nested)
      (PointedType.Denotes input.stream.size) := by
  refine .attempt (functionSignature_mirrors inner) ?_ fun _ => ?_
  · intro node signature parts _ held
    exact .pure ⟨.function held, rfl, nofun⟩
  · refine .read fun pointer _ run => ?_
    refine .bind identifierExpression_mirrors fun node type parts _ held => .pure ?_
    exact ⟨.object held, rfl, lt_size_of_eat (by simp) run⟩

def Initializer.Denotes (stored : Option (Node NodeKind.statement) × Option Location)
    (initializer : Option CppsFrontend.Statement × Option Location) (parts : List Part) : Prop :=
  Maybe Held stored.1 initializer.1 parts ∧ stored.2 = initializer.2

theorem initializer_mirrors {stored : DeclarationType} {type : CppsFrontend.DeclarationType}
    {parts : List Part} (typed : DeclarationType.Denotes stored type parts) (first : Location)
    (semicolon : Bool) :
    Mirrors input state [] (initializer storing stored first semicolon)
      (Grammar.initializer nested type first semicolon) Initializer.Denotes := by
  refine .read fun assigned _ _ => ?_
  cases assigned with
  | true =>
      refine .read fun equal _ _ => .read fun _ _ _ => ?_
      refine .bind (.orRejectAt fun _ => inner.statement semicolon (some equal)) ?_
      intro node statement parts _ held
      exact .pure ⟨.some held, rfl⟩
  | false =>
      cases typed with
      | function held => exact .reject
      | object held =>
          refine .read fun closed _ _ => ?_
          split
          · exact .reject
          · exact .pure ⟨.none, rfl⟩

/-- A handle that stands for a declaration without a name. -/
def Unnamed (node : Node NodeKind.declaration) (declaration : CppsFrontend.Declaration)
    (parts : List Part) : Prop :=
  Held node declaration parts ∧ declaration.identifier = none

theorem unnamedDeclaration_mirrors (first : Location) (semicolon : Bool) :
    Mirrors input state [] (unnamedDeclaration storing first semicolon)
      (Grammar.unnamedDeclaration nested first semicolon) Unnamed := by
  refine .read fun _ _ _ => .bind (declarationType_mirrors inner) ?_
  rintro ⟨stored, pointer⟩ ⟨type, _⟩ types _ ⟨typed, rfl, inside⟩
  refine .bind (initializer_mirrors inner typed first semicolon) ?_
  rintro ⟨node, equal⟩ ⟨initializer, _⟩ inits _ ⟨initialized, rfl⟩
  refine .read fun last _ _ => ?_
  rw [← bind_pure (create NodeKind.declaration _)]
  refine .creating (.intro .none typed inside initialized) fun node => .pure ?_
  exact ⟨.of .., rfl⟩

theorem declaration_mirrors (semicolon : Bool) :
    Mirrors input state [] (declaration storing semicolon)
      (Grammar.declaration nested semicolon) Held := by
  refine .restoring (.read fun first _ _ => ?_)
  refine .bind unqualifiedIdentifier_mirrors fun name identifier names _ named => ?_
  refine .bind (unnamedDeclaration_mirrors inner first.location semicolon) ?_
  rintro node unnamed parts _ ⟨held, nameless⟩
  cases held with
  | intro subtree =>
      refine .inspect fun sounds => ?_
      have sound : subtree.Sound input.stream.size := sounds ⟨.declaration, subtree⟩ (by simp)
      cases sound with
      | @intro _ node content tree parts denotes inner =>
          refine .getting content (by simp [Subtree.of]) ?_
          cases denotes with
          | intro missing typed inside initialized =>
              cases nameless
              cases missing
              refine .setting ?_ inner (.pure (.of ..))
              rw [List.nil_append, List.nil_append, ← List.append_assoc]
              exact .intro (.some named) typed inside initialized

end CppsFrontend.Cst
