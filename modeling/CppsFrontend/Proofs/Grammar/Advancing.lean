import CppsFrontend.Proofs.Grammar.Statements

/-!
# Productions move forward or stay

Whatever a production does inside itself, it leaves the position where it was when it
fails, and it has moved forward over tokens of the stream when it derives a value.  The
helpers of the productions, such as lists of postfix terms or unnamed declarations, fail
where they are; who uses them goes back.
-/

set_option autoImplicit false

namespace CppsFrontend.Grammar

open Production

variable {α : Type} {nested : Nested}

theorem Derivable.forward {stream : TokenStream} {phrase : Phrase} {start stop : Nat}
    (derivable : Derivable stream phrase start stop) (written : phrase.isNullable = false) :
    start < stop ∧ stop ≤ stream.size := by
  have forward := derivable.start_lt_stop written
  obtain ⟨leaves, -, covers⟩ := derivable
  exact ⟨forward, covers.stop_le_size forward⟩

/-- A failure has passed no token, and a derived value has passed at least one. -/
structure Production.Advances (production : Production α) : Prop where
  kept : KeepsPlace production
  moved : ∀ {input : Input} {state after : State} {value : α},
    production input state = (some value, after) →
      state.position < after.position ∧ after.position ≤ input.stream.size

/-- What is derived from its tokens has passed them. -/
theorem Production.Advances.of_sound {production : Production α} {phrase : α → Phrase}
    (kept : KeepsPlace production) (sound : Sound production phrase)
    (written : ∀ value, (phrase value).isNullable = false) : production.Advances where
  kept := kept
  moved run := (sound run).forward (written _)

/-! ## Productions that go back by their alternatives -/

/-- A name is tried first, and what is tried behind it goes back by itself. -/
theorem primary_keepsPlace : KeepsPlace (primary nested) := by
  intro input state after run
  rw [primary, bind_apply] at run
  cases first : identifierExpression input state with
  | mk result middle =>
      rw [outcome_of first] at run
      cases result with
      | some expression => cases run
      | none =>
          have kept := identifierExpression_keepsPlace input state middle first
          simp only [lexeme_bind, check_bind, ite_run] at run
          split at run
          · cases run
          · split at run
            · exact (keepsPlace_restoring _ input middle after run).trans kept
            · exact (keepsPlace_restoring _ input middle after run).trans kept

/-! ## All productions -/

theorem unqualifiedIdentifier_advances : unqualifiedIdentifier.Advances :=
  .of_sound unqualifiedIdentifier_keepsPlace unqualifiedIdentifier_sound fun _ => rfl

theorem qualifiedIdentifier_advances : qualifiedIdentifier.Advances :=
  .of_sound (keepsPlace_restoring _) qualifiedIdentifier_sound fun _ => rfl

theorem identifierExpression_advances : identifierExpression.Advances :=
  .of_sound identifierExpression_keepsPlace identifierExpression_sound fun _ => rfl

section Nested

variable (inner : SoundNested nested)

include inner

theorem parameter_advances (role : ParameterRole) : (parameter nested role).Advances :=
  .of_sound (keepsPlace_restoring _) (parameter_sound inner role) fun _ => rfl

theorem parameterList_advances (role : ParameterRole) :
    (parameterList nested role).Advances :=
  .of_sound (keepsPlace_restoring _) (parameterList_sound inner role) fun _ => rfl

theorem functionSignature_advances : (functionSignature nested).Advances :=
  .of_sound (keepsPlace_restoring _) (functionSignature_sound inner) fun _ => rfl

theorem declaration_advances (semicolon : Bool) : (declaration nested semicolon).Advances :=
  .of_sound (keepsPlace_restoring _) (declaration_sound inner semicolon) fun _ => rfl

theorem primary_advances : (primary nested).Advances :=
  .of_sound primary_keepsPlace (primary_sound inner) fun _ => rfl

theorem basicExpression_advances : (basicExpression nested).Advances :=
  .of_sound (keepsPlace_restoring _) (basicExpression_sound inner true) fun _ => rfl

theorem expression_advances (allowRelational : Bool) :
    (expression nested allowRelational).Advances :=
  .of_sound (keepsPlace_restoring _) (expression_sound inner allowRelational) fun _ => rfl

theorem selectionStatement_advances : (selectionStatement nested).Advances :=
  .of_sound (keepsPlace_restoring _) (selectionStatement_sound inner true none) fun _ => rfl

theorem returnStatement_advances : (returnStatement nested).Advances :=
  .of_sound (keepsPlace_restoring _) (returnStatement_sound inner true none) fun _ => rfl

theorem iterationStatement_advances : (iterationStatement nested).Advances :=
  .of_sound (keepsPlace_restoring _) (iterationStatement_sound inner true none) fun _ => rfl

theorem compound_advances (equal : Option Location) : (compound nested equal).Advances :=
  .of_sound (keepsPlace_restoring _) (compound_sound inner equal) fun _ => rfl

theorem expressionStatement_advances (semicolon : Bool) :
    (expressionStatement nested semicolon).Advances :=
  .of_sound (keepsPlace_restoring _) (expressionStatement_sound inner semicolon none)
    fun _ => rfl

theorem statement_advances (semicolon : Bool) (equal : Option Location) :
    (statement nested semicolon equal).Advances :=
  .of_sound (keepsPlace_restoring _) (statement_sound inner semicolon equal) fun _ => rfl

end Nested

/-- However deep statements, expressions and declarations are nested in each other: names,
declarations and their parts, expressions and their parts, and statements of every kind
leave the position alone when they fail, and move it forward, at most to the end of the
stream, when they derive a value. -/
theorem productions_advance (depth : Nat) :
    (unqualifiedIdentifier.Advances ∧ qualifiedIdentifier.Advances ∧
      identifierExpression.Advances) ∧
    ((∀ role, (parameter (productions depth) role).Advances) ∧
      (∀ role, (parameterList (productions depth) role).Advances) ∧
      (functionSignature (productions depth)).Advances ∧
      ∀ semicolon, (declaration (productions depth) semicolon).Advances) ∧
    ((primary (productions depth)).Advances ∧ (basicExpression (productions depth)).Advances ∧
      ∀ allowRelational, (expression (productions depth) allowRelational).Advances) ∧
    ((selectionStatement (productions depth)).Advances ∧
      (returnStatement (productions depth)).Advances ∧
      (iterationStatement (productions depth)).Advances ∧
      (∀ equal, (compound (productions depth) equal).Advances) ∧
      (∀ semicolon, (expressionStatement (productions depth) semicolon).Advances) ∧
      ∀ semicolon equal, (statement (productions depth) semicolon equal).Advances) := by
  have inner := soundNested_productions depth
  have names := And.intro unqualifiedIdentifier_advances
    (And.intro qualifiedIdentifier_advances identifierExpression_advances)
  refine ⟨names, ?declarations, ?expressions, ?statements⟩
  case declarations =>
    exact ⟨parameter_advances inner, parameterList_advances inner,
      functionSignature_advances inner, declaration_advances inner⟩
  case expressions =>
    exact ⟨primary_advances inner, basicExpression_advances inner, expression_advances inner⟩
  case statements =>
    exact ⟨selectionStatement_advances inner, returnStatement_advances inner,
      iterationStatement_advances inner, compound_advances inner,
      expressionStatement_advances inner, statement_advances inner⟩

end CppsFrontend.Grammar
