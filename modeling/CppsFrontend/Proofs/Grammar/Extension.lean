import CppsFrontend.Proofs.Grammar.Continuation

/-!
# The productions where more tokens follow

Every production of the grammar keeps to `Carries`.  Most of them stop before the last
token, because they need something behind what they have passed.  Blocks and statements
that must be closed may pass the last token and are complete then.  An expression may end
with a function and its block; a text with more behind it may continue that expression, so
where it ends the text nothing is said about the whole.
-/

set_option autoImplicit false

namespace CppsFrontend.Grammar

open Production

variable {part whole : TokenStream} {nested : Nested} {ending : Ending} {state : State}

/-- Anything may be the location of a report. -/
theorem places_everywhere (stream : TokenStream) : Places stream fun _ => True :=
  ⟨fun _ _ => trivial, fun _ => trivial⟩

/-! ## Names -/

section Names

variable (continued : Continued part whole) (within : state.position < part.size)

include continued within

theorem unqualifiedIdentifier_persists :
    Persists part whole ending unqualifiedIdentifier state := by
  cases naming : isNaming (part.get state.position).lexeme with
  | false =>
      have missing : isNaming (whole.get state.position).lexeme = false :=
        continued.token _ within ▸ naming
      exact .inside (unqualifiedIdentifier_missing naming) (unqualifiedIdentifier_missing missing)
        rfl within
  | true =>
      -- A name closes nothing, so the token behind it is one of the part.
      have behind : ∀ {place}, place < part.size →
          isNaming (part.get place).lexeme = true → place + 1 < part.size := by
        intro place within naming
        refine continued.next within rfl ?_
        rintro (same | same) <;> rw [same] at naming <;> cases naming
      have further := behind within naming
      refine .restoring within (.check continued within (.peek ?_ ?_))
      · rw [continued.token _ further]
      extract_lets named
      have each : ∀ constant middle, middle.position < part.size →
          Persists part whole ending (named constant) middle := by
        intro constant middle within
        refine .lexeme continued within (.peek ?_ ?_)
        · cases naming : isNaming (part.get middle.position).lexeme with
          | false => rfl
          | true => rw [continued.token _ (behind within naming)]
        · split
          · rename_i named
            have naming := (Bool.and_eq_true ..).mp named
            exact .bindPure (.advanced continued within (behind within naming.1))
          · exact .fail within
      split
      · exact .bind (.map (.advanced continued within further) some)
          fun constant middle _ within => each constant middle within
      · exact each _ _ within

theorem scopedRound_persists : Persists part whole ending scopedRound state := by
  refine .eat continued within (by simp) ?_ ?_
  · intro found
    have further := continued.next within found (by simp [IsClosing])
    exact .bindPure (unqualifiedIdentifier_persists continued further)
  · intro _
    exact .pure within

theorem qualifiedIdentifier_persists :
    Persists part whole ending qualifiedIdentifier state := by
  refine .restoring within (.bind (unqualifiedIdentifier_persists continued within) ?_)
  intro first middle _ within
  refine .check continued within ?_
  split
  · refine .bind (.collectInner continued (fun _ within => ?_) within)
      fun _ _ _ within => .pure within
    exact scopedRound_persists continued within
  · exact .fail within

theorem identifierExpression_persists :
    Persists part whole ending identifierExpression state := by
  refine .current continued within (.bind (.either (qualifiedIdentifier_diagnoses state)
    (qualifiedIdentifier_persists continued within) ?_) ?_)
  · intro middle within
    exact .map (unqualifiedIdentifier_persists continued within) _
  · intro identifier middle _ within
    exact .pure within

end Names

/-! ## Declarations -/

/-- What is nested persists, and keeps to `Diagnoses` over the part. -/
structure PersistsNested (part whole : TokenStream) (nested : Nested) : Prop where
  diagnoses : DiagnosesNested part (fun _ => True) nested
  statement : ∀ semicolon equal state, state.position < part.size →
    Persists part whole (.of semicolon) (nested.statement semicolon equal) state
  expression : ∀ state, state.position < part.size →
    Persists part whole .loose nested.expression state
  declaration : ∀ semicolon state, state.position < part.size →
    Persists part whole (.of semicolon) (nested.declaration semicolon) state

section Declarations

variable (continued : Continued part whole) (inner : PersistsNested part whole nested)

include continued

theorem parameterModifier_persists (role : ParameterRole) (within : state.position < part.size) :
    Persists part whole ending (parameterModifier role) state := by
  refine .current continued within ?_
  cases found : (part.get state.position).lexeme with
  | parameterModifier modifier =>
      simp only
      split
      · have further := continued.next within found (by simp [IsClosing])
        exact .advance continued within (.pure further)
      · exact .reject
  | _ => exact .pure within

include inner

theorem parameter_persists (role : ParameterRole) (within : state.position < part.size) :
    Persists part whole .loose (parameter nested role) state := by
  refine .restoring within (.current continued within
    (.bind (parameterModifier_persists continued role within) ?_))
  intro modifier middle _ within
  exact .bindPure (inner.declaration false middle within)

/-- Behind a parameter there is a comma or the closing parenthesis. -/
theorem parameterRound_carries (role : ParameterRole) (within : state.position < part.size) :
    Carries part whole
      (fun asked after => asked = .stop ∧
        (part.get after.position).lexeme ≠ .punctuator .closeParenthesis)
      .inner (parameterRound nested role) state := by
  refine .attempt (parameter_persists continued inner role within) ?_ ?_ ?_ ?_ ?_
  · intro parameter middle _ within
    refine .check continued within ?_
    split
    · exact .pure within
    · refine .eat continued within (by simp) ?_ ?_
      · intro found
        exact .pure (continued.next within found (by simp [IsClosing]))
      · intro _
        exact .here continued within .reject
  · intro _ parameter middle ends
    exact (Ended.check (by simp) ends (.eat (by simp) ends (.here .reject))).carries
  · intro _ parameter middle ends
    exact .check (by simp) ends (.eat (by simp) ends (.here .reject))
  · intro middle within _
    exact .pure within
  · intro middle run grown
    refine ⟨rfl, ?_⟩
    intro asked same
    cases same
    refine ⟨rfl, ?_⟩
    intro (found : (part.get middle.position).lexeme = _)
    have kept : middle.position = state.position := keepsPlace_restoring _ _ _ _ run
    rw [kept] at found
    cases run.symm.trans (parameter_closing inner.diagnoses found)
    exact Nat.lt_irrefl _ grown

theorem parameterList_persists (role : ParameterRole) (within : state.position < part.size) :
    Persists part whole ending (parameterList nested role) state := by
  refine .restoring within (.here continued within (.expect continued within (by simp)
    (by simp [IsClosing]) ?_))
  intro _ further
  have rounds := fun (state : State) (within : state.position < part.size) =>
    parameterRound_carries continued inner role within
  refine .reportCount (.sequence (.collectAfter continued rounds (fun closes => absurd rfl closes)
    [] _ further) ?_ (fun closes => absurd rfl closes) nofun ?_)
  · intro parameters listed _ within silent
    refine .here continued within (.eat continued within (by simp) ?_ ?_)
    · intro found
      exact .pure (continued.next within found (by simp [IsClosing]))
    · intro _
      exact .followOn (congrArg Array.size silent.symm)
  · intro parameters listed _ stuck grown
    rw [here_bind, bind_of_some _ (eat_none_run.mpr ⟨stuck, rfl⟩)]
    simp only [Agrees.followOn_filtered grown]
    exact ⟨rfl, nofun⟩

theorem results_persists (within : state.position < part.size) :
    Persists part whole ending (results nested) state := by
  refine .orReject continued (.either (.map (identifierExpression_diagnoses state) _)
    (.map (identifierExpression_persists continued within) _) ?_)
  intro middle within
  exact .map (parameterList_persists continued inner .result within) _

theorem functionSignature_persists (within : state.position < part.size) :
    Persists part whole ending (functionSignature nested) state := by
  refine .restoring within (.bind (parameterList_persists continued inner .argument within) ?_)
  intro parameters listed _ within
  refine .bind (.eaten continued within (by simp) (by simp [IsClosing])) ?_
  intro word thrown _ within
  refine .eat continued within (by simp) ?_ ?_
  · intro found
    have further := continued.next within found (by simp [IsClosing])
    exact .bindPure (results_persists continued inner further)
  · intro _
    exact .pure within

theorem declarationType_persists (within : state.position < part.size) :
    Persists part whole ending (declarationType nested) state := by
  have signature : Persists part whole .inner (functionSignature nested) state :=
    functionSignature_persists continued inner within
  refine .attempt signature ?_ (fun closes => absurd rfl closes) nofun ?_ ?_
  · intro signature middle _ within
    exact .pure within
  · intro middle within _
    refine .bind (.eaten continued within (by simp) (by simp [IsClosing])) ?_
    intro pointer pointed _ within
    exact .bindPure (identifierExpression_persists continued within)
  · -- What fails with a report stands at `(`, where no type of an object begins.
    intro middle run grown
    have kept : middle.position = state.position := keepsPlace_restoring _ _ _ _ run
    by_cases found : (part.get middle.position).lexeme = .punctuator .openParenthesis
    · have star : (part.get middle.position).lexeme ≠ .punctuator .multiply := by
        simp [found]
      have unnamed : isNaming (part.get middle.position).lexeme = false := by
        rw [found]
        rfl
      have starRun : eat (.punctuator .multiply) ⟨part, .filtered⟩ middle =
          (some none, middle) := eat_none_run.mpr ⟨star, rfl⟩
      have nameRun := @identifierExpression_missing _ .filtered _ unnamed
      simp only [bind_of_some _ starRun, bind_of_none _ nameRun]
      exact ⟨rfl, nofun⟩
    · rw [kept] at found
      cases run.symm.trans (functionSignature_missing found)
      exact absurd grown (Nat.lt_irrefl _)

theorem initializer_persists (type : DeclarationType) (first : Location) (semicolon : Bool)
    (within : state.position < part.size) :
    Persists part whole (.of semicolon) (initializer nested type first semicolon) state := by
  refine .check continued within ?_
  split
  · rename_i found
    have further := continued.next within (of_decide_eq_true found) (by simp [IsClosing])
    refine .here continued within (.advance continued within (.bindPure (.orRejectAt ?_)))
    exact inner.statement semicolon _ _ further
  · cases type with
    | function signature => exact .reject
    | object object =>
        refine .eat continued within (by simp) ?_ ?_
        · intro _
          exact .done (Ending.of_ne_inner semicolon) within
        · intro _
          cases semicolon with
          | true => exact .reject
          | false => exact .pure within

theorem unnamedDeclaration_persists (first : Location) (semicolon : Bool)
    (within : state.position < part.size) :
    Persists part whole (.of semicolon) (unnamedDeclaration nested first semicolon) state := by
  refine .expect continued within (by simp) (by simp [IsClosing]) ?_
  intro _ further
  refine .bind (declarationType_persists continued inner further) ?_
  intro typed middle _ within
  refine .sequence (initializer_persists continued inner _ _ semicolon within) ?_ ?_ ?_
    (fun _ _ _ impossible => impossible.elim)
  · intro initial closed _ within _
    exact .previous continued (Nat.le_of_lt within) (.pure within)
  · intro closes initial closed _ ends
    exact .previous continued (Nat.le_of_eq ends) (.done closes (Nat.le_of_eq ends))
  · intro loose initial closed ends
    exact .later (previous_bind _) rfl (.pure loose ends)

theorem declaration_persists (semicolon : Bool) (within : state.position < part.size) :
    Persists part whole (.of semicolon) (declaration nested semicolon) state := by
  refine .restoring within (.current continued within
    (.bind (unqualifiedIdentifier_persists continued within) ?_))
  intro name middle _ within
  exact .bindPure (unnamedDeclaration_persists continued inner _ semicolon within)

end Declarations

/-! ## Expressions -/

section Expressions

variable (continued : Continued part whole) (inner : PersistsNested part whole nested)

include continued

theorem argumentModifier_persists (within : state.position < part.size) :
    Persists part whole ending argumentModifier state := by
  refine .lexeme continued within ?_
  split
  · rename_i found
    exact .advance continued within (.pure (continued.next within found (by simp [IsClosing])))
  · rename_i found
    exact .advance continued within (.pure (continued.next within found (by simp [IsClosing])))
  · exact .pure within

include inner

theorem argument_persists (within : state.position < part.size) :
    Persists part whole .loose (argument nested) state := by
  refine .bind (argumentModifier_persists continued within) ?_
  intro modifier middle _ within
  exact .bindPure (inner.expression middle within)

theorem argumentRound_persists (within : state.position < part.size) :
    Persists part whole .loose (argumentRound nested) state := by
  refine .eat continued within (by simp) ?_ ?_
  · intro found
    have further := continued.next within found (by simp [IsClosing])
    exact .bindPure (.orReject continued (argument_persists continued inner further))
  · intro _
    exact .pure within

omit continued inner in
theorem argumentRounds_ended (earlier : List Argument) (ends : state.position = part.size) :
    Ended part .loose (collectAfter (argumentRound nested) earlier) state := by
  refine .collectAfter_stop earlier rfl ends (bind_of_some _ (eat_none_run.mpr ⟨?_, rfl⟩))
  rw [Ended.get_behind ends]
  nofun

theorem arguments_persists (within : state.position < part.size) :
    Persists part whole .loose (arguments nested) state := by
  have more : ∀ (first : Argument) (middle : State), middle.position = part.size →
      Ended part .loose (do return first :: (← collect (argumentRound nested))) middle := by
    intro first middle ends
    exact .bind (argumentRounds_ended [] ends) fun _ _ _ ends => .pure rfl ends
  refine .position (.reportCount (.attempt (argument_persists continued inner within) ?_ ?_ ?_
    ?_ ?_))
  · intro first middle _ within
    exact .bindPure (.collect continued
      (fun _ within => argumentRound_persists continued inner within)
      (fun _ earlier _ ends => argumentRounds_ended earlier ends) within)
  · intro _ first middle ends
    exact (more first middle ends).carries
  · intro _ first middle ends
    exact more first middle ends
  · intro middle _ silent
    refine .reportCount ?_
    rw [silent, if_neg (Nat.lt_irrefl _)]
    exact .later (returnTo_bind _) (returnTo_bind _) rfl (.pure within)
  · intro middle _ grown
    simp only [reportCount_bind, grown, if_true]
    exact ⟨rfl, nofun⟩

theorem parenthesized_persists
    (found : (part.get state.position).lexeme = .punctuator .openParenthesis)
    (within : state.position < part.size) :
    Persists part whole ending (parenthesized nested) state := by
  have further := continued.next within found (by simp [IsClosing])
  refine .restoring within (.here continued within (.advance continued within
    (.bindEnded (.orReject continued (arguments_persists continued inner further)) ?_ ?_ ?_)))
  · intro terms listed _ within
    refine .here continued within (.eat continued within (by simp) ?_ ?_)
    · intro found
      exact .pure (continued.next within found (by simp [IsClosing]))
    · intro _
      exact .reject
  · intro _ terms listed _ ends
    exact .here (.eat (by simp) ends .reject)
  · intro _ terms listed ends
    exact .here (.eat (by simp) ends .reject)

theorem unnamedFunction_persists (closes : ending ≠ .inner) (within : state.position < part.size) :
    Persists part whole ending (unnamedFunction nested) state := by
  refine .restoring within (.here continued within (.sequence
    (unnamedDeclaration_persists continued inner _ true within) ?_ ?_ nofun
    (fun _ _ _ impossible => impossible.elim)))
  · intro declaration middle _ within _
    cases scope : expressionScopeError? declaration with
    | some error => exact .reject
    | none => exact .pure within
  · intro _ declaration middle _ ends
    cases scope : expressionScopeError? declaration with
    | some error => exact .reject
    | none => exact .done closes (Nat.le_of_eq ends)

theorem primary_persists (closes : ending ≠ .inner) (within : state.position < part.size) :
    Persists part whole ending (primary nested) state := by
  refine .attemptSilent (identifierExpression_diagnoses state)
    (identifierExpression_persists continued within) ?_
  intro result middle _ within
  cases result with
  | some identifier => exact .pure within
  | none =>
      refine .lexeme continued within ?_
      split
      · rename_i primary
        refine .bindPure (.advanced continued within (continued.next within rfl ?_))
        rintro (same | same) <;> rw [same] at primary <;> cases primary
      · refine .check continued within ?_
        split
        · rename_i found
          exact parenthesized_persists continued inner (of_decide_eq_true found) within
        · exact unnamedFunction_persists continued inner closes within

theorem callArguments_persists (opening : TokenId) (location : Location)
    (within : state.position < part.size) :
    Persists part whole ending (callArguments nested opening location) state := by
  refine .bindEnded (.orRejectAt (arguments_persists continued inner within)) ?_ ?_ ?_
  · intro terms listed _ within
    refine .here continued within (.eat continued within (by simp) ?_ ?_)
    · intro found
      exact .pure (continued.next within found (by simp [IsClosing]))
    · intro _
      exact .reject
  · intro _ terms listed _ ends
    exact .here (.eat (by simp) ends .reject)
  · intro _ terms listed ends
    exact .here (.eat (by simp) ends .reject)

theorem subscriptArguments_persists (opening : TokenId) (location : Location)
    (within : state.position < part.size) :
    Persists part whole ending (subscriptArguments nested opening location) state := by
  refine .bindEnded (.orRejectAt (arguments_persists continued inner within)) ?_ ?_ ?_
  · intro terms listed _ within
    split
    · exact .bind .reject fun _ _ impossible => (reject_run impossible).elim
    · refine .here continued within (.eat continued within (by simp) ?_ ?_)
      · intro found
        exact .pure (continued.next within found (by simp [IsClosing]))
      · intro _
        exact .reject
  · intro _ terms listed _ ends
    split
    · exact .needed .reject
    · exact .here (.eat (by simp) ends .reject)
  · intro _ terms listed ends
    split
    · exact .needed .reject
    · exact .here (.eat (by simp) ends .reject)

omit inner in
theorem member_persists (dot : TokenId) (location : Location)
    (within : state.position < part.size) :
    Persists part whole ending (member dot location) state := by
  refine .attemptSilent (identifierExpression_diagnoses state)
    (identifierExpression_persists continued within) ?_
  intro result middle _ within
  cases result with
  | some identifier => exact .pure within
  | none => exact .reject

omit continued inner in
/-- A token that closes something does not continue a postfix chain. -/
theorem continuesPostfix_closing {mark : Token} (closing : IsClosing mark.lexeme)
    (before : Token) (after : Lexeme) : continuesPostfix before mark after = false := by
  unfold continuesPostfix
  rcases closing with same | same <;> rw [same]

theorem postfixRound_persists (within : state.position < part.size) :
    Persists part whole ending (postfixRound nested) state := by
  refine .current continued within (.previous continued (Nat.le_of_lt within) (.peek ?_ ?_))
  · rcases Nat.lt_or_eq_of_le (Nat.succ_le_of_lt within) with further | ended
    · rw [continued.token _ further]
    · have closing := continued.last _ ended
      rw [continuesPostfix_closing closing, continuesPostfix_closing closing]
  · split
    · rename_i continues
      have further : state.next.position < part.size := by
        refine continued.next within rfl ?_
        intro closing
        rw [continuesPostfix_closing closing] at continues
        cases continues
      refine .advance continued within ?_
      split
      · exact .bindPure (subscriptArguments_persists continued inner _ _ further)
      · exact .bindPure (callArguments_persists continued inner _ _ further)
      · exact .bindPure (member_persists continued _ _ further)
      · exact .pure further
    · exact .pure within

omit continued inner in
theorem postfixRounds_ended (earlier : List PostfixTerm) (ends : state.position = part.size) :
    Ended part .loose (collectAfter (postfixRound nested) earlier) state := by
  refine .collectAfter_stop earlier rfl ends ?_
  rw [postfixRound, current_bind, Ended.get_behind ends]
  rfl

omit inner in
theorem signRound_persists (within : state.position < part.size) :
    Persists part whole ending signRound state := by
  refine .lexeme continued within ?_
  split
  all_goals
    first
      | exact .pure within
      | rename_i found
        exact .bindPure (.advanced continued within
          (continued.next within found (by simp [IsClosing])))

theorem basicExpression_persists (within : state.position < part.size) :
    Persists part whole .loose (basicExpression nested) state := by
  refine .restoring within (.bind (.collectInner continued
    (fun _ within => signRound_persists continued within) within) ?_)
  intro signs signed _ within
  have begins : Persists part whole .closing (primary nested) signed :=
    primary_persists continued inner nofun within
  refine .bindEnded begins ?_ ?_ nofun
  · intro first middle _ within
    exact .bindPure (.collectInner continued
      (fun _ within => postfixRound_persists continued inner within) within)
  · intro _ first middle _ ends
    exact .bind (postfixRounds_ended [] ends) fun _ _ _ ends => .pure rfl ends

omit inner in
theorem chainRound_persists (allowRelational : Bool) (level : Precedence)
    {operand : Production Expression}
    (each : ∀ state, state.position < part.size → Persists part whole .loose operand state)
    (within : state.position < part.size) :
    Persists part whole .loose (chainRound allowRelational level operand) state := by
  refine .current continued within ?_
  split
  · rename_i operator
    refine .advance continued within (.bindPure (.orReject continued (each _ ?_)))
    refine continued.next within rfl ?_
    rintro (same | same) <;> rw [same] at operator <;> cases operator
  · exact .pure within

omit continued inner in
theorem chainRounds_ended (allowRelational : Bool) (level : Precedence)
    (operand : Production Expression) (earlier : List ChainTerm)
    (ends : state.position = part.size) :
    Ended part .loose (collectAfter (chainRound allowRelational level operand) earlier)
      state := by
  refine .collectAfter_stop earlier rfl ends ?_
  rw [chainRound, current_bind, Ended.get_behind ends]
  rfl

omit inner in
theorem levelRound_persists (allowRelational : Bool) {levels : Levels}
    (each : ∀ level operand, levels.lookup level = some operand →
      ∀ state, state.position < part.size → Persists part whole .loose operand state)
    (within : state.position < part.size) :
    Persists part whole .loose (levelRound allowRelational levels) state := by
  refine .lexeme continued within ?_
  split
  · exact .pure within
  · rename_i level _
    split
    · exact .pure within
    · rename_i operand found
      exact .bindPure (.collect continued (fun _ within =>
        chainRound_persists continued allowRelational level (each level operand found) within)
        (fun _ earlier _ ends => chainRounds_ended _ _ _ earlier ends) within)

omit continued inner in
theorem levelRounds_ended (allowRelational : Bool) (levels : Levels)
    (earlier : List (Precedence × List ChainTerm)) (ends : state.position = part.size) :
    Ended part .loose (collectAfter (levelRound allowRelational levels) earlier) state := by
  refine .collectAfter_stop earlier rfl ends ?_
  rw [levelRound, lexeme_bind, Ended.get_behind ends]
  rfl

theorem chainsOver_persists (allowRelational : Bool) {levels : Levels}
    (each : ∀ level operand, levels.lookup level = some operand →
      ∀ state, state.position < part.size → Persists part whole .loose operand state)
    (within : state.position < part.size) :
    Persists part whole .loose (chainsOver nested allowRelational levels) state := by
  refine .bindEnded (basicExpression_persists continued inner within) ?_ ?_ ?_
  · intro first middle _ within
    exact .bindPure (.collect continued
      (fun _ within => levelRound_persists continued allowRelational each within)
      (fun _ earlier _ ends => levelRounds_ended _ _ earlier ends) within)
  · intro _ first middle _ ends
    exact .bind (levelRounds_ended _ _ [] ends) fun _ _ _ ends => .pure rfl ends
  · intro _ first middle ends
    exact .bind (levelRounds_ended _ _ [] ends) fun _ _ _ ends => .pure rfl ends

theorem operandLevels_persists (allowRelational : Bool) (levels : List Precedence)
    (level : Precedence) (operand : Production Expression)
    (found : (operandLevels nested allowRelational levels).lookup level = some operand)
    (state : State) (within : state.position < part.size) :
    Persists part whole .loose operand state := by
  induction levels generalizing level operand state with
  | nil => cases found
  | cons loosest tighter induction =>
      rw [operandLevels, List.lookup_cons] at found
      split at found
      · cases found
        exact chainsOver_persists continued inner allowRelational induction within
      · exact induction level operand found state within

theorem expression_persists (allowRelational : Bool) (within : state.position < part.size) :
    Persists part whole .loose (expression nested allowRelational) state :=
  .restoring within (chainsOver_persists continued inner allowRelational
    (operandLevels_persists continued inner allowRelational _) within)

end Expressions

/-! ## Statements -/

section Statements

variable (continued : Continued part whole) (inner : PersistsNested part whole nested)

/-- What is written with tokens does not begin behind the last one. -/
theorem Sound.fails {α : Type} {production : Production α} {phrase : α → Phrase}
    (sound : Sound production phrase) (solid : ∀ value, (phrase value).isNullable = false)
    (ends : state.position = part.size) (value : α) (after : State) :
    production ⟨part, .filtered⟩ state ≠ (some value, after) := by
  intro run
  have derivable := sound run
  have forward := derivable.start_lt_stop (solid value)
  obtain ⟨leaves, _, covers⟩ := derivable
  have bounded : after.position ≤ part.size := covers.stop_le_size forward
  omega

include inner

theorem statementRounds_ended (earlier : List Statement) (ends : state.position = part.size) :
    Ended part .closing (collectAfter (statementRound nested) earlier) state := by
  have rejected : Ended part .closing (statementRound nested) state := by
    refine .check (by simp) ends ?_
    rw [if_neg Bool.false_ne_true]
    refine .needed (.orReject (inner.diagnoses.statement true none state) ?_)
    exact Sound.fails (inner.diagnoses.sound.statement true none) (fun _ => rfl) ends
  cases rejected with
  | rejected run grown => exact .collectAfter_rejected earlier run grown
  | wanting loose => cases loose

theorem branch_ended (word : Keyword) (ends : state.position = part.size) :
    Ended part ending (branch nested word) state :=
  .orReject (compound_diagnoses (places_everywhere part) inner.diagnoses none state)
    (Sound.fails (compound_sound inner.diagnoses.sound none) (fun _ => rfl) ends)

omit inner in
theorem closingSemicolon_ended (ends : state.position = part.size) :
    Ended part ending closingSemicolon state :=
  .eat (by simp) ends (.here .reject)

include continued

theorem statementRound_persists (within : state.position < part.size) :
    Persists part whole .closing (statementRound nested) state := by
  refine .check continued within ?_
  split
  · exact .pure within
  · exact .bindPure (.orReject continued (inner.statement true none state within))

theorem compound_persists (equal : Option Location) (closes : ending ≠ .inner)
    (within : state.position < part.size) :
    Persists part whole ending (compound nested equal) state := by
  refine .restoring within (.current continued within (.expect continued within (by simp)
    (by simp [IsClosing]) ?_))
  intro _ further
  refine .sequence (.collect continued
    (fun _ within => statementRound_persists continued inner within)
    (fun _ earlier _ ends => statementRounds_ended inner earlier ends) further) ?_ ?_ nofun
    (fun _ _ _ impossible => impossible.elim)
  · intro statements listed _ within _
    exact .here continued within (.advance continued within (.done closes within))
  · -- The rounds have stopped at a brace.
    intro _ statements listed run ends
    have closing := (statementRounds_sound inner.diagnoses.sound (collect_run run)).2
    rw [show (Input.mk part .filtered).stream = part from rfl, Ended.get_behind ends] at closing
    cases closing

theorem condition_persists (word : Keyword) (within : state.position < part.size) :
    Persists part whole .loose (condition nested word) state :=
  .orReject continued (expression_persists continued inner true within)

theorem branch_persists (word : Keyword) (closes : ending ≠ .inner)
    (within : state.position < part.size) :
    Persists part whole ending (branch nested word) state :=
  .orReject continued (compound_persists continued inner none closes within)

omit inner in
theorem closingSemicolon_persists (closes : ending ≠ .inner) (within : state.position < part.size) :
    Persists part whole ending closingSemicolon state := by
  refine .eat continued within (by simp) ?_ ?_
  · intro _
    exact .done closes within
  · intro _
    exact .here continued within .reject

/-- A selection that ends the text is complete, because what follows is no `else`. -/
theorem selectionStatement_persists (closes : ending ≠ .inner)
    (within : state.position < part.size) :
    Persists part whole ending (selectionStatement nested) state := by
  refine .restoring within (.expect continued within (by simp) (by simp [IsClosing]) ?_)
  intro _ further
  refine .bind (.eaten continued further (by simp) (by simp [IsClosing])) ?_
  intro constant marked _ within
  refine .bindEnded (condition_persists continued inner .ifWord within) ?_ ?_ ?_
  · intro test tested _ within
    have taken : Persists part whole .closing (branch nested .ifWord) tested :=
      branch_persists continued inner .ifWord nofun within
    refine .sequence taken ?_ ?_ nofun (fun _ _ _ impossible => impossible.elim)
    · intro positive middle _ within _
      refine .eat continued within (by simp) ?_ ?_
      · intro found
        have further := continued.next within found (by simp [IsClosing])
        exact .bindPure (branch_persists continued inner .elseWord closes further)
      · intro _
        exact .pure within
    · intro _ positive middle _ ends
      have missing : (part.get middle.position).lexeme ≠ .keyword .elseWord := by
        rw [Ended.get_behind ends]
        nofun
      have other : (whole.get middle.position).lexeme ≠ .keyword .elseWord := by
        rw [ends]
        exact continued.behind
      exact .later (bind_of_some _ (eat_none_run.mpr ⟨missing, rfl⟩))
        (bind_of_some _ (eat_none_run.mpr ⟨other, rfl⟩)) rfl (.done closes (Nat.le_of_eq ends))
  · intro _ test tested _ ends
    exact .needed (branch_ended inner .ifWord ends)
  · intro _ test tested ends
    exact .needed (branch_ended inner .ifWord ends)

theorem returnStatement_persists (closes : ending ≠ .inner)
    (within : state.position < part.size) :
    Persists part whole ending (returnStatement nested) state := by
  refine .restoring within (.expect continued within (by simp) (by simp [IsClosing]) ?_)
  intro _ further
  refine .eat continued further (by simp) ?_ ?_
  · intro _
    exact .done closes further
  · intro _
    refine .bindEnded (.orReject continued (expression_persists continued inner true further))
      ?_ ?_ ?_
    · intro value valued _ within
      exact .bindPure (closingSemicolon_persists continued closes within)
    · intro _ value valued _ ends
      exact .needed (closingSemicolon_ended ends)
    · intro _ value valued ends
      exact .needed (closingSemicolon_ended ends)

theorem whileLoop_persists (keyword : TokenId) (closes : ending ≠ .inner)
    (within : state.position < part.size) :
    Persists part whole ending (whileLoop nested keyword) state := by
  refine .bindEnded (condition_persists continued inner .whileWord within) ?_ ?_ ?_
  · intro test tested _ within
    exact .bindPure (branch_persists continued inner .whileWord closes within)
  · intro _ test tested _ ends
    exact .needed (branch_ended inner .whileWord ends)
  · intro _ test tested ends
    exact .needed (branch_ended inner .whileWord ends)

theorem doLoop_persists (keyword : TokenId) (closes : ending ≠ .inner)
    (within : state.position < part.size) :
    Persists part whole ending (doLoop nested keyword) state := by
  have body : Persists part whole .closing (branch nested .doWord) state :=
    branch_persists continued inner .doWord nofun within
  refine .bindEnded body ?_ ?_ nofun
  · intro body repeated _ within
    refine .eat continued within (by simp) ?_ ?_
    · intro found
      have further := continued.next within found (by simp [IsClosing])
      refine .bindEnded (condition_persists continued inner .whileWord further) ?_ ?_ ?_
      · intro test tested _ within
        exact .bindPure (closingSemicolon_persists continued closes within)
      · intro _ test tested _ ends
        exact .needed (closingSemicolon_ended ends)
      · intro _ test tested ends
        exact .needed (closingSemicolon_ended ends)
    · intro _
      exact .here continued within .reject
  · intro _ body repeated _ ends
    exact .eat (by simp) ends (.here .reject)

theorem iterationStatement_persists (closes : ending ≠ .inner)
    (within : state.position < part.size) :
    Persists part whole ending (iterationStatement nested) state := by
  refine .restoring within (.eat continued within (by simp) ?_ ?_)
  · intro found
    have further := continued.next within found (by simp [IsClosing])
    exact whileLoop_persists continued inner _ closes further
  · intro _
    refine .expect continued within (by simp) (by simp [IsClosing]) ?_
    intro _ further
    exact doLoop_persists continued inner _ closes further

theorem expressionStatement_persists (semicolon : Bool) (within : state.position < part.size) :
    Persists part whole (.of semicolon) (expressionStatement nested semicolon) state := by
  have unclosed : ∀ (value : Expression) (middle : State), middle.position = part.size →
      Ended part (.of semicolon) (do
        let closed := (← eat (.punctuator .semicolon)).isSome
        if !closed && semicolon then reject .statementSemicolonExpected (← here)
        else return Statement.expression value closed) middle := by
    intro value middle ends
    refine .eat (by simp) ends ?_
    cases semicolon with
    | true => exact .here .reject
    | false => exact .pure rfl ends
  refine .restoring within (.bindEnded (expression_persists continued inner true within) ?_ ?_ ?_)
  · intro value valued _ within
    refine .eat continued within (by simp) ?_ ?_
    · intro _
      exact .done (Ending.of_ne_inner semicolon) within
    · intro _
      cases semicolon with
      | true => exact .here continued within .reject
      | false => exact .pure within
  · intro _ value valued _ ends
    exact unclosed value valued ends
  · intro _ value valued ends
    exact unclosed value valued ends

theorem statement_persists (semicolon : Bool) (equal : Option Location)
    (within : state.position < part.size) :
    Persists part whole (.of semicolon) (statement nested semicolon equal) state := by
  have closes := Ending.of_ne_inner semicolon
  refine .restoring within (.reportCount (.firstOf ?_ rfl within))
  intro production member state within
  simp only [List.mem_cons, List.not_mem_nil, or_false] at member
  rcases member with rfl | rfl | rfl | rfl | rfl | rfl
  · exact selectionStatement_persists continued inner closes within
  · exact returnStatement_persists continued inner closes within
  · exact iterationStatement_persists continued inner closes within
  · exact .map (compound_persists continued inner equal closes within) _
  · exact .map (declaration_persists continued inner semicolon within) _
  · exact expressionStatement_persists continued inner semicolon within

end Statements

/-! ## All productions -/

theorem persistsNested_none : PersistsNested part whole .none where
  diagnoses := diagnosesNested_none
  statement _ _ _ within := .fail within
  expression _ within := .fail within
  declaration _ _ within := .fail within

theorem persistsNested_deepen (continued : Continued part whole)
    (inner : PersistsNested part whole nested) : PersistsNested part whole (deepen nested) where
  diagnoses := diagnosesNested_deepen (places_everywhere part) inner.diagnoses
  statement semicolon equal _ within := statement_persists continued inner semicolon equal within
  expression _ within := expression_persists continued inner true within
  declaration semicolon _ within := declaration_persists continued inner semicolon within

theorem persistsNested_productions (continued : Continued part whole) (depth : Nat) :
    PersistsNested part whole (productions depth) := by
  induction depth with
  | zero => exact persistsNested_none
  | succ depth induction =>
      rw [productions_succ]
      exact persistsNested_deepen continued induction

end CppsFrontend.Grammar
