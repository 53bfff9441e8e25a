import CppsFrontend.Proofs.Grammar.Names

/-!
# Declarations are derived from their tokens

Each production for a part of a declaration is sound if the nested ones are.  The
comma behind the last parameter is where a tree tells less than its tokens.
-/

set_option autoImplicit false

namespace CppsFrontend.Grammar

open Production

structure SoundNested (nested : Nested) : Prop where
  statement : ∀ semicolon equal,
    Sound (nested.statement semicolon equal) (.statement semicolon equal)
  expression : Sound nested.expression (.expression true)
  declaration : ∀ semicolon, Sound (nested.declaration semicolon) (.declaration semicolon)

variable {nested : Nested} {input : Input} {state after : State}

/-! ## Parameters -/

theorem parameterModifier_run {role : ParameterRole} {modifier : ParameterModifier}
    (run : parameterModifier role input state = (some modifier, after)) :
    ((input.stream.get state.position).lexeme = .parameterModifier modifier ∧
        role.allows modifier = true ∧ after = state.next) ∨
      (modifier = role.defaultModifier ∧ after = state) := by
  rw [parameterModifier, current_bind] at run
  cases found : (input.stream.get state.position).lexeme with
  | parameterModifier written =>
      simp only [found, ite_run] at run
      split at run
      · rename_i allowed
        have inside := input.stream.lt_size_of_lexeme state.position (by simp [found])
        rw [advance_bind inside] at run
        obtain ⟨rfl, rfl⟩ := pure_run.mp run
        exact .inl ⟨rfl, allowed, rfl⟩
      · exact absurd run reject_run
  | _ =>
      simp only [found] at run
      obtain ⟨rfl, rfl⟩ := pure_run.mp run
      exact .inr ⟨rfl, rfl⟩

theorem modifierLeaf_place (role : ParameterRole) (modifier : ParameterModifier)
    (place : TokenId) : (modifierLeaf role modifier place).place = place := by
  unfold modifierLeaf
  split <;> rfl

theorem modifierLeaf_terminal (role : ParameterRole) (modifier : ParameterModifier)
    (place : TokenId) :
    (modifierLeaf role modifier place).terminal = .exactly (.parameterModifier modifier) := by
  unfold modifierLeaf
  split
  · rename_i same
    simp [Leaf.terminal, Choice.lexeme, same]
  · rfl

theorem parameter_sound (inner : SoundNested nested) (role : ParameterRole) :
    Sound (parameter nested role) (.parameter role) := by
  intro input state after value run
  rw [parameter, restoring_run, current_bind] at run
  obtain ⟨modifier, middle, modified, run⟩ := bind_run.mp run
  obtain ⟨declaration, last, declared, made⟩ := bind_run.mp run
  obtain ⟨rfl, rfl⟩ := pure_run.mp made
  have derivable := inner.declaration false declared
  have forward := derivable.start_lt_stop rfl
  obtain ⟨leaves, derives, covers⟩ := derivable
  rcases parameterModifier_run modified with ⟨found, allowed, rfl⟩ | ⟨rfl, rfl⟩
  · have place := modifierLeaf_place role modifier state.position
    have opening : (modifierLeaf role modifier state.position).Fits input.stream :=
      Leaf.fits_exactly _ (modifierLeaf_terminal role modifier state.position)
        (by rw [place]; exact found) (by simp)
    have single := Covers.single _ opening
    rw [place] at single
    exact ⟨_, .modifiedParameter state.position allowed derives, single.append covers⟩
  · rw [← covers.firstLocation_eq forward]
    exact ⟨leaves, .plainParameter derives, covers⟩

/-- A round for one more parameter ends where there is none, or passes one and what
follows it: a comma, or nothing before the closing parenthesis. -/
theorem parameterRound_run {role : ParameterRole} {round : Round Parameter}
    (run : parameterRound nested role input state = (some round, after)) :
    (round = .stop ∧ parameter nested role input state = (none, after)) ∨
      ∃ value middle, parameter nested role input state = (some value, middle) ∧
        ((round = .last value ∧ after = middle ∧
            (input.stream.get middle.position).lexeme = .punctuator .closeParenthesis) ∨
          (round = .more value ∧ after = middle.next ∧
            (input.stream.get middle.position).lexeme = .punctuator .comma)) := by
  rw [parameterRound, bind_run] at run
  obtain ⟨outcome, middle, first, run⟩ := run
  rw [outcome_run] at first
  cases outcome with
  | none =>
      obtain ⟨rfl, rfl⟩ := pure_run.mp run
      exact .inl ⟨rfl, first⟩
  | some value =>
      refine .inr ⟨value, middle, first, ?_⟩
      simp only [check_bind, ite_run, decide_eq_true_eq] at run
      split at run
      · rename_i closing
        obtain ⟨rfl, rfl⟩ := pure_run.mp run
        exact .inl ⟨rfl, rfl, closing⟩
      · obtain ⟨comma, last, eaten, made⟩ := bind_run.mp run
        cases comma with
        | none =>
            simp only [here_bind] at made
            exact absurd made reject_run
        | some comma =>
            obtain ⟨found, rfl, rfl⟩ := (eat_run (by simp)).mp eaten
            obtain ⟨rfl, rfl⟩ := pure_run.mp made
            exact .inr ⟨rfl, rfl, found⟩

theorem parameterRounds_sound (inner : SoundNested nested) {role : ParameterRole}
    {parameters : List Parameter}
    (rounds : Rounds (parameterRound nested role) input state parameters after) :
    Derivable input.stream (.parameters role parameters) state.position after.position := by
  induction rounds with
  | @stop state after run =>
      rcases parameterRound_run run with ⟨-, failed⟩ | ⟨value, middle, -, impossible⟩
      · have kept := keepsPlace_restoring _ input state after failed
        rw [kept]
        exact ⟨[], .noParameters, .nil _ _⟩
      · rcases impossible with ⟨impossible, -⟩ | ⟨impossible, -⟩ <;> cases impossible
  | last run =>
      rcases parameterRound_run run with ⟨impossible, -⟩ | ⟨value, middle, first, ended⟩
      · cases impossible
      · rcases ended with ⟨same, rfl, -⟩ | ⟨impossible, -⟩
        · cases same
          obtain ⟨leaves, derives, covers⟩ := parameter_sound inner role first
          exact ⟨leaves, .lastParameter derives, covers⟩
        · cases impossible
  | @more state middle after value values run forward rest induction =>
      rcases parameterRound_run run with ⟨impossible, -⟩ | ⟨value, middle, first, ended⟩
      · cases impossible
      · rcases ended with ⟨impossible, -⟩ | ⟨same, rfl, found⟩
        · cases impossible
        · cases same
          obtain ⟨head, derives, headCovers⟩ := parameter_sound inner role first
          obtain ⟨tail, more, tailCovers⟩ := induction
          cases values with
          | nil =>
              -- Nothing stands behind the comma, so the tree does not show it.
              have comma : (Leaf.unrecorded middle.position .trailingComma).Fits
                  input.stream := Leaf.fits_exactly _ rfl found (by simp [Choice.lexeme])
              cases more
              exact ⟨_, .trailingComma middle.position derives,
                headCovers.append (.cons _ comma tailCovers)⟩
          | cons next values =>
              have comma : (Leaf.fixed middle.position (.punctuator .comma)).Fits
                  input.stream := Leaf.fits_exactly _ rfl found (by simp)
              exact ⟨_, .moreParameters middle.position derives more,
                headCovers.append (.cons _ comma tailCovers)⟩

theorem reportLocation_eq {stream : TokenStream} {place : Nat} (inside : place < stream.size) :
    stream.reportLocation place = (stream.get place).location := by
  have notPast := (stream.isPast_eq_false_iff place).mpr inside
  simp [TokenStream.reportLocation, notPast]

theorem parameterList_sound (inner : SoundNested nested) (role : ParameterRole) :
    Sound (parameterList nested role) (.parameterList role) := by
  intro input state after list run
  simp only [parameterList, restoring_run, here_bind] at run
  obtain ⟨opening, opened, openRun, run⟩ := bind_run.mp run
  obtain ⟨begins, rfl, rfl⟩ := (expect_run (by simp)).mp openRun
  rw [reportCount_bind] at run
  obtain ⟨parameters, listed, collected, run⟩ := bind_run.mp run
  rw [here_bind] at run
  obtain ⟨closing, closed, closeRun, run⟩ := bind_run.mp run
  cases closing with
  | none =>
      obtain ⟨_, _, -, failed⟩ := bind_run.mp run
      exact absurd failed fail_run
  | some closing =>
      obtain ⟨ends, rfl, rfl⟩ := (eat_run (by simp)).mp closeRun
      obtain ⟨rfl, rfl⟩ := pure_run.mp run
      have first : (Leaf.fixed state.position (.punctuator .openParenthesis)).Fits
          input.stream := Leaf.fits_exactly _ rfl begins (by simp)
      have last : (Leaf.fixed listed.position (.punctuator .closeParenthesis)).Fits
          input.stream := Leaf.fits_exactly _ rfl ends (by simp)
      obtain ⟨leaves, derives, covers⟩ := parameterRounds_sound inner (collect_run collected)
      have firstInside : state.position < input.stream.size := first.1
      have lastInside : listed.position < input.stream.size := last.1
      rw [reportLocation_eq firstInside, reportLocation_eq lastInside]
      exact ⟨_, .parameterList state.position listed.position derives,
        (Covers.cons _ first covers).append (.single _ last)⟩

/-! ## Signatures and types -/

theorem results_sound (inner : SoundNested nested) {returns : Returns} {arrow : TokenId}
    (begins : (input.stream.get arrow).lexeme = .punctuator .arrow)
    (place : state.position = arrow + 1)
    (run : results nested input state = (some returns, after)) :
    Derivable input.stream (.returns returns) arrow after.position := by
  have opening : (Leaf.fixed arrow (.punctuator .arrow)).Fits input.stream :=
    Leaf.fits_exactly _ rfl begins (by simp)
  rw [results, orReject_run, either_run] at run
  rcases run with run | ⟨middle, failed, run⟩
  · obtain ⟨type, typed, rfl⟩ := map_run.mp run
    obtain ⟨leaves, derives, covers⟩ := identifierExpression_sound typed
    rw [place] at covers
    exact ⟨_, .valueResult arrow derives, .cons _ opening covers⟩
  · have kept := identifierExpression_keepsPlace.map _ input state middle failed
    obtain ⟨list, listed, rfl⟩ := map_run.mp run
    obtain ⟨leaves, derives, covers⟩ := parameterList_sound inner .result listed
    rw [kept, place] at covers
    exact ⟨_, .namedResults arrow derives, .cons _ opening covers⟩

theorem functionSignature_sound (inner : SoundNested nested) :
    Sound (functionSignature nested) .signature := by
  intro input state after signature run
  simp only [functionSignature, restoring_run, bind_run] at run
  obtain ⟨parameters, listed, listRun, throws, thrown, throwsRun, arrow, pointed, arrowRun,
    run⟩ := run
  obtain ⟨head, derives, headCovers⟩ := parameterList_sound inner .argument listRun
  have middleCovers : Covers input.stream listed.position thrown.position
      (optionalFixed throws.isSome listed.position (.keyword .throwsWord)) := by
    cases throws with
    | none =>
        obtain ⟨-, rfl⟩ := eat_none_run.mp throwsRun
        exact .nil _ _
    | some word =>
        obtain ⟨found, rfl, rfl⟩ := (eat_run (by simp)).mp throwsRun
        exact .single (.fixed listed.position _) (Leaf.fits_exactly _ rfl found (by simp))
  cases arrow with
  | none =>
      obtain ⟨-, rfl⟩ := eat_none_run.mp arrowRun
      obtain ⟨rfl, rfl⟩ := pure_run.mp run
      exact ⟨_, .signature listed.position derives .noResult,
        (headCovers.append middleCovers).append (.nil _ _)⟩
  | some arrow =>
      obtain ⟨found, rfl, rfl⟩ := (eat_run (by simp)).mp arrowRun
      obtain ⟨returns, last, resultRun, made⟩ := bind_run.mp run
      obtain ⟨rfl, rfl⟩ := pure_run.mp made
      obtain ⟨tail, resulting, tailCovers⟩ := results_sound inner found rfl resultRun
      exact ⟨_, .signature listed.position derives resulting,
        (headCovers.append middleCovers).append tailCovers⟩

theorem declarationType_sound (inner : SoundNested nested) :
    Sound (declarationType nested) fun typed => .type typed.1 typed.2 := by
  intro input state after typed run
  rw [declarationType, bind_run] at run
  obtain ⟨outcome, middle, first, run⟩ := run
  rw [outcome_run] at first
  cases outcome with
  | some signature =>
      obtain ⟨rfl, rfl⟩ := pure_run.mp run
      obtain ⟨leaves, derives, covers⟩ := functionSignature_sound inner first
      exact ⟨leaves, .functionType derives, covers⟩
  | none =>
      have kept := keepsPlace_restoring _ input state middle first
      obtain ⟨pointer, pointed, pointerRun, run⟩ := bind_run.mp run
      obtain ⟨type, last, typeRun, made⟩ := bind_run.mp run
      obtain ⟨rfl, rfl⟩ := pure_run.mp made
      obtain ⟨leaves, derives, covers⟩ := identifierExpression_sound typeRun
      refine ⟨_, .objectType pointer derives, ?_⟩
      cases pointer with
      | none =>
          obtain ⟨-, rfl⟩ := eat_none_run.mp pointerRun
          rwa [kept] at covers
      | some star =>
          obtain ⟨found, rfl, rfl⟩ := (eat_run (by simp)).mp pointerRun
          have opening : (Leaf.stored middle.position (.exactly (.punctuator .multiply))).Fits
              input.stream := Leaf.fits_exactly _ rfl found (by simp)
          have joined := Covers.cons _ opening covers
          rwa [show (Leaf.stored middle.position _).place = state.position from kept] at joined

/-! ## Declarations -/

theorem semicolonLeaf_place (semicolon : Bool) (place : TokenId) :
    (semicolonLeaf semicolon place).place = place := by
  cases semicolon <;> rfl

theorem semicolonLeaf_fits {stream : TokenStream} {place : TokenId} (semicolon : Bool)
    (found : (stream.get place).lexeme = .punctuator .semicolon) :
    (semicolonLeaf semicolon place).Fits stream := by
  cases semicolon
  · exact Leaf.fits_exactly _ rfl found (by simp [Choice.lexeme])
  · exact Leaf.fits_exactly _ rfl found (by simp)

theorem initializer_run {type : DeclarationType} {first : Location} {semicolon : Bool}
    {value : Option Statement} {equal : Option Location}
    (run : initializer nested type first semicolon input state = (some (value, equal), after)) :
    (∃ statement, value = some statement ∧
        equal = some (input.stream.get state.position).location ∧
        (input.stream.get state.position).lexeme = .punctuator .assignment ∧
        nested.statement semicolon (some (input.stream.get state.position).location) input
          state.next = (some statement, after)) ∨
      (∃ object, type = .object object ∧ value = none ∧ equal = none ∧
        (((input.stream.get state.position).lexeme = .punctuator .semicolon ∧
            after = state.next) ∨
          (semicolon = false ∧ after = state))) := by
  simp only [initializer, check_bind, ite_run, decide_eq_true_eq, here_bind] at run
  split at run
  · rename_i found
    have inside := input.stream.lt_size_of_lexeme state.position (by simp [found])
    rw [advance_bind inside, reportLocation_eq inside] at run
    obtain ⟨statement, last, statementRun, made⟩ := bind_run.mp run
    cases (pure_run.mp made).1
    obtain ⟨-, rfl⟩ := pure_run.mp made
    exact .inl ⟨statement, rfl, rfl, found, orRejectAt_run.mp statementRun⟩
  · cases type with
    | function signature => exact absurd run reject_run
    | object object =>
        obtain ⟨close, closed, closeRun, run⟩ := bind_run.mp run
        rw [ite_run] at run
        split at run
        · exact absurd run reject_run
        · rename_i notMissing
          cases (pure_run.mp run).1
          obtain ⟨-, rfl⟩ := pure_run.mp run
          refine .inr ⟨object, rfl, rfl, rfl, ?_⟩
          cases close with
          | none =>
              obtain ⟨-, rfl⟩ := eat_none_run.mp closeRun
              exact .inr ⟨by simpa using notMissing, rfl⟩
          | some close =>
              obtain ⟨found, -, rfl⟩ := (eat_run (by simp)).mp closeRun
              exact .inl ⟨found, rfl⟩

/-- The steps of a declaration from its colon on. -/
theorem unnamedDeclaration_run {first : Location} {semicolon : Bool}
    {declaration : Declaration}
    (run : unnamedDeclaration nested first semicolon input state =
      (some declaration, after)) :
    ∃ type pointer value equal typed,
      (input.stream.get state.position).lexeme = .punctuator .colon ∧
      declarationType nested input state.next = (some (type, pointer), typed) ∧
      initializer nested type first semicolon input typed = (some (value, equal), after) ∧
      declaration = ⟨none, type, pointer, value, first,
        (input.stream.before after.position).location, equal⟩ := by
  rw [unnamedDeclaration, bind_run] at run
  obtain ⟨colon, opened, colonRun, run⟩ := run
  obtain ⟨begins, rfl, rfl⟩ := (expect_run (by simp)).mp colonRun
  rw [bind_run] at run
  obtain ⟨⟨type, pointer⟩, typed, typeRun, run⟩ := run
  simp only [bind_run, previous_bind] at run
  obtain ⟨⟨value, equal⟩, last, initialRun, run⟩ := run
  obtain ⟨rfl, rfl⟩ := pure_run.mp run
  exact ⟨type, pointer, value, equal, typed, begins, typeRun, initialRun, rfl⟩

theorem unnamedDeclaration_sound (inner : SoundNested nested) (first : Location)
    (semicolon : Bool) :
    Sound (unnamedDeclaration nested first semicolon) (.unnamed semicolon) := by
  intro input state after declaration run
  obtain ⟨type, pointer, value, equal, typed, begins, typeRun, initialRun, rfl⟩ :=
    unnamedDeclaration_run run
  have opening : (Leaf.fixed state.position (.punctuator .colon)).Fits input.stream :=
    Leaf.fits_exactly _ rfl begins (by simp)
  have typeDerivable := declarationType_sound inner typeRun
  have typeForward := typeDerivable.start_lt_stop rfl
  obtain ⟨head, derives, headCovers⟩ := typeDerivable
  rcases initializer_run initialRun with
    ⟨statement, rfl, rfl, found, statementRun⟩ | ⟨object, rfl, rfl, rfl, ended⟩
  · have initialDerivable := inner.statement semicolon _ statementRun
    have initialForward := initialDerivable.start_lt_stop rfl
    obtain ⟨tail, initial, tailCovers⟩ := initialDerivable
    have equal : (Leaf.fixed typed.position (.punctuator .assignment)).Fits input.stream :=
      Leaf.fits_exactly _ rfl found (by simp)
    rw [← tailCovers.lastLocation_eq initialForward]
    exact ⟨_, .initialized state.position typed.position derives initial,
      (Covers.cons _ opening headCovers).append (.cons _ equal tailCovers)⟩
  · rcases ended with ⟨found, rfl⟩ | ⟨rfl, rfl⟩
    · have close := Covers.single (semicolonLeaf semicolon typed.position)
        (semicolonLeaf_fits semicolon found)
      rw [semicolonLeaf_place] at close
      exact ⟨_, .closed state.position typed.position derives,
        (Covers.cons _ opening headCovers).append close⟩
    · rw [← headCovers.lastLocation_eq typeForward]
      exact ⟨_, .unclosed state.position derives, .cons _ opening headCovers⟩

theorem declaration_sound (inner : SoundNested nested) (semicolon : Bool) :
    Sound (declaration nested semicolon) (.declaration semicolon) := by
  intro input state after value run
  simp only [declaration, restoring_run, current_bind, bind_run] at run
  obtain ⟨name, named, nameRun, unnamed, last, unnamedRun, made⟩ := run
  obtain ⟨rfl, rfl⟩ := pure_run.mp made
  have nameDerivable := unqualifiedIdentifier_sound nameRun
  have forward := nameDerivable.start_lt_stop rfl
  obtain ⟨head, nameDerives, headCovers⟩ := nameDerivable
  obtain ⟨tail, derives, tailCovers⟩ := unnamedDeclaration_sound inner _ semicolon unnamedRun
  obtain ⟨type, pointer, value, equal, typed, -, -, -, rfl⟩ := unnamedDeclaration_run unnamedRun
  have derived := Derives.declaration nameDerives derives
  rw [headCovers.firstLocation_eq forward] at derived
  exact ⟨_, derived, headCovers.append tailCovers⟩

end CppsFrontend.Grammar
