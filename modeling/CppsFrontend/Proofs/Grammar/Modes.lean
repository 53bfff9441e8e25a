import CppsFrontend.Proofs.Grammar.Reports
import CppsFrontend.Proofs.Grammar.Statements

/-!
# The productions in both modes

Every production of the grammar keeps to `Diagnoses`.  Names report nothing.  Where a
failure that may have been reported is not passed on, the token at which it stopped
keeps what follows from succeeding: a parameter that fails with a report does not
stand at `)`, and a signature that does stands at `(`.
-/

set_option autoImplicit false

namespace CppsFrontend.Grammar

open Production

variable {stream : TokenStream} {known : Location → Prop}

/-! ## Names -/

theorem unqualifiedIdentifier_diagnoses (state : State) :
    Diagnoses stream known unqualifiedIdentifier state := by
  refine .restoring (.check (.peek ?_))
  extract_lets named
  have each : ∀ constant middle, Diagnoses stream known (named constant) middle := by
    intro constant middle
    refine .lexeme (.peek ?_)
    split
    · exact .bind (.advance middle) fun _ _ _ _ => .pure _ _
    · exact .fail middle
  split
  · exact .bind (.map (.advance state) some) fun _ constant middle _ => each constant middle
  · exact each none state

theorem unqualifiedIdentifier_missing {reporting : Reporting} {state : State}
    (missing : isNaming (stream.get state.position).lexeme = false) :
    unqualifiedIdentifier ⟨stream, reporting⟩ state = (none, state) := by
  have plain : (stream.get state.position).lexeme ≠ .keyword .constWord := by
    intro found
    rw [found] at missing
    cases missing
  refine restoring_of_none ?_
  simp [check_bind, peek_bind, lexeme_bind, plain, missing, Production.fail]

theorem scopedRound_diagnoses (state : State) :
    Diagnoses stream known scopedRound state := by
  refine .eat (by simp) ?_ ?_
  · intro _
    exact .bind (unqualifiedIdentifier_diagnoses _) fun _ _ _ _ => .pure _ _
  · intro _
    exact .pure _ state

theorem qualifiedIdentifier_diagnoses (state : State) :
    Diagnoses stream known qualifiedIdentifier state := by
  refine .restoring (.bind (unqualifiedIdentifier_diagnoses state) ?_)
  intro reporting first middle _
  refine .check ?_
  split
  · exact .bind (.collect scopedRound_diagnoses middle) fun _ _ _ _ => .pure _ _
  · exact .fail middle

theorem identifierExpression_diagnoses (state : State) :
    Diagnoses stream known identifierExpression state := by
  refine .current (.bind (.either (qualifiedIdentifier_diagnoses state) ?_) ?_)
  · intro reporting middle _
    exact .map (unqualifiedIdentifier_diagnoses middle) _
  · intro reporting identifier middle _
    exact .pure _ middle

theorem identifierExpression_missing {reporting : Reporting} {state : State}
    (missing : isNaming (stream.get state.position).lexeme = false) :
    identifierExpression ⟨stream, reporting⟩ state = (none, state) := by
  have unnamed := @unqualifiedIdentifier_missing _ reporting _ missing
  have qualified : qualifiedIdentifier ⟨stream, reporting⟩ state = (none, state) :=
    restoring_of_none (bind_of_none _ unnamed)
  rw [identifierExpression, current_bind]
  refine bind_of_none _ ?_
  rw [either, bind_of_some _ (outcome_of qualified)]
  exact bind_of_none _ unnamed

/-! ## Declarations -/

/-- What is nested keeps to `Diagnoses`, and no declaration begins at `)`. -/
structure DiagnosesNested (stream : TokenStream) (known : Location → Prop)
    (nested : Nested) : Prop where
  sound : SoundNested nested
  statement : ∀ semicolon equal state,
    Diagnoses stream known (nested.statement semicolon equal) state
  expression : ∀ state, Diagnoses stream known nested.expression state
  declaration : ∀ semicolon state,
    Diagnoses stream known (nested.declaration semicolon) state
  closing : ∀ semicolon reporting state,
    (stream.get state.position).lexeme = .punctuator .closeParenthesis →
      nested.declaration semicolon ⟨stream, reporting⟩ state = (none, state)

variable {nested : Nested}

theorem parameterModifier_diagnoses (places : Places stream known) (role : ParameterRole)
    (state : State) : Diagnoses stream known (parameterModifier role) state := by
  refine .current ?_
  cases found : (stream.get state.position).lexeme with
  | parameterModifier modifier =>
      have inside := stream.lt_size_of_lexeme state.position (by simp [found])
      simp only
      split
      · exact .bind (.advance state) fun _ _ _ _ => .pure _ _
      · exact .reject (places.token _ inside) state
  | _ => exact .pure _ state

theorem parameter_diagnoses (places : Places stream known)
    (inner : DiagnosesNested stream known nested) (role : ParameterRole) (state : State) :
    Diagnoses stream known (parameter nested role) state := by
  refine .restoring (.current (.bind (parameterModifier_diagnoses places role state) ?_))
  intro reporting modifier middle _
  exact .bind (inner.declaration false middle) fun _ _ _ _ => .pure _ _

/-- At `)` there is no parameter, and nothing to report. -/
theorem parameter_closing (inner : DiagnosesNested stream known nested) {role : ParameterRole}
    {reporting : Reporting} {state : State}
    (found : (stream.get state.position).lexeme = .punctuator .closeParenthesis) :
    parameter nested role ⟨stream, reporting⟩ state = (none, state) := by
  have declared := inner.closing false reporting state found
  have modified : parameterModifier role ⟨stream, reporting⟩ state =
      (some role.defaultModifier, state) := by
    simp only [parameterModifier, current_bind, found]
    rfl
  refine restoring_of_none ?_
  rw [current_bind, bind_of_some _ modified]
  exact bind_of_none _ declared

/-- A parameter that fails with a report ends the list at a token that is not `)`. -/
theorem parameterRound_agrees (places : Places stream known)
    (inner : DiagnosesNested stream known nested) (role : ParameterRole) (state : State) :
    Agrees stream known
      (fun asked after => asked = .stop ∧
        (stream.get after.position).lexeme ≠ .punctuator .closeParenthesis)
      (parameterRound nested role) state := by
  refine .attempt (parameter_diagnoses places inner role state) ?_ ?_ ?_ ?_
  · intro reporting value middle run
    refine .check ?_
    split
    · exact .pure _ middle
    · refine .eat (by simp) ?_ ?_
      · intro _
        exact .pure _ middle.next
      · intro _
        exact .here (.reject (places.position _) middle)
  · intro reporting middle run _
    exact .pure _ middle
  · intro middle run grown
    refine ⟨rfl, ?_⟩
    intro asked same
    cases same
    refine ⟨rfl, ?_⟩
    intro (found : (stream.get middle.position).lexeme = _)
    have kept : middle.position = state.position := keepsPlace_restoring _ _ _ _ run
    rw [kept] at found
    cases run.symm.trans (parameter_closing inner found)
    exact Nat.lt_irrefl _ grown
  · intro middle result after run onwards
    cases onwards
    exact .refl known _

theorem parameterList_diagnoses (places : Places stream known)
    (inner : DiagnosesNested stream known nested) (role : ParameterRole) (state : State) :
    Diagnoses stream known (parameterList nested role) state := by
  refine .restoring (.here (.bind (.expect _ state) ?_))
  intro reporting opening opened _
  refine .reportCount (.sequence (.collectAfter (parameterRound_agrees places inner role) []
    opened) ?_ ?_ ?_)
  · intro reporting parameters listed _ unchanged
    refine .here (.eat (by simp) ?_ ?_)
    · intro _
      exact .pure _ _
    · intro _
      exact .followOn (places.position _) (congrArg Array.size unchanged.symm)
  · intro parameters listed _ stuck grown
    rw [here_bind, bind_of_some _ (eat_none_run.mpr ⟨stuck, rfl⟩)]
    simp only [Agrees.followOn_filtered grown]
    exact ⟨rfl, nofun⟩
  · intro parameters listed result after _ onwards
    rw [here_bind] at onwards
    by_cases found : (stream.get listed.position).lexeme = .punctuator .closeParenthesis
    · rw [bind_of_some _ ((eat_run (by simp)).mpr ⟨found, rfl, rfl⟩)] at onwards
      cases onwards
      exact .refl known _
    · rw [bind_of_some _ (eat_none_run.mpr ⟨found, rfl⟩)] at onwards
      cases Agrees.followOn_verbatim.symm.trans onwards
      exact .push _ _ (placed_entry (places.position _) _)

theorem results_diagnoses (places : Places stream known)
    (inner : DiagnosesNested stream known nested) (state : State) :
    Diagnoses stream known (results nested) state := by
  refine .orReject places (.either (.map (identifierExpression_diagnoses state) _) ?_)
  intro reporting middle _
  exact .map (parameterList_diagnoses places inner .result middle) _

theorem functionSignature_diagnoses (places : Places stream known)
    (inner : DiagnosesNested stream known nested) (state : State) :
    Diagnoses stream known (functionSignature nested) state := by
  refine .restoring (.bind (parameterList_diagnoses places inner .argument state) ?_)
  intro reporting parameters listed _
  refine .bind (.eaten _ listed) ?_
  intro reporting word thrown _
  refine .eat (by simp) ?_ ?_
  · intro _
    exact .bind (results_diagnoses places inner _) fun _ _ _ _ => .pure _ _
  · intro _
    exact .pure _ thrown

theorem functionSignature_missing {reporting : Reporting} {state : State}
    (missing : (stream.get state.position).lexeme ≠ .punctuator .openParenthesis) :
    functionSignature nested ⟨stream, reporting⟩ state = (none, state) := by
  have listed : parameterList nested .argument ⟨stream, reporting⟩ state = (none, state) := by
    refine restoring_of_none ?_
    rw [here_bind]
    exact bind_of_none _ (expect_none_run.mpr ⟨missing, rfl⟩)
  exact restoring_of_none (bind_of_none _ listed)

theorem declarationType_diagnoses (places : Places stream known)
    (inner : DiagnosesNested stream known nested) (state : State) :
    Diagnoses stream known (declarationType nested) state := by
  have object : ∀ middle, Diagnoses stream known (do
      let pointer ← eat (.punctuator .multiply)
      return (DeclarationType.object (← identifierExpression), pointer)) middle := by
    intro middle
    refine .bind (.eaten _ middle) ?_
    intro reporting pointer pointed _
    exact .bind (identifierExpression_diagnoses pointed) fun _ _ _ _ => .pure _ _
  refine .attempt (functionSignature_diagnoses places inner state) ?_ ?_ ?_ ?_
  · intro reporting signature middle _
    exact .pure _ middle
  · intro reporting middle _ _
    exact object middle
  · intro middle run grown
    have kept : middle.position = state.position := keepsPlace_restoring _ _ _ _ run
    by_cases found : (stream.get middle.position).lexeme = .punctuator .openParenthesis
    · have star : (stream.get middle.position).lexeme ≠ .punctuator .multiply := by
        simp [found]
      have unnamed : isNaming (stream.get middle.position).lexeme = false := by
        rw [found]
        rfl
      have starRun : eat (.punctuator .multiply) ⟨stream, .filtered⟩ middle =
          (some none, middle) := eat_none_run.mpr ⟨star, rfl⟩
      have nameRun := @identifierExpression_missing _ .filtered _ unnamed
      simp only [bind_of_some _ starRun, bind_of_none _ nameRun]
      exact ⟨rfl, nofun⟩
    · rw [kept] at found
      cases run.symm.trans (functionSignature_missing found)
      exact absurd grown (Nat.lt_irrefl _)
  · intro middle result after run onwards
    exact (object middle).appends onwards

theorem initializer_diagnoses (places : Places stream known)
    (inner : DiagnosesNested stream known nested) (type : DeclarationType) {first : Location}
    (begins : known first) (semicolon : Bool) (state : State) :
    Diagnoses stream known (initializer nested type first semicolon) state := by
  refine .check ?_
  split
  · refine .here (.bind (.advance state) ?_)
    intro reporting equal middle _
    have placed := places.position state.position
    refine .bind (.orRejectAt placed (inner.statement semicolon _ middle)) ?_
    intro reporting value after _
    exact .pure _ after
  · cases type with
    | function signature => exact .reject begins state
    | object object =>
        refine .bind (.eaten _ state) ?_
        intro reporting close middle _
        split
        · exact .reject begins middle
        · exact .pure _ middle

theorem unnamedDeclaration_diagnoses (places : Places stream known)
    (inner : DiagnosesNested stream known nested) {first : Location} (begins : known first)
    (semicolon : Bool) (state : State) :
    Diagnoses stream known (unnamedDeclaration nested first semicolon) state := by
  refine .bind (.expect _ state) ?_
  intro reporting colon opened _
  refine .bind (declarationType_diagnoses places inner opened) ?_
  intro reporting typed middle _
  refine .bind (initializer_diagnoses places inner _ begins semicolon middle) ?_
  intro reporting initial closed _
  exact .previous (.pure _ closed)

theorem declaration_diagnoses (places : Places stream known)
    (inner : DiagnosesNested stream known nested) (semicolon : Bool) (state : State) :
    Diagnoses stream known (declaration nested semicolon) state := by
  refine .restoring (.current (.bind (unqualifiedIdentifier_diagnoses state) ?_))
  intro reporting name named run
  have naming : isNaming (stream.get state.position).lexeme = true := by
    cases named : isNaming (stream.get state.position).lexeme with
    | true => rfl
    | false => cases run.symm.trans (unqualifiedIdentifier_missing named)
  have begins := places.token _ (lt_size_of_naming naming)
  exact .bind (unnamedDeclaration_diagnoses places inner begins semicolon named)
    fun _ _ _ _ => .pure _ _

theorem declaration_missing {reporting : Reporting} {state : State} {semicolon : Bool}
    (missing : isNaming (stream.get state.position).lexeme = false) :
    declaration nested semicolon ⟨stream, reporting⟩ state = (none, state) := by
  refine restoring_of_none ?_
  rw [current_bind]
  exact bind_of_none _ (unqualifiedIdentifier_missing missing)

/-! ## Expressions -/

theorem argumentModifier_diagnoses (state : State) :
    Diagnoses stream known argumentModifier state := by
  refine .lexeme ?_
  split
  · exact .bind (.advance state) fun _ _ _ _ => .pure _ _
  · exact .bind (.advance state) fun _ _ _ _ => .pure _ _
  · exact .pure _ state

theorem argument_diagnoses (inner : DiagnosesNested stream known nested) (state : State) :
    Diagnoses stream known (argument nested) state := by
  refine .bind (argumentModifier_diagnoses state) ?_
  intro reporting modifier middle _
  exact .bind (inner.expression middle) fun _ _ _ _ => .pure _ _

theorem argumentRound_diagnoses (places : Places stream known)
    (inner : DiagnosesNested stream known nested) (state : State) :
    Diagnoses stream known (argumentRound nested) state := by
  refine .eat (by simp) ?_ ?_
  · intro _
    exact .bind (.orReject places (argument_diagnoses inner _)) fun _ _ _ _ => .pure _ _
  · intro _
    exact .pure _ state

theorem arguments_diagnoses (places : Places stream known)
    (inner : DiagnosesNested stream known nested) (state : State) :
    Diagnoses stream known (arguments nested) state := by
  refine .position (.reportCount (.attempt (argument_diagnoses inner state) ?_ ?_ ?_ ?_))
  · intro reporting first middle _
    exact .bind (.collect (argumentRound_diagnoses places inner) middle)
      fun _ _ _ _ => .pure _ _
  · intro reporting middle _ unchanged
    refine .reportCount ?_
    rw [unchanged, if_neg (Nat.lt_irrefl _)]
    exact .silent rfl rfl rfl
  · intro middle _ grown
    simp only [reportCount_bind, grown, if_true]
    exact ⟨rfl, nofun⟩
  · intro middle result after _ onwards
    simp only [reportCount_bind, ite_run] at onwards
    split at onwards
    · cases onwards
      exact .refl known _
    · cases onwards
      exact .refl known _

theorem parenthesized_diagnoses (places : Places stream known)
    (inner : DiagnosesNested stream known nested) (state : State) :
    Diagnoses stream known (parenthesized nested) state := by
  refine .restoring (.here (.bind (.advance state) ?_))
  intro reporting opening opened _
  refine .bind (.orReject places (arguments_diagnoses places inner opened)) ?_
  intro reporting terms listed _
  refine .here (.eat (by simp) ?_ ?_)
  · intro _
    exact .pure _ _
  · intro _
    exact .reject (places.position _) listed

/-- Named results begin at a token. -/
theorem Derives.results_opening {semicolon : Bool} {declaration : Declaration}
    {signature : FunctionSignature} {results : ParameterList} {leaves : List Leaf}
    (derives : Derives stream (.unnamed semicolon declaration) leaves)
    (function : declaration.type = .function signature)
    (named : signature.returns = .named results) :
    ∃ leaf ∈ leaves, results.opening = (stream.get leaf.place).location := by
  have typed : ∀ {type pointer leaves}, Derives stream (.type type pointer) leaves →
      type = .function signature →
        ∃ leaf ∈ leaves, results.opening = (stream.get leaf.place).location := by
    intro type pointer leaves typed same
    cases typed with
    | objectType pointer derived => cases same
    | functionType derived =>
        cases same
        cases derived with
        | signature word listed resulting =>
            cases named
            cases resulting with
            | namedResults arrow derived =>
                cases derived with
                | parameterList opening closing derived =>
                    exact ⟨.fixed opening (.punctuator .openParenthesis), by simp, rfl⟩
  cases derives with
  | initialized colon equal type initial =>
      obtain ⟨leaf, member, same⟩ := typed type function
      exact ⟨leaf, by simp [member], same⟩
  | closed => cases function
  | unclosed => cases function

/-- A declaration that may not be an expression is reported at a token. -/
theorem expressionScopeError_placed (places : Places stream known)
    (inner : DiagnosesNested stream known nested) {reporting : Reporting}
    {state after : State} {first : Location} {declaration : Declaration}
    {error : GrammarError} {location : Location} (begins : known first)
    (run : unnamedDeclaration nested first true ⟨stream, reporting⟩ state =
      (some declaration, after))
    (scope : expressionScopeError? declaration = some (error, location)) : known location := by
  obtain ⟨leaves, derives, covers⟩ := unnamedDeclaration_sound inner.sound first true run
  obtain ⟨_, _, _, _, _, _, _, _, made⟩ := unnamedDeclaration_run run
  unfold expressionScopeError? at scope
  split at scope
  · cases scope
    rw [made]
    exact begins
  · rename_i signature function
    split at scope
    · rename_i results named
      cases scope
      obtain ⟨leaf, member, same⟩ := derives.results_opening function named
      rw [same]
      exact places.token _ (covers.fits leaf member).1
    · cases scope

theorem unnamedFunction_diagnoses (places : Places stream known)
    (inner : DiagnosesNested stream known nested) (state : State) :
    Diagnoses stream known (unnamedFunction nested) state := by
  have begins := places.position state.position
  refine .restoring (.here (.bind (unnamedDeclaration_diagnoses places inner begins true state)
    ?_))
  intro reporting declaration middle run
  cases scope : expressionScopeError? declaration with
  | some error =>
      exact .reject (expressionScopeError_placed places inner begins run scope) middle
  | none =>
      exact .pure _ middle

theorem primary_diagnoses (places : Places stream known)
    (inner : DiagnosesNested stream known nested) (state : State) :
    Diagnoses stream known (primary nested) state := by
  refine .attemptSilent (identifierExpression_diagnoses state) ?_
  intro reporting result middle _
  cases result with
  | some identifier => exact .pure _ middle
  | none =>
      refine .lexeme ?_
      split
      · exact .bind (.advance middle) fun _ _ _ _ => .pure _ _
      · refine .check ?_
        split
        · exact parenthesized_diagnoses places inner middle
        · exact unnamedFunction_diagnoses places inner middle

theorem callArguments_diagnoses (places : Places stream known)
    (inner : DiagnosesNested stream known nested) (opening : TokenId) {location : Location}
    (placed : known location) (state : State) :
    Diagnoses stream known (callArguments nested opening location) state := by
  refine .bind (.orRejectAt placed (arguments_diagnoses places inner state)) ?_
  intro reporting terms listed _
  refine .here (.eat (by simp) ?_ ?_)
  · intro _
    exact .pure _ _
  · intro _
    exact .reject (places.position _) listed

theorem subscriptArguments_diagnoses (places : Places stream known)
    (inner : DiagnosesNested stream known nested) (opening : TokenId) {location : Location}
    (placed : known location) (state : State) :
    Diagnoses stream known (subscriptArguments nested opening location) state := by
  refine .bind (.orRejectAt placed (arguments_diagnoses places inner state)) ?_
  intro reporting terms listed _
  extract_lets close
  have closed : ∀ done middle, Diagnoses stream known (close done) middle := by
    intro done middle
    refine .here (.eat (by simp) ?_ ?_)
    · intro _
      exact .pure _ _
    · intro _
      exact .reject (places.position _) middle
  split
  · exact .bind (.reject placed listed) fun _ done middle _ => closed done middle
  · exact closed () listed

theorem member_diagnoses (dot : TokenId) {location : Location} (placed : known location)
    (state : State) : Diagnoses stream known (member dot location) state := by
  refine .attemptSilent (identifierExpression_diagnoses state) ?_
  intro reporting result middle _
  cases result with
  | some identifier => exact .pure _ middle
  | none => exact .reject placed middle

theorem postfixRound_diagnoses (places : Places stream known)
    (inner : DiagnosesNested stream known nested) (state : State) :
    Diagnoses stream known (postfixRound nested) state := by
  refine .current (.previous (.peek ?_))
  split
  · rename_i continues
    have placed := places.token _ (lt_size_of_continuesPostfix continues)
    refine .bind (.advance state) ?_
    intro reporting operator middle _
    split
    · exact .bind (subscriptArguments_diagnoses places inner operator placed middle)
        fun _ _ _ _ => .pure _ _
    · exact .bind (callArguments_diagnoses places inner operator placed middle)
        fun _ _ _ _ => .pure _ _
    · exact .bind (member_diagnoses operator placed middle) fun _ _ _ _ => .pure _ _
    · exact .pure _ middle
  · exact .pure _ state

theorem signRound_diagnoses (state : State) : Diagnoses stream known signRound state := by
  refine .lexeme ?_
  split
  · exact .bind (.advance state) fun _ _ _ _ => .pure _ _
  · exact .bind (.advance state) fun _ _ _ _ => .pure _ _
  · exact .bind (.advance state) fun _ _ _ _ => .pure _ _
  · exact .pure _ state

theorem basicExpression_diagnoses (places : Places stream known)
    (inner : DiagnosesNested stream known nested) (state : State) :
    Diagnoses stream known (basicExpression nested) state := by
  refine .restoring (.bind (.collect signRound_diagnoses state) ?_)
  intro reporting signs signed _
  refine .bind (primary_diagnoses places inner signed) ?_
  intro reporting first middle _
  exact .bind (.collect (postfixRound_diagnoses places inner) middle) fun _ _ _ _ => .pure _ _

theorem chainRound_diagnoses (places : Places stream known) (allowRelational : Bool)
    (level : Precedence) {operand : Production Expression}
    (each : ∀ state, Diagnoses stream known operand state) (state : State) :
    Diagnoses stream known (chainRound allowRelational level operand) state := by
  refine .current ?_
  split
  · refine .bind (.advance state) ?_
    intro reporting operator middle _
    exact .bind (.orReject places (each middle)) fun _ _ _ _ => .pure _ _
  · exact .pure _ state

theorem levelRound_diagnoses (places : Places stream known) (allowRelational : Bool)
    {levels : Levels}
    (each : ∀ level operand, levels.lookup level = some operand →
      ∀ state, Diagnoses stream known operand state) (state : State) :
    Diagnoses stream known (levelRound allowRelational levels) state := by
  refine .lexeme ?_
  split
  · exact .pure _ state
  · rename_i level _
    split
    · exact .pure _ state
    · rename_i operand found
      exact .bind
        (.collect (chainRound_diagnoses places allowRelational level (each level operand found))
          state) fun _ _ _ _ => .pure _ _

theorem chainsOver_diagnoses (places : Places stream known)
    (inner : DiagnosesNested stream known nested) (allowRelational : Bool) {levels : Levels}
    (each : ∀ level operand, levels.lookup level = some operand →
      ∀ state, Diagnoses stream known operand state) (state : State) :
    Diagnoses stream known (chainsOver nested allowRelational levels) state := by
  refine .bind (basicExpression_diagnoses places inner state) ?_
  intro reporting first middle _
  exact .bind (.collect (levelRound_diagnoses places allowRelational each) middle)
    fun _ _ _ _ => .pure _ _

theorem operandLevels_diagnoses (places : Places stream known)
    (inner : DiagnosesNested stream known nested) (allowRelational : Bool)
    (levels : List Precedence) (level : Precedence) (operand : Production Expression)
    (found : (operandLevels nested allowRelational levels).lookup level = some operand)
    (state : State) : Diagnoses stream known operand state := by
  induction levels generalizing level operand state with
  | nil => cases found
  | cons loosest tighter induction =>
      rw [operandLevels, List.lookup_cons] at found
      split at found
      · cases found
        exact chainsOver_diagnoses places inner allowRelational induction state
      · exact induction level operand found state

theorem expression_diagnoses (places : Places stream known)
    (inner : DiagnosesNested stream known nested) (allowRelational : Bool) (state : State) :
    Diagnoses stream known (expression nested allowRelational) state :=
  .restoring (chainsOver_diagnoses places inner allowRelational
    (operandLevels_diagnoses places inner allowRelational _) state)

/-! ## Statements -/

theorem statementRound_diagnoses (places : Places stream known)
    (inner : DiagnosesNested stream known nested) (state : State) :
    Diagnoses stream known (statementRound nested) state := by
  refine .check ?_
  split
  · exact .pure _ state
  · exact .bind (.orReject places (inner.statement true none state)) fun _ _ _ _ => .pure _ _

theorem compound_diagnoses (places : Places stream known)
    (inner : DiagnosesNested stream known nested) (equal : Option Location) (state : State) :
    Diagnoses stream known (compound nested equal) state := by
  refine .restoring (.current (.bind (.expect _ state) ?_))
  intro reporting brace opened _
  refine .bind (.collect (statementRound_diagnoses places inner) opened) ?_
  intro reporting statements listed _
  exact .here (.bind (.advance listed) fun _ _ _ _ => .pure _ _)

theorem condition_diagnoses (places : Places stream known)
    (inner : DiagnosesNested stream known nested) (word : Keyword) (state : State) :
    Diagnoses stream known (condition nested word) state :=
  .orReject places (expression_diagnoses places inner true state)

theorem branch_diagnoses (places : Places stream known)
    (inner : DiagnosesNested stream known nested) (word : Keyword) (state : State) :
    Diagnoses stream known (branch nested word) state :=
  .orReject places (compound_diagnoses places inner none state)

theorem closingSemicolon_diagnoses (places : Places stream known) (state : State) :
    Diagnoses stream known closingSemicolon state := by
  refine .eat (by simp) ?_ ?_
  · intro _
    exact .pure _ _
  · intro _
    exact .here (.reject (places.position _) state)

theorem selectionStatement_diagnoses (places : Places stream known)
    (inner : DiagnosesNested stream known nested) (state : State) :
    Diagnoses stream known (selectionStatement nested) state := by
  refine .restoring (.bind (.expect _ state) ?_)
  intro reporting keyword opened _
  refine .bind (.eaten _ opened) ?_
  intro reporting constant marked _
  refine .bind (condition_diagnoses places inner .ifWord marked) ?_
  intro reporting test tested _
  refine .bind (branch_diagnoses places inner .ifWord tested) ?_
  intro reporting positive middle _
  refine .eat (by simp) ?_ ?_
  · intro _
    exact .bind (branch_diagnoses places inner .elseWord _) fun _ _ _ _ => .pure _ _
  · intro _
    exact .pure _ middle

theorem returnStatement_diagnoses (places : Places stream known)
    (inner : DiagnosesNested stream known nested) (state : State) :
    Diagnoses stream known (returnStatement nested) state := by
  refine .restoring (.bind (.expect _ state) ?_)
  intro reporting keyword opened _
  refine .eat (by simp) ?_ ?_
  · intro _
    exact .pure _ _
  · intro _
    refine .bind (.orReject places (expression_diagnoses places inner true opened)) ?_
    intro reporting value valued _
    exact .bind (closingSemicolon_diagnoses places valued) fun _ _ _ _ => .pure _ _

theorem whileLoop_diagnoses (places : Places stream known)
    (inner : DiagnosesNested stream known nested) (keyword : TokenId) (state : State) :
    Diagnoses stream known (whileLoop nested keyword) state := by
  refine .bind (condition_diagnoses places inner .whileWord state) ?_
  intro reporting test tested _
  exact .bind (branch_diagnoses places inner .whileWord tested) fun _ _ _ _ => .pure _ _

theorem doLoop_diagnoses (places : Places stream known)
    (inner : DiagnosesNested stream known nested) (keyword : TokenId) (state : State) :
    Diagnoses stream known (doLoop nested keyword) state := by
  refine .bind (branch_diagnoses places inner .doWord state) ?_
  intro reporting body repeated _
  refine .eat (by simp) ?_ ?_
  · intro _
    refine .bind (condition_diagnoses places inner .whileWord _) ?_
    intro reporting test tested _
    exact .bind (closingSemicolon_diagnoses places tested) fun _ _ _ _ => .pure _ _
  · intro _
    exact .here (.reject (places.position _) repeated)

theorem iterationStatement_diagnoses (places : Places stream known)
    (inner : DiagnosesNested stream known nested) (state : State) :
    Diagnoses stream known (iterationStatement nested) state := by
  refine .restoring (.eat (by simp) ?_ ?_)
  · intro _
    exact whileLoop_diagnoses places inner state.position state.next
  · intro _
    exact .bind (.expect _ state) fun _ keyword middle _ =>
      doLoop_diagnoses places inner keyword middle

theorem expressionStatement_diagnoses (places : Places stream known)
    (inner : DiagnosesNested stream known nested) (semicolon : Bool) (state : State) :
    Diagnoses stream known (expressionStatement nested semicolon) state := by
  refine .restoring (.bind (expression_diagnoses places inner true state) ?_)
  intro reporting value valued _
  refine .bind (.eaten _ valued) ?_
  intro reporting close closed _
  extract_lets ended
  split
  · exact .here (.reject (places.position _) closed)
  · exact .pure _ closed

theorem statement_diagnoses (places : Places stream known)
    (inner : DiagnosesNested stream known nested) (semicolon : Bool) (equal : Option Location)
    (state : State) : Diagnoses stream known (statement nested semicolon equal) state := by
  refine .restoring (.reportCount (.firstOf ?_ rfl))
  intro production member state
  simp only [List.mem_cons, List.not_mem_nil, or_false] at member
  rcases member with rfl | rfl | rfl | rfl | rfl | rfl
  · exact selectionStatement_diagnoses places inner state
  · exact returnStatement_diagnoses places inner state
  · exact iterationStatement_diagnoses places inner state
  · exact .map (compound_diagnoses places inner equal state) _
  · exact .map (declaration_diagnoses places inner semicolon state) _
  · exact expressionStatement_diagnoses places inner semicolon state

/-! ## All productions -/

theorem diagnosesNested_none : DiagnosesNested stream known .none where
  sound := soundNested_none
  statement _ _ state := .fail state
  expression state := .fail state
  declaration _ state := .fail state
  closing _ _ _ _ := rfl

theorem diagnosesNested_deepen (places : Places stream known)
    (inner : DiagnosesNested stream known nested) :
    DiagnosesNested stream known (deepen nested) where
  sound := soundNested_deepen inner.sound
  statement := statement_diagnoses places inner
  expression := expression_diagnoses places inner true
  declaration := declaration_diagnoses places inner
  closing semicolon reporting state found := declaration_missing (by rw [found]; rfl)

theorem diagnosesNested_productions (places : Places stream known) (depth : Nat) :
    DiagnosesNested stream known (productions depth) := by
  induction depth with
  | zero => exact diagnosesNested_none
  | succ depth induction =>
      rw [productions_succ]
      exact diagnosesNested_deepen places induction

end CppsFrontend.Grammar
