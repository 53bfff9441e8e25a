import CppsFrontend.Proofs.Grammar.Declarations

/-!
# Expressions are derived from their tokens

Each production for a part of an expression is sound if the nested ones are.  For
the chains of operators the point is that levels are left in order: behind a chain
no operator of its level or a tighter one is next, so the first operand of a chain
is basic or a chain of tighter levels.
-/

set_option autoImplicit false

namespace CppsFrontend.Grammar

open Production

variable {nested : Nested} {input : Input} {state after : State}

/-! ## Arguments -/

theorem argumentModifier_run {modifier : ParameterModifier}
    (run : argumentModifier input state = (some modifier, after)) :
    ((input.stream.get state.position).lexeme = .parameterModifier modifier ∧
        (modifier = .output ∨ modifier = .move) ∧ after = state.next) ∨
      (modifier = .input ∧ after = state) := by
  rw [argumentModifier, lexeme_bind] at run
  cases found : (input.stream.get state.position).lexeme with
  | parameterModifier written =>
      have inside := input.stream.lt_size_of_lexeme state.position (by simp [found])
      rw [found] at run
      cases written with
      | output =>
          simp only [advance_bind inside] at run
          obtain ⟨rfl, rfl⟩ := pure_run.mp run
          exact .inl ⟨rfl, .inl rfl, rfl⟩
      | move =>
          simp only [advance_bind inside] at run
          obtain ⟨rfl, rfl⟩ := pure_run.mp run
          exact .inl ⟨rfl, .inr rfl, rfl⟩
      | _ => exact .inr (pure_run.mp run)
  | _ =>
      rw [found] at run
      exact .inr (pure_run.mp run)

theorem argument_sound (inner : SoundNested nested) : Sound (argument nested) .argument := by
  intro input state after argument run
  simp only [Grammar.argument, bind_run] at run
  obtain ⟨modifier, middle, modified, value, last, valueRun, made⟩ := run
  obtain ⟨rfl, rfl⟩ := pure_run.mp made
  obtain ⟨leaves, derives, covers⟩ := inner.expression valueRun
  rcases argumentModifier_run modified with ⟨found, allowed, rfl⟩ | ⟨rfl, rfl⟩
  · have opening : (Leaf.fixed state.position (.parameterModifier modifier)).Fits
        input.stream := Leaf.fits_exactly _ rfl found (by simp)
    exact ⟨_, .modifiedArgument state.position allowed derives, .cons _ opening covers⟩
  · exact ⟨leaves, .plainArgument derives, covers⟩

theorem argumentRound_run {round : Round Argument}
    (run : argumentRound nested input state = (some round, after)) :
    (round = .stop ∧ after = state) ∨
      ∃ value, round = .more value ∧
        (input.stream.get state.position).lexeme = .punctuator .comma ∧
        argument nested input state.next = (some value, after) := by
  rw [argumentRound, bind_run] at run
  obtain ⟨comma, middle, eaten, run⟩ := run
  cases comma with
  | none =>
      obtain ⟨-, rfl⟩ := eat_none_run.mp eaten
      obtain ⟨rfl, rfl⟩ := pure_run.mp run
      exact .inl ⟨rfl, rfl⟩
  | some comma =>
      obtain ⟨found, rfl, rfl⟩ := (eat_run (by simp)).mp eaten
      simp only [bind_run, orReject_run] at run
      obtain ⟨value, last, valueRun, made⟩ := run
      obtain ⟨rfl, rfl⟩ := pure_run.mp made
      exact .inr ⟨value, rfl, found, valueRun⟩

theorem argumentRounds_sound (inner : SoundNested nested) {start : Nat} {first : Argument}
    {more : List Argument}
    (rounds : Rounds (argumentRound nested) input state more after)
    (derivable : Derivable input.stream (.argument first) start state.position) :
    Derivable input.stream (.arguments (first :: more)) start after.position := by
  induction rounds generalizing first start with
  | stop run =>
      rcases argumentRound_run run with ⟨-, rfl⟩ | ⟨value, impossible, -⟩
      · obtain ⟨leaves, derives, covers⟩ := derivable
        exact ⟨leaves, .lastArgument derives, covers⟩
      · cases impossible
  | last run =>
      rcases argumentRound_run run with ⟨impossible, -⟩ | ⟨value, impossible, -⟩
      · cases impossible
      · cases impossible
  | @more state middle after value values run forward rest induction =>
      rcases argumentRound_run run with ⟨impossible, -⟩ | ⟨value, same, found, valueRun⟩
      · cases impossible
      · cases same
        have comma : (Leaf.fixed state.position (.punctuator .comma)).Fits input.stream :=
          Leaf.fits_exactly _ rfl found (by simp)
        obtain ⟨tail, tailDerives, tailCovers⟩ := induction (argument_sound inner valueRun)
        obtain ⟨head, derives, covers⟩ := derivable
        exact ⟨_, .moreArguments state.position derives tailDerives,
          covers.append (.cons _ comma tailCovers)⟩

theorem arguments_sound (inner : SoundNested nested) :
    Sound (arguments nested) .arguments := by
  intro input state after terms run
  simp only [arguments, position_bind, reportCount_bind, bind_run, outcome_run] at run
  obtain ⟨outcome, middle, first, run⟩ := run
  cases outcome with
  | some value =>
      obtain ⟨more, last, collected, made⟩ := bind_run.mp run
      obtain ⟨rfl, rfl⟩ := pure_run.mp made
      exact argumentRounds_sound inner (collect_run collected) (argument_sound inner first)
  | none =>
      simp only [reportCount_bind, ite_run] at run
      split at run
      · exact absurd run fail_run
      · simp only [returnTo_bind] at run
        obtain ⟨rfl, rfl⟩ := pure_run.mp run
        exact ⟨[], .noArguments, .nil _ _⟩

/-! ## Primary expressions -/

theorem parenthesized_sound (inner : SoundNested nested)
    (found : (input.stream.get state.position).lexeme = .punctuator .openParenthesis)
    {value : Primary} (run : parenthesized nested input state = (some value, after)) :
    Derivable input.stream (.primary value) state.position after.position := by
  have opening : (Leaf.fixed state.position (.punctuator .openParenthesis)).Fits
      input.stream := Leaf.fits_exactly _ rfl found (by simp)
  have inside : state.position < input.stream.size := opening.1
  rw [parenthesized, restoring_run, here_bind, advance_bind inside,
    reportLocation_eq inside] at run
  simp only [bind_run, orReject_run, here_bind] at run
  obtain ⟨terms, listed, listRun, close, closed, closeRun, run⟩ := run
  cases close with
  | none => exact absurd run reject_run
  | some close =>
      obtain ⟨ends, rfl, rfl⟩ := (eat_run (by simp)).mp closeRun
      obtain ⟨rfl, rfl⟩ := pure_run.mp run
      have closing : (Leaf.fixed listed.position (.punctuator .closeParenthesis)).Fits
          input.stream := Leaf.fits_exactly _ rfl ends (by simp)
      have closingInside : listed.position < input.stream.size := closing.1
      obtain ⟨leaves, derives, covers⟩ := arguments_sound inner listRun
      rw [reportLocation_eq closingInside]
      exact ⟨_, .listPrimary state.position listed.position derives,
        (Covers.cons _ opening covers).append (.single _ closing)⟩

theorem unnamedFunction_sound (inner : SoundNested nested) :
    Sound (unnamedFunction nested) .primary := by
  intro input state after value run
  simp only [unnamedFunction, restoring_run, here_bind, bind_run] at run
  obtain ⟨declaration, middle, declared, run⟩ := run
  cases scope : expressionScopeError? declaration with
  | some error =>
      simp only [scope] at run
      exact absurd run reject_run
  | none =>
      simp only [scope] at run
      obtain ⟨rfl, rfl⟩ := pure_run.mp run
      have derivable := unnamedDeclaration_sound inner _ true declared
      have forward := derivable.start_lt_stop rfl
      obtain ⟨leaves, derives, covers⟩ := derivable
      obtain ⟨_, _, _, _, _, begins, -, -, rfl⟩ := unnamedDeclaration_run declared
      have inside := input.stream.lt_size_of_lexeme state.position (by simp [begins])
      refine ⟨leaves, .functionPrimary scope ?_ derives, covers⟩
      rw [covers.firstLocation_eq forward]
      exact reportLocation_eq inside

theorem lt_size_of_primaryToken {stream : TokenStream} {place : TokenId}
    (primary : isPrimaryToken (stream.get place).lexeme = true) : place < stream.size := by
  apply stream.lt_size_of_lexeme
  intro invalid
  rw [invalid] at primary
  exact absurd primary (by decide)

theorem primary_sound (inner : SoundNested nested) : Sound (primary nested) .primary := by
  intro input state after value run
  rw [primary, bind_run] at run
  obtain ⟨outcome, middle, first, run⟩ := run
  rw [outcome_run] at first
  cases outcome with
  | some expression =>
      obtain ⟨rfl, rfl⟩ := pure_run.mp run
      obtain ⟨leaves, derives, covers⟩ := identifierExpression_sound first
      exact ⟨leaves, .identifierPrimary derives, covers⟩
  | none =>
      have kept := identifierExpression_keepsPlace input state middle first
      rw [← kept]
      simp only [lexeme_bind, check_bind, ite_run, decide_eq_true_eq] at run
      split at run
      · rename_i alone
        have inside := lt_size_of_primaryToken alone
        rw [advance_bind inside] at run
        obtain ⟨rfl, rfl⟩ := pure_run.mp run
        exact ⟨_, .tokenPrimary middle.position, .single (.stored _ .primary) ⟨inside, alone⟩⟩
      · split at run
        · rename_i found
          exact parenthesized_sound inner found run
        · exact unnamedFunction_sound inner run

/-! ## Postfix terms -/

theorem lt_size_of_continuesPostfix {stream : TokenStream} {place : TokenId} {before : Token}
    {behind : Lexeme} (continues : continuesPostfix before (stream.get place) behind = true) :
    place < stream.size := by
  apply stream.lt_size_of_lexeme
  intro invalid
  simp [continuesPostfix, invalid] at continues

theorem callArguments_sound (inner : SoundNested nested) {opening : TokenId}
    {term : PostfixTerm}
    (begins : (input.stream.get opening).lexeme = .punctuator .openParenthesis)
    (place : state.position = opening + 1)
    (run : callArguments nested opening (input.stream.get opening).location input state =
      (some term, after)) :
    Derivable input.stream (.postfixTerm term) opening after.position := by
  simp only [callArguments, bind_run, orRejectAt_run, here_bind] at run
  obtain ⟨terms, listed, listRun, close, closed, closeRun, run⟩ := run
  cases close with
  | none => exact absurd run reject_run
  | some close =>
      obtain ⟨ends, rfl, rfl⟩ := (eat_run (by simp)).mp closeRun
      obtain ⟨rfl, rfl⟩ := pure_run.mp run
      have first : (Leaf.stored opening (.exactly (.punctuator .openParenthesis))).Fits
          input.stream := Leaf.fits_exactly _ rfl begins (by simp)
      have last : (Leaf.stored listed.position (.exactly (.punctuator .closeParenthesis))).Fits
          input.stream := Leaf.fits_exactly _ rfl ends (by simp)
      have inside : listed.position < input.stream.size := last.1
      obtain ⟨leaves, derives, covers⟩ := arguments_sound inner listRun
      rw [place] at covers
      rw [reportLocation_eq inside]
      exact ⟨_, .callTerm opening listed.position derives,
        (Covers.cons _ first covers).append (.single _ last)⟩

theorem subscriptArguments_sound (inner : SoundNested nested) {opening : TokenId}
    {term : PostfixTerm}
    (begins : (input.stream.get opening).lexeme = .punctuator .openBracket)
    (place : state.position = opening + 1)
    (run : subscriptArguments nested opening (input.stream.get opening).location input state =
      (some term, after)) :
    Derivable input.stream (.postfixTerm term) opening after.position := by
  simp only [subscriptArguments, bind_run, orRejectAt_run, ite_run] at run
  obtain ⟨terms, listed, listRun, run⟩ := run
  split at run
  · obtain ⟨_, _, ⟨⟩, -⟩ := run
  · rename_i nonempty
    simp only [here_bind, bind_run] at run
    obtain ⟨close, closed, closeRun, run⟩ := run
    cases close with
    | none => exact absurd run reject_run
    | some close =>
        obtain ⟨ends, rfl, rfl⟩ := (eat_run (by simp)).mp closeRun
        obtain ⟨rfl, rfl⟩ := pure_run.mp run
        have first : (Leaf.stored opening (.exactly (.punctuator .openBracket))).Fits
            input.stream := Leaf.fits_exactly _ rfl begins (by simp)
        have last : (Leaf.stored listed.position (.exactly (.punctuator .closeBracket))).Fits
            input.stream := Leaf.fits_exactly _ rfl ends (by simp)
        have inside : listed.position < input.stream.size := last.1
        obtain ⟨leaves, derives, covers⟩ := arguments_sound inner listRun
        rw [place] at covers
        rw [reportLocation_eq inside]
        exact ⟨_, .subscriptTerm opening listed.position (by simpa using nonempty) derives,
          (Covers.cons _ first covers).append (.single _ last)⟩

theorem member_sound {dot : TokenId} {location : Location} {term : PostfixTerm}
    (begins : (input.stream.get dot).lexeme = .punctuator .dot)
    (place : state.position = dot + 1)
    (run : member dot location input state = (some term, after)) :
    Derivable input.stream (.postfixTerm term) dot after.position := by
  rw [member, bind_run] at run
  obtain ⟨outcome, middle, first, run⟩ := run
  rw [outcome_run] at first
  cases outcome with
  | none => exact absurd run reject_run
  | some expression =>
      obtain ⟨rfl, rfl⟩ := pure_run.mp run
      have opening : (Leaf.stored dot (.exactly (.punctuator .dot))).Fits input.stream :=
        Leaf.fits_exactly _ rfl begins (by simp)
      obtain ⟨leaves, derives, covers⟩ := identifierExpression_sound first
      rw [place] at covers
      exact ⟨_, .memberTerm dot derives, .cons _ opening covers⟩

theorem postfixRound_run (inner : SoundNested nested) {round : Round PostfixTerm}
    (run : postfixRound nested input state = (some round, after)) :
    (round = .stop ∧ after = state) ∨
      ∃ term, round = .more term ∧
        Derivable input.stream (.postfixTerm term) state.position after.position := by
  simp only [postfixRound, current_bind, previous_bind, peek_bind, ite_run] at run
  split at run
  · rename_i continues
    have inside := lt_size_of_continuesPostfix continues
    simp only [advance_bind inside] at run
    refine .inr ?_
    by_cases opens : opensPostfix (input.stream.get state.position).lexeme
    · rcases opens with found | found | found
      · simp only [found, bind_run] at run
        obtain ⟨term, last, termRun, made⟩ := run
        obtain ⟨rfl, rfl⟩ := pure_run.mp made
        exact ⟨term, rfl, subscriptArguments_sound inner found rfl termRun⟩
      · simp only [found, bind_run] at run
        obtain ⟨term, last, termRun, made⟩ := run
        obtain ⟨rfl, rfl⟩ := pure_run.mp made
        exact ⟨term, rfl, callArguments_sound inner found rfl termRun⟩
      · simp only [found, bind_run] at run
        obtain ⟨term, last, termRun, made⟩ := run
        obtain ⟨rfl, rfl⟩ := pure_run.mp made
        exact ⟨term, rfl, member_sound found rfl termRun⟩
    · have alone : round = .more (.operator state.position) ∧ after = state.next := by
        cases found : (input.stream.get state.position).lexeme with
        | punctuator mark =>
            simp only [opensPostfix, found, Lexeme.punctuator.injEq] at opens
            cases mark <;> simp_all
        | _ =>
            rw [found] at run
            exact pure_run.mp run
      obtain ⟨rfl, rfl⟩ := alone
      exact ⟨_, rfl, _, .operatorTerm state.position,
        .single (.stored _ .mark) ⟨inside, continues, opens⟩⟩
  · obtain ⟨rfl, rfl⟩ := pure_run.mp run
    exact .inl ⟨rfl, rfl⟩

theorem postfixRounds_sound (inner : SoundNested nested) {terms : List PostfixTerm}
    (rounds : Rounds (postfixRound nested) input state terms after) :
    Derivable input.stream (.postfixTerms terms) state.position after.position := by
  induction rounds with
  | stop run =>
      rcases postfixRound_run inner run with ⟨-, rfl⟩ | ⟨term, impossible, -⟩
      · exact ⟨[], .noPostfixTerms, .nil _ _⟩
      · cases impossible
  | last run =>
      rcases postfixRound_run inner run with ⟨impossible, -⟩ | ⟨term, impossible, -⟩
      · cases impossible
      · cases impossible
  | more run forward rest induction =>
      rcases postfixRound_run inner run with ⟨impossible, -⟩ | ⟨term, same, derivable⟩
      · cases impossible
      · cases same
        obtain ⟨head, derives, headCovers⟩ := derivable
        obtain ⟨tail, more, tailCovers⟩ := induction
        exact ⟨_, .morePostfixTerms derives more, headCovers.append tailCovers⟩

/-! ## Basic expressions -/

theorem signRound_run {round : Round TokenId}
    (run : signRound input state = (some round, after)) :
    (round = .stop ∧ after = state) ∨
      (round = .more state.position ∧ after = state.next ∧
        (Leaf.stored state.position .sign).Fits input.stream) := by
  rw [signRound, lexeme_bind] at run
  by_cases sign : Terminal.Admits input.stream state.position .sign
  · have inside : state.position < input.stream.size := by
      apply input.stream.lt_size_of_lexeme
      intro invalid
      simp [Terminal.Admits, invalid] at sign
    have passed : round = .more state.position ∧ after = state.next := by
      rcases sign with found | found | found
      all_goals
        rw [found] at run
        simp only [advance_bind inside] at run
        exact pure_run.mp run
    exact .inr ⟨passed.1, passed.2, inside, sign⟩
  · have ended : round = .stop ∧ after = state := by
      cases found : (input.stream.get state.position).lexeme with
      | punctuator mark =>
          simp only [Terminal.Admits, found, Lexeme.punctuator.injEq] at sign
          cases mark <;> simp_all
      | _ =>
          rw [found] at run
          exact pure_run.mp run
    exact .inl ended

theorem signRounds_cover {signs : List TokenId}
    (rounds : Rounds signRound input state signs after) :
    Covers input.stream state.position after.position (signs.map (Leaf.stored · .sign)) := by
  induction rounds with
  | stop run =>
      rcases signRound_run run with ⟨-, rfl⟩ | ⟨impossible, -⟩
      · exact .nil _ _
      · cases impossible
  | last run =>
      rcases signRound_run run with ⟨impossible, -⟩ | ⟨impossible, -⟩
      · cases impossible
      · cases impossible
  | more run forward rest induction =>
      rcases signRound_run run with ⟨impossible, -⟩ | ⟨same, rfl, fits⟩
      · cases impossible
      · cases same
        exact .cons _ fits induction

theorem basicExpression_sound (inner : SoundNested nested) (allowRelational : Bool) :
    Sound (basicExpression nested) (.operand allowRelational []) := by
  intro input state after value run
  simp only [basicExpression, restoring_run, bind_run] at run
  obtain ⟨signs, signed, signRun, primary, named, primaryRun, terms, last, termRun, made⟩ := run
  obtain ⟨rfl, rfl⟩ := pure_run.mp made
  obtain ⟨head, derives, headCovers⟩ := primary_sound inner primaryRun
  obtain ⟨tail, continued, tailCovers⟩ := postfixRounds_sound inner (collect_run termRun)
  have signCovers := signRounds_cover (collect_run signRun)
  exact ⟨_, .basic signs derives continued, (signCovers.append headCovers).append tailCovers⟩

/-! ## Chains -/

def LeavesLevels (input : Input) (allowRelational : Bool) (levels : List Precedence)
    (state : State) : Prop :=
  ∀ level ∈ levels, Precedence.ofOperator? (input.stream.get state.position).lexeme
    allowRelational ≠ some level

/-- What chains over levels derive, and that they go on as far as they can. -/
def SoundChains (production : Production Expression) (allowRelational : Bool)
    (levels : List Precedence) : Prop :=
  ∀ {input : Input} {state after : State} {value : Expression},
    production input state = (some value, after) →
      Derivable input.stream (.operand allowRelational levels value) state.position
          after.position ∧
        LeavesLevels input allowRelational levels after

theorem Derivable.operand_of_suffix {stream : TokenStream} {allowRelational : Bool}
    {inner levels : List Precedence} {value : Expression} {start stop : Nat}
    (suffix : inner <:+ levels)
    (derivable : Derivable stream (.operand allowRelational inner value) start stop) :
    Derivable stream (.operand allowRelational levels value) start stop := by
  induction levels with
  | nil =>
      rw [List.suffix_nil.mp suffix] at derivable
      exact derivable
  | cons level tighter induction =>
      rcases List.suffix_cons_iff.mp suffix with rfl | suffix
      · exact derivable
      · obtain ⟨leaves, derives, covers⟩ := induction suffix
        exact ⟨leaves, .collapsed derives, covers⟩

variable {allowRelational : Bool} {level : Precedence} {levels tighter : List Precedence}
  {operand : Production Expression}

theorem lt_size_of_operator {stream : TokenStream} {place : TokenId}
    (found : Precedence.ofOperator? (stream.get place).lexeme allowRelational = some level) :
    place < stream.size := by
  apply stream.lt_size_of_lexeme
  intro invalid
  simp [invalid, Precedence.ofOperator?, Precedence.ofLexeme?] at found

theorem chainRound_run {round : Round ChainTerm}
    (run : chainRound allowRelational level operand input state = (some round, after)) :
    (round = .stop ∧ after = state ∧
        Precedence.ofOperator? (input.stream.get state.position).lexeme allowRelational ≠
          some level) ∨
      ∃ value, round = .more ⟨state.position, value⟩ ∧
        (Leaf.stored state.position (.operator allowRelational level)).Fits input.stream ∧
        operand input state.next = (some value, after) := by
  simp only [chainRound, current_bind, ite_run] at run
  split at run
  · rename_i found
    have inside := lt_size_of_operator found
    simp only [advance_bind inside, bind_run, orReject_run] at run
    obtain ⟨value, last, valueRun, made⟩ := run
    obtain ⟨rfl, rfl⟩ := pure_run.mp made
    exact .inr ⟨value, rfl, ⟨inside, found⟩, valueRun⟩
  · rename_i missing
    obtain ⟨rfl, rfl⟩ := pure_run.mp run
    exact .inl ⟨rfl, rfl, missing⟩

theorem chainRounds_sound (sound : SoundChains operand allowRelational tighter)
    {terms : List ChainTerm}
    (rounds : Rounds (chainRound allowRelational level operand) input state terms after)
    (begins : LeavesLevels input allowRelational tighter state) :
    Derivable input.stream (.chainTerms allowRelational level tighter terms) state.position
        after.position ∧
      LeavesLevels input allowRelational (level :: tighter) after := by
  induction rounds with
  | stop run =>
      rcases chainRound_run run with ⟨-, rfl, missing⟩ | ⟨value, impossible, -⟩
      · exact ⟨⟨[], .noChainTerms, .nil _ _⟩, List.forall_mem_cons.mpr ⟨missing, begins⟩⟩
      · cases impossible
  | last run =>
      rcases chainRound_run run with ⟨impossible, -⟩ | ⟨value, impossible, -⟩
      · cases impossible
      · cases impossible
  | @more state middle after term terms run forward rest induction =>
      rcases chainRound_run run with ⟨impossible, -⟩ | ⟨value, same, fits, valueRun⟩
      · cases impossible
      · cases same
        obtain ⟨⟨head, derives, headCovers⟩, leaves⟩ := sound valueRun
        obtain ⟨⟨tail, more, tailCovers⟩, ends⟩ := induction leaves
        exact ⟨⟨_, .moreChainTerms state.position derives more,
          (Covers.cons _ fits headCovers).append tailCovers⟩, ends⟩

theorem chainRounds_ne_nil {terms : List ChainTerm}
    (rounds : Rounds (chainRound allowRelational level operand) input state terms after)
    (found : Precedence.ofOperator? (input.stream.get state.position).lexeme
      allowRelational = some level) : terms ≠ [] := by
  cases rounds with
  | stop run =>
      rcases chainRound_run run with ⟨-, -, missing⟩ | ⟨value, impossible, -⟩
      · exact absurd found missing
      · cases impossible
  | last run => simp
  | more run forward rest => simp

/-- The production that a level is listed with is for the levels behind it. -/
theorem operandLevels_lookup (nested : Nested) (allowRelational : Bool) :
    ∀ levels : List Precedence, ∀ level operand,
      (operandLevels nested allowRelational levels).lookup level = some operand →
        ∃ tighter, level :: tighter <:+ levels ∧
          operand = chainsOver nested allowRelational
            (operandLevels nested allowRelational tighter) := by
  intro levels
  induction levels with
  | nil =>
      intro level operand found
      simp [operandLevels] at found
  | cons first tighter induction =>
      intro level operand found
      rw [operandLevels, List.lookup_cons] at found
      split at found
      · rename_i same
        have same := eq_of_beq same
        subst same
        exact ⟨tighter, List.suffix_refl _, (Option.some.inj found).symm⟩
      · obtain ⟨inner, suffix, made⟩ := induction level operand found
        exact ⟨inner, suffix.trans (List.suffix_cons first tighter), made⟩

theorem operandLevels_lookup_none (nested : Nested) (allowRelational : Bool)
    (levels : List Precedence) (level : Precedence)
    (missing : (operandLevels nested allowRelational levels).lookup level = none) :
    level ∉ levels := by
  induction levels with
  | nil => simp
  | cons first tighter induction =>
      rw [operandLevels, List.lookup_cons] at missing
      split at missing
      · cases missing
      · rename_i different
        have later := induction missing
        simp only [List.mem_cons, not_or]
        exact ⟨by simpa using different, later⟩

/-- A round of chains ends where no operator of the levels is next, or gathers the
terms of one level. -/
theorem levelRound_run {round : Round (Precedence × List ChainTerm)}
    (run : levelRound allowRelational (operandLevels nested allowRelational levels) input
      state = (some round, after)) :
    (round = .stop ∧ after = state ∧ LeavesLevels input allowRelational levels state) ∨
      ∃ level tighter terms, round = .more (level, terms) ∧ level :: tighter <:+ levels ∧
        Precedence.ofOperator? (input.stream.get state.position).lexeme allowRelational =
          some level ∧
        Rounds (chainRound allowRelational level (chainsOver nested allowRelational
          (operandLevels nested allowRelational tighter))) input state terms after := by
  rw [levelRound, lexeme_bind] at run
  cases next : Precedence.ofOperator? (input.stream.get state.position).lexeme
      allowRelational with
  | none =>
      simp only [next] at run
      obtain ⟨rfl, rfl⟩ := pure_run.mp run
      refine .inl ⟨rfl, rfl, ?_⟩
      intro level member
      simp [next]
  | some level =>
      simp only [next] at run
      cases found : (operandLevels nested allowRelational levels).lookup level with
      | none =>
          simp only [found] at run
          obtain ⟨rfl, rfl⟩ := pure_run.mp run
          have absent := operandLevels_lookup_none nested allowRelational levels level found
          refine .inl ⟨rfl, rfl, ?_⟩
          intro other member
          rw [next]
          intro same
          cases same
          exact absent member
      | some operand =>
          simp only [found, bind_run] at run
          obtain ⟨terms, last, collected, made⟩ := run
          obtain ⟨rfl, rfl⟩ := pure_run.mp made
          obtain ⟨tighter, suffix, rfl⟩ :=
            operandLevels_lookup nested allowRelational levels level operand found
          exact .inr ⟨level, tighter, terms, rfl, suffix, rfl, collect_run collected⟩

/-- Levels that a level has left behind are tighter than it. -/
theorem suffix_of_not_mem {done : List Precedence} (doneSuffix : done <:+ levels)
    (suffix : level :: tighter <:+ levels) (absent : level ∉ done) : done <:+ tighter := by
  rcases List.suffix_or_suffix_of_suffix doneSuffix suffix with shorter | longer
  · rcases List.suffix_cons_iff.mp shorter with rfl | shorter
    · simp at absent
    · exact shorter
  · exact absurd (longer.subset (by simp)) absent

theorem levelRounds_sound (distinct : levels.Nodup)
    (sound : ∀ level tighter, level :: tighter <:+ levels →
      SoundChains (chainsOver nested allowRelational
        (operandLevels nested allowRelational tighter)) allowRelational tighter)
    {chains : List (Precedence × List ChainTerm)}
    (rounds : Rounds (levelRound allowRelational
      (operandLevels nested allowRelational levels)) input state chains after)
    {start : Nat} {done : List Precedence} {first : Expression} (suffix : done <:+ levels)
    (begins : LeavesLevels input allowRelational done state)
    (derivable : Derivable input.stream (.operand allowRelational done first) start
      state.position) :
    Derivable input.stream (.operand allowRelational levels
        (chains.foldl (fun operand chain => .chain chain.1 operand chain.2) first)) start
        after.position ∧
      LeavesLevels input allowRelational levels after := by
  induction rounds generalizing done first with
  | stop run =>
      rcases levelRound_run run with ⟨-, rfl, ends⟩ | ⟨_, _, _, impossible, -⟩
      · exact ⟨derivable.operand_of_suffix suffix, ends⟩
      · cases impossible
  | last run =>
      rcases levelRound_run run with ⟨impossible, -⟩ | ⟨_, _, _, impossible, -⟩
      · cases impossible
      · cases impossible
  | @more state middle after chain chains run forward rest induction =>
      rcases levelRound_run run with ⟨impossible, -⟩ | ⟨level, tighter, terms, same, inner,
        next, chainRounds⟩
      · cases impossible
      · cases same
        -- The operator that is next is not of a level that is done, so it is looser.
        have absent : level ∉ done := fun member => begins level member next
        have tighterSuffix := suffix_of_not_mem suffix inner absent
        have apart : level ∉ tighter := (List.nodup_cons.mp (distinct.sublist inner.sublist)).1
        have opened : LeavesLevels input allowRelational tighter state := by
          intro other member same
          rw [next] at same
          cases same
          exact apart member
        obtain ⟨⟨tail, more, tailCovers⟩, ends⟩ :=
          chainRounds_sound (sound level tighter inner) chainRounds opened
        obtain ⟨head, derives, headCovers⟩ := derivable.operand_of_suffix tighterSuffix
        exact induction inner ends
          ⟨_, .chain (chainRounds_ne_nil chainRounds next) derives more,
            headCovers.append tailCovers⟩

theorem chainsOver_sound (inner : SoundNested nested) (allowRelational : Bool)
    (levels : List Precedence) (distinct : levels.Nodup) :
    SoundChains (chainsOver nested allowRelational
      (operandLevels nested allowRelational levels)) allowRelational levels := by
  induction count : levels.length using Nat.strongRecOn generalizing levels with
  | _ count induction =>
      intro input state after value run
      simp only [chainsOver, bind_run] at run
      obtain ⟨first, middle, firstRun, chains, last, collected, made⟩ := run
      obtain ⟨rfl, rfl⟩ := pure_run.mp made
      refine levelRounds_sound distinct ?_ (collect_run collected) (List.nil_suffix)
        (by simp [LeavesLevels]) (basicExpression_sound inner allowRelational firstRun)
      intro level tighter suffix
      have shorter := suffix.length_le
      rw [List.length_cons] at shorter
      exact @induction tighter.length (by omega) tighter
        (List.nodup_cons.mp (distinct.sublist suffix.sublist)).2 rfl

theorem expression_sound (inner : SoundNested nested) (allowRelational : Bool) :
    Sound (expression nested allowRelational) (.expression allowRelational) := by
  intro input state after value run
  rw [expression, restoring_run] at run
  exact (chainsOver_sound inner allowRelational Precedence.all (by decide) run).1

end CppsFrontend.Grammar
