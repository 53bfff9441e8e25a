import CppsFrontend.Proofs.Grammar.Advancing
import CppsFrontend.Proofs.Grammar.Modular
import CppsFrontend.Proofs.Grammar.Parsing

/-!
# Rounds and nesting

A file is parsed in finitely many steps, for two reasons.  Every round of a repetition that
asks for another one has passed a token.  And productions call each other in the order in
which they are defined, except for the calls of `Nested`: a statement, an expression or a
declaration inside another one, which always begins behind a token that the outer one has
passed.  So calls are nested no deeper than there are tokens, and the productions up to
that depth are the only ones that contain themselves.
-/

set_option autoImplicit false

namespace CppsFrontend

namespace Grammar

open Production

variable {α : Type} {nested : Nested}

/-! ## Rounds -/

section Consuming

variable {input : Input} {state after : State}

def Production.Consumes (round : Production (Round α)) : Prop :=
  ∀ (input : Input) (state after : State) (value : α),
    round input state = (some (.more value), after) →
      state.position < after.position ∧ after.position ≤ input.stream.size

theorem Derivable.forward_next {phrase : Phrase}
    (derivable : Derivable input.stream phrase state.next.position after.position)
    (written : phrase.isNullable = false) :
    state.position < after.position ∧ after.position ≤ input.stream.size := by
  obtain ⟨forward, within⟩ := derivable.forward written
  rw [State.next_position] at forward
  exact ⟨by omega, within⟩

theorem scopedRound_consumes : scopedRound.Consumes := by
  intro input state after value run
  rcases scopedRound_run run with ⟨impossible, -⟩ | ⟨name, -, -, nameRun⟩
  · cases impossible
  · exact (unqualifiedIdentifier_sound nameRun).forward_next rfl

theorem signRound_consumes : signRound.Consumes := by
  intro input state after value run
  rcases signRound_run run with ⟨impossible, -⟩ | ⟨-, rfl, fits⟩
  · cases impossible
  · exact ⟨Nat.lt_succ_self _, fits.1⟩

section Sound

variable (inner : SoundNested nested)

include inner

theorem parameterRound_consumes (role : ParameterRole) :
    (parameterRound nested role).Consumes := by
  intro input state after value run
  rcases parameterRound_run run with ⟨impossible, -⟩ | ⟨parameter, middle, first, ends⟩
  · cases impossible
  · rcases ends with ⟨impossible, -⟩ | ⟨-, rfl, comma⟩
    · cases impossible
    · have inside := input.stream.lt_size_of_lexeme middle.position (by simp [comma])
      have forward := ((parameter_advances inner role).moved first).1
      exact ⟨Nat.lt_succ_of_lt forward, inside⟩

theorem argumentRound_consumes : (argumentRound nested).Consumes := by
  intro input state after value run
  rcases argumentRound_run run with ⟨impossible, -⟩ | ⟨argument, -, -, argumentRun⟩
  · cases impossible
  · exact (argument_sound inner argumentRun).forward_next rfl

theorem postfixRound_consumes : (postfixRound nested).Consumes := by
  intro input state after value run
  rcases postfixRound_run inner run with ⟨impossible, -⟩ | ⟨term, -, derivable⟩
  · cases impossible
  · exact derivable.forward rfl

theorem chainRound_consumes (allowRelational : Bool) (level : Precedence)
    {tighter : List Precedence} (distinct : tighter.Nodup) :
    (chainRound allowRelational level (chainsOver nested allowRelational
      (operandLevels nested allowRelational tighter))).Consumes := by
  intro input state after value run
  rcases chainRound_run run with ⟨impossible, -⟩ | ⟨operand, -, -, operandRun⟩
  · cases impossible
  · have derivable := (chainsOver_sound inner allowRelational tighter distinct operandRun).1
    exact derivable.forward_next rfl

/-- An operator that is next has a round of its own, and its round has passed it. -/
theorem levelRound_consumes (allowRelational : Bool) {levels : List Precedence}
    (distinct : levels.Nodup) :
    (levelRound allowRelational (operandLevels nested allowRelational levels)).Consumes := by
  intro input state after value run
  rcases levelRound_run run with ⟨impossible, -⟩ |
    ⟨level, tighter, terms, -, suffix, next, rounds⟩
  · cases impossible
  · have tighterDistinct := (List.nodup_cons.mp (distinct.sublist suffix.sublist)).2
    have consumes := chainRound_consumes inner allowRelational level tighterDistinct
    have nonempty := chainRounds_ne_nil rounds next
    clear next run
    induction rounds with
    | stop => exact absurd rfl nonempty
    | last impossible =>
        rcases chainRound_run impossible with ⟨other, -⟩ | ⟨_, other, -⟩ <;> cases other
    | @more state middle after term terms first _ rest induction =>
        obtain ⟨forward, within⟩ := consumes _ _ _ _ first
        cases terms with
        | nil =>
            cases rest with
            | stop stopped =>
                rcases chainRound_run stopped with ⟨-, rfl, -⟩ | ⟨_, other, -⟩
                · exact ⟨forward, within⟩
                · cases other
        | cons term terms =>
            obtain ⟨further, inside⟩ := induction (by simp)
            exact ⟨Nat.lt_trans forward further, inside⟩

theorem fileRound_consumes : (fileRound nested).Consumes := by
  intro input state after value run
  rw [fileRound, isAtEnd_bind, ite_run] at run
  split at run
  · cases run
  · obtain ⟨result, middle, first, made⟩ := bind_run.mp run
    cases result with
    | none => cases made
    | some declaration =>
        obtain ⟨-, rfl⟩ := pure_run.mp made
        rw [outcome_run, orReject_run] at first
        exact (declaration_advances inner true).moved first

end Sound

theorem statementRound_consumes (inner : SoundNested nested) :
    (statementRound nested).Consumes := by
  intro input state after value run
  rcases statementRound_run run with ⟨impossible, -⟩ | ⟨statement, -, statementRun⟩
  · cases impossible
  · exact (inner.statement true none statementRun).forward rfl

/-- Every repetition of the grammar consumes: the declarations of a file, the statements
between braces, parameters, arguments, the operators of a level, the levels of an
expression, postfix terms, leading signs and the names of a qualified name. -/
structure ConsumingRounds (nested : Nested) : Prop where
  file : (fileRound nested).Consumes
  statements : (statementRound nested).Consumes
  parameters : ∀ role, (parameterRound nested role).Consumes
  arguments : (argumentRound nested).Consumes
  operators : ∀ allowRelational level tighter, level :: tighter <:+ Precedence.all →
    (chainRound allowRelational level (chainsOver nested allowRelational
      (operandLevels nested allowRelational tighter))).Consumes
  levels : ∀ allowRelational levels, levels <:+ Precedence.all →
    (levelRound allowRelational (operandLevels nested allowRelational levels)).Consumes
  postfixTerms : (postfixRound nested).Consumes
  signs : signRound.Consumes
  scopes : scopedRound.Consumes

theorem consumingRounds (inner : SoundNested nested) : ConsumingRounds nested where
  file := fileRound_consumes inner
  statements := statementRound_consumes inner
  parameters := parameterRound_consumes inner
  arguments := argumentRound_consumes inner
  operators allowRelational level tighter suffix := by
    have distinct : (level :: tighter).Nodup :=
      (show Precedence.all.Nodup by decide).sublist suffix.sublist
    exact chainRound_consumes inner allowRelational level (List.nodup_cons.mp distinct).2
  levels allowRelational levels suffix :=
    levelRound_consumes inner allowRelational
      ((show Precedence.all.Nodup by decide).sublist suffix.sublist)
  postfixTerms := postfixRound_consumes inner
  signs := signRound_consumes
  scopes := scopedRound_consumes

end Consuming

/-! ## Calls -/

/-- A call of a production that stands inside another one, at a state. -/
inductive Call where
  | statement (semicolon : Bool) (equal : Option Location) (state : State)
  | expression (state : State)
  | declaration (semicolon : Bool) (state : State)

namespace Call

def state : Call → State
  | .statement _ _ state => state
  | .expression state => state
  | .declaration _ state => state

def position (call : Call) : Nat := call.state.position

abbrev Tree : Call → Type
  | .statement _ _ _ => Statement
  | .expression _ => Expression
  | .declaration _ _ => Declaration

def body (nested : Nested) : (call : Call) → Production call.Tree
  | .statement semicolon equal _ => Grammar.statement nested semicolon equal
  | .expression _ => Grammar.expression nested true
  | .declaration semicolon _ => Grammar.declaration nested semicolon

def answer (nested : Nested) (input : Input) : (call : Call) → Option call.Tree × State
  | .statement semicolon equal state => nested.statement semicolon equal input state
  | .expression state => nested.expression input state
  | .declaration semicolon state => nested.declaration semicolon input state

theorem answer_deepen (nested : Nested) (input : Input) (call : Call) :
    call.answer (deepen nested) input = call.body nested input call.state := by
  cases call <;> rfl

end Call

/-- A production makes a call at a state if it does something else there as soon as nothing
but the answer to this call is another one.  Every call shows in this way, because reports
are never taken back: an answer with one more report makes a difference. -/
def Enters (input : Input) (nested : Nested) (production : Nested → Production α)
    (state : State) (call : Call) : Prop :=
  ∃ other : Nested, (∀ another : Call, another ≠ call →
      another.answer other input = another.answer nested input) ∧
    production other input state ≠ production nested input state

open Classical in
noncomputable def remarking (input : Input) (nested : Nested) (state : State) : Nested :=
  { nested with
    expression := fun asked place =>
      match nested.expression asked place with
      | (result, after) =>
          if asked = input ∧ place = state then
            (result, ⟨after.position, after.reports.push (.located "" .unknown)⟩)
          else (result, after) }

/-- An argument without a modifier makes a call for its expression where it begins. -/
theorem argument_enters (input : Input) (nested : Nested) (state : State)
    (plain : argumentModifier input state = (some .input, state)) :
    Enters input nested (argument ·) state (.expression state) := by
  refine ⟨remarking input nested state, ?_, ?_⟩
  · intro another different
    cases another with
    | statement => rfl
    | declaration => rfl
    | expression place =>
        have elsewhere : place ≠ state := fun same => different (same ▸ rfl)
        simp [Call.answer, remarking, elsewhere]
  · intro same
    have sizes := congrArg (fun answer => answer.2.reports.size) same
    simp only [argument, bind_apply, plain] at sizes
    cases answered : nested.expression input state with
    | mk result after =>
        have more : (remarking input nested state).expression input state =
            (result, ⟨after.position, after.reports.push (.located "" .unknown)⟩) := by
          simp [remarking, answered]
        rw [more, answered] at sizes
        cases result with
        | none => simp at sizes
        | some value =>
            change (after.reports.push _).size = after.reports.size at sizes
            simp at sizes

/-! ## A stream compared with itself -/

def sameComparison (stream : TokenStream) : Comparison := ⟨stream, stream, 0, id⟩

variable {stream : TokenStream} {reporting : Reporting} {state : State}

theorem sameComparison_aligned (stream : TokenStream) : (sameComparison stream).Aligned where
  size := rfl
  token _ := ⟨rfl, rfl, rfl⟩
  report _ := rfl
  continues _ _ := rfl
  opening {equal₁ equal₂ brace₁ brace₂} equals braces := by
    have same : equal₁ = equal₂ := by
      have known := relocate_none_optionalLocation
      exact (known equal₁).symm.trans (Eq.trans equals (known equal₂))
    cases same
    cases braces
    rfl

theorem sameComparison_parallel_iff {first second : State} :
    (sameComparison stream).Parallel first second ↔
      first = second ∧ first.position ≤ stream.size := by
  constructor
  · intro parallel
    have reports := parallel.reports
    rw [relocate_reports _ rfl, relocate_reports _ rfl] at reports
    obtain ⟨position, reportsOf⟩ := first
    obtain ⟨other, reportsOther⟩ := second
    cases reports
    cases parallel.position
    exact ⟨rfl, parallel.inside⟩
  · rintro ⟨rfl, inside⟩
    exact ⟨rfl, rfl, inside⟩

section Trees

variable {first second : Production α}

/-- Productions that match on the same stream do the same. -/
theorem Production.Matches.eq [Relocatable α]
    (identity : ∀ value : α, relocate .none value = value)
    (same : Matches (sameComparison stream) reporting first second state state) :
    first ⟨stream, reporting⟩ state = second ⟨stream, reporting⟩ state := by
  cases same with
  | @intro result₁ result₂ after₁ after₂ run₁ run₂ alike parallel _ =>
      have known := relocate_none_option identity
      have results : result₁ = result₂ :=
        (known result₁).symm.trans (Eq.trans alike (known result₂))
      obtain ⟨states, -⟩ := sameComparison_parallel_iff.mp parallel
      have run₁ : first ⟨stream, reporting⟩ state = (result₁, after₁) := run₁
      have run₂ : second ⟨stream, reporting⟩ state = (result₂, after₂) := run₂
      rw [run₁, run₂, results, states]

/-- Productions that do the same match, if they stay in the stream. -/
theorem Production.Matches.of_eq [Relocatable α] (advances : first.Advances)
    (inside : state.position ≤ stream.size)
    (same : second ⟨stream, reporting⟩ state = first ⟨stream, reporting⟩ state) :
    Matches (sameComparison stream) reporting first second state state := by
  cases run : first ⟨stream, reporting⟩ state with
  | mk result after =>
      have forward : state.position ≤ after.position ∧ after.position ≤ stream.size := by
        cases result with
        | none =>
            have kept := advances.kept _ _ _ run
            exact ⟨Nat.le_of_eq kept.symm, kept ▸ inside⟩
        | some value =>
            obtain ⟨moved, within⟩ := advances.moved run
            exact ⟨Nat.le_of_lt moved, within⟩
      exact .intro run (same.trans run) rfl
        (sameComparison_parallel_iff.mpr ⟨rfl, forward.2⟩) forward.1

end Trees

/-! ## Later calls -/

structure AdvancingNested (nested : Nested) : Prop where
  sound : SoundNested nested
  statement : ∀ semicolon equal, (nested.statement semicolon equal).Advances
  expression : nested.expression.Advances
  declaration : ∀ semicolon, (nested.declaration semicolon).Advances

theorem fail_advances : (fail : Production α).Advances where
  kept input state after run := by
    cases run
    rfl
  moved run := absurd run fail_run

theorem advancingNested_productions (depth : Nat) : AdvancingNested (productions depth) := by
  have sound := soundNested_productions depth
  cases depth with
  | zero => exact ⟨sound, fun _ _ => fail_advances, fail_advances, fun _ => fail_advances⟩
  | succ depth =>
      have inner := soundNested_productions depth
      exact ⟨sound, statement_advances inner, expression_advances inner true,
        declaration_advances inner⟩

/-- Productions with the same answers to all calls from a position on match from there on. -/
theorem matchesNested_of_answers {other : Nested} {bound : Nat}
    (inner : AdvancingNested nested)
    (same : ∀ call : Call, bound ≤ call.position → call.position ≤ stream.size →
      call.answer other ⟨stream, reporting⟩ = call.answer nested ⟨stream, reporting⟩) :
    MatchesNested (sameComparison stream) reporting bound nested other where
  sound := inner.sound
  statement semicolon equal₁ equal₂ start₁ start₂ equals parallel within := by
    have known := relocate_none_optionalLocation
    obtain ⟨rfl, inside⟩ := sameComparison_parallel_iff.mp parallel
    obtain rfl : equal₁ = equal₂ :=
      (known equal₁).symm.trans (Eq.trans equals (known equal₂))
    exact .of_eq (inner.statement semicolon equal₁) inside
      (same (.statement semicolon equal₁ start₁) within inside)
  expression {start₁ start₂} parallel within := by
    obtain ⟨rfl, inside⟩ := sameComparison_parallel_iff.mp parallel
    exact .of_eq inner.expression inside (same (.expression start₁) within inside)
  declaration semicolon start₁ start₂ parallel within := by
    obtain ⟨rfl, inside⟩ := sameComparison_parallel_iff.mp parallel
    exact .of_eq (inner.declaration semicolon) inside
      (same (.declaration semicolon start₁) within inside)

theorem MatchesNested.answer_eq {first second : Nested} {bound : Nat} {call : Call}
    (matching : MatchesNested (sameComparison stream) reporting bound first second)
    (later : bound ≤ call.position) (within : call.position ≤ stream.size) :
    call.answer first ⟨stream, reporting⟩ = call.answer second ⟨stream, reporting⟩ := by
  have parallel : (sameComparison stream).Parallel call.state call.state :=
    sameComparison_parallel_iff.mpr ⟨rfl, within⟩
  cases call with
  | statement semicolon equal state =>
      exact (matching.statement semicolon rfl parallel later).eq relocate_none_statement
  | expression state => exact (matching.expression parallel later).eq relocate_none_expression
  | declaration semicolon state =>
      exact (matching.declaration semicolon parallel later).eq relocate_none_declaration

/-- All that a production calls in the stream begins behind a token that it has passed. -/
def CallsLater (input : Input) (nested : Nested) (production : Nested → Production α) : Prop :=
  ∀ state call, state.position ≤ input.stream.size →
    Enters input nested production state call →
      state.position < call.position ∧ call.position ≤ input.stream.size

theorem callsLater_of_matches [Relocatable α]
    (identity : ∀ value : α, relocate .none value = value) (inner : AdvancingNested nested)
    {production : Nested → Production α}
    (matching : ∀ {other : Nested} {state : State},
      MatchesNested (sameComparison stream) reporting (state.position + 1) nested other →
        (sameComparison stream).Parallel state state →
          Matches (sameComparison stream) reporting (production nested) (production other)
            state state) :
    CallsLater ⟨stream, reporting⟩ nested production := by
  intro state call inside entered
  obtain ⟨other, same, differs⟩ := entered
  by_contra notLater
  refine differs (Matches.eq identity (matching (matchesNested_of_answers inner ?_)
    (sameComparison_parallel_iff.mpr ⟨rfl, inside⟩))).symm
  intro another later within
  refine same another ?_
  rintro rfl
  exact notLater ⟨later, within⟩

theorem statement_callsLater (inner : AdvancingNested nested) (semicolon : Bool)
    (equal : Option Location) :
    CallsLater ⟨stream, reporting⟩ nested (statement · semicolon equal) :=
  callsLater_of_matches relocate_none_statement inner fun matching parallel =>
    statement_matches (sameComparison_aligned stream) matching parallel semicolon rfl
      (Nat.le_refl _)

theorem expression_callsLater (inner : AdvancingNested nested) (allowRelational : Bool) :
    CallsLater ⟨stream, reporting⟩ nested (expression · allowRelational) :=
  callsLater_of_matches relocate_none_expression inner fun matching parallel =>
    expression_matches (sameComparison_aligned stream) matching parallel allowRelational
      (Nat.le_refl _)

theorem declaration_callsLater (inner : AdvancingNested nested) (semicolon : Bool) :
    CallsLater ⟨stream, reporting⟩ nested (declaration · semicolon) :=
  callsLater_of_matches relocate_none_declaration inner fun matching parallel =>
    declaration_matches (sameComparison_aligned stream) matching parallel semicolon
      (Nat.le_refl _)

theorem parameterList_callsLater (inner : AdvancingNested nested) (role : ParameterRole) :
    CallsLater ⟨stream, reporting⟩ nested (parameterList · role) :=
  callsLater_of_matches relocate_none_parameterList inner fun matching parallel =>
    parameterList_matches (sameComparison_aligned stream) matching parallel role
      (Nat.le_refl _)

def Call.Makes (input : Input) (nested : Nested) (outer inner : Call) : Prop :=
  Enters input nested (fun nested => outer.body nested) outer.state inner

theorem Call.Makes.later (inner : AdvancingNested nested) {outer call : Call}
    (made : outer.Makes ⟨stream, reporting⟩ nested call) (inside : outer.position ≤ stream.size) :
    outer.position < call.position ∧ call.position ≤ stream.size := by
  cases outer with
  | statement semicolon equal state => exact statement_callsLater inner _ _ _ _ inside made
  | expression state => exact expression_callsLater inner true _ _ inside made
  | declaration semicolon state => exact declaration_callsLater inner _ _ _ inside made

/-- Calls, each of which makes the next one, pass a token each. -/
theorem Call.length_of_isChain (inner : AdvancingNested nested) (call : Call)
    (calls : List Call) (inside : call.position ≤ stream.size)
    (chain : List.IsChain (Call.Makes ⟨stream, reporting⟩ nested) (call :: calls)) :
    call.position + calls.length ≤ stream.size := by
  induction calls generalizing call with
  | nil => exact inside
  | cons next calls induction =>
      obtain ⟨made, rest⟩ := List.isChain_cons_cons.mp chain
      obtain ⟨later, within⟩ := made.later inner inside
      have remaining := induction next within rest
      rw [List.length_cons]
      omega

/-! ## Productions that contain themselves -/

/-- Each production of the stream is answered by its body with the same productions inside,
so that nesting has no bound. -/
def ContainsItself (input : Input) (nested : Nested) : Prop :=
  ∀ call : Call, call.position ≤ input.stream.size →
    call.answer nested input = call.body nested input call.state

theorem productions_containsItself (stream : TokenStream) (reporting : Reporting) :
    ContainsItself ⟨stream, reporting⟩ (productions (stream.size + 1)) := by
  intro call inside
  have deeper : MatchesNested (sameComparison stream) reporting 0
      (productions (stream.size + 1)) (productions (stream.size + 1 + 1)) :=
    matchesNested_productions (sameComparison_aligned stream) _ 1 0 (by simp [sameComparison])
  rw [← Call.answer_deepen, ← productions_succ]
  exact deeper.answer_eq (Nat.zero_le _) inside

/-- Productions without a bound do what those do that are deep enough for what is left. -/
theorem ContainsItself.matches {other : Nested}
    (contains : ContainsItself ⟨stream, reporting⟩ other) (depth bound : Nat)
    (enough : stream.size < bound + depth) :
    MatchesNested (sameComparison stream) reporting bound (productions depth) other := by
  induction depth generalizing bound with
  | zero =>
      refine matchesNested_of_answers (advancingNested_productions 0) ?_
      intro call later within
      omega
  | succ depth induction =>
      have deeper := matchesNested_deepen (sameComparison_aligned stream)
        (induction (bound + 1) (by omega))
      rw [← productions_succ] at deeper
      refine matchesNested_of_answers (advancingNested_productions (depth + 1)) ?_
      intro call later within
      rw [contains call within, ← Call.answer_deepen]
      exact (deeper.answer_eq later within).symm

theorem ContainsItself.file_eq {other : Nested}
    (contains : ContainsItself ⟨stream, reporting⟩ other) (earlier : Array Entry) :
    file other ⟨stream, reporting⟩ ⟨0, earlier⟩ =
      file (productions (stream.size + 1)) ⟨stream, reporting⟩ ⟨0, earlier⟩ := by
  have inner := contains.matches (stream.size + 1) 0 (by omega)
  have parallel : (sameComparison stream).Parallel ⟨0, earlier⟩ ⟨0, earlier⟩ :=
    sameComparison_parallel_iff.mpr ⟨rfl, Nat.zero_le _⟩
  have same := file_matches (sameComparison_aligned stream) inner parallel
  exact (same.eq relocate_none_declarations).symm

end Grammar

open Grammar

/-- Parsing a file comes to an end, and it nests no deeper than the file has tokens.  Every
round of a repetition that asks for another one has passed a token.  What a statement, an
expression, a declaration or a list of parameters calls inside itself begins behind a token
that it has passed, so that a chain of calls is no longer than the tokens that are left.
Therefore the recursion without a bound has a solution, the productions of a depth beyond
the number of tokens, and whatever solves it parses the file into the same declarations and
reports. -/
theorem parseAfter_nests (reporting : Reporting) (stream : TokenStream) :
    (∀ depth, ConsumingRounds (productions depth)) ∧
    (∀ depth,
      (∀ semicolon equal, CallsLater ⟨stream, reporting⟩ (productions depth)
        (statement · semicolon equal)) ∧
      (∀ allowRelational, CallsLater ⟨stream, reporting⟩ (productions depth)
        (expression · allowRelational)) ∧
      (∀ semicolon, CallsLater ⟨stream, reporting⟩ (productions depth)
        (declaration · semicolon)) ∧
      ∀ role, CallsLater ⟨stream, reporting⟩ (productions depth) (parameterList · role)) ∧
    (∀ depth call calls, call.position ≤ stream.size →
      List.IsChain (Call.Makes ⟨stream, reporting⟩ (productions depth)) (call :: calls) →
        call.position + calls.length ≤ stream.size) ∧
    ContainsItself ⟨stream, reporting⟩ (productions (stream.size + 1)) ∧
    ∀ nested, ContainsItself ⟨stream, reporting⟩ nested → ∀ earlier,
      file nested ⟨stream, reporting⟩ ⟨0, earlier⟩ =
        (some (parseAfter earlier reporting stream).declarations,
          ⟨(parseAfter earlier reporting stream).position,
            (parseAfter earlier reporting stream).errors⟩) := by
  refine ⟨?rounds, ?calls, ?chains, productions_containsItself stream reporting, ?unbounded⟩
  case rounds => exact fun depth => consumingRounds (soundNested_productions depth)
  case calls =>
    intro depth
    have inner := advancingNested_productions depth
    exact ⟨statement_callsLater inner, expression_callsLater inner,
      declaration_callsLater inner, parameterList_callsLater inner⟩
  case chains =>
    intro depth call calls inside chain
    exact Call.length_of_isChain (advancingNested_productions depth) call calls inside chain
  case unbounded =>
    intro nested contains earlier
    obtain ⟨declarations, after, run, -⟩ := fileRounds_consecutive
      (soundNested_productions (stream.size + 1)) [] ⟨0, earlier⟩ (Nat.zero_le stream.size)
    rw [contains.file_eq earlier, parseAfter_eq run]
    exact run

end CppsFrontend
