import CppsFrontend.Proofs.Grammar.Modes
import CppsFrontend.Proofs.Grammar.Record

/-!
# Parsing in both modes

The declarations of a file, and what is reported where they end: nothing if they are
all of its tokens, and otherwise one report in the filtered mode, which is also the
first one of the verbatim mode.
-/

set_option autoImplicit false

namespace CppsFrontend

namespace Grammar

open Production

/-- Declarations that are written one behind the other, from `start` up to `stop`. -/
inductive Consecutive (stream : TokenStream) : List Declaration → Nat → Nat → Prop where
  | nil (position : Nat) : Consecutive stream [] position position
  | cons {declaration : Declaration} {declarations : List Declaration}
      {start middle stop : Nat}
      (first : Written stream (.declaration true declaration) start middle)
      (rest : Consecutive stream declarations middle stop) :
      Consecutive stream (declaration :: declarations) start stop

variable {stream : TokenStream} {known : Location → Prop} {nested : Nested}
variable {reporting : Reporting} {state after : State}

/-! ## Rounds -/

theorem fileRound_end (past : stream.isPast state.position = true) :
    fileRound nested ⟨stream, reporting⟩ state = (some .stop, state) := by
  rw [fileRound, isAtEnd_bind, past]
  rfl

theorem fileRound_more {declaration : Declaration}
    (inside : stream.isPast state.position = false)
    (run : orReject (Grammar.declaration nested true) .declarationExpected
      ⟨stream, reporting⟩ state = (some declaration, after)) :
    fileRound nested ⟨stream, reporting⟩ state = (some (.more declaration), after) := by
  rw [fileRound, isAtEnd_bind, inside]
  exact bind_of_some _ (outcome_of run)

theorem fileRound_stop (inside : stream.isPast state.position = false)
    (run : orReject (Grammar.declaration nested true) .declarationExpected
      ⟨stream, reporting⟩ state = (none, after)) :
    fileRound nested ⟨stream, reporting⟩ state = (some .stop, after) := by
  rw [fileRound, isAtEnd_bind, inside]
  exact bind_of_some _ (outcome_of run)

/-- A declaration of a file is written with tokens that were not passed before. -/
theorem declaration_forward (sound : SoundNested nested) {declaration : Declaration}
    (run : orReject (Grammar.declaration nested true) .declarationExpected
      ⟨stream, reporting⟩ state = (some declaration, after)) :
    Written stream (.declaration true declaration) state.position after.position ∧
      state.position < after.position ∧ after.position ≤ stream.size := by
  have derivable := declaration_sound sound true (orReject_run.mp run)
  have forward := derivable.start_lt_stop rfl
  obtain ⟨leaves, derives, covers⟩ := id derivable
  exact ⟨derivable.written, forward, covers.stop_le_size forward⟩

theorem declaration_kept
    (run : orReject (Grammar.declaration nested true) .declarationExpected
      ⟨stream, reporting⟩ state = (none, after)) : after.position = state.position := by
  obtain ⟨middle, failed, same, _⟩ := orReject_none_run run
  exact same.trans (keepsPlace_restoring _ _ _ _ failed)

theorem fileRound_agrees (places : Places stream known)
    (inner : DiagnosesNested stream known nested) (state : State) :
    Agrees stream known (fun asked _ => asked = .stop ∧ True) (fileRound nested) state := by
  refine .isAtEnd ?_
  split
  · exact .pure _ state
  · refine .attempt (.orReject places (declaration_diagnoses places inner true state)) ?_ ?_ ?_ ?_
    · intro reporting declaration middle _
      exact .pure _ middle
    · intro reporting middle _ _
      exact .pure _ middle
    · intro middle _ _
      refine ⟨rfl, ?_⟩
      intro asked same
      cases same
      exact ⟨rfl, trivial⟩
    · intro middle result after _ onwards
      cases onwards
      exact .refl known _

/-! ## Files -/

/-- In each mode a file ends with some declarations, one behind the other. -/
theorem fileRounds_consecutive (sound : SoundNested nested) (earlier : List Declaration)
    (state : State) (inside : state.position ≤ stream.size) :
    ∃ declarations after,
      collectAfter (fileRound nested) earlier ⟨stream, reporting⟩ state =
          (some (earlier.reverse ++ declarations), after) ∧
        Consecutive stream declarations state.position after.position := by
  induction left : stream.size - state.position using Nat.strongRecOn generalizing
    earlier state with
  | ind left induction =>
      subst left
      cases past : stream.isPast state.position with
      | true =>
          refine ⟨[], state, ?_, .nil _⟩
          rw [collectAfter_stop (fileRound_end past), List.append_nil]
      | false =>
          cases run : orReject (Grammar.declaration nested true) .declarationExpected
              ⟨stream, reporting⟩ state with
          | mk result middle =>
              cases result with
              | none =>
                  refine ⟨[], middle, ?_, ?_⟩
                  · rw [collectAfter_stop (fileRound_stop past run), List.append_nil]
                  · rw [declaration_kept run]
                    exact .nil _
              | some declaration =>
                  obtain ⟨written, forward, within⟩ := declaration_forward sound run
                  have less : stream.size - middle.position <
                      stream.size - state.position := by
                    omega
                  obtain ⟨declarations, last, rest, consecutive⟩ :=
                    induction _ less (declaration :: earlier) middle within rfl
                  refine ⟨declaration :: declarations, last, ?_, .cons written consecutive⟩
                  rw [collectAfter_more (fileRound_more past run) less, rest]
                  simp

/-- What the two modes make of a file.  They share the declarations up to the first
report, and without a report everything. -/
theorem fileRounds_modes (places : Places stream known)
    (inner : DiagnosesNested stream known nested) (earlier : List Declaration)
    (state : State) (inside : state.position ≤ stream.size) :
    ∃ declarations more last final,
      collectAfter (fileRound nested) earlier ⟨stream, .filtered⟩ state =
          (some (earlier.reverse ++ declarations), last) ∧
        collectAfter (fileRound nested) earlier ⟨stream, .verbatim⟩ state =
          (some (earlier.reverse ++ declarations ++ more), final) ∧
        Consecutive stream declarations state.position last.position ∧
        (last.position = stream.size ∧ last.reports = state.reports ∧ more = [] ∧
            final = last ∨
          ∃ report, last.position < stream.size ∧ Placed known report ∧
            last.reports = state.reports.push report ∧
              Extends known last.reports final.reports) := by
  induction left : stream.size - state.position using Nat.strongRecOn generalizing
    earlier state with
  | ind left induction =>
      subst left
      cases past : stream.isPast state.position with
      | true =>
          have ended : state.position = stream.size := by
            simp only [TokenStream.isPast, decide_eq_true_eq] at past
            omega
          refine ⟨[], [], state, state, ?_, ?_, .nil _, .inl ⟨ended, rfl, rfl, rfl⟩⟩
          · rw [collectAfter_stop (fileRound_end past), List.append_nil]
          · rw [collectAfter_stop (fileRound_end past), List.append_nil, List.append_nil]
      | false =>
          have diagnosed := declaration_diagnoses places inner true state
          have rejects : Diagnoses stream known
              (orReject (Grammar.declaration nested true) .declarationExpected) state :=
            .orReject places diagnosed
          cases rejects with
          | @silent result middle filtered verbatim unchanged =>
              cases result with
              | none =>
                  have grown := diagnosed.orReject_grows filtered
                  rw [unchanged] at grown
                  exact absurd grown (Nat.lt_irrefl _)
              | some declaration =>
                  obtain ⟨written, forward, within⟩ := declaration_forward inner.sound filtered
                  have less : stream.size - middle.position <
                      stream.size - state.position := by
                    omega
                  obtain ⟨declarations, more, last, final, first, second, consecutive, ends⟩ :=
                    induction _ less (declaration :: earlier) middle within rfl
                  rw [unchanged] at ends
                  refine ⟨declaration :: declarations, more, last, final, ?_, ?_,
                    .cons written consecutive, ends⟩
                  · rw [collectAfter_more (fileRound_more past filtered) less, first]
                    simp
                  · rw [collectAfter_more (fileRound_more past verbatim) less, second]
                    simp
          | @reported report outcome result middle other filtered verbatim spoiled placed one
              extended =>
              cases outcome with
              | some declaration => exact (spoiled declaration rfl).elim
              | none =>
                  have kept := declaration_kept filtered
                  have notPast : state.position < stream.size :=
                    (stream.isPast_eq_false_iff _).mp past
                  have stopped : collectAfter (fileRound nested) earlier ⟨stream, .filtered⟩
                      state = (some (earlier.reverse ++ []), middle) := by
                    rw [collectAfter_stop (fileRound_stop past filtered), List.append_nil]
                  obtain ⟨more, final, continued, _⟩ :=
                    @fileRounds_consecutive stream nested .verbatim inner.sound earlier state
                      inside
                  have agrees : Agrees stream known (fun _ _ => True)
                      (collectAfter (fileRound nested) earlier) state :=
                    .collectAfter (fileRound_agrees places inner) earlier state
                  have tail : Extends known middle.reports final.reports :=
                    agrees.extends_of_report stopped continued one
                  refine ⟨[], more, middle, final, stopped, ?_, ?_, .inr ⟨report, ?_, placed,
                    one, tail⟩⟩
                  · rw [continued, List.append_nil]
                  · rw [kept]
                    exact .nil _
                  · rw [kept]
                    exact notPast

theorem places_tokens (stream : TokenStream) :
    Places stream fun location =>
      stream.size = 0 ∨ ∃ token ∈ stream.tokens, location = token.location := by
  have stored : ∀ place, place < stream.size →
      ∃ token ∈ stream.tokens, (stream.get place).location = token.location := by
    intro place inside
    have found : stream.tokens[place]? = some stream.tokens[place] :=
      Array.getElem?_eq_getElem inside
    refine ⟨stream.tokens[place], Array.getElem_mem inside, ?_⟩
    rw [TokenStream.get, found, Option.getD_some]
  refine ⟨fun place inside => .inr (stored place inside), ?_⟩
  intro place
  unfold TokenStream.reportLocation
  cases past : stream.isPast place with
  | false => exact .inr (stored place ((stream.isPast_eq_false_iff place).mp past))
  | true =>
      simp only [if_true]
      cases final : stream.tokens.back? with
      | none => exact .inl (by simpa [TokenStream.size] using final)
      | some last => exact .inr ⟨last, Array.mem_of_back? final, rfl⟩

/-! ## Calls -/

/-- The calls of productions that may derive a value, with what they are given. -/
inductive Called (nested : Nested) : {α : Type} → Production α → Prop where
  | unqualifiedIdentifier : Called nested unqualifiedIdentifier
  | qualifiedIdentifier : Called nested qualifiedIdentifier
  | identifierExpression : Called nested identifierExpression
  | parameter (role : ParameterRole) : Called nested (parameter nested role)
  | parameterList (role : ParameterRole) : Called nested (parameterList nested role)
  | results : Called nested (results nested)
  | functionSignature : Called nested (functionSignature nested)
  | declarationType : Called nested (declarationType nested)
  | initializer (type : DeclarationType) (first : Location) (semicolon : Bool) :
      Called nested (initializer nested type first semicolon)
  | unnamedDeclaration (first : Location) (semicolon : Bool) :
      Called nested (unnamedDeclaration nested first semicolon)
  | declaration (semicolon : Bool) : Called nested (declaration nested semicolon)
  | argument : Called nested (argument nested)
  | arguments : Called nested (arguments nested)
  | parenthesized : Called nested (parenthesized nested)
  | unnamedFunction : Called nested (unnamedFunction nested)
  | primary : Called nested (primary nested)
  | callArguments (opening : TokenId) (location : Location) :
      Called nested (callArguments nested opening location)
  | subscriptArguments (opening : TokenId) (location : Location) :
      Called nested (subscriptArguments nested opening location)
  | member (dot : TokenId) (location : Location) : Called nested (member dot location)
  | postfixTerm : Called nested (postfixRound nested)
  | postfixTerms : Called nested (collect (postfixRound nested))
  | basicExpression : Called nested (basicExpression nested)
  | binaryExpression (allowRelational : Bool) (loosest : Precedence) :
      Called nested (binaryExpression nested allowRelational loosest)
  | expression (allowRelational : Bool) : Called nested (expression nested allowRelational)
  | compound (equal : Option Location) : Called nested (compound nested equal)
  | condition (word : Keyword) : Called nested (condition nested word)
  | branch (word : Keyword) : Called nested (branch nested word)
  | closingSemicolon : Called nested closingSemicolon
  | selectionStatement : Called nested (selectionStatement nested)
  | returnStatement : Called nested (returnStatement nested)
  | whileLoop (keyword : TokenId) : Called nested (whileLoop nested keyword)
  | doLoop (keyword : TokenId) : Called nested (doLoop nested keyword)
  | iterationStatement : Called nested (iterationStatement nested)
  | expressionStatement (semicolon : Bool) : Called nested (expressionStatement nested semicolon)
  | statement (semicolon : Bool) (equal : Option Location) :
      Called nested (statement nested semicolon equal)

theorem Called.diagnoses {α : Type} {production : Production α}
    (called : Called nested production) (sound : DiagnosesNested stream (fun _ => True) nested)
    (state : State) : Diagnoses stream (fun _ => True) production state := by
  have places : Places stream (fun _ => True) := ⟨fun _ _ => trivial, fun _ => trivial⟩
  cases called with
  | unqualifiedIdentifier => exact unqualifiedIdentifier_diagnoses state
  | qualifiedIdentifier => exact qualifiedIdentifier_diagnoses state
  | identifierExpression => exact identifierExpression_diagnoses state
  | parameter role => exact parameter_diagnoses places sound role state
  | parameterList role => exact parameterList_diagnoses places sound role state
  | results => exact results_diagnoses places sound state
  | functionSignature => exact functionSignature_diagnoses places sound state
  | declarationType => exact declarationType_diagnoses places sound state
  | initializer type first semicolon =>
      exact initializer_diagnoses places sound type trivial semicolon state
  | unnamedDeclaration first semicolon =>
      exact unnamedDeclaration_diagnoses places sound trivial semicolon state
  | declaration semicolon => exact declaration_diagnoses places sound semicolon state
  | argument => exact argument_diagnoses sound state
  | arguments => exact arguments_diagnoses places sound state
  | parenthesized => exact parenthesized_diagnoses places sound state
  | unnamedFunction => exact unnamedFunction_diagnoses places sound state
  | primary => exact primary_diagnoses places sound state
  | callArguments opening location =>
      exact callArguments_diagnoses places sound opening trivial state
  | subscriptArguments opening location =>
      exact subscriptArguments_diagnoses places sound opening trivial state
  | member dot location => exact member_diagnoses dot trivial state
  | postfixTerm => exact postfixRound_diagnoses places sound state
  | postfixTerms => exact .collect (postfixRound_diagnoses places sound) state
  | basicExpression => exact basicExpression_diagnoses places sound state
  | binaryExpression allowRelational loosest =>
      exact chainsOver_diagnoses places sound allowRelational
        (operandLevels_diagnoses places sound allowRelational _) state
  | expression allowRelational => exact expression_diagnoses places sound allowRelational state
  | compound equal => exact compound_diagnoses places sound equal state
  | condition word => exact condition_diagnoses places sound word state
  | branch word => exact branch_diagnoses places sound word state
  | closingSemicolon => exact closingSemicolon_diagnoses places state
  | selectionStatement => exact selectionStatement_diagnoses places sound state
  | returnStatement => exact returnStatement_diagnoses places sound state
  | whileLoop keyword => exact whileLoop_diagnoses places sound keyword state
  | doLoop keyword => exact doLoop_diagnoses places sound keyword state
  | iterationStatement => exact iterationStatement_diagnoses places sound state
  | expressionStatement semicolon =>
      exact expressionStatement_diagnoses places sound semicolon state
  | statement semicolon equal => exact statement_diagnoses places sound semicolon equal state

end Grammar

open Grammar

/-! ## Parsing -/

/-- What is known about the two runs of a file behind the same earlier reports. -/
theorem parseAfter_modes {known : Location → Prop} {stream : TokenStream}
    (places : Places stream known) (earlier : Array Entry) :
    ∃ more, (parseAfter earlier .verbatim stream).declarations =
        (parseAfter earlier .filtered stream).declarations ++ more ∧
      Consecutive stream (parseAfter earlier .filtered stream).declarations 0
        (parseAfter earlier .filtered stream).position ∧
      ((parseAfter earlier .filtered stream).position = stream.size ∧
          (parseAfter earlier .filtered stream).errors = earlier ∧
            parseAfter earlier .verbatim stream = parseAfter earlier .filtered stream ∨
        ∃ report, (parseAfter earlier .filtered stream).position < stream.size ∧
          Placed known report ∧
            (parseAfter earlier .filtered stream).errors = earlier.push report ∧
              Extends known (earlier.push report)
                (parseAfter earlier .verbatim stream).errors) := by
  have inner := diagnosesNested_productions places (stream.size + 1)
  obtain ⟨declarations, more, last, final, first, second, consecutive, ends⟩ :=
    fileRounds_modes places inner [] ⟨0, earlier⟩ (Nat.zero_le _)
  have filtered : parseAfter earlier .filtered stream =
      ⟨declarations, last.reports, last.position⟩ := by
    simp only [parseAfter, file, Production.collect, first]
    rfl
  have verbatim : parseAfter earlier .verbatim stream =
      ⟨declarations ++ more, final.reports, final.position⟩ := by
    simp only [parseAfter, file, Production.collect, second]
    rfl
  rw [filtered, verbatim]
  refine ⟨more, rfl, consecutive, ?_⟩
  rcases ends with ⟨whole, unchanged, rfl, rfl⟩ | ⟨report, short, placed, one, extended⟩
  · exact .inl ⟨whole, unchanged, by rw [List.append_nil]⟩
  · rw [one] at extended
    exact .inr ⟨report, short, placed, one, extended⟩

/-- In the filtered mode a file is parsed to its end without a report, or ends before a
token with exactly one, which stands at a token.  Nothing that derives a value adds a
report. -/
theorem parseAfter_filtered_reports (stream : TokenStream) (earlier : Array Entry) :
    let parsed := parseAfter earlier .filtered stream
    Consecutive stream parsed.declarations 0 parsed.position ∧
      parsed.position ≤ stream.size ∧
      (parsed.errors = earlier ↔ parsed.position = stream.size) ∧
      ((∃ report, parsed.errors = earlier.push report) ↔ parsed.position < stream.size) ∧
      (∀ report, parsed.errors = earlier.push report →
        ∃ token ∈ stream.tokens, report.location = some token.location) ∧
      ∀ {α : Type} (depth : Nat) (production : Production α),
        Called (productions depth) production → ∀ state value after,
          production ⟨stream, .filtered⟩ state = (some value, after) →
            after.reports = state.reports := by
  intro parsed
  have quiet : ∀ {α : Type} (depth : Nat) (production : Production α),
      Called (productions depth) production → ∀ state value after,
        production ⟨stream, .filtered⟩ state = (some value, after) →
          after.reports = state.reports := by
    intro α depth production called state value after run
    have everywhere : Places stream (fun _ => True) := ⟨fun _ _ => trivial, fun _ => trivial⟩
    have inner := diagnosesNested_productions everywhere depth
    exact ((called.diagnoses inner state).filtered_some run).2
  have pushed : ∀ report, earlier.push report ≠ earlier := by
    intro report same
    have sizes := congrArg Array.size same
    rw [Array.size_push] at sizes
    omega
  obtain ⟨_, _, consecutive, ends⟩ := parseAfter_modes (places_tokens stream) earlier
  rcases ends with ⟨whole, unchanged, _⟩ | ⟨report, short, placed, one, _⟩
  · change parsed.position = stream.size at whole
    change parsed.errors = earlier at unchanged
    refine ⟨consecutive, Nat.le_of_eq whole, ⟨fun _ => whole, fun _ => unchanged⟩, ?_, ?_,
      quiet⟩
    · constructor
      · rintro ⟨report, one⟩
        exact absurd (one.symm.trans unchanged) (pushed report)
      · intro short
        omega
    · intro report one
      exact absurd (one.symm.trans unchanged) (pushed report)
  · change parsed.position < stream.size at short
    change parsed.errors = earlier.push report at one
    refine ⟨consecutive, Nat.le_of_lt short, ?_, ⟨fun _ => short, fun _ => ⟨report, one⟩⟩, ?_,
      quiet⟩
    · constructor
      · intro unchanged
        exact absurd (one.symm.trans unchanged) (pushed report)
      · intro whole
        omega
    · intro other same
      cases Array.push_inj_right.mp (one.symm.trans same)
      obtain ⟨location, located, empty | ⟨token, member, same⟩⟩ := placed
      · omega
      · exact ⟨token, member, by rw [located, same]⟩

/-- The two modes agree up to the first report: it is the same, the filtered mode has no
more, and its declarations are the first ones of the verbatim mode. -/
theorem parseAfter_modes_agree (stream : TokenStream) (earlier : Array Entry) :
    ∃ filtered verbatim : Array Entry,
      (parseAfter earlier .filtered stream).errors = earlier ++ filtered ∧
      (parseAfter earlier .verbatim stream).errors = earlier ++ verbatim ∧
      (filtered = #[] ↔ verbatim = #[]) ∧ filtered[0]? = verbatim[0]? ∧
      filtered.size ≤ verbatim.size ∧
      (parseAfter earlier .filtered stream).declarations <+:
        (parseAfter earlier .verbatim stream).declarations ∧
      (verbatim = #[] →
        parseAfter earlier .filtered stream = parseAfter earlier .verbatim stream) := by
  have everywhere : Places stream (fun _ => True) := ⟨fun _ _ => trivial, fun _ => trivial⟩
  obtain ⟨more, declarations, _, ends⟩ := parseAfter_modes everywhere earlier
  have ahead : (parseAfter earlier .filtered stream).declarations <+:
      (parseAfter earlier .verbatim stream).declarations := ⟨more, declarations.symm⟩
  rcases ends with ⟨_, unchanged, same⟩ | ⟨report, _, _, one, extended⟩
  · refine ⟨#[], #[], ?_, ?_, Iff.rfl, rfl, Nat.le_refl _, ahead, fun _ => same.symm⟩
    · rw [unchanged, Array.append_empty]
    · rw [same, unchanged, Array.append_empty]
  · obtain ⟨rest, reports, _⟩ := extended
    refine ⟨#[report], #[report] ++ rest, ?_, ?_, ?_, ?_, ?_, ahead, ?_⟩
    · rw [one, Array.push_eq_append]
    · rw [reports, Array.push_eq_append, Array.append_assoc]
    · simp
    · rw [Array.getElem?_append_left (by simp)]
    · simp
    · simp

end CppsFrontend
