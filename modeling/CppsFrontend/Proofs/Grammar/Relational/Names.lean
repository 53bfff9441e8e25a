import CppsFrontend.Proofs.Grammar.Exchange
import CppsFrontend.Proofs.Grammar.Statements

/-!
# Names before `<`

No name is derived before `<`.  A name that stands before an exchanged operator is derived in
the first stream only; every other name is derived in both, or in none.
-/

set_option autoImplicit false

namespace CppsFrontend.Grammar

open Production

variable {exchange : Exchange} {reporting : Reporting} {loose : Bool} {start : State}

theorem unqualifiedIdentifier_eq (input : Input) (state : State) :
    unqualifiedIdentifier input state =
      if (input.stream.get state.position).lexeme = .keyword .constWord ∧
          isNaming (input.stream.get (state.position + 1)).lexeme = true then
        if (input.stream.get (state.position + 2)).lexeme = .punctuator .less then (none, state)
        else (some ⟨some state.position, state.position + 1⟩, state.next.next)
      else if isNaming (input.stream.get state.position).lexeme = true ∧
          (input.stream.get (state.position + 1)).lexeme ≠ .punctuator .less then
        (some ⟨none, state.position⟩, state.next)
      else (none, state) := by
  rw [unqualifiedIdentifier]
  extract_lets named
  have each (constant : Option TokenId) (state : State) : named constant input state =
      if isNaming (input.stream.get state.position).lexeme = true ∧
          (input.stream.get (state.position + 1)).lexeme ≠ .punctuator .less then
        (some ⟨constant, state.position⟩, state.next)
      else (none, state) := by
    simp only [named, lexeme_bind, peek_bind, ite_run, Bool.and_eq_true, decide_eq_true_eq]
    split
    · rename_i found
      rw [advance_bind (lt_size_of_naming found.1)]
      rfl
    · rfl
  simp only [restoring, check_bind, peek_bind, ite_run, Bool.and_eq_true, decide_eq_true_eq]
  by_cases begins : (input.stream.get state.position).lexeme = .keyword .constWord ∧
      isNaming (input.stream.get (state.position + 1)).lexeme = true
  · have inside := input.stream.lt_size_of_lexeme state.position (by simp [begins.1])
    have passed : (some <$> advance : Production _) input state =
        (some (some state.position), state.next) :=
      map_run.mpr ⟨_, (advance_run inside).mpr ⟨rfl, rfl⟩, rfl⟩
    simp only [if_pos begins, bind_of_some _ passed, each, State.next_position]
    by_cases less : (input.stream.get (state.position + 2)).lexeme = .punctuator .less
    · simp [less, State.next]
    · simp [less, begins.2]
  · by_cases found : isNaming (input.stream.get state.position).lexeme = true ∧
        (input.stream.get (state.position + 1)).lexeme ≠ .punctuator .less
    · simp only [if_neg begins, pure_step, each, if_pos found]
    · simp only [if_neg begins, pure_step, each, if_neg found]

theorem unqualifiedIdentifier_reports (input : Input) (state : State) :
    (unqualifiedIdentifier input state).2.reports = state.reports := by
  rw [unqualifiedIdentifier_eq]
  split
  · split <;> rfl
  · split <;> rfl

theorem identifierExpression_single {input : Input} {state after : State}
    {named : IdentifierExpression} {name : TokenId}
    (run : identifierExpression input state = (some named, after))
    (single : named.identifier = .unqualified ⟨none, name⟩) :
    name = state.position ∧ isNaming (input.stream.get name).lexeme = true := by
  obtain ⟨identifier, location⟩ := named
  subst single
  obtain ⟨leaves, derives, covers⟩ := identifierExpression_sound run
  -- There is one way to derive a single name, and it has one leaf.
  cases derives with
  | identifierExpression derives =>
      cases derives with
      | unqualified derives =>
          cases derives with
          | plainName =>
              obtain ⟨_, naming, _⟩ := covers.fits _ (List.mem_singleton_self _)
              have first := congrArg List.head? covers.places
              have forward := covers.start_lt_stop (by simp)
              rw [List.head?_range', if_neg (by omega)] at first
              exact ⟨Option.some.inj first, naming⟩

/-! ## Before `<` -/

section BeforeLess

variable {input : Input} {state : State}
variable (less : (input.stream.get (state.position + 1)).lexeme = .punctuator .less)

include less

/-- There is no name before `<`. -/
theorem unqualifiedIdentifier_before_less :
    unqualifiedIdentifier input state = (none, state) := by
  have last : isNaming (.punctuator .less) = false := rfl
  rw [unqualifiedIdentifier_eq]
  simp [less, last]

theorem qualifiedIdentifier_before_less : qualifiedIdentifier input state = (none, state) :=
  restoring_of_none (bind_of_none _ (unqualifiedIdentifier_before_less less))

theorem identifierExpression_before_less :
    identifierExpression input state = (none, state) := by
  have failed : either qualifiedIdentifier (Identifier.unqualified <$> unqualifiedIdentifier)
      input state = (none, state) :=
    (bind_of_some _ (outcome_of (qualifiedIdentifier_before_less less))).trans
      (bind_of_none _ (unqualifiedIdentifier_before_less less))
  rw [identifierExpression, current_bind, bind_of_none _ failed]

/-- So a member before `<` is missing, whatever stands there. -/
theorem member_before_less (dot : TokenId) (location : Location) :
    member dot location input state =
      (none, ⟨state.position,
        state.reports.push (GrammarError.memberNameExpected.entry location)⟩) := by
  rw [member, bind_of_some _ (outcome_of (identifierExpression_before_less less))]
  rfl

end BeforeLess

/-! ## Before an exchanged operator -/

section Bare

variable (reporting) (bare : exchange.Bare start.position)

include bare

/-- A name before an exchanged operator is found in the first stream. -/
theorem unqualifiedIdentifier_bare :
    unqualifiedIdentifier ⟨exchange.first, reporting⟩ start =
      (some ⟨none, start.position⟩, start.next) := by
  obtain ⟨naming, turned⟩ := bare
  have last : isNaming (.punctuator .greater) = false := rfl
  rw [unqualifiedIdentifier_eq]
  simp [naming, (Exchange.lexemes_of_turned turned).1, last]

theorem qualifiedIdentifier_bare :
    qualifiedIdentifier ⟨exchange.first, reporting⟩ start = (none, start) := by
  simp only [qualifiedIdentifier, restoring,
    bind_of_some _ (unqualifiedIdentifier_bare reporting bare), check_bind]
  simp [(Exchange.lexemes_of_turned bare.2).1, fail, State.next]

theorem identifierExpression_bare :
    identifierExpression ⟨exchange.first, reporting⟩ start =
      (some ⟨.unqualified ⟨none, start.position⟩, (exchange.first.get start.position).location⟩,
        start.next) := by
  have chosen : either qualifiedIdentifier (Identifier.unqualified <$> unqualifiedIdentifier)
      ⟨exchange.first, reporting⟩ start = (some (.unqualified ⟨none, start.position⟩),
        start.next) :=
    either_run.mpr (.inr ⟨start, qualifiedIdentifier_bare reporting bare,
      map_run.mpr ⟨_, unqualifiedIdentifier_bare reporting bare, rfl⟩⟩)
  rw [identifierExpression, current_bind, bind_of_some _ chosen]
  rfl

end Bare

/-! ## Elsewhere -/

section Names

variable (fair : exchange.Fair)

include fair

theorem unqualifiedIdentifier_same (apart : ¬exchange.Bare start.position) :
    unqualifiedIdentifier ⟨exchange.second, reporting⟩ start =
      unqualifiedIdentifier ⟨exchange.first, reporting⟩ start := by
  rw [unqualifiedIdentifier_eq, unqualifiedIdentifier_eq]
  simp only [fair.lexeme_iff (show Lexeme.keyword .constWord ∉ _ by simp), fair.naming]
  split
  · rename_i begins
    have still : ¬exchange.turned (start.position + 2) = true := fun turned =>
      fair.plain start.position ⟨begins.2, turned⟩ (by simp [begins.1])
    simp only [fair.less_iff still]
  · by_cases naming : isNaming (exchange.first.get start.position).lexeme = true
    · have still : ¬exchange.turned (start.position + 1) = true := fun turned =>
        apart ⟨naming, turned⟩
      simp only [ne_eq, fair.less_iff still]
    · simp [naming]

theorem unqualifiedIdentifier_tracks (apart : ¬exchange.Bare start.position) :
    Tracks exchange reporting loose unqualifiedIdentifier unqualifiedIdentifier start := by
  have kept := unqualifiedIdentifier_reports ⟨exchange.first, reporting⟩ start
  cases run : unqualifiedIdentifier ⟨exchange.first, reporting⟩ start with
  | mk result after =>
      rw [run] at kept
      refine .same run ?_ (Nat.le_of_eq (congrArg Array.size kept.symm))
      rw [unqualifiedIdentifier_same fair apart, run]
      cases result <;> rfl

theorem scopedRound_tracks :
    Tracks exchange reporting loose scopedRound scopedRound start := by
  refine .eat fair (by simp) ?_ ?_
  · intro found
    have apart : ¬exchange.Bare (start.position + 1) := fun bare =>
      fair.plain start.position bare (by simp [found])
    refine .bind (unqualifiedIdentifier_tracks fair apart) ?_
    intro name middle _
    exact .pure rfl
  · intro _
    exact .pure rfl

theorem qualifiedIdentifier_tracks :
    Tracks exchange reporting loose qualifiedIdentifier qualifiedIdentifier start := by
  by_cases bare : exchange.Bare start.position
  · have less := (Exchange.lexemes_of_turned bare.2).2
    exact .same (qualifiedIdentifier_bare reporting bare) (qualifiedIdentifier_before_less less)
      (Nat.le_refl _)
  · refine .restoring (.bind (unqualifiedIdentifier_tracks fair bare) ?_)
    intro first middle _
    refine .check fair (by simp) ?_
    split
    · refine .bind (.collect fair fun start => scopedRound_tracks fair) ?_
      intro more last _
      refine .pure ?_
      simp
    · exact .fail

theorem identifierExpression_tracks (apart : ¬exchange.Bare start.position) :
    Tracks exchange reporting loose identifierExpression identifierExpression start := by
  refine .current fair fun alike => ?_
  rw [← alike.location]
  refine .bind (.either (qualifiedIdentifier_tracks fair) ?_) ?_
  · intro middle failed
    have kept := keepsPlace_restoring _ _ start middle failed
    rw [← kept] at apart
    exact .map (unqualifiedIdentifier_tracks fair apart) fun _ => rfl
  · intro identifier middle _
    exact .pure rfl

theorem identifierExpression_loosely :
    Tracks exchange reporting true identifierExpression identifierExpression start := by
  by_cases bare : exchange.Bare start.position
  · exact .intro (identifierExpression_bare reporting bare) (Nat.le_refl _) fun _ =>
      .inr ⟨rfl, rfl, bare.2⟩
  · exact identifierExpression_tracks fair bare

end Names

end CppsFrontend.Grammar
