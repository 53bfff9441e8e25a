import CppsFrontend.Proofs.Grammar.Parallel
import CppsFrontend.Proofs.Grammar.Statements

/-!
# Declarations on corresponding streams

Names and declarations match at corresponding positions.  What is nested in a declaration is
only reached behind a token of its own, so it has to match from one place further on only.
-/

set_option autoImplicit false

namespace CppsFrontend.Grammar

open Production

variable {comparison : Comparison} {reporting : Reporting} {start₁ start₂ : State}
variable {nested₁ nested₂ : Nested} {bound : Nat}

/-! ## Names -/

section Names

variable (aligned : comparison.Aligned) (parallel : comparison.Parallel start₁ start₂)

include aligned parallel

theorem unqualifiedIdentifier_matches :
    Matches comparison reporting unqualifiedIdentifier unqualifiedIdentifier start₁ start₂ := by
  refine .restoring parallel (.check aligned parallel (.peek aligned parallel fun same => ?_))
  rw [same.lexeme]
  extract_lets named
  have each : ∀ constant₁ constant₂ {middle₁ middle₂ : State},
      comparison.Alike constant₁ constant₂ → comparison.Parallel middle₁ middle₂ →
        Matches comparison reporting (named constant₁) (named constant₂) middle₁ middle₂ := by
    intro constant₁ constant₂ middle₁ middle₂ alike parallel
    refine .lexeme aligned parallel (.peek aligned parallel fun same => ?_)
    rw [same.lexeme]
    split
    · refine .bind (.advance aligned parallel) ?_
      intro place₁ place₂ last₁ last₂ _ named parallel _
      refine .pure parallel ?_
      simp_all [Comparison.Alike]
    · exact .fail parallel
  split
  · refine .bind (.map (.advance aligned parallel) fun _ _ alike => congrArg some alike) ?_
    intro constant₁ constant₂ middle₁ middle₂ _ alike parallel _
    exact each _ _ alike parallel
  · exact each _ _ rfl parallel

theorem scopedRound_matches :
    Matches comparison reporting scopedRound scopedRound start₁ start₂ := by
  refine .eat aligned parallel (by simp) ?_ ?_
  · intro _ named moved
    refine .bind (unqualifiedIdentifier_matches aligned moved) ?_
    intro name₁ name₂ middle₁ middle₂ _ alike parallel _
    refine .pure parallel ?_
    simp_all [Comparison.Alike]
  · intro _
    exact .pure parallel rfl

theorem qualifiedIdentifier_matches :
    Matches comparison reporting qualifiedIdentifier qualifiedIdentifier start₁ start₂ := by
  refine .restoring parallel (.bind (unqualifiedIdentifier_matches aligned parallel) ?_)
  intro first₁ first₂ middle₁ middle₂ _ alike parallel _
  refine .check aligned parallel ?_
  split
  · refine .bind (.collect aligned (fun _ _ parallel _ => scopedRound_matches aligned parallel)
      parallel (Nat.zero_le _)) ?_
    intro more₁ more₂ last₁ last₂ _ others parallel _
    refine .pure parallel ?_
    simp_all [Comparison.Alike]
  · exact .fail parallel

theorem identifierExpression_matches :
    Matches comparison reporting identifierExpression identifierExpression start₁ start₂ := by
  refine .current aligned parallel fun same => ?_
  refine .bind (.either (qualifiedIdentifier_matches aligned parallel) ?_) ?_
  · intro middle₁ middle₂ parallel _
    refine .map (unqualifiedIdentifier_matches aligned parallel) ?_
    intro name₁ name₂ alike
    simp_all [Comparison.Alike]
  · intro identifier₁ identifier₂ middle₁ middle₂ _ alike parallel _
    refine .pure parallel ?_
    have located := same.location
    simp_all [Comparison.Alike]

end Names

/-! ## Declarations -/

/-- Productions that match wherever they start from `bound` on. -/
structure MatchesNested (comparison : Comparison) (reporting : Reporting) (bound : Nat)
    (nested₁ nested₂ : Nested) : Prop where
  sound : SoundNested nested₁
  statement : ∀ semicolon {equal₁ equal₂ start₁ start₂},
    comparison.Alike equal₁ equal₂ → comparison.Parallel start₁ start₂ →
      bound ≤ start₁.position →
        Matches comparison reporting (nested₁.statement semicolon equal₁)
          (nested₂.statement semicolon equal₂) start₁ start₂
  expression : ∀ {start₁ start₂}, comparison.Parallel start₁ start₂ →
    bound ≤ start₁.position →
      Matches comparison reporting nested₁.expression nested₂.expression start₁ start₂
  declaration : ∀ semicolon {start₁ start₂}, comparison.Parallel start₁ start₂ →
    bound ≤ start₁.position →
      Matches comparison reporting (nested₁.declaration semicolon)
        (nested₂.declaration semicolon) start₁ start₂

section Declarations

variable (aligned : comparison.Aligned)
variable (inner : MatchesNested comparison reporting bound nested₁ nested₂)
variable (parallel : comparison.Parallel start₁ start₂)

include aligned inner parallel

omit inner in
theorem parameterModifier_matches (role : ParameterRole) :
    Matches comparison reporting (parameterModifier role) (parameterModifier role) start₁
      start₂ := by
  refine .current aligned parallel fun same => ?_
  rw [← same.lexeme]
  cases (comparison.first.get start₁.position).lexeme with
  | parameterModifier modifier =>
      simp only
      split
      · refine .bind (.advance aligned parallel) ?_
        intro _ _ middle₁ middle₂ _ _ parallel _
        exact .pure parallel rfl
      · exact .reject parallel same.location
  | _ => exact .pure parallel rfl

theorem parameter_matches (role : ParameterRole) (within : bound ≤ start₁.position) :
    Matches comparison reporting (parameter nested₁ role) (parameter nested₂ role) start₁
      start₂ := by
  refine .restoring parallel (.current aligned parallel fun same => ?_)
  refine .bind (parameterModifier_matches aligned parallel role) ?_
  intro modifier₁ modifier₂ middle₁ middle₂ _ written parallel forward
  refine .bind (inner.declaration false parallel (Nat.le_trans within forward)) ?_
  intro declaration₁ declaration₂ last₁ last₂ _ alike parallel _
  refine .pure parallel ?_
  have located := same.location
  simp_all [Comparison.Alike]

theorem parameterRound_matches (role : ParameterRole) (within : bound ≤ start₁.position) :
    Matches comparison reporting (parameterRound nested₁ role) (parameterRound nested₂ role)
      start₁ start₂ := by
  refine .attempt (parameter_matches aligned inner parallel role within) ?_ ?_
  · intro value₁ value₂ middle₁ middle₂ _ alike parallel _
    refine .check aligned parallel ?_
    split
    · exact .pure parallel (congrArg Round.last alike)
    · refine .eat aligned parallel (by simp) ?_ ?_
      · intro _ _ moved
        exact .pure moved (congrArg Round.more alike)
      · intro _
        exact .here aligned parallel fun same => .reject parallel same
  · intro middle₁ middle₂ parallel _
    exact .pure parallel rfl

theorem parameterList_matches (role : ParameterRole) (within : bound ≤ start₁.position + 1) :
    Matches comparison reporting (parameterList nested₁ role) (parameterList nested₂ role)
      start₁ start₂ := by
  refine .restoring parallel (.here aligned parallel fun begins => ?_)
  refine .expected aligned parallel (by simp) ?_
  intro _ _ moved
  refine .reportCount moved (.bind (.collect aligned
    (fun _ _ parallel within => parameterRound_matches aligned inner parallel role within)
    moved within) ?_)
  intro parameters₁ parameters₂ middle₁ middle₂ _ alike parallel _
  refine .here aligned parallel fun ends => .eat aligned parallel (by simp) ?_ ?_
  · intro _ _ closed
    refine .pure closed ?_
    simp_all [Comparison.Alike]
  · intro _
    exact .followOn parallel ends

theorem results_matches (within : bound ≤ start₁.position + 1) :
    Matches comparison reporting (results nested₁) (results nested₂) start₁ start₂ := by
  refine .orReject aligned parallel (.either (.map
    (identifierExpression_matches aligned parallel) ?_) ?_)
  · intro type₁ type₂ alike
    simp_all [Comparison.Alike]
  · intro middle₁ middle₂ parallel forward
    refine .map (parameterList_matches aligned inner parallel .result (by omega)) ?_
    intro list₁ list₂ alike
    simp_all [Comparison.Alike]

theorem functionSignature_matches (within : bound ≤ start₁.position + 1) :
    Matches comparison reporting (functionSignature nested₁) (functionSignature nested₂) start₁
      start₂ := by
  refine .restoring parallel (.bind
    (parameterList_matches aligned inner parallel .argument within) ?_)
  intro parameters₁ parameters₂ middle₁ middle₂ _ alike parallel forward
  refine .bind (.eaten aligned parallel) ?_
  intro word₁ word₂ thrown₁ thrown₂ _ same parallel further
  have throws : word₁.isSome = word₂.isSome := by
    have shown := congrArg Option.isSome same
    simpa [relocate] using shown
  refine .eat aligned parallel (by simp) ?_ ?_
  · intro _ _ moved
    refine .bind (results_matches aligned inner moved (by simp; omega)) ?_
    intro returns₁ returns₂ _ _ _ resulting parallel _
    refine .pure parallel ?_
    simp_all [Comparison.Alike]
  · intro _
    refine .pure parallel ?_
    simp_all [Comparison.Alike]

theorem declarationType_matches (within : bound ≤ start₁.position + 1) :
    Matches comparison reporting (declarationType nested₁) (declarationType nested₂) start₁
      start₂ := by
  refine .attempt (functionSignature_matches aligned inner parallel within) ?_ ?_
  · intro signature₁ signature₂ middle₁ middle₂ _ alike parallel _
    refine .pure parallel ?_
    simp_all [Comparison.Alike]
  · intro middle₁ middle₂ parallel _
    refine .eat aligned parallel (by simp) ?_ ?_
    · intro _ named moved
      refine .bind (identifierExpression_matches aligned moved) ?_
      intro type₁ type₂ _ _ _ alike parallel _
      refine .pure parallel ?_
      simp_all [Comparison.Alike]
    · intro _
      refine .bind (identifierExpression_matches aligned parallel) ?_
      intro type₁ type₂ _ _ _ alike parallel _
      refine .pure parallel ?_
      simp_all [Comparison.Alike]

theorem initializer_matches {type₁ type₂ : DeclarationType} {first₁ first₂ : Location}
    (typed : comparison.Alike type₁ type₂)
    (begins : comparison.view first₁ = comparison.view first₂) (semicolon : Bool)
    (within : bound ≤ start₁.position + 1) :
    Matches comparison reporting (initializer nested₁ type₁ first₁ semicolon)
      (initializer nested₂ type₂ first₂ semicolon) start₁ start₂ := by
  refine .check aligned parallel ?_
  split
  · rename_i found
    simp only [decide_eq_true_eq] at found
    refine .here aligned parallel fun same => .bind (.advance aligned parallel) ?_
    intro _ _ middle₁ middle₂ run _ parallel _
    have inside := comparison.first.lt_size_of_lexeme start₁.position (by simp [found])
    obtain ⟨_, rfl⟩ := (advance_run inside).mp run
    have located : comparison.Alike (some (comparison.first.reportLocation start₁.position))
        (some (comparison.second.reportLocation start₂.position)) := congrArg some same
    refine .bind (.orRejectAt parallel same
      (inner.statement semicolon located parallel within)) ?_
    intro value₁ value₂ last₁ last₂ _ alike parallel _
    refine .pure parallel ?_
    simp_all [Comparison.Alike]
  · cases type₁ with
    | function signature₁ =>
        cases type₂ with
        | function signature₂ => exact .reject parallel begins
        | object object₂ => simp [Comparison.Alike] at typed
    | object object₁ =>
        cases type₂ with
        | function signature₂ => simp [Comparison.Alike] at typed
        | object object₂ =>
            refine .eat aligned parallel (by simp) ?_ ?_
            · intro _ _ moved
              exact .pure moved rfl
            · intro _
              simp only [Option.isNone_none, Bool.true_and]
              split
              · exact .reject parallel begins
              · exact .pure parallel rfl

theorem unnamedDeclaration_matches {first₁ first₂ : Location}
    (begins : comparison.view first₁ = comparison.view first₂) (semicolon : Bool)
    (within : bound ≤ start₁.position + 1) :
    Matches comparison reporting (unnamedDeclaration nested₁ first₁ semicolon)
      (unnamedDeclaration nested₂ first₂ semicolon) start₁ start₂ := by
  refine .expected aligned parallel (by simp) ?_
  intro _ _ moved
  have further : bound ≤ start₁.next.position + 1 := Nat.le_succ_of_le within
  refine .bind (declarationType_matches aligned inner moved further) ?_
  rintro ⟨type₁, pointer₁⟩ ⟨type₂, pointer₂⟩ middle₁ middle₂ _ alike parallel forward
  simp only [Comparison.Alike, relocate_pair, Prod.mk.injEq] at alike
  refine .bind (initializer_matches aligned inner parallel alike.1 begins semicolon
    (by simp only [State.next_position] at forward; omega)) ?_
  rintro ⟨value₁, equal₁⟩ ⟨value₂, equal₂⟩ last₁ last₂ _ valued parallel onward
  simp only [Comparison.Alike, relocate_pair, Prod.mk.injEq] at valued
  simp only [State.next_position] at forward
  refine .previous aligned parallel (by omega) fun same => .pure parallel ?_
  have located := same.location
  simp_all [Comparison.Alike]

theorem declaration_matches (semicolon : Bool) (within : bound ≤ start₁.position + 1) :
    Matches comparison reporting (declaration nested₁ semicolon)
      (declaration nested₂ semicolon) start₁ start₂ := by
  refine .restoring parallel (.current aligned parallel fun same => ?_)
  refine .bind (unqualifiedIdentifier_matches aligned parallel) ?_
  intro name₁ name₂ middle₁ middle₂ _ named parallel forward
  refine .bind (unnamedDeclaration_matches aligned inner parallel same.location semicolon
    (by omega)) ?_
  rintro ⟨_, _, _, _, _, _, _⟩ ⟨_, _, _, _, _, _, _⟩ last₁ last₂ _ alike parallel _
  refine .pure parallel ?_
  simp_all [Comparison.Alike]

end Declarations

end CppsFrontend.Grammar
