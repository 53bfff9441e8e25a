import CppsFrontend.Proofs.Grammar.Relational.Names

/-!
# Declarations with `<` for `>`

A declaration is the same on both streams, as long as what is nested in it is.  Where it need
not end with a semicolon, it may also end before an exchanged operator.
-/

set_option autoImplicit false

namespace CppsFrontend.Grammar

open Production

variable {exchange : Exchange} {reporting : Reporting} {loose : Bool} {start : State}
variable {nested : Nested}

/-- Nested productions do the same on both streams; those that need no semicolon may also end
before an exchanged operator. -/
structure TracksNested (exchange : Exchange) (reporting : Reporting) (nested : Nested) :
    Prop where
  statement : ∀ semicolon equal start, Tracks exchange reporting (!semicolon)
    (nested.statement semicolon equal) (nested.statement semicolon equal) start
  expression : ∀ start,
    Tracks exchange reporting false nested.expression nested.expression start
  declaration : ∀ semicolon start, Tracks exchange reporting (!semicolon)
    (nested.declaration semicolon) (nested.declaration semicolon) start

/-- A name before an exchanged operator has no colon behind it. -/
theorem declaration_bare (reporting : Reporting) (bare : exchange.Bare start.position)
    (semicolon : Bool) :
    declaration nested semicolon ⟨exchange.first, reporting⟩ start = (none, start) ∧
      declaration nested semicolon ⟨exchange.second, reporting⟩ start = (none, start) := by
  obtain ⟨greater, less⟩ := Exchange.lexemes_of_turned bare.2
  have found := unqualifiedIdentifier_bare reporting bare
  have missing : unqualifiedIdentifier ⟨exchange.second, reporting⟩ start = (none, start) :=
    unqualifiedIdentifier_before_less less
  have ended : unnamedDeclaration nested (exchange.first.get start.position).location semicolon
      ⟨exchange.first, reporting⟩ start.next = (none, start.next) :=
    bind_of_none _ (expect_none_run.mpr ⟨by simp [greater], rfl⟩)
  constructor
  · simp only [declaration, restoring, current_bind, bind_of_some _ found, bind_of_none _ ended]
    rfl
  · simp only [declaration, restoring, current_bind, bind_of_none _ missing]

variable (fair : exchange.Fair) (inner : TracksNested exchange reporting nested)

include fair inner

omit inner in
theorem parameterModifier_tracks (role : ParameterRole) :
    Tracks exchange reporting loose (parameterModifier role) (parameterModifier role)
      start := by
  refine .current fair fun alike => ?_
  cases alike with
  | same same =>
      rw [same]
      split
      · split
        · refine .bind (.advance fair) ?_
          intro place middle _
          exact .pure rfl
        · exact .reject
      · exact .pure rfl
  | turned greater less _ _ =>
      rw [greater, less]
      exact .pure rfl

theorem parameter_tracks (role : ParameterRole) :
    Tracks exchange reporting true (parameter nested role) (parameter nested role) start := by
  refine .restoring (.current fair fun alike => .bind (parameterModifier_tracks fair role) ?_)
  intro modifier middle _
  refine .bindLoosely (inner.declaration false middle) ?_ ?_
  · intro declaration last _
    refine .pure ?_
    simp [alike.location]
  · intro declaration last _ _ beyond
    exact .pure rfl beyond

/-- A parameter that ends before an exchanged operator is followed by no comma. -/
theorem parameterRound_tracks (role : ParameterRole) :
    Tracks exchange reporting loose (parameterRound nested role) (parameterRound nested role)
      start := by
  refine .attemptLoosely (parameter_tracks fair inner role) ?_ ?_ ?_
  · intro parameter middle _
    refine .check fair (by simp) ?_
    split
    · exact .pure rfl
    · refine .eat fair (by simp) ?_ ?_
      · intro _
        exact .pure rfl
      · intro _
        exact .here fair .reject
  · intro middle _
    exact .pure rfl
  · intro parameter middle _ beyond
    refine .check beyond (by simp) (.eat beyond (by simp) ?_)
    exact .reads .reject rfl

theorem parameterList_tracks (role : ParameterRole) :
    Tracks exchange reporting loose (parameterList nested role) (parameterList nested role)
      start := by
  refine .restoring (.here fair (.expected fair (by simp) fun _ => ?_))
  refine .reads (.bind (.collect fair fun start => parameterRound_tracks fair inner role) ?_)
    rfl rfl
  intro parameters middle _
  refine .here fair (.eat fair (by simp) ?_ ?_)
  · intro _
    refine .pure ?_
    simp
  · intro _
    exact .followOn

theorem results_tracks :
    Tracks exchange reporting true (results nested) (results nested) start := by
  refine .orReject (.either (.map (identifierExpression_loosely fair) ?_) ?_)
  · intro type
    simp
  · intro middle _
    refine .map (parameterList_tracks fair inner .result) ?_
    intro list
    simp

theorem functionSignature_tracks :
    Tracks exchange reporting true (functionSignature nested) (functionSignature nested)
      start := by
  refine .restoring (.bind (parameterList_tracks fair inner .argument) ?_)
  intro parameters middle _
  refine .bind (.eaten fair (by simp)) fun word last _ => ?_
  rw [unname_optionalToken]
  refine .eat fair (by simp) ?_ ?_
  · intro _
    refine .bindLoosely (results_tracks fair inner) ?_ ?_
    · intro returns _ _
      refine .pure ?_
      simp
    · intro returns _ _ _ beyond
      exact .pure rfl beyond
  · intro _
    refine .pure ?_
    simp

theorem declarationType_tracks :
    Tracks exchange reporting true (declarationType nested) (declarationType nested)
      start := by
  refine .attemptLoosely (functionSignature_tracks fair inner) ?_ ?_ ?_
  · intro signature middle _
    refine .pure ?_
    simp
  · intro middle _
    refine .bind (.eaten fair (by simp)) fun pointer _ _ => ?_
    rw [unname_optionalToken]
    refine .bindLoosely (identifierExpression_loosely fair) ?_ ?_
    · intro type last _
      refine .pure ?_
      simp
    · intro type last _ _ beyond
      exact .pure rfl beyond
  · intro signature middle _ beyond
    exact .pure rfl beyond

theorem initializer_tracks (type : DeclarationType) (first : Location) (semicolon : Bool) :
    Tracks exchange reporting (!semicolon) (initializer nested type first semicolon)
      (initializer nested (unname exchange.turned type) first semicolon) start := by
  refine .check fair (by simp) ?_
  split
  · refine .here fair (.bind (.advance fair) ?_)
    intro place middle _
    refine .bindLoosely (.orRejectAt (inner.statement semicolon _ middle)) ?_ ?_
    · intro statement last _
      refine .pure ?_
      simp
    · intro statement last isLoose _ beyond
      exact .pure isLoose beyond
  · cases type with
    | function signature => exact .reject
    | object type =>
        refine .eat fair (by simp) ?_ ?_
        · intro _
          exact .pure rfl
        · intro _
          cases semicolon with
          | true => exact .reject
          | false => exact .pure rfl

omit fair inner in
/-- An exchanged operator begins no initializer. -/
theorem initializer_stalls {α : Type} {type : DeclarationType} {first : Location}
    {semicolon : Bool} {next : Option Statement × Option Location → Production α}
    (beyond : exchange.turned start.position = true)
    (rest : semicolon = false → Stalls exchange reporting loose (next (none, none)) start) :
    Stalls exchange reporting loose (initializer nested type first semicolon >>= next)
      start := by
  rw [initializer.eq_def, bind_bind]
  refine .check beyond (by simp) ?_
  simp only [Bool.false_eq_true, if_false]
  cases type with
  | function signature => exact .reject_bind
  | object type =>
      simp only [bind_bind]
      refine .eat beyond (by simp) ?_
      cases semicolon with
      | true => exact .reject_bind
      | false => exact rest rfl

theorem unnamedDeclaration_tracks (first : Location) (semicolon : Bool) :
    Tracks exchange reporting (!semicolon) (unnamedDeclaration nested first semicolon)
      (unnamedDeclaration nested first semicolon) start := by
  refine .expected fair (by simp) fun _ => .bindLoosely (declarationType_tracks fair inner) ?_ ?_
  · rintro ⟨type, pointer⟩ middle _
    refine .bindLoosely (initializer_tracks fair inner type first semicolon) ?_ ?_
    · rintro ⟨statement, equal⟩ last _
      refine .previous fair fun alike => .pure ?_
      simp [alike.location]
    · rintro ⟨statement, equal⟩ last isLoose _ beyond
      exact .reads (.pure isLoose beyond) rfl
  · rintro ⟨type, pointer⟩ middle _ _ beyond
    refine initializer_stalls beyond fun required => ?_
    exact .reads (.pure (by simp [required]) beyond) rfl

theorem declaration_tracks (semicolon : Bool) :
    Tracks exchange reporting (!semicolon) (declaration nested semicolon)
      (declaration nested semicolon) start := by
  by_cases bare : exchange.Bare start.position
  · obtain ⟨run₁, run₂⟩ := declaration_bare reporting bare semicolon
    exact .same run₁ run₂ (Nat.le_refl _)
  · refine .restoring (.current fair fun alike => ?_)
    refine .bind (unqualifiedIdentifier_tracks fair bare) ?_
    intro name middle _
    rw [← alike.location]
    refine .bindLoosely (unnamedDeclaration_tracks fair inner _ semicolon) ?_ ?_
    · intro declaration last _
      refine .pure ?_
      cases declaration
      simp
    · intro declaration last isLoose _ beyond
      exact .pure isLoose beyond

end CppsFrontend.Grammar
