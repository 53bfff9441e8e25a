import CppsFrontend.Proofs.Grammar.Correspondence.Declarations

/-!
# Expressions on corresponding streams

The chains of an expression match at corresponding positions, level by level.
-/

set_option autoImplicit false

namespace CppsFrontend.Grammar

open Production

variable {comparison : Comparison} {reporting : Reporting} {start₁ start₂ : State}
variable {nested₁ nested₂ : Nested} {bound : Nat}

variable (aligned : comparison.Aligned)
variable (inner : MatchesNested comparison reporting bound nested₁ nested₂)
variable (parallel : comparison.Parallel start₁ start₂)

include aligned inner parallel

omit inner in
theorem argumentModifier_matches :
    Matches comparison reporting argumentModifier argumentModifier start₁ start₂ := by
  refine .lexeme aligned parallel ?_
  split
  · refine .bind (.advance aligned parallel) fun _ _ _ _ _ _ parallel _ => ?_
    exact .pure parallel rfl
  · refine .bind (.advance aligned parallel) fun _ _ _ _ _ _ parallel _ => ?_
    exact .pure parallel rfl
  · exact .pure parallel rfl

theorem argument_matches (within : bound ≤ start₁.position) :
    Matches comparison reporting (argument nested₁) (argument nested₂) start₁ start₂ := by
  refine .bind (argumentModifier_matches aligned parallel) ?_
  intro modifier₁ modifier₂ middle₁ middle₂ _ written parallel forward
  refine .bind (inner.expression parallel (Nat.le_trans within forward)) ?_
  intro value₁ value₂ _ _ _ alike parallel _
  refine .pure parallel ?_
  simp_all [Comparison.Alike]

theorem argumentRound_matches (within : bound ≤ start₁.position) :
    Matches comparison reporting (argumentRound nested₁) (argumentRound nested₂) start₁
      start₂ := by
  refine .eat aligned parallel (by simp) ?_ ?_
  · intro _ _ moved
    refine .bind (.orReject aligned moved
      (argument_matches aligned inner moved (Nat.le_succ_of_le within))) ?_
    intro _ _ _ _ _ alike parallel _
    exact .pure parallel (congrArg Round.more alike)
  · intro _
    exact .pure parallel rfl

omit aligned inner parallel in
/-- Arguments that are not there leave the position where they would begin. -/
theorem arguments_none {nested : Nested} {input : Input} {state middle : State}
    (run : argument nested input state = (none, middle)) :
    arguments nested input state =
      if state.reports.size < middle.reports.size then (none, middle)
      else (some [], ⟨state.position, middle.reports⟩) := by
  rw [arguments, position_bind, reportCount_bind, bind_of_some _ (outcome_of run)]
  simp only [reportCount_bind, ite_run]
  rfl

omit aligned inner parallel in
theorem arguments_some {nested : Nested} {input : Input} {state middle : State}
    {first : Argument} (run : argument nested input state = (some first, middle)) :
    arguments nested input state =
      (do return first :: (← collect (argumentRound nested)) : Production _) input middle := by
  rw [arguments, position_bind, reportCount_bind, bind_of_some _ (outcome_of run)]

theorem arguments_matches (within : bound ≤ start₁.position) :
    Matches comparison reporting (arguments nested₁) (arguments nested₂) start₁ start₂ := by
  cases argument_matches aligned inner parallel within with
  | @intro result₁ result₂ middle₁ middle₂ run₁ run₂ alike moved forward =>
      cases result₁ with
      | none =>
          cases result₂ with
          | some => cases alike
          | none =>
              have none₁ := arguments_none run₁
              have none₂ := arguments_none run₂
              rw [Matches.reports_size parallel, Matches.reports_size moved] at none₂
              split at none₁
              · rename_i grown
                rw [if_pos grown] at none₂
                exact .intro none₁ none₂ rfl moved forward
              · rename_i silent
                rw [if_neg silent] at none₂
                exact .intro none₁ none₂ rfl
                  ⟨parallel.position, moved.reports, parallel.inside⟩ (Nat.le_refl _)
      | some first₁ =>
          cases result₂ with
          | none => cases alike
          | some first₂ =>
              refine .later (arguments_some run₁) (arguments_some run₂) forward ?_
              refine .bind (.collect aligned (fun _ _ parallel within =>
                argumentRound_matches aligned inner parallel within) moved
                (Nat.le_trans within forward)) ?_
              intro more₁ more₂ _ _ _ others parallel _
              exact .pure parallel (List.cons_eq_cons.mpr ⟨Option.some.inj alike, others⟩)

/-- Terms between brackets are only reached behind the opening one. -/
theorem parenthesized_matches
    (found : (comparison.first.get start₁.position).lexeme = .punctuator .openParenthesis)
    (within : bound ≤ start₁.position + 1) :
    Matches comparison reporting (parenthesized nested₁) (parenthesized nested₂) start₁
      start₂ := by
  refine .restoring parallel (.here aligned parallel fun begins => ?_)
  refine .bind (.advance aligned parallel) ?_
  intro _ _ middle₁ middle₂ run _ parallel _
  have inside := comparison.first.lt_size_of_lexeme start₁.position (by simp [found])
  obtain ⟨_, rfl⟩ := (advance_run inside).mp run
  refine .bind (.orReject aligned parallel
    (arguments_matches aligned inner parallel within)) ?_
  intro terms₁ terms₂ _ _ _ alike parallel _
  refine .here aligned parallel fun ends => .eat aligned parallel (by simp) ?_ ?_
  · intro _ _ closed
    refine .pure closed ?_
    simp_all [Comparison.Alike]
  · intro _
    exact .reject parallel ends

omit aligned inner parallel in
theorem expressionScopeError_alike {declaration₁ declaration₂ : Declaration}
    (alike : comparison.Alike declaration₁ declaration₂) :
    (expressionScopeError? declaration₁).map (fun error => (error.1, comparison.view error.2)) =
      (expressionScopeError? declaration₂).map
        fun error => (error.1, comparison.view error.2) := by
  obtain ⟨_, type₁, _, _, _, _, _⟩ := declaration₁
  obtain ⟨_, type₂, _, _, _, _, _⟩ := declaration₂
  simp only [Comparison.Alike, relocate_declaration, Declaration.mk.injEq] at alike
  obtain ⟨-, typed, -, -, begins, -, -⟩ := alike
  simp only [Comparison.ahead_location, Comparison.viewed_location] at begins
  rcases type₁ with ⟨parameters₁, throws₁, _ | _ | list₁⟩ | object₁ <;>
    rcases type₂ with ⟨parameters₂, throws₂, _ | _ | list₂⟩ | object₂ <;>
    simp_all [expressionScopeError?]
  cases list₁
  cases list₂
  simp_all

theorem unnamedFunction_matches (within : bound ≤ start₁.position + 1) :
    Matches comparison reporting (unnamedFunction nested₁) (unnamedFunction nested₂) start₁
      start₂ := by
  refine .restoring parallel (.here aligned parallel fun begins => ?_)
  refine .bind (unnamedDeclaration_matches aligned inner parallel begins true within) ?_
  intro declaration₁ declaration₂ _ _ _ alike parallel _
  have errors := expressionScopeError_alike alike
  cases scope₁ : expressionScopeError? declaration₁ with
  | none =>
      cases scope₂ : expressionScopeError? declaration₂ with
      | none => exact .pure parallel (congrArg Primary.function alike)
      | some error₂ => simp [scope₁, scope₂] at errors
  | some error₁ =>
      cases scope₂ : expressionScopeError? declaration₂ with
      | none => simp [scope₁, scope₂] at errors
      | some error₂ =>
          obtain ⟨error₁, location₁⟩ := error₁
          obtain ⟨error₂, location₂⟩ := error₂
          simp only [scope₁, scope₂, Option.map_some, Option.some.injEq, Prod.mk.injEq] at errors
          obtain ⟨rfl, same⟩ := errors
          exact .reject parallel same

theorem primary_matches (within : bound ≤ start₁.position + 1) :
    Matches comparison reporting (primary nested₁) (primary nested₂) start₁ start₂ := by
  refine .attempt (identifierExpression_matches aligned parallel) ?_ ?_
  · intro named₁ named₂ _ _ _ alike parallel _
    exact .pure parallel (congrArg Primary.identifier alike)
  · intro middle₁ middle₂ parallel forward
    refine .lexeme aligned parallel ?_
    split
    · refine .bind (.advance aligned parallel) ?_
      intro _ _ _ _ _ named parallel _
      exact .pure parallel (congrArg Primary.token named)
    · refine .check aligned parallel ?_
      split
      · rename_i found
        simp only [decide_eq_true_eq] at found
        exact parenthesized_matches aligned inner parallel found (by omega)
      · exact unnamedFunction_matches aligned inner parallel (by omega)

theorem callArguments_matches {opening₁ opening₂ : TokenId} {location₁ location₂ : Location}
    (opens : comparison.Alike opening₁ opening₂)
    (same : comparison.view location₁ = comparison.view location₂)
    (within : bound ≤ start₁.position) :
    Matches comparison reporting (callArguments nested₁ opening₁ location₁)
      (callArguments nested₂ opening₂ location₂) start₁ start₂ := by
  refine .bind (.orRejectAt parallel same (arguments_matches aligned inner parallel within)) ?_
  intro terms₁ terms₂ _ _ _ alike parallel _
  refine .here aligned parallel fun ends => .eat aligned parallel (by simp) ?_ ?_
  · intro _ named closed
    refine .pure closed ?_
    simp_all [Comparison.Alike]
  · intro _
    exact .reject parallel ends

theorem subscriptArguments_matches {opening₁ opening₂ : TokenId}
    {location₁ location₂ : Location} (opens : comparison.Alike opening₁ opening₂)
    (same : comparison.view location₁ = comparison.view location₂)
    (within : bound ≤ start₁.position) :
    Matches comparison reporting (subscriptArguments nested₁ opening₁ location₁)
      (subscriptArguments nested₂ opening₂ location₂) start₁ start₂ := by
  refine .bind (.orRejectAt parallel same (arguments_matches aligned inner parallel within)) ?_
  intro terms₁ terms₂ middle₁ middle₂ _ alike parallel _
  have sizes : terms₁.length = terms₂.length := by
    have mapped : terms₁.map (relocate comparison.ahead) =
        terms₂.map (relocate comparison.viewed) := alike
    simpa using congrArg List.length mapped
  extract_lets close₁ close₂
  have closing : Matches comparison reporting (close₁ ()) (close₂ ()) middle₁ middle₂ := by
    refine .here aligned parallel fun ends => .eat aligned parallel (by simp) ?_ ?_
    · intro _ named closed
      refine .pure closed ?_
      simp_all [Comparison.Alike]
    · intro _
      exact .reject parallel ends
  cases terms₁ with
  | nil =>
      cases terms₂ with
      | nil => exact .bind (.reject parallel same) fun _ _ _ _ run => absurd run reject_run
      | cons => simp at sizes
  | cons =>
      cases terms₂ with
      | nil => simp at sizes
      | cons => exact closing

omit inner in
theorem member_matches {dot₁ dot₂ : TokenId} {location₁ location₂ : Location}
    (dots : comparison.Alike dot₁ dot₂)
    (same : comparison.view location₁ = comparison.view location₂) :
    Matches comparison reporting (member dot₁ location₁) (member dot₂ location₂) start₁
      start₂ := by
  refine .attempt (identifierExpression_matches aligned parallel) ?_ ?_
  · intro named₁ named₂ _ _ _ alike parallel _
    refine .pure parallel ?_
    simp_all [Comparison.Alike]
  · intro _ _ parallel _
    exact .reject parallel same

omit inner in
/-- Past the first token, whether a mark continues a postfix chain is the same. -/
theorem continuesPostfix_eq (positive : 0 < start₁.position) :
    continuesPostfix (comparison.second.before start₂.position)
        (comparison.second.get start₂.position)
        (comparison.second.get (start₂.position + 1)).lexeme =
      continuesPostfix (comparison.first.before start₁.position)
        (comparison.first.get start₁.position)
        (comparison.first.get (start₁.position + 1)).lexeme := by
  obtain ⟨place, same⟩ : ∃ place, start₁.position = place + 1 := ⟨start₁.position - 1, by omega⟩
  have other : start₂.position = place + comparison.shift + 1 := by
    rw [parallel.position, same]
    omega
  by_cases inside : start₁.position < comparison.first.size
  · have continues := aligned.continues place (same ▸ inside)
    rw [Nat.add_right_comm place 1, Nat.add_right_comm place 2] at continues
    rw [same, other]
    exact continues.symm
  · -- Past the last token there is no mark at all.
    have mark := (Matches.sameToken aligned parallel 0).lexeme
    have ended := comparison.first.get_of_size_le start₁.position (Nat.le_of_not_lt inside)
    simp only [Nat.add_zero, ended] at mark
    simp only [continuesPostfix, ended, ← mark]
    rfl

theorem postfixRound_matches (positive : 0 < start₁.position)
    (within : bound ≤ start₁.position + 1) :
    Matches comparison reporting (postfixRound nested₁) (postfixRound nested₂) start₁
      start₂ := by
  have continues := continuesPostfix_eq aligned parallel positive
  refine .current aligned parallel fun same => .previous aligned parallel positive fun _ =>
    .peek aligned parallel fun _ => ?_
  rw [continues]
  split
  · rename_i marked
    have inside := lt_size_of_continuesPostfix marked
    refine .bind (.advance aligned parallel) ?_
    intro operator₁ operator₂ middle₁ middle₂ run named parallel _
    obtain ⟨_, rfl⟩ := (advance_run inside).mp run
    rw [← same.lexeme]
    split
    · refine .bind (subscriptArguments_matches aligned inner parallel named same.location
        within) ?_
      intro _ _ _ _ _ alike parallel _
      exact .pure parallel (congrArg Round.more alike)
    · refine .bind (callArguments_matches aligned inner parallel named same.location within) ?_
      intro _ _ _ _ _ alike parallel _
      exact .pure parallel (congrArg Round.more alike)
    · refine .bind (member_matches aligned parallel named same.location) ?_
      intro _ _ _ _ _ alike parallel _
      exact .pure parallel (congrArg Round.more alike)
    · refine .pure parallel ?_
      simp_all [Comparison.Alike]
  · exact .pure parallel rfl

omit inner in
theorem signRound_matches :
    Matches comparison reporting signRound signRound start₁ start₂ := by
  have passed : Matches comparison reporting (do return Round.more (← advance))
      (do return Round.more (← advance)) start₁ start₂ := by
    refine .bind (.advance aligned parallel) ?_
    intro _ _ _ _ _ named parallel _
    exact .pure parallel (congrArg Round.more named)
  refine .lexeme aligned parallel ?_
  split
  · exact passed
  · exact passed
  · exact passed
  · exact .pure parallel rfl

theorem basicExpression_matches (within : bound ≤ start₁.position + 1) :
    Matches comparison reporting (basicExpression nested₁) (basicExpression nested₂) start₁
      start₂ := by
  refine .restoring parallel (.bind (.collect aligned
    (fun _ _ parallel _ => signRound_matches aligned parallel) parallel (Nat.zero_le _)) ?_)
  intro signs₁ signs₂ middle₁ middle₂ _ signed parallel forward
  refine .bind (primary_matches aligned inner parallel (by omega)) ?_
  intro primary₁ primary₂ last₁ last₂ run alike parallel onward
  -- A primary expression has passed a token, so there is one before what follows it.
  have positive : middle₁.position < last₁.position :=
    (primary_sound inner.sound run).start_lt_stop rfl
  refine .bind (.collect aligned (fun _ _ parallel further =>
    postfixRound_matches aligned inner parallel (by omega) (by omega)) parallel
    (Nat.le_refl _)) ?_
  intro terms₁ terms₂ _ _ _ others parallel _
  refine .pure parallel ?_
  simp_all [Comparison.Alike]

omit inner in
theorem chainRound_matches (allowRelational : Bool) (level : Precedence)
    {operand₁ operand₂ : Production Expression}
    (each : ∀ {start₁ start₂}, comparison.Parallel start₁ start₂ →
      bound ≤ start₁.position + 1 →
        Matches comparison reporting operand₁ operand₂ start₁ start₂)
    (within : bound ≤ start₁.position + 1) :
    Matches comparison reporting (chainRound allowRelational level operand₁)
      (chainRound allowRelational level operand₂) start₁ start₂ := by
  refine .current aligned parallel fun same => ?_
  rw [← same.lexeme, ← same.text]
  split
  · refine .bind (.advance aligned parallel) ?_
    intro operator₁ operator₂ middle₁ middle₂ _ named parallel forward
    refine .bind (.orReject aligned parallel (each parallel (by omega))) ?_
    intro value₁ value₂ _ _ _ alike parallel _
    refine .pure parallel ?_
    simp_all [Comparison.Alike]
  · exact .pure parallel rfl

omit aligned inner parallel in
def MatchesLevels (comparison : Comparison) (reporting : Reporting) (bound : Nat)
    (levels₁ levels₂ : Levels) : Prop :=
  List.Forall₂ (fun entry₁ entry₂ => entry₁.1 = entry₂.1 ∧ ∀ {start₁ start₂},
    comparison.Parallel start₁ start₂ → bound ≤ start₁.position + 1 →
      Matches comparison reporting entry₁.2 entry₂.2 start₁ start₂) levels₁ levels₂

omit aligned inner parallel in
theorem MatchesLevels.lookup {levels₁ levels₂ : Levels}
    (levels : MatchesLevels comparison reporting bound levels₁ levels₂) (level : Precedence) :
    levels₁.lookup level = none ∧ levels₂.lookup level = none ∨
      ∃ operand₁ operand₂, levels₁.lookup level = some operand₁ ∧
        levels₂.lookup level = some operand₂ ∧ ∀ {start₁ start₂},
          comparison.Parallel start₁ start₂ → bound ≤ start₁.position + 1 →
            Matches comparison reporting operand₁ operand₂ start₁ start₂ := by
  induction levels with
  | nil => exact .inl ⟨rfl, rfl⟩
  | @cons entry₁ entry₂ rest₁ rest₂ first rest induction =>
      obtain ⟨level₁, operand₁⟩ := entry₁
      obtain ⟨level₂, operand₂⟩ := entry₂
      obtain ⟨rfl, each⟩ := first
      simp only [List.lookup_cons]
      cases level == level₁ with
      | true => exact .inr ⟨operand₁, operand₂, rfl, rfl, each⟩
      | false => exact induction

omit inner in
theorem levelRound_matches (allowRelational : Bool) {levels₁ levels₂ : Levels}
    (levels : MatchesLevels comparison reporting bound levels₁ levels₂)
    (within : bound ≤ start₁.position + 1) :
    Matches comparison reporting (levelRound allowRelational levels₁)
      (levelRound allowRelational levels₂) start₁ start₂ := by
  refine .lexeme aligned parallel ?_
  split
  · exact .pure parallel rfl
  · rename_i level _
    rcases levels.lookup level with ⟨none₁, none₂⟩ | ⟨operand₁, operand₂, some₁, some₂, each⟩
    · rw [none₁, none₂]
      exact .pure parallel rfl
    · rw [some₁, some₂]
      refine .bind (.collect aligned (fun _ _ parallel within =>
        chainRound_matches aligned parallel allowRelational level each (by omega)) parallel
        (Nat.le_refl _)) ?_
      intro terms₁ terms₂ _ _ _ alike parallel _
      refine .pure parallel ?_
      simp_all [Comparison.Alike]

omit aligned inner parallel in
theorem relocate_chains (move : Relocation) (first : Expression)
    (chains : List (Precedence × List ChainTerm)) :
    relocate move (chains.foldl (fun operand chain => .chain chain.1 operand chain.2) first) =
      (relocate move chains).foldl (fun operand chain => .chain chain.1 operand chain.2)
        (relocate move first) := by
  induction chains generalizing first with
  | nil => rfl
  | cons chain rest induction =>
      simp only [List.foldl_cons, relocate_cons, induction, relocate_chain]
      rfl

theorem chainsOver_matches (allowRelational : Bool) {levels₁ levels₂ : Levels}
    (levels : MatchesLevels comparison reporting bound levels₁ levels₂)
    (within : bound ≤ start₁.position + 1) :
    Matches comparison reporting (chainsOver nested₁ allowRelational levels₁)
      (chainsOver nested₂ allowRelational levels₂) start₁ start₂ := by
  refine .bind (basicExpression_matches aligned inner parallel within) ?_
  intro first₁ first₂ middle₁ middle₂ _ begins parallel forward
  refine .bind (.collect aligned (fun _ _ parallel further =>
    levelRound_matches aligned parallel allowRelational levels (by omega)) parallel
    (Nat.le_refl _)) ?_
  intro chains₁ chains₂ _ _ _ alike parallel _
  refine .pure parallel ?_
  unfold Comparison.Alike at *
  rw [relocate_chains, relocate_chains, begins, alike]

omit parallel in
theorem operandLevels_matches (allowRelational : Bool) (levels : List Precedence) :
    MatchesLevels comparison reporting bound (operandLevels nested₁ allowRelational levels)
      (operandLevels nested₂ allowRelational levels) := by
  induction levels with
  | nil => exact .nil
  | cons level tighter induction =>
      refine .cons ⟨rfl, ?_⟩ induction
      intro start₁ start₂ parallel within
      exact chainsOver_matches aligned inner parallel allowRelational induction within

theorem expression_matches (allowRelational : Bool) (within : bound ≤ start₁.position + 1) :
    Matches comparison reporting (expression nested₁ allowRelational)
      (expression nested₂ allowRelational) start₁ start₂ :=
  .restoring parallel (chainsOver_matches aligned inner parallel allowRelational
    (operandLevels_matches aligned inner allowRelational _) within)

end CppsFrontend.Grammar
