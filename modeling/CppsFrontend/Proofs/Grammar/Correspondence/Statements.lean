import CppsFrontend.Proofs.Grammar.Correspondence.Expressions

/-!
# Statements on corresponding streams

Statements match at corresponding positions, with the token that they may begin behind.
-/

set_option autoImplicit false

namespace CppsFrontend.Grammar

open Production

variable {comparison : Comparison} {reporting : Reporting} {start₁ start₂ : State}
variable {nested₁ nested₂ : Nested} {bound : Nat}

variable (aligned : comparison.Aligned)
variable (inner : MatchesNested comparison reporting bound nested₁ nested₂)
variable (parallel : comparison.Parallel start₁ start₂)

include aligned inner parallel

theorem statementRound_matches (within : bound ≤ start₁.position) :
    Matches comparison reporting (statementRound nested₁) (statementRound nested₂) start₁
      start₂ := by
  refine .check aligned parallel ?_
  split
  · exact .pure parallel rfl
  · refine .bind (.orReject aligned parallel (inner.statement true rfl parallel within)) ?_
    intro _ _ _ _ _ alike parallel _
    exact .pure parallel (congrArg Round.more alike)

theorem compound_matches {equal₁ equal₂ : Option Location}
    (equals : comparison.Alike equal₁ equal₂) (within : bound ≤ start₁.position + 1) :
    Matches comparison reporting (compound nested₁ equal₁) (compound nested₂ equal₂) start₁
      start₂ := by
  refine .restoring parallel (.current aligned parallel fun brace => ?_)
  have opens := aligned.opening equals brace.location
  refine .expected aligned parallel (by simp) ?_
  intro _ _ moved
  refine .bind (.collect aligned
    (fun _ _ parallel within => statementRound_matches aligned inner parallel within) moved
    within) ?_
  intro statements₁ statements₂ _ _ _ alike parallel _
  refine .here aligned parallel fun ends => .bind (.advance aligned parallel) ?_
  intro _ _ _ _ _ _ parallel _
  refine .pure parallel ?_
  simp_all [Comparison.Alike]

theorem condition_matches (word : Keyword) (within : bound ≤ start₁.position + 1) :
    Matches comparison reporting (condition nested₁ word) (condition nested₂ word) start₁
      start₂ :=
  .orReject aligned parallel (expression_matches aligned inner parallel true within)

theorem branch_matches (word : Keyword) (within : bound ≤ start₁.position + 1) :
    Matches comparison reporting (branch nested₁ word) (branch nested₂ word) start₁ start₂ :=
  .orReject aligned parallel (compound_matches aligned inner parallel rfl within)

omit inner in
theorem closingSemicolon_matches :
    Matches comparison reporting closingSemicolon closingSemicolon start₁ start₂ := by
  refine .eat aligned parallel (by simp) ?_ ?_
  · intro _ _ moved
    exact .pure moved rfl
  · intro _
    exact .here aligned parallel fun same => .reject parallel same

theorem selectionStatement_matches (within : bound ≤ start₁.position + 1) :
    Matches comparison reporting (selectionStatement nested₁) (selectionStatement nested₂)
      start₁ start₂ := by
  refine .restoring parallel (.expected aligned parallel (by simp) ?_)
  intro _ keyword moved
  refine .bind (.eaten aligned moved) ?_
  intro constant₁ constant₂ middle₁ middle₂ _ constant parallel forward
  simp only [State.next_position] at forward
  refine .bind (condition_matches aligned inner parallel .ifWord (by omega)) ?_
  intro test₁ test₂ tested₁ tested₂ _ test parallel onward
  refine .bind (branch_matches aligned inner parallel .ifWord (by omega)) ?_
  intro positive₁ positive₂ last₁ last₂ _ positive parallel further
  refine .eat aligned parallel (by simp) ?_ ?_
  · intro _ _ moved
    refine .bind (branch_matches aligned inner moved .elseWord
      (by simp only [State.next_position]; omega)) ?_
    intro negative₁ negative₂ _ _ _ negative parallel _
    refine .pure parallel ?_
    simp_all [Comparison.Alike]
  · intro _
    refine .pure parallel ?_
    simp_all [Comparison.Alike]

theorem returnStatement_matches (within : bound ≤ start₁.position + 1) :
    Matches comparison reporting (returnStatement nested₁) (returnStatement nested₂) start₁
      start₂ := by
  refine .restoring parallel (.expected aligned parallel (by simp) ?_)
  intro _ keyword moved
  refine .eat aligned moved (by simp) ?_ ?_
  · intro _ _ closed
    refine .pure closed ?_
    simp_all [Comparison.Alike]
  · intro _
    refine .bind (.orReject aligned moved (expression_matches aligned inner moved true
      (Nat.le_succ_of_le within))) ?_
    intro value₁ value₂ _ _ _ value parallel _
    refine .bind (closingSemicolon_matches aligned parallel) ?_
    intro _ _ _ _ _ _ parallel _
    refine .pure parallel ?_
    simp_all [Comparison.Alike]

theorem whileLoop_matches {keyword₁ keyword₂ : TokenId}
    (keyword : comparison.Alike keyword₁ keyword₂) (within : bound ≤ start₁.position + 1) :
    Matches comparison reporting (whileLoop nested₁ keyword₁) (whileLoop nested₂ keyword₂)
      start₁ start₂ := by
  refine .bind (condition_matches aligned inner parallel .whileWord within) ?_
  intro test₁ test₂ _ _ _ test parallel forward
  refine .bind (branch_matches aligned inner parallel .whileWord (by omega)) ?_
  intro body₁ body₂ _ _ _ body parallel _
  refine .pure parallel ?_
  simp_all [Comparison.Alike]

theorem doLoop_matches {keyword₁ keyword₂ : TokenId}
    (keyword : comparison.Alike keyword₁ keyword₂) (within : bound ≤ start₁.position + 1) :
    Matches comparison reporting (doLoop nested₁ keyword₁) (doLoop nested₂ keyword₂) start₁
      start₂ := by
  refine .bind (branch_matches aligned inner parallel .doWord within) ?_
  intro body₁ body₂ _ _ _ body parallel forward
  refine .eat aligned parallel (by simp) ?_ ?_
  · intro _ _ moved
    refine .bind (condition_matches aligned inner moved .whileWord
      (by simp only [State.next_position]; omega)) ?_
    intro test₁ test₂ _ _ _ test parallel _
    refine .bind (closingSemicolon_matches aligned parallel) ?_
    intro _ _ _ _ _ _ parallel _
    refine .pure parallel ?_
    simp_all [Comparison.Alike]
  · intro _
    exact .here aligned parallel fun same => .reject parallel same

theorem iterationStatement_matches (within : bound ≤ start₁.position + 1) :
    Matches comparison reporting (iterationStatement nested₁) (iterationStatement nested₂)
      start₁ start₂ := by
  refine .restoring parallel (.eat aligned parallel (by simp) ?_ ?_)
  · intro _ keyword moved
    exact whileLoop_matches aligned inner moved keyword (Nat.le_succ_of_le within)
  · intro _
    refine .expected aligned parallel (by simp) ?_
    intro _ keyword moved
    exact doLoop_matches aligned inner moved keyword (Nat.le_succ_of_le within)

theorem expressionStatement_matches (semicolon : Bool) (within : bound ≤ start₁.position + 1) :
    Matches comparison reporting (expressionStatement nested₁ semicolon)
      (expressionStatement nested₂ semicolon) start₁ start₂ := by
  refine .restoring parallel (.bind (expression_matches aligned inner parallel true within) ?_)
  intro value₁ value₂ _ _ _ value parallel _
  refine .eat aligned parallel (by simp) ?_ ?_
  · intro _ _ closed
    refine .pure closed ?_
    simp_all [Comparison.Alike]
  · intro _
    cases semicolon with
    | true => exact .here aligned parallel fun same => .reject parallel same
    | false =>
        refine .pure parallel ?_
        simp_all [Comparison.Alike]

theorem statement_matches (semicolon : Bool) {equal₁ equal₂ : Option Location}
    (equals : comparison.Alike equal₁ equal₂) (within : bound ≤ start₁.position + 1) :
    Matches comparison reporting (statement nested₁ semicolon equal₁)
      (statement nested₂ semicolon equal₂) start₁ start₂ := by
  refine .restoring parallel (.reportCount parallel (.firstOf ?_ parallel
    (Nat.le_refl start₁.position)))
  refine .cons ?_ (.cons ?_ (.cons ?_ (.cons ?_ (.cons ?_ (.cons ?_ .nil)))))
  · intro _ _ parallel further
    exact selectionStatement_matches aligned inner parallel (by omega)
  · intro _ _ parallel further
    exact returnStatement_matches aligned inner parallel (by omega)
  · intro _ _ parallel further
    exact iterationStatement_matches aligned inner parallel (by omega)
  · intro _ _ parallel further
    exact .map (compound_matches aligned inner parallel equals (by omega))
      fun _ _ alike => congrArg Statement.compound alike
  · intro _ _ parallel further
    exact .map (declaration_matches aligned inner parallel semicolon (by omega))
      fun _ _ alike => congrArg Statement.declaration alike
  · intro _ _ parallel further
    exact expressionStatement_matches aligned inner parallel semicolon (by omega)

end CppsFrontend.Grammar
