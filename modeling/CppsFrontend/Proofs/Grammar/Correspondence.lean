import CppsFrontend.Proofs.Grammar.Correspondence.Statements

/-!
# The productions on corresponding streams

Every production does the same at corresponding positions.  What is nested in a production
is only reached behind a token of its own, so it has to match from one place further on
only; the comparison of two files starts from nothing.
-/

set_option autoImplicit false

namespace CppsFrontend

namespace Grammar

open Production

variable {comparison : Comparison} {reporting : Reporting} {start₁ start₂ : State}
variable {nested₁ nested₂ : Nested} {bound : Nat}

/-! ## All productions -/

theorem matchesNested_deepen (aligned : comparison.Aligned)
    (inner : MatchesNested comparison reporting (bound + 1) nested₁ nested₂) :
    MatchesNested comparison reporting bound (deepen nested₁) (deepen nested₂) where
  sound := soundNested_deepen inner.sound
  statement semicolon _ _ _ _ equals parallel within :=
    statement_matches aligned inner parallel semicolon equals (Nat.succ_le_succ within)
  expression parallel within :=
    expression_matches aligned inner parallel true (Nat.succ_le_succ within)
  declaration semicolon _ _ parallel within :=
    declaration_matches aligned inner parallel semicolon (Nat.succ_le_succ within)

/-- Productions of two depths match where the rest of the first stream is not longer than
either depth. -/
theorem matchesNested_productions (aligned : comparison.Aligned) (depth more bound : Nat)
    (enough : comparison.first.size < bound + depth) :
    MatchesNested comparison reporting bound (productions depth)
      (productions (depth + more)) := by
  induction depth generalizing bound with
  | zero =>
      -- No state of the comparison is that far.
      have beyond : ∀ {start₁ start₂ : State}, comparison.Parallel start₁ start₂ →
          bound ≤ start₁.position → False := by
        intro start₁ start₂ parallel within
        have inside := parallel.inside
        omega
      exact ⟨soundNested_none, fun _ _ _ _ _ _ parallel within => (beyond parallel within).elim,
        fun parallel within => (beyond parallel within).elim,
        fun _ _ _ parallel within => (beyond parallel within).elim⟩
  | succ depth induction =>
      rw [Nat.add_right_comm, productions_succ, productions_succ]
      exact matchesNested_deepen aligned (induction (bound + 1) (by omega))

/-! ## Files -/

theorem fileRound_matches (aligned : comparison.Aligned)
    (inner : MatchesNested comparison reporting 0 nested₁ nested₂)
    (parallel : comparison.Parallel start₁ start₂) :
    Matches comparison reporting (fileRound nested₁) (fileRound nested₂) start₁ start₂ := by
  refine .isAtEnd aligned parallel ?_
  split
  · exact .pure parallel rfl
  · refine .attempt (.orReject aligned parallel
      (declaration_matches aligned inner parallel true (Nat.zero_le _))) ?_ ?_
    · intro _ _ _ _ _ alike parallel _
      exact .pure parallel (congrArg Round.more alike)
    · intro _ _ parallel _
      exact .pure parallel rfl

theorem file_matches (aligned : comparison.Aligned)
    (inner : MatchesNested comparison reporting 0 nested₁ nested₂)
    (parallel : comparison.Parallel start₁ start₂) :
    Matches comparison reporting (file nested₁) (file nested₂) start₁ start₂ :=
  .collect aligned (fun _ _ parallel _ => fileRound_matches aligned inner parallel) parallel
    (Nat.zero_le _)

theorem Comparison.Alike.getD {α : Type} [Relocatable α] {result₁ result₂ : Option (List α)}
    (alike : comparison.Alike result₁ result₂) :
    comparison.Alike (result₁.getD []) (result₂.getD []) := by
  cases result₁ with
  | none =>
      cases result₂ with
      | none => rfl
      | some => cases alike
  | some =>
      cases result₂ with
      | none => cases alike
      | some => exact Option.some.inj alike

end Grammar

end CppsFrontend
