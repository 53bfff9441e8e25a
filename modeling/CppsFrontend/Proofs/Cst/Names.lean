import CppsFrontend.Cst.Declaration
import CppsFrontend.Proofs.Cst.Mirroring
import CppsFrontend.Proofs.Grammar.Names

/-!
# Stored names

The storing productions for names mirror the productions for names.
-/

set_option autoImplicit false

namespace CppsFrontend

open Grammar Storing
open Production (eat)

variable {input : Input} {state after : State}

/-! ## Tokens that are read -/

section Tokens

variable {lexeme : Lexeme}

theorem lt_size_of_expect {token : TokenId} (valid : lexeme ≠ .invalid)
    (run : Production.expect lexeme input state = (some token, after)) :
    token < input.stream.size := by
  obtain ⟨same, rfl, rfl⟩ := (Production.expect_run valid).mp run
  exact input.stream.lt_size_of_lexeme state.position (same ▸ valid)

theorem lt_size_of_eat {result : Option TokenId} (valid : lexeme ≠ .invalid)
    (run : eat lexeme input state = (some result, after)) :
    ∀ token ∈ result, token < input.stream.size := by
  rintro token rfl
  obtain ⟨same, rfl, rfl⟩ := (Production.eat_run valid).mp run
  exact input.stream.lt_size_of_lexeme state.position (same ▸ valid)

theorem name_denotes [NodeKind.Layouts] {name : UnqualifiedIdentifier}
    (run : Grammar.unqualifiedIdentifier input state = (some name, after)) :
    Cst.UnqualifiedIdentifier.Denotes input.stream.size name name [] := by
  obtain ⟨leaves, derived, covers⟩ := unqualifiedIdentifier_sound run
  cases derived with
  | plainName place =>
      exact .intro nofun (covers.fits (.stored place .name) (by simp)).1
  | constantName constant place =>
      refine .intro ?_ (covers.fits (.stored place .name) (by simp)).1
      rintro token ⟨⟩
      exact (covers.fits (.stored constant (.exactly (.keyword .constWord))) (by simp)).1

end Tokens

/-! ## Productions -/

namespace Cst

variable [NodeKind.Layouts]

theorem unqualifiedIdentifier_mirrors :
    Mirrors input state [] unqualifiedIdentifier Grammar.unqualifiedIdentifier Held := by
  rw [← Grammar.unqualifiedIdentifier.bind_pure]
  exact .read fun name after run => .create (name_denotes run)

theorem scopedRound_mirrors :
    Mirrors input state [] scopedRound Grammar.scopedRound
      (OfRound (QualifiedTerm.Denotes input.stream.size)) := by
  refine .read fun scope after run => ?_
  have inside := lt_size_of_eat (by simp) run
  cases scope with
  | none => exact .pure .stop
  | some place =>
      refine .bind unqualifiedIdentifier_mirrors fun node name parts _ held => .pure ?_
      exact .more (.intro (inside place rfl) held)

theorem qualifiedIdentifier_mirrors :
    Mirrors input state [] qualifiedIdentifier Grammar.qualifiedIdentifier Held := by
  refine .restoring (.bind unqualifiedIdentifier_mirrors fun node name parts middle held => ?_)
  refine .read fun joined after run => ?_
  cases joined with
  | true =>
      refine .bind (.collect fun _ => scopedRound_mirrors) fun terms names others _ each => ?_
      exact .create (.intro held each)
  | false =>
      -- The name alone is given back, and its slot is free for the next one.
      cases held with
      | intro subtree => exact .destroying .fail

theorem identifierExpression_mirrors :
    Mirrors input state [] identifierExpression Grammar.identifierExpression Held := by
  refine .read fun token middle run => ?_
  refine .bind (?_ : Mirrors input middle [] _ _ Identifier.Denotes) ?_
  · refine .either (.wrap qualifiedIdentifier_mirrors fun _ _ _ held => .qualified held) ?_
    intro after
    exact .map unqualifiedIdentifier_mirrors fun _ _ _ held => .unqualified held
  · intro identifier name parts after denotes
    exact .create (.intro denotes)

end Cst

end CppsFrontend
