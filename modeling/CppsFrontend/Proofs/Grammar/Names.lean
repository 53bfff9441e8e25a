import CppsFrontend.Proofs.Grammar.Derivation
import CppsFrontend.Proofs.Grammar.Run

/-!
# Names are derived from their tokens

`Sound` says that whatever a production derives, it derives from exactly the tokens
that it has passed.  Names come first; they also keep the position when they fail.
-/

set_option autoImplicit false

namespace CppsFrontend.Grammar

open Production

variable {α : Type}

/-- A derived value can be written with the tokens that were passed for it. -/
def Sound (production : Production α) (phrase : α → Phrase) : Prop :=
  ∀ {input : Input} {state after : State} {value : α},
    production input state = (some value, after) →
      Derivable input.stream (phrase value) state.position after.position

theorem Leaf.fits_exactly {stream : TokenStream} (leaf : Leaf) {lexeme : Lexeme}
    (asked : leaf.terminal = .exactly lexeme)
    (found : (stream.get leaf.place).lexeme = lexeme) (valid : lexeme ≠ .invalid) :
    leaf.Fits stream := by
  refine ⟨stream.lt_size_of_lexeme leaf.place ?_, ?_⟩
  · rw [found]
    exact valid
  · rw [asked]
    exact found

theorem lt_size_of_naming {stream : TokenStream} {place : TokenId}
    (naming : isNaming (stream.get place).lexeme = true) : place < stream.size := by
  apply stream.lt_size_of_lexeme
  intro invalid
  rw [invalid] at naming
  exact absurd naming (by decide)

theorem unqualifiedIdentifier_sound : Sound unqualifiedIdentifier .name := by
  intro input state after name run
  simp only [unqualifiedIdentifier, restoring_run, check_bind, peek_bind, lexeme_bind, ite_run,
    pure_step, Bool.and_eq_true, decide_eq_true_eq] at run
  split at run
  · rename_i begins
    have opening : (Leaf.stored state.position (.exactly (.keyword .constWord))).Fits
        input.stream := Leaf.fits_exactly _ rfl begins.1 (by simp)
    obtain ⟨constant, middle, passed, run⟩ := bind_run.mp run
    obtain ⟨place, moved, rfl⟩ := map_run.mp passed
    obtain ⟨rfl, rfl⟩ := (advance_run opening.1).mp moved
    simp only [lexeme_bind, peek_bind, ite_run] at run
    split at run
    · rename_i found
      have inside := lt_size_of_naming found.1
      rw [advance_bind inside, pure_run] at run
      obtain ⟨rfl, rfl⟩ := run
      exact ⟨_, .constantName _ _, .cons _ opening (.single (.stored _ .name) ⟨inside, found⟩)⟩
    · exact absurd run fail_run
  · split at run
    · rename_i found
      have inside := lt_size_of_naming found.1
      rw [advance_bind inside, pure_run] at run
      obtain ⟨rfl, rfl⟩ := run
      exact ⟨_, .plainName _, .single (.stored _ .name) ⟨inside, found⟩⟩
    · exact absurd run fail_run

theorem unqualifiedIdentifier_keepsPlace : KeepsPlace unqualifiedIdentifier :=
  keepsPlace_restoring _

/-- A round for one more name ends without a move, or passes `::` and a name. -/
theorem scopedRound_run {input : Input} {state after : State} {round : Round ScopedIdentifier}
    (run : scopedRound input state = (some round, after)) :
    (round = .stop ∧ (input.stream.get state.position).lexeme ≠ .punctuator .doubleColon ∧
        after = state) ∨
      ∃ name, round = .more ⟨state.position, name⟩ ∧
        (input.stream.get state.position).lexeme = .punctuator .doubleColon ∧
        unqualifiedIdentifier input state.next = (some name, after) := by
  rw [scopedRound, bind_run] at run
  obtain ⟨scope, middle, eaten, made⟩ := run
  cases scope with
  | none =>
      obtain ⟨missing, rfl⟩ := eat_none_run.mp eaten
      obtain ⟨rfl, rfl⟩ := pure_run.mp made
      exact .inl ⟨rfl, missing, rfl⟩
  | some scope =>
      obtain ⟨found, rfl, rfl⟩ := (eat_run (by simp)).mp eaten
      obtain ⟨name, last, nameRun, made⟩ := bind_run.mp made
      obtain ⟨rfl, rfl⟩ := pure_run.mp made
      exact .inr ⟨name, rfl, found, nameRun⟩

theorem scopedRounds_sound {input : Input} {state after : State}
    {names : List ScopedIdentifier} (rounds : Rounds scopedRound input state names after) :
    Derivable input.stream (.scoped names) state.position after.position := by
  induction rounds with
  | stop run =>
      rcases scopedRound_run run with ⟨-, -, rfl⟩ | ⟨name, impossible, -⟩
      · exact ⟨[], .scopedNone, .nil _ _⟩
      · cases impossible
  | last run =>
      rcases scopedRound_run run with ⟨impossible, -⟩ | ⟨name, impossible, -⟩
      · cases impossible
      · cases impossible
  | @more state middle after name names run forward rest induction =>
      rcases scopedRound_run run with ⟨impossible, -⟩ | ⟨name, same, found, nameRun⟩
      · cases impossible
      · cases same
        obtain ⟨head, named, headCovers⟩ := unqualifiedIdentifier_sound nameRun
        obtain ⟨tail, more, tailCovers⟩ := induction
        have colons : (Leaf.stored state.position (.exactly (.punctuator .doubleColon))).Fits
            input.stream := Leaf.fits_exactly _ rfl found (by simp)
        exact ⟨_, .scopedMore named more, (Covers.cons _ colons headCovers).append tailCovers⟩

theorem scopedRounds_ne_nil {input : Input} {state after : State}
    {names : List ScopedIdentifier} (rounds : Rounds scopedRound input state names after)
    (found : (input.stream.get state.position).lexeme = .punctuator .doubleColon) :
    names ≠ [] := by
  cases rounds with
  | stop run =>
      rcases scopedRound_run run with ⟨-, missing, -⟩ | ⟨name, impossible, -⟩
      · exact absurd found missing
      · cases impossible
  | last run => simp
  | more run forward rest => simp

theorem qualifiedIdentifier_sound : Sound qualifiedIdentifier .identifier := by
  intro input state after identifier run
  rw [qualifiedIdentifier, restoring_run] at run
  obtain ⟨first, middle, firstRun, run⟩ := bind_run.mp run
  simp only [check_bind, ite_run, decide_eq_true_eq] at run
  split at run
  · rename_i found
    obtain ⟨names, last, collected, made⟩ := bind_run.mp run
    obtain ⟨rfl, rfl⟩ := pure_run.mp made
    have rounds := collect_run collected
    obtain ⟨head, named, headCovers⟩ := unqualifiedIdentifier_sound firstRun
    obtain ⟨tail, more, tailCovers⟩ := scopedRounds_sound rounds
    exact ⟨_, .qualified (scopedRounds_ne_nil rounds found) named more,
      headCovers.append tailCovers⟩
  · exact absurd run fail_run

theorem identifierExpression_sound :
    Sound identifierExpression .identifierExpression := by
  intro input state after expression run
  rw [identifierExpression, current_bind] at run
  obtain ⟨identifier, middle, chosen, made⟩ := bind_run.mp run
  obtain ⟨rfl, rfl⟩ := pure_run.mp made
  have derivable : Derivable input.stream (.identifier identifier) state.position
      after.position := by
    rcases either_run.mp chosen with qualifiedRun | ⟨middle, failed, plainRun⟩
    · exact qualifiedIdentifier_sound qualifiedRun
    · have kept := keepsPlace_restoring _ input state middle failed
      obtain ⟨name, nameRun, rfl⟩ := map_run.mp plainRun
      obtain ⟨leaves, derives, covers⟩ := unqualifiedIdentifier_sound nameRun
      rw [kept] at covers
      exact ⟨leaves, .unqualified derives, covers⟩
  have forward := derivable.start_lt_stop rfl
  obtain ⟨leaves, derives, covers⟩ := derivable
  rw [← covers.firstLocation_eq forward]
  exact ⟨leaves, .identifierExpression derives, covers⟩

theorem identifierExpression_keepsPlace : KeepsPlace identifierExpression := by
  intro input state after run
  have keeps : KeepsPlace
      (either qualifiedIdentifier (Identifier.unqualified <$> unqualifiedIdentifier)) :=
    (keepsPlace_restoring _).either (unqualifiedIdentifier_keepsPlace.map _)
  rw [identifierExpression, current_bind, bind_apply] at run
  split at run
  · cases run
  · rename_i middle failed
    cases run
    exact keeps input state after failed

end CppsFrontend.Grammar
