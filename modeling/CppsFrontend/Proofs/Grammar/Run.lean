import CppsFrontend.Grammar.Production

/-!
# Runs of productions

What a production has done when it has derived a value: one statement for each way
to build a production.  The statements open a production from its first step to its
last.  `Rounds` is the run of a repetition, and `KeepsPlace` says of a production
that it leaves the position alone when it fails.
-/

set_option autoImplicit false

namespace CppsFrontend

namespace TokenStream

theorem get_of_size_le (stream : TokenStream) (place : Nat) (past : stream.size ≤ place) :
    stream.get place = .invalid := by
  have missing : stream.tokens[place]? = none := Array.getElem?_eq_none past
  rw [get, missing]
  rfl

theorem lt_size_of_lexeme (stream : TokenStream) (place : Nat)
    (valid : (stream.get place).lexeme ≠ .invalid) : place < stream.size := by
  apply Nat.lt_of_not_le
  intro past
  apply valid
  rw [stream.get_of_size_le place past]
  rfl

theorem isPast_eq_false_iff (stream : TokenStream) (place : Nat) :
    stream.isPast place = false ↔ place < stream.size := by
  simp [isPast]

end TokenStream

namespace Grammar

def State.next (state : State) : State := { state with position := state.position + 1 }

@[simp] theorem State.next_position (state : State) :
    state.next.position = state.position + 1 := rfl

@[simp] theorem State.next_reports (state : State) : state.next.reports = state.reports := rfl

namespace Production

variable {α β : Type} {input : Input} {state after : State}

/-! ## Sequences -/

theorem bind_apply (production : Production α) (next : α → Production β) (input : Input)
    (state : State) :
    (production >>= next) input state =
      match production input state with
      | (some value, middle) => next value input middle
      | (none, middle) => (none, middle) := rfl

theorem bind_of_none {production : Production α} (next : α → Production β)
    (run : production input state = (none, after)) :
    (production >>= next) input state = (none, after) := by
  rw [bind_apply, run]

theorem bind_of_some {production : Production α} {value : α} (next : α → Production β)
    (run : production input state = (some value, after)) :
    (production >>= next) input state = next value input after := by
  rw [bind_apply, run]

theorem outcome_of {production : Production α} {result : Option α}
    (run : production input state = (result, after)) :
    production.outcome input state = (some result, after) := by
  simp only [outcome, run]

theorem restoring_of_none {production : Production α}
    (run : production input state = (none, after)) :
    production.restoring input state = (none, ⟨state.position, after.reports⟩) := by
  simp only [restoring, run]

theorem restoring_of_some {production : Production α} {value : α}
    (run : production input state = (some value, after)) :
    production.restoring input state = (some value, after) := by
  simp only [restoring, run]

@[simp] theorem pure_run {value result : α} :
    (pure value : Production α) input state = (some result, after) ↔
      result = value ∧ after = state := by
  constructor
  · intro run
    cases run
    exact ⟨rfl, rfl⟩
  · rintro ⟨rfl, rfl⟩
    rfl

@[simp] theorem bind_run {production : Production α} {next : α → Production β} {result : β} :
    (production >>= next) input state = (some result, after) ↔
      ∃ value middle, production input state = (some value, middle) ∧
        next value input middle = (some result, after) := by
  rw [bind_apply]
  constructor
  · intro run
    split at run
    · rename_i value middle first
      exact ⟨value, middle, first, run⟩
    · simp at run
  · rintro ⟨value, middle, first, second⟩
    rw [first]
    exact second

@[simp] theorem pure_step (value : α) (next : α → Production β) :
    ((pure value : Production α) >>= next) = next value := rfl

theorem bind_bind {γ : Type} (production : Production α) (next : α → Production β)
    (last : β → Production γ) :
    production >>= next >>= last = production >>= fun value => next value >>= last := by
  funext input state
  rw [bind_apply, bind_apply, bind_apply]
  cases production input state with
  | mk result after => cases result <;> rfl

@[simp] theorem ite_run {condition : Prop} [Decidable condition]
    (first second : Production α) :
    (if condition then first else second) input state =
      if condition then first input state else second input state := by
  split <;> rfl

@[simp] theorem map_run {function : α → β} {production : Production α} {result : β} :
    (function <$> production) input state = (some result, after) ↔
      ∃ value, production input state = (some value, after) ∧ result = function value := by
  change (production >>= fun value => pure (function value)) input state = _ ↔ _
  simp only [bind_run, pure_run]
  constructor
  · rintro ⟨value, middle, run, made, rfl⟩
    exact ⟨value, run, made⟩
  · rintro ⟨value, run, made⟩
    exact ⟨value, after, run, made, rfl⟩

@[simp] theorem fail_run {result : α} :
    ¬ (fail : Production α) input state = (some result, after) := by
  simp [fail]

@[simp] theorem outcome_run {production : Production α} {result : Option α} :
    production.outcome input state = (some result, after) ↔
      production input state = (result, after) := by
  simp [outcome, Prod.ext_iff]

@[simp] theorem restoring_run {production : Production α} {result : α} :
    production.restoring input state = (some result, after) ↔
      production input state = (some result, after) := by
  unfold restoring
  split
  · rename_i middle failed
    simp [failed]
  · rfl

/-! ## Tokens

What is read without a move is known, so a step that reads disappears. -/

section Reading

variable (next : Token → Production β)

@[simp] theorem current_bind :
    (current >>= next) input state = next (input.stream.get state.position) input state := rfl

@[simp] theorem peek_bind {distance : Nat} :
    (peek distance >>= next) input state =
      next (input.stream.get (state.position + distance)) input state := rfl

@[simp] theorem previous_bind :
    (previous >>= next) input state =
      next (input.stream.before state.position) input state := rfl

@[simp] theorem lexeme_bind (next : Lexeme → Production β) :
    (lexeme >>= next) input state =
      next (input.stream.get state.position).lexeme input state := rfl

@[simp] theorem check_bind {lexeme : Lexeme} (next : Bool → Production β) :
    (check lexeme >>= next) input state =
      next (decide ((input.stream.get state.position).lexeme = lexeme)) input state := rfl

@[simp] theorem isAtEnd_bind (next : Bool → Production β) :
    (isAtEnd >>= next) input state =
      next (input.stream.isPast state.position) input state := rfl

@[simp] theorem position_bind (next : Nat → Production β) :
    (position >>= next) input state = next state.position input state := rfl

@[simp] theorem here_bind (next : Location → Production β) :
    (here >>= next) input state =
      next (input.stream.reportLocation state.position) input state := rfl

@[simp] theorem reportCount_bind (next : Nat → Production β) :
    (reportCount >>= next) input state = next state.reports.size input state := rfl

@[simp] theorem isExplained_bind {before : Nat} (next : Bool → Production β) :
    (isExplained before >>= next) input state =
      next (input.reporting = .filtered && before < state.reports.size) input state := rfl

@[simp] theorem returnTo_bind {place : Nat} (next : Unit → Production β) :
    (returnTo place >>= next) input state =
      next () input { state with position := place } := rfl

end Reading

theorem advance_run {place : TokenId} (inside : state.position < input.stream.size) :
    advance input state = (some place, after) ↔
      place = state.position ∧ after = state.next := by
  have notPast := (input.stream.isPast_eq_false_iff state.position).mpr inside
  simp [advance, notPast, State.next, eq_comm]

theorem advance_bind (inside : state.position < input.stream.size)
    (next : TokenId → Production β) :
    (advance >>= next) input state = next state.position input state.next := by
  have run : advance input state = (some state.position, state.next) :=
    (advance_run inside).mpr ⟨rfl, rfl⟩
  rw [bind_apply, run]

@[simp] theorem expect_run {lexeme : Lexeme} {place : TokenId} (valid : lexeme ≠ .invalid) :
    expect lexeme input state = (some place, after) ↔
      (input.stream.get state.position).lexeme = lexeme ∧ place = state.position ∧
        after = state.next := by
  rw [expect, check_bind]
  by_cases same : (input.stream.get state.position).lexeme = lexeme
  · have inside := input.stream.lt_size_of_lexeme state.position (by rw [same]; exact valid)
    simp [same, advance_run inside]
  · simp [same]

theorem expect_none_run {lexeme : Lexeme} :
    expect lexeme input state = (none, after) ↔
      (input.stream.get state.position).lexeme ≠ lexeme ∧ after = state := by
  by_cases found : (input.stream.get state.position).lexeme = lexeme
  · simp [expect, bind_apply, check, found, advance]
  · simp [expect, bind_apply, check, found, fail, eq_comm]

@[simp] theorem eat_run {lexeme : Lexeme} {place : TokenId} (valid : lexeme ≠ .invalid) :
    eat lexeme input state = (some (some place), after) ↔
      (input.stream.get state.position).lexeme = lexeme ∧ place = state.position ∧
        after = state.next := by
  rw [eat, outcome_run, expect_run valid]

@[simp] theorem eat_none_run {lexeme : Lexeme} :
    eat lexeme input state = (some none, after) ↔
      (input.stream.get state.position).lexeme ≠ lexeme ∧ after = state := by
  rw [eat, outcome_run, expect_none_run]

/-! ## Reports -/

@[simp] theorem reject_run {error : GrammarError} {location : Location} {result : α} :
    ¬ (reject error location : Production α) input state = (some result, after) := by
  simp [reject]

@[simp] theorem orRejectAt_run {production : Production α} {error : GrammarError}
    {location : Location} {result : α} :
    production.orRejectAt error location input state = (some result, after) ↔
      production input state = (some result, after) := by
  simp only [orRejectAt, reportCount_bind, bind_run, outcome_run]
  constructor
  · rintro ⟨outcome, middle, run, rest⟩
    cases outcome with
    | none => simp at rest
    | some value =>
        obtain ⟨rfl, rfl⟩ := pure_run.mp rest
        exact run
  · intro run
    exact ⟨some result, after, run, by simp⟩

@[simp] theorem orReject_run {production : Production α} {error : GrammarError} {result : α} :
    production.orReject error input state = (some result, after) ↔
      production input state = (some result, after) := by
  simp only [orReject, reportCount_bind, bind_run, outcome_run]
  constructor
  · rintro ⟨outcome, middle, run, rest⟩
    cases outcome with
    | none => simp at rest
    | some value =>
        obtain ⟨rfl, rfl⟩ := pure_run.mp rest
        exact run
  · intro run
    exact ⟨some result, after, run, by simp⟩

theorem reportFollowOn_bind {before : Nat} {error : GrammarError} {location : Location}
    (next : Unit → Production β) :
    (reportFollowOn before error location >>= next) input state =
      next () input
        (if input.reporting = .filtered && before < state.reports.size then state
          else ⟨state.position, state.reports.push (error.entry location)⟩) := by
  have run : reportFollowOn before error location input state =
      (some (), if input.reporting = .filtered && before < state.reports.size then state
        else ⟨state.position, state.reports.push (error.entry location)⟩) := by
    rw [reportFollowOn, isExplained_bind]
    split
    · rfl
    · rfl
  exact bind_of_some next run

/-- A failure of `orReject` is where the production failed, and there is a report. -/
theorem orReject_none_run {production : Production α} {error : GrammarError}
    (run : production.orReject error input state = (none, after)) :
    ∃ middle, production input state = (none, middle) ∧
      after.position = middle.position ∧
        (state.reports.size < middle.reports.size ∧ after = middle ∨
          after.reports =
            middle.reports.push
              (error.entry (input.stream.reportLocation middle.position))) := by
  rw [orReject, reportCount_bind, bind_apply] at run
  cases first : production input state with
  | mk result middle =>
      rw [outcome_of first] at run
      cases result with
      | some value => cases run
      | none =>
          refine ⟨middle, rfl, ?_⟩
          simp only [here_bind, reportFollowOn_bind] at run
          cases run
          split
          · rename_i explained
            simp only [Bool.and_eq_true, decide_eq_true_eq] at explained
            exact ⟨rfl, .inl ⟨explained.2, rfl⟩⟩
          · exact ⟨rfl, .inr rfl⟩

/-! ## Choice -/

def KeepsPlace (production : Production α) : Prop :=
  ∀ input state after, production input state = (none, after) →
    after.position = state.position

theorem keepsPlace_restoring (production : Production α) : KeepsPlace production.restoring := by
  intro input state after run
  unfold restoring at run
  split at run
  · cases run
    rfl
  · rename_i succeeded
    rw [run] at succeeded
    exact absurd rfl (succeeded after)

theorem KeepsPlace.map {production : Production α} (keeps : KeepsPlace production)
    (function : α → β) : KeepsPlace (function <$> production) := by
  intro input state after run
  change (production >>= fun value => pure (function value)) input state = _ at run
  rw [bind_apply] at run
  split at run
  · cases run
  · rename_i middle failed
    cases run
    exact keeps input state after failed

theorem either_run {first second : Production α} {result : α} :
    either first second input state = (some result, after) ↔
      first input state = (some result, after) ∨
        ∃ middle, first input state = (none, middle) ∧
          second input middle = (some result, after) := by
  simp only [either, bind_run, outcome_run]
  constructor
  · rintro ⟨outcome, middle, run, rest⟩
    cases outcome with
    | none => exact .inr ⟨middle, run, rest⟩
    | some value =>
        obtain ⟨rfl, rfl⟩ := pure_run.mp rest
        exact .inl run
  · rintro (run | ⟨middle, failed, run⟩)
    · exact ⟨some result, after, run, by simp⟩
    · exact ⟨none, middle, failed, run⟩

theorem KeepsPlace.either {first second : Production α} (firstKeeps : KeepsPlace first)
    (secondKeeps : KeepsPlace second) : KeepsPlace (either first second) := by
  intro input state after run
  rw [Production.either, bind_apply] at run
  cases outcome : first input state with
  | mk value middle =>
      simp only [Production.outcome, outcome] at run
      cases value with
      | none =>
          rw [secondKeeps input middle after run]
          exact firstKeeps input state middle outcome
      | some value => cases run

/-- The alternative that succeeds begins where the first one began. -/
theorem firstOf_run {before : Nat} {productions : List (Production α)} {result : α}
    (keeps : ∀ production ∈ productions, KeepsPlace production)
    (run : firstOf before productions input state = (some result, after)) :
    ∃ production ∈ productions, ∃ middle, middle.position = state.position ∧
      production input middle = (some result, after) := by
  induction productions generalizing state with
  | nil => simp [firstOf] at run
  | cons production rest induction =>
      simp only [firstOf, bind_run, outcome_run] at run
      obtain ⟨outcome, middle, first, run⟩ := run
      cases outcome with
      | some value =>
          obtain ⟨rfl, rfl⟩ := pure_run.mp run
          exact ⟨production, by simp, state, rfl, first⟩
      | none =>
          simp only [isExplained_bind] at run
          split at run
          · simp at run
          · obtain ⟨chosen, member, start, same, success⟩ :=
              induction (fun other member => keeps other (by simp [member])) run
            have kept := keeps production (by simp) input state middle first
            exact ⟨chosen, by simp [member], start, same.trans kept, success⟩

/-! ## Repetition -/

/-- The rounds of a repetition that ends well, with their values. -/
inductive Rounds (round : Production (Round α)) (input : Input) :
    State → List α → State → Prop where
  | stop {state after : State} (run : round input state = (some .stop, after)) :
      Rounds round input state [] after
  | last {state after : State} {value : α}
      (run : round input state = (some (.last value), after)) :
      Rounds round input state [value] after
  | more {state middle after : State} {value : α} {values : List α}
      (run : round input state = (some (.more value), middle))
      (forward : remaining input middle < remaining input state)
      (rest : Rounds round input middle values after) :
      Rounds round input state (value :: values) after

section Collecting

variable {round : Production (Round α)} {earlier : List α}

theorem collectAfter_none (run : round input state = (none, after)) :
    collectAfter round earlier input state = (none, after) := by
  rw [collectAfter, run]

theorem collectAfter_stop (run : round input state = (some .stop, after)) :
    collectAfter round earlier input state = (some earlier.reverse, after) := by
  rw [collectAfter, run]

theorem collectAfter_last {value : α} (run : round input state = (some (.last value), after)) :
    collectAfter round earlier input state = (some (value :: earlier).reverse, after) := by
  rw [collectAfter, run]

theorem collectAfter_more {value : α} (run : round input state = (some (.more value), after))
    (forward : remaining input after < remaining input state) :
    collectAfter round earlier input state =
      collectAfter round (value :: earlier) input after := by
  rw [collectAfter, run]
  simp only [forward, if_true]

theorem collectAfter_still {value : α} (run : round input state = (some (.more value), after))
    (still : ¬ remaining input after < remaining input state) :
    collectAfter round earlier input state = (none, after) := by
  rw [collectAfter, run]
  simp only [still, if_false]

end Collecting

theorem rounds_of_collectAfter {round : Production (Round α)} {earlier values : List α}
    (run : collectAfter round earlier input state = (some values, after)) :
    ∃ later, values = earlier.reverse ++ later ∧ Rounds round input state later after := by
  fun_induction collectAfter round earlier input state with
  | case1 earlier state middle failed => simp at run
  | case2 earlier state middle stopped =>
      cases run
      exact ⟨[], by simp, .stop stopped⟩
  | case3 earlier state value middle ended =>
      cases run
      exact ⟨[value], by simp, .last ended⟩
  | case4 earlier state value middle continued forward induction =>
      obtain ⟨later, same, rounds⟩ := induction run
      exact ⟨value :: later, by simp [same], .more continued forward rounds⟩
  | case5 earlier state value middle continued still => simp at run

theorem collect_run {round : Production (Round α)} {values : List α}
    (run : collect round input state = (some values, after)) :
    Rounds round input state values after := by
  obtain ⟨later, rfl, rounds⟩ := rounds_of_collectAfter run
  exact rounds

end Production

end Grammar

end CppsFrontend
