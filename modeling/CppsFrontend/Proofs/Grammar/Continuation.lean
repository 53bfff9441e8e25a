import CppsFrontend.Proofs.Grammar.Braces

/-!
# Runs where more tokens follow

A text that ends with a token which closes declarations, and the same text with more
behind it.  As long as a production stays inside of the text it does the same in both; the
token that closes is the last one it can pass.  Where it has passed that token, what
follows is a matter of the whole text, but over the part alone there is a report then,
unless nothing more is needed.  `Carries` says this of a production at a state, and there
is one statement for each way to build a production.  All runs are in the filtered mode.
-/

set_option autoImplicit false

namespace CppsFrontend.Grammar

/-- A text with more behind it.  Its last token may close a declaration, and what is behind
it is not the other branch of a selection. -/
structure Continued (part whole : TokenStream) : Prop where
  size : part.size ≤ whole.size
  token : ∀ place, place < part.size → whole.get place = part.get place
  last : ∀ place, place + 1 = part.size → IsClosing (part.get place).lexeme
  behind : (whole.get part.size).lexeme ≠ .keyword .elseWord

namespace Continued

variable {part whole : TokenStream} {place : Nat}

theorem before (continued : Continued part whole) (within : place ≤ part.size) :
    whole.before place = part.before place := by
  cases place with
  | zero => rfl
  | succ place => exact continued.token place within

theorem reportLocation (continued : Continued part whole) (within : place < part.size) :
    whole.reportLocation place = part.reportLocation place := by
  rw [reportLocation_eq within, reportLocation_eq (Nat.lt_of_lt_of_le within continued.size),
    continued.token place within]

theorem next (continued : Continued part whole) {lexeme : Lexeme} (within : place < part.size)
    (found : (part.get place).lexeme = lexeme) (inner : ¬ IsClosing lexeme) :
    place + 1 < part.size := by
  rcases Nat.lt_or_eq_of_le (Nat.succ_le_of_lt within) with further | ended
  · exact further
  · exact absurd (found ▸ continued.last place ended) inner

end Continued

/-- How far a production may get: it stops before the last token, it may pass that token and
is complete then, or it may want more behind it. -/
inductive Ending where
  | inner
  | closing
  | loose
deriving DecidableEq

def Ending.of : Bool → Ending
  | true => .closing
  | false => .loose

theorem Ending.of_ne_inner (semicolon : Bool) : Ending.of semicolon ≠ .inner := by
  cases semicolon <;> decide

namespace Production

variable {α β : Type}

/-- What a production does behind the last token of a text: it reports something and fails,
or there is nothing that it needs. -/
inductive Ended (part : TokenStream) (ending : Ending) (production : Production α)
    (state : State) : Prop where
  | rejected {after : State} (run : production ⟨part, .filtered⟩ state = (none, after))
      (grown : state.reports.size < after.reports.size)
  | wanting {value : α} {after : State} (loose : ending = .loose)
      (run : production ⟨part, .filtered⟩ state = (some value, after))
      (silent : after.reports = state.reports) (ends : after.position = part.size)

/-- What a production does in a part of a text: it reports something and ends in failure or
in a doomed value; or it does the same in the whole text and ends inside of the part or
behind it; or it ends behind the part, and wants to see more. -/
inductive Carries (part whole : TokenStream) (doomed : α → State → Prop) (ending : Ending)
    (production : Production α) (state : State) : Prop where
  | reported {result : Option α} {after : State}
      (run : production ⟨part, .filtered⟩ state = (result, after))
      (spoiled : ∀ value, result = some value → doomed value after)
      (grown : state.reports.size < after.reports.size)
  | inside {result : Option α} {after : State}
      (run : production ⟨part, .filtered⟩ state = (result, after))
      (same : production ⟨whole, .filtered⟩ state = (result, after))
      (silent : after.reports = state.reports) (within : after.position < part.size)
  | closed {value : α} {after : State} (closes : ending ≠ .inner)
      (run : production ⟨part, .filtered⟩ state = (some value, after))
      (same : production ⟨whole, .filtered⟩ state = (some value, after))
      (silent : after.reports = state.reports) (ends : after.position = part.size)
  | wanting {value : α} {after : State} (loose : ending = .loose)
      (run : production ⟨part, .filtered⟩ state = (some value, after))
      (silent : after.reports = state.reports) (ends : after.position = part.size)

abbrev Persists (part whole : TokenStream) (ending : Ending) (production : Production α)
    (state : State) : Prop :=
  Carries part whole (fun _ _ => False) ending production state

variable {part whole : TokenStream} {opening ending : Ending} {state middle after : State}
variable {production : Production α} {next : α → Production β}
variable {doomed : α → State → Prop} {lost : β → State → Prop}

/-! ## Behind the text -/

namespace Ended

theorem carries (ended : Ended part ending production state) :
    Carries part whole doomed ending production state := by
  cases ended with
  | rejected run grown => exact .reported run nofun grown
  | wanting loose run silent ends => exact .wanting loose run silent ends

theorem later {other : Production α}
    (run : other ⟨part, .filtered⟩ state = production ⟨part, .filtered⟩ middle)
    (silent : middle.reports = state.reports) (rest : Ended part ending production middle) :
    Ended part ending other state := by
  cases rest with
  | rejected rejects grown => exact .rejected (run.trans rejects) (silent ▸ grown)
  | wanting loose ends kept behind =>
      exact .wanting loose (run.trans ends) (kept.trans silent) behind

theorem reject {error : GrammarError} {location : Location} :
    Ended part ending (reject error location : Production α) state :=
  .rejected rfl (by simp)

theorem pure {value : α} (loose : ending = .loose) (ends : state.position = part.size) :
    Ended part ending (Pure.pure value) state :=
  .wanting loose rfl rfl ends

/-- A sequence that goes on behind the text. -/
theorem bind (first : Ended part opening production state)
    (rest : opening = .loose → ∀ value middle, middle.position = part.size →
      Ended part ending (next value) middle) :
    Ended part ending (production >>= next) state := by
  cases first with
  | rejected run grown => exact .rejected (bind_of_none next run) grown
  | wanting loose run silent ends =>
      exact .later (bind_of_some next run) silent (rest loose _ _ ends)

/-- A sequence whose first production needs more than there is. -/
theorem needed (first : Ended part .inner production state) :
    Ended part ending (production >>= next) state :=
  .bind first nofun

theorem get_behind (ends : state.position = part.size) :
    part.get state.position = .invalid :=
  part.get_of_size_le _ (Nat.le_of_eq ends.symm)

theorem check {lexeme : Lexeme} {next : Bool → Production β} (valid : lexeme ≠ .invalid)
    (ends : state.position = part.size) (rest : Ended part ending (next false) state) :
    Ended part ending (Production.check lexeme >>= next) state := by
  have missing : (part.get state.position).lexeme ≠ lexeme := by
    rw [get_behind ends]
    exact valid.symm
  exact .later (by rw [check_bind, decide_eq_false missing]) rfl rest

theorem eat {lexeme : Lexeme} {next : Option TokenId → Production β}
    (valid : lexeme ≠ .invalid) (ends : state.position = part.size)
    (rest : Ended part ending (next none) state) :
    Ended part ending (Production.eat lexeme >>= next) state := by
  have missing : (part.get state.position).lexeme ≠ lexeme := by
    rw [get_behind ends]
    exact valid.symm
  exact .later (bind_of_some next (eat_none_run.mpr ⟨missing, rfl⟩)) rfl rest

theorem here {next : Location → Production β}
    (rest : Ended part ending (next (part.reportLocation state.position)) state) :
    Ended part ending (Production.here >>= next) state :=
  .later (here_bind next) rfl rest

theorem orReject {known : Location → Prop} {error : GrammarError}
    (diagnoses : Diagnoses part known production state)
    (fails : ∀ value after, production ⟨part, .filtered⟩ state ≠ (some value, after)) :
    Ended part ending (production.orReject error) state := by
  cases run : production.orReject error ⟨part, .filtered⟩ state with
  | mk result after =>
      cases result with
      | none => exact .rejected run (diagnoses.orReject_grows run)
      | some value => exact absurd (orReject_run.mp run) (fails value after)

theorem collectAfter_stop {round : Production (Round α)} (earlier : List α)
    (loose : ending = .loose) (ends : state.position = part.size)
    (run : round ⟨part, .filtered⟩ state = (some .stop, state)) :
    Ended part ending (collectAfter round earlier) state :=
  .wanting loose (Production.collectAfter_stop run) rfl ends

theorem collectAfter_rejected {round : Production (Round α)} (earlier : List α)
    (run : round ⟨part, .filtered⟩ state = (none, after))
    (grown : state.reports.size < after.reports.size) :
    Ended part ending (collectAfter round earlier) state :=
  .rejected (collectAfter_none run) grown

end Ended

/-! ## Sequences -/

namespace Carries

theorem mono (persists : Persists part whole ending production state) :
    Carries part whole doomed ending production state := by
  cases persists with
  | reported run spoiled grown =>
      exact .reported run (fun value same => (spoiled value same).elim) grown
  | inside run same silent within => exact .inside run same silent within
  | closed closes run same silent ends => exact .closed closes run same silent ends
  | wanting loose run silent ends => exact .wanting loose run silent ends

theorem later {other : Production α}
    (run : other ⟨part, .filtered⟩ state = production ⟨part, .filtered⟩ middle)
    (same : other ⟨whole, .filtered⟩ state = production ⟨whole, .filtered⟩ middle)
    (silent : middle.reports = state.reports)
    (rest : Carries part whole doomed ending production middle) :
    Carries part whole doomed ending other state := by
  cases rest with
  | reported runs spoiled grown => exact .reported (run.trans runs) spoiled (silent ▸ grown)
  | inside runs others kept within =>
      exact .inside (run.trans runs) (same.trans others) (kept.trans silent) within
  | closed closes runs others kept ends =>
      exact .closed closes (run.trans runs) (same.trans others) (kept.trans silent) ends
  | wanting loose runs kept ends =>
      exact .wanting loose (run.trans runs) (kept.trans silent) ends

theorem pure {value : α} (within : state.position < part.size) :
    Carries part whole doomed ending (Pure.pure value) state :=
  .inside rfl rfl rfl within

theorem done {value : α} (closes : ending ≠ .inner) (within : state.position ≤ part.size) :
    Carries part whole doomed ending (Pure.pure value) state := by
  rcases Nat.lt_or_eq_of_le within with within | ends
  · exact .pure within
  · exact .closed closes rfl rfl rfl ends

theorem fail (within : state.position < part.size) :
    Carries part whole doomed ending (fail : Production α) state :=
  .inside rfl rfl rfl within

theorem reject {error : GrammarError} {location : Location} :
    Carries part whole doomed ending (reject error location : Production α) state :=
  Ended.reject.carries

/-- A sequence, by where its first production ends.  Behind a doomed value nothing further
is reported, and what comes of it is doomed. -/
theorem sequence (first : Carries part whole doomed opening production state)
    (rest : ∀ value middle, production ⟨part, .filtered⟩ state = (some value, middle) →
      middle.position < part.size → middle.reports = state.reports →
        Carries part whole lost ending (next value) middle)
    (behind : opening ≠ .inner → ∀ value middle,
      production ⟨part, .filtered⟩ state = (some value, middle) →
        middle.position = part.size → Carries part whole lost ending (next value) middle)
    (beyond : opening = .loose → ∀ value middle, middle.position = part.size →
      Ended part ending (next value) middle)
    (fails : ∀ value middle, production ⟨part, .filtered⟩ state = (some value, middle) →
      doomed value middle → state.reports.size < middle.reports.size →
        Doomed lost middle (next value ⟨part, .filtered⟩ middle)) :
    Carries part whole lost ending (production >>= next) state := by
  cases first with
  | @reported result middle run spoiled grown =>
      cases result with
      | none => exact .reported (bind_of_none next run) nofun grown
      | some value =>
          obtain ⟨kept, doom⟩ := fails value middle run (spoiled value rfl) grown
          exact .reported (bind_of_some next run) doom (kept ▸ grown)
  | @inside result middle run same silent within =>
      cases result with
      | none => exact .inside (bind_of_none next run) (bind_of_none next same) silent within
      | some value =>
          exact .later (bind_of_some next run) (bind_of_some next same) silent
            (rest value middle run within silent)
  | @closed value middle closes run same silent ends =>
      exact .later (bind_of_some next run) (bind_of_some next same) silent
        (behind closes value middle run ends)
  | @wanting value middle loose run silent ends =>
      exact (Ended.later (bind_of_some next run) silent
        (beyond loose value middle ends)).carries

/-- What comes behind a production that stops before the last token. -/
theorem bind (first : Persists part whole .inner production state)
    (rest : ∀ value middle, production ⟨part, .filtered⟩ state = (some value, middle) →
      middle.position < part.size → Carries part whole lost ending (next value) middle) :
    Carries part whole lost ending (production >>= next) state :=
  first.sequence (fun value middle run within _ => rest value middle run within)
    (fun closes => absurd rfl closes) nofun (fun _ _ _ impossible => impossible.elim)

/-- What comes behind a production that may pass the last token, where something more is
needed to be complete. -/
theorem bindEnded (first : Persists part whole opening production state)
    (rest : ∀ value middle, production ⟨part, .filtered⟩ state = (some value, middle) →
      middle.position < part.size → Carries part whole lost ending (next value) middle)
    (behind : opening ≠ .inner → ∀ value middle,
      production ⟨part, .filtered⟩ state = (some value, middle) →
        middle.position = part.size → Ended part ending (next value) middle)
    (beyond : opening = .loose → ∀ value middle, middle.position = part.size →
      Ended part ending (next value) middle) :
    Carries part whole lost ending (production >>= next) state :=
  first.sequence (fun value middle run within _ => rest value middle run within)
    (fun closes value middle run ends => (behind closes value middle run ends).carries)
    beyond (fun _ _ _ impossible => impossible.elim)

theorem bindPure {function : α → β} (first : Persists part whole ending production state) :
    Persists part whole ending (production >>= fun value => Pure.pure (function value))
      state :=
  first.sequence (fun _ _ _ within _ => .pure within)
    (fun closes _ _ _ ends => .closed closes rfl rfl rfl ends)
    (fun loose _ _ ends => .pure loose ends) (fun _ _ _ impossible => impossible.elim)

theorem map (first : Persists part whole ending production state) (function : α → β) :
    Persists part whole ending (function <$> production) state :=
  .bindPure first

theorem restoring (within : state.position < part.size)
    (first : Persists part whole ending production state) :
    Persists part whole ending production.restoring state := by
  cases first with
  | @reported result after run spoiled grown =>
      cases result with
      | none => exact .reported (restoring_of_none run) nofun grown
      | some value => exact (spoiled value rfl).elim
  | @inside result after run same silent inside =>
      cases result with
      | none => exact .inside (restoring_of_none run) (restoring_of_none same) silent within
      | some value => exact .inside (restoring_of_some run) (restoring_of_some same) silent inside
  | closed closes run same silent ends =>
      exact .closed closes (restoring_of_some run) (restoring_of_some same) silent ends
  | wanting loose run silent ends => exact .wanting loose (restoring_of_some run) silent ends

/-! ## Tokens -/

section Reading

variable (continued : Continued part whole) (within : state.position < part.size)

include continued within

theorem current {next : Token → Production β}
    (rest : Carries part whole lost ending (next (part.get state.position)) state) :
    Carries part whole lost ending (Production.current >>= next) state :=
  .later (current_bind next) (by rw [current_bind, continued.token _ within]) rfl rest

theorem lexeme {next : Lexeme → Production β}
    (rest : Carries part whole lost ending (next (part.get state.position).lexeme) state) :
    Carries part whole lost ending (Production.lexeme >>= next) state :=
  .later (lexeme_bind next) (by rw [lexeme_bind, continued.token _ within]) rfl rest

theorem check {lexeme : Lexeme} {next : Bool → Production β}
    (rest : Carries part whole lost ending
      (next (decide ((part.get state.position).lexeme = lexeme))) state) :
    Carries part whole lost ending (Production.check lexeme >>= next) state :=
  .later (check_bind next) (by rw [check_bind, continued.token _ within]) rfl rest

theorem here {next : Location → Production β}
    (rest : Carries part whole lost ending (next (part.reportLocation state.position))
      state) :
    Carries part whole lost ending (Production.here >>= next) state :=
  .later (here_bind next) (by rw [here_bind, continued.reportLocation within]) rfl rest

theorem advance {next : TokenId → Production β}
    (rest : Carries part whole lost ending (next state.position) state.next) :
    Carries part whole lost ending (Production.advance >>= next) state :=
  .later (advance_bind within next)
    (advance_bind (Nat.lt_of_lt_of_le within continued.size) next) rfl rest

theorem advanced (further : state.next.position < part.size) :
    Persists part whole ending Production.advance state :=
  .inside ((advance_run within).mpr ⟨rfl, rfl⟩)
    ((advance_run (Nat.lt_of_lt_of_le within continued.size)).mpr ⟨rfl, rfl⟩) rfl further

theorem expect {lexeme : Lexeme} {next : TokenId → Production β} (valid : lexeme ≠ .invalid)
    (inner : ¬ IsClosing lexeme)
    (found : (part.get state.position).lexeme = lexeme → state.next.position < part.size →
      Carries part whole lost ending (next state.position) state.next) :
    Carries part whole lost ending (Production.expect lexeme >>= next) state := by
  have token := continued.token _ within
  by_cases here : (part.get state.position).lexeme = lexeme
  · have there : (whole.get state.position).lexeme = lexeme := token ▸ here
    exact .later (bind_of_some next ((expect_run valid).mpr ⟨here, rfl, rfl⟩))
      (bind_of_some next ((expect_run valid).mpr ⟨there, rfl, rfl⟩)) rfl
      (found here (continued.next within here inner))
  · have there : (whole.get state.position).lexeme ≠ lexeme := token ▸ here
    exact .inside (bind_of_none next (expect_none_run.mpr ⟨here, rfl⟩))
      (bind_of_none next (expect_none_run.mpr ⟨there, rfl⟩)) rfl within

theorem eat {lexeme : Lexeme} {next : Option TokenId → Production β}
    (valid : lexeme ≠ .invalid)
    (found : (part.get state.position).lexeme = lexeme →
      Carries part whole lost ending (next (some state.position)) state.next)
    (missing : (part.get state.position).lexeme ≠ lexeme →
      Carries part whole lost ending (next none) state) :
    Carries part whole lost ending (Production.eat lexeme >>= next) state := by
  have token := continued.token _ within
  by_cases here : (part.get state.position).lexeme = lexeme
  · have there : (whole.get state.position).lexeme = lexeme := token ▸ here
    exact .later (bind_of_some next ((eat_run valid).mpr ⟨here, rfl, rfl⟩))
      (bind_of_some next ((eat_run valid).mpr ⟨there, rfl, rfl⟩)) rfl (found here)
  · have there : (whole.get state.position).lexeme ≠ lexeme := token ▸ here
    exact .later (bind_of_some next (eat_none_run.mpr ⟨here, rfl⟩))
      (bind_of_some next (eat_none_run.mpr ⟨there, rfl⟩)) rfl (missing here)

theorem eaten {lexeme : Lexeme} (valid : lexeme ≠ .invalid) (inner : ¬ IsClosing lexeme) :
    Persists part whole ending (Production.eat lexeme) state := by
  have token := continued.token _ within
  by_cases here : (part.get state.position).lexeme = lexeme
  · have there : (whole.get state.position).lexeme = lexeme := token ▸ here
    exact .inside ((eat_run valid).mpr ⟨here, rfl, rfl⟩) ((eat_run valid).mpr ⟨there, rfl, rfl⟩)
      rfl (continued.next within here inner)
  · have there : (whole.get state.position).lexeme ≠ lexeme := token ▸ here
    exact .inside (eat_none_run.mpr ⟨here, rfl⟩) (eat_none_run.mpr ⟨there, rfl⟩) rfl within

end Reading

theorem previous {next : Token → Production β} (continued : Continued part whole)
    (within : state.position ≤ part.size)
    (rest : Carries part whole lost ending (next (part.before state.position)) state) :
    Carries part whole lost ending (Production.previous >>= next) state :=
  .later (previous_bind next) (by rw [previous_bind, continued.before within]) rfl rest

/-- A token further on, where it makes no difference or is inside of the part. -/
theorem peek {distance : Nat} {next : Token → Production β}
    (same : next (whole.get (state.position + distance)) =
      next (part.get (state.position + distance)))
    (rest : Carries part whole lost ending (next (part.get (state.position + distance)))
      state) :
    Carries part whole lost ending (Production.peek distance >>= next) state :=
  .later (peek_bind next) (by rw [peek_bind, same]) rfl rest

theorem position {next : Nat → Production β}
    (rest : Carries part whole lost ending (next state.position) state) :
    Carries part whole lost ending (Production.position >>= next) state :=
  .later (position_bind next) (position_bind next) rfl rest

theorem reportCount {next : Nat → Production β}
    (rest : Carries part whole lost ending (next state.reports.size) state) :
    Carries part whole lost ending (Production.reportCount >>= next) state :=
  .later (reportCount_bind next) (reportCount_bind next) rfl rest

/-! ## Failures -/

/-- What is tried fails behind a report or without one.  Without one, both runs go on. -/
theorem attempt {next : Option α → Production β}
    (first : Persists part whole opening production state)
    (success : ∀ value middle, production ⟨part, .filtered⟩ state = (some value, middle) →
      middle.position < part.size →
        Carries part whole lost ending (next (some value)) middle)
    (behind : opening ≠ .inner → ∀ value middle, middle.position = part.size →
      Carries part whole lost ending (next (some value)) middle)
    (beyond : opening = .loose → ∀ value middle, middle.position = part.size →
      Ended part ending (next (some value)) middle)
    (failure : ∀ middle, middle.position < part.size → middle.reports = state.reports →
      Carries part whole lost ending (next none) middle)
    (fails : ∀ middle, production ⟨part, .filtered⟩ state = (none, middle) →
      state.reports.size < middle.reports.size →
        Doomed lost middle (next none ⟨part, .filtered⟩ middle)) :
    Carries part whole lost ending (production.outcome >>= next) state := by
  cases first with
  | @reported result middle run spoiled grown =>
      cases result with
      | none =>
          obtain ⟨kept, doom⟩ := fails middle run grown
          exact .reported (bind_of_some next (outcome_of run)) doom (kept ▸ grown)
      | some value => exact (spoiled value rfl).elim
  | @inside result middle run same silent within =>
      refine .later (bind_of_some next (outcome_of run)) (bind_of_some next (outcome_of same))
        silent ?_
      cases result with
      | none => exact failure middle within silent
      | some value => exact success value middle run within
  | @closed value middle closes run same silent ends =>
      exact .later (bind_of_some next (outcome_of run)) (bind_of_some next (outcome_of same))
        silent (behind closes value middle ends)
  | @wanting value middle loose run silent ends =>
      exact (Ended.later (bind_of_some next (outcome_of run)) silent
        (beyond loose value middle ends)).carries

/-- What is tried reports nothing, and may fail in any way. -/
theorem attemptSilent {next : Option α → Production β}
    (silent : Diagnoses part (fun _ => False) production state)
    (first : Persists part whole .inner production state)
    (rest : ∀ result middle, production ⟨part, .filtered⟩ state = (result, middle) →
      middle.position < part.size → Carries part whole lost ending (next result) middle) :
    Carries part whole lost ending (production.outcome >>= next) state := by
  obtain ⟨found, middle, runs, kept⟩ := silent.same
  have run := runs .filtered
  cases first with
  | reported runs spoiled grown =>
      cases run.symm.trans runs
      rw [kept] at grown
      exact absurd grown (Nat.lt_irrefl _)
  | inside runs same unchanged within =>
      exact .later (bind_of_some next (outcome_of runs)) (bind_of_some next (outcome_of same))
        unchanged (rest _ _ runs within)
  | closed closes => exact absurd rfl closes
  | wanting loose => cases loose

theorem either {first second : Production α}
    (silent : Diagnoses part (fun _ => False) first state)
    (begins : Persists part whole .inner first state)
    (other : ∀ middle, middle.position < part.size →
      Persists part whole ending second middle) :
    Persists part whole ending (either first second) state := by
  refine .attemptSilent silent begins ?_
  intro result middle run within
  cases result with
  | none => exact other middle within
  | some value => exact .pure within

theorem followOn {before : Nat} {error : GrammarError} {location : Location}
    (unexplained : before = state.reports.size) :
    Persists part whole ending
      (reportFollowOn before error location >>= fun _ => (Production.fail : Production α))
      state := by
  refine .reported (reportFollowOn_bind _) nofun ?_
  simp [unexplained]

theorem orRejectAt {error : GrammarError} {location : Location}
    (first : Persists part whole ending production state) :
    Persists part whole ending (production.orRejectAt error location) state := by
  refine .reportCount (.attempt first ?_ ?_ ?_ ?_ ?_)
  · intro value middle _ within
    exact .pure within
  · intro closes value middle ends
    exact .closed closes rfl rfl rfl ends
  · intro loose value middle ends
    exact .pure loose ends
  · intro middle _ silent
    exact .followOn (congrArg Array.size silent.symm)
  · intro middle _ explained
    simp only [Agrees.followOn_filtered explained]
    exact ⟨rfl, nofun⟩

theorem orReject {error : GrammarError} (continued : Continued part whole)
    (first : Persists part whole ending production state) :
    Persists part whole ending (production.orReject error) state := by
  refine .reportCount (.attempt first ?_ ?_ ?_ ?_ ?_)
  · intro value middle _ within
    exact .pure within
  · intro closes value middle ends
    exact .closed closes rfl rfl rfl ends
  · intro loose value middle ends
    exact .pure loose ends
  · intro middle within silent
    exact .here continued within (.followOn (congrArg Array.size silent.symm))
  · intro middle _ explained
    simp only [here_bind, Agrees.followOn_filtered explained]
    exact ⟨rfl, nofun⟩

/-! ## Choice and repetition -/

theorem firstOf {before : Nat} {productions : List (Production α)}
    (each : ∀ production ∈ productions, ∀ state, state.position < part.size →
      Persists part whole ending production state)
    (count : before = state.reports.size) (within : state.position < part.size) :
    Persists part whole ending (firstOf before productions) state := by
  induction productions generalizing state with
  | nil => exact .fail within
  | cons production rest induction =>
      obtain ⟨head, tail⟩ := List.forall_mem_cons.mp each
      refine .attempt (head state within) ?_ ?_ ?_ ?_ ?_
      · intro value middle _ within
        exact .pure within
      · intro closes value middle ends
        exact .closed closes rfl rfl rfl ends
      · intro loose value middle ends
        exact .pure loose ends
      · intro middle within silent
        have same : before = middle.reports.size := by rw [count, silent]
        refine .later ?_ ?_ rfl (induction tail same within)
        · simp [isExplained_bind, same]
        · simp [isExplained_bind, same]
      · intro middle _ explained
        rw [← count] at explained
        simp only [isExplained_bind, explained, decide_true, Bool.and_true, if_true]
        exact ⟨rfl, nofun⟩

/-- A repetition.  Behind the last token the rounds are over, or one of them is rejected. -/
theorem collectAfter {round : Production (Round α)} {stuck : State → Prop}
    (continued : Continued part whole)
    (each : ∀ state, state.position < part.size →
      Carries part whole (fun asked after => asked = .stop ∧ stuck after) ending round state)
    (tail : ending ≠ .inner → ∀ earlier state, state.position = part.size →
      Ended part ending (collectAfter round earlier) state)
    (earlier : List α) (state : State) (within : state.position < part.size) :
    Carries part whole (fun _ after => stuck after) ending (collectAfter round earlier)
      state := by
  induction left : part.size - state.position using Nat.strongRecOn generalizing
    earlier state with
  | ind left induction =>
      subst left
      have size := continued.size
      cases each state within with
      | @reported result middle run spoiled grown =>
          cases result with
          | none => exact .reported (collectAfter_none run) nofun grown
          | some asked =>
              obtain ⟨rfl, stands⟩ := spoiled asked rfl
              exact .reported (collectAfter_stop run) (fun _ _ => stands) grown
      | @inside result middle run same silent inside =>
          rcases result with _ | (_ | value | value)
          · exact .inside (collectAfter_none run) (collectAfter_none same) silent inside
          · exact .inside (collectAfter_stop run) (collectAfter_stop same) silent inside
          · exact .inside (collectAfter_last run) (collectAfter_last same) silent inside
          · by_cases forward : state.position < middle.position
            · have less : part.size - middle.position < part.size - state.position := by omega
              refine .later (collectAfter_more run less) (collectAfter_more same ?_) silent
                (induction _ less (value :: earlier) middle inside rfl)
              simp only [remaining]
              omega
            · refine .inside (collectAfter_still run ?_) (collectAfter_still same ?_) silent
                inside
              all_goals
                simp only [remaining]
                omega
      | @closed asked middle closes run same silent ends =>
          rcases asked with _ | value | value
          · exact .closed closes (collectAfter_stop run) (collectAfter_stop same) silent ends
          · exact .closed closes (collectAfter_last run) (collectAfter_last same) silent ends
          · refine .later (collectAfter_more run ?_) (collectAfter_more same ?_) silent
              (tail closes (value :: earlier) middle ends).carries
            all_goals
              simp only [remaining]
              omega
      | @wanting asked middle loose run silent ends =>
          rcases asked with _ | value | value
          · exact .wanting loose (collectAfter_stop run) silent ends
          · exact .wanting loose (collectAfter_last run) silent ends
          · have closes : ending ≠ .inner := by
              rw [loose]
              decide
            refine (Ended.later (collectAfter_more run ?_) silent
              (tail closes (value :: earlier) middle ends)).carries
            simp only [remaining]
            omega

theorem collect {round : Production (Round α)} (continued : Continued part whole)
    (each : ∀ state, state.position < part.size → Persists part whole ending round state)
    (tail : ending ≠ .inner → ∀ earlier state, state.position = part.size →
      Ended part ending (Production.collectAfter round earlier) state)
    (within : state.position < part.size) :
    Persists part whole ending (collect round) state :=
  collectAfter continued (fun state within => mono (each state within)) tail [] state within

theorem collectInner {round : Production (Round α)} (continued : Continued part whole)
    (each : ∀ state, state.position < part.size → Persists part whole .inner round state)
    (within : state.position < part.size) :
    Persists part whole ending (Production.collect round) state := by
  cases collect continued each (fun closes => absurd rfl closes) within with
  | reported run spoiled grown => exact .reported run spoiled grown
  | inside run same silent within => exact .inside run same silent within
  | closed closes => exact absurd rfl closes
  | wanting loose => cases loose

end Carries

end Production

end CppsFrontend.Grammar
