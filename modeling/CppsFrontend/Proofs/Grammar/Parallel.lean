import Mathlib.Data.List.Forall2
import CppsFrontend.Proofs.Grammar.Relocation
import CppsFrontend.Proofs.Grammar.Run

/-!
# Parallel runs

Two streams whose tokens correspond, the second one perhaps behind tokens of its own.
Productions that read corresponding tokens do the same at corresponding positions: both
fail or both derive, what they derive is alike, and so are their reports.  `Matches` says
this of two productions at two states, and there is one statement for each way to build a
production.
-/

set_option autoImplicit false

namespace CppsFrontend.Grammar

/-- A mark continues a postfix chain if one with the same lexeme does that touches the token
before it alike, and has the same lexeme behind it. -/
theorem continuesPostfix_alike {before₁ before₂ mark₁ mark₂ : Token} {after₁ after₂ : Lexeme}
    (mark : mark₁.lexeme = mark₂.lexeme) (after : after₁ = after₂)
    (touches : before₁.isAdjacentTo mark₁ = before₂.isAdjacentTo mark₂) :
    continuesPostfix before₁ mark₁ after₁ = continuesPostfix before₂ mark₂ after₂ := by
  rw [continuesPostfix, continuesPostfix, mark, after, touches]

/-- Two streams, how much further back a token stands in the second one, and what is
compared of a location. -/
structure Comparison where
  first : TokenStream
  second : TokenStream
  shift : Nat
  view : Location → Location

namespace Comparison

variable (comparison : Comparison)

def ahead : Relocation := ⟨(· + comparison.shift), comparison.view⟩

def viewed : Relocation := ⟨id, comparison.view⟩

def Alike {α : Type} [Relocatable α] (first second : α) : Prop :=
  relocate comparison.ahead first = relocate comparison.viewed second

@[simp] theorem ahead_token (place : TokenId) :
    comparison.ahead.token place = place + comparison.shift := rfl

@[simp] theorem ahead_location (location : Location) :
    comparison.ahead.location location = comparison.view location := rfl

@[simp] theorem viewed_token (place : TokenId) : comparison.viewed.token place = place := rfl

@[simp] theorem viewed_location (location : Location) :
    comparison.viewed.location location = comparison.view location := rfl

structure SameToken (first second : Token) : Prop where
  lexeme : first.lexeme = second.lexeme
  text : first.text = second.text
  location : comparison.view first.location = comparison.view second.location

/-- The tokens of the first stream are those of the second from the shift on, as far as
productions look at them. -/
structure Aligned : Prop where
  size : comparison.first.size + comparison.shift = comparison.second.size
  token : ∀ place, comparison.SameToken (comparison.first.get place)
    (comparison.second.get (place + comparison.shift))
  report : ∀ place, comparison.view (comparison.first.reportLocation place) =
    comparison.view (comparison.second.reportLocation (place + comparison.shift))
  continues : ∀ place, place + 1 < comparison.first.size →
    continuesPostfix (comparison.first.get place) (comparison.first.get (place + 1))
        (comparison.first.get (place + 2)).lexeme =
      continuesPostfix (comparison.second.get (place + comparison.shift))
        (comparison.second.get (place + 1 + comparison.shift))
        (comparison.second.get (place + 2 + comparison.shift)).lexeme
  opening : ∀ {equal₁ equal₂ : Option Location} {brace₁ brace₂ : Location},
    comparison.Alike equal₁ equal₂ → comparison.view brace₁ = comparison.view brace₂ →
      comparison.view (openingLocation equal₁ brace₁) =
        comparison.view (openingLocation equal₂ brace₂)

structure Parallel (first second : State) : Prop where
  position : second.position = first.position + comparison.shift
  reports : first.reports.map (relocate comparison.ahead) =
    second.reports.map (relocate comparison.viewed)
  inside : first.position ≤ comparison.first.size

end Comparison

namespace Production

instance {α : Type} [Relocatable α] : Relocatable (Round α) where
  relocate move
    | .stop => .stop
    | .last value => .last (relocate move value)
    | .more value => .more (relocate move value)

section Rounds

variable {α : Type} [Relocatable α] (move : Relocation)

@[simp] theorem relocate_stop : relocate move (Round.stop : Round α) = .stop := rfl

@[simp] theorem relocate_last (value : α) :
    relocate move (Round.last value) = .last (relocate move value) := rfl

@[simp] theorem relocate_more (value : α) :
    relocate move (Round.more value) = .more (relocate move value) := rfl

end Rounds

variable {α β : Type} [Relocatable α] [Relocatable β]

/-- What two productions do at two states is the same, and neither goes back behind its
start. -/
inductive Matches (comparison : Comparison) (reporting : Reporting)
    (first second : Production α) (start₁ start₂ : State) : Prop where
  | intro {result₁ result₂ : Option α} {after₁ after₂ : State}
      (run₁ : first ⟨comparison.first, reporting⟩ start₁ = (result₁, after₁))
      (run₂ : second ⟨comparison.second, reporting⟩ start₂ = (result₂, after₂))
      (alike : comparison.Alike result₁ result₂)
      (parallel : comparison.Parallel after₁ after₂)
      (forward : start₁.position ≤ after₁.position)

variable {comparison : Comparison} {reporting : Reporting}
variable {start₁ start₂ after₁ after₂ : State}
variable {first second : Production α} {next₁ next₂ : α → Production β}

namespace Matches

/-! ## Sequences -/

theorem later {other₁ other₂ : Production α} {middle₁ middle₂ : State}
    (same₁ : other₁ ⟨comparison.first, reporting⟩ start₁ =
      first ⟨comparison.first, reporting⟩ middle₁)
    (same₂ : other₂ ⟨comparison.second, reporting⟩ start₂ =
      second ⟨comparison.second, reporting⟩ middle₂)
    (forward : start₁.position ≤ middle₁.position)
    (rest : Matches comparison reporting first second middle₁ middle₂) :
    Matches comparison reporting other₁ other₂ start₁ start₂ := by
  cases rest with
  | intro run₁ run₂ alike parallel further =>
      exact .intro (same₁.trans run₁) (same₂.trans run₂) alike parallel
        (Nat.le_trans forward further)

theorem pure {value₁ value₂ : α} (parallel : comparison.Parallel start₁ start₂)
    (alike : comparison.Alike value₁ value₂) :
    Matches comparison reporting (Pure.pure value₁) (Pure.pure value₂) start₁ start₂ :=
  .intro rfl rfl (congrArg some alike) parallel (Nat.le_refl _)

theorem fail (parallel : comparison.Parallel start₁ start₂) :
    Matches comparison reporting (fail : Production α) fail start₁ start₂ :=
  .intro rfl rfl rfl parallel (Nat.le_refl _)

/-- A sequence.  The second parts start where the first ones have ended. -/
theorem bind (begins : Matches comparison reporting first second start₁ start₂)
    (rest : ∀ value₁ value₂ middle₁ middle₂,
      first ⟨comparison.first, reporting⟩ start₁ = (some value₁, middle₁) →
        comparison.Alike value₁ value₂ → comparison.Parallel middle₁ middle₂ →
          start₁.position ≤ middle₁.position →
            Matches comparison reporting (next₁ value₁) (next₂ value₂) middle₁ middle₂) :
    Matches comparison reporting (first >>= next₁) (second >>= next₂) start₁ start₂ := by
  cases begins with
  | @intro result₁ result₂ middle₁ middle₂ run₁ run₂ alike parallel forward =>
      cases result₁ with
      | none =>
          cases result₂ with
          | none =>
              exact .intro (bind_of_none next₁ run₁) (bind_of_none next₂ run₂) rfl parallel
                forward
          | some value₂ => cases alike
      | some value₁ =>
          cases result₂ with
          | none => cases alike
          | some value₂ =>
              exact .later (bind_of_some next₁ run₁) (bind_of_some next₂ run₂) forward
                (rest value₁ value₂ middle₁ middle₂ run₁ (Option.some.inj alike) parallel
                  forward)

theorem map (begins : Matches comparison reporting first second start₁ start₂)
    {function : α → β}
    (keeps : ∀ value₁ value₂, comparison.Alike value₁ value₂ →
      comparison.Alike (function value₁) (function value₂)) :
    Matches comparison reporting (function <$> first) (function <$> second) start₁ start₂ :=
  begins.bind fun value₁ value₂ _ _ _ alike parallel _ =>
    .pure parallel (keeps value₁ value₂ alike)

theorem restoring (start : comparison.Parallel start₁ start₂)
    (begins : Matches comparison reporting first second start₁ start₂) :
    Matches comparison reporting first.restoring second.restoring start₁ start₂ := by
  cases begins with
  | @intro result₁ result₂ middle₁ middle₂ run₁ run₂ alike parallel forward =>
      cases result₁ with
      | none =>
          cases result₂ with
          | none =>
              exact .intro (restoring_of_none run₁) (restoring_of_none run₂) rfl
                ⟨start.position, parallel.reports, start.inside⟩ (Nat.le_refl _)
          | some value₂ => cases alike
      | some value₁ =>
          cases result₂ with
          | none => cases alike
          | some value₂ =>
              exact .intro (restoring_of_some run₁) (restoring_of_some run₂) alike parallel
                forward

/-- What is tried goes on from where it ended, whether it failed or not. -/
theorem attempt {next₁ next₂ : Option α → Production β}
    (begins : Matches comparison reporting first second start₁ start₂)
    (success : ∀ value₁ value₂ middle₁ middle₂,
      first ⟨comparison.first, reporting⟩ start₁ = (some value₁, middle₁) →
        comparison.Alike value₁ value₂ → comparison.Parallel middle₁ middle₂ →
          start₁.position ≤ middle₁.position →
            Matches comparison reporting (next₁ (some value₁)) (next₂ (some value₂)) middle₁
              middle₂)
    (failure : ∀ middle₁ middle₂, comparison.Parallel middle₁ middle₂ →
      start₁.position ≤ middle₁.position →
        Matches comparison reporting (next₁ none) (next₂ none) middle₁ middle₂) :
    Matches comparison reporting (first.outcome >>= next₁) (second.outcome >>= next₂) start₁
      start₂ := by
  cases begins with
  | @intro result₁ result₂ middle₁ middle₂ run₁ run₂ alike parallel forward =>
      have same₁ := bind_of_some next₁ (outcome_of run₁)
      have same₂ := bind_of_some next₂ (outcome_of run₂)
      cases result₁ with
      | none =>
          cases result₂ with
          | none => exact .later same₁ same₂ forward (failure middle₁ middle₂ parallel forward)
          | some value₂ => cases alike
      | some value₁ =>
          cases result₂ with
          | none => cases alike
          | some value₂ =>
              exact .later same₁ same₂ forward
                (success value₁ value₂ middle₁ middle₂ run₁ (Option.some.inj alike) parallel
                  forward)

/-! ## Tokens -/

theorem reads {γ : Type} {read : Production γ} {value₁ value₂ : γ}
    {next₁ next₂ : γ → Production β}
    (rest : Matches comparison reporting (next₁ value₁) (next₂ value₂) start₁ start₂)
    (run₁ : read ⟨comparison.first, reporting⟩ start₁ = (some value₁, start₁))
    (run₂ : read ⟨comparison.second, reporting⟩ start₂ = (some value₂, start₂)) :
    Matches comparison reporting (read >>= next₁) (read >>= next₂) start₁ start₂ :=
  rest.later (bind_of_some next₁ run₁) (bind_of_some next₂ run₂) (Nat.le_refl _)

section Reading

variable (aligned : comparison.Aligned) (parallel : comparison.Parallel start₁ start₂)

include aligned parallel

theorem sameToken (distance : Nat) :
    comparison.SameToken (comparison.first.get (start₁.position + distance))
      (comparison.second.get (start₂.position + distance)) := by
  have same := aligned.token (start₁.position + distance)
  rwa [Nat.add_right_comm, ← parallel.position] at same

theorem current {next₁ next₂ : Token → Production β}
    (rest : comparison.SameToken (comparison.first.get start₁.position)
        (comparison.second.get start₂.position) →
      Matches comparison reporting (next₁ (comparison.first.get start₁.position))
        (next₂ (comparison.second.get start₂.position)) start₁ start₂) :
    Matches comparison reporting (Production.current >>= next₁) (Production.current >>= next₂)
      start₁ start₂ :=
  .reads (rest (sameToken aligned parallel 0)) rfl rfl

theorem peek {distance : Nat} {next₁ next₂ : Token → Production β}
    (rest : comparison.SameToken (comparison.first.get (start₁.position + distance))
        (comparison.second.get (start₂.position + distance)) →
      Matches comparison reporting (next₁ (comparison.first.get (start₁.position + distance)))
        (next₂ (comparison.second.get (start₂.position + distance))) start₁ start₂) :
    Matches comparison reporting (Production.peek distance >>= next₁)
      (Production.peek distance >>= next₂) start₁ start₂ :=
  .reads (rest (sameToken aligned parallel distance)) rfl rfl

theorem lexeme {next₁ next₂ : Lexeme → Production β}
    (rest : Matches comparison reporting
      (next₁ (comparison.first.get start₁.position).lexeme)
      (next₂ (comparison.first.get start₁.position).lexeme) start₁ start₂) :
    Matches comparison reporting (Production.lexeme >>= next₁) (Production.lexeme >>= next₂)
      start₁ start₂ := by
  refine .reads rest rfl ?_
  have same := (sameToken aligned parallel 0).lexeme
  exact congrArg (fun found => (some found, start₂)) same.symm

theorem check {lexeme : Lexeme} {next₁ next₂ : Bool → Production β}
    (rest : Matches comparison reporting
      (next₁ (decide ((comparison.first.get start₁.position).lexeme = lexeme)))
      (next₂ (decide ((comparison.first.get start₁.position).lexeme = lexeme)))
      start₁ start₂) :
    Matches comparison reporting (Production.check lexeme >>= next₁)
      (Production.check lexeme >>= next₂) start₁ start₂ := by
  refine .reads rest rfl ?_
  have same := (sameToken aligned parallel 0).lexeme
  exact congrArg (fun found => (some (decide (found = lexeme)), start₂)) same.symm

/-- Past the first token, the token before the position is compared as well. -/
theorem previous {next₁ next₂ : Token → Production β} (positive : 0 < start₁.position)
    (rest : comparison.SameToken (comparison.first.before start₁.position)
        (comparison.second.before start₂.position) →
      Matches comparison reporting (next₁ (comparison.first.before start₁.position))
        (next₂ (comparison.second.before start₂.position)) start₁ start₂) :
    Matches comparison reporting (Production.previous >>= next₁)
      (Production.previous >>= next₂) start₁ start₂ := by
  refine .reads (rest ?_) rfl rfl
  obtain ⟨place, same⟩ : ∃ place, start₁.position = place + 1 :=
    ⟨start₁.position - 1, by omega⟩
  have other : start₂.position = place + comparison.shift + 1 := by
    rw [parallel.position, same]
    omega
  rw [same, other]
  exact aligned.token place

theorem isPast_eq :
    comparison.second.isPast start₂.position = comparison.first.isPast start₁.position := by
  have sizes := aligned.size
  have positions := parallel.position
  simp only [TokenStream.isPast, decide_eq_decide]
  omega

theorem isAtEnd {next₁ next₂ : Bool → Production β}
    (rest : Matches comparison reporting (next₁ (comparison.first.isPast start₁.position))
      (next₂ (comparison.first.isPast start₁.position)) start₁ start₂) :
    Matches comparison reporting (Production.isAtEnd >>= next₁) (Production.isAtEnd >>= next₂)
      start₁ start₂ := by
  refine .reads rest rfl ?_
  exact congrArg (fun past => (some past, start₂)) (isPast_eq aligned parallel)

theorem here {next₁ next₂ : Location → Production β}
    (rest : comparison.view (comparison.first.reportLocation start₁.position) =
        comparison.view (comparison.second.reportLocation start₂.position) →
      Matches comparison reporting (next₁ (comparison.first.reportLocation start₁.position))
        (next₂ (comparison.second.reportLocation start₂.position)) start₁ start₂) :
    Matches comparison reporting (Production.here >>= next₁) (Production.here >>= next₂)
      start₁ start₂ := by
  refine .reads (rest ?_) rfl rfl
  rw [parallel.position]
  exact aligned.report start₁.position

omit aligned in
theorem next_parallel (inside : start₁.position < comparison.first.size) :
    comparison.Parallel start₁.next start₂.next :=
  ⟨by simp [parallel.position, Nat.add_right_comm], parallel.reports, inside⟩

theorem advance :
    Matches comparison reporting Production.advance Production.advance start₁ start₂ := by
  have named : comparison.Alike (some start₁.position) (some start₂.position) :=
    congrArg some parallel.position.symm
  have past := isPast_eq aligned parallel
  cases ended : comparison.first.isPast start₁.position with
  | true =>
      rw [ended] at past
      have run₁ : Production.advance ⟨comparison.first, reporting⟩ start₁ =
          (some start₁.position, start₁) := by
        simp [Production.advance, ended]
      have run₂ : Production.advance ⟨comparison.second, reporting⟩ start₂ =
          (some start₂.position, start₂) := by
        simp [Production.advance, past]
      exact .intro run₁ run₂ named parallel (Nat.le_refl _)
  | false =>
      rw [ended] at past
      have inside₁ := (comparison.first.isPast_eq_false_iff _).mp ended
      have inside₂ := (comparison.second.isPast_eq_false_iff _).mp past
      exact .intro ((advance_run inside₁).mpr ⟨rfl, rfl⟩) ((advance_run inside₂).mpr ⟨rfl, rfl⟩)
        named (next_parallel parallel inside₁) (Nat.le_succ _)

theorem expect (lexeme : Lexeme) :
    Matches comparison reporting (Production.expect lexeme) (Production.expect lexeme) start₁
      start₂ := by
  refine .check aligned parallel ?_
  split
  · exact .advance aligned parallel
  · exact .fail parallel

theorem lexeme_iff (lexeme : Lexeme) :
    (comparison.second.get start₂.position).lexeme = lexeme ↔
      (comparison.first.get start₁.position).lexeme = lexeme := by
  have same := (sameToken aligned parallel 0).lexeme
  exact ⟨same.trans, same.symm.trans⟩

theorem expected {lexeme : Lexeme} {next₁ next₂ : TokenId → Production β}
    (valid : lexeme ≠ .invalid)
    (rest : (comparison.first.get start₁.position).lexeme = lexeme →
      comparison.Alike start₁.position start₂.position →
        comparison.Parallel start₁.next start₂.next →
          Matches comparison reporting (next₁ start₁.position) (next₂ start₂.position)
            start₁.next start₂.next) :
    Matches comparison reporting (Production.expect lexeme >>= next₁)
      (Production.expect lexeme >>= next₂) start₁ start₂ := by
  have named : comparison.Alike start₁.position start₂.position := parallel.position.symm
  have same := lexeme_iff aligned parallel lexeme
  by_cases found : (comparison.first.get start₁.position).lexeme = lexeme
  · have inside := comparison.first.lt_size_of_lexeme start₁.position (by rw [found]; exact valid)
    have moved := next_parallel parallel inside
    refine .later (bind_of_some next₁ ((expect_run valid).mpr ⟨found, rfl, rfl⟩))
      (bind_of_some next₂ ((expect_run valid).mpr ⟨same.mpr found, rfl, rfl⟩)) (Nat.le_succ _) ?_
    exact rest found named moved
  · exact .intro (bind_of_none next₁ (expect_none_run.mpr ⟨found, rfl⟩))
      (bind_of_none next₂ (expect_none_run.mpr ⟨mt same.mp found, rfl⟩)) rfl parallel
      (Nat.le_refl _)

theorem eat {lexeme : Lexeme} {next₁ next₂ : Option TokenId → Production β}
    (valid : lexeme ≠ .invalid)
    (found : (comparison.first.get start₁.position).lexeme = lexeme →
      comparison.Alike start₁.position start₂.position →
        comparison.Parallel start₁.next start₂.next →
          Matches comparison reporting (next₁ (some start₁.position))
            (next₂ (some start₂.position)) start₁.next start₂.next)
    (missing : (comparison.first.get start₁.position).lexeme ≠ lexeme →
      Matches comparison reporting (next₁ none) (next₂ none) start₁ start₂) :
    Matches comparison reporting (Production.eat lexeme >>= next₁)
      (Production.eat lexeme >>= next₂) start₁ start₂ := by
  have named : comparison.Alike start₁.position start₂.position := parallel.position.symm
  have same := lexeme_iff aligned parallel lexeme
  by_cases here : (comparison.first.get start₁.position).lexeme = lexeme
  · have inside := comparison.first.lt_size_of_lexeme start₁.position (by rw [here]; exact valid)
    have moved := next_parallel parallel inside
    exact .later (bind_of_some next₁ ((eat_run valid).mpr ⟨here, rfl, rfl⟩))
      (bind_of_some next₂ ((eat_run valid).mpr ⟨same.mpr here, rfl, rfl⟩)) (Nat.le_succ _)
      (found here named moved)
  · exact .later (bind_of_some next₁ (eat_none_run.mpr ⟨here, rfl⟩))
      (bind_of_some next₂ (eat_none_run.mpr ⟨mt same.mp here, rfl⟩)) (Nat.le_refl _) (missing here)

theorem eaten {lexeme : Lexeme} :
    Matches comparison reporting (Production.eat lexeme) (Production.eat lexeme) start₁
      start₂ := by
  cases (expect aligned parallel lexeme : Matches comparison reporting _ _ start₁ start₂) with
  | intro run₁ run₂ alike moved forward =>
      exact .intro (outcome_of run₁) (outcome_of run₂) (congrArg some alike) moved forward

end Reading

/-! ## Reports -/

section Reporting

variable (parallel : comparison.Parallel start₁ start₂)

include parallel

theorem reports_size : start₂.reports.size = start₁.reports.size := by
  have sizes := congrArg Array.size parallel.reports
  simpa using sizes.symm

theorem reportCount {next₁ next₂ : Nat → Production β}
    (rest : Matches comparison reporting (next₁ start₁.reports.size)
      (next₂ start₁.reports.size) start₁ start₂) :
    Matches comparison reporting (Production.reportCount >>= next₁)
      (Production.reportCount >>= next₂) start₁ start₂ := by
  refine .reads rest rfl ?_
  exact congrArg (fun count => (some count, start₂)) (reports_size parallel)

theorem isExplained {before : Nat} {next₁ next₂ : Bool → Production β}
    (rest : ∀ explained, Matches comparison reporting (next₁ explained) (next₂ explained)
      start₁ start₂) :
    Matches comparison reporting (Production.isExplained before >>= next₁)
      (Production.isExplained before >>= next₂) start₁ start₂ := by
  refine .reads (rest (reporting = .filtered && before < start₁.reports.size)) rfl ?_
  simp only [Production.isExplained, reports_size parallel]

theorem pushed {error : GrammarError} {location₁ location₂ : Location}
    (same : comparison.view location₁ = comparison.view location₂) :
    comparison.Parallel ⟨start₁.position, start₁.reports.push (error.entry location₁)⟩
      ⟨start₂.position, start₂.reports.push (error.entry location₂)⟩ := by
  refine ⟨parallel.position, ?_, parallel.inside⟩
  simp [Array.map_push, parallel.reports, same]

theorem reject {error : GrammarError} {location₁ location₂ : Location}
    (same : comparison.view location₁ = comparison.view location₂) :
    Matches comparison reporting (reject error location₁ : Production α)
      (reject error location₂) start₁ start₂ :=
  .intro rfl rfl rfl (pushed parallel same) (Nat.le_refl _)

theorem followOn {before : Nat} {error : GrammarError} {location₁ location₂ : Location}
    (same : comparison.view location₁ = comparison.view location₂) :
    Matches comparison reporting
      (reportFollowOn before error location₁ >>= fun _ => (Production.fail : Production α))
      (reportFollowOn before error location₂ >>= fun _ => Production.fail) start₁ start₂ := by
  have sizes := reports_size parallel
  by_cases explained : reporting = .filtered ∧ before < start₁.reports.size
  · have run₁ := @reportFollowOn_bind α ⟨comparison.first, reporting⟩ start₁ before error
      location₁ fun _ => Production.fail
    have run₂ := @reportFollowOn_bind α ⟨comparison.second, reporting⟩ start₂ before error
      location₂ fun _ => Production.fail
    obtain ⟨rfl, grown⟩ := explained
    simp only [sizes, grown, decide_true, Bool.and_self, if_true] at run₁ run₂
    exact .intro run₁ run₂ rfl parallel (Nat.le_refl _)
  · have run₁ := @reportFollowOn_bind α ⟨comparison.first, reporting⟩ start₁ before error
      location₁ fun _ => Production.fail
    have run₂ := @reportFollowOn_bind α ⟨comparison.second, reporting⟩ start₂ before error
      location₂ fun _ => Production.fail
    simp only [sizes, Bool.and_eq_true, decide_eq_true_eq, explained, if_false] at run₁ run₂
    exact .intro run₁ run₂ rfl (pushed parallel same) (Nat.le_refl _)

end Reporting

theorem orRejectAt {error : GrammarError} {location₁ location₂ : Location}
    (parallel : comparison.Parallel start₁ start₂)
    (same : comparison.view location₁ = comparison.view location₂)
    (begins : Matches comparison reporting first second start₁ start₂) :
    Matches comparison reporting (first.orRejectAt error location₁)
      (second.orRejectAt error location₂) start₁ start₂ := by
  refine .reportCount parallel (.attempt begins ?_ ?_)
  · intro value₁ value₂ middle₁ middle₂ _ alike parallel _
    exact .pure parallel alike
  · intro middle₁ middle₂ parallel _
    exact .followOn parallel same

theorem orReject {error : GrammarError} (aligned : comparison.Aligned)
    (parallel : comparison.Parallel start₁ start₂)
    (begins : Matches comparison reporting first second start₁ start₂) :
    Matches comparison reporting (first.orReject error) (second.orReject error) start₁
      start₂ := by
  refine .reportCount parallel (.attempt begins ?_ ?_)
  · intro value₁ value₂ middle₁ middle₂ _ alike parallel _
    exact .pure parallel alike
  · intro middle₁ middle₂ parallel _
    exact .here aligned parallel fun same => .followOn parallel same

/-! ## Choice and repetition -/

theorem either {other₁ other₂ : Production α}
    (begins : Matches comparison reporting first second start₁ start₂)
    (otherwise : ∀ middle₁ middle₂, comparison.Parallel middle₁ middle₂ →
      start₁.position ≤ middle₁.position →
        Matches comparison reporting other₁ other₂ middle₁ middle₂) :
    Matches comparison reporting (either first other₁) (either second other₂) start₁ start₂ :=
  .attempt begins (fun _ _ _ _ _ alike parallel _ => .pure parallel alike) otherwise

theorem firstOf {before lowest : Nat} {alternatives₁ alternatives₂ : List (Production α)}
    (each : List.Forall₂ (fun first second => ∀ start₁ start₂,
      comparison.Parallel start₁ start₂ → lowest ≤ start₁.position →
        Matches comparison reporting first second start₁ start₂) alternatives₁ alternatives₂)
    (parallel : comparison.Parallel start₁ start₂) (within : lowest ≤ start₁.position) :
    Matches comparison reporting (firstOf before alternatives₁) (firstOf before alternatives₂)
      start₁ start₂ := by
  induction each generalizing start₁ start₂ with
  | nil => exact .fail parallel
  | cons begins rest induction =>
      refine .attempt (begins start₁ start₂ parallel within) ?_ ?_
      · intro value₁ value₂ middle₁ middle₂ _ alike parallel _
        exact .pure parallel alike
      · intro middle₁ middle₂ parallel forward
        refine .isExplained parallel ?_
        intro explained
        cases explained
        · exact induction parallel (Nat.le_trans within forward)
        · exact .fail parallel

theorem collectAfter {round₁ round₂ : Production (Round α)} {lowest : Nat}
    (aligned : comparison.Aligned)
    (each : ∀ start₁ start₂, comparison.Parallel start₁ start₂ → lowest ≤ start₁.position →
      Matches comparison reporting round₁ round₂ start₁ start₂)
    {earlier₁ earlier₂ : List α} (alike : comparison.Alike earlier₁ earlier₂)
    (parallel : comparison.Parallel start₁ start₂) (within : lowest ≤ start₁.position) :
    Matches comparison reporting (collectAfter round₁ earlier₁) (collectAfter round₂ earlier₂)
      start₁ start₂ := by
  have reversed : ∀ {list₁ list₂ : List α}, comparison.Alike list₁ list₂ →
      comparison.Alike (some list₁.reverse) (some list₂.reverse) := by
    intro list₁ list₂ alike
    refine congrArg some ?_
    change (list₁.reverse).map _ = (list₂.reverse).map _
    rw [List.map_reverse, List.map_reverse]
    exact congrArg List.reverse alike
  induction left : comparison.first.size - start₁.position using Nat.strongRecOn generalizing
    earlier₁ earlier₂ start₁ start₂ with
  | ind left induction =>
      subst left
      cases each start₁ start₂ parallel within with
      | @intro result₁ result₂ middle₁ middle₂ run₁ run₂ same moved forward =>
          have sizes := aligned.size
          have positions := parallel.position
          have others := moved.position
          rcases result₁ with _ | (_ | value₁ | value₁) <;>
            rcases result₂ with _ | (_ | value₂ | value₂) <;>
            first
              | (cases same; done)
              | skip
          · exact .intro (collectAfter_none run₁) (collectAfter_none run₂) rfl moved forward
          · exact .intro (collectAfter_stop run₁) (collectAfter_stop run₂) (reversed alike) moved
              forward
          · refine .intro (collectAfter_last run₁) (collectAfter_last run₂) (reversed ?_) moved
              forward
            exact List.cons_eq_cons.mpr ⟨Round.last.inj (Option.some.inj same), alike⟩
          · have longer : comparison.Alike (value₁ :: earlier₁) (value₂ :: earlier₂) :=
              List.cons_eq_cons.mpr ⟨Round.more.inj (Option.some.inj same), alike⟩
            by_cases further : comparison.first.size - middle₁.position <
                comparison.first.size - start₁.position
            · refine .later (collectAfter_more run₁ further) (collectAfter_more run₂ ?_) forward
                (induction _ further longer moved (Nat.le_trans within forward) rfl)
              simp only [remaining]
              omega
            · refine .intro (collectAfter_still run₁ further) (collectAfter_still run₂ ?_) rfl
                moved forward
              simp only [remaining]
              omega

theorem collect {round₁ round₂ : Production (Round α)} {lowest : Nat}
    (aligned : comparison.Aligned)
    (each : ∀ start₁ start₂, comparison.Parallel start₁ start₂ → lowest ≤ start₁.position →
      Matches comparison reporting round₁ round₂ start₁ start₂)
    (parallel : comparison.Parallel start₁ start₂) (within : lowest ≤ start₁.position) :
    Matches comparison reporting (collect round₁) (collect round₂) start₁ start₂ :=
  .collectAfter aligned each rfl parallel within

end Matches

end Production

end CppsFrontend.Grammar
