import CppsFrontend.Grammar.Identifier
import CppsFrontend.Proofs.Grammar.Run
import CppsFrontend.Proofs.Grammar.Unnaming

/-!
# Exchanged operators

Two streams that are the same but for some `>` of the first one, which are `<` in the second.
As long as the first stream brings no reports, a production does the same on the second one, up
to single names that it holds as tokens; a production that may end with a name may also end
before an exchanged operator.  `Tracks` says this of two productions at a state, and there is
one statement for each way to build a production.
-/

set_option autoImplicit false

namespace CppsFrontend

theorem TokenStream.reportLocation_get (stream : TokenStream) (place : Nat) :
    stream.reportLocation place =
      if stream.isPast place then (stream.get (stream.size - 1)).location
      else (stream.get place).location := by
  have last : stream.get (stream.size - 1) = stream.tokens.back?.getD .invalid := by
    rw [Array.back?_eq_getElem?]
    rfl
  rw [reportLocation, last]
  cases stream.tokens.back? <;> rfl

namespace Grammar

/-- Two streams of which the second may have `<` where the first has `>`. -/
structure Exchange where
  first : TokenStream
  second : TokenStream

namespace Exchange

variable (exchange : Exchange)

def turned (place : TokenId) : Bool :=
  (exchange.first.get place).lexeme = .punctuator .greater &&
    (exchange.second.get place).lexeme = .punctuator .less

theorem lexemes_of_turned {exchange : Exchange} {place : TokenId}
    (turned : exchange.turned place = true) :
    (exchange.first.get place).lexeme = .punctuator .greater ∧
      (exchange.second.get place).lexeme = .punctuator .less := by
  simpa [Exchange.turned] using turned

/-- Tokens that are one, or an operator and the one that it is exchanged for, which stands at
its location and is as long. -/
inductive Like (first second : Token) : Prop where
  | same (same : first = second)
  | turned (greater : first.lexeme = .punctuator .greater)
      (less : second.lexeme = .punctuator .less) (location : first.location = second.location)
      (bytes : first.text.utf8ByteSize = second.text.utf8ByteSize)

/-- What stands at a place is a name, and an exchanged operator is next. -/
def Bare (place : TokenId) : Prop :=
  isNaming (exchange.first.get place).lexeme = true ∧ exchange.turned (place + 1) = true

structure Alike : Prop where
  size : exchange.first.size = exchange.second.size
  token : ∀ place, Like (exchange.first.get place) (exchange.second.get place)

/-- A name before an exchanged operator is no member, no scoped name, and no name after
`const`. -/
structure Fair : Prop extends exchange.Alike where
  plain : ∀ place, exchange.Bare (place + 1) → (exchange.first.get place).lexeme ∉
    [.punctuator .dot, .punctuator .doubleColon, .keyword .constWord]

namespace Like

variable {first second : Token}

theorem location (like : Like first second) : first.location = second.location := by
  cases like with
  | same same => rw [same]
  | turned _ _ location _ => exact location

theorem bytes (like : Like first second) :
    first.text.utf8ByteSize = second.text.utf8ByteSize := by
  cases like with
  | same same => rw [same]
  | turned _ _ _ bytes => exact bytes

/-- What does not tell the two operators apart does not tell the tokens apart. -/
theorem lexeme {γ : Type} (like : Like first second) (function : Lexeme → γ)
    (blind : function (.punctuator .greater) = function (.punctuator .less)) :
    function first.lexeme = function second.lexeme := by
  cases like with
  | same same => rw [same]
  | turned greater less _ _ => rw [greater, less, blind]

end Like

namespace Fair

variable {exchange : Exchange} (fair : exchange.Fair)

include fair

theorem lexeme_iff {lexeme : Lexeme}
    (apart : lexeme ∉ [.invalid, .punctuator .greater, .punctuator .less]) (place : TokenId) :
    (exchange.second.get place).lexeme = lexeme ↔
      (exchange.first.get place).lexeme = lexeme := by
  simp only [List.mem_cons, List.not_mem_nil, or_false, not_or] at apart
  have same := (fair.token place).lexeme (fun found => found = lexeme)
    (by simp [eq_comm, apart.2.1, apart.2.2])
  exact (iff_of_eq same).symm

theorem naming (place : TokenId) :
    isNaming (exchange.second.get place).lexeme = isNaming (exchange.first.get place).lexeme :=
  ((fair.token place).lexeme isNaming rfl).symm

/-- Other than at an exchanged operator, there is `<` in both streams or in none. -/
theorem less_iff {place : TokenId} (still : ¬exchange.turned place = true) :
    (exchange.second.get place).lexeme = .punctuator .less ↔
      (exchange.first.get place).lexeme = .punctuator .less := by
  cases fair.token place with
  | same same => rw [same]
  | turned greater less _ _ => simp [turned, greater, less] at still

theorem isPast (place : TokenId) :
    exchange.second.isPast place = exchange.first.isPast place := by
  rw [TokenStream.isPast, TokenStream.isPast, fair.size]

theorem reportLocation (place : TokenId) :
    exchange.second.reportLocation place = exchange.first.reportLocation place := by
  rw [TokenStream.reportLocation_get, TokenStream.reportLocation_get, fair.isPast, fair.size,
    (fair.token _).location, (fair.token place).location]

end Fair

end Exchange

namespace Production

variable {α β : Type}

section Failures

variable {input : Input} {state middle : State} {production : Production α}

theorem orRejectAt_of_none (error : GrammarError) (location : Location)
    (grows : state.reports.size ≤ middle.reports.size)
    (run : production input state = (none, middle)) :
    ∃ after, production.orRejectAt error location input state = (none, after) ∧
      state.reports.size < after.reports.size := by
  rw [orRejectAt, reportCount_bind, bind_of_some _ (outcome_of run)]
  refine ⟨_, reportFollowOn_bind _, ?_⟩
  split
  · rename_i explained
    simp only [Bool.and_eq_true, decide_eq_true_eq] at explained
    exact explained.2
  · rw [Array.size_push]
    exact Nat.lt_succ_of_le grows

theorem orReject_of_none (error : GrammarError)
    (grows : state.reports.size ≤ middle.reports.size)
    (run : production input state = (none, middle)) :
    ∃ after, production.orReject error input state = (none, after) ∧
      state.reports.size < after.reports.size := by
  obtain ⟨after, failed, more⟩ :=
    orRejectAt_of_none error (input.stream.reportLocation middle.position) grows run
  refine ⟨after, .trans ?_ failed, more⟩
  rw [orReject, orRejectAt, reportCount_bind, reportCount_bind,
    bind_of_some _ (outcome_of run), bind_of_some _ (outcome_of run)]
  rfl

end Failures

variable {exchange : Exchange} {reporting : Reporting} {loose tail : Bool}
variable {start middle : State}

/-! ## Before an exchanged operator -/

/-- A production that reports something, or is loose and ends before an exchanged operator. -/
inductive Stalls (exchange : Exchange) (reporting : Reporting) (loose : Bool)
    (production : Production α) (start : State) : Prop where
  | intro {result : Option α} {after : State}
      (run : production ⟨exchange.first, reporting⟩ start = (result, after))
      (grows : start.reports.size ≤ after.reports.size)
      (quiet : after.reports.size = start.reports.size →
        loose = true ∧ result.isSome = true ∧ exchange.turned after.position = true)

namespace Stalls

theorem pure {value : α} (isLoose : loose = true)
    (beyond : exchange.turned start.position = true) :
    Stalls exchange reporting loose (Pure.pure value : Production α) start :=
  .intro rfl (Nat.le_refl _) fun _ => ⟨isLoose, rfl, beyond⟩

theorem reject {error : GrammarError} {location : Location} :
    Stalls exchange reporting loose (reject error location : Production α) start := by
  refine .intro rfl ?_ ?_
  · simp
  · simp

theorem reject_bind {error : GrammarError} {location : Location} {next : α → Production β} :
    Stalls exchange reporting loose
      ((Production.reject error location : Production α) >>= next) start := by
  refine .intro rfl ?_ ?_
  · simp
  · simp

theorem reads {γ : Type} {read : Production γ} {value : γ} {next : γ → Production β}
    (rest : Stalls exchange reporting loose (next value) start)
    (run : read ⟨exchange.first, reporting⟩ start = (some value, start)) :
    Stalls exchange reporting loose (read >>= next) start := by
  cases rest with
  | intro run₂ grows quiet => exact .intro ((bind_of_some next run).trans run₂) grows quiet

theorem check {lexeme : Lexeme} {next : Bool → Production β}
    (beyond : exchange.turned start.position = true) (apart : lexeme ≠ .punctuator .greater)
    (rest : Stalls exchange reporting loose (next false) start) :
    Stalls exchange reporting loose (Production.check lexeme >>= next) start := by
  have other : decide ((exchange.first.get start.position).lexeme = lexeme) = false := by
    rw [(Exchange.lexemes_of_turned beyond).1]
    exact decide_eq_false apart.symm
  exact rest.reads (congrArg (fun found => (some found, start)) other)

theorem eat {lexeme : Lexeme} {next : Option TokenId → Production β}
    (beyond : exchange.turned start.position = true) (apart : lexeme ≠ .punctuator .greater)
    (rest : Stalls exchange reporting loose (next none) start) :
    Stalls exchange reporting loose (Production.eat lexeme >>= next) start := by
  refine rest.reads (eat_none_run.mpr ⟨?_, rfl⟩)
  rw [(Exchange.lexemes_of_turned beyond).1]
  exact apart.symm

end Stalls

/-! ## Productions side by side -/

instance {α : Type} [Unnamable α] : Unnamable (Round α) where
  unname before
    | .stop => .stop
    | .last value => .last (unname before value)
    | .more value => .more (unname before value)

section Rounds

variable {α : Type} [Unnamable α] (before : TokenId → Bool)

@[simp] theorem unname_stop : unname before (Round.stop : Round α) = .stop := rfl

@[simp] theorem unname_last (value : α) :
    unname before (Round.last value) = .last (unname before value) := rfl

@[simp] theorem unname_more (value : α) :
    unname before (Round.more value) = .more (unname before value) := rfl

end Rounds

variable [Unnamable α] [Unnamable β]
variable {first second : Production α} {next₁ next₂ : α → Production β}

/-- Where the first production reports nothing, the second one derives the same and ends in the
same state.  If it is `loose`, the first one may also end before an exchanged operator, and then
nothing is said of the second one. -/
inductive Tracks (exchange : Exchange) (reporting : Reporting) (loose : Bool)
    (first second : Production α) (start : State) : Prop where
  | intro {result : Option α} {after : State}
      (run : first ⟨exchange.first, reporting⟩ start = (result, after))
      (grows : start.reports.size ≤ after.reports.size)
      (quiet : after.reports.size = start.reports.size →
        second ⟨exchange.second, reporting⟩ start = (unname exchange.turned result, after) ∨
          loose = true ∧ result.isSome = true ∧ exchange.turned after.position = true)

namespace Tracks

theorem of_stalls (stalls : Stalls exchange reporting loose first start) :
    Tracks exchange reporting loose first second start := by
  cases stalls with
  | intro run grows quiet => exact .intro run grows fun silent => .inr (quiet silent)

/-- Two productions that end alike. -/
theorem same {result : Option α} {after : State}
    (run₁ : first ⟨exchange.first, reporting⟩ start = (result, after))
    (run₂ : second ⟨exchange.second, reporting⟩ start = (unname exchange.turned result, after))
    (grows : start.reports.size ≤ after.reports.size) :
    Tracks exchange reporting loose first second start :=
  .intro run₁ grows fun _ => .inl run₂

/-! ## Sequences -/

theorem later {other₁ other₂ : Production α}
    (same₁ : other₁ ⟨exchange.first, reporting⟩ start =
      first ⟨exchange.first, reporting⟩ middle)
    (same₂ : other₂ ⟨exchange.second, reporting⟩ start =
      second ⟨exchange.second, reporting⟩ middle)
    (kept : middle.reports = start.reports)
    (rest : Tracks exchange reporting loose first second middle) :
    Tracks exchange reporting loose other₁ other₂ start := by
  cases rest with
  | intro run grows quiet =>
      rw [kept] at grows quiet
      refine .intro (same₁.trans run) grows fun silent => ?_
      rw [same₂]
      exact quiet silent

theorem pure {value other : α} (alike : other = unname exchange.turned value) :
    Tracks exchange reporting loose (Pure.pure value) (Pure.pure other) start :=
  .same rfl (congrArg (fun value => (some value, start)) alike) (Nat.le_refl _)

theorem fail : Tracks exchange reporting loose (fail : Production α) fail start :=
  .same rfl rfl (Nat.le_refl _)

theorem reject {error : GrammarError} {location : Location} :
    Tracks exchange reporting loose (reject error location) second start :=
  .of_stalls .reject

/-- A sequence.  Where the first part is loose, the second one may have to stall. -/
theorem bindLoosely (begins : Tracks exchange reporting loose first second start)
    (rest : ∀ value middle, first ⟨exchange.first, reporting⟩ start = (some value, middle) →
      Tracks exchange reporting tail (next₁ value) (next₂ (unname exchange.turned value)) middle)
    (stalls : ∀ value middle, loose = true →
      first ⟨exchange.first, reporting⟩ start = (some value, middle) →
        exchange.turned middle.position = true →
          Stalls exchange reporting tail (next₁ value) middle) :
    Tracks exchange reporting tail (first >>= next₁) (second >>= next₂) start := by
  cases begins with
  | @intro result middle run grows quiet =>
      cases result with
      | none =>
          refine .intro (bind_of_none next₁ run) grows fun silent => ?_
          rcases quiet silent with same | ⟨_, impossible, _⟩
          · exact .inl (bind_of_none next₂ same)
          · cases impossible
      | some value =>
          cases rest value middle run with
          | @intro result after further growsOn quietOn =>
              refine .intro ((bind_of_some next₁ run).trans further)
                (Nat.le_trans grows growsOn) fun silent => ?_
              rcases quiet (by omega) with same | ⟨isLoose, _, beyond⟩
              · rw [bind_of_some next₂ same]
                exact quietOn (by omega)
              · -- The rest stalls, so it does not matter what the second part derived.
                cases stalls value middle isLoose run beyond with
                | intro other _ quietStall =>
                    rw [further] at other
                    cases other
                    exact .inr (quietStall (by omega))

theorem bind (begins : Tracks exchange reporting false first second start)
    (rest : ∀ value middle, first ⟨exchange.first, reporting⟩ start = (some value, middle) →
      Tracks exchange reporting loose (next₁ value) (next₂ (unname exchange.turned value))
        middle) :
    Tracks exchange reporting loose (first >>= next₁) (second >>= next₂) start :=
  begins.bindLoosely rest nofun

theorem map (begins : Tracks exchange reporting loose first second start) {function : α → β}
    (keeps : ∀ value, function (unname exchange.turned value) =
      unname exchange.turned (function value)) :
    Tracks exchange reporting loose (function <$> first) (function <$> second) start :=
  begins.bindLoosely (fun value _ _ => .pure (keeps value))
    fun _ _ isLoose _ beyond => .pure isLoose beyond

theorem restoring (begins : Tracks exchange reporting loose first second start) :
    Tracks exchange reporting loose first.restoring second.restoring start := by
  cases begins with
  | @intro result after run grows quiet =>
      cases result with
      | none =>
          refine .intro (restoring_of_none run) grows fun silent => ?_
          rcases quiet silent with same | ⟨_, impossible, _⟩
          · exact .inl (restoring_of_none same)
          · cases impossible
      | some value =>
          refine .intro (restoring_of_some run) grows fun silent => ?_
          rcases quiet silent with same | further
          · exact .inl (restoring_of_some same)
          · exact .inr further

/-- What is tried goes on from where it ended, whether it failed or not. -/
theorem attemptLoosely {next₁ next₂ : Option α → Production β}
    (begins : Tracks exchange reporting loose first second start)
    (success : ∀ value middle, first ⟨exchange.first, reporting⟩ start = (some value, middle) →
      Tracks exchange reporting tail (next₁ (some value))
        (next₂ (some (unname exchange.turned value))) middle)
    (failure : ∀ middle, first ⟨exchange.first, reporting⟩ start = (none, middle) →
      Tracks exchange reporting tail (next₁ none) (next₂ none) middle)
    (stalls : ∀ value middle, loose = true → exchange.turned middle.position = true →
      Stalls exchange reporting tail (next₁ (some value)) middle) :
    Tracks exchange reporting tail (first.outcome >>= next₁) (second.outcome >>= next₂)
      start := by
  cases begins with
  | @intro result middle run grows quiet =>
      have each : Tracks exchange reporting tail (next₁ result)
          (next₂ (unname exchange.turned result)) middle := by
        cases result with
        | none => exact failure middle run
        | some value => exact success value middle run
      cases each with
      | @intro last after further growsOn quietOn =>
          refine .intro ((bind_of_some next₁ (outcome_of run)).trans further)
            (Nat.le_trans grows growsOn) fun silent => ?_
          rcases quiet (by omega) with same | ⟨isLoose, found, beyond⟩
          · rw [bind_of_some next₂ (outcome_of same)]
            exact quietOn (by omega)
          · cases result with
            | none => cases found
            | some value =>
                cases stalls value middle isLoose beyond with
                | intro other _ quietStall =>
                    rw [further] at other
                    cases other
                    exact .inr (quietStall (by omega))

theorem attempt {next₁ next₂ : Option α → Production β}
    (begins : Tracks exchange reporting false first second start)
    (success : ∀ value middle, first ⟨exchange.first, reporting⟩ start = (some value, middle) →
      Tracks exchange reporting loose (next₁ (some value))
        (next₂ (some (unname exchange.turned value))) middle)
    (failure : ∀ middle, first ⟨exchange.first, reporting⟩ start = (none, middle) →
      Tracks exchange reporting loose (next₁ none) (next₂ none) middle) :
    Tracks exchange reporting loose (first.outcome >>= next₁) (second.outcome >>= next₂)
      start :=
  begins.attemptLoosely success failure nofun

/-! ## Tokens -/

theorem reads {γ : Type} {read : Production γ} {value₁ value₂ : γ}
    {next₁ next₂ : γ → Production β}
    (rest : Tracks exchange reporting loose (next₁ value₁) (next₂ value₂) start)
    (run₁ : read ⟨exchange.first, reporting⟩ start = (some value₁, start))
    (run₂ : read ⟨exchange.second, reporting⟩ start = (some value₂, start)) :
    Tracks exchange reporting loose (read >>= next₁) (read >>= next₂) start :=
  rest.later (bind_of_some next₁ run₁) (bind_of_some next₂ run₂) rfl

section Reading

variable (fair : exchange.Fair)

include fair

theorem current {next₁ next₂ : Token → Production β}
    (rest : Exchange.Like (exchange.first.get start.position)
        (exchange.second.get start.position) →
      Tracks exchange reporting loose (next₁ (exchange.first.get start.position))
        (next₂ (exchange.second.get start.position)) start) :
    Tracks exchange reporting loose (Production.current >>= next₁)
      (Production.current >>= next₂) start :=
  .reads (rest (fair.token start.position)) rfl rfl

theorem peek {distance : Nat} {next₁ next₂ : Token → Production β}
    (rest : Exchange.Like (exchange.first.get (start.position + distance))
        (exchange.second.get (start.position + distance)) →
      Tracks exchange reporting loose (next₁ (exchange.first.get (start.position + distance)))
        (next₂ (exchange.second.get (start.position + distance))) start) :
    Tracks exchange reporting loose (Production.peek distance >>= next₁)
      (Production.peek distance >>= next₂) start :=
  .reads (rest (fair.token (start.position + distance))) rfl rfl

theorem lexeme {next₁ next₂ : Lexeme → Production β}
    (rest : Exchange.Like (exchange.first.get start.position)
        (exchange.second.get start.position) →
      Tracks exchange reporting loose (next₁ (exchange.first.get start.position).lexeme)
        (next₂ (exchange.second.get start.position).lexeme) start) :
    Tracks exchange reporting loose (Production.lexeme >>= next₁)
      (Production.lexeme >>= next₂) start :=
  .reads (rest (fair.token start.position)) rfl rfl

theorem previous {next₁ next₂ : Token → Production β}
    (rest : Exchange.Like (exchange.first.before start.position)
        (exchange.second.before start.position) →
      Tracks exchange reporting loose (next₁ (exchange.first.before start.position))
        (next₂ (exchange.second.before start.position)) start) :
    Tracks exchange reporting loose (Production.previous >>= next₁)
      (Production.previous >>= next₂) start := by
  refine .reads (rest ?_) rfl rfl
  cases start.position with
  | zero => exact .same rfl
  | succ place => exact fair.token place

theorem check {lexeme : Lexeme} {next₁ next₂ : Bool → Production β}
    (apart : lexeme ∉ [.invalid, .punctuator .greater, .punctuator .less])
    (rest : Tracks exchange reporting loose
      (next₁ (decide ((exchange.first.get start.position).lexeme = lexeme)))
      (next₂ (decide ((exchange.first.get start.position).lexeme = lexeme))) start) :
    Tracks exchange reporting loose (Production.check lexeme >>= next₁)
      (Production.check lexeme >>= next₂) start := by
  refine .reads rest rfl ?_
  have same : decide ((exchange.second.get start.position).lexeme = lexeme) =
      decide ((exchange.first.get start.position).lexeme = lexeme) :=
    decide_eq_decide.mpr (fair.lexeme_iff apart start.position)
  exact congrArg (fun found => (some found, start)) same

theorem isAtEnd {next₁ next₂ : Bool → Production β}
    (rest : Tracks exchange reporting loose (next₁ (exchange.first.isPast start.position))
      (next₂ (exchange.first.isPast start.position)) start) :
    Tracks exchange reporting loose (Production.isAtEnd >>= next₁)
      (Production.isAtEnd >>= next₂) start := by
  refine .reads rest rfl ?_
  exact congrArg (fun past => (some past, start)) (fair.isPast start.position)

theorem here {next₁ next₂ : Location → Production β}
    (rest : Tracks exchange reporting loose
      (next₁ (exchange.first.reportLocation start.position))
      (next₂ (exchange.first.reportLocation start.position)) start) :
    Tracks exchange reporting loose (Production.here >>= next₁) (Production.here >>= next₂)
      start := by
  refine .reads rest rfl ?_
  exact congrArg (fun location => (some location, start)) (fair.reportLocation start.position)

theorem advance :
    Tracks exchange reporting loose Production.advance Production.advance start := by
  refine .same rfl ?_ ?_
  · simp only [Production.advance, fair.isPast]
    rfl
  · split <;> exact Nat.le_refl _

theorem expected {lexeme : Lexeme} {next₁ next₂ : TokenId → Production β}
    (apart : lexeme ∉ [.invalid, .punctuator .greater, .punctuator .less])
    (rest : (exchange.first.get start.position).lexeme = lexeme →
      Tracks exchange reporting loose (next₁ start.position) (next₂ start.position)
        start.next) :
    Tracks exchange reporting loose (Production.expect lexeme >>= next₁)
      (Production.expect lexeme >>= next₂) start := by
  have same := fair.lexeme_iff apart start.position
  have valid : lexeme ≠ .invalid := fun invalid => apart (by simp [invalid])
  by_cases found : (exchange.first.get start.position).lexeme = lexeme
  · exact .later (bind_of_some next₁ ((expect_run valid).mpr ⟨found, rfl, rfl⟩))
      (bind_of_some next₂ ((expect_run valid).mpr ⟨same.mpr found, rfl, rfl⟩)) rfl (rest found)
  · exact .same (bind_of_none next₁ (expect_none_run.mpr ⟨found, rfl⟩))
      (bind_of_none next₂ (expect_none_run.mpr ⟨mt same.mp found, rfl⟩)) (Nat.le_refl _)

theorem eaten {lexeme : Lexeme}
    (apart : lexeme ∉ [.invalid, .punctuator .greater, .punctuator .less]) :
    Tracks exchange reporting loose (Production.eat lexeme) (Production.eat lexeme) start := by
  have same := fair.lexeme_iff apart start.position
  have valid : lexeme ≠ .invalid := fun invalid => apart (by simp [invalid])
  by_cases here : (exchange.first.get start.position).lexeme = lexeme
  · exact .same ((eat_run valid).mpr ⟨here, rfl, rfl⟩)
      ((eat_run valid).mpr ⟨same.mpr here, rfl, rfl⟩) (Nat.le_refl _)
  · exact .same (eat_none_run.mpr ⟨here, rfl⟩) (eat_none_run.mpr ⟨mt same.mp here, rfl⟩)
      (Nat.le_refl _)

theorem eat {lexeme : Lexeme} {next₁ next₂ : Option TokenId → Production β}
    (apart : lexeme ∉ [.invalid, .punctuator .greater, .punctuator .less])
    (found : (exchange.first.get start.position).lexeme = lexeme →
      Tracks exchange reporting loose (next₁ (some start.position))
        (next₂ (some start.position)) start.next)
    (missing : (exchange.first.get start.position).lexeme ≠ lexeme →
      Tracks exchange reporting loose (next₁ none) (next₂ none) start) :
    Tracks exchange reporting loose (Production.eat lexeme >>= next₁)
      (Production.eat lexeme >>= next₂) start := by
  have same := fair.lexeme_iff apart start.position
  have valid : lexeme ≠ .invalid := fun invalid => apart (by simp [invalid])
  by_cases here : (exchange.first.get start.position).lexeme = lexeme
  · exact .later (bind_of_some next₁ ((eat_run valid).mpr ⟨here, rfl, rfl⟩))
      (bind_of_some next₂ ((eat_run valid).mpr ⟨same.mpr here, rfl, rfl⟩)) rfl (found here)
  · exact .later (bind_of_some next₁ (eat_none_run.mpr ⟨here, rfl⟩))
      (bind_of_some next₂ (eat_none_run.mpr ⟨mt same.mp here, rfl⟩)) rfl (missing here)

end Reading

/-! ## Reports -/

theorem followOn {before : Nat} {error : GrammarError} {location : Location} :
    Tracks exchange reporting loose
      (reportFollowOn before error location >>= fun _ => (Production.fail : Production α))
      (reportFollowOn before error location >>= fun _ => Production.fail) start := by
  refine .same (reportFollowOn_bind _) (reportFollowOn_bind _) ?_
  split <;> simp

theorem orRejectAt {error₁ error₂ : GrammarError} {location₁ location₂ : Location}
    (begins : Tracks exchange reporting loose first second start) :
    Tracks exchange reporting loose (first.orRejectAt error₁ location₁)
      (second.orRejectAt error₂ location₂) start := by
  cases begins with
  | @intro result middle run grows quiet =>
      cases result with
      | none =>
          obtain ⟨after, failed, more⟩ := orRejectAt_of_none error₁ location₁ grows run
          exact .intro failed (Nat.le_of_lt more) fun silent => absurd silent (by omega)
      | some value =>
          refine .intro (orRejectAt_run.mpr run) grows fun silent => ?_
          rcases quiet silent with same | further
          · exact .inl (orRejectAt_run.mpr same)
          · exact .inr further

theorem orReject {error₁ error₂ : GrammarError}
    (begins : Tracks exchange reporting loose first second start) :
    Tracks exchange reporting loose (first.orReject error₁) (second.orReject error₂) start := by
  cases begins with
  | @intro result middle run grows quiet =>
      cases result with
      | none =>
          obtain ⟨after, failed, more⟩ := orReject_of_none error₁ grows run
          exact .intro failed (Nat.le_of_lt more) fun silent => absurd silent (by omega)
      | some value =>
          refine .intro (orReject_run.mpr run) grows fun silent => ?_
          rcases quiet silent with same | further
          · exact .inl (orReject_run.mpr same)
          · exact .inr further

/-! ## Choice and repetition -/

theorem either {other₁ other₂ : Production α}
    (begins : Tracks exchange reporting loose first second start)
    (otherwise : ∀ middle, first ⟨exchange.first, reporting⟩ start = (none, middle) →
      Tracks exchange reporting loose other₁ other₂ middle) :
    Tracks exchange reporting loose (either first other₁) (either second other₂) start :=
  begins.attemptLoosely (fun _ _ _ => .pure rfl) otherwise
    fun _ _ isLoose beyond => .pure isLoose beyond

theorem firstOf {before : Nat} {alternatives : List (Production α)}
    (each : ∀ production ∈ alternatives, ∀ start,
      Tracks exchange reporting loose production production start) :
    Tracks exchange reporting loose (firstOf before alternatives) (firstOf before alternatives)
      start := by
  induction alternatives generalizing start with
  | nil => exact .fail
  | cons production rest induction =>
      obtain ⟨begins, others⟩ := List.forall_mem_cons.mp each
      refine (begins start).attemptLoosely ?_ ?_ ?_
      · intro value middle _
        exact .pure rfl
      · intro middle _
        refine .reads ?_ rfl rfl
        split
        · exact .fail
        · exact induction others
      · intro value middle isLoose beyond
        exact .pure isLoose beyond

theorem collectAfter {round : Production (Round α)} (fair : exchange.Fair)
    (each : ∀ start, Tracks exchange reporting false round round start) (earlier : List α) :
    Tracks exchange reporting loose (collectAfter round earlier)
      (collectAfter round (unname exchange.turned earlier)) start := by
  -- The induction is on how far the end is.
  induction ahead : exchange.first.size - start.position using Nat.strongRecOn
    generalizing start earlier with
  | _ distance induction =>
      cases each start with
      | @intro result middle run grows quiet =>
          have alike (silent : middle.reports.size = start.reports.size) :=
            (quiet silent).resolve_right fun isLoose => nomatch isLoose.1
          match result with
          | none =>
              exact .intro (collectAfter_none run) grows fun silent =>
                .inl (collectAfter_none (alike silent))
          | some .stop =>
              refine .intro (collectAfter_stop run) grows fun silent => .inl ?_
              rw [collectAfter_stop (alike silent), unname_present, unname_reverse]
          | some (.last value) =>
              refine .intro (collectAfter_last run) grows fun silent => .inl ?_
              rw [collectAfter_last (alike silent), unname_present, unname_reverse, unname_cons]
          | some (.more value) =>
              by_cases forward : exchange.first.size - middle.position <
                  exchange.first.size - start.position
              · have forward₂ := forward
                rw [fair.size] at forward₂
                have rest : Tracks exchange reporting loose
                    (Production.collectAfter round (value :: earlier))
                    (Production.collectAfter round (unname exchange.turned (value :: earlier)))
                    middle := induction _ (by omega) (value :: earlier) rfl
                cases rest with
                | intro further growsOn quietOn =>
                    refine .intro ((collectAfter_more run forward).trans further)
                      (Nat.le_trans grows growsOn) fun silent => ?_
                    rw [collectAfter_more (alike (by omega)) forward₂]
                    exact quietOn (by omega)
              · have still := forward
                rw [fair.size] at still
                exact .intro (collectAfter_still run forward) grows fun silent =>
                  .inl (collectAfter_still (alike silent) still)

theorem collect {round : Production (Round α)} (fair : exchange.Fair)
    (each : ∀ start, Tracks exchange reporting false round round start) :
    Tracks exchange reporting loose (collect round) (collect round) start :=
  collectAfter fair each []

end Tracks

end Production

end Grammar

end CppsFrontend
