import CppsFrontend.Proofs.Grammar.Run

/-!
# Reports in both modes

A production does the same in the filtered and in the verbatim mode as long as there
is nothing to report.  With the first report the filtered run fails, and reports
nothing else; the verbatim run has the same first report and may go on behind it.
`Diagnoses` says this of a production at a state, and there is one statement for
each way to build a production.
-/

set_option autoImplicit false

namespace CppsFrontend.Grammar

/-- The locations that reports may have: those of tokens, and those where a report
about a position belongs. -/
structure Places (stream : TokenStream) (known : Location → Prop) : Prop where
  token : ∀ place, place < stream.size → known (stream.get place).location
  position : ∀ place, known (stream.reportLocation place)

def Placed (known : Location → Prop) (report : Entry) : Prop :=
  ∃ location, report.location = some location ∧ known location

theorem placed_entry {known : Location → Prop} {location : Location} (placed : known location)
    (error : GrammarError) : Placed known (error.entry location) :=
  ⟨location, rfl, placed⟩

def Extends (known : Location → Prop) (before after : Array Entry) : Prop :=
  ∃ more, after = before ++ more ∧ ∀ report ∈ more, Placed known report

namespace Extends

variable {known : Location → Prop} {before middle after : Array Entry}

theorem refl (known : Location → Prop) (reports : Array Entry) :
    Extends known reports reports :=
  ⟨#[], by simp, by simp⟩

theorem trans (first : Extends known before middle) (second : Extends known middle after) :
    Extends known before after := by
  obtain ⟨head, rfl, headKnown⟩ := first
  obtain ⟨tail, rfl, tailKnown⟩ := second
  refine ⟨head ++ tail, Array.append_assoc .., ?_⟩
  intro report member
  rcases Array.mem_append.mp member with member | member
  · exact headKnown report member
  · exact tailKnown report member

theorem push (reports : Array Entry) (report : Entry)
    (placed : Placed known report) : Extends known reports (reports.push report) := by
  refine ⟨#[report], by simp, ?_⟩
  intro other member
  rw [Array.mem_singleton.mp member]
  exact placed

end Extends

namespace Production

variable {α β : Type}

/-- A run that reports nothing further, and ends in failure or in a doomed value. -/
def Doomed (doomed : α → State → Prop) (state : State) (run : Option α × State) : Prop :=
  run.2.reports = state.reports ∧ ∀ value, run.1 = some value → doomed value run.2

/-- What a production does in the two modes: the same without a report; or, in the
filtered mode, one report and a failure or a doomed value, and in the verbatim mode
that report first. -/
inductive Agrees (stream : TokenStream) (known : Location → Prop)
    (doomed : α → State → Prop) (production : Production α) (state : State) : Prop where
  | silent {result : Option α} {after : State}
      (filtered : production ⟨stream, .filtered⟩ state = (result, after))
      (verbatim : production ⟨stream, .verbatim⟩ state = (result, after))
      (unchanged : after.reports = state.reports)
  | reported {report : Entry} {outcome result : Option α} {after last : State}
      (filtered : production ⟨stream, .filtered⟩ state = (outcome, after))
      (verbatim : production ⟨stream, .verbatim⟩ state = (result, last))
      (spoiled : ∀ value, outcome = some value → doomed value after)
      (placed : Placed known report)
      (one : after.reports = state.reports.push report)
      (more : Extends known after.reports last.reports)

/-- The same without doomed values: a report in the filtered mode is a failure. -/
abbrev Diagnoses (stream : TokenStream) (known : Location → Prop)
    (production : Production α) (state : State) : Prop :=
  Agrees stream known (fun _ _ => False) production state

variable {stream : TokenStream} {known : Location → Prop} {state after : State}
variable {production : Production α} {next : α → Production β}
variable {doomed : α → State → Prop} {later : β → State → Prop}

namespace Agrees

theorem appends (agrees : Agrees stream known doomed production state) {result : Option α}
    (run : production ⟨stream, .verbatim⟩ state = (result, after)) :
    Extends known state.reports after.reports := by
  cases agrees with
  | silent filtered verbatim unchanged =>
      cases run.symm.trans verbatim
      rw [unchanged]
      exact .refl known _
  | reported filtered verbatim spoiled placed one more =>
      cases run.symm.trans verbatim
      rw [one] at more
      exact (Extends.push _ _ placed).trans more

/-- A value in the filtered mode comes without a report, and in both modes. -/
theorem filtered_some (diagnoses : Diagnoses stream known production state) {value : α}
    (run : production ⟨stream, .filtered⟩ state = (some value, after)) :
    production ⟨stream, .verbatim⟩ state = (some value, after) ∧
      after.reports = state.reports := by
  cases diagnoses with
  | silent filtered verbatim unchanged =>
      cases run.symm.trans filtered
      exact ⟨verbatim, unchanged⟩
  | reported filtered verbatim spoiled =>
      cases run.symm.trans filtered
      exact (spoiled value rfl).elim

theorem filtered_size_le (agrees : Agrees stream known doomed production state)
    {result : Option α} (run : production ⟨stream, .filtered⟩ state = (result, after)) :
    state.reports.size ≤ after.reports.size := by
  cases agrees with
  | silent filtered verbatim unchanged =>
      cases run.symm.trans filtered
      exact Nat.le_of_eq (congrArg Array.size unchanged.symm)
  | reported filtered verbatim spoiled placed one more =>
      cases run.symm.trans filtered
      rw [one, Array.size_push]
      exact Nat.le_succ _

/-- Behind the report of the filtered run the verbatim run only adds reports. -/
theorem extends_of_report (agrees : Agrees stream known doomed production state)
    {outcome result : Option α} {last : State} {report : Entry}
    (filtered : production ⟨stream, .filtered⟩ state = (outcome, after))
    (verbatim : production ⟨stream, .verbatim⟩ state = (result, last))
    (one : after.reports = state.reports.push report) :
    Extends known after.reports last.reports := by
  cases agrees with
  | silent first second unchanged =>
      cases filtered.symm.trans first
      rw [unchanged] at one
      have sizes := congrArg Array.size one
      rw [Array.size_push] at sizes
      omega
  | reported first second spoiled placed one more =>
      cases filtered.symm.trans first
      cases verbatim.symm.trans second
      exact more

theorem mono (diagnoses : Diagnoses stream known production state) :
    Agrees stream known doomed production state := by
  cases diagnoses with
  | silent filtered verbatim unchanged => exact .silent filtered verbatim unchanged
  | reported filtered verbatim spoiled placed one more =>
      exact .reported filtered verbatim (fun value same => (spoiled value same).elim) placed
        one more

/-! ## Sequences -/

theorem pure (value : α) (state : State) :
    Agrees stream known doomed (Pure.pure value : Production α) state :=
  .silent rfl rfl rfl

theorem fail (state : State) :
    Agrees stream known doomed (fail : Production α) state :=
  .silent rfl rfl rfl

theorem reject {error : GrammarError} {location : Location} (placed : known location)
    (state : State) :
    Agrees stream known doomed (reject error location : Production α) state :=
  .reported rfl rfl nofun (placed_entry placed error) rfl (.refl known _)

theorem shift {other : Production α} {middle : State}
    (same : ∀ reporting,
      other ⟨stream, reporting⟩ state = production ⟨stream, reporting⟩ middle)
    (unchanged : middle.reports = state.reports)
    (rest : Agrees stream known doomed production middle) :
    Agrees stream known doomed other state := by
  cases rest with
  | silent filtered verbatim kept =>
      exact .silent ((same _).trans filtered) ((same _).trans verbatim) (kept.trans unchanged)
  | reported filtered verbatim spoiled placed one more =>
      rw [unchanged] at one
      exact .reported ((same _).trans filtered) ((same _).trans verbatim) spoiled placed one
        more

theorem read {value : α}
    (reads : ∀ reporting, production ⟨stream, reporting⟩ state = (some value, after))
    (unchanged : after.reports = state.reports)
    (rest : Agrees stream known later (next value) after) :
    Agrees stream known later (production >>= next) state := by
  refine rest.shift ?_ unchanged
  intro reporting
  exact bind_of_some next (reads reporting)

/-- A sequence.  Without a report both modes go on together.  Behind a doomed value the
filtered run reports nothing further, and the verbatim run adds reports only. -/
theorem sequence (first : Agrees stream known doomed production state)
    (rest : ∀ reporting value middle,
      production ⟨stream, reporting⟩ state = (some value, middle) →
        middle.reports = state.reports → Agrees stream known later (next value) middle)
    (fails : ∀ value middle,
      production ⟨stream, .filtered⟩ state = (some value, middle) → doomed value middle →
        state.reports.size < middle.reports.size →
          Doomed later middle (next value ⟨stream, .filtered⟩ middle))
    (adds : ∀ value middle result after,
      production ⟨stream, .verbatim⟩ state = (some value, middle) →
        next value ⟨stream, .verbatim⟩ middle = (result, after) →
          Extends known middle.reports after.reports) :
    Agrees stream known later (production >>= next) state := by
  cases first with
  | @silent result middle filtered verbatim unchanged =>
      cases result with
      | none => exact .silent (bind_of_none next filtered) (bind_of_none next verbatim) unchanged
      | some value =>
          refine .read (fun reporting => ?_) unchanged
            (rest .filtered value middle filtered unchanged)
          cases reporting
          · exact filtered
          · exact verbatim
  | @reported report outcome result middle last filtered verbatim spoiled placed one more =>
      obtain ⟨stop, stopped, kept, doom⟩ : ∃ stop, (production >>= next) ⟨stream, .filtered⟩
          state = stop ∧ stop.2.reports = middle.reports ∧
            ∀ value, stop.1 = some value → later value stop.2 := by
        cases outcome with
        | none => exact ⟨_, bind_of_none next filtered, rfl, nofun⟩
        | some value =>
            have grown : state.reports.size < middle.reports.size := by
              rw [one, Array.size_push]
              exact Nat.lt_succ_self _
            obtain ⟨kept, doom⟩ := fails value middle filtered (spoiled value rfl) grown
            exact ⟨_, bind_of_some next filtered, kept, doom⟩
      have one : stop.2.reports = state.reports.push report := kept.trans one
      rw [← kept] at more
      cases result with
      | none => exact .reported stopped (bind_of_none next verbatim) doom placed one more
      | some value =>
          cases run : next value ⟨stream, .verbatim⟩ last with
          | mk final ending =>
              have continued := (bind_of_some next verbatim).trans run
              have tail := adds value last final ending verbatim run
              exact .reported stopped continued doom placed one (more.trans tail)

theorem bind (first : Diagnoses stream known production state)
    (rest : ∀ reporting value middle,
      production ⟨stream, reporting⟩ state = (some value, middle) →
        Agrees stream known later (next value) middle) :
    Agrees stream known later (production >>= next) state := by
  refine .sequence first ?_ ?_ ?_
  · intro reporting value middle run _
    exact rest reporting value middle run
  · intro value middle run impossible
    exact impossible.elim
  · intro value middle result after run onwards
    exact (rest .verbatim value middle run).appends onwards

theorem map (diagnoses : Diagnoses stream known production state) (function : α → β) :
    Diagnoses stream known (function <$> production) state :=
  diagnoses.bind fun _ _ _ _ => .pure _ _

theorem restoring (diagnoses : Diagnoses stream known production state) :
    Diagnoses stream known production.restoring state := by
  cases diagnoses with
  | @silent result after filtered verbatim unchanged =>
      cases result with
      | none =>
          exact .silent (restoring_of_none filtered) (restoring_of_none verbatim) unchanged
      | some value =>
          exact .silent (restoring_of_some filtered) (restoring_of_some verbatim) unchanged
  | @reported report outcome result after last filtered verbatim spoiled placed one more =>
      cases outcome with
      | some value => exact (spoiled value rfl).elim
      | none =>
          have stopped := restoring_of_none filtered
          cases result with
          | none => exact .reported stopped (restoring_of_none verbatim) nofun placed one more
          | some value =>
              exact .reported stopped (restoring_of_some verbatim) nofun placed one more

/-! ## Tokens -/

theorem current {next : Token → Production β}
    (rest : Agrees stream known later (next (stream.get state.position)) state) :
    Agrees stream known later (Production.current >>= next) state := by
  refine .read ?_ rfl rest
  intro reporting
  rfl

theorem previous {next : Token → Production β}
    (rest : Agrees stream known later (next (stream.before state.position)) state) :
    Agrees stream known later (Production.previous >>= next) state := by
  refine .read ?_ rfl rest
  intro reporting
  rfl

theorem lexeme {next : Lexeme → Production β}
    (rest : Agrees stream known later (next (stream.get state.position).lexeme) state) :
    Agrees stream known later (Production.lexeme >>= next) state := by
  refine .read ?_ rfl rest
  intro reporting
  rfl

theorem position {next : Nat → Production β}
    (rest : Agrees stream known later (next state.position) state) :
    Agrees stream known later (Production.position >>= next) state := by
  refine .read ?_ rfl rest
  intro reporting
  rfl

theorem here {next : Location → Production β}
    (rest : Agrees stream known later (next (stream.reportLocation state.position)) state) :
    Agrees stream known later (Production.here >>= next) state := by
  refine .read ?_ rfl rest
  intro reporting
  rfl

theorem reportCount {next : Nat → Production β}
    (rest : Agrees stream known later (next state.reports.size) state) :
    Agrees stream known later (Production.reportCount >>= next) state := by
  refine .read ?_ rfl rest
  intro reporting
  rfl

theorem isAtEnd {next : Bool → Production β}
    (rest : Agrees stream known later (next (stream.isPast state.position)) state) :
    Agrees stream known later (Production.isAtEnd >>= next) state := by
  refine .read ?_ rfl rest
  intro reporting
  rfl

theorem peek {distance : Nat} {next : Token → Production β}
    (rest : Agrees stream known later (next (stream.get (state.position + distance))) state) :
    Agrees stream known later (Production.peek distance >>= next) state := by
  refine .read ?_ rfl rest
  intro reporting
  rfl

theorem check {lexeme : Lexeme} {next : Bool → Production β}
    (rest : Agrees stream known later
      (next (decide ((stream.get state.position).lexeme = lexeme))) state) :
    Agrees stream known later (Production.check lexeme >>= next) state := by
  refine .read ?_ rfl rest
  intro reporting
  rfl

theorem advance (state : State) : Diagnoses stream known Production.advance state := by
  cases past : stream.isPast state.position with
  | true =>
      have run : ∀ reporting, Production.advance ⟨stream, reporting⟩ state =
          (some state.position, state) := by
        intro reporting
        simp [Production.advance, past]
      exact .silent (run _) (run _) rfl
  | false =>
      have run : ∀ reporting, Production.advance ⟨stream, reporting⟩ state =
          (some state.position, state.next) := by
        intro reporting
        simp [Production.advance, past, State.next]
      exact .silent (run _) (run _) rfl

theorem expect (lexeme : Lexeme) (state : State) :
    Diagnoses stream known (Production.expect lexeme) state := by
  refine .check ?_
  split
  · exact .advance state
  · exact .fail state

/-! ## Productions that report nothing -/

theorem same (silent : Diagnoses stream (fun _ => False) production state) :
    ∃ result after, (∀ reporting, production ⟨stream, reporting⟩ state = (result, after)) ∧
      after.reports = state.reports := by
  cases silent with
  | @silent result after filtered verbatim unchanged =>
      refine ⟨result, after, ?_, unchanged⟩
      intro reporting
      cases reporting
      · exact filtered
      · exact verbatim
  | reported filtered verbatim spoiled placed =>
      obtain ⟨_, _, impossible⟩ := placed
      exact impossible.elim

/-- What is tried without a report may fail in any way. -/
theorem attemptSilent {next : Option α → Production β}
    (first : Diagnoses stream (fun _ => False) production state)
    (rest : ∀ reporting result middle,
      production ⟨stream, reporting⟩ state = (result, middle) →
        Agrees stream known later (next result) middle) :
    Agrees stream known later (production.outcome >>= next) state := by
  obtain ⟨result, after, run, unchanged⟩ := first.same
  refine .read ?_ unchanged (rest .filtered result after (run _))
  intro reporting
  exact outcome_of (run reporting)

theorem eaten (lexeme : Lexeme) (state : State) :
    Diagnoses stream known (Production.eat lexeme) state := by
  obtain ⟨result, after, run, unchanged⟩ := same (.expect lexeme state)
  exact .silent (outcome_of (run _)) (outcome_of (run _)) unchanged

theorem eat {lexeme : Lexeme} {next : Option TokenId → Production β}
    (valid : lexeme ≠ .invalid)
    (found : (stream.get state.position).lexeme = lexeme →
      Agrees stream known later (next (some state.position)) state.next)
    (missing : (stream.get state.position).lexeme ≠ lexeme →
      Agrees stream known later (next none) state) :
    Agrees stream known later (Production.eat lexeme >>= next) state := by
  refine .attemptSilent (.expect lexeme state) ?_
  intro reporting result middle run
  cases result with
  | none =>
      obtain ⟨different, rfl⟩ := expect_none_run.mp run
      exact missing different
  | some place =>
      obtain ⟨same, rfl, rfl⟩ := (expect_run valid).mp run
      exact found same

/-! ## Failures that are reported -/

/-- What is tried may fail with a report or without one.  Without one, both modes go
on; with one, the filtered run ends from there on. -/
theorem attempt {next : Option α → Production β}
    (first : Diagnoses stream known production state)
    (success : ∀ reporting value middle,
      production ⟨stream, reporting⟩ state = (some value, middle) →
        Agrees stream known later (next (some value)) middle)
    (failure : ∀ reporting middle,
      production ⟨stream, reporting⟩ state = (none, middle) →
        middle.reports = state.reports → Agrees stream known later (next none) middle)
    (fails : ∀ middle, production ⟨stream, .filtered⟩ state = (none, middle) →
      state.reports.size < middle.reports.size →
        Doomed later middle (next none ⟨stream, .filtered⟩ middle))
    (adds : ∀ middle result after, production ⟨stream, .verbatim⟩ state = (none, middle) →
      next none ⟨stream, .verbatim⟩ middle = (result, after) →
        Extends known middle.reports after.reports) :
    Agrees stream known later (production.outcome >>= next) state := by
  have agrees : Agrees stream known (fun result _ => result = none) production.outcome
      state := by
    cases first with
    | silent filtered verbatim unchanged =>
        exact .silent (outcome_of filtered) (outcome_of verbatim) unchanged
    | @reported report outcome result middle last filtered verbatim spoiled placed one more =>
        refine .reported (outcome_of filtered) (outcome_of verbatim) ?_ placed one more
        intro value same
        cases same
        cases outcome with
        | none => rfl
        | some value => exact (spoiled value rfl).elim
  refine .sequence agrees ?_ ?_ ?_
  · intro reporting result middle run unchanged
    have run := outcome_run.mp run
    cases result with
    | none => exact failure reporting middle run unchanged
    | some value => exact success reporting value middle run
  · intro result middle run failed grown
    have run := outcome_run.mp run
    subst failed
    exact fails middle run grown
  · intro result middle final after run onwards
    have run := outcome_run.mp run
    cases result with
    | none => exact adds middle final after run onwards
    | some value => exact (success .verbatim value middle run).appends onwards

/-- The failure behind a report is silent in the filtered mode if that report has been
counted. -/
theorem followOn_filtered {before : Nat} {error : GrammarError} {location : Location}
    (explained : before < state.reports.size) :
    (reportFollowOn before error location >>= fun _ => (Production.fail : Production α))
      ⟨stream, .filtered⟩ state = (none, state) := by
  simp [reportFollowOn_bind, explained, Production.fail]

theorem followOn_verbatim {before : Nat} {error : GrammarError} {location : Location} :
    (reportFollowOn before error location >>= fun _ => (Production.fail : Production α))
      ⟨stream, .verbatim⟩ state =
        (none, ⟨state.position, state.reports.push (error.entry location)⟩) := by
  simp [reportFollowOn_bind, Production.fail]

theorem followOn {before : Nat} {error : GrammarError} {location : Location}
    (placed : known location) (unexplained : before = state.reports.size) :
    Diagnoses stream known
      (reportFollowOn before error location >>= fun _ => (Production.fail : Production α))
      state := by
  have filtered : (reportFollowOn before error location >>= fun _ =>
      (Production.fail : Production α)) ⟨stream, .filtered⟩ state =
        (none, ⟨state.position, state.reports.push (error.entry location)⟩) := by
    simp [reportFollowOn_bind, unexplained, Production.fail]
  exact .reported filtered followOn_verbatim (by simp) (placed_entry placed error) rfl
    (.refl known _)

theorem orRejectAt {error : GrammarError} {location : Location} (placed : known location)
    (first : Diagnoses stream known production state) :
    Diagnoses stream known (production.orRejectAt error location) state := by
  refine .reportCount (.attempt first ?_ ?_ ?_ ?_)
  · intro reporting value middle run
    exact .pure value middle
  · intro reporting middle run unchanged
    exact .followOn placed (congrArg Array.size unchanged.symm)
  · intro middle run explained
    simp only [followOn_filtered explained]
    exact ⟨rfl, nofun⟩
  · intro middle result after run onwards
    cases followOn_verbatim.symm.trans onwards
    exact .push _ _ (placed_entry placed error)

theorem orReject {error : GrammarError} (places : Places stream known)
    (first : Diagnoses stream known production state) :
    Diagnoses stream known (production.orReject error) state := by
  refine .reportCount (.attempt first ?_ ?_ ?_ ?_)
  · intro reporting value middle run
    exact .pure value middle
  · intro reporting middle run unchanged
    exact .here (.followOn (places.position _) (congrArg Array.size unchanged.symm))
  · intro middle run explained
    simp only [here_bind, followOn_filtered explained]
    exact ⟨rfl, nofun⟩
  · intro middle result after run onwards
    simp only [here_bind] at onwards
    cases followOn_verbatim.symm.trans onwards
    exact .push _ _ (placed_entry (places.position _) error)

/-- A failure behind `orReject` never goes without a report. -/
theorem orReject_grows {error : GrammarError}
    (first : Diagnoses stream known production state)
    (run : production.orReject error ⟨stream, .filtered⟩ state = (none, after)) :
    state.reports.size < after.reports.size := by
  obtain ⟨middle, failed, -, ⟨grown, rfl⟩ | pushed⟩ := orReject_none_run run
  · exact grown
  · have kept := first.filtered_size_le failed
    rw [pushed, Array.size_push]
    exact Nat.lt_succ_of_le kept

/-! ## Choice and repetition -/

theorem either {first second : Production α}
    (silent : Diagnoses stream (fun _ => False) first state)
    (other : ∀ reporting middle, first ⟨stream, reporting⟩ state = (none, middle) →
      Diagnoses stream known second middle) :
    Diagnoses stream known (either first second) state := by
  refine .attemptSilent silent ?_
  intro reporting result middle run
  cases result with
  | none => exact other reporting middle run
  | some value => exact .pure value middle

theorem unexplained {before : Nat} {next : Bool → Production β}
    (count : before = state.reports.size)
    (rest : Agrees stream known later (next false) state) :
    Agrees stream known later (isExplained before >>= next) state := by
  refine .read ?_ rfl rest
  intro reporting
  simp [isExplained, count]

/-- Whatever was reported before, the verbatim run of alternatives only adds reports. -/
theorem firstOf_appends {before : Nat} {productions : List (Production α)}
    (each : ∀ production ∈ productions, ∀ state, Diagnoses stream known production state)
    {result : Option α}
    (run : firstOf before productions ⟨stream, .verbatim⟩ state = (result, after)) :
    Extends known state.reports after.reports := by
  induction productions generalizing state with
  | nil =>
      cases run
      exact .refl known _
  | cons production rest induction =>
      have tail : ∀ other ∈ rest, ∀ state, Diagnoses stream known other state := by
        intro other member
        exact each other (List.mem_cons_of_mem production member)
      cases first : production ⟨stream, .verbatim⟩ state with
      | mk value middle =>
          have head := (each production (List.mem_cons_self ..) state).appends first
          simp only [firstOf, bind_apply, outcome, first] at run
          cases value with
          | some value =>
              cases run
              exact head
          | none =>
              simp only [isExplained_bind] at run
              exact head.trans (induction tail (by simpa using run))

theorem firstOf {before : Nat} {productions : List (Production α)}
    (each : ∀ production ∈ productions, ∀ state, Diagnoses stream known production state)
    (count : before = state.reports.size) :
    Diagnoses stream known (firstOf before productions) state := by
  induction productions generalizing state with
  | nil => exact .fail state
  | cons production rest induction =>
      have tail : ∀ other ∈ rest, ∀ state, Diagnoses stream known other state := by
        intro other member
        exact each other (List.mem_cons_of_mem production member)
      refine .attempt (each production (List.mem_cons_self ..) state) ?_ ?_ ?_ ?_
      · intro reporting value middle run
        exact .pure value middle
      · intro reporting middle run unchanged
        have same : before = middle.reports.size := by rw [count, unchanged]
        exact .unexplained same (induction tail same)
      · intro middle run explained
        rw [← count] at explained
        simp only [isExplained_bind, explained, decide_true, Bool.and_true, if_true]
        exact ⟨rfl, nofun⟩
      · intro middle result after run onwards
        simp only [isExplained_bind] at onwards
        exact firstOf_appends tail (by simpa using onwards)

/-- A repetition whose rounds may stop behind a report, where the state is stuck. -/
theorem collectAfter {round : Production (Round α)} {stuck : State → Prop}
    (each : ∀ state,
      Agrees stream known (fun asked after => asked = .stop ∧ stuck after) round state)
    (earlier : List α) (state : State) :
    Agrees stream known (fun _ after => stuck after) (collectAfter round earlier) state := by
  induction left : stream.size - state.position using Nat.strongRecOn generalizing
    earlier state with
  | ind left induction =>
      subst left
      cases each state with
      | @silent result middle filtered verbatim unchanged =>
          have run : ∀ reporting, round ⟨stream, reporting⟩ state = (result, middle) := by
            intro reporting
            cases reporting
            · exact filtered
            · exact verbatim
          rcases result with _ | (_ | value | value)
          · exact .silent (collectAfter_none filtered) (collectAfter_none verbatim) unchanged
          · exact .silent (collectAfter_stop filtered) (collectAfter_stop verbatim) unchanged
          · exact .silent (collectAfter_last filtered) (collectAfter_last verbatim) unchanged
          · by_cases forward : stream.size - middle.position < stream.size - state.position
            · have rest := induction _ forward (value :: earlier) middle rfl
              exact rest.shift (fun reporting => collectAfter_more (run reporting) forward)
                unchanged
            · exact .silent (collectAfter_still filtered forward)
                (collectAfter_still verbatim forward) unchanged
      | @reported report outcome result middle last filtered verbatim spoiled placed one more =>
          obtain ⟨outcome, stopped, spoiled⟩ : ∃ outcome,
              Production.collectAfter round earlier ⟨stream, .filtered⟩ state =
                (outcome, middle) ∧ ∀ values, outcome = some values → stuck middle := by
            cases outcome with
            | none => exact ⟨none, collectAfter_none filtered, nofun⟩
            | some asked =>
                obtain ⟨rfl, stands⟩ := spoiled asked rfl
                exact ⟨_, collectAfter_stop filtered, fun _ _ => stands⟩
          rcases result with _ | (_ | value | value)
          · exact .reported stopped (collectAfter_none verbatim) spoiled placed one more
          · exact .reported stopped (collectAfter_stop verbatim) spoiled placed one more
          · exact .reported stopped (collectAfter_last verbatim) spoiled placed one more
          · by_cases forward : stream.size - last.position < stream.size - state.position
            · have rest := induction _ forward (value :: earlier) last rfl
              cases onwards : Production.collectAfter round (value :: earlier)
                  ⟨stream, .verbatim⟩ last with
              | mk final ending =>
                  have continued := (collectAfter_more verbatim forward).trans onwards
                  exact .reported stopped continued spoiled placed one
                    (more.trans (rest.appends onwards))
            · exact .reported stopped (collectAfter_still verbatim forward) spoiled placed
                one more

theorem collect {round : Production (Round α)}
    (each : ∀ state, Diagnoses stream known round state) (state : State) :
    Diagnoses stream known (collect round) state :=
  .collectAfter (fun state => (each state).mono) [] state

end Agrees

end Production

end CppsFrontend.Grammar
