import CppsFrontend.Proofs.Grammar.Correspondence
import CppsFrontend.Proofs.Grammar.Extension

/-!
# Parsing a file in parts

A file that is parsed without a report may be followed by another one.  The two together
are parsed into the declarations of both, those of the second one with their tokens counted
on, and what is reported is what is wrong with the second one.  Only `else` is taken for a
part of what is before it.
-/

set_option autoImplicit false

namespace CppsFrontend

namespace Grammar

open Production

variable {stream part whole first second : TokenStream} {reporting : Reporting}
variable {nested : Nested} {state after last : State}

/-! ## Repetitions -/

theorem Production.Rounds.collectAfter {α : Type} {round : Production (Round α)} {input : Input}
    {values : List α} (rounds : Rounds round input state values after) (earlier : List α) :
    Production.collectAfter round earlier input state =
      (some (earlier.reverse ++ values), after) := by
  induction rounds generalizing earlier with
  | stop run => rw [collectAfter_stop run, List.append_nil]
  | last run => rw [collectAfter_last run, List.reverse_cons]
  | more run forward rest induction =>
      rw [collectAfter_more run forward, induction, List.reverse_cons, List.append_assoc]
      rfl

/-! ## Places counted on -/

/-- The tokens of a stream at the end of another one. -/
def countedComparison (first second : TokenStream) : Comparison :=
  ⟨first, second, second.size - first.size, id⟩

theorem relocate_reports (move : Relocation) (placed : move.location = id)
    (reports : Array Entry) : reports.map (relocate move) = reports := by
  have same : (relocate move : Entry → Entry) = id := by
    funext report
    obtain ⟨message, location, fix⟩ := report
    have kept : relocate move location = location := by
      cases location with
      | none => rfl
      | some location => simp [placed]
    exact congrArg (Entry.mk message · fix) kept
  rw [same, Array.map_id]

theorem countedComparison_aligned (sizes : first.size ≤ second.size)
    (token : ∀ place, second.get (place + (second.size - first.size)) = first.get place)
    (report : ∀ place, first.reportLocation place =
      second.reportLocation (place + (second.size - first.size))) :
    (countedComparison first second).Aligned where
  size := Nat.add_sub_of_le sizes
  token place := by
    change Comparison.SameToken _ (first.get place) (second.get (place + _))
    rw [countedComparison, token]
    exact ⟨rfl, rfl, rfl⟩
  report place := report place
  continues place _ := by
    change continuesPostfix (first.get place) _ _ = continuesPostfix (second.get (place + _)) _ _
    rw [countedComparison, token, token, token]
  opening equals braces := by
    have same : ∀ location : Option Location,
        Option.map (Relocatable.relocate (⟨id, id⟩ : Relocation)) location = location := by
      rintro (_ | location) <;> rfl
    cases (same _).symm.trans (Eq.trans equals (same _))
    cases braces
    rfl

/-- What a file makes of a stream, it makes of the same tokens at the end of another one
and with more depth of nesting. -/
theorem file_counted (aligned : (countedComparison first second).Aligned)
    (reporting : Reporting) (more : Nat) (earlier : Array Entry) :
    ∃ declarations after,
      file (productions (first.size + 1)) ⟨first, reporting⟩ ⟨0, earlier⟩ =
          (declarations, after) ∧
        file (productions (first.size + 1 + more)) ⟨second, reporting⟩
            ⟨second.size - first.size, earlier⟩ =
          (relocate (.shift (second.size - first.size)) declarations,
            ⟨after.position + (second.size - first.size), after.reports⟩) := by
  have inner : MatchesNested (countedComparison first second) reporting 0
      (productions (first.size + 1)) (productions (first.size + 1 + more)) :=
    matchesNested_productions aligned (first.size + 1) more 0 (by simp [countedComparison])
  have parallel : (countedComparison first second).Parallel ⟨0, earlier⟩
      ⟨second.size - first.size, earlier⟩ := by
    refine ⟨(Nat.zero_add _).symm, ?_, Nat.zero_le _⟩
    rw [relocate_reports _ rfl, relocate_reports _ rfl]
  cases file_matches aligned inner parallel with
  | @intro declarations₁ declarations₂ after₁ after₂ run₁ run₂ alike moved _ =>
      have declarations : relocate (.shift (second.size - first.size)) declarations₁ =
          declarations₂ :=
        alike.trans (relocate_none_option relocate_none_declarations declarations₂)
      have reports := moved.reports
      rw [relocate_reports _ rfl, relocate_reports _ rfl] at reports
      have position : after₂.position = after₁.position + (second.size - first.size) :=
        moved.position
      refine ⟨declarations₁, after₁, run₁, run₂.trans ?_⟩
      rw [declarations, reports, ← position]

/-- More depth than a file has tokens makes no difference. -/
theorem file_depth (stream : TokenStream) (reporting : Reporting) (more : Nat)
    (earlier : Array Entry) :
    file (productions (stream.size + 1 + more)) ⟨stream, reporting⟩ ⟨0, earlier⟩ =
      file (productions (stream.size + 1)) ⟨stream, reporting⟩ ⟨0, earlier⟩ := by
  have aligned : (countedComparison stream stream).Aligned := by
    refine countedComparison_aligned (Nat.le_refl _) ?_ ?_
    · intro place
      rw [Nat.sub_self, Nat.add_zero]
    · intro place
      rw [Nat.sub_self, Nat.add_zero]
  obtain ⟨declarations, after, run₁, run₂⟩ := file_counted aligned reporting more earlier
  rw [Nat.sub_self] at run₂
  rw [run₁, run₂]
  refine congrArg (·, after) ?_
  exact relocate_none_option relocate_none_declarations declarations

/-! ## The declarations of the first part -/

theorem Consecutive.ordered {declarations : List Declaration} {start stop : Nat}
    (consecutive : Consecutive stream declarations start stop) : start ≤ stop := by
  induction consecutive with
  | nil => exact Nat.le_refl _
  | cons first rest induction =>
      obtain ⟨_, _, covers, _⟩ := first
      exact Nat.le_trans covers.ordered induction

theorem Covers.last_place {front : List Leaf} {leaf : Leaf} {start stop : Nat}
    (covers : Covers stream start stop (front ++ [leaf])) : leaf.place + 1 = stop := by
  have length := covers.length_eq
  rw [List.length_append, List.length_singleton] at length
  have place := congrArg (·[front.length]?) covers.places
  simp only [List.map_append, List.map_singleton] at place
  rw [List.getElem?_append_right (by simp), List.getElem?_range' (by omega)] at place
  simp only [List.length_map, Nat.sub_self, List.getElem?_cons_zero, Option.some.injEq] at place
  rw [place, Nat.one_mul, Nat.add_assoc, length, Nat.add_sub_cancel' covers.ordered]

theorem Leaf.Fits.closing {leaf : Leaf} (fits : leaf.Fits stream)
    (closing : IsClosing leaf.shown) : IsClosing (stream.get leaf.place).lexeme := by
  rcases fits.shown with same | ⟨name, _⟩
  · rwa [same]
  · rw [name] at closing
    rcases closing with other | other <;> cases other

/-- The last token of consecutive declarations closes the last one. -/
theorem Consecutive.closing {declarations : List Declaration} {start stop : Nat}
    (consecutive : Consecutive stream declarations start stop) (place : Nat)
    (begins : start ≤ place) (ends : place + 1 = stop) : IsClosing (stream.get place).lexeme := by
  induction consecutive with
  | nil => omega
  | @cons declaration declarations start middle stop first rest induction =>
      by_cases further : middle ≤ place
      · exact induction further ends
      · obtain ⟨leaves, derives, covers, _⟩ := first
        obtain ⟨front, last, rfl, closing⟩ := derives.closes rfl
        have fits := covers.fits last (by simp)
        have behind : middle = place + 1 := by
          have ordered := rest.ordered
          omega
        have same : last.place = place := Nat.succ.inj (covers.last_place.trans behind)
        exact same ▸ fits.closing closing

theorem fileRound_run {round : Round Declaration}
    (run : fileRound nested ⟨stream, reporting⟩ state = (some round, after)) :
    round = .stop ∧ after = state ∧ stream.size ≤ state.position ∨
      state.position < stream.size ∧
        (round = .stop ∧
            orReject (declaration nested true) .declarationExpected ⟨stream, reporting⟩ state =
              (none, after) ∨
          ∃ value, round = .more value ∧
            orReject (declaration nested true) .declarationExpected ⟨stream, reporting⟩ state =
              (some value, after)) := by
  cases past : stream.isPast state.position with
  | true =>
      cases (fileRound_end past).symm.trans run
      exact .inl ⟨rfl, rfl, of_decide_eq_true past⟩
  | false =>
      refine .inr ⟨(stream.isPast_eq_false_iff _).mp past, ?_⟩
      cases derived : orReject (declaration nested true) .declarationExpected
          ⟨stream, reporting⟩ state with
      | mk result middle =>
          cases result with
          | none =>
              cases (fileRound_stop past derived).symm.trans run
              exact .inl ⟨rfl, rfl⟩
          | some value =>
              cases (fileRound_more past derived).symm.trans run
              exact .inr ⟨value, rfl, rfl⟩

theorem fileRound_continued (continued : Continued part whole)
    (inner : PersistsNested part whole nested)
    (other : DiagnosesNested whole (fun _ => True) nested) (reporting : Reporting)
    {value : Declaration} (within : state.position < part.size)
    (run : orReject (declaration nested true) .declarationExpected ⟨part, .filtered⟩ state =
      (some value, after)) :
    fileRound nested ⟨whole, reporting⟩ state = (some (.more value), after) ∧
      after.position ≤ part.size ∧ after.reports = state.reports := by
  have persists : Persists part whole .closing
      (orReject (declaration nested true) .declarationExpected) state :=
    .orReject continued (declaration_persists continued inner true within)
  have diagnoses : Diagnoses whole (fun _ => True)
      (orReject (declaration nested true) .declarationExpected) state :=
    .orReject (places_everywhere whole)
      (declaration_diagnoses (places_everywhere whole) other true state)
  have notPast : whole.isPast state.position = false :=
    (whole.isPast_eq_false_iff _).mpr (Nat.lt_of_lt_of_le within continued.size)
  obtain ⟨same, ends, silent⟩ : orReject (declaration nested true) .declarationExpected
        ⟨whole, .filtered⟩ state = (some value, after) ∧
      after.position ≤ part.size ∧ after.reports = state.reports := by
    cases persists with
    | reported runs spoiled grown =>
        cases run.symm.trans runs
        exact (spoiled value rfl).elim
    | inside runs same silent within =>
        cases run.symm.trans runs
        exact ⟨same, Nat.le_of_lt within, silent⟩
    | closed _ runs same silent ends =>
        cases run.symm.trans runs
        exact ⟨same, Nat.le_of_eq ends, silent⟩
    | wanting loose => cases loose
  refine ⟨fileRound_more notPast ?_, ends, silent⟩
  cases reporting with
  | filtered => exact same
  | verbatim => exact (diagnoses.filtered_some same).1

/-- The declarations of a part are derived as the first ones of the whole. -/
theorem fileRounds_continued (continued : Continued part whole)
    (inner : PersistsNested part whole nested)
    (other : DiagnosesNested whole (fun _ => True) nested) (reporting : Reporting)
    {declarations : List Declaration}
    (rounds : Rounds (fileRound nested) ⟨part, .filtered⟩ state declarations last)
    (inside : state.position ≤ part.size) (silent : last.reports = state.reports)
    (earlier : List Declaration) :
    last.position = part.size ∧
      collectAfter (fileRound nested) earlier ⟨whole, reporting⟩ state =
        collectAfter (fileRound nested) (declarations.reverse ++ earlier) ⟨whole, reporting⟩
          last := by
  induction rounds generalizing earlier with
  | @stop state after run =>
      rcases fileRound_run run with ⟨_, rfl, past⟩ | ⟨within, ⟨_, failed⟩ | ⟨value, other, _⟩⟩
      · exact ⟨Nat.le_antisymm inside past, rfl⟩
      · have grown := (declaration_diagnoses (places_everywhere part) inner.diagnoses true
          state).orReject_grows failed
        rw [silent] at grown
        exact absurd grown (Nat.lt_irrefl _)
      · cases other
  | last run =>
      rcases fileRound_run run with ⟨other, _⟩ | ⟨_, ⟨other, _⟩ | ⟨value, other, _⟩⟩ <;>
        cases other
  | @more state middle after value values run forward rest induction =>
      rcases fileRound_run run with ⟨other, _⟩ | ⟨within, ⟨other, _⟩ | ⟨value, same, derived⟩⟩
      · cases other
      · cases other
      · cases same
        obtain ⟨continues, ends, kept⟩ :=
          fileRound_continued continued inner other reporting within derived
        obtain ⟨whole, rest⟩ := induction ends (silent.trans kept.symm) (value :: earlier)
        refine ⟨whole, ?_⟩
        rw [collectAfter_more continues, rest]
        · simp
        · have size := continued.size
          simp only [remaining] at forward ⊢
          omega

theorem file_some (sound : SoundNested nested) (reporting : Reporting) (state : State)
    (inside : state.position ≤ stream.size) :
    ∃ declarations after,
      file nested ⟨stream, reporting⟩ state = (some declarations, after) := by
  obtain ⟨declarations, after, run, _⟩ := fileRounds_consecutive sound [] state inside
  exact ⟨_, after, run⟩

/-! ## The two parts -/

section Joined

variable (joined : whole.tokens = first.tokens ++ second.tokens)

include joined

theorem size_joined : whole.size = first.size + second.size := by
  simp [TokenStream.size, joined]

theorem get_first (place : Nat) (within : place < first.size) :
    whole.get place = first.get place := by
  simp only [TokenStream.get, joined, Array.getElem?_append_left within]

theorem get_second (place : Nat) : whole.get (place + first.size) = second.get place := by
  have found : whole.tokens[place + first.size]? = second.tokens[place]? := by
    have further : first.tokens.size ≤ place + first.size := Nat.le_add_left ..
    rw [joined, Array.getElem?_append_right further]
    exact congrArg (second.tokens[·]?) (Nat.add_sub_cancel ..)
  simp only [TokenStream.get, found]

theorem reportLocation_second (nonempty : second.size ≠ 0) (place : Nat) :
    second.reportLocation place = whole.reportLocation (place + first.size) := by
  have past : whole.isPast (place + first.size) = second.isPast place := by
    rw [TokenStream.isPast, TokenStream.isPast, size_joined joined, decide_eq_decide]
    omega
  have last : whole.tokens.back? = second.tokens.back? := by
    rw [joined, Array.back?_append, Array.back?_eq_getElem?]
    have inside : second.tokens.size - 1 < second.tokens.size := Nat.sub_one_lt nonempty
    rw [Array.getElem?_eq_getElem inside]
    rfl
  simp only [TokenStream.reportLocation, past, last, get_second joined]

theorem continued_joined {declarations : List Declaration}
    (consecutive : Consecutive first declarations 0 first.size)
    (behind : (second.get 0).lexeme ≠ .keyword .elseWord) : Continued first whole where
  size := by
    rw [size_joined joined]
    exact Nat.le_add_right ..
  token := get_first joined
  last place ends := consecutive.closing place (Nat.zero_le _) ends
  behind := by
    have same := get_second joined 0
    rw [Nat.zero_add] at same
    rwa [same]

/-- From the end of the first part on, the whole is parsed like the second part. -/
theorem file_second (reporting : Reporting) (earlier : Array Entry) :
    ∃ declarations after,
      file (productions (second.size + 1)) ⟨second, reporting⟩ ⟨0, earlier⟩ =
          (some declarations, after) ∧
        file (productions (whole.size + 1)) ⟨whole, reporting⟩ ⟨first.size, earlier⟩ =
          (some (relocate (.shift first.size) declarations),
            ⟨after.position + first.size, after.reports⟩) := by
  have size := size_joined joined
  by_cases empty : second.size = 0
  · -- Nothing is behind the first part, and nothing is left to parse in either stream.
    have ended : ∀ {stream : TokenStream} {nested : Nested} {place : Nat}, stream.size ≤ place →
        file nested ⟨stream, reporting⟩ ⟨place, earlier⟩ = (some [], ⟨place, earlier⟩) := by
      intro stream nested place past
      exact collectAfter_stop (fileRound_end (decide_eq_true past))
    refine ⟨[], ⟨0, earlier⟩, ended (Nat.le_of_eq empty), ?_⟩
    rw [ended (by omega), Nat.zero_add]
    rfl
  · have shift : whole.size - second.size = first.size := by omega
    have aligned : (countedComparison second whole).Aligned := by
      refine countedComparison_aligned (by omega) ?_ ?_
      · intro place
        rw [shift, get_second joined]
      · intro place
        rw [shift, reportLocation_second joined empty]
    obtain ⟨declarations, after, run₁, run₂⟩ :=
      file_counted aligned reporting first.size earlier
    rw [shift, show second.size + 1 + first.size = whole.size + 1 by omega] at run₂
    obtain ⟨found, final, succeeds⟩ := file_some (soundNested_productions (second.size + 1))
      reporting ⟨0, earlier⟩ (Nat.zero_le second.size)
    cases run₁.symm.trans succeeds
    exact ⟨found, after, run₁, run₂⟩

end Joined

end Grammar

open Grammar

/-- A file without errors is parsed the same in both modes, up to its end. -/
theorem parseAfter_silent {stream : TokenStream} {reporting : Reporting} {earlier : Array Entry}
    (silent : (parseAfter earlier reporting stream).errors = earlier) :
    parseAfter earlier reporting stream = parseAfter earlier .filtered stream ∧
      (parseAfter earlier .filtered stream).errors = earlier ∧
      Consecutive stream (parseAfter earlier .filtered stream).declarations 0 stream.size := by
  obtain ⟨_, _, consecutive, ends⟩ := parseAfter_modes (places_everywhere stream) earlier
  rcases ends with ⟨whole, unchanged, same⟩ | ⟨report, _, _, one, more, extended, _⟩
  · rw [whole] at consecutive
    refine ⟨?_, unchanged, consecutive⟩
    cases reporting with
    | filtered => rfl
    | verbatim => exact same
  · have sizes : (parseAfter earlier reporting stream).errors.size ≠ earlier.size := by
      cases reporting with
      | filtered => simp [one]
      | verbatim =>
          simp only [extended, Array.size_append, Array.size_push]
          omega
    exact absurd (congrArg Array.size silent) sizes

/-- A file that is parsed without a report, and another one behind it that does not begin
with `else`: the declarations are those of both, the tokens of the second one counted on,
and the errors are those of the second one. -/
theorem parseAfter_append {first second whole : TokenStream} {reporting : Reporting}
    {earlier : Array Entry} (joined : whole.tokens = first.tokens ++ second.tokens)
    (silent : (parseAfter earlier reporting first).errors = earlier)
    (behind : (second.get 0).lexeme ≠ .keyword .elseWord) :
    parseAfter earlier reporting whole =
      ⟨(parseAfter earlier reporting first).declarations ++
          relocate (.shift first.size) (parseAfter earlier reporting second).declarations,
        (parseAfter earlier reporting second).errors,
        (parseAfter earlier reporting second).position + first.size⟩ := by
  obtain ⟨same, unchanged, consecutive⟩ := parseAfter_silent silent
  have size := size_joined joined
  have continued := continued_joined joined consecutive behind
  obtain ⟨declarations, last, run⟩ := file_some (soundNested_productions (first.size + 1))
    .filtered ⟨0, earlier⟩ (Nat.zero_le first.size)
  have parsed := parseAfter_eq run
  have deeper := file_depth first .filtered second.size earlier
  rw [run, show first.size + 1 + second.size = whole.size + 1 by omega] at deeper
  rw [parsed] at unchanged
  have inner := persistsNested_productions continued (whole.size + 1)
  have other := diagnosesNested_productions (places_everywhere whole) (whole.size + 1)
  obtain ⟨ends, begins⟩ := fileRounds_continued continued inner other reporting
    (Production.collect_run deeper) (Nat.zero_le _) unchanged []
  obtain ⟨others, after, run₁, run₂⟩ := file_second joined reporting earlier
  have start : last = ⟨first.size, earlier⟩ := by
    rw [← ends, ← unchanged]
  have rest := (Production.collect_run run₂).collectAfter (declarations.reverse ++ [])
  rw [← start, ← begins] at rest
  rw [parseAfter_eq rest, same, parsed, parseAfter_eq run₁]
  simp

/-- The tokens of `x: T;`, and those of `y: U; z` on the next line. -/
def firstLine : List Token := [
  ⟨.identifier, ⟨some 0, some 0⟩, "x"⟩,
  ⟨.punctuator .colon, ⟨some 0, some 1⟩, ":"⟩,
  ⟨.identifier, ⟨some 0, some 3⟩, "T"⟩,
  ⟨.punctuator .semicolon, ⟨some 0, some 4⟩, ";"⟩]

def nextLine : List Token := [
  ⟨.identifier, ⟨some 1, some 0⟩, "y"⟩,
  ⟨.punctuator .colon, ⟨some 1, some 1⟩, ":"⟩,
  ⟨.identifier, ⟨some 1, some 3⟩, "U"⟩,
  ⟨.punctuator .semicolon, ⟨some 1, some 4⟩, ";"⟩,
  ⟨.identifier, ⟨some 1, some 6⟩, "z"⟩]

theorem nextLine_append :
    let first := TokenStream.ofTokens firstLine
    let second := TokenStream.ofTokens nextLine
    let whole := TokenStream.ofTokens (firstLine ++ nextLine)
    whole.tokens = first.tokens ++ second.tokens ∧
      (parseAfter #[] .filtered first).errors = #[] ∧
      (second.get 0).lexeme ≠ .keyword .elseWord ∧
      (parseAfter #[] .filtered first).declarations.length = 1 ∧
      (parseAfter #[] .filtered second).declarations.length = 1 ∧
      (parseAfter #[] .filtered second).errors.size = 1 ∧
      parseAfter #[] .filtered whole =
        ⟨(parseAfter #[] .filtered first).declarations ++
            relocate (.shift first.size) (parseAfter #[] .filtered second).declarations,
          (parseAfter #[] .filtered second).errors,
          (parseAfter #[] .filtered second).position + first.size⟩ := by
  intro first second whole
  have joined : whole.tokens = first.tokens ++ second.tokens := by decide
  obtain ⟨silent, behind, single, one, reported⟩ :
      (parseAfter #[] .filtered first).errors = #[] ∧
        (second.get 0).lexeme ≠ .keyword .elseWord ∧
        (parseAfter #[] .filtered first).declarations.length = 1 ∧
        (parseAfter #[] .filtered second).declarations.length = 1 ∧
        (parseAfter #[] .filtered second).errors.size = 1 := by
    decide +kernel
  exact ⟨joined, silent, behind, single, one, reported, parseAfter_append joined silent behind⟩

end CppsFrontend
