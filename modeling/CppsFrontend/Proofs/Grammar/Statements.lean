import CppsFrontend.Grammar.File
import CppsFrontend.Proofs.Grammar.Expressions

/-!
# Statements are derived from their tokens

The productions for statements are sound if the nested ones are, so all productions
are sound at every depth of nesting, and a file is derived declaration by
declaration.
-/

set_option autoImplicit false

namespace CppsFrontend.Grammar

open Production

variable {nested : Nested} {input : Input} {state after : State}

/-! ## Compound statements -/

theorem statementRound_run {round : Round Statement}
    (run : statementRound nested input state = (some round, after)) :
    (round = .stop ∧ after = state ∧
        (input.stream.get state.position).lexeme = .punctuator .closeBrace) ∨
      ∃ value, round = .more value ∧
        nested.statement true none input state = (some value, after) := by
  simp only [statementRound, check_bind, ite_run, decide_eq_true_eq] at run
  split at run
  · rename_i closing
    obtain ⟨rfl, rfl⟩ := pure_run.mp run
    exact .inl ⟨rfl, rfl, closing⟩
  · simp only [bind_run, orReject_run] at run
    obtain ⟨value, last, valueRun, made⟩ := run
    obtain ⟨rfl, rfl⟩ := pure_run.mp made
    exact .inr ⟨value, rfl, valueRun⟩

theorem statementRounds_sound (inner : SoundNested nested) {statements : List Statement}
    (rounds : Rounds (statementRound nested) input state statements after) :
    Derivable input.stream (.statements statements) state.position after.position ∧
      (input.stream.get after.position).lexeme = .punctuator .closeBrace := by
  induction rounds with
  | stop run =>
      rcases statementRound_run run with ⟨-, rfl, closing⟩ | ⟨value, impossible, -⟩
      · exact ⟨⟨[], .noStatements, .nil _ _⟩, closing⟩
      · cases impossible
  | last run =>
      rcases statementRound_run run with ⟨impossible, -⟩ | ⟨value, impossible, -⟩
      · cases impossible
      · cases impossible
  | more run forward rest induction =>
      rcases statementRound_run run with ⟨impossible, -⟩ | ⟨value, same, valueRun⟩
      · cases impossible
      · cases same
        obtain ⟨head, derives, headCovers⟩ := inner.statement true none valueRun
        obtain ⟨⟨tail, more, tailCovers⟩, closing⟩ := induction
        exact ⟨⟨_, .moreStatements derives more, headCovers.append tailCovers⟩, closing⟩

theorem compound_sound (inner : SoundNested nested) (equal : Option Location) :
    Sound (compound nested equal) (.compound equal) := by
  intro input state after block run
  simp only [compound, restoring_run, current_bind, here_bind, bind_run] at run
  obtain ⟨brace, opened, openRun, statements, last, collected, closing, closed, closeRun,
    made⟩ := run
  obtain ⟨begins, rfl, rfl⟩ := (expect_run (by simp)).mp openRun
  obtain ⟨⟨leaves, derives, covers⟩, ends⟩ := statementRounds_sound inner (collect_run collected)
  have opening : (Leaf.fixed state.position (.punctuator .openBrace)).Fits input.stream :=
    Leaf.fits_exactly _ rfl begins (by simp)
  have close : (Leaf.fixed last.position (.punctuator .closeBrace)).Fits input.stream :=
    Leaf.fits_exactly _ rfl ends (by simp)
  have inside : last.position < input.stream.size := close.1
  obtain ⟨rfl, rfl⟩ := (advance_run inside).mp closeRun
  obtain ⟨rfl, rfl⟩ := pure_run.mp made
  rw [reportLocation_eq inside]
  exact ⟨_, .compound state.position last.position derives,
    (Covers.cons _ opening covers).append (.single _ close)⟩

/-! ## Statements -/

theorem condition_sound (inner : SoundNested nested) (word : Keyword) :
    Sound (condition nested word) (.expression true) := by
  intro input state after value run
  rw [condition, orReject_run] at run
  exact expression_sound inner true run

theorem branch_sound (inner : SoundNested nested) (word : Keyword) :
    Sound (branch nested word) (.compound none) := by
  intro input state after value run
  rw [branch, orReject_run] at run
  exact compound_sound inner none run

theorem closingSemicolon_run {value : Unit} :
    closingSemicolon input state = (some value, after) ↔
      (input.stream.get state.position).lexeme = .punctuator .semicolon ∧
        after = state.next := by
  rw [closingSemicolon, bind_run]
  constructor
  · rintro ⟨close, last, closeRun, made⟩
    cases close with
    | none =>
        simp only [here_bind] at made
        exact absurd made reject_run
    | some close =>
        obtain ⟨found, -, rfl⟩ := (eat_run (by simp)).mp closeRun
        obtain ⟨-, rfl⟩ := pure_run.mp made
        exact ⟨found, rfl⟩
  · rintro ⟨found, rfl⟩
    exact ⟨some state.position, state.next, (eat_run (by simp)).mpr ⟨found, rfl, rfl⟩,
      pure_run.mpr ⟨rfl, rfl⟩⟩

theorem selectionStatement_sound (inner : SoundNested nested) (semicolon : Bool)
    (equal : Option Location) :
    Sound (selectionStatement nested) (.statement semicolon equal) := by
  intro input state after value run
  simp only [selectionStatement, restoring_run, bind_run] at run
  obtain ⟨keyword, opened, openRun, constant, marked, markRun, test, tested, testRun, positive,
    taken, takenRun, other, branched, otherRun, run⟩ := run
  obtain ⟨begins, rfl, rfl⟩ := (expect_run (by simp)).mp openRun
  have opening : (Leaf.stored state.position (.exactly (.keyword .ifWord))).Fits
      input.stream := Leaf.fits_exactly _ rfl begins (by simp)
  have markCovers : Covers input.stream state.next.position marked.position
      (optionalStored constant (.keyword .constexprWord)) := by
    cases constant with
    | none =>
        obtain ⟨-, rfl⟩ := eat_none_run.mp markRun
        exact .nil _ _
    | some constant =>
        obtain ⟨found, rfl, rfl⟩ := (eat_run (by simp)).mp markRun
        exact .single (.stored state.next.position _)
          (Leaf.fits_exactly _ rfl found (by simp))
  obtain ⟨head, testDerives, headCovers⟩ := condition_sound inner .ifWord testRun
  obtain ⟨middle, takenDerives, middleCovers⟩ := branch_sound inner .ifWord takenRun
  have covers := ((Covers.cons _ opening markCovers).append headCovers).append middleCovers
  cases other with
  | none =>
      obtain ⟨-, rfl⟩ := eat_none_run.mp otherRun
      obtain ⟨rfl, rfl⟩ := pure_run.mp run
      exact ⟨_, .selection state.position constant testDerives takenDerives, covers⟩
  | some other =>
      obtain ⟨found, rfl, rfl⟩ := (eat_run (by simp)).mp otherRun
      simp only [bind_run] at run
      obtain ⟨negative, last, negativeRun, made⟩ := run
      obtain ⟨rfl, rfl⟩ := pure_run.mp made
      have word : (Leaf.fixed taken.position (.keyword .elseWord)).Fits input.stream :=
        Leaf.fits_exactly _ rfl found (by simp)
      obtain ⟨tail, negativeDerives, tailCovers⟩ := branch_sound inner .elseWord negativeRun
      exact ⟨_, .alternative state.position taken.position constant testDerives takenDerives
        negativeDerives, covers.append (.cons _ word tailCovers)⟩

theorem returnStatement_sound (inner : SoundNested nested) (semicolon : Bool)
    (equal : Option Location) :
    Sound (returnStatement nested) (.statement semicolon equal) := by
  intro input state after value run
  simp only [returnStatement, restoring_run, bind_run] at run
  obtain ⟨keyword, opened, openRun, close, ended, endRun, run⟩ := run
  obtain ⟨begins, rfl, rfl⟩ := (expect_run (by simp)).mp openRun
  have opening : (Leaf.stored state.position (.exactly (.keyword .returnWord))).Fits
      input.stream := Leaf.fits_exactly _ rfl begins (by simp)
  cases close with
  | some close =>
      obtain ⟨found, rfl, rfl⟩ := (eat_run (by simp)).mp endRun
      obtain ⟨rfl, rfl⟩ := pure_run.mp run
      have closing : (Leaf.fixed state.next.position (.punctuator .semicolon)).Fits
          input.stream := Leaf.fits_exactly _ rfl found (by simp)
      exact ⟨_, .emptyReturn state.position state.next.position,
        .cons _ opening (.single _ closing)⟩
  | none =>
      obtain ⟨-, rfl⟩ := eat_none_run.mp endRun
      simp only [bind_run, orReject_run] at run
      obtain ⟨result, derived, resultRun, done, closed, closeRun, made⟩ := run
      obtain ⟨found, rfl⟩ := closingSemicolon_run.mp closeRun
      obtain ⟨rfl, rfl⟩ := pure_run.mp made
      have closing : (Leaf.fixed derived.position (.punctuator .semicolon)).Fits
          input.stream := Leaf.fits_exactly _ rfl found (by simp)
      obtain ⟨leaves, derives, covers⟩ := expression_sound inner true resultRun
      exact ⟨_, .valueReturn state.position derived.position derives,
        (Covers.cons _ opening covers).append (.single _ closing)⟩

theorem whileLoop_sound (inner : SoundNested nested) (semicolon : Bool)
    (equal : Option Location) {keyword : TokenId} {value : Statement}
    (begins : (input.stream.get keyword).lexeme = .keyword .whileWord)
    (place : state.position = keyword + 1)
    (run : whileLoop nested keyword input state = (some value, after)) :
    Derivable input.stream (.statement semicolon equal value) keyword after.position := by
  simp only [whileLoop, bind_run] at run
  obtain ⟨test, tested, testRun, body, last, bodyRun, made⟩ := run
  obtain ⟨rfl, rfl⟩ := pure_run.mp made
  have opening : (Leaf.stored keyword (.exactly (.keyword .whileWord))).Fits
      input.stream := Leaf.fits_exactly _ rfl begins (by simp)
  obtain ⟨head, testDerives, headCovers⟩ := condition_sound inner .whileWord testRun
  obtain ⟨tail, bodyDerives, tailCovers⟩ := branch_sound inner .whileWord bodyRun
  rw [place] at headCovers
  exact ⟨_, .whileStatement keyword testDerives bodyDerives,
    (Covers.cons _ opening headCovers).append tailCovers⟩

theorem doLoop_sound (inner : SoundNested nested) (semicolon : Bool)
    (equal : Option Location) {keyword : TokenId} {value : Statement}
    (begins : (input.stream.get keyword).lexeme = .keyword .doWord)
    (place : state.position = keyword + 1)
    (run : doLoop nested keyword input state = (some value, after)) :
    Derivable input.stream (.statement semicolon equal value) keyword after.position := by
  simp only [doLoop, bind_run] at run
  obtain ⟨body, repeated, bodyRun, word, worded, wordRun, run⟩ := run
  cases word with
  | none =>
      simp only [here_bind] at run
      exact absurd run reject_run
  | some word =>
      obtain ⟨found, rfl, rfl⟩ := (eat_run (by simp)).mp wordRun
      simp only [bind_run] at run
      obtain ⟨test, tested, testRun, done, closed, closeRun, made⟩ := run
      obtain ⟨ends, rfl⟩ := closingSemicolon_run.mp closeRun
      obtain ⟨rfl, rfl⟩ := pure_run.mp made
      have opening : (Leaf.stored keyword (.exactly (.keyword .doWord))).Fits
          input.stream := Leaf.fits_exactly _ rfl begins (by simp)
      have middle : (Leaf.fixed repeated.position (.keyword .whileWord)).Fits
          input.stream := Leaf.fits_exactly _ rfl found (by simp)
      have closing : (Leaf.fixed tested.position (.punctuator .semicolon)).Fits
          input.stream := Leaf.fits_exactly _ rfl ends (by simp)
      obtain ⟨head, bodyDerives, headCovers⟩ := branch_sound inner .doWord bodyRun
      obtain ⟨tail, testDerives, tailCovers⟩ := condition_sound inner .whileWord testRun
      rw [place] at headCovers
      exact ⟨_, .doStatement keyword repeated.position tested.position bodyDerives testDerives,
        ((Covers.cons _ opening headCovers).append (.cons _ middle tailCovers)).append
          (.single _ closing)⟩

theorem iterationStatement_sound (inner : SoundNested nested) (semicolon : Bool)
    (equal : Option Location) :
    Sound (iterationStatement nested) (.statement semicolon equal) := by
  intro input state after value run
  simp only [iterationStatement, restoring_run, bind_run] at run
  obtain ⟨keyword, opened, openRun, run⟩ := run
  cases keyword with
  | some keyword =>
      obtain ⟨begins, rfl, rfl⟩ := (eat_run (by simp)).mp openRun
      exact whileLoop_sound inner semicolon equal begins rfl run
  | none =>
      obtain ⟨-, rfl⟩ := eat_none_run.mp openRun
      simp only [bind_run] at run
      obtain ⟨keyword, middle, doRun, run⟩ := run
      obtain ⟨begins, rfl, rfl⟩ := (expect_run (by simp)).mp doRun
      exact doLoop_sound inner semicolon equal begins rfl run

theorem expressionStatement_sound (inner : SoundNested nested) (semicolon : Bool)
    (equal : Option Location) :
    Sound (expressionStatement nested semicolon) (.statement semicolon equal) := by
  intro input state after value run
  simp only [expressionStatement, restoring_run, bind_run] at run
  obtain ⟨result, derived, resultRun, close, closed, closeRun, run⟩ := run
  rw [ite_run] at run
  split at run
  · rw [here_bind] at run
    exact absurd run reject_run
  · rename_i needed
    obtain ⟨rfl, rfl⟩ := pure_run.mp run
    obtain ⟨leaves, derives, covers⟩ := expression_sound inner true resultRun
    refine ⟨_, .expressionStatement derived.position ?_ derives, covers.append ?_⟩
    · intro must
      cases ended : close.isSome
      · simp [must, ended] at needed
      · rfl
    · cases close with
      | none =>
          obtain ⟨-, rfl⟩ := eat_none_run.mp closeRun
          exact .nil _ _
      | some close =>
          obtain ⟨found, rfl, rfl⟩ := (eat_run (by simp)).mp closeRun
          exact .single (.fixed derived.position _) (Leaf.fits_exactly _ rfl found (by simp))

theorem statement_sound (inner : SoundNested nested) (semicolon : Bool)
    (equal : Option Location) :
    Sound (statement nested semicolon equal) (.statement semicolon equal) := by
  intro input state after value run
  rw [statement, restoring_run, reportCount_bind] at run
  obtain ⟨production, member, start, same, chosen⟩ := firstOf_run (by
    intro production member
    simp only [List.mem_cons, List.not_mem_nil, or_false] at member
    rcases member with rfl | rfl | rfl | rfl | rfl | rfl
    · exact keepsPlace_restoring _
    · exact keepsPlace_restoring _
    · exact keepsPlace_restoring _
    · exact (keepsPlace_restoring _).map _
    · exact (keepsPlace_restoring _).map _
    · exact keepsPlace_restoring _) run
  rw [← same]
  simp only [List.mem_cons, List.not_mem_nil, or_false] at member
  rcases member with rfl | rfl | rfl | rfl | rfl | rfl
  · exact selectionStatement_sound inner semicolon equal chosen
  · exact returnStatement_sound inner semicolon equal chosen
  · exact iterationStatement_sound inner semicolon equal chosen
  · obtain ⟨block, blockRun, rfl⟩ := map_run.mp chosen
    obtain ⟨leaves, derives, covers⟩ := compound_sound inner equal blockRun
    exact ⟨leaves, .compoundStatement derives, covers⟩
  · obtain ⟨declaration, declared, rfl⟩ := map_run.mp chosen
    obtain ⟨leaves, derives, covers⟩ := declaration_sound inner semicolon declared
    exact ⟨leaves, .declarationStatement derives, covers⟩
  · exact expressionStatement_sound inner semicolon equal chosen

/-! ## All productions -/

theorem soundNested_none : SoundNested .none where
  statement _ _ := by
    intro input state after value run
    cases run
  expression := by
    intro input state after value run
    cases run
  declaration _ := by
    intro input state after value run
    cases run

theorem soundNested_deepen (inner : SoundNested nested) : SoundNested (deepen nested) where
  statement := statement_sound inner
  expression := expression_sound inner true
  declaration := declaration_sound inner

theorem productions_succ (depth : Nat) :
    productions (depth + 1) = deepen (productions depth) := rfl

theorem soundNested_productions (depth : Nat) : SoundNested (productions depth) := by
  induction depth with
  | zero => exact soundNested_none
  | succ depth induction =>
      rw [productions_succ]
      exact soundNested_deepen induction

end CppsFrontend.Grammar

namespace CppsFrontend

open Grammar

theorem parseAfter_eq {stream : TokenStream} {reporting : Reporting} {earlier : Array Entry}
    {declarations : Option (List Declaration)} {after : State}
    (run : file (productions (stream.size + 1)) ⟨stream, reporting⟩ ⟨0, earlier⟩ =
      (declarations, after)) :
    parseAfter earlier reporting stream =
      ⟨declarations.getD [], after.reports, after.position⟩ := by
  rw [parseAfter, run]

end CppsFrontend
