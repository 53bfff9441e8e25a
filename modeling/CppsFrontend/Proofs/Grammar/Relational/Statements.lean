import CppsFrontend.Proofs.Grammar.Relational.Expressions

/-!
# Statements with `<` for `>`

A statement is the same on both streams, as long as what is nested in it is.
-/

set_option autoImplicit false

namespace CppsFrontend.Grammar

open Production

variable {exchange : Exchange} {reporting : Reporting} {loose : Bool} {start : State}
variable {nested : Nested}

variable (fair : exchange.Fair) (inner : TracksNested exchange reporting nested)

include fair inner

theorem statementRound_tracks :
    Tracks exchange reporting loose (statementRound nested) (statementRound nested) start := by
  refine .check fair (by simp) ?_
  split
  · exact .pure rfl
  · refine .bind (.orReject (inner.statement true none start)) ?_
    intro statement middle _
    exact .pure rfl

theorem compound_tracks (equal : Option Location) :
    Tracks exchange reporting loose (compound nested equal) (compound nested equal) start := by
  refine .restoring (.current fair fun alike => .expected fair (by simp) fun _ => ?_)
  refine .bind (.collect fair fun start => statementRound_tracks fair inner) ?_
  intro statements middle _
  refine .here fair (.bind (.advance fair) ?_)
  intro place last _
  refine .pure ?_
  simp [alike.location]

theorem condition_tracks (word : Keyword) :
    Tracks exchange reporting loose (condition nested word) (condition nested word) start :=
  .orReject (expression_tracks fair inner true)

theorem branch_tracks (word : Keyword) :
    Tracks exchange reporting loose (branch nested word) (branch nested word) start :=
  .orReject (compound_tracks fair inner none)

omit inner in
theorem closingSemicolon_tracks :
    Tracks exchange reporting loose closingSemicolon closingSemicolon start := by
  refine .eat fair (by simp) ?_ ?_
  · intro _
    exact .pure rfl
  · intro _
    exact .here fair .reject

theorem selectionStatement_tracks :
    Tracks exchange reporting loose (selectionStatement nested) (selectionStatement nested)
      start := by
  refine .restoring (.expected fair (by simp) fun _ => ?_)
  refine .bind (.eaten fair (by simp)) fun constant _ _ => ?_
  rw [unname_optionalToken]
  refine .bind (condition_tracks fair inner .ifWord) fun test _ _ => ?_
  refine .bind (branch_tracks fair inner .ifWord) fun positive _ _ => ?_
  refine .eat fair (by simp) ?_ ?_
  · intro _
    refine .bind (branch_tracks fair inner .elseWord) fun negative _ _ => ?_
    refine .pure ?_
    simp
  · intro _
    refine .pure ?_
    simp

theorem returnStatement_tracks :
    Tracks exchange reporting loose (returnStatement nested) (returnStatement nested)
      start := by
  refine .restoring (.expected fair (by simp) fun _ => .eat fair (by simp) ?_ ?_)
  · intro _
    refine .pure ?_
    simp
  · intro _
    refine .bind (.orReject (expression_tracks fair inner true)) fun value _ _ => ?_
    refine .bind (closingSemicolon_tracks fair) fun _ _ _ => ?_
    refine .pure ?_
    simp

theorem whileLoop_tracks (keyword : TokenId) :
    Tracks exchange reporting loose (whileLoop nested keyword) (whileLoop nested keyword)
      start := by
  refine .bind (condition_tracks fair inner .whileWord) fun test _ _ => ?_
  refine .bind (branch_tracks fair inner .whileWord) fun body _ _ => ?_
  refine .pure ?_
  simp

theorem doLoop_tracks (keyword : TokenId) :
    Tracks exchange reporting loose (doLoop nested keyword) (doLoop nested keyword) start := by
  refine .bind (branch_tracks fair inner .doWord) fun body _ _ => ?_
  refine .eat fair (by simp) ?_ ?_
  · intro _
    refine .bind (condition_tracks fair inner .whileWord) fun test _ _ => ?_
    refine .bind (closingSemicolon_tracks fair) fun _ _ _ => ?_
    refine .pure ?_
    simp
  · intro _
    exact .here fair .reject

theorem iterationStatement_tracks :
    Tracks exchange reporting loose (iterationStatement nested) (iterationStatement nested)
      start := by
  refine .restoring (.eat fair (by simp) ?_ ?_)
  · intro _
    exact whileLoop_tracks fair inner _
  · intro _
    refine .expected fair (by simp) fun _ => ?_
    exact doLoop_tracks fair inner _

theorem expressionStatement_tracks (semicolon : Bool) :
    Tracks exchange reporting loose (expressionStatement nested semicolon)
      (expressionStatement nested semicolon) start := by
  refine .restoring (.bind (expression_tracks fair inner true) fun value _ _ => ?_)
  refine .eat fair (by simp) ?_ ?_
  · intro _
    refine .pure ?_
    simp
  · intro _
    cases semicolon with
    | true => exact .here fair .reject
    | false =>
        refine .pure ?_
        simp

theorem statement_tracks (semicolon : Bool) (equal : Option Location) :
    Tracks exchange reporting (!semicolon) (statement nested semicolon equal)
      (statement nested semicolon equal) start := by
  refine .restoring (.reads (.firstOf ?_) rfl rfl)
  simp only [List.forall_mem_cons, List.not_mem_nil, false_implies, implies_true, and_true]
  refine ⟨?_, ?_, ?_, ?_, ?_, ?_⟩
  · intro start
    exact selectionStatement_tracks fair inner
  · intro start
    exact returnStatement_tracks fair inner
  · intro start
    exact iterationStatement_tracks fair inner
  · intro start
    exact .map (compound_tracks fair inner equal) fun block => by simp
  · intro start
    exact .map (declaration_tracks fair inner semicolon) fun declaration => by simp
  · intro start
    exact expressionStatement_tracks fair inner semicolon

end CppsFrontend.Grammar
