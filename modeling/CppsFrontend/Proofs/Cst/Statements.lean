import CppsFrontend.Cst.Statement
import CppsFrontend.Proofs.Cst.Expressions

/-!
# Stored statements

The storing productions for statements mirror the productions for statements, if those for
what stands inside them do.
-/

set_option autoImplicit false

namespace CppsFrontend.Cst

open Grammar (Nested Input State)
open Grammar.Production (Round)
open Storing

variable [NodeKind.Layouts] {input : Input} {state : State}
variable {storing : StoringNested} {nested : Nested}
variable (inner : MirrorsNested input storing nested)

include inner

theorem statementRound_mirrors :
    Mirrors input state [] (statementRound storing) (Grammar.statementRound nested)
      (OfRound Held) := by
  refine .read fun closes _ _ => ?_
  cases closes with
  | true => exact .pure .stop
  | false =>
      exact .bind (.orReject fun _ => inner.statement true none) fun _ _ _ _ held =>
        .pure (.more held)

theorem compound_mirrors (equal : Option Location) :
    Mirrors input state [] (compound storing equal) (Grammar.compound nested equal) Held := by
  refine .restoring (.read fun brace _ _ => .read fun _ _ _ => ?_)
  refine .bind (.collect fun _ => statementRound_mirrors inner) fun nodes trees parts _ each => ?_
  exact .read fun closing _ _ => .read fun _ _ _ => .create (.intro each)

theorem condition_mirrors (word : Keyword) :
    Mirrors input state [] (condition storing word) (Grammar.condition nested word) Held :=
  .orReject fun _ => expression_mirrors inner

theorem branch_mirrors (word : Keyword) :
    Mirrors input state [] (branch storing word) (Grammar.branch nested word) Held :=
  .orReject fun _ => compound_mirrors inner none

theorem selectionStatement_mirrors :
    Mirrors input state [] (selectionStatement storing) (Grammar.selectionStatement nested)
      Held := by
  refine .restoring (.read fun keyword _ run => ?_)
  have inside := lt_size_of_expect (by simp) run
  refine .read fun constant _ run => ?_
  have written := lt_size_of_eat (by simp) run
  refine .bind (condition_mirrors inner _) fun test condition tests _ held => ?_
  refine .bind (branch_mirrors inner _) fun block positive parts _ chosen => ?_
  refine .read fun otherwise _ _ => ?_
  cases otherwise with
  | some place =>
      refine .bind (branch_mirrors inner _) fun other negative others _ otherwise => ?_
      exact .create (.intro inside written held chosen (.some otherwise))
  | none =>
      have denotes := Selection.Denotes.intro inside written held chosen .none
      rw [List.append_nil] at denotes
      exact .create denotes

theorem returnStatement_mirrors :
    Mirrors input state [] (returnStatement storing) (Grammar.returnStatement nested) Held := by
  refine .restoring (.read fun keyword _ run => ?_)
  have inside := lt_size_of_expect (by simp) run
  refine .read fun semicolon _ _ => ?_
  cases semicolon with
  | some place => exact .create (.intro inside .none)
  | none =>
      refine .bind (.orReject fun _ => expression_mirrors inner) fun value tree parts _ held => ?_
      exact .read fun _ _ _ => .create (.intro inside (.some held))

theorem whileLoop_mirrors {keyword : TokenId} (inside : keyword < input.stream.size) :
    Mirrors input state [] (whileLoop storing keyword) (Grammar.whileLoop nested keyword)
      Held := by
  refine .bind (condition_mirrors inner _) fun test condition tests _ held => ?_
  refine .bind (branch_mirrors inner _) fun block body parts _ repeats => ?_
  exact .create (.intro inside held repeats)

theorem doLoop_mirrors {keyword : TokenId} (inside : keyword < input.stream.size) :
    Mirrors input state [] (doLoop storing keyword) (Grammar.doLoop nested keyword) Held := by
  refine .bind (branch_mirrors inner _) fun block body parts _ repeats => ?_
  refine .read fun word _ _ => ?_
  cases word with
  | none => exact .read fun _ _ _ => .reject
  | some place =>
      refine .bind (condition_mirrors inner _) fun test condition tests _ held => ?_
      refine .read fun _ _ _ => .perm ?_ List.perm_append_comm
      exact .create (.intro inside held repeats)

theorem iterationStatement_mirrors :
    Mirrors input state [] (iterationStatement storing) (Grammar.iterationStatement nested)
      Held := by
  refine .restoring (.read fun word _ run => ?_)
  have inside := lt_size_of_eat (by simp) run
  cases word with
  | some keyword => exact whileLoop_mirrors inner (inside keyword rfl)
  | none => exact .read fun keyword _ run => doLoop_mirrors inner (lt_size_of_expect (by simp) run)

theorem expressionStatement_mirrors (semicolon : Bool) :
    Mirrors input state [] (expressionStatement storing semicolon)
      (Grammar.expressionStatement nested semicolon) Held := by
  refine .restoring (.bind (expression_mirrors inner) fun value tree parts _ held => ?_)
  refine .read fun semicolon _ _ => ?_
  extract_lets closed
  split
  · exact .read fun _ _ _ => .reject
  · exact .create (.intro held)

theorem statement_mirrors (semicolon : Bool) (equal : Option Location) :
    Mirrors input state [] (statement storing semicolon equal)
      (Grammar.statement nested semicolon equal) Held := by
  refine .restoring (.read fun before _ _ => ?_)
  refine .onto (?_ : Mirrors input _ [] _ _ Statement.Denotes) ?_
  · refine .firstOf (.cons ?_ (.cons ?_ (.cons ?_ (.cons ?_ (.cons ?_ (.cons ?_ .nil))))))
    · exact fun _ => .wrap (selectionStatement_mirrors inner) fun _ _ _ held => .selection held
    · exact fun _ => .wrap (returnStatement_mirrors inner) fun _ _ _ held => .result held
    · exact fun _ => .wrap (iterationStatement_mirrors inner) fun _ _ _ held => .iteration held
    · exact fun _ => .map (compound_mirrors inner equal) fun _ _ _ held => .compound held
    · exact fun _ => .map (declaration_mirrors inner semicolon) fun _ _ _ held =>
        .declaration held
    · exact fun _ => .wrap (expressionStatement_mirrors inner semicolon) fun _ _ _ held =>
        .expression held
  · intro kind statement parts _ denotes
    exact .create denotes

end CppsFrontend.Cst
