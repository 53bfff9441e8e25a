import CppsFrontend.Proofs.Grammar.Relational.Declarations

/-!
# Expressions with `<` for `>`

An expression is the same on both streams but for single names before exchanged operators,
which the second stream holds as tokens.
-/

set_option autoImplicit false

namespace CppsFrontend.Grammar

open Production

variable {exchange : Exchange} {reporting : Reporting} {loose : Bool} {start : State}
variable {nested : Nested}

/-- A name before an exchanged operator is held as a token in the second stream. -/
theorem primary_bare (reporting : Reporting) (nested : Nested) (fair : exchange.Fair)
    (bare : exchange.Bare start.position) :
    primary nested ⟨exchange.first, reporting⟩ start =
        (some (.identifier ⟨.unqualified ⟨none, start.position⟩,
          (exchange.first.get start.position).location⟩), start.next) ∧
      primary nested ⟨exchange.second, reporting⟩ start =
        (some (.token start.position), start.next) := by
  have missing : identifierExpression ⟨exchange.second, reporting⟩ start = (none, start) :=
    identifierExpression_before_less (Exchange.lexemes_of_turned bare.2).2
  have naming := (fair.naming start.position).trans bare.1
  constructor
  · rw [primary, bind_of_some _ (outcome_of (identifierExpression_bare reporting bare))]
    rfl
  · have held : isPrimaryToken (exchange.second.get start.position).lexeme = true := by
      rw [isPrimaryToken, naming, Bool.or_true]
    have inside : start.position < exchange.second.size := lt_size_of_naming naming
    rw [primary, bind_of_some _ (outcome_of missing)]
    simp only [lexeme_bind, held, if_true]
    rw [advance_bind inside]
    rfl

/-- Whether a mark continues a postfix chain does not depend on the operators that are
exchanged. -/
theorem continuesPostfix_like {before₁ before₂ mark₁ mark₂ after₁ after₂ : Token}
    (before : Exchange.Like before₁ before₂) (mark : Exchange.Like mark₁ mark₂)
    (after : Exchange.Like after₁ after₂) :
    continuesPostfix before₂ mark₂ after₂.lexeme =
      continuesPostfix before₁ mark₁ after₁.lexeme := by
  have touches : before₂.isAdjacentTo mark₂ = before₁.isAdjacentTo mark₁ := by
    rw [Token.isAdjacentTo, Token.isAdjacentTo, Token.endColumn, Token.endColumn, before.location,
      before.bytes, mark.location]
  have same := after.lexeme (continuesPostfix before₁ mark₁) ?_
  · rw [same]
    cases mark with
    | same same =>
        simp only [continuesPostfix, touches, same]
    | turned greater less _ _ =>
        simp only [continuesPostfix, greater, less]
  · rfl

variable (fair : exchange.Fair) (inner : TracksNested exchange reporting nested)

include fair inner

omit inner in
theorem argumentModifier_tracks :
    Tracks exchange reporting loose argumentModifier argumentModifier start := by
  refine .lexeme fair fun alike => ?_
  cases alike with
  | same same =>
      rw [same]
      split
      · refine .bind (.advance fair) ?_
        intro place middle _
        exact .pure rfl
      · refine .bind (.advance fair) ?_
        intro place middle _
        exact .pure rfl
      · exact .pure rfl
  | turned greater less _ _ =>
      rw [greater, less]
      exact .pure rfl

theorem argument_tracks :
    Tracks exchange reporting loose (argument nested) (argument nested) start := by
  refine .bind (argumentModifier_tracks fair) ?_
  intro modifier middle _
  refine .bind (inner.expression middle) ?_
  intro value last _
  refine .pure ?_
  simp

theorem argumentRound_tracks :
    Tracks exchange reporting loose (argumentRound nested) (argumentRound nested) start := by
  refine .eat fair (by simp) ?_ ?_
  · intro _
    refine .bind (.orReject (argument_tracks fair inner)) ?_
    intro value middle _
    exact .pure rfl
  · intro _
    exact .pure rfl

theorem arguments_tracks :
    Tracks exchange reporting loose (arguments nested) (arguments nested) start := by
  refine .reads (.reads (.attempt (argument_tracks fair inner) ?_ ?_) rfl rfl) rfl rfl
  · intro first middle _
    refine .bind (.collect fair fun start => argumentRound_tracks fair inner) ?_
    intro rest last _
    exact .pure rfl
  · intro middle _
    refine .reads ?_ rfl rfl
    split
    · exact .fail
    · exact .same rfl rfl (Nat.le_refl _)

theorem parenthesized_tracks :
    Tracks exchange reporting loose (parenthesized nested) (parenthesized nested) start := by
  refine .restoring (.here fair (.bind (.advance fair) ?_))
  intro place middle _
  refine .bind (.orReject (arguments_tracks fair inner)) ?_
  intro terms last _
  refine .here fair (.eat fair (by simp) ?_ ?_)
  · intro _
    refine .pure ?_
    simp
  · intro _
    exact .reject

omit fair inner in
theorem expressionScopeError_unname (declaration : Declaration) :
    expressionScopeError? (unname exchange.turned declaration) =
      expressionScopeError? declaration := by
  obtain ⟨_, type, _, _, _, _, _⟩ := declaration
  rcases type with ⟨parameters, throws, _ | _ | results⟩ | object
  · rfl
  · rfl
  · cases results
    rfl
  · rfl

theorem unnamedFunction_tracks :
    Tracks exchange reporting loose (unnamedFunction nested) (unnamedFunction nested)
      start := by
  refine .restoring (.here fair (.bind (unnamedDeclaration_tracks fair inner _ true) ?_))
  intro declaration middle _
  rw [expressionScopeError_unname]
  split
  · exact .reject
  · refine .pure ?_
    simp

theorem primary_tracks :
    Tracks exchange reporting loose (primary nested) (primary nested) start := by
  by_cases bare : exchange.Bare start.position
  · obtain ⟨run₁, run₂⟩ := primary_bare reporting nested fair bare
    refine .same run₁ ?_ (Nat.le_refl _)
    rw [run₂, unname_present, unname_singleName, if_pos bare.2]
  · refine .attempt (identifierExpression_tracks fair bare) ?_ ?_
    · intro named middle run
      -- A single name would be the one that is not bare, so it stays as it is.
      refine .pure (unname_identifierPrimary _ named fun name single => ?_).symm
      obtain ⟨rfl, naming⟩ := identifierExpression_single run single
      exact Bool.eq_false_iff.mpr fun turned => bare ⟨naming, turned⟩
    · intro middle _
      refine .lexeme fair fun alike => ?_
      rw [← alike.lexeme isPrimaryToken rfl]
      split
      · refine .bind (.advance fair) ?_
        intro place last _
        exact .pure rfl
      · refine .check fair (by simp) ?_
        split
        · exact parenthesized_tracks fair inner
        · exact unnamedFunction_tracks fair inner

theorem callArguments_tracks (opening : TokenId) (location : Location) :
    Tracks exchange reporting loose (callArguments nested opening location)
      (callArguments nested opening location) start := by
  refine .bind (.orRejectAt (arguments_tracks fair inner)) ?_
  intro terms middle _
  refine .here fair (.eat fair (by simp) ?_ ?_)
  · intro _
    refine .pure ?_
    simp
  · intro _
    exact .reject

theorem subscriptArguments_tracks (opening : TokenId) (location : Location) :
    Tracks exchange reporting loose (subscriptArguments nested opening location)
      (subscriptArguments nested opening location) start := by
  refine .bind (.orRejectAt (arguments_tracks fair inner)) ?_
  intro terms middle _
  cases terms with
  | nil => exact .of_stalls .reject_bind
  | cons first rest =>
      refine .here fair (.eat fair (by simp) ?_ ?_)
      · intro _
        refine .pure ?_
        simp
      · intro _
        exact .reject

omit inner in
theorem member_tracks (dot : TokenId) (location : Location)
    (apart : ¬exchange.Bare start.position) :
    Tracks exchange reporting loose (member dot location) (member dot location) start := by
  refine .attempt (identifierExpression_tracks fair apart) ?_ ?_
  · intro named middle _
    exact .pure rfl
  · intro middle _
    exact .reject

theorem postfixRound_tracks :
    Tracks exchange reporting loose (postfixRound nested) (postfixRound nested) start := by
  refine .current fair fun mark => .previous fair fun before => .peek fair fun after => ?_
  rw [continuesPostfix_like before mark after]
  split
  · rename_i continues
    refine .bind (.advance fair) ?_
    intro operator middle run
    obtain ⟨rfl, rfl⟩ := (advance_run (lt_size_of_continuesPostfix continues)).mp run
    cases mark with
    | turned greater _ _ _ => simp [continuesPostfix, greater] at continues
    | same same =>
        rw [← same]
        split
        · refine .bind (subscriptArguments_tracks fair inner _ _) ?_
          intro term last _
          exact .pure rfl
        · refine .bind (callArguments_tracks fair inner _ _) ?_
          intro term last _
          exact .pure rfl
        · rename_i dot
          have apart : ¬exchange.Bare (start.position + 1) := fun bare =>
            fair.plain start.position bare (by simp [dot])
          refine .bind (member_tracks fair _ _ apart) ?_
          intro term last _
          exact .pure rfl
        · exact .pure rfl
  · exact .pure rfl

omit inner in
theorem signRound_tracks :
    Tracks exchange reporting loose signRound signRound start := by
  have passed : Tracks exchange reporting loose (do return Round.more (← advance))
      (do return Round.more (← advance)) start := by
    refine .bind (.advance fair) ?_
    intro place middle _
    exact .pure rfl
  refine .lexeme fair fun alike => ?_
  cases alike with
  | same same =>
      rw [same]
      split
      · exact passed
      · exact passed
      · exact passed
      · exact .pure rfl
  | turned greater less _ _ =>
      rw [greater, less]
      exact .pure rfl

theorem basicExpression_tracks :
    Tracks exchange reporting loose (basicExpression nested) (basicExpression nested)
      start := by
  refine .restoring (.bind (.collect fair fun start => signRound_tracks fair) ?_)
  intro signs middle _
  refine .bind (primary_tracks fair inner) ?_
  intro primary last _
  refine .bind (.collect fair fun start => postfixRound_tracks fair inner) ?_
  intro terms _ _
  refine .pure ?_
  simp

omit inner in
/-- The operator itself may be an exchanged one. -/
theorem chainRound_tracks (allowRelational : Bool) (level : Precedence)
    {operand : Production Expression}
    (each : ∀ start, Tracks exchange reporting false operand operand start) :
    Tracks exchange reporting loose (chainRound allowRelational level operand)
      (chainRound allowRelational level operand) start := by
  refine .current fair fun alike => ?_
  rw [← alike.lexeme (Precedence.ofOperator? · allowRelational) rfl]
  split
  · refine .bind (.advance fair) ?_
    intro token middle _
    refine .bind (.orReject (each middle)) ?_
    intro value last _
    refine .pure ?_
    simp
  · exact .pure rfl

omit fair inner in
def TracksLevels (exchange : Exchange) (reporting : Reporting) (levels : Levels) : Prop :=
  ∀ entry ∈ levels, ∀ start, Tracks exchange reporting false entry.2 entry.2 start

omit inner in
theorem levelRound_tracks (allowRelational : Bool) {levels : Levels}
    (each : TracksLevels exchange reporting levels) :
    Tracks exchange reporting loose (levelRound allowRelational levels)
      (levelRound allowRelational levels) start := by
  refine .lexeme fair fun alike => ?_
  rw [← alike.lexeme (Precedence.ofOperator? · allowRelational) rfl]
  split
  · exact .pure rfl
  · split
    · exact .pure rfl
    · rename_i operand found
      obtain ⟨earlier, later, rfl, _⟩ := List.lookup_eq_some_iff.mp found
      refine .bind (.collect fair fun start => chainRound_tracks fair allowRelational _
        (each _ (List.mem_append_right earlier List.mem_cons_self))) ?_
      intro terms middle _
      exact .pure rfl

omit fair inner in
theorem unname_chains (first : Expression) (chains : List (Precedence × List ChainTerm)) :
    (unname exchange.turned chains).foldl
        (fun operand chain => Expression.chain chain.1 operand chain.2)
        (unname exchange.turned first) =
      unname exchange.turned
        (chains.foldl (fun operand chain => Expression.chain chain.1 operand chain.2) first) := by
  induction chains generalizing first with
  | nil => rfl
  | cons chain rest induction =>
      rw [unname_cons, List.foldl_cons, List.foldl_cons, ← induction, unname_chain]
      rfl

theorem chainsOver_tracks (allowRelational : Bool) {levels : Levels}
    (each : TracksLevels exchange reporting levels) :
    Tracks exchange reporting loose (chainsOver nested allowRelational levels)
      (chainsOver nested allowRelational levels) start := by
  refine .bind (basicExpression_tracks fair inner) ?_
  intro first middle _
  refine .bind (.collect fair fun start => levelRound_tracks fair allowRelational each) ?_
  intro chains last _
  exact .pure (unname_chains first chains)

theorem operandLevels_tracks (allowRelational : Bool) (levels : List Precedence) :
    TracksLevels exchange reporting (operandLevels nested allowRelational levels) := by
  induction levels with
  | nil => exact List.forall_mem_nil _
  | cons level tighter induction =>
      refine List.forall_mem_cons.mpr ⟨fun start => ?_, induction⟩
      exact chainsOver_tracks fair inner allowRelational induction

theorem expression_tracks (allowRelational : Bool) :
    Tracks exchange reporting loose (expression nested allowRelational)
      (expression nested allowRelational) start :=
  .restoring (chainsOver_tracks fair inner allowRelational
    (operandLevels_tracks fair inner allowRelational _))

end CppsFrontend.Grammar
