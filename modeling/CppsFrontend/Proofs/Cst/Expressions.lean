import CppsFrontend.Cst.Expression
import CppsFrontend.Proofs.Cst.Declarations
import CppsFrontend.Proofs.Grammar.Expressions

/-!
# Stored expressions

The storing productions for expressions mirror the productions for expressions, if those for
what stands inside them do.
-/

set_option autoImplicit false

namespace CppsFrontend.Cst

open Grammar (Nested Input State)
open Grammar.Production (Round)
open Storing

variable [NodeKind.Layouts] {input : Input} {state : State}
variable {storing : StoringNested} {nested : Nested}

section Nested

variable (inner : MirrorsNested input storing nested)

include inner

/-! ## Arguments -/

theorem argument_mirrors :
    Mirrors input state [] (argument storing) (Grammar.argument nested) Argument.Denotes :=
  .read fun _ _ _ => .bind inner.expression fun _ _ _ _ held => .pure (.intro held)

theorem argumentRound_mirrors :
    Mirrors input state [] (argumentRound storing) (Grammar.argumentRound nested)
      (OfRound Argument.Denotes) := by
  refine .read fun comma _ _ => ?_
  cases comma with
  | none => exact .pure .stop
  | some place =>
      refine .bind (.orReject fun _ => argument_mirrors inner) fun _ _ _ _ denotes => ?_
      exact .pure (.more denotes)

theorem arguments_mirrors :
    Mirrors input state [] (arguments storing) (Grammar.arguments nested)
      (Each Argument.Denotes) := by
  refine .read fun start _ _ => .read fun before _ _ => ?_
  refine .attempt (argument_mirrors inner) ?_ fun _ => ?_
  · intro first argument parts _ denotes
    refine .bind (.collect fun _ => argumentRound_mirrors inner) fun _ _ _ _ each => ?_
    exact .pure (.cons denotes each)
  · refine .read fun reports _ _ => ?_
    split
    · exact .fail
    · exact .read fun _ _ _ => .pure .nil

/-! ## Primary expressions -/

theorem parenthesized_mirrors :
    Mirrors input state [] (parenthesized storing) (Grammar.parenthesized nested) Held := by
  refine .restoring (.read fun opening _ _ => .read fun _ _ _ => ?_)
  refine .bind (.orReject fun _ => arguments_mirrors inner) fun terms trees parts _ each => ?_
  refine .read fun closing _ _ => .read fun closed _ _ => ?_
  cases closed with
  | none => exact .reject
  | some place => exact .creating (.intro each) fun node => .create (.list (.of ..))

omit inner in
/-- What keeps a stored declaration from being an expression is read off its nodes. -/
theorem expressionScopeError?_mirrors {α β : Type} {node : Node NodeKind.declaration}
    {declaration : CppsFrontend.Declaration} {hand : List Part}
    {next : Option (GrammarError × Location) → Storing α} {rest : Grammar.Production β}
    {denotes : α → β → List Part → Prop} (held : Held node declaration hand)
    (goes : Mirrors input state hand (next (Grammar.expressionScopeError? declaration)) rest
      denotes) :
    Mirrors input state hand (expressionScopeError? node >>= next) rest denotes := by
  refine .inspect fun sound => ?_
  obtain ⟨content, parts, entries, denotes, sound⟩ := held.value sound
  rw [expressionScopeError?, Storing.bind_assoc]
  refine .getting content (by rw [entries]; exact List.mem_cons_self ..) ?_
  cases denotes with
  | @intro _ _ _ _ _ _ _ _ _ _ names types inits named typed inside initialized =>
      cases typed with
      | object held => exact goes
      | function held =>
          obtain ⟨content, parts, below, denotes, sound⟩ := held.value fun part member =>
            sound part (by simp [member])
          simp only [Storing.bind_assoc]
          refine .getting content (by simp [entries, below]) ?_
          cases denotes with
          | intro takes gives =>
              cases gives with
              | nothing => exact goes
              | value held => exact goes
              | named held =>
                  obtain ⟨content, parts, last, denotes, -⟩ := held.value fun part member =>
                    sound part (List.mem_append_right _ member)
                  simp only [Storing.bind_assoc]
                  refine .getting content (by simp [entries, below, last]) ?_
                  cases denotes with
                  | intro each => exact goes

theorem unnamedFunction_mirrors :
    Mirrors input state [] (unnamedFunction storing) (Grammar.unnamedFunction nested) Held := by
  refine .restoring (.read fun start _ _ => ?_)
  refine .bind (unnamedDeclaration_mirrors inner start true) ?_
  rintro node declaration parts _ ⟨held, -⟩
  refine expressionScopeError?_mirrors held ?_
  cases Grammar.expressionScopeError? declaration with
  | none => exact .create (.function held)
  | some found => exact .reject

theorem primary_mirrors :
    Mirrors input state [] (primary storing) (Grammar.primary nested) Held := by
  refine .attempt identifierExpression_mirrors ?_ fun _ => ?_
  · intro node expression parts _ held
    exact .create (.identifier held)
  · refine .read fun lexeme _ run => ?_
    cases run
    split
    · rename_i primary
      refine .read fun place _ run => ?_
      have inside := Grammar.lt_size_of_primaryToken primary
      obtain ⟨rfl, rfl⟩ := (Grammar.Production.advance_run inside).mp run
      exact .create (.token inside)
    · refine .read fun opens _ _ => ?_
      split
      · exact parenthesized_mirrors inner
      · exact unnamedFunction_mirrors inner

/-! ## Postfix terms -/

theorem callArguments_mirrors {opening : TokenId} (opened : opening < input.stream.size)
    (location : Location) :
    Mirrors input state [] (callArguments storing opening location)
      (Grammar.callArguments nested opening location) (PostfixTerm.Denotes input.stream.size) := by
  refine .bind (.orRejectAt fun _ => arguments_mirrors inner) fun terms trees parts _ each => ?_
  refine .read fun closing _ _ => .read fun closed _ run => ?_
  cases closed with
  | none => exact .reject
  | some token =>
      exact .pure (.arguments opened (lt_size_of_eat (by simp) run token rfl) (.intro each))

theorem subscriptArguments_mirrors {opening : TokenId} (opened : opening < input.stream.size)
    (location : Location) :
    Mirrors input state [] (subscriptArguments storing opening location)
      (Grammar.subscriptArguments nested opening location)
      (PostfixTerm.Denotes input.stream.size) := by
  refine .bind (.orRejectAt fun _ => arguments_mirrors inner) fun terms trees parts _ each => ?_
  have empty : terms.isEmpty = trees.isEmpty := by cases each <;> rfl
  rw [empty]
  split
  · exact .read fun _ _ run => absurd run Grammar.Production.reject_run
  · refine .read fun closing _ _ => .read fun closed _ run => ?_
    cases closed with
    | none => exact .reject
    | some token =>
        exact .pure (.arguments opened (lt_size_of_eat (by simp) run token rfl) (.intro each))

omit inner in
theorem member_mirrors {dot : TokenId} (inside : dot < input.stream.size) (location : Location) :
    Mirrors input state [] (member dot location) (Grammar.member dot location)
      (PostfixTerm.Denotes input.stream.size) := by
  refine .attempt identifierExpression_mirrors ?_ fun _ => .reject
  intro node expression parts _ held
  exact .pure (.member inside held)

theorem postfixRound_mirrors :
    Mirrors input state [] (postfixRound storing) (Grammar.postfixRound nested)
      (OfRound (PostfixTerm.Denotes input.stream.size)) := by
  refine .read fun mark _ run => ?_
  cases run
  refine .read fun before _ run => ?_
  cases run
  refine .read fun after _ run => ?_
  cases run
  split
  · rename_i continues
    have inside := Grammar.lt_size_of_continuesPostfix continues
    refine .read fun operator _ run => ?_
    obtain ⟨rfl, rfl⟩ := (Grammar.Production.advance_run inside).mp run
    by_cases opens : Grammar.opensPostfix (input.stream.get state.position).lexeme
    · rcases opens with found | found | found <;> simp only [found]
      · exact .bind (subscriptArguments_mirrors inner inside _) fun _ _ _ _ denotes =>
          .pure (.more denotes)
      · exact .bind (callArguments_mirrors inner inside _) fun _ _ _ _ denotes =>
          .pure (.more denotes)
      · exact .bind (member_mirrors inside _) fun _ _ _ _ denotes => .pure (.more denotes)
    · cases found : (input.stream.get state.position).lexeme with
      | punctuator mark =>
          simp only [Grammar.opensPostfix, found, Lexeme.punctuator.injEq, not_or] at opens
          cases mark
          case openBracket => exact absurd rfl opens.1
          case openParenthesis => exact absurd rfl opens.2.1
          case dot => exact absurd rfl opens.2.2
          all_goals exact .pure (.more (.operator inside))
      | _ => exact .pure (.more (.operator inside))
  · exact .pure .stop

/-! ## Basic expressions and chains -/

theorem basicExpression_mirrors :
    Mirrors input state [] (basicExpression storing) (Grammar.basicExpression nested) Held := by
  refine .restoring (.read fun signs _ run => ?_)
  have covers := Grammar.signRounds_cover (Grammar.Production.collect_run run)
  have inside : ∀ token ∈ signs, token < input.stream.size := fun token member =>
    (covers.fits _ (List.mem_map_of_mem member)).1
  refine .bind (primary_mirrors inner) fun node primary parts _ held => ?_
  refine .bind (.collect fun _ => postfixRound_mirrors inner) fun terms trees others _ each => ?_
  exact .create (.intro inside held each)

end Nested

section Chains

variable {allowRelational : Bool} {level : Precedence}
variable {nesting : StoringNested}

theorem chainRound_mirrors {storing : Storing Operand}
    {operand : Grammar.Production CppsFrontend.Expression}
    (mirrors : ∀ state, Mirrors input state [] storing operand Operand.Denotes) :
    Mirrors input state [] (chainRound allowRelational level storing)
      (Grammar.chainRound allowRelational level operand)
      (OfRound (ChainTerm.Denotes input.stream.size)) := by
  refine .read fun operator _ run => ?_
  cases run
  split
  · rename_i continues
    have inside := Grammar.lt_size_of_operator continues
    refine .read fun token _ run => ?_
    obtain ⟨rfl, rfl⟩ := (Grammar.Production.advance_run inside).mp run
    exact .bind (.orReject mirrors) fun _ _ _ _ denotes => .pure (.more (.intro inside denotes))
  · exact .pure .stop

def MirrorsLevels (input : Input) (storing : StoringLevels) (levels : Grammar.Levels) : Prop :=
  List.Forall₂ (fun stored level => stored.1 = level.1 ∧
    ∀ state, Mirrors input state [] stored.2 level.2 Operand.Denotes) storing levels

theorem MirrorsLevels.lookup {storing : StoringLevels} {levels : Grammar.Levels}
    (mirrors : MirrorsLevels input storing levels) (level : Precedence) :
    storing.lookup level = none ∧ levels.lookup level = none ∨
      ∃ stored operand, storing.lookup level = some stored ∧
        levels.lookup level = some operand ∧
          ∀ state, Mirrors input state [] stored operand Operand.Denotes := by
  induction mirrors with
  | nil => exact .inl ⟨rfl, rfl⟩
  | @cons stored other storing levels first rest induction =>
      obtain ⟨same, first⟩ := first
      rw [List.lookup_cons, List.lookup_cons, same]
      split
      · exact .inr ⟨_, _, rfl, rfl, first⟩
      · exact induction

/-- The chains that were made so far, around the first operand. -/
def Chained.Denotes (first : CppsFrontend.Expression) (made : Operand)
    (earlier : List (Precedence × List CppsFrontend.ChainTerm)) (parts : List Part) : Prop :=
  Operand.Denotes made
    (earlier.reverse.foldl (fun operand chain => .chain chain.1 operand chain.2) first) parts

theorem levelRound_mirrors {storing : StoringLevels} {levels : Grammar.Levels}
    (mirrors : MirrorsLevels input storing levels) {first : CppsFrontend.Expression}
    {made : Operand} {earlier : List (Precedence × List CppsFrontend.ChainTerm)}
    {hand : List Part} (chained : Chained.Denotes first made earlier hand) :
    Mirrors input state hand (levelRound allowRelational storing made)
      (Grammar.levelRound allowRelational levels) (Goes (Chained.Denotes first) made earlier) := by
  refine .read fun lexeme _ _ => ?_
  cases Precedence.ofOperator? lexeme allowRelational with
  | none => exact .pure (.stop chained)
  | some level =>
      rcases mirrors.lookup level with ⟨missing, absent⟩ | ⟨stored, operand, found, known, mirrors⟩
      · simp only [missing, absent]
        exact .pure (.stop chained)
      · simp only [found, known]
        refine .bind (.collect fun _ => chainRound_mirrors mirrors)
          fun links terms parts _ each => ?_
        refine .creating (.intro chained each) fun node => .pure (.more ?_)
        rw [Chained.Denotes, List.reverse_cons, List.foldl_append]
        exact .chain (.of ..)

theorem chainsOver_mirrors (inner : MirrorsNested input nesting nested)
    {storing : StoringLevels} {levels : Grammar.Levels}
    (mirrors : MirrorsLevels input storing levels) :
    Mirrors input state [] (chainsOver nesting allowRelational storing)
      (Grammar.chainsOver nested allowRelational levels) Operand.Denotes := by
  refine .bind (basicExpression_mirrors inner) fun node first parts _ held => ?_
  have start : Chained.Denotes first (.basic node) [] parts := .basic held
  refine .ending (.loop (fun _ _ _ _ chained => levelRound_mirrors mirrors chained) start) ?_
  intro made chains parts chained
  rwa [Chained.Denotes, List.reverse_reverse] at chained

theorem operandLevels_mirrors (inner : MirrorsNested input nesting nested)
    (levels : List Precedence) :
    MirrorsLevels input (operandLevels nesting allowRelational levels)
      (Grammar.operandLevels nested allowRelational levels) := by
  induction levels with
  | nil => exact .nil
  | cons level tighter induction =>
      exact .cons ⟨rfl, fun _ => chainsOver_mirrors inner induction⟩ induction

theorem expression_mirrors (inner : MirrorsNested input nesting nested) :
    Mirrors input state [] (expression nesting allowRelational)
      (Grammar.expression nested allowRelational) Held := by
  refine .restoring (.onto (chainsOver_mirrors inner (operandLevels_mirrors inner _)) ?_)
  intro root expression parts _ denotes
  exact .create (.intro denotes)

end Chains

end CppsFrontend.Cst
