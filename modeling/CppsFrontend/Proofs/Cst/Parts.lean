import CppsFrontend.Proofs.Cst.Denoting

/-!
# Parts of a value

A value that denotes a tree holds the handles of its parts and no others, in their order, and
the tokens in it are places in the stream.
-/

set_option autoImplicit false

namespace CppsFrontend

variable [NodeKind.Layouts]

namespace Cst

variable {α β : Type} {size : Nat}

def partHandles (parts : List Part) : List Handle := parts.map fun part => part.2.node.handle

@[simp] theorem partHandles_nil : partHandles [] = [] := rfl

@[simp] theorem partHandles_append (parts others : List Part) :
    partHandles (parts ++ others) = partHandles parts ++ partHandles others := by
  simp [partHandles]

theorem Held.handle_eq {kind : NodeKind} {node : Node kind} {tree : kind.Tree}
    {parts : List Part} (held : Held node tree parts) : partHandles parts = [node.handle] := by
  cases held
  rfl

theorem Each.length_eq {denotes : α → β → List Part → Prop} {values : List α} {trees : List β}
    {parts : List Part} (each : Each denotes values trees parts) :
    values.length = trees.length := by
  induction each with
  | nil => rfl
  | cons first rest induction => exact congrArg Nat.succ induction

theorem Each.handles_eq {denotes : α → β → List Part → Prop} {reached : α → List Handle}
    (one : ∀ value tree parts, denotes value tree parts → partHandles parts = reached value)
    {values : List α} {trees : List β} {parts : List Part}
    (each : Each denotes values trees parts) : partHandles parts = values.flatMap reached := by
  induction each with
  | nil => rfl
  | cons first rest induction =>
      rw [partHandles_append, one _ _ _ first, induction, List.flatMap_cons]

theorem Each.tokens_lt {denotes : α → β → List Part → Prop} {written : α → List TokenId}
    (one : ∀ value tree parts, denotes value tree parts → ∀ token ∈ written value, token < size)
    {values : List α} {trees : List β} {parts : List Part}
    (each : Each denotes values trees parts) :
    ∀ token ∈ values.flatMap written, token < size := by
  induction each with
  | nil => simp
  | cons first rest induction =>
      intro token member
      rcases List.mem_append.mp (List.flatMap_cons ▸ member) with member | member
      · exact one _ _ _ first token member
      · exact induction token member

theorem Maybe.handles_eq {kind : NodeKind} {node : Option (Node kind)} {tree : Option kind.Tree}
    {parts : List Part} (held : Maybe Held node tree parts) :
    partHandles parts = node.toList.map Node.handle := by
  cases held with
  | none => rfl
  | some present => exact present.handle_eq

section Handles

variable {tree : CppsFrontend.Statement} {expression : CppsFrontend.Expression}
variable {parts : List Part}

theorem Identifier.Denotes.handles_eq {stored : Identifier} {identifier : CppsFrontend.Identifier}
    (denotes : Identifier.Denotes stored identifier parts) :
    partHandles parts = stored.handles := by
  cases denotes <;> exact Held.handle_eq ‹_›

theorem DeclarationType.Denotes.handles_eq {stored : DeclarationType}
    {type : CppsFrontend.DeclarationType} (denotes : DeclarationType.Denotes stored type parts) :
    partHandles parts = stored.handles := by
  cases denotes <;> exact Held.handle_eq ‹_›

theorem Returns.Denotes.handles_eq {stored : Returns} {returns : CppsFrontend.Returns}
    (denotes : Returns.Denotes stored returns parts) : partHandles parts = stored.handles := by
  cases denotes with
  | nothing => rfl
  | value held => exact held.handle_eq
  | named held => exact held.handle_eq

theorem ParameterList.Denotes.handles_eq {stored : ParameterList}
    {list : CppsFrontend.ParameterList} (denotes : ParameterList.Denotes stored list parts) :
    partHandles parts = stored.handles := by
  cases denotes with
  | intro each =>
      rw [each.handles_eq fun _ _ _ held => held.handle_eq, handles, List.map_eq_flatMap]

theorem Operand.Denotes.handles_eq {stored : Operand}
    (denotes : Operand.Denotes stored expression parts) :
    partHandles parts = stored.handles := by
  cases denotes <;> exact Held.handle_eq ‹_›

theorem ExpressionList.Denotes.handles_eq {stored : ExpressionList}
    {list : CppsFrontend.ExpressionList} (denotes : ExpressionList.Denotes stored list parts) :
    partHandles parts = stored.handles := by
  cases denotes with
  | intro each =>
      rw [handles, List.map_eq_flatMap]
      refine each.handles_eq fun argument term parts denotes => ?_
      cases denotes with
      | intro held => exact held.handle_eq

theorem PostfixTerm.Denotes.handles_eq {stored : PostfixTerm} {term : CppsFrontend.PostfixTerm}
    (denotes : PostfixTerm.Denotes size stored term parts) :
    partHandles parts = stored.handles := by
  cases denotes with
  | operator inside => rfl
  | member inside held => exact held.handle_eq
  | arguments opened closed denotes =>
      rw [denotes.handles_eq]
      exact (List.append_nil _).symm

theorem PostfixTerm.Denotes.tokens_lt {stored : PostfixTerm} {term : CppsFrontend.PostfixTerm}
    (denotes : PostfixTerm.Denotes size stored term parts) :
    ∀ token ∈ stored.tokens, token < size := by
  cases denotes with
  | operator inside => simpa [tokens] using inside
  | member inside held => simpa [tokens] using inside
  | arguments opened closed denotes => simpa [tokens] using And.intro opened closed

theorem Primary.Denotes.handles_eq {stored : Primary} {primary : CppsFrontend.Primary}
    (denotes : Primary.Denotes size stored primary parts) :
    partHandles parts = stored.handles := by
  cases denotes with
  | token inside => rfl
  | list held => exact held.handle_eq
  | identifier held => exact held.handle_eq
  | function held => exact held.handle_eq

theorem Statement.Denotes.handles_eq {stored : Statement}
    (denotes : Statement.Denotes stored tree parts) : partHandles parts = stored.handles := by
  cases denotes <;> exact Held.handle_eq ‹_›

end Handles

end Cst

namespace NodeKind

variable {size : Nat} {kind : NodeKind} {content : kind.Content} {tree : kind.Tree}
variable {parts : List Part}

open Cst

/-- The parts of a tree are those that its value holds the handles of. -/
theorem Denotes.handles_eq (denotes : kind.Denotes size content tree parts) :
    partHandles parts = kind.handles content := by
  cases kind with
  | declaration =>
      cases denotes with
      | intro named typed inside initialized =>
          rw [partHandles_append, partHandles_append, named.handles_eq, typed.handles_eq,
            initialized.handles_eq]
          rfl
  | functionSignature =>
      cases denotes with
      | intro takes gives =>
          rw [partHandles_append, takes.handles_eq, gives.handles_eq]
          rfl
  | parameterList => exact Cst.ParameterList.Denotes.handles_eq denotes
  | parameter => cases denotes with | intro held => exact held.handle_eq
  | unqualifiedIdentifier => cases denotes with | intro written inside => rfl
  | qualifiedIdentifier =>
      cases denotes with
      | intro first more =>
          rw [partHandles_append, first.handle_eq, more.handles_eq]
          · rfl
          · intro term name parts denotes
            cases denotes with
            | intro inside held => exact held.handle_eq
  | identifierExpression =>
      cases denotes with
      | intro denotes => exact denotes.handles_eq
  | statement => exact Cst.Statement.Denotes.handles_eq denotes
  | compound =>
      cases denotes with
      | intro each =>
          rw [each.handles_eq fun _ _ _ held => held.handle_eq]
          exact List.map_eq_flatMap.symm
  | expressionStatement => cases denotes with | intro held => exact held.handle_eq
  | iteration =>
      cases denotes with
      | intro inside tests repeats =>
          rw [partHandles_append, tests.handle_eq, repeats.handle_eq]
          rfl
  | result => cases denotes with | intro inside held => exact held.handles_eq
  | selection =>
      cases denotes with
      | intro inside written held chosen otherwise =>
          rw [partHandles_append, partHandles_append, held.handle_eq, chosen.handle_eq,
            otherwise.handles_eq]
          rfl
  | expression => cases denotes with | intro denotes => exact denotes.handles_eq
  | chain =>
      cases denotes with
      | intro denotes each =>
          rw [partHandles_append, denotes.handles_eq, each.handles_eq]
          · rfl
          · intro link term parts denotes
            cases denotes with
            | intro inside denotes => exact denotes.handles_eq
  | basic =>
      cases denotes with
      | intro inside held each =>
          rw [partHandles_append, held.handle_eq,
            each.handles_eq fun _ _ _ denotes => denotes.handles_eq]
          rfl
  | primary => exact Cst.Primary.Denotes.handles_eq denotes
  | expressionList => exact Cst.ExpressionList.Denotes.handles_eq denotes

/-- Every token in a value that denotes a tree is a place in the stream. -/
theorem Denotes.tokens_lt (denotes : kind.Denotes size content tree parts) :
    ∀ token ∈ kind.tokens content, token < size := by
  cases kind with
  | declaration =>
      cases denotes with
      | intro named typed inside initialized => simpa [tokens] using inside
  | unqualifiedIdentifier =>
      cases denotes with
      | intro written inside =>
          intro token member
          rcases List.mem_append.mp member with member | member
          · exact written token (Option.mem_toList.mp member)
          · exact List.mem_singleton.mp member ▸ inside
  | qualifiedIdentifier =>
      cases denotes with
      | intro first more =>
          refine more.tokens_lt fun term name parts denotes => ?_
          cases denotes with
          | intro inside held => simpa [QualifiedTerm.tokens] using inside
  | iteration => cases denotes with | intro inside tests repeats => simpa [tokens] using inside
  | result => cases denotes with | intro inside held => simpa [tokens] using inside
  | selection =>
      cases denotes with
      | intro inside written held chosen otherwise =>
          simpa [tokens] using And.intro inside written
  | chain =>
      cases denotes with
      | intro denotes each =>
          rw [tokens, List.map_eq_flatMap]
          refine each.tokens_lt fun link term parts denotes => ?_
          cases denotes with
          | intro inside denotes => simpa using inside
  | basic =>
      cases denotes with
      | intro inside held each =>
          intro token member
          rcases List.mem_append.mp member with member | member
          · exact inside token member
          · exact each.tokens_lt (fun _ _ _ denotes => denotes.tokens_lt) token member
  | primary => cases denotes <;> simp_all [tokens, Primary.tokens]
  | functionSignature | parameterList | parameter | identifierExpression | statement | compound
  | expressionStatement | expression | expressionList => simp [tokens]

end NodeKind

end CppsFrontend
