import CppsFrontend.Cst.Node
import CppsFrontend.Proofs.Arena.Keeping

/-!
# What nodes reach

The handles and the tokens in what a node keeps, and the walk that follows handles through
an arena.
-/

set_option autoImplicit false

namespace CppsFrontend

abbrev Handle : Type := Sigma fun kind : NodeKind => Node kind

def Node.handle {kind : NodeKind} (node : Node kind) : Handle := ⟨kind, node⟩

namespace Cst

/-! ## Names and declarations -/

def QualifiedTerm.handles (term : QualifiedTerm) : List Handle := [term.identifier.handle]

def QualifiedTerm.tokens (term : QualifiedTerm) : List TokenId := term.scope.toList

def Identifier.handles : Identifier → List Handle
  | .unqualified name => [name.handle]
  | .qualified names => [names.handle]

def DeclarationType.handles : DeclarationType → List Handle
  | .function signature => [signature.handle]
  | .object type => [type.handle]

def Returns.handles : Returns → List Handle
  | .nothing => []
  | .value type => [type.handle]
  | .named results => [results.handle]

def ParameterList.handles (list : ParameterList) : List Handle :=
  list.parameters.map Node.handle

def FunctionSignature.handles (signature : FunctionSignature) : List Handle :=
  signature.parameters.handles ++ signature.returns.handles

def Declaration.handles (declaration : Declaration) : List Handle :=
  declaration.identifier.toList.map Node.handle ++ declaration.type.handles ++
    declaration.initializer.toList.map Node.handle

/-! ## Expressions -/

def Operand.handles : Operand → List Handle
  | .basic node => [node.handle]
  | .chain node => [node.handle]

def ExpressionList.handles (list : ExpressionList) : List Handle :=
  list.terms.map (·.expression.handle)

def PostfixTerm.handles (term : PostfixTerm) : List Handle :=
  term.member.toList.map Node.handle ++ term.arguments.toList.flatMap ExpressionList.handles

def PostfixTerm.tokens (term : PostfixTerm) : List TokenId :=
  term.operator :: term.closing.toList

def Primary.handles : Primary → List Handle
  | .token _ => []
  | .list node => [node.handle]
  | .identifier node => [node.handle]
  | .function node => [node.handle]

def Primary.tokens : Primary → List TokenId
  | .token place => [place]
  | _ => []

/-! ## Statements -/

def Statement.handles : Statement → List Handle
  | .declaration node => [node.handle]
  | .compound node => [node.handle]
  | .expression node => [node.handle]
  | .iteration node => [node.handle]
  | .result node => [node.handle]
  | .selection node => [node.handle]

end Cst

namespace NodeKind

def handles : (kind : NodeKind) → kind.Content → List Handle
  | declaration, content => content.handles
  | functionSignature, content => content.handles
  | parameterList, content => content.handles
  | parameter, content => [content.declaration.handle]
  | unqualifiedIdentifier, _ => []
  | qualifiedIdentifier, content => content.terms.flatMap Cst.QualifiedTerm.handles
  | identifierExpression, content => content.identifier.handles
  | statement, content => content.handles
  | compound, content => content.statements.map Node.handle
  | expressionStatement, content => [content.expression.handle]
  | iteration, content => [content.condition.handle, content.body.handle]
  | result, content => content.expression.toList.map Node.handle
  | selection, content =>
      content.condition.handle :: content.positive.handle ::
        content.negative.toList.map Node.handle
  | expression, content => content.root.handles
  | chain, content => content.first.handles ++ content.terms.flatMap (·.operand.handles)
  | basic, content =>
      content.primary.handle :: content.terms.flatMap Cst.PostfixTerm.handles
  | primary, content => content.handles
  | expressionList, content => content.handles

def tokens : (kind : NodeKind) → kind.Content → List TokenId
  | declaration, content => content.pointer.toList
  | functionSignature, _ => []
  | parameterList, _ => []
  | parameter, _ => []
  | unqualifiedIdentifier, content => content.constant.toList ++ [content.identifier]
  | qualifiedIdentifier, content => content.terms.flatMap Cst.QualifiedTerm.tokens
  | identifierExpression, _ => []
  | statement, _ => []
  | compound, _ => []
  | expressionStatement, _ => []
  | iteration, content => [content.keyword]
  | result, content => [content.keyword]
  | selection, content => content.keyword :: content.constant.toList
  | expression, _ => []
  | chain, content => content.terms.map (·.operator)
  | basic, content => content.signs ++ content.terms.flatMap Cst.PostfixTerm.tokens
  | primary, content => content.tokens
  | expressionList, _ => []

end NodeKind

/-! ## Walks through an arena -/

variable [NodeKind.Layouts]

/-- A walk from handles: each with its value, then through the handles in that value, and
then on with the handles behind it. -/
inductive Arena.Walk (arena : Arena NodeKind) : List Handle → List (Kept NodeKind) → Prop where
  | nil : Walk arena [] []
  | cons {kind : NodeKind} {node : Node kind} {content : kind.Content} {rest : List Handle}
      {visited : List (Kept NodeKind)} (found : arena.get node = .ok content)
      (further : Walk arena (kind.handles content ++ rest) visited) :
      Walk arena (node.handle :: rest) (⟨kind, node, content⟩ :: visited)

/-- A handle is one of some handles, or in the value of a handle that they reach. -/
inductive Arena.Reaches (arena : Arena NodeKind) (roots : List Handle) : Handle → Prop where
  | root {handle : Handle} (member : handle ∈ roots) : Reaches arena roots handle
  | step {kind : NodeKind} {node : Node kind} {content : kind.Content} {handle : Handle}
      (reached : Reaches arena roots node.handle) (found : arena.get node = .ok content)
      (member : handle ∈ kind.handles content) : Reaches arena roots handle

namespace Arena.Walk

variable {arena : Arena NodeKind} {roots : List Handle} {visited : List (Kept NodeKind)}

theorem found (walk : arena.Walk roots visited) :
    ∀ entry ∈ visited, arena.get entry.node = .ok entry.value := by
  induction walk with
  | nil => exact List.forall_mem_nil _
  | cons found further induction => exact List.forall_mem_cons.mpr ⟨found, induction⟩

/-- A walk comes to the handles that it starts from, and to all handles in the values on
it. -/
theorem closed (walk : arena.Walk roots visited) :
    (∀ handle ∈ roots, ∃ entry ∈ visited, entry.node.handle = handle) ∧
      ∀ entry ∈ visited, ∀ handle ∈ entry.kind.handles entry.value,
        ∃ other ∈ visited, other.node.handle = handle := by
  induction walk with
  | nil => exact ⟨List.forall_mem_nil _, List.forall_mem_nil _⟩
  | @cons kind node content rest visited found further induction =>
      obtain ⟨begins, inside⟩ := induction
      have later : ∀ handle, (∃ entry ∈ visited, entry.node.handle = handle) →
          ∃ entry ∈ ⟨kind, node, content⟩ :: visited, entry.node.handle = handle := by
        rintro handle ⟨entry, member, same⟩
        exact ⟨entry, List.mem_cons_of_mem _ member, same⟩
      refine ⟨?_, ?_⟩
      · intro handle member
        rcases List.mem_cons.mp member with rfl | member
        · exact ⟨_, List.mem_cons_self .., rfl⟩
        · exact later _ (begins handle (List.mem_append_right _ member))
      · intro entry member handle held
        rcases List.mem_cons.mp member with rfl | member
        · exact later _ (begins handle (List.mem_append_left _ held))
        · exact later _ (inside entry member handle held)

/-- A walk comes to every handle that is reached. -/
theorem visits (walk : arena.Walk roots visited) {handle : Handle}
    (reached : arena.Reaches roots handle) : ∃ entry ∈ visited, entry.node.handle = handle := by
  induction reached with
  | root member => exact walk.closed.1 _ member
  | @step kind node content handle reached found member induction =>
      obtain ⟨⟨other, stored, value⟩, on, same⟩ := induction
      cases same
      have known : arena.get stored = .ok value := walk.found _ on
      cases known.symm.trans found
      exact walk.closed.2 _ on handle member

end Arena.Walk

end CppsFrontend
