import CppsFrontend.Cst.Storing
import CppsFrontend.Proofs.Arena.Keeping
import CppsFrontend.Proofs.Cst.Reach

/-!
# What nodes stand for

A node stands for a part of the tree of a file.  `Subtree` is a handle with the tree that it
stands for and all values that are kept for it.  For each kind of node, `Denotes` says which
tree its value denotes, given the subtrees that it holds the handles of.
-/

set_option autoImplicit false

namespace CppsFrontend

@[reducible] def NodeKind.Tree : NodeKind → Type
  | declaration => Declaration
  | functionSignature => FunctionSignature
  | parameterList => ParameterList
  | parameter => Parameter
  | unqualifiedIdentifier => UnqualifiedIdentifier
  | qualifiedIdentifier => Identifier
  | identifierExpression => IdentifierExpression
  | compound => Compound
  | statement | expressionStatement | iteration | result | selection => Statement
  | expression | chain | basic => Expression
  | primary => Primary
  | expressionList => ExpressionList

variable [NodeKind.Layouts]

/-- A handle, the tree that it stands for, and its value with those of all nodes below. -/
structure Subtree (kind : NodeKind) where
  node : Node kind
  tree : kind.Tree
  entries : List (Kept NodeKind)

abbrev Part : Type := Sigma fun kind : NodeKind => Subtree kind

namespace Cst

variable {α β : Type}

inductive Held : {kind : NodeKind} → Node kind → kind.Tree → List Part → Prop where
  | intro {kind : NodeKind} (subtree : Subtree kind) :
      Held subtree.node subtree.tree [⟨kind, subtree⟩]

inductive Each (denotes : α → β → List Part → Prop) : List α → List β → List Part → Prop where
  | nil : Each denotes [] [] []
  | cons {value : α} {tree : β} {values : List α} {trees : List β} {parts others : List Part}
      (first : denotes value tree parts) (rest : Each denotes values trees others) :
      Each denotes (value :: values) (tree :: trees) (parts ++ others)

inductive Maybe (denotes : α → β → List Part → Prop) :
    Option α → Option β → List Part → Prop where
  | none : Maybe denotes none none []
  | some {value : α} {tree : β} {parts : List Part} (present : denotes value tree parts) :
      Maybe denotes (some value) (some tree) parts

variable (size : Nat)

/-! ## Names -/

inductive UnqualifiedIdentifier.Denotes :
    UnqualifiedIdentifier → UnqualifiedIdentifier → List Part → Prop where
  | intro {constant : Option TokenId} {identifier : TokenId}
      (written : ∀ token ∈ constant, token < size) (inside : identifier < size) :
      Denotes ⟨constant, identifier⟩ ⟨constant, identifier⟩ []

inductive QualifiedTerm.Denotes : QualifiedTerm → ScopedIdentifier → List Part → Prop where
  | intro {scope : TokenId} {node : Node .unqualifiedIdentifier} {name : UnqualifiedIdentifier}
      {parts : List Part} (inside : scope < size) (held : Held node name parts) :
      Denotes ⟨some scope, node⟩ ⟨scope, name⟩ parts

inductive QualifiedIdentifier.Denotes :
    QualifiedIdentifier → CppsFrontend.Identifier → List Part → Prop where
  | intro {node : Node .unqualifiedIdentifier} {name : UnqualifiedIdentifier}
      {terms : List QualifiedTerm} {names : List ScopedIdentifier} {parts others : List Part}
      (first : Held node name parts) (more : Each (QualifiedTerm.Denotes size) terms names others) :
      Denotes ⟨⟨none, node⟩ :: terms⟩ (.qualified name names) (parts ++ others)

inductive Identifier.Denotes : Identifier → CppsFrontend.Identifier → List Part → Prop where
  | unqualified {node : Node .unqualifiedIdentifier} {name : UnqualifiedIdentifier}
      {parts : List Part} (held : Held node name parts) :
      Denotes (.unqualified node) (.unqualified name) parts
  | qualified {node : Node .qualifiedIdentifier} {names : CppsFrontend.Identifier}
      {parts : List Part} (held : Held node names parts) : Denotes (.qualified node) names parts

inductive IdentifierExpression.Denotes :
    IdentifierExpression → CppsFrontend.IdentifierExpression → List Part → Prop where
  | intro {identifier : Identifier} {name : CppsFrontend.Identifier} {location : Location}
      {parts : List Part} (denotes : Identifier.Denotes identifier name parts) :
      Denotes ⟨identifier, location⟩ ⟨name, location⟩ parts

/-! ## Declarations -/

inductive DeclarationType.Denotes :
    DeclarationType → CppsFrontend.DeclarationType → List Part → Prop where
  | function {node : Node .functionSignature} {signature : CppsFrontend.FunctionSignature}
      {parts : List Part} (held : Held node signature parts) :
      Denotes (.function node) (.function signature) parts
  | object {node : Node .identifierExpression} {type : CppsFrontend.IdentifierExpression}
      {parts : List Part} (held : Held node type parts) :
      Denotes (.object node) (.object type) parts

inductive Returns.Denotes : Returns → CppsFrontend.Returns → List Part → Prop where
  | nothing : Denotes .nothing .nothing []
  | value {node : Node .identifierExpression} {type : CppsFrontend.IdentifierExpression}
      {parts : List Part} (held : Held node type parts) : Denotes (.value node) (.value type) parts
  | named {node : Node .parameterList} {results : CppsFrontend.ParameterList} {parts : List Part}
      (held : Held node results parts) : Denotes (.named node) (.named results) parts

inductive ParameterList.Denotes :
    ParameterList → CppsFrontend.ParameterList → List Part → Prop where
  | intro {nodes : List (Node NodeKind.parameter)} {parameters : List CppsFrontend.Parameter}
      {opening closing : Location} {parts : List Part}
      (each : Each (@Held _ NodeKind.parameter) nodes parameters parts) :
      Denotes ⟨nodes, opening, closing⟩ ⟨parameters, opening, closing⟩ parts

inductive FunctionSignature.Denotes :
    FunctionSignature → CppsFrontend.FunctionSignature → List Part → Prop where
  | intro {list : ParameterList} {parameters : CppsFrontend.ParameterList} {throws : Bool}
      {stored : Returns} {returns : CppsFrontend.Returns} {parts others : List Part}
      (takes : ParameterList.Denotes list parameters parts)
      (gives : Returns.Denotes stored returns others) :
      Denotes ⟨list, throws, stored⟩ ⟨parameters, throws, returns⟩ (parts ++ others)

inductive Parameter.Denotes : Parameter → CppsFrontend.Parameter → List Part → Prop where
  | intro {modifier : ParameterModifier} {node : Node .declaration}
      {declaration : CppsFrontend.Declaration} {location : Location} {parts : List Part}
      (held : Held node declaration parts) :
      Denotes ⟨modifier, node, location⟩ ⟨modifier, declaration, location⟩ parts

inductive Declaration.Denotes : Declaration → CppsFrontend.Declaration → List Part → Prop where
  | intro {name : Option (Node .unqualifiedIdentifier)} {identifier : Option UnqualifiedIdentifier}
      {stored : DeclarationType} {type : CppsFrontend.DeclarationType} {pointer : Option TokenId}
      {node : Option (Node .statement)} {initializer : Option CppsFrontend.Statement}
      {first last : Location} {equal : Option Location} {names types inits : List Part}
      (named : Maybe Held name identifier names) (typed : DeclarationType.Denotes stored type types)
      (inside : ∀ token ∈ pointer, token < size)
      (initialized : Maybe Held node initializer inits) :
      Denotes ⟨name, stored, pointer, node, first, last, equal⟩
        ⟨identifier, type, pointer, initializer, first, last, equal⟩ (names ++ types ++ inits)

/-! ## Expressions -/

inductive Operand.Denotes : Operand → CppsFrontend.Expression → List Part → Prop where
  | basic {node : Node .basic} {expression : CppsFrontend.Expression} {parts : List Part}
      (held : Held node expression parts) : Denotes (.basic node) expression parts
  | chain {node : Node .chain} {expression : CppsFrontend.Expression} {parts : List Part}
      (held : Held node expression parts) : Denotes (.chain node) expression parts

inductive Expression.Denotes : Expression → CppsFrontend.Expression → List Part → Prop where
  | intro {root : Operand} {expression : CppsFrontend.Expression} {parts : List Part}
      (denotes : Operand.Denotes root expression parts) : Denotes ⟨root⟩ expression parts

inductive ChainTerm.Denotes : ChainTerm → CppsFrontend.ChainTerm → List Part → Prop where
  | intro {operator : TokenId} {stored : Operand} {operand : CppsFrontend.Expression}
      {parts : List Part} (inside : operator < size)
      (denotes : Operand.Denotes stored operand parts) :
      Denotes ⟨operator, stored⟩ ⟨operator, operand⟩ parts

inductive Chain.Denotes : Chain → CppsFrontend.Expression → List Part → Prop where
  | intro {level : Precedence} {stored : Operand} {first : CppsFrontend.Expression}
      {links : List ChainTerm} {terms : List CppsFrontend.ChainTerm} {parts others : List Part}
      (denotes : Operand.Denotes stored first parts)
      (each : Each (ChainTerm.Denotes size) links terms others) :
      Denotes ⟨level, stored, links⟩ (.chain level first terms) (parts ++ others)

inductive Argument.Denotes : Argument → CppsFrontend.Argument → List Part → Prop where
  | intro {modifier : ParameterModifier} {node : Node .expression}
      {expression : CppsFrontend.Expression} {parts : List Part}
      (held : Held node expression parts) :
      Denotes ⟨modifier, node⟩ ⟨modifier, expression⟩ parts

inductive ExpressionList.Denotes :
    ExpressionList → CppsFrontend.ExpressionList → List Part → Prop where
  | intro {stored : List Argument} {terms : List CppsFrontend.Argument}
      {opening closing : Location} {parts : List Part}
      (each : Each Argument.Denotes stored terms parts) :
      Denotes ⟨stored, opening, closing⟩ ⟨terms, opening, closing⟩ parts

inductive PostfixTerm.Denotes : PostfixTerm → CppsFrontend.PostfixTerm → List Part → Prop where
  | operator {operator : TokenId} (inside : operator < size) :
      Denotes ⟨operator, none, none, none⟩ (.operator operator) []
  | member {dot : TokenId} {node : Node .identifierExpression}
      {member : CppsFrontend.IdentifierExpression} {parts : List Part} (inside : dot < size)
      (held : Held node member parts) :
      Denotes ⟨dot, some node, none, none⟩ (.member dot member) parts
  | arguments {opening closing : TokenId} {stored : ExpressionList}
      {arguments : CppsFrontend.ExpressionList} {parts : List Part} (opened : opening < size)
      (closed : closing < size) (denotes : ExpressionList.Denotes stored arguments parts) :
      Denotes ⟨opening, none, some stored, some closing⟩ (.arguments opening arguments closing)
        parts

inductive Basic.Denotes : Basic → CppsFrontend.Expression → List Part → Prop where
  | intro {signs : List TokenId} {node : Node .primary} {primary : CppsFrontend.Primary}
      {stored : List PostfixTerm} {terms : List CppsFrontend.PostfixTerm}
      {parts others : List Part} (inside : ∀ token ∈ signs, token < size)
      (held : Held node primary parts)
      (each : Each (PostfixTerm.Denotes size) stored terms others) :
      Denotes ⟨signs, node, stored⟩ (.basic signs primary terms) (parts ++ others)

inductive Primary.Denotes : Primary → CppsFrontend.Primary → List Part → Prop where
  | token {token : TokenId} (inside : token < size) : Denotes (.token token) (.token token) []
  | list {node : Node .expressionList} {list : CppsFrontend.ExpressionList} {parts : List Part}
      (held : Held node list parts) : Denotes (.list node) (.list list) parts
  | identifier {node : Node .identifierExpression}
      {expression : CppsFrontend.IdentifierExpression} {parts : List Part}
      (held : Held node expression parts) :
      Denotes (.identifier node) (.identifier expression) parts
  | function {node : Node .declaration} {declaration : CppsFrontend.Declaration}
      {parts : List Part} (held : Held node declaration parts) :
      Denotes (.function node) (.function declaration) parts

/-! ## Statements -/

inductive Statement.Denotes : Statement → CppsFrontend.Statement → List Part → Prop where
  | declaration {node : Node .declaration} {declaration : CppsFrontend.Declaration}
      {parts : List Part} (held : Held node declaration parts) :
      Denotes (.declaration node) (.declaration declaration) parts
  | compound {node : Node .compound} {block : CppsFrontend.Compound} {parts : List Part}
      (held : Held node block parts) : Denotes (.compound node) (.compound block) parts
  | expression {node : Node .expressionStatement} {statement : CppsFrontend.Statement}
      {parts : List Part} (held : Held node statement parts) :
      Denotes (.expression node) statement parts
  | iteration {node : Node .iteration} {statement : CppsFrontend.Statement} {parts : List Part}
      (held : Held node statement parts) : Denotes (.iteration node) statement parts
  | result {node : Node .result} {statement : CppsFrontend.Statement} {parts : List Part}
      (held : Held node statement parts) : Denotes (.result node) statement parts
  | selection {node : Node .selection} {statement : CppsFrontend.Statement} {parts : List Part}
      (held : Held node statement parts) : Denotes (.selection node) statement parts

inductive Compound.Denotes : Compound → CppsFrontend.Compound → List Part → Prop where
  | intro {nodes : List (Node NodeKind.statement)} {statements : List CppsFrontend.Statement}
      {opening closing : Location} {parts : List Part}
      (each : Each (@Held _ NodeKind.statement) nodes statements parts) :
      Denotes ⟨nodes, opening, closing⟩ ⟨statements, opening, closing⟩ parts

inductive ExpressionStatement.Denotes :
    ExpressionStatement → CppsFrontend.Statement → List Part → Prop where
  | intro {node : Node .expression} {expression : CppsFrontend.Expression} {semicolon : Bool}
      {parts : List Part} (held : Held node expression parts) :
      Denotes ⟨node, semicolon⟩ (.expression expression semicolon) parts

inductive Iteration.Denotes : Iteration → CppsFrontend.Statement → List Part → Prop where
  | intro {kind : IterationKind} {keyword : TokenId} {test : Node .expression}
      {condition : CppsFrontend.Expression} {block : Node .compound}
      {body : CppsFrontend.Compound} {parts others : List Part} (inside : keyword < size)
      (tests : Held test condition parts) (repeats : Held block body others) :
      Denotes ⟨kind, keyword, test, block⟩ (.iteration kind keyword condition body)
        (parts ++ others)

inductive Result.Denotes : Result → CppsFrontend.Statement → List Part → Prop where
  | intro {keyword : TokenId} {node : Option (Node .expression)}
      {expression : Option CppsFrontend.Expression} {parts : List Part} (inside : keyword < size)
      (held : Maybe Held node expression parts) :
      Denotes ⟨keyword, node⟩ (.result keyword expression) parts

inductive Selection.Denotes : Selection → CppsFrontend.Statement → List Part → Prop where
  | intro {keyword : TokenId} {constant : Option TokenId} {test : Node .expression}
      {condition : CppsFrontend.Expression} {block : Node .compound}
      {positive : CppsFrontend.Compound} {other : Option (Node .compound)}
      {negative : Option CppsFrontend.Compound} {tests parts others : List Part}
      (inside : keyword < size) (written : ∀ token ∈ constant, token < size)
      (held : Held test condition tests) (chosen : Held block positive parts)
      (otherwise : Maybe Held other negative others) :
      Denotes ⟨keyword, constant, test, block, other⟩
        (.selection keyword constant condition positive negative) (tests ++ parts ++ others)

end Cst

/-- What a node keeps denotes a tree; the parts are the subtrees that it holds the handles
of. -/
def NodeKind.Denotes (size : Nat) :
    (kind : NodeKind) → kind.Content → kind.Tree → List Part → Prop
  | declaration => Cst.Declaration.Denotes size
  | functionSignature => Cst.FunctionSignature.Denotes
  | parameterList => Cst.ParameterList.Denotes
  | parameter => Cst.Parameter.Denotes
  | unqualifiedIdentifier => Cst.UnqualifiedIdentifier.Denotes size
  | qualifiedIdentifier => Cst.QualifiedIdentifier.Denotes size
  | identifierExpression => Cst.IdentifierExpression.Denotes
  | statement => Cst.Statement.Denotes
  | compound => Cst.Compound.Denotes
  | expressionStatement => Cst.ExpressionStatement.Denotes
  | iteration => Cst.Iteration.Denotes size
  | result => Cst.Result.Denotes size
  | selection => Cst.Selection.Denotes size
  | expression => Cst.Expression.Denotes
  | chain => Cst.Chain.Denotes size
  | basic => Cst.Basic.Denotes size
  | primary => Cst.Primary.Denotes size
  | expressionList => Cst.ExpressionList.Denotes

end CppsFrontend
