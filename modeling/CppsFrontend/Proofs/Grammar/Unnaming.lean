import CppsFrontend.Tree.Basic

/-!
# Trees with names held as tokens

A primary expression that is a single name before one of some tokens is held as a token instead;
everything else in a tree is left alone.  `unname` does so for every kind of tree and for what
productions derive from them.
-/

set_option autoImplicit false

namespace CppsFrontend

/-- What holds primary expressions, or nothing that is one. -/
class Unnamable (α : Type) where
  /-- `before` tells the tokens before which a single name is held as a token. -/
  unname : (before : TokenId → Bool) → α → α

export Unnamable (unname)

/-! ## What holds no expressions -/

section Plain

instance : Unnamable TokenId := ⟨fun _ value => value⟩

instance : Unnamable Location := ⟨fun _ value => value⟩

instance : Unnamable Unit := ⟨fun _ value => value⟩

instance : Unnamable ParameterModifier := ⟨fun _ value => value⟩

instance : Unnamable Precedence := ⟨fun _ value => value⟩

instance : Unnamable UnqualifiedIdentifier := ⟨fun _ value => value⟩

instance : Unnamable ScopedIdentifier := ⟨fun _ value => value⟩

instance : Unnamable Identifier := ⟨fun _ value => value⟩

instance : Unnamable IdentifierExpression := ⟨fun _ value => value⟩

variable (before : TokenId → Bool)

@[simp] theorem unname_token (value : TokenId) : unname before value = value := rfl

@[simp] theorem unname_location (value : Location) : unname before value = value := rfl

@[simp] theorem unname_unit (value : Unit) : unname before value = value := rfl

@[simp] theorem unname_modifier (value : ParameterModifier) : unname before value = value := rfl

@[simp] theorem unname_level (value : Precedence) : unname before value = value := rfl

@[simp] theorem unname_name (value : UnqualifiedIdentifier) : unname before value = value := rfl

@[simp] theorem unname_scopedName (value : ScopedIdentifier) : unname before value = value := rfl

@[simp] theorem unname_identifier (value : Identifier) : unname before value = value := rfl

@[simp] theorem unname_identifierExpression (value : IdentifierExpression) :
    unname before value = value := rfl

end Plain

/-! ## Containers -/

section Containers

variable {α β : Type} [Unnamable α] [Unnamable β]

instance : Unnamable (Option α) := ⟨fun before => Option.map (unname before)⟩

instance : Unnamable (List α) := ⟨fun before => List.map (unname before)⟩

instance : Unnamable (α × β) :=
  ⟨fun before pair => (unname before pair.1, unname before pair.2)⟩

variable (before : TokenId → Bool)

@[simp] theorem unname_absent : unname before (none : Option α) = none := rfl

@[simp] theorem unname_present (value : α) :
    unname before (some value) = some (unname before value) := rfl

@[simp] theorem unname_nil : unname before ([] : List α) = [] := rfl

@[simp] theorem unname_cons (first : α) (rest : List α) :
    unname before (first :: rest) = unname before first :: unname before rest := rfl

@[simp] theorem unname_reverse (list : List α) :
    unname before list.reverse = (unname before list).reverse :=
  List.map_reverse

@[simp] theorem unname_pair (first : α) (second : β) :
    unname before (first, second) = (unname before first, unname before second) := rfl

@[simp] theorem unname_tokens (list : List TokenId) : unname before list = list :=
  List.map_id list

@[simp] theorem unname_optionalToken (value : Option TokenId) : unname before value = value :=
  Option.map_id_apply

@[simp] theorem unname_optionalLocation (value : Option Location) :
    unname before value = value :=
  Option.map_id_apply

@[simp] theorem unname_scopedNames (list : List ScopedIdentifier) : unname before list = list :=
  List.map_id list

end Containers

/-! ## Trees -/

namespace Unnaming

variable (before : TokenId → Bool)

mutual

def declaration : Declaration → Declaration
  | ⟨identifier, type, pointer, initializer, first, last, equal⟩ =>
      ⟨identifier, declarationType type, pointer, initial initializer, first, last, equal⟩

def initial : Option Statement → Option Statement
  | none => none
  | some value => some (statement value)

def declarationType : DeclarationType → DeclarationType
  | .function signature => .function (functionSignature signature)
  | .object type => .object type

def functionSignature : FunctionSignature → FunctionSignature
  | ⟨parameters, throws, returns⟩ => ⟨parameterList parameters, throws, results returns⟩

def results : Returns → Returns
  | .nothing => .nothing
  | .value type => .value type
  | .named results => .named (parameterList results)

def parameterList : ParameterList → ParameterList
  | ⟨list, opening, closing⟩ => ⟨parameters list, opening, closing⟩

def parameters : List Parameter → List Parameter
  | [] => []
  | first :: rest => parameter first :: parameters rest

def parameter : Parameter → Parameter
  | ⟨modifier, declared, location⟩ => ⟨modifier, declaration declared, location⟩

def statement : Statement → Statement
  | .declaration declared => .declaration (declaration declared)
  | .compound block => .compound (compound block)
  | .expression value semicolon => .expression (expression value) semicolon
  | .iteration kind keyword condition body =>
      .iteration kind keyword (expression condition) (compound body)
  | .result keyword value => .result keyword (resulting value)
  | .selection keyword constant condition positive negative =>
      .selection keyword constant (expression condition) (compound positive)
        (otherwise negative)

def resulting : Option Expression → Option Expression
  | none => none
  | some value => some (expression value)

def otherwise : Option Compound → Option Compound
  | none => none
  | some negative => some (compound negative)

def compound : Compound → Compound
  | ⟨list, opening, closing⟩ => ⟨statements list, opening, closing⟩

def statements : List Statement → List Statement
  | [] => []
  | first :: rest => statement first :: statements rest

def expression : Expression → Expression
  | .basic signs first terms => .basic signs (primary first) (postfixTerms terms)
  | .chain level first terms => .chain level (expression first) (chainTerms terms)

def chainTerms : List ChainTerm → List ChainTerm
  | [] => []
  | first :: rest => chainTerm first :: chainTerms rest

def chainTerm : ChainTerm → ChainTerm
  | ⟨operator, operand⟩ => ⟨operator, expression operand⟩

def primary : Primary → Primary
  | .token place => .token place
  | .list list => .list (expressionList list)
  | .identifier ⟨.unqualified ⟨none, name⟩, location⟩ =>
      if before (name + 1) then .token name
      else .identifier ⟨.unqualified ⟨none, name⟩, location⟩
  | .identifier named => .identifier named
  | .function declared => .function (declaration declared)

def postfixTerms : List PostfixTerm → List PostfixTerm
  | [] => []
  | first :: rest => postfixTerm first :: postfixTerms rest

def postfixTerm : PostfixTerm → PostfixTerm
  | .operator operator => .operator operator
  | .member dot named => .member dot named
  | .arguments opening list closing => .arguments opening (expressionList list) closing

def expressionList : ExpressionList → ExpressionList
  | ⟨terms, opening, closing⟩ => ⟨arguments terms, opening, closing⟩

def arguments : List Argument → List Argument
  | [] => []
  | first :: rest => argument first :: arguments rest

def argument : Argument → Argument
  | ⟨modifier, value⟩ => ⟨modifier, expression value⟩

end

end Unnaming

instance : Unnamable Declaration := ⟨Unnaming.declaration⟩

instance : Unnamable DeclarationType := ⟨Unnaming.declarationType⟩

instance : Unnamable FunctionSignature := ⟨Unnaming.functionSignature⟩

instance : Unnamable Returns := ⟨Unnaming.results⟩

instance : Unnamable ParameterList := ⟨Unnaming.parameterList⟩

instance : Unnamable Parameter := ⟨Unnaming.parameter⟩

instance : Unnamable Statement := ⟨Unnaming.statement⟩

instance : Unnamable Compound := ⟨Unnaming.compound⟩

instance : Unnamable Expression := ⟨Unnaming.expression⟩

instance : Unnamable ChainTerm := ⟨Unnaming.chainTerm⟩

instance : Unnamable Primary := ⟨Unnaming.primary⟩

instance : Unnamable PostfixTerm := ⟨Unnaming.postfixTerm⟩

instance : Unnamable ExpressionList := ⟨Unnaming.expressionList⟩

instance : Unnamable Argument := ⟨Unnaming.argument⟩

/-! ## Parts of trees

One equation for each way to make a tree, so that nothing else opens the definitions. -/

section Parts

variable (before : TokenId → Bool)

namespace Unnaming

theorem initial_eq (value : Option Statement) : initial before value = unname before value := by
  cases value <;> rfl

theorem resulting_eq (value : Option Expression) :
    resulting before value = unname before value := by
  cases value <;> rfl

theorem otherwise_eq (value : Option Compound) :
    otherwise before value = unname before value := by
  cases value <;> rfl

theorem parameters_eq (list : List Parameter) : parameters before list = unname before list := by
  induction list with
  | nil => rfl
  | cons first rest induction => exact congrArg (parameter before first :: ·) induction

theorem statements_eq (list : List Statement) : statements before list = unname before list := by
  induction list with
  | nil => rfl
  | cons first rest induction => exact congrArg (statement before first :: ·) induction

theorem chainTerms_eq (list : List ChainTerm) : chainTerms before list = unname before list := by
  induction list with
  | nil => rfl
  | cons first rest induction => exact congrArg (chainTerm before first :: ·) induction

theorem postfixTerms_eq (list : List PostfixTerm) :
    postfixTerms before list = unname before list := by
  induction list with
  | nil => rfl
  | cons first rest induction => exact congrArg (postfixTerm before first :: ·) induction

theorem arguments_eq (list : List Argument) : arguments before list = unname before list := by
  induction list with
  | nil => rfl
  | cons first rest induction => exact congrArg (argument before first :: ·) induction

end Unnaming

@[simp] theorem unname_declaration (identifier : Option UnqualifiedIdentifier)
    (type : DeclarationType) (pointer : Option TokenId) (value : Option Statement)
    (first last : Location) (equal : Option Location) :
    unname before (⟨identifier, type, pointer, value, first, last, equal⟩ : Declaration) =
      ⟨identifier, unname before type, pointer, unname before value, first, last, equal⟩ := by
  rw [← Unnaming.initial_eq]
  rfl

@[simp] theorem unname_functionType (signature : FunctionSignature) :
    unname before (DeclarationType.function signature) = .function (unname before signature) :=
  rfl

@[simp] theorem unname_objectType (type : IdentifierExpression) :
    unname before (DeclarationType.object type) = .object type := rfl

@[simp] theorem unname_signature (parameters : ParameterList) (throws : Bool)
    (returns : Returns) :
    unname before (⟨parameters, throws, returns⟩ : FunctionSignature) =
      ⟨unname before parameters, throws, unname before returns⟩ := rfl

@[simp] theorem unname_noResult : unname before Returns.nothing = .nothing := rfl

@[simp] theorem unname_valueResult (type : IdentifierExpression) :
    unname before (Returns.value type) = .value type := rfl

@[simp] theorem unname_namedResults (results : ParameterList) :
    unname before (Returns.named results) = .named (unname before results) := rfl

@[simp] theorem unname_parameterList (parameters : List Parameter)
    (opening closing : Location) :
    unname before (⟨parameters, opening, closing⟩ : ParameterList) =
      ⟨unname before parameters, opening, closing⟩ := by
  rw [← Unnaming.parameters_eq]
  rfl

@[simp] theorem unname_parameter (modifier : ParameterModifier) (declaration : Declaration)
    (location : Location) :
    unname before (⟨modifier, declaration, location⟩ : Parameter) =
      ⟨modifier, unname before declaration, location⟩ := rfl

@[simp] theorem unname_declarationStatement (declaration : Declaration) :
    unname before (Statement.declaration declaration) =
      .declaration (unname before declaration) := rfl

@[simp] theorem unname_compoundStatement (block : Compound) :
    unname before (Statement.compound block) = .compound (unname before block) := rfl

@[simp] theorem unname_expressionStatement (value : Expression) (semicolon : Bool) :
    unname before (Statement.expression value semicolon) =
      .expression (unname before value) semicolon := rfl

@[simp] theorem unname_iteration (kind : IterationKind) (keyword : TokenId)
    (condition : Expression) (body : Compound) :
    unname before (Statement.iteration kind keyword condition body) =
      .iteration kind keyword (unname before condition) (unname before body) := rfl

@[simp] theorem unname_result (keyword : TokenId) (value : Option Expression) :
    unname before (Statement.result keyword value) =
      .result keyword (unname before value) := by
  rw [← Unnaming.resulting_eq]
  rfl

@[simp] theorem unname_selection (keyword : TokenId) (constant : Option TokenId)
    (condition : Expression) (positive : Compound) (negative : Option Compound) :
    unname before (Statement.selection keyword constant condition positive negative) =
      .selection keyword constant (unname before condition) (unname before positive)
        (unname before negative) := by
  rw [← Unnaming.otherwise_eq]
  rfl

@[simp] theorem unname_compound (statements : List Statement) (opening closing : Location) :
    unname before (⟨statements, opening, closing⟩ : Compound) =
      ⟨unname before statements, opening, closing⟩ := by
  rw [← Unnaming.statements_eq]
  rfl

@[simp] theorem unname_basic (signs : List TokenId) (primary : Primary)
    (terms : List PostfixTerm) :
    unname before (Expression.basic signs primary terms) =
      .basic signs (unname before primary) (unname before terms) := by
  rw [← Unnaming.postfixTerms_eq]
  rfl

@[simp] theorem unname_chain (level : Precedence) (first : Expression)
    (terms : List ChainTerm) :
    unname before (Expression.chain level first terms) =
      .chain level (unname before first) (unname before terms) := by
  rw [← Unnaming.chainTerms_eq]
  rfl

@[simp] theorem unname_chainTerm (operator : TokenId) (operand : Expression) :
    unname before (⟨operator, operand⟩ : ChainTerm) =
      ⟨operator, unname before operand⟩ := rfl

@[simp] theorem unname_tokenPrimary (place : TokenId) :
    unname before (Primary.token place) = .token place := rfl

@[simp] theorem unname_listPrimary (list : ExpressionList) :
    unname before (Primary.list list) = .list (unname before list) := rfl

/-- The one place where a tree changes. -/
theorem unname_singleName (name : TokenId) (location : Location) :
    unname before (Primary.identifier ⟨.unqualified ⟨none, name⟩, location⟩) =
      if before (name + 1) then .token name
      else .identifier ⟨.unqualified ⟨none, name⟩, location⟩ := rfl

theorem unname_identifierPrimary (named : IdentifierExpression)
    (apart : ∀ name, named.identifier = .unqualified ⟨none, name⟩ → before (name + 1) = false) :
    unname before (Primary.identifier named) = .identifier named := by
  obtain ⟨_ | _, location⟩ := named
  · rename_i name
    obtain ⟨_ | _, name⟩ := name
    · rw [unname_singleName, apart name rfl]
      rfl
    · rfl
  · rfl

@[simp] theorem unname_functionPrimary (declaration : Declaration) :
    unname before (Primary.function declaration) = .function (unname before declaration) := rfl

@[simp] theorem unname_operatorTerm (operator : TokenId) :
    unname before (PostfixTerm.operator operator) = .operator operator := rfl

@[simp] theorem unname_memberTerm (dot : TokenId) (named : IdentifierExpression) :
    unname before (PostfixTerm.member dot named) = .member dot named := rfl

@[simp] theorem unname_argumentsTerm (opening : TokenId) (list : ExpressionList)
    (closing : TokenId) :
    unname before (PostfixTerm.arguments opening list closing) =
      .arguments opening (unname before list) closing := rfl

@[simp] theorem unname_expressionList (terms : List Argument)
    (opening closing : Location) :
    unname before (⟨terms, opening, closing⟩ : ExpressionList) =
      ⟨unname before terms, opening, closing⟩ := by
  rw [← Unnaming.arguments_eq]
  rfl

@[simp] theorem unname_argument (modifier : ParameterModifier) (value : Expression) :
    unname before (⟨modifier, value⟩ : Argument) = ⟨modifier, unname before value⟩ := rfl

end Parts

end CppsFrontend
