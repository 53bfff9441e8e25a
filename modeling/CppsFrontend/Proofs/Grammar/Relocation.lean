import CppsFrontend.Grammar.Statement

/-!
# Relocated trees

A relocation renames the tokens that a tree names and the locations that it keeps, and
leaves its shape alone.  `relocate` does so for every kind of tree, for reports, and for
what productions derive from them.
-/

set_option autoImplicit false

namespace CppsFrontend

/-- How tokens and locations are renamed. -/
structure Relocation where
  token : TokenId → TokenId
  location : Location → Location

namespace Relocation

/-- Everything keeps its name. -/
def none : Relocation := ⟨id, id⟩

/-- Tokens are counted from an earlier place on. -/
def shift (count : Nat) : Relocation := ⟨(· + count), id⟩

/-- Tokens keep their names, and locations are forgotten. -/
def unplaced : Relocation := ⟨id, fun _ => .unknown⟩

end Relocation

/-- What holds names of tokens and locations. -/
class Relocatable (α : Type) where
  relocate : Relocation → α → α

export Relocatable (relocate)

section Containers

variable {α β : Type} [Relocatable α] [Relocatable β]

instance : Relocatable TokenId := ⟨fun move => move.token⟩

instance : Relocatable Location := ⟨fun move => move.location⟩

instance : Relocatable Bool := ⟨fun _ value => value⟩

instance : Relocatable Unit := ⟨fun _ value => value⟩

instance : Relocatable ParameterModifier := ⟨fun _ value => value⟩

instance : Relocatable Precedence := ⟨fun _ value => value⟩

instance : Relocatable (Option α) := ⟨fun move => Option.map (relocate move)⟩

instance : Relocatable (List α) := ⟨fun move => List.map (relocate move)⟩

instance : Relocatable (α × β) := ⟨fun move pair => (relocate move pair.1, relocate move pair.2)⟩

instance : Relocatable Entry :=
  ⟨fun move entry => { entry with location := relocate move entry.location }⟩

variable (move : Relocation)

@[simp] theorem relocate_token (place : TokenId) : relocate move place = move.token place := rfl

@[simp] theorem relocate_location (location : Location) :
    relocate move location = move.location location := rfl

@[simp] theorem relocate_bool (value : Bool) : relocate move value = value := rfl

@[simp] theorem relocate_unit (value : Unit) : relocate move value = value := rfl

@[simp] theorem relocate_modifier (modifier : ParameterModifier) :
    relocate move modifier = modifier := rfl

@[simp] theorem relocate_level (level : Precedence) : relocate move level = level := rfl

@[simp] theorem relocate_absent : relocate move (none : Option α) = none := rfl

@[simp] theorem relocate_present (value : α) :
    relocate move (some value) = some (relocate move value) := rfl

@[simp] theorem relocate_nil : relocate move ([] : List α) = [] := rfl

@[simp] theorem relocate_cons (first : α) (rest : List α) :
    relocate move (first :: rest) = relocate move first :: relocate move rest := rfl

@[simp] theorem relocate_pair (first : α) (second : β) :
    relocate move (first, second) = (relocate move first, relocate move second) := rfl

@[simp] theorem relocate_entry (error : GrammarError) (location : Location) :
    relocate move (error.entry location) = error.entry (move.location location) := rfl

end Containers

/-! ## Names -/

instance : Relocatable UnqualifiedIdentifier :=
  ⟨fun move name => ⟨relocate move name.constant, relocate move name.identifier⟩⟩

instance : Relocatable ScopedIdentifier :=
  ⟨fun move name => ⟨relocate move name.scope, relocate move name.identifier⟩⟩

instance : Relocatable Identifier where
  relocate move
    | .unqualified name => .unqualified (relocate move name)
    | .qualified first more => .qualified (relocate move first) (relocate move more)

instance : Relocatable IdentifierExpression :=
  ⟨fun move name => ⟨relocate move name.identifier, relocate move name.location⟩⟩

/-! ## Trees -/

namespace Relocation

variable (move : Relocation)

mutual

def declaration : Declaration → Declaration
  | ⟨identifier, type, pointer, initializer, first, last, equal⟩ =>
      ⟨relocate move identifier, declarationType type, relocate move pointer,
        initial initializer, relocate move first, relocate move last, relocate move equal⟩

def initial : Option Statement → Option Statement
  | .none => .none
  | some value => some (statement value)

def declarationType : DeclarationType → DeclarationType
  | .function signature => .function (functionSignature signature)
  | .object type => .object (relocate move type)

def functionSignature : FunctionSignature → FunctionSignature
  | ⟨parameters, throws, returns⟩ => ⟨parameterList parameters, throws, results returns⟩

def results : Returns → Returns
  | .nothing => .nothing
  | .value type => .value (relocate move type)
  | .named results => .named (parameterList results)

def parameterList : ParameterList → ParameterList
  | ⟨list, opening, closing⟩ =>
      ⟨parameters list, relocate move opening, relocate move closing⟩

def parameters : List Parameter → List Parameter
  | [] => []
  | first :: rest => parameter first :: parameters rest

def parameter : Parameter → Parameter
  | ⟨modifier, declared, location⟩ => ⟨modifier, declaration declared, relocate move location⟩

def statement : Statement → Statement
  | .declaration declared => .declaration (declaration declared)
  | .compound block => .compound (compound block)
  | .expression value semicolon => .expression (expression value) semicolon
  | .iteration kind keyword condition body =>
      .iteration kind (relocate move keyword) (expression condition) (compound body)
  | .result keyword value => .result (relocate move keyword) (resulting value)
  | .selection keyword constant condition positive negative =>
      .selection (relocate move keyword) (relocate move constant) (expression condition)
        (compound positive) (otherwise negative)

def resulting : Option Expression → Option Expression
  | .none => .none
  | some value => some (expression value)

def otherwise : Option Compound → Option Compound
  | .none => .none
  | some negative => some (compound negative)

def compound : Compound → Compound
  | ⟨list, opening, closing⟩ =>
      ⟨statements list, relocate move opening, relocate move closing⟩

def statements : List Statement → List Statement
  | [] => []
  | first :: rest => statement first :: statements rest

def expression : Expression → Expression
  | .basic signs first terms => .basic (relocate move signs) (primary first) (postfixTerms terms)
  | .chain level first terms => .chain level (expression first) (chainTerms terms)

def chainTerms : List ChainTerm → List ChainTerm
  | [] => []
  | first :: rest => chainTerm first :: chainTerms rest

def chainTerm : ChainTerm → ChainTerm
  | ⟨operator, operand⟩ => ⟨relocate move operator, expression operand⟩

def primary : Primary → Primary
  | .token place => .token (relocate move place)
  | .list list => .list (expressionList list)
  | .identifier named => .identifier (relocate move named)
  | .function declared => .function (declaration declared)

def postfixTerms : List PostfixTerm → List PostfixTerm
  | [] => []
  | first :: rest => postfixTerm first :: postfixTerms rest

def postfixTerm : PostfixTerm → PostfixTerm
  | .operator operator => .operator (relocate move operator)
  | .member dot named => .member (relocate move dot) (relocate move named)
  | .arguments opening list closing =>
      .arguments (relocate move opening) (expressionList list) (relocate move closing)

def expressionList : ExpressionList → ExpressionList
  | ⟨terms, opening, closing⟩ =>
      ⟨arguments terms, relocate move opening, relocate move closing⟩

def arguments : List Argument → List Argument
  | [] => []
  | first :: rest => argument first :: arguments rest

def argument : Argument → Argument
  | ⟨modifier, value⟩ => ⟨modifier, expression value⟩

end

end Relocation

instance : Relocatable Declaration := ⟨Relocation.declaration⟩

instance : Relocatable DeclarationType := ⟨Relocation.declarationType⟩

instance : Relocatable FunctionSignature := ⟨Relocation.functionSignature⟩

instance : Relocatable Returns := ⟨Relocation.results⟩

instance : Relocatable ParameterList := ⟨Relocation.parameterList⟩

instance : Relocatable Parameter := ⟨Relocation.parameter⟩

instance : Relocatable Statement := ⟨Relocation.statement⟩

instance : Relocatable Compound := ⟨Relocation.compound⟩

instance : Relocatable Expression := ⟨Relocation.expression⟩

instance : Relocatable ChainTerm := ⟨Relocation.chainTerm⟩

instance : Relocatable Primary := ⟨Relocation.primary⟩

instance : Relocatable PostfixTerm := ⟨Relocation.postfixTerm⟩

instance : Relocatable ExpressionList := ⟨Relocation.expressionList⟩

instance : Relocatable Argument := ⟨Relocation.argument⟩

/-! ## Parts of trees

One equation for each way to make a tree, so that nothing else opens the definitions. -/

section Parts

variable (move : Relocation)

namespace Relocation

theorem initial_eq (value : Option Statement) : move.initial value = relocate move value := by
  cases value <;> rfl

theorem resulting_eq (value : Option Expression) :
    move.resulting value = relocate move value := by
  cases value <;> rfl

theorem otherwise_eq (value : Option Compound) :
    move.otherwise value = relocate move value := by
  cases value <;> rfl

theorem parameters_eq (list : List Parameter) : move.parameters list = relocate move list := by
  induction list with
  | nil => rfl
  | cons first rest induction => exact congrArg (move.parameter first :: ·) induction

theorem statements_eq (list : List Statement) : move.statements list = relocate move list := by
  induction list with
  | nil => rfl
  | cons first rest induction => exact congrArg (move.statement first :: ·) induction

theorem chainTerms_eq (list : List ChainTerm) : move.chainTerms list = relocate move list := by
  induction list with
  | nil => rfl
  | cons first rest induction => exact congrArg (move.chainTerm first :: ·) induction

theorem postfixTerms_eq (list : List PostfixTerm) :
    move.postfixTerms list = relocate move list := by
  induction list with
  | nil => rfl
  | cons first rest induction => exact congrArg (move.postfixTerm first :: ·) induction

theorem arguments_eq (list : List Argument) : move.arguments list = relocate move list := by
  induction list with
  | nil => rfl
  | cons first rest induction => exact congrArg (move.argument first :: ·) induction

end Relocation

@[simp] theorem relocate_name (constant : Option TokenId) (identifier : TokenId) :
    relocate move (⟨constant, identifier⟩ : UnqualifiedIdentifier) =
      ⟨relocate move constant, move.token identifier⟩ := rfl

@[simp] theorem relocate_scopedName (scope : TokenId) (identifier : UnqualifiedIdentifier) :
    relocate move (⟨scope, identifier⟩ : ScopedIdentifier) =
      ⟨move.token scope, relocate move identifier⟩ := rfl

@[simp] theorem relocate_unqualified (name : UnqualifiedIdentifier) :
    relocate move (Identifier.unqualified name) = .unqualified (relocate move name) := rfl

@[simp] theorem relocate_qualified (first : UnqualifiedIdentifier)
    (more : List ScopedIdentifier) :
    relocate move (Identifier.qualified first more) =
      .qualified (relocate move first) (relocate move more) := rfl

@[simp] theorem relocate_identifierExpression (identifier : Identifier)
    (location : Location) :
    relocate move (⟨identifier, location⟩ : IdentifierExpression) =
      ⟨relocate move identifier, move.location location⟩ := rfl

@[simp] theorem relocate_declaration (identifier : Option UnqualifiedIdentifier)
    (type : DeclarationType) (pointer : Option TokenId) (value : Option Statement)
    (first last : Location) (equal : Option Location) :
    relocate move (⟨identifier, type, pointer, value, first, last, equal⟩ : Declaration) =
      ⟨relocate move identifier, relocate move type, relocate move pointer,
        relocate move value, move.location first, move.location last,
        relocate move equal⟩ := by
  rw [← Relocation.initial_eq]
  rfl

@[simp] theorem relocate_functionType (signature : FunctionSignature) :
    relocate move (DeclarationType.function signature) = .function (relocate move signature) :=
  rfl

@[simp] theorem relocate_objectType (type : IdentifierExpression) :
    relocate move (DeclarationType.object type) = .object (relocate move type) := rfl

@[simp] theorem relocate_signature (parameters : ParameterList) (throws : Bool)
    (returns : Returns) :
    relocate move (⟨parameters, throws, returns⟩ : FunctionSignature) =
      ⟨relocate move parameters, throws, relocate move returns⟩ := rfl

@[simp] theorem relocate_noResult : relocate move Returns.nothing = .nothing := rfl

@[simp] theorem relocate_valueResult (type : IdentifierExpression) :
    relocate move (Returns.value type) = .value (relocate move type) := rfl

@[simp] theorem relocate_namedResults (results : ParameterList) :
    relocate move (Returns.named results) = .named (relocate move results) := rfl

@[simp] theorem relocate_parameterList (parameters : List Parameter)
    (opening closing : Location) :
    relocate move (⟨parameters, opening, closing⟩ : ParameterList) =
      ⟨relocate move parameters, move.location opening, move.location closing⟩ := by
  rw [← Relocation.parameters_eq]
  rfl

@[simp] theorem relocate_parameter (modifier : ParameterModifier) (declaration : Declaration)
    (location : Location) :
    relocate move (⟨modifier, declaration, location⟩ : Parameter) =
      ⟨modifier, relocate move declaration, move.location location⟩ := rfl

@[simp] theorem relocate_declarationStatement (declaration : Declaration) :
    relocate move (Statement.declaration declaration) =
      .declaration (relocate move declaration) := rfl

@[simp] theorem relocate_compoundStatement (block : Compound) :
    relocate move (Statement.compound block) = .compound (relocate move block) := rfl

@[simp] theorem relocate_expressionStatement (value : Expression) (semicolon : Bool) :
    relocate move (Statement.expression value semicolon) =
      .expression (relocate move value) semicolon := rfl

@[simp] theorem relocate_iteration (kind : IterationKind) (keyword : TokenId)
    (condition : Expression) (body : Compound) :
    relocate move (Statement.iteration kind keyword condition body) =
      .iteration kind (move.token keyword) (relocate move condition) (relocate move body) := rfl

@[simp] theorem relocate_result (keyword : TokenId) (value : Option Expression) :
    relocate move (Statement.result keyword value) =
      .result (move.token keyword) (relocate move value) := by
  rw [← Relocation.resulting_eq]
  rfl

@[simp] theorem relocate_selection (keyword : TokenId) (constant : Option TokenId)
    (condition : Expression) (positive : Compound) (negative : Option Compound) :
    relocate move (Statement.selection keyword constant condition positive negative) =
      .selection (move.token keyword) (relocate move constant) (relocate move condition)
        (relocate move positive) (relocate move negative) := by
  rw [← Relocation.otherwise_eq]
  rfl

@[simp] theorem relocate_compound (statements : List Statement)
    (opening closing : Location) :
    relocate move (⟨statements, opening, closing⟩ : Compound) =
      ⟨relocate move statements, move.location opening, move.location closing⟩ := by
  rw [← Relocation.statements_eq]
  rfl

@[simp] theorem relocate_basic (signs : List TokenId) (primary : Primary)
    (terms : List PostfixTerm) :
    relocate move (Expression.basic signs primary terms) =
      .basic (relocate move signs) (relocate move primary) (relocate move terms) := by
  rw [← Relocation.postfixTerms_eq]
  rfl

@[simp] theorem relocate_chain (level : Precedence) (first : Expression)
    (terms : List ChainTerm) :
    relocate move (Expression.chain level first terms) =
      .chain level (relocate move first) (relocate move terms) := by
  rw [← Relocation.chainTerms_eq]
  rfl

@[simp] theorem relocate_chainTerm (operator : TokenId) (operand : Expression) :
    relocate move (⟨operator, operand⟩ : ChainTerm) =
      ⟨move.token operator, relocate move operand⟩ := rfl

@[simp] theorem relocate_tokenPrimary (place : TokenId) :
    relocate move (Primary.token place) = .token (move.token place) := rfl

@[simp] theorem relocate_listPrimary (list : ExpressionList) :
    relocate move (Primary.list list) = .list (relocate move list) := rfl

@[simp] theorem relocate_identifierPrimary (named : IdentifierExpression) :
    relocate move (Primary.identifier named) = .identifier (relocate move named) := rfl

@[simp] theorem relocate_functionPrimary (declaration : Declaration) :
    relocate move (Primary.function declaration) = .function (relocate move declaration) := rfl

@[simp] theorem relocate_operatorTerm (operator : TokenId) :
    relocate move (PostfixTerm.operator operator) = .operator (move.token operator) := rfl

@[simp] theorem relocate_memberTerm (dot : TokenId) (named : IdentifierExpression) :
    relocate move (PostfixTerm.member dot named) =
      .member (move.token dot) (relocate move named) := rfl

@[simp] theorem relocate_argumentsTerm (opening : TokenId) (list : ExpressionList)
    (closing : TokenId) :
    relocate move (PostfixTerm.arguments opening list closing) =
      .arguments (move.token opening) (relocate move list) (move.token closing) := rfl

@[simp] theorem relocate_expressionList (terms : List Argument)
    (opening closing : Location) :
    relocate move (⟨terms, opening, closing⟩ : ExpressionList) =
      ⟨relocate move terms, move.location opening, move.location closing⟩ := by
  rw [← Relocation.arguments_eq]
  rfl

@[simp] theorem relocate_argument (modifier : ParameterModifier) (value : Expression) :
    relocate move (⟨modifier, value⟩ : Argument) = ⟨modifier, relocate move value⟩ := rfl

end Parts

/-! ## Nothing renamed -/

@[simp] theorem Relocation.none_token (place : TokenId) :
    Relocation.none.token place = place := rfl

@[simp] theorem Relocation.none_location (location : Location) :
    Relocation.none.location location = location := rfl

theorem relocate_none_list {α : Type} [Relocatable α]
    (same : ∀ value : α, relocate .none value = value) (list : List α) :
    relocate .none list = list := by
  induction list with
  | nil => rfl
  | cons first rest induction => rw [relocate_cons, same, induction]

theorem relocate_none_option {α : Type} [Relocatable α]
    (same : ∀ value : α, relocate .none value = value) (option : Option α) :
    relocate .none option = option := by
  cases option with
  | none => rfl
  | some value => rw [relocate_present, same]

@[simp] theorem relocate_none_tokens (places : List TokenId) :
    relocate .none places = places := relocate_none_list (fun _ => rfl) places

@[simp] theorem relocate_none_optionalToken (place : Option TokenId) :
    relocate .none place = place := relocate_none_option (fun _ => rfl) place

@[simp] theorem relocate_none_optionalLocation (location : Option Location) :
    relocate .none location = location := relocate_none_option (fun _ => rfl) location

@[simp] theorem relocate_none_name (name : UnqualifiedIdentifier) :
    relocate .none name = name := by
  cases name
  simp

@[simp] theorem relocate_none_identifierExpression (named : IdentifierExpression) :
    relocate .none named = named := by
  obtain ⟨identifier, location⟩ := named
  cases identifier with
  | unqualified name => simp
  | qualified first more =>
      have same : relocate .none more = more := by
        apply relocate_none_list
        intro name
        cases name
        simp
      simp [same]

mutual

theorem relocate_none_declaration : ∀ tree : Declaration, relocate .none tree = tree
  | ⟨identifier, type, pointer, value, first, last, equal⟩ => by
      have named := relocate_none_option relocate_none_name identifier
      have typed := relocate_none_type type
      have valued := relocate_none_initial value
      simp [named, typed, valued]

theorem relocate_none_initial : ∀ value : Option Statement, relocate .none value = value
  | none => rfl
  | some value => by
      have same := relocate_none_statement value
      simp [same]

theorem relocate_none_type : ∀ tree : DeclarationType, relocate .none tree = tree
  | .function signature => by
      have same := relocate_none_signature signature
      simp [same]
  | .object type => by simp

theorem relocate_none_signature : ∀ tree : FunctionSignature, relocate .none tree = tree
  | ⟨parameters, throws, returns⟩ => by
      have listed := relocate_none_parameterList parameters
      have resulting := relocate_none_returns returns
      simp [listed, resulting]

theorem relocate_none_returns : ∀ tree : Returns, relocate .none tree = tree
  | .nothing => rfl
  | .value type => by simp
  | .named results => by
      have same := relocate_none_parameterList results
      simp [same]

theorem relocate_none_parameterList : ∀ tree : ParameterList, relocate .none tree = tree
  | ⟨parameters, opening, closing⟩ => by
      have same := relocate_none_parameters parameters
      simp [same]

theorem relocate_none_parameters : ∀ trees : List Parameter, relocate .none trees = trees
  | [] => rfl
  | ⟨modifier, declaration, location⟩ :: rest => by
      have first := relocate_none_declaration declaration
      have more := relocate_none_parameters rest
      simp [first, more]

theorem relocate_none_statement : ∀ tree : Statement, relocate .none tree = tree
  | .declaration declaration => by
      have same := relocate_none_declaration declaration
      simp [same]
  | .compound block => by
      have same := relocate_none_compound block
      simp [same]
  | .expression value semicolon => by
      have same := relocate_none_expression value
      simp [same]
  | .iteration kind keyword condition body => by
      have tested := relocate_none_expression condition
      have repeated := relocate_none_compound body
      simp [tested, repeated]
  | .result keyword value => by
      have same := relocate_none_resulting value
      simp [same]
  | .selection keyword constant condition positive negative => by
      have tested := relocate_none_expression condition
      have taken := relocate_none_compound positive
      have other := relocate_none_otherwise negative
      simp [tested, taken, other]

theorem relocate_none_resulting : ∀ value : Option Expression, relocate .none value = value
  | none => rfl
  | some value => by
      have same := relocate_none_expression value
      simp [same]

theorem relocate_none_otherwise : ∀ value : Option Compound, relocate .none value = value
  | none => rfl
  | some value => by
      have same := relocate_none_compound value
      simp [same]

theorem relocate_none_compound : ∀ tree : Compound, relocate .none tree = tree
  | ⟨statements, opening, closing⟩ => by
      have same := relocate_none_statements statements
      simp [same]

theorem relocate_none_statements : ∀ trees : List Statement, relocate .none trees = trees
  | [] => rfl
  | statement :: rest => by
      have first := relocate_none_statement statement
      have more := relocate_none_statements rest
      simp [first, more]

theorem relocate_none_expression : ∀ tree : Expression, relocate .none tree = tree
  | .basic signs primary terms => by
      have first := relocate_none_primary primary
      have more := relocate_none_postfixTerms terms
      simp [first, more]
  | .chain level first terms => by
      have begun := relocate_none_expression first
      have more := relocate_none_chainTerms terms
      simp [begun, more]

theorem relocate_none_chainTerms : ∀ trees : List ChainTerm, relocate .none trees = trees
  | [] => rfl
  | ⟨operator, operand⟩ :: rest => by
      have first := relocate_none_expression operand
      have more := relocate_none_chainTerms rest
      simp [first, more]

theorem relocate_none_primary : ∀ tree : Primary, relocate .none tree = tree
  | .token place => by simp
  | .list list => by
      have same := relocate_none_expressionList list
      simp [same]
  | .identifier named => by simp
  | .function declaration => by
      have same := relocate_none_declaration declaration
      simp [same]

theorem relocate_none_postfixTerms : ∀ trees : List PostfixTerm, relocate .none trees = trees
  | [] => rfl
  | .operator operator :: rest => by
      have more := relocate_none_postfixTerms rest
      simp [more]
  | .member dot named :: rest => by
      have more := relocate_none_postfixTerms rest
      simp [more]
  | .arguments opening list closing :: rest => by
      have first := relocate_none_expressionList list
      have more := relocate_none_postfixTerms rest
      simp [first, more]

theorem relocate_none_expressionList : ∀ tree : ExpressionList, relocate .none tree = tree
  | ⟨terms, opening, closing⟩ => by
      have same := relocate_none_arguments terms
      simp [same]

theorem relocate_none_arguments : ∀ trees : List Argument, relocate .none trees = trees
  | [] => rfl
  | ⟨modifier, value⟩ :: rest => by
      have first := relocate_none_expression value
      have more := relocate_none_arguments rest
      simp [first, more]

end

theorem relocate_none_declarations (trees : List Declaration) : relocate .none trees = trees :=
  relocate_none_list relocate_none_declaration trees

end CppsFrontend
