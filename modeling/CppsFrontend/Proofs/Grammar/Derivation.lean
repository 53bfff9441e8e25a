import CppsFrontend.Grammar.Statement

/-!
# Derivations

The grammar that the productions implement, as a relation between a phrase (a
tree, or a part of one, in the place where it stands) and the leaves that it is
written with.  A leaf is one token, and says how the token got into the tree: the
tree names it, or the rule fixes it, or it is one of the few that a tree does
not tell.

`Covers` says that leaves are, in this order, all the tokens between two
positions.
-/

set_option autoImplicit false

namespace CppsFrontend.Grammar

/-! ## Leaves -/

inductive Terminal where
  | exactly (lexeme : Lexeme)
  /-- A word, and no `<` behind it. -/
  | name
  /-- A literal or a word that is an expression by itself. -/
  | primary
  | sign
  /-- A binary operator of a level. -/
  | operator (allowRelational : Bool) (level : Precedence)
  /-- A postfix operator that stands by itself. -/
  | mark

def opensPostfix (lexeme : Lexeme) : Prop :=
  lexeme = .punctuator .openBracket ∨ lexeme = .punctuator .openParenthesis ∨
    lexeme = .punctuator .dot

def Terminal.Admits (stream : TokenStream) (place : TokenId) : Terminal → Prop
  | .exactly lexeme => (stream.get place).lexeme = lexeme
  | .name =>
      isNaming (stream.get place).lexeme = true ∧
        (stream.get (place + 1)).lexeme ≠ .punctuator .less
  | .primary => isPrimaryToken (stream.get place).lexeme = true
  | .sign =>
      (stream.get place).lexeme = .punctuator .logicalNot ∨
        (stream.get place).lexeme = .punctuator .plus ∨
        (stream.get place).lexeme = .punctuator .minus
  | .operator allowRelational level =>
      Precedence.ofOperator? (stream.get place).lexeme allowRelational = some level
  | .mark =>
      continuesPostfix (stream.before place) (stream.get place)
          (stream.get (place + 1)).lexeme = true ∧
        ¬ opensPostfix (stream.get place).lexeme

/-- The tokens that may be written or not without a trace in the tree. -/
inductive Choice where
  /-- The comma behind the last parameter of a list. -/
  | trailingComma
  /-- The semicolon of a declaration that need not end with one. -/
  | closingSemicolon
  /-- The modifier that is meant where none is written. -/
  | defaultModifier (role : ParameterRole)

def Choice.lexeme : Choice → Lexeme
  | .trailingComma => .punctuator .comma
  | .closingSemicolon => .punctuator .semicolon
  | .defaultModifier role => .parameterModifier role.defaultModifier

inductive Leaf where
  /-- The tree names the token. -/
  | stored (place : TokenId) (terminal : Terminal)
  /-- The rule asks for this punctuator or word. -/
  | fixed (place : TokenId) (lexeme : Lexeme)
  /-- The tree does not tell whether the token is there. -/
  | unrecorded (place : TokenId) (choice : Choice)

namespace Leaf

def place : Leaf → TokenId
  | .stored place _ => place
  | .fixed place _ => place
  | .unrecorded place _ => place

def terminal : Leaf → Terminal
  | .stored _ terminal => terminal
  | .fixed _ lexeme => .exactly lexeme
  | .unrecorded _ choice => .exactly choice.lexeme

/-- The leaf is a token of the stream, of the kind that its rule asks for. -/
def Fits (stream : TokenStream) (leaf : Leaf) : Prop :=
  leaf.place < stream.size ∧ leaf.terminal.Admits stream leaf.place

end Leaf

/-- Leaves are the tokens from `start` up to `stop`, each once and in order. -/
structure Covers (stream : TokenStream) (start stop : Nat) (leaves : List Leaf) : Prop where
  ordered : start ≤ stop
  places : leaves.map Leaf.place = List.range' start (stop - start)
  fits : ∀ leaf ∈ leaves, leaf.Fits stream

namespace Covers

variable {stream : TokenStream} {start middle stop : Nat} {leaves head tail : List Leaf}

theorem nil (stream : TokenStream) (start : Nat) : Covers stream start start [] :=
  ⟨Nat.le_refl start, by simp, by simp⟩

theorem single (leaf : Leaf) (fits : leaf.Fits stream) :
    Covers stream leaf.place (leaf.place + 1) [leaf] :=
  ⟨Nat.le_succ leaf.place, by simp, by simpa using fits⟩

theorem append (first : Covers stream start middle head)
    (second : Covers stream middle stop tail) : Covers stream start stop (head ++ tail) := by
  refine ⟨Nat.le_trans first.ordered second.ordered, ?_, ?_⟩
  · have joined : start + 1 * (middle - start) = middle := by
      have := first.ordered
      omega
    have total : stop - start = middle - start + (stop - middle) := by
      have := first.ordered
      have := second.ordered
      omega
    rw [List.map_append, first.places, second.places, total, ← List.range'_append, joined]
  · intro leaf member
    rcases List.mem_append.mp member with member | member
    · exact first.fits leaf member
    · exact second.fits leaf member

theorem cons (leaf : Leaf) (fits : leaf.Fits stream)
    (rest : Covers stream (leaf.place + 1) stop tail) :
    Covers stream leaf.place stop (leaf :: tail) :=
  (single leaf fits).append rest

theorem length_eq (covers : Covers stream start stop leaves) :
    leaves.length = stop - start := by
  have counted := congrArg List.length covers.places
  simpa using counted

theorem start_lt_stop (covers : Covers stream start stop leaves) (nonempty : leaves ≠ []) :
    start < stop := by
  have counted := covers.length_eq
  have positive := List.length_pos_iff.mpr nonempty
  omega

theorem stop_le_size (covers : Covers stream start stop leaves) (forward : start < stop) :
    stop ≤ stream.size := by
  have member : stop - 1 ∈ leaves.map Leaf.place := by
    rw [covers.places, List.mem_range'_1]
    omega
  obtain ⟨leaf, found, place⟩ := List.mem_map.mp member
  have inside : stop - 1 < stream.size := by
    rw [← place]
    exact (covers.fits leaf found).1
  omega

end Covers

def firstLocation (stream : TokenStream) (leaves : List Leaf) : Location :=
  (leaves.head?.map fun leaf => (stream.get leaf.place).location).getD .unknown

def lastLocation (stream : TokenStream) (leaves : List Leaf) : Location :=
  (leaves.getLast?.map fun leaf => (stream.get leaf.place).location).getD .unknown

theorem Covers.firstLocation_eq {stream : TokenStream} {start stop : Nat}
    {leaves : List Leaf} (covers : Covers stream start stop leaves)
    (forward : start < stop) : firstLocation stream leaves = (stream.get start).location := by
  cases leaves with
  | nil =>
      have counted := covers.length_eq
      simp only [List.length_nil] at counted
      omega
  | cons leaf rest =>
      have places := covers.places
      obtain ⟨count, same⟩ : ∃ count, stop - start = count + 1 := ⟨stop - start - 1, by omega⟩
      rw [same, List.range'_succ, List.map_cons] at places
      have begins : leaf.place = start := (List.cons.inj places).1
      simp [firstLocation, begins]

theorem Covers.lastLocation_eq {stream : TokenStream} {start stop : Nat}
    {leaves : List Leaf} (covers : Covers stream start stop leaves)
    (forward : start < stop) : lastLocation stream leaves = (stream.before stop).location := by
  obtain ⟨count, same⟩ : ∃ count, stop = start + count + 1 := ⟨stop - start - 1, by omega⟩
  have last : (leaves.map Leaf.place).getLast? = some (start + count) := by
    rw [covers.places, same, show start + count + 1 - start = count + 1 by omega,
      List.range'_1_concat]
    simp
  rw [List.getLast?_map, Option.map_eq_some_iff] at last
  obtain ⟨leaf, found, place⟩ := last
  simp [lastLocation, found, place, same, TokenStream.before]

/-! ## Rules -/

/-- A tree or a part of one, with what its rule depends on: whether it must end
with a semicolon, the `=` that it initializes, what its parameters are for, or
which operators it may hold. -/
inductive Phrase where
  | name (name : UnqualifiedIdentifier)
  | scoped (names : List ScopedIdentifier)
  | identifier (identifier : Identifier)
  | identifierExpression (expression : IdentifierExpression)
  | declaration (semicolon : Bool) (declaration : Declaration)
  /-- A declaration from its colon on. -/
  | unnamed (semicolon : Bool) (declaration : Declaration)
  | type (type : DeclarationType) (pointer : Option TokenId)
  | signature (signature : FunctionSignature)
  | returns (returns : Returns)
  | parameterList (role : ParameterRole) (list : ParameterList)
  | parameters (role : ParameterRole) (parameters : List Parameter)
  | parameter (role : ParameterRole) (parameter : Parameter)
  | statement (semicolon : Bool) (equal : Option Location) (statement : Statement)
  | statements (statements : List Statement)
  | compound (equal : Option Location) (block : Compound)
  /-- An expression whose operators are of some levels, loosest first. -/
  | operand (allowRelational : Bool) (levels : List Precedence) (expression : Expression)
  | chainTerms (allowRelational : Bool) (level : Precedence) (tighter : List Precedence)
      (terms : List ChainTerm)
  | primary (primary : Primary)
  | postfixTerms (terms : List PostfixTerm)
  | postfixTerm (term : PostfixTerm)
  | arguments (arguments : List Argument)
  | argument (argument : Argument)

def Phrase.expression (allowRelational : Bool) (expression : Expression) : Phrase :=
  .operand allowRelational Precedence.all expression

def optionalStored (place : Option TokenId) (lexeme : Lexeme) : List Leaf :=
  place.toList.map fun place => .stored place (.exactly lexeme)

def optionalFixed (present : Bool) (place : TokenId) (lexeme : Lexeme) : List Leaf :=
  if present then [.fixed place lexeme] else []

/-- The leaf of a semicolon behind a declaration: part of the rule where there must
be one. -/
def semicolonLeaf (semicolon : Bool) (place : TokenId) : Leaf :=
  if semicolon then .fixed place (.punctuator .semicolon)
  else .unrecorded place .closingSemicolon

def modifierLeaf (role : ParameterRole) (modifier : ParameterModifier) (place : TokenId) :
    Leaf :=
  if modifier = role.defaultModifier then .unrecorded place (.defaultModifier role)
  else .fixed place (.parameterModifier modifier)

/-- What a phrase may be written with. -/
inductive Derives (stream : TokenStream) : Phrase → List Leaf → Prop where
  -- Names
  | plainName (place : TokenId) :
      Derives stream (.name ⟨none, place⟩) [.stored place .name]
  | constantName (constant place : TokenId) :
      Derives stream (.name ⟨some constant, place⟩)
        [.stored constant (.exactly (.keyword .constWord)), .stored place .name]
  | scopedNone : Derives stream (.scoped []) []
  | scopedMore {scope : TokenId} {name : UnqualifiedIdentifier}
      {names : List ScopedIdentifier} {head tail : List Leaf}
      (first : Derives stream (.name name) head)
      (rest : Derives stream (.scoped names) tail) :
      Derives stream (.scoped (⟨scope, name⟩ :: names))
        (.stored scope (.exactly (.punctuator .doubleColon)) :: head ++ tail)
  | unqualified {name : UnqualifiedIdentifier} {leaves : List Leaf}
      (derived : Derives stream (.name name) leaves) :
      Derives stream (.identifier (.unqualified name)) leaves
  | qualified {name : UnqualifiedIdentifier} {names : List ScopedIdentifier}
      {head tail : List Leaf} (nonempty : names ≠ [])
      (first : Derives stream (.name name) head)
      (rest : Derives stream (.scoped names) tail) :
      Derives stream (.identifier (.qualified name names)) (head ++ tail)
  | identifierExpression {identifier : Identifier} {leaves : List Leaf}
      (derived : Derives stream (.identifier identifier) leaves) :
      Derives stream
        (.identifierExpression ⟨identifier, firstLocation stream leaves⟩) leaves
  -- Declarations
  | declaration {semicolon : Bool} {name : UnqualifiedIdentifier} {declaration : Declaration}
      {head tail : List Leaf} (named : Derives stream (.name name) head)
      (unnamed : Derives stream (.unnamed semicolon declaration) tail) :
      Derives stream
        (.declaration semicolon
          { declaration with identifier := some name, first := firstLocation stream head })
        (head ++ tail)
  | initialized (colon equal : TokenId) {semicolon : Bool} {type : DeclarationType}
      {pointer : Option TokenId} {value : Statement} {first : Location}
      {head tail : List Leaf}
      (typed : Derives stream (.type type pointer) head)
      (initial : Derives stream
        (.statement semicolon (some (stream.get equal).location) value) tail) :
      Derives stream
        (.unnamed semicolon ⟨none, type, pointer, some value, first,
          lastLocation stream tail, some (stream.get equal).location⟩)
        (.fixed colon (.punctuator .colon) :: head ++
          .fixed equal (.punctuator .assignment) :: tail)
  | closed (colon close : TokenId) {semicolon : Bool} {type : IdentifierExpression}
      {pointer : Option TokenId} {first : Location} {leaves : List Leaf}
      (typed : Derives stream (.type (.object type) pointer) leaves) :
      Derives stream
        (.unnamed semicolon
          ⟨none, .object type, pointer, none, first, (stream.get close).location, none⟩)
        (.fixed colon (.punctuator .colon) :: leaves ++ [semicolonLeaf semicolon close])
  | unclosed (colon : TokenId) {type : IdentifierExpression} {pointer : Option TokenId}
      {first : Location} {leaves : List Leaf}
      (typed : Derives stream (.type (.object type) pointer) leaves) :
      Derives stream
        (.unnamed false
          ⟨none, .object type, pointer, none, first, lastLocation stream leaves, none⟩)
        (.fixed colon (.punctuator .colon) :: leaves)
  | functionType {signature : FunctionSignature} {leaves : List Leaf}
      (derived : Derives stream (.signature signature) leaves) :
      Derives stream (.type (.function signature) none) leaves
  | objectType {type : IdentifierExpression} (pointer : Option TokenId) {leaves : List Leaf}
      (derived : Derives stream (.identifierExpression type) leaves) :
      Derives stream (.type (.object type) pointer)
        (optionalStored pointer (.punctuator .multiply) ++ leaves)
  | signature {parameters : ParameterList} {throws : Bool} {returns : Returns}
      (word : TokenId) {head tail : List Leaf}
      (listed : Derives stream (.parameterList .argument parameters) head)
      (resulting : Derives stream (.returns returns) tail) :
      Derives stream (.signature ⟨parameters, throws, returns⟩)
        (head ++ optionalFixed throws word (.keyword .throwsWord) ++ tail)
  | noResult : Derives stream (.returns .nothing) []
  | valueResult (arrow : TokenId) {type : IdentifierExpression} {leaves : List Leaf}
      (derived : Derives stream (.identifierExpression type) leaves) :
      Derives stream (.returns (.value type)) (.fixed arrow (.punctuator .arrow) :: leaves)
  | namedResults (arrow : TokenId) {results : ParameterList} {leaves : List Leaf}
      (derived : Derives stream (.parameterList .result results) leaves) :
      Derives stream (.returns (.named results))
        (.fixed arrow (.punctuator .arrow) :: leaves)
  | parameterList {role : ParameterRole} {parameters : List Parameter}
      (opening closing : TokenId) {leaves : List Leaf}
      (derived : Derives stream (.parameters role parameters) leaves) :
      Derives stream
        (.parameterList role
          ⟨parameters, (stream.get opening).location, (stream.get closing).location⟩)
        (.fixed opening (.punctuator .openParenthesis) :: leaves ++
          [.fixed closing (.punctuator .closeParenthesis)])
  | noParameters {role : ParameterRole} : Derives stream (.parameters role []) []
  | lastParameter {role : ParameterRole} {parameter : Parameter} {leaves : List Leaf}
      (derived : Derives stream (.parameter role parameter) leaves) :
      Derives stream (.parameters role [parameter]) leaves
  | trailingComma (comma : TokenId) {role : ParameterRole} {parameter : Parameter}
      {leaves : List Leaf} (derived : Derives stream (.parameter role parameter) leaves) :
      Derives stream (.parameters role [parameter])
        (leaves ++ [.unrecorded comma .trailingComma])
  | moreParameters (comma : TokenId) {role : ParameterRole} {parameter next : Parameter}
      {parameters : List Parameter} {head tail : List Leaf}
      (derived : Derives stream (.parameter role parameter) head)
      (rest : Derives stream (.parameters role (next :: parameters)) tail) :
      Derives stream (.parameters role (parameter :: next :: parameters))
        (head ++ .fixed comma (.punctuator .comma) :: tail)
  | plainParameter {role : ParameterRole} {declaration : Declaration} {leaves : List Leaf}
      (derived : Derives stream (.declaration false declaration) leaves) :
      Derives stream
        (.parameter role ⟨role.defaultModifier, declaration, firstLocation stream leaves⟩)
        leaves
  | modifiedParameter (word : TokenId) {role : ParameterRole} {modifier : ParameterModifier}
      {declaration : Declaration} {leaves : List Leaf}
      (allowed : role.allows modifier = true)
      (derived : Derives stream (.declaration false declaration) leaves) :
      Derives stream (.parameter role ⟨modifier, declaration, (stream.get word).location⟩)
        (modifierLeaf role modifier word :: leaves)
  -- Statements
  | declarationStatement {semicolon : Bool} {equal : Option Location}
      {declaration : Declaration} {leaves : List Leaf}
      (derived : Derives stream (.declaration semicolon declaration) leaves) :
      Derives stream (.statement semicolon equal (.declaration declaration)) leaves
  | compoundStatement {semicolon : Bool} {equal : Option Location} {block : Compound}
      {leaves : List Leaf} (derived : Derives stream (.compound equal block) leaves) :
      Derives stream (.statement semicolon equal (.compound block)) leaves
  | expressionStatement (close : TokenId) {semicolon closed : Bool}
      {equal : Option Location} {value : Expression} {leaves : List Leaf}
      (needed : semicolon = true → closed = true)
      (derived : Derives stream (.expression true value) leaves) :
      Derives stream (.statement semicolon equal (.expression value closed))
        (leaves ++ optionalFixed closed close (.punctuator .semicolon))
  | whileStatement (keyword : TokenId) {semicolon : Bool} {equal : Option Location}
      {condition : Expression} {body : Compound} {head tail : List Leaf}
      (tested : Derives stream (.expression true condition) head)
      (repeated : Derives stream (.compound none body) tail) :
      Derives stream
        (.statement semicolon equal (.iteration .testBefore keyword condition body))
        (.stored keyword (.exactly (.keyword .whileWord)) :: head ++ tail)
  | doStatement (keyword word close : TokenId) {semicolon : Bool} {equal : Option Location}
      {condition : Expression} {body : Compound} {head tail : List Leaf}
      (repeated : Derives stream (.compound none body) head)
      (tested : Derives stream (.expression true condition) tail) :
      Derives stream
        (.statement semicolon equal (.iteration .testAfter keyword condition body))
        (.stored keyword (.exactly (.keyword .doWord)) :: head ++
          .fixed word (.keyword .whileWord) :: tail ++
          [.fixed close (.punctuator .semicolon)])
  | emptyReturn (keyword close : TokenId) {semicolon : Bool} {equal : Option Location} :
      Derives stream (.statement semicolon equal (.result keyword none))
        [.stored keyword (.exactly (.keyword .returnWord)),
          .fixed close (.punctuator .semicolon)]
  | valueReturn (keyword close : TokenId) {semicolon : Bool} {equal : Option Location}
      {value : Expression} {leaves : List Leaf}
      (derived : Derives stream (.expression true value) leaves) :
      Derives stream (.statement semicolon equal (.result keyword (some value)))
        (.stored keyword (.exactly (.keyword .returnWord)) :: leaves ++
          [.fixed close (.punctuator .semicolon)])
  | selection (keyword : TokenId) (constant : Option TokenId) {semicolon : Bool}
      {equal : Option Location} {condition : Expression} {positive : Compound}
      {head tail : List Leaf} (tested : Derives stream (.expression true condition) head)
      (taken : Derives stream (.compound none positive) tail) :
      Derives stream
        (.statement semicolon equal (.selection keyword constant condition positive none))
        (.stored keyword (.exactly (.keyword .ifWord)) ::
          optionalStored constant (.keyword .constexprWord) ++ head ++ tail)
  | alternative (keyword word : TokenId) (constant : Option TokenId) {semicolon : Bool}
      {equal : Option Location} {condition : Expression} {positive negative : Compound}
      {head middle tail : List Leaf}
      (tested : Derives stream (.expression true condition) head)
      (taken : Derives stream (.compound none positive) middle)
      (otherwise : Derives stream (.compound none negative) tail) :
      Derives stream
        (.statement semicolon equal
          (.selection keyword constant condition positive (some negative)))
        (.stored keyword (.exactly (.keyword .ifWord)) ::
          optionalStored constant (.keyword .constexprWord) ++ head ++ middle ++
          .fixed word (.keyword .elseWord) :: tail)
  | compound (opening closing : TokenId) {equal : Option Location}
      {statements : List Statement} {leaves : List Leaf}
      (derived : Derives stream (.statements statements) leaves) :
      Derives stream
        (.compound equal ⟨statements, openingLocation equal (stream.get opening).location,
          (stream.get closing).location⟩)
        (.fixed opening (.punctuator .openBrace) :: leaves ++
          [.fixed closing (.punctuator .closeBrace)])
  | noStatements : Derives stream (.statements []) []
  | moreStatements {first : Statement} {statements : List Statement} {head tail : List Leaf}
      (derived : Derives stream (.statement true none first) head)
      (rest : Derives stream (.statements statements) tail) :
      Derives stream (.statements (first :: statements)) (head ++ tail)
  -- Expressions
  | basic {allowRelational : Bool} (signs : List TokenId) {primary : Primary}
      {terms : List PostfixTerm} {head tail : List Leaf}
      (derived : Derives stream (.primary primary) head)
      (continued : Derives stream (.postfixTerms terms) tail) :
      Derives stream (.operand allowRelational [] (.basic signs primary terms))
        (signs.map (Leaf.stored · .sign) ++ head ++ tail)
  | collapsed {allowRelational : Bool} {level : Precedence} {tighter : List Precedence}
      {expression : Expression} {leaves : List Leaf}
      (derived : Derives stream (.operand allowRelational tighter expression) leaves) :
      Derives stream (.operand allowRelational (level :: tighter) expression) leaves
  | chain {allowRelational : Bool} {level : Precedence} {tighter : List Precedence}
      {first : Expression} {terms : List ChainTerm} {head tail : List Leaf}
      (nonempty : terms ≠ [])
      (derived : Derives stream (.operand allowRelational tighter first) head)
      (rest : Derives stream (.chainTerms allowRelational level tighter terms) tail) :
      Derives stream (.operand allowRelational (level :: tighter) (.chain level first terms))
        (head ++ tail)
  | noChainTerms {allowRelational : Bool} {level : Precedence} {tighter : List Precedence} :
      Derives stream (.chainTerms allowRelational level tighter []) []
  | moreChainTerms (operator : TokenId) {allowRelational : Bool} {level : Precedence}
      {tighter : List Precedence} {operand : Expression} {terms : List ChainTerm}
      {head tail : List Leaf}
      (derived : Derives stream (.operand allowRelational tighter operand) head)
      (rest : Derives stream (.chainTerms allowRelational level tighter terms) tail) :
      Derives stream
        (.chainTerms allowRelational level tighter (⟨operator, operand⟩ :: terms))
        (.stored operator (.operator allowRelational level) :: head ++ tail)
  | tokenPrimary (place : TokenId) :
      Derives stream (.primary (.token place)) [.stored place .primary]
  | listPrimary (opening closing : TokenId) {terms : List Argument} {leaves : List Leaf}
      (derived : Derives stream (.arguments terms) leaves) :
      Derives stream
        (.primary (.list
          ⟨terms, (stream.get opening).location, (stream.get closing).location⟩))
        (.fixed opening (.punctuator .openParenthesis) :: leaves ++
          [.fixed closing (.punctuator .closeParenthesis)])
  | identifierPrimary {expression : IdentifierExpression} {leaves : List Leaf}
      (derived : Derives stream (.identifierExpression expression) leaves) :
      Derives stream (.primary (.identifier expression)) leaves
  | functionPrimary {declaration : Declaration} {leaves : List Leaf}
      (allowed : expressionScopeError? declaration = none)
      (begins : declaration.first = firstLocation stream leaves)
      (derived : Derives stream (.unnamed true declaration) leaves) :
      Derives stream (.primary (.function declaration)) leaves
  | noPostfixTerms : Derives stream (.postfixTerms []) []
  | morePostfixTerms {term : PostfixTerm} {terms : List PostfixTerm} {head tail : List Leaf}
      (derived : Derives stream (.postfixTerm term) head)
      (rest : Derives stream (.postfixTerms terms) tail) :
      Derives stream (.postfixTerms (term :: terms)) (head ++ tail)
  | operatorTerm (place : TokenId) :
      Derives stream (.postfixTerm (.operator place)) [.stored place .mark]
  | memberTerm (dot : TokenId) {member : IdentifierExpression} {leaves : List Leaf}
      (derived : Derives stream (.identifierExpression member) leaves) :
      Derives stream (.postfixTerm (.member dot member))
        (.stored dot (.exactly (.punctuator .dot)) :: leaves)
  | callTerm (opening closing : TokenId) {terms : List Argument} {leaves : List Leaf}
      (derived : Derives stream (.arguments terms) leaves) :
      Derives stream
        (.postfixTerm (.arguments opening
          ⟨terms, (stream.get opening).location, (stream.get closing).location⟩ closing))
        (.stored opening (.exactly (.punctuator .openParenthesis)) :: leaves ++
          [.stored closing (.exactly (.punctuator .closeParenthesis))])
  | subscriptTerm (opening closing : TokenId) {terms : List Argument} {leaves : List Leaf}
      (nonempty : terms ≠ []) (derived : Derives stream (.arguments terms) leaves) :
      Derives stream
        (.postfixTerm (.arguments opening
          ⟨terms, (stream.get opening).location, (stream.get closing).location⟩ closing))
        (.stored opening (.exactly (.punctuator .openBracket)) :: leaves ++
          [.stored closing (.exactly (.punctuator .closeBracket))])
  | noArguments : Derives stream (.arguments []) []
  | lastArgument {argument : Argument} {leaves : List Leaf}
      (derived : Derives stream (.argument argument) leaves) :
      Derives stream (.arguments [argument]) leaves
  | moreArguments (comma : TokenId) {argument next : Argument} {terms : List Argument}
      {head tail : List Leaf} (derived : Derives stream (.argument argument) head)
      (rest : Derives stream (.arguments (next :: terms)) tail) :
      Derives stream (.arguments (argument :: next :: terms))
        (head ++ .fixed comma (.punctuator .comma) :: tail)
  | plainArgument {value : Expression} {leaves : List Leaf}
      (derived : Derives stream (.expression true value) leaves) :
      Derives stream (.argument ⟨.input, value⟩) leaves
  | modifiedArgument (word : TokenId) {modifier : ParameterModifier} {value : Expression}
      {leaves : List Leaf} (allowed : modifier = .output ∨ modifier = .move)
      (derived : Derives stream (.expression true value) leaves) :
      Derives stream (.argument ⟨modifier, value⟩)
        (.fixed word (.parameterModifier modifier) :: leaves)

def Derivable (stream : TokenStream) (phrase : Phrase) (start stop : Nat) : Prop :=
  ∃ leaves, Derives stream phrase leaves ∧ Covers stream start stop leaves

def Phrase.isNullable : Phrase → Bool
  | .scoped _ | .returns _ | .parameters _ _ | .statements _ | .chainTerms _ _ _ _
  | .postfixTerms _ | .arguments _ => true
  | _ => false

theorem Derives.ne_nil {stream : TokenStream} {phrase : Phrase} {leaves : List Leaf}
    (derives : Derives stream phrase leaves) (written : phrase.isNullable = false) :
    leaves ≠ [] := by
  induction derives <;> simp_all [Phrase.isNullable, Phrase.expression]

theorem Derivable.start_lt_stop {stream : TokenStream} {phrase : Phrase} {start stop : Nat}
    (derivable : Derivable stream phrase start stop) (written : phrase.isNullable = false) :
    start < stop := by
  obtain ⟨leaves, derives, covers⟩ := derivable
  exact covers.start_lt_stop (derives.ne_nil written)

end CppsFrontend.Grammar
