import CppsFrontend.Proofs.Grammar.Climbing
import CppsFrontend.Proofs.Grammar.Modular
import CppsFrontend.Proofs.Grammar.Parsing
import CppsFrontend.Proofs.Lexical.Places

/-!
# Spans and anchors

Every node of a tree is written with a span of tokens, and the spans of the nodes inside it
lie in its own, one behind the other.  The locations that a node keeps are those of tokens
of its span: the first and the last one, its `=`, its parentheses, brackets or braces.  The
declarations of a file have neighbouring spans, from the first token on.
-/

set_option autoImplicit false

namespace CppsFrontend

namespace Grammar

variable {stream : TokenStream} {start middle stop : Nat} {head tail leaves : List Leaf}

/-! ## Splitting spans -/

theorem Covers.of_nil (covers : Covers stream start stop []) : start = stop := by
  have counted := covers.length_eq
  have ordered := covers.ordered
  rw [List.length_nil] at counted
  omega

theorem Covers.of_cons {leaf : Leaf} (covers : Covers stream start stop (leaf :: tail)) :
    leaf.place = start ∧ leaf.Fits stream ∧ Covers stream (start + 1) stop tail := by
  have counted := covers.length_eq
  have places := covers.places
  rw [List.length_cons] at counted
  rw [← counted, List.range'_succ, List.map_cons] at places
  obtain ⟨first, rest⟩ := List.cons.inj places
  refine ⟨first, covers.fits leaf List.mem_cons_self, ⟨by omega, ?_, ?_⟩⟩
  · rw [rest, show stop - (start + 1) = tail.length by omega]
  · exact fun other member => covers.fits other (List.mem_cons_of_mem leaf member)

theorem Covers.of_append (covers : Covers stream start stop (head ++ tail)) :
    ∃ middle, Covers stream start middle head ∧ Covers stream middle stop tail := by
  induction head generalizing start with
  | nil => exact ⟨start, .nil stream start, covers⟩
  | cons leaf head induction =>
      obtain ⟨rfl, fits, rest⟩ := covers.of_cons
      obtain ⟨middle, first, second⟩ := induction rest
      exact ⟨middle, .cons leaf fits first, second⟩

theorem Covers.of_concat {leaf : Leaf} (covers : Covers stream start stop (head ++ [leaf])) :
    leaf.place + 1 = stop ∧ leaf.Fits stream ∧ Covers stream start leaf.place head := by
  obtain ⟨middle, first, last⟩ := covers.of_append
  obtain ⟨rfl, fits, rest⟩ := last.of_cons
  exact ⟨rest.of_nil, fits, first⟩

/-! ## Anchors -/

structure Delimited (stream : TokenStream) (opened closed : Punctuator) (start stop : Nat) :
    Prop where
  opens : (stream.get start).lexeme = .punctuator opened
  closes : (stream.before stop).lexeme = .punctuator closed
  apart : start + 1 < stop

theorem Covers.delimited {first last : Leaf} {opened closed : Punctuator}
    (covers : Covers stream start stop (first :: leaves ++ [last]))
    (opens : first.terminal = .exactly (.punctuator opened))
    (closes : last.terminal = .exactly (.punctuator closed)) :
    first.place = start ∧ last.place + 1 = stop ∧ Delimited stream opened closed start stop ∧
      Covers stream (start + 1) last.place leaves := by
  obtain ⟨rfl, opening, inside⟩ := covers.of_cons
  obtain ⟨rfl, closing, within⟩ := Covers.of_concat inside
  have begins := opening.2
  have ends := closing.2
  rw [opens] at begins
  rw [closes] at ends
  exact ⟨rfl, rfl, ⟨begins, ends, Nat.succ_le_succ within.ordered⟩, within⟩

/-- A declaration ends with its last token, and its `=` is the token before its
initializer. -/
structure EndAnchored (stream : TokenStream) (semicolon : Bool) (declaration : Declaration)
    (start stop : Nat) : Prop where
  last : declaration.last = (stream.before stop).location
  uninitialized : declaration.initializer = none → declaration.equal = none
  initialized : ∀ value ∈ declaration.initializer, ∃ place, start < place ∧
    (stream.get place).lexeme = .punctuator .assignment ∧
    declaration.equal = some (stream.get place).location ∧
    Derivable stream (.statement semicolon declaration.equal value) (place + 1) stop

structure DeclarationAnchored (stream : TokenStream) (semicolon : Bool)
    (declaration : Declaration) (start stop : Nat) : Prop
    extends EndAnchored stream semicolon declaration start stop where
  first : declaration.first = (stream.get start).location

/-- The anchors of a compound statement are its braces, except that an `=` on the line of
the opening brace stands for it. -/
structure CompoundAnchored (stream : TokenStream) (equal : Option Location) (block : Compound)
    (start stop : Nat) : Prop extends Delimited stream .openBrace .closeBrace start stop where
  closing : block.closing = (stream.before stop).location
  shared : ∀ sign ∈ equal,
    block.opening = sign ↔ sign.line = (stream.get start).location.line
  plain : (∀ sign ∈ equal, sign.line ≠ (stream.get start).location.line) →
    block.opening = (stream.get start).location

structure ListAnchored (stream : TokenStream) (opened closed : Punctuator)
    (opening closing : Location) (start stop : Nat) : Prop
    extends Delimited stream opened closed start stop where
  opening : opening = (stream.get start).location
  closing : closing = (stream.before stop).location

/-- The locations that a phrase keeps are those of tokens of its span. -/
def Phrase.Anchored (stream : TokenStream) (start stop : Nat) : Phrase → Prop
  | .identifierExpression used => used.location = (stream.get start).location
  | .declaration semicolon declared =>
      DeclarationAnchored stream semicolon declared start stop
  | .unnamed semicolon declared => EndAnchored stream semicolon declared start stop
  | .parameterList _ list =>
      ListAnchored stream .openParenthesis .closeParenthesis list.opening list.closing start stop
  | .parameter _ declared => declared.location = (stream.get start).location
  | .compound equal block => CompoundAnchored stream equal block start stop
  | .primary (.list list) =>
      ListAnchored stream .openParenthesis .closeParenthesis list.opening list.closing start stop
  | .primary (.function declared) => DeclarationAnchored stream true declared start stop
  | .postfixTerm (.arguments opening list closing) =>
      opening = start ∧ closing + 1 = stop ∧
        (ListAnchored stream .openParenthesis .closeParenthesis list.opening list.closing
            start stop ∨
          ListAnchored stream .openBracket .closeBracket list.opening list.closing start stop)
  | _ => True

def LinesKnown (stream : TokenStream) : Prop :=
  ∀ place < stream.size, (stream.get place).location.hasLine = true

theorem openingLocation_some {equal brace : Location} (known : brace.hasLine = true) :
    openingLocation (some equal) brace = if equal.line = brace.line then equal else brace := by
  have same : equal.line = brace.line → equal.hasLine = true := by
    intro same
    rw [Location.hasLine, same]
    exact known
  by_cases shared : equal.line = brace.line
  · simp [openingLocation, shared, same shared]
  · simp [openingLocation, shared]

theorem Derives.compound_anchored (known : LinesKnown stream) {equal : Option Location}
    {block : Compound} (derives : Derives stream (.compound equal block) leaves)
    (covers : Covers stream start stop leaves) :
    CompoundAnchored stream equal block start stop := by
  cases derives with
  | compound opening closing derived =>
      have inside := covers.stop_le_size (covers.start_lt_stop (by simp))
      obtain ⟨begins, ends, delimited, -⟩ := covers.delimited rfl rfl
      change opening = start at begins
      change closing + 1 = stop at ends
      subst begins ends
      have line := known opening (Nat.lt_of_lt_of_le (Nat.lt_of_succ_lt delimited.apart) inside)
      refine ⟨delimited, rfl, ?_, ?_⟩
      · rintro sign rfl
        change openingLocation (some sign) (stream.get opening).location = sign ↔ _
        rw [openingLocation_some line]
        by_cases shared : sign.line = (stream.get opening).location.line
        · simp [shared]
        · rw [if_neg shared]
          refine iff_of_false ?_ shared
          rintro rfl
          exact shared rfl
      · intro apart
        change openingLocation equal (stream.get opening).location = _
        cases equal with
        | none => rfl
        | some sign => rw [openingLocation_some line, if_neg (apart sign rfl)]

theorem Derives.unnamed_anchored {semicolon : Bool} {declaration : Declaration}
    (derives : Derives stream (.unnamed semicolon declaration) leaves)
    (covers : Covers stream start stop leaves) :
    EndAnchored stream semicolon declaration start stop := by
  cases derives with
  | @initialized colon equal _ _ _ value _ head tail typed initial =>
      obtain ⟨rfl, -, rest⟩ := covers.of_cons
      obtain ⟨middle, typeCovers, rest⟩ := rest.of_append
      obtain ⟨rfl, equals, initialCovers⟩ := rest.of_cons
      have forward := initialCovers.start_lt_stop (initial.ne_nil rfl)
      refine ⟨initialCovers.lastLocation_eq forward, nofun, ?_⟩
      rintro _ ⟨rfl⟩
      exact ⟨equal, typeCovers.ordered, equals.2, rfl, tail, initial, initialCovers⟩
  | closed colon close typed =>
      obtain ⟨ends, -, -⟩ := covers.of_concat
      rw [semicolonLeaf_place] at ends
      subst ends
      exact ⟨rfl, fun _ => rfl, nofun⟩
  | unclosed colon typed =>
      obtain ⟨rfl, -, rest⟩ := covers.of_cons
      have forward := rest.start_lt_stop (typed.ne_nil rfl)
      exact ⟨rest.lastLocation_eq forward, fun _ => rfl, nofun⟩

/-- A span begins at its first leaf. -/
theorem Derives.firstLocation_eq {phrase : Phrase} (derives : Derives stream phrase leaves)
    (written : phrase.isNullable = false) (covers : Covers stream start stop leaves) :
    firstLocation stream leaves = (stream.get start).location :=
  covers.firstLocation_eq (covers.start_lt_stop (derives.ne_nil written))

theorem Derives.declaration_anchored {semicolon : Bool} {declaration : Declaration}
    (derives : Derives stream (.declaration semicolon declaration) leaves)
    (covers : Covers stream start stop leaves) :
    DeclarationAnchored stream semicolon declaration start stop := by
  cases derives with
  | declaration named unnamed =>
      obtain ⟨middle, first, rest⟩ := covers.of_append
      obtain ⟨last, uninitialized, initialized⟩ := unnamed.unnamed_anchored rest
      refine ⟨⟨last, uninitialized, ?_⟩, named.firstLocation_eq rfl first⟩
      intro value among
      obtain ⟨place, behind, sign, same, initial⟩ := initialized value among
      exact ⟨place, Nat.lt_of_le_of_lt first.ordered behind, sign, same, initial⟩

theorem Derives.anchored (known : LinesKnown stream) {phrase : Phrase}
    (derives : Derives stream phrase leaves) (covers : Covers stream start stop leaves) :
    phrase.Anchored stream start stop := by
  cases id derives with
  | identifierExpression derived => exact derived.firstLocation_eq rfl covers
  | declaration => exact derives.declaration_anchored covers
  | initialized | closed | unclosed => exact derives.unnamed_anchored covers
  | parameterList opening closing derived =>
      obtain ⟨rfl, rfl, delimited, -⟩ := covers.delimited rfl rfl
      exact ⟨delimited, rfl, rfl⟩
  | plainParameter derived => exact derived.firstLocation_eq rfl covers
  | @modifiedParameter word role modifier _ _ allowed derived =>
      obtain ⟨begins, -, -⟩ := covers.of_cons
      rw [modifierLeaf_place] at begins
      subst begins
      rfl
  | compound => exact derives.compound_anchored known covers
  | listPrimary opening closing derived =>
      obtain ⟨rfl, rfl, delimited, -⟩ := covers.delimited rfl rfl
      exact ⟨delimited, rfl, rfl⟩
  | functionPrimary allowed begins derived =>
      exact ⟨derived.unnamed_anchored covers, begins.trans (derived.firstLocation_eq rfl covers)⟩
  | callTerm opening closing derived =>
      obtain ⟨rfl, rfl, delimited, -⟩ := covers.delimited rfl rfl
      exact ⟨rfl, rfl, .inl ⟨delimited, rfl, rfl⟩⟩
  | subscriptTerm opening closing nonempty derived =>
      obtain ⟨rfl, rfl, delimited, -⟩ := covers.delimited rfl rfl
      exact ⟨rfl, rfl, .inr ⟨delimited, rfl, rfl⟩⟩
  | _ => trivial

/-! ## Parts -/

def typeParts : DeclarationType → List Phrase
  | .function signature => [.signature signature]
  | .object used => [.identifierExpression used]

def declarationParts (semicolon : Bool) (declared : Declaration) : List Phrase :=
  typeParts declared.type ++
    declared.initializer.toList.map (.statement semicolon declared.equal)

def returnsParts : Returns → List Phrase
  | .nothing => []
  | .value used => [.identifierExpression used]
  | .named results => [.parameterList .result results]

def identifierParts : Identifier → List Phrase
  | .unqualified single => [.name single]
  | .qualified first more => .name first :: more.map fun next => .name next.identifier

def statementParts (semicolon : Bool) (equal : Option Location) : Statement → List Phrase
  | .declaration declared => [.declaration semicolon declared]
  | .compound block => [.compound equal block]
  | .expression value _ => [.expression true value]
  | .iteration .testBefore _ test body => [.expression true test, .compound none body]
  | .iteration .testAfter _ test body => [.compound none body, .expression true test]
  | .result _ value => value.toList.map (.expression true)
  | .selection _ _ test positive negative =>
      .expression true test :: .compound none positive :: negative.toList.map (.compound none)

/-- The operands of a chain hold tighter operators than the chain itself. -/
def operandParts (allowRelational : Bool) (level : Precedence) (terms : List ChainTerm) :
    List Phrase :=
  terms.map fun term => .operand allowRelational level.andTighter.tail term.operand

def expressionParts (allowRelational : Bool) : Expression → List Phrase
  | .basic _ first terms => .primary first :: terms.map .postfixTerm
  | .chain level first terms =>
      .operand allowRelational level.andTighter.tail first ::
        operandParts allowRelational level terms

def primaryParts : Primary → List Phrase
  | .token _ => []
  | .list list => list.terms.map .argument
  | .identifier used => [.identifierExpression used]
  | .function declared => declarationParts true declared

def postfixParts : PostfixTerm → List Phrase
  | .operator _ => []
  | .member _ used => [.identifierExpression used]
  | .arguments _ list _ => list.terms.map .argument

/-- The nodes that stand directly inside a phrase, in order. -/
def Phrase.parts : Phrase → List Phrase
  | .name _ => []
  | .scoped names => names.map fun next => .name next.identifier
  | .identifier whole => identifierParts whole
  | .identifierExpression used => [.identifier used.identifier]
  | .declaration semicolon declared =>
      declared.identifier.toList.map .name ++ declarationParts semicolon declared
  | .unnamed semicolon declared => declarationParts semicolon declared
  | .type declared _ => typeParts declared
  | .signature whole =>
      .parameterList .argument whole.parameters :: returnsParts whole.returns
  | .returns whole => returnsParts whole
  | .parameterList role list => list.parameters.map (.parameter role)
  | .parameters role list => list.map (.parameter role)
  | .parameter _ whole => [.declaration false whole.declaration]
  | .statement semicolon equal whole => statementParts semicolon equal whole
  | .statements list => list.map (.statement true none)
  | .compound _ block => block.statements.map (.statement true none)
  | .operand allowRelational _ whole => expressionParts allowRelational whole
  | .chainTerms allowRelational level _ terms => operandParts allowRelational level terms
  | .primary whole => primaryParts whole
  | .postfixTerms terms => terms.map .postfixTerm
  | .postfixTerm term => postfixParts term
  | .arguments list => list.map .argument
  | .argument whole => [.expression true whole.expression]

def Phrase.Leveled : Phrase → Prop
  | .operand _ levels _ => levels <:+ Precedence.all
  | .chainTerms _ level tighter _ => level :: tighter <:+ Precedence.all
  | _ => True

mutual

/-- A node is written with the tokens from `start` up to `stop`, its anchors are theirs, and
so it is with all nodes inside it. -/
inductive Spans (stream : TokenStream) : Phrase → Nat → Nat → Prop where
  | intro {phrase : Phrase} {start stop : Nat} (forward : start < stop)
      (written : Derivable stream phrase start stop)
      (anchored : phrase.Anchored stream start stop)
      (parts : Laid stream phrase.parts start stop) : Spans stream phrase start stop

/-- Nodes span tokens between `start` and `stop`, one node behind the other. -/
inductive Laid (stream : TokenStream) : List Phrase → Nat → Nat → Prop where
  | nil {start stop : Nat} (ordered : start ≤ stop) : Laid stream [] start stop
  | cons {phrase : Phrase} {phrases : List Phrase} {start first last stop : Nat}
      (inside : start ≤ first) (spans : Spans stream phrase first last)
      (rest : Laid stream phrases last stop) : Laid stream (phrase :: phrases) start stop

end

section Laid

variable {phrase : Phrase} {phrases others : List Phrase}

theorem Laid.behind (laid : Laid stream phrases middle stop) (ordered : start ≤ middle) :
    Laid stream phrases start stop := by
  cases laid with
  | nil within => exact .nil (Nat.le_trans ordered within)
  | cons inside spans rest => exact .cons (Nat.le_trans ordered inside) spans rest

theorem Laid.append (first : Laid stream phrases start middle)
    (second : Laid stream others middle stop) : Laid stream (phrases ++ others) start stop := by
  induction phrases generalizing start with
  | nil =>
      cases first with
      | nil ordered => exact second.behind ordered
  | cons phrase phrases induction =>
      cases first with
      | cons inside spans rest => exact .cons inside spans (induction rest)

def Lays (stream : TokenStream) (phrases : List Phrase) (leaves : List Leaf) : Prop :=
  ∀ start stop, Covers stream start stop leaves → Laid stream phrases start stop

theorem Lays.none (leaves : List Leaf) : Lays stream [] leaves :=
  fun _ _ covers => .nil covers.ordered

theorem Lays.append (first : Lays stream phrases head) (second : Lays stream others tail) :
    Lays stream (phrases ++ others) (head ++ tail) := by
  intro start stop covers
  obtain ⟨middle, front, back⟩ := covers.of_append
  exact (first start middle front).append (second middle stop back)

theorem Lays.leaf {leaf : Leaf} (lays : Lays stream phrases tail) :
    Lays stream phrases (leaf :: tail) :=
  (Lays.none [leaf]).append lays

theorem Lays.trailing (lays : Lays stream phrases head) :
    Lays stream phrases (head ++ tail) := by
  have whole := lays.append (Lays.none tail)
  rw [List.append_nil] at whole
  exact whole

/-- A phrase with leaves of its own is a node where its parts are laid out. -/
theorem Derives.lays_node (known : LinesKnown stream) (derives : Derives stream phrase leaves)
    (written : phrase.isNullable = false) (parts : Lays stream phrase.parts leaves) :
    Lays stream [phrase] leaves := by
  intro start stop covers
  have forward := covers.start_lt_stop (derives.ne_nil written)
  exact .cons (Nat.le_refl start) (.intro forward ⟨leaves, derives, covers⟩
    (derives.anchored known covers) (parts start stop covers)) (.nil (Nat.le_refl stop))

theorem Derives.lays (known : LinesKnown stream) (derives : Derives stream phrase leaves)
    (leveled : phrase.Leveled) : Lays stream phrase.parts leaves := by
  have full : Precedence.all <:+ Precedence.all := List.suffix_refl _
  induction derives with
  | plainName | constantName | scopedNone | noResult | noParameters | noStatements
  | noChainTerms | tokenPrimary | noPostfixTerms | operatorTerm | noArguments
  | emptyReturn => exact .none _
  | scopedMore first rest firstLays restLays =>
      exact (first.lays_node known rfl (firstLays trivial)).leaf.append (restLays trivial)
  | unqualified derived lays => exact derived.lays_node known rfl (lays trivial)
  | qualified nonempty first rest firstLays restLays =>
      exact (first.lays_node known rfl (firstLays trivial)).append (restLays trivial)
  | identifierExpression derived lays => exact derived.lays_node known rfl (lays trivial)
  | declaration named unnamed nameLays lays =>
      exact (named.lays_node known rfl (nameLays trivial)).append (lays trivial)
  | initialized colon equal typed initial typeLays lays =>
      exact (typeLays trivial).leaf.append (initial.lays_node known rfl (lays trivial)).leaf
  | closed colon close typed lays => exact (lays trivial).leaf.trailing
  | unclosed colon typed lays => exact (lays trivial).leaf
  | functionType derived lays => exact derived.lays_node known rfl (lays trivial)
  | objectType pointer derived lays =>
      exact (Lays.none _).append (derived.lays_node known rfl (lays trivial))
  | signature word listed resulting listLays lays =>
      exact (listed.lays_node known rfl (listLays trivial)).trailing.append (lays trivial)
  | valueResult arrow derived lays => exact (derived.lays_node known rfl (lays trivial)).leaf
  | namedResults arrow derived lays => exact (derived.lays_node known rfl (lays trivial)).leaf
  | parameterList opening closing derived lays => exact (lays trivial).leaf.trailing
  | lastParameter derived lays => exact derived.lays_node known rfl (lays trivial)
  | trailingComma comma derived lays =>
      exact (derived.lays_node known rfl (lays trivial)).trailing
  | moreParameters comma derived rest lays restLays =>
      exact (derived.lays_node known rfl (lays trivial)).append (restLays trivial).leaf
  | plainParameter derived lays => exact derived.lays_node known rfl (lays trivial)
  | modifiedParameter word allowed derived lays =>
      exact (derived.lays_node known rfl (lays trivial)).leaf
  | declarationStatement derived lays => exact derived.lays_node known rfl (lays trivial)
  | compoundStatement derived lays => exact derived.lays_node known rfl (lays trivial)
  | expressionStatement close needed derived lays =>
      exact (derived.lays_node known rfl (lays full)).trailing
  | whileStatement keyword tested repeated testLays lays =>
      exact (tested.lays_node known rfl (testLays full)).leaf.append
        (repeated.lays_node known rfl (lays trivial))
  | doStatement keyword word close repeated tested lays testLays =>
      exact ((repeated.lays_node known rfl (lays trivial)).leaf.append
        (tested.lays_node known rfl (testLays full)).leaf).trailing
  | valueReturn keyword close derived lays =>
      exact (derived.lays_node known rfl (lays full)).leaf.trailing
  | selection keyword constant tested taken testLays lays =>
      exact ((Lays.none _).append (tested.lays_node known rfl (testLays full))).append
        (taken.lays_node known rfl (lays trivial))
  | alternative keyword word constant tested taken otherwise testLays takenLays lays =>
      exact (((Lays.none _).append (tested.lays_node known rfl (testLays full))).append
        (taken.lays_node known rfl (takenLays trivial))).append
          (otherwise.lays_node known rfl (lays trivial)).leaf
  | compound opening closing derived lays => exact (lays trivial).leaf.trailing
  | moreStatements derived rest lays restLays =>
      exact (derived.lays_node known rfl (lays trivial)).append (restLays trivial)
  | basic signs derived continued lays moreLays =>
      exact ((Lays.none _).append (derived.lays_node known rfl (lays trivial))).append
        (moreLays trivial)
  | collapsed derived lays => exact lays ((List.suffix_cons _ _).trans leveled)
  | @chain _ level tighter first terms _ _ nonempty derived rest lays restLays =>
      have node := derived.lays_node known rfl (lays ((List.suffix_cons _ _).trans leveled))
      change Lays stream (_ :: operandParts _ level terms) _
      rw [andTighter_eq leveled]
      exact node.append (restLays leveled)
  | @moreChainTerms operator allowRelational level tighter operand terms _ _ derived rest lays
      restLays =>
      have node := derived.lays_node known rfl (lays ((List.suffix_cons _ _).trans leveled))
      have same : level.andTighter.tail = tighter := by rw [andTighter_eq leveled, List.tail_cons]
      rw [← same] at node
      exact node.leaf.append (restLays leveled)
  | listPrimary opening closing derived lays => exact (lays trivial).leaf.trailing
  | identifierPrimary derived lays => exact derived.lays_node known rfl (lays trivial)
  | functionPrimary allowed begins derived lays => exact lays trivial
  | morePostfixTerms derived rest lays restLays =>
      exact (derived.lays_node known rfl (lays trivial)).append (restLays trivial)
  | memberTerm dot derived lays => exact (derived.lays_node known rfl (lays trivial)).leaf
  | callTerm opening closing derived lays => exact (lays trivial).leaf.trailing
  | subscriptTerm opening closing nonempty derived lays => exact (lays trivial).leaf.trailing
  | lastArgument derived lays => exact derived.lays_node known rfl (lays trivial)
  | moreArguments comma derived rest lays restLays =>
      exact (derived.lays_node known rfl (lays trivial)).append (restLays trivial).leaf
  | plainArgument derived lays => exact derived.lays_node known rfl (lays full)
  | modifiedArgument word allowed derived lays =>
      exact (derived.lays_node known rfl (lays full)).leaf

end Laid

/-! ## Productions -/

theorem Derivable.spans (known : LinesKnown stream) {phrase : Phrase}
    (derivable : Derivable stream phrase start stop) (written : phrase.isNullable = false)
    (leveled : phrase.Leveled) : Spans stream phrase start stop := by
  obtain ⟨leaves, derives, covers⟩ := id derivable
  exact .intro (derivable.start_lt_stop written) derivable (derives.anchored known covers)
    (derives.lays known leveled start stop covers)

def Spanning {α : Type} (stream : TokenStream) (production : Production α)
    (phrase : α → Phrase) : Prop :=
  ∀ reporting state value after, production ⟨stream, reporting⟩ state = (some value, after) →
    Spans stream (phrase value) state.position after.position

theorem Spanning.of_sound {α : Type} {production : Production α} {phrase : α → Phrase}
    (known : LinesKnown stream) (sound : Sound production phrase)
    (written : ∀ value, (phrase value).isNullable = false)
    (leveled : ∀ value, (phrase value).Leveled) : Spanning stream production phrase :=
  fun _ _ _ _ run => (sound run).spans known (written _) (leveled _)

structure SpanningProductions (stream : TokenStream) (nested : Nested) : Prop where
  name : Spanning stream unqualifiedIdentifier .name
  qualified : Spanning stream qualifiedIdentifier .identifier
  identifierExpression : Spanning stream identifierExpression .identifierExpression
  parameter : ∀ role, Spanning stream (parameter nested role) (.parameter role)
  parameterList : ∀ role, Spanning stream (parameterList nested role) (.parameterList role)
  signature : Spanning stream (functionSignature nested) .signature
  declaration : ∀ semicolon,
    Spanning stream (declaration nested semicolon) (.declaration semicolon)
  argument : Spanning stream (argument nested) .argument
  primary : Spanning stream (primary nested) .primary
  postfixTerm : ∀ reporting state term after,
    postfixRound nested ⟨stream, reporting⟩ state = (some (.more term), after) →
      Spans stream (.postfixTerm term) state.position after.position
  basicExpression : ∀ allowRelational,
    Spanning stream (basicExpression nested) (.operand allowRelational [])
  expression : ∀ allowRelational,
    Spanning stream (expression nested allowRelational) (.expression allowRelational)
  compound : ∀ equal, Spanning stream (compound nested equal) (.compound equal)
  statement : ∀ semicolon equal,
    Spanning stream (statement nested semicolon equal) (.statement semicolon equal)

theorem spanningProductions {nested : Nested} (known : LinesKnown stream)
    (inner : SoundNested nested) : SpanningProductions stream nested where
  name := .of_sound known unqualifiedIdentifier_sound (fun _ => rfl) fun _ => trivial
  qualified := .of_sound known qualifiedIdentifier_sound (fun _ => rfl) fun _ => trivial
  identifierExpression :=
    .of_sound known identifierExpression_sound (fun _ => rfl) fun _ => trivial
  parameter role := .of_sound known (parameter_sound inner role) (fun _ => rfl) fun _ => trivial
  parameterList role :=
    .of_sound known (parameterList_sound inner role) (fun _ => rfl) fun _ => trivial
  signature := .of_sound known (functionSignature_sound inner) (fun _ => rfl) fun _ => trivial
  declaration semicolon :=
    .of_sound known (declaration_sound inner semicolon) (fun _ => rfl) fun _ => trivial
  argument := .of_sound known (argument_sound inner) (fun _ => rfl) fun _ => trivial
  primary := .of_sound known (primary_sound inner) (fun _ => rfl) fun _ => trivial
  postfixTerm reporting state term after run := by
    rcases postfixRound_run inner run with ⟨impossible, -⟩ | ⟨_, same, derivable⟩
    · cases impossible
    · cases same
      exact derivable.spans known rfl trivial
  basicExpression allowRelational :=
    .of_sound known (basicExpression_sound inner allowRelational) (fun _ => rfl)
      fun _ => List.nil_suffix
  expression allowRelational :=
    .of_sound known (expression_sound inner allowRelational) (fun _ => rfl)
      fun _ => List.suffix_refl _
  compound equal := .of_sound known (compound_sound inner equal) (fun _ => rfl) fun _ => trivial
  statement semicolon equal :=
    .of_sound known (statement_sound inner semicolon equal) (fun _ => rfl) fun _ => trivial

/-! ## Files -/

inductive Tiled (stream : TokenStream) : List Declaration → Nat → Nat → Prop where
  | nil (position : Nat) : Tiled stream [] position position
  | cons {declaration : Declaration} {declarations : List Declaration} {start middle stop : Nat}
      (first : Spans stream (.declaration true declaration) start middle)
      (rest : Tiled stream declarations middle stop) :
      Tiled stream (declaration :: declarations) start stop

def Follows (stream : TokenStream) (first second : Declaration) : Prop :=
  ∃ place, place + 1 < stream.size ∧ first.last = (stream.get place).location ∧
    second.first = (stream.get (place + 1)).location

theorem Consecutive.tiled (known : LinesKnown stream) {declarations : List Declaration}
    (consecutive : Consecutive stream declarations start stop) :
    Tiled stream declarations start stop := by
  induction consecutive with
  | nil position => exact .nil position
  | cons first _ tiled =>
      obtain ⟨leaves, derives, covers, -⟩ := first
      exact .cons (Derivable.spans known ⟨leaves, derives, covers⟩ rfl trivial) tiled

theorem Spans.declaration_anchored {semicolon : Bool} {declaration : Declaration}
    (spans : Spans stream (.declaration semicolon declaration) start stop) :
    DeclarationAnchored stream semicolon declaration start stop := by
  cases spans with
  | intro _ _ anchored => exact anchored

theorem Spans.forward {phrase : Phrase} (spans : Spans stream phrase start stop) :
    start < stop ∧ stop ≤ stream.size := by
  cases spans with
  | intro forward written =>
      obtain ⟨leaves, -, covers⟩ := written
      exact ⟨forward, covers.stop_le_size forward⟩

theorem Tiled.first {declarations : List Declaration}
    (tiled : Tiled stream declarations start stop) :
    ∀ declaration ∈ declarations.head?, declaration.first = (stream.get start).location := by
  cases tiled with
  | nil => nofun
  | cons first =>
      rintro _ ⟨rfl⟩
      exact first.declaration_anchored.first

theorem Tiled.begins {declarations : List Declaration}
    (tiled : Tiled stream declarations start stop) :
    ∀ declaration ∈ declarations, ∃ place < stream.size,
      declaration.first = (stream.get place).location := by
  induction tiled with
  | nil => nofun
  | @cons declaration declarations start middle stop first rest others =>
      refine List.forall_mem_cons.mpr ⟨⟨start, ?_, first.declaration_anchored.first⟩, others⟩
      exact Nat.lt_of_lt_of_le first.forward.1 first.forward.2

theorem Tiled.follows {declarations : List Declaration}
    (tiled : Tiled stream declarations start stop) :
    declarations.IsChain (Follows stream) := by
  induction tiled with
  | nil => exact .nil
  | @cons declaration declarations start middle stop first rest chain =>
      refine List.isChain_cons.mpr ⟨?_, chain⟩
      intro next among
      obtain ⟨last, rfl⟩ : ∃ last, middle = last + 1 :=
        Nat.exists_eq_add_one_of_ne_zero (by have := first.forward; omega)
      have inside : last + 1 < stream.size := by
        cases rest with
        | nil => cases among
        | cons second => exact Nat.lt_of_lt_of_le second.forward.1 second.forward.2
      exact ⟨last, inside, first.declaration_anchored.last, rest.first next among⟩

end Grammar

open Grammar

/-- Where all tokens have known locations, a location names a token. -/
theorem lex_location_injective {source : Source}
    (known : ∀ token ∈ (lex source).stream.tokens, token.location.isKnown = true)
    {first second : Nat} (firstInside : first < (lex source).stream.size)
    (secondInside : second < (lex source).stream.size)
    (same : ((lex source).stream.get first).location =
      ((lex source).stream.get second).location) : first = second := by
  have distinct : ((lex source).stream.tokens.toList.map Token.location).Nodup := by
    refine List.pairwise_map.mpr ((lex_ordered source known).imp ?_)
    intro token other before equal
    rw [equal] at before
    simp [Location.order] at before
  have stored : ∀ place < (lex source).stream.size,
      ((lex source).stream.tokens.toList.map Token.location)[place]? =
        some ((lex source).stream.get place).location := by
    intro place inside
    have found : (lex source).stream.tokens[place]? = some (lex source).stream.tokens[place] :=
      Array.getElem?_eq_getElem inside
    rw [List.getElem?_map, Array.getElem?_toList, TokenStream.get, found]
    rfl
  refine (List.getElem?_inj (by simpa [TokenStream.size] using firstInside) distinct).mp ?_
  rw [stored first firstInside, stored second secondInside, same]

/-- Wherever lines and columns of the tokens are below the bound of locations, all nodes of
a file span their tokens.  Whatever a production derives at any depth, its anchors are
locations of the tokens that it has passed, a location names a token, and the nodes inside
it lie in its span one behind the other.  The declarations tile the tokens up to where the
file ends, the first from the first token on, and each next one from the token right behind
the last one of the declaration before it. -/
theorem lex_spans (source : Source)
    (known : ∀ token ∈ (lex source).stream.tokens, token.location.isKnown = true)
    (earlier : Array Entry) (reporting : Reporting) :
    let stream := (lex source).stream
    let parsed := parseAfter earlier reporting stream
    (∀ depth, SpanningProductions stream (productions depth)) ∧
    (∀ first second, first < stream.size → second < stream.size →
      (stream.get first).location = (stream.get second).location → first = second) ∧
    Tiled stream parsed.declarations 0 parsed.position ∧
    (∀ declaration ∈ parsed.declarations.head?,
      declaration.first = (stream.get 0).location) ∧
    parsed.declarations.IsChain (Follows stream) := by
  intro stream parsed
  have lines : LinesKnown stream := by
    intro place inside
    have stored := known _ (Array.getElem_mem inside)
    rw [TokenStream.get, Array.getElem?_eq_getElem inside, Option.getD_some]
    exact ((Bool.and_eq_true _ _).mp stored).1
  obtain ⟨declarations, after, run, consecutive⟩ := @fileRounds_consecutive stream _ reporting
    (soundNested_productions (stream.size + 1)) [] ⟨0, earlier⟩ (Nat.zero_le stream.size)
  have tiled : Tiled stream parsed.declarations 0 parsed.position := by
    have same : parsed = ⟨declarations, after.reports, after.position⟩ := parseAfter_eq run
    rw [same]
    exact consecutive.tiled lines
  exact ⟨fun depth => spanningProductions lines (soundNested_productions depth),
    fun _ _ firstInside secondInside => lex_location_injective known firstInside secondInside,
    tiled, tiled.first, tiled.follows⟩

/-- The brace of the first initializer is on the line of its `=`, the second one is not. -/
def initializers : Source := .ofLines [⟨"f: (a: T) = \x7b b(a)[0]; \x7d", .cpps⟩, ⟨"x: U =", .cpps⟩,
  ⟨"\x7b \x7d", .cpps⟩]

theorem initializers_spans :
    (∀ token ∈ (lex initializers).stream.tokens, token.location.isKnown = true) ∧
    (parse .filtered (lex initializers).stream).declarations.length = 2 ∧
    Tiled (lex initializers).stream (parse .filtered (lex initializers).stream).declarations
      0 24 ∧
    (parse .filtered (lex initializers).stream).declarations.IsChain
      (Follows (lex initializers).stream) := by
  have known : ∀ token ∈ (lex initializers).stream.tokens, token.location.isKnown = true :=
    lex_known (by decide) (by decide +kernel)
  obtain ⟨count, ends⟩ :
      (parse .filtered (lex initializers).stream).declarations.length = 2 ∧
        (parse .filtered (lex initializers).stream).position = 24 := by
    decide +kernel
  obtain ⟨-, -, tiled, -, follows⟩ := lex_spans initializers known #[] .filtered
  exact ⟨known, count, ends ▸ tiled, follows⟩

end CppsFrontend
