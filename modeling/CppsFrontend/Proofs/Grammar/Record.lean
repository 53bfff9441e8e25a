import Mathlib
import CppsFrontend.Proofs.Grammar.Statements

/-!
# What a tree records

A tree determines the tokens that it is written with, but for the three choices of
`Choice`: which tokens it names, and which punctuators and words its rules put
between them.  `Phrase.marks` reads them off the tree alone, and the leaves of every
derivation are these marks.
-/

set_option autoImplicit false

namespace CppsFrontend.Grammar

/-- A token as a tree tells it: by its place, or by the lexeme that a rule asks for. -/
inductive Mark where
  | named (place : TokenId)
  | fixed (lexeme : Lexeme)
deriving DecidableEq

/-- What a tree tells about a leaf; nothing about a choice. -/
def Leaf.mark? : Leaf → Option Mark
  | .stored place _ => some (.named place)
  | .fixed _ lexeme => some (.fixed lexeme)
  | .unrecorded _ _ => none

namespace Marks

def punctuator (punctuator : Punctuator) : Mark := .fixed (.punctuator punctuator)

def word (keyword : Keyword) : Mark := .fixed (.keyword keyword)

def optional (place : Option TokenId) : List Mark := place.toList.map .named

def modifier (meant written : ParameterModifier) : List Mark :=
  if written = meant then [] else [.fixed (.parameterModifier written)]

def name (name : UnqualifiedIdentifier) : List Mark :=
  optional name.constant ++ [.named name.identifier]

def scopes (names : List ScopedIdentifier) : List Mark :=
  names.flatMap fun next => .named next.scope :: name next.identifier

def identifier : Identifier → List Mark
  | .unqualified single => name single
  | .qualified first more => name first ++ scopes more

def identifierExpression (expression : IdentifierExpression) : List Mark :=
  identifier expression.identifier

mutual

def declaration (semicolon : Bool) : Declaration → List Mark
  | ⟨identifier, type, pointer, initializer, _, _, _⟩ =>
      identifier.toList.flatMap name ++ punctuator .colon :: optional pointer ++
        declarationType type ++ initial semicolon initializer

def initial (semicolon : Bool) : Option Statement → List Mark
  | none => if semicolon then [punctuator .semicolon] else []
  | some value => punctuator .assignment :: statement semicolon value

def declarationType : DeclarationType → List Mark
  | .function signature => functionSignature signature
  | .object type => identifierExpression type

def functionSignature : FunctionSignature → List Mark
  | ⟨parameters, throws, returns⟩ =>
      parameterList .argument parameters ++
        (if throws then [word .throwsWord] else []) ++ results returns

def results : Returns → List Mark
  | .nothing => []
  | .value type => punctuator .arrow :: identifierExpression type
  | .named results => punctuator .arrow :: parameterList .result results

def parameterList (role : ParameterRole) : ParameterList → List Mark
  | ⟨list, _, _⟩ =>
      punctuator .openParenthesis :: parameters role list ++ [punctuator .closeParenthesis]

def parameters (role : ParameterRole) : List Parameter → List Mark
  | [] => []
  | [single] => parameter role single
  | first :: rest => parameter role first ++ punctuator .comma :: parameters role rest

def parameter (role : ParameterRole) : Parameter → List Mark
  | ⟨written, declared, _⟩ =>
      modifier role.defaultModifier written ++ declaration false declared

def statement (semicolon : Bool) : Statement → List Mark
  | .declaration declared => declaration semicolon declared
  | .compound block => compound block
  | .expression value closed =>
      expression value ++ if closed then [punctuator .semicolon] else []
  | .iteration .testBefore keyword condition body =>
      .named keyword :: expression condition ++ compound body
  | .iteration .testAfter keyword condition body =>
      .named keyword :: compound body ++ word .whileWord :: expression condition ++
        [punctuator .semicolon]
  | .result keyword value => .named keyword :: resulting value ++ [punctuator .semicolon]
  | .selection keyword constant condition positive negative =>
      .named keyword :: optional constant ++ expression condition ++ compound positive ++
        otherwise negative

def resulting : Option Expression → List Mark
  | none => []
  | some value => expression value

def otherwise : Option Compound → List Mark
  | none => []
  | some negative => word .elseWord :: compound negative

def compound : Compound → List Mark
  | ⟨list, _, _⟩ => punctuator .openBrace :: statements list ++ [punctuator .closeBrace]

def statements : List Statement → List Mark
  | [] => []
  | first :: rest => statement true first ++ statements rest

def expression : Expression → List Mark
  | .basic signs first terms =>
      signs.map .named ++ primary first ++ postfixTerms terms
  | .chain _ first terms => expression first ++ chainTerms terms

def chainTerms : List ChainTerm → List Mark
  | [] => []
  | ⟨operator, operand⟩ :: rest => .named operator :: expression operand ++ chainTerms rest

def primary : Primary → List Mark
  | .token place => [.named place]
  | .list ⟨terms, _, _⟩ =>
      punctuator .openParenthesis :: arguments terms ++ [punctuator .closeParenthesis]
  | .identifier named => identifierExpression named
  | .function declared => declaration true declared

def postfixTerms : List PostfixTerm → List Mark
  | [] => []
  | first :: rest => postfixTerm first ++ postfixTerms rest

def postfixTerm : PostfixTerm → List Mark
  | .operator operator => [.named operator]
  | .member dot named => .named dot :: identifierExpression named
  | .arguments opening ⟨terms, _, _⟩ closing =>
      .named opening :: arguments terms ++ [.named closing]

def arguments : List Argument → List Mark
  | [] => []
  | [single] => argument single
  | first :: rest => argument first ++ punctuator .comma :: arguments rest

def argument : Argument → List Mark
  | ⟨written, value⟩ => modifier .input written ++ expression value

end

end Marks

/-- The tokens of a phrase, as far as the tree tells them. -/
def Phrase.marks : Phrase → List Mark
  | .name tree => Marks.name tree
  | .scoped trees => Marks.scopes trees
  | .identifier tree => Marks.identifier tree
  | .identifierExpression tree => Marks.identifierExpression tree
  | .declaration semicolon tree => Marks.declaration semicolon tree
  | .unnamed semicolon tree => Marks.declaration semicolon tree
  | .type tree pointer => Marks.optional pointer ++ Marks.declarationType tree
  | .signature tree => Marks.functionSignature tree
  | .returns tree => Marks.results tree
  | .parameterList role tree => Marks.parameterList role tree
  | .parameters role trees => Marks.parameters role trees
  | .parameter role tree => Marks.parameter role tree
  | .statement semicolon _ tree => Marks.statement semicolon tree
  | .statements trees => Marks.statements trees
  | .compound _ tree => Marks.compound tree
  | .operand _ _ tree => Marks.expression tree
  | .chainTerms _ _ _ trees => Marks.chainTerms trees
  | .primary tree => Marks.primary tree
  | .postfixTerms trees => Marks.postfixTerms trees
  | .postfixTerm tree => Marks.postfixTerm tree
  | .arguments trees => Marks.arguments trees
  | .argument tree => Marks.argument tree

def marksOf (leaves : List Leaf) : List Mark := leaves.filterMap Leaf.mark?

@[simp] theorem marksOf_nil : marksOf [] = [] := rfl

@[simp] theorem marksOf_append (head tail : List Leaf) :
    marksOf (head ++ tail) = marksOf head ++ marksOf tail :=
  List.filterMap_append

@[simp] theorem marksOf_stored (place : TokenId) (terminal : Terminal) (rest : List Leaf) :
    marksOf (.stored place terminal :: rest) = .named place :: marksOf rest := rfl

@[simp] theorem marksOf_fixed (place : TokenId) (lexeme : Lexeme) (rest : List Leaf) :
    marksOf (.fixed place lexeme :: rest) = .fixed lexeme :: marksOf rest := rfl

@[simp] theorem marksOf_unrecorded (place : TokenId) (choice : Choice) (rest : List Leaf) :
    marksOf (.unrecorded place choice :: rest) = marksOf rest := rfl

@[simp] theorem marksOf_optionalStored (place : Option TokenId) (lexeme : Lexeme) :
    marksOf (optionalStored place lexeme) = Marks.optional place := by
  cases place <;> rfl

@[simp] theorem marksOf_optionalFixed (present : Bool) (place : TokenId) (lexeme : Lexeme) :
    marksOf (optionalFixed present place lexeme) =
      if present then [.fixed lexeme] else [] := by
  cases present <;> rfl

@[simp] theorem marksOf_semicolonLeaf (semicolon : Bool) (place : TokenId) :
    marksOf [semicolonLeaf semicolon place] = Marks.initial semicolon none := by
  cases semicolon <;> rfl

@[simp] theorem marksOf_modifierLeaf (role : ParameterRole) (written : ParameterModifier)
    (place : TokenId) (rest : List Leaf) :
    marksOf (modifierLeaf role written place :: rest) =
      Marks.modifier role.defaultModifier written ++ marksOf rest := by
  unfold modifierLeaf Marks.modifier
  split <;> rfl

@[simp] theorem marksOf_signs (signs : List TokenId) :
    marksOf (signs.map (Leaf.stored · .sign)) = signs.map .named := by
  induction signs with
  | nil => rfl
  | cons sign rest induction => rw [List.map_cons, marksOf_stored, induction, List.map_cons]

theorem Derives.unnamed_identifier {stream : TokenStream} {semicolon : Bool}
    {declaration : Declaration} {leaves : List Leaf}
    (derives : Derives stream (.unnamed semicolon declaration) leaves) :
    declaration.identifier = none := by
  cases derives <;> rfl

theorem Derives.marks_eq {stream : TokenStream} {phrase : Phrase} {leaves : List Leaf}
    (derives : Derives stream phrase leaves) : marksOf leaves = phrase.marks := by
  induction derives with
  | declaration named unnamed namedMarks unnamedMarks =>
      rename_i declaration head tail
      have anonymous := unnamed.unnamed_identifier
      cases declaration
      simp_all [Phrase.marks, Marks.declaration]
  | modifiedArgument word allowed derived marks =>
      rcases allowed with rfl | rfl <;>
        simp_all [Phrase.marks, Marks.argument, Marks.modifier, Phrase.expression]
  | _ =>
      simp_all [Phrase.marks, Phrase.expression, Marks.name, Marks.scopes, Marks.identifier,
        Marks.identifierExpression, Marks.declaration, Marks.initial, Marks.declarationType,
        Marks.functionSignature, Marks.results, Marks.parameterList, Marks.parameters,
        Marks.parameter, Marks.statement, Marks.resulting, Marks.otherwise, Marks.compound,
        Marks.statements, Marks.expression, Marks.chainTerms, Marks.primary,
        Marks.postfixTerms, Marks.postfixTerm, Marks.arguments, Marks.argument,
        Marks.optional, Marks.modifier, Marks.punctuator, Marks.word]

/-! ## Calls -/

/-- The phrase is written with the tokens from `start` up to `stop`, each once and in
order, and the tree tells all of them but the choices. -/
def Written (stream : TokenStream) (phrase : Phrase) (start stop : Nat) : Prop :=
  ∃ leaves, Derives stream phrase leaves ∧ Covers stream start stop leaves ∧
    marksOf leaves = phrase.marks

theorem Derivable.written {stream : TokenStream} {phrase : Phrase} {start stop : Nat}
    (derivable : Derivable stream phrase start stop) : Written stream phrase start stop := by
  obtain ⟨leaves, derives, covers⟩ := derivable
  exact ⟨leaves, derives, covers, derives.marks_eq⟩

/-- Whatever is nested in a declaration, a statement or an expression, and wherever
it begins: a tree is exactly what the tokens that were passed are written as. -/
theorem productions_written (stream : TokenStream) (reporting : Reporting) (depth : Nat)
    (state after : State) :
    (∀ semicolon tree,
      declaration (productions depth) semicolon ⟨stream, reporting⟩ state =
          (some tree, after) →
        Written stream (.declaration semicolon tree) state.position after.position) ∧
    (∀ semicolon equal tree,
      statement (productions depth) semicolon equal ⟨stream, reporting⟩ state =
          (some tree, after) →
        Written stream (.statement semicolon equal tree) state.position after.position) ∧
    (∀ allowRelational tree,
      expression (productions depth) allowRelational ⟨stream, reporting⟩ state =
          (some tree, after) →
        Written stream (.expression allowRelational tree) state.position
          after.position) := by
  have inner := soundNested_productions depth
  refine ⟨?_, ?_, ?_⟩
  · intro semicolon tree run
    have derivable := declaration_sound inner semicolon run
    exact derivable.written
  · intro semicolon equal tree run
    have derivable := statement_sound inner semicolon equal run
    exact derivable.written
  · intro allowRelational tree run
    have derivable := expression_sound inner allowRelational run
    exact derivable.written

/-- The tokens of `f:(in a:T,)=a;`. -/
def modifiedFunction : TokenStream := .ofTokens [
  ⟨.identifier, ⟨some 0, some 0⟩, "f"⟩,
  ⟨.punctuator .colon, ⟨some 0, some 1⟩, ":"⟩,
  ⟨.punctuator .openParenthesis, ⟨some 0, some 2⟩, "("⟩,
  ⟨.parameterModifier .input, ⟨some 0, some 3⟩, "in"⟩,
  ⟨.identifier, ⟨some 0, some 6⟩, "a"⟩,
  ⟨.punctuator .colon, ⟨some 0, some 7⟩, ":"⟩,
  ⟨.identifier, ⟨some 0, some 8⟩, "T"⟩,
  ⟨.punctuator .comma, ⟨some 0, some 9⟩, ","⟩,
  ⟨.punctuator .closeParenthesis, ⟨some 0, some 10⟩, ")"⟩,
  ⟨.punctuator .assignment, ⟨some 0, some 11⟩, "="⟩,
  ⟨.identifier, ⟨some 0, some 12⟩, "a"⟩,
  ⟨.punctuator .semicolon, ⟨some 0, some 13⟩, ";"⟩]

theorem modifiedFunction_written :
    (∃ tree after,
      declaration (productions 4) true ⟨modifiedFunction, .filtered⟩ ⟨0, #[]⟩ =
          (some tree, after) ∧
        after.position = 12 ∧ Written modifiedFunction (.declaration true tree) 0 12) ∧
    (∃ tree after,
      statement (productions 4) true none ⟨modifiedFunction, .verbatim⟩ ⟨10, #[]⟩ =
          (some tree, after) ∧
        after.position = 12 ∧ Written modifiedFunction (.statement true none tree) 10 12) ∧
    (∃ tree after,
      expression (productions 4) false ⟨modifiedFunction, .filtered⟩ ⟨10, #[]⟩ =
          (some tree, after) ∧
        after.position = 11 ∧ Written modifiedFunction (.expression false tree) 10 11) := by
  obtain ⟨declared, declaredRun⟩ : ∃ tree,
      declaration (productions 4) true ⟨modifiedFunction, .filtered⟩ ⟨0, #[]⟩ =
        (some tree, ⟨12, #[]⟩) := by
    refine ⟨?_, ?run⟩
    case run =>
      cbv
      rfl
  obtain ⟨stated, statedRun⟩ : ∃ tree,
      statement (productions 4) true none ⟨modifiedFunction, .verbatim⟩ ⟨10, #[]⟩ =
        (some tree, ⟨12, #[]⟩) := by
    refine ⟨?_, ?run⟩
    case run =>
      cbv
      rfl
  obtain ⟨value, valueRun⟩ : ∃ tree,
      expression (productions 4) false ⟨modifiedFunction, .filtered⟩ ⟨10, #[]⟩ =
        (some tree, ⟨11, #[]⟩) := by
    refine ⟨?_, ?run⟩
    case run =>
      cbv
      rfl
  have first := (productions_written modifiedFunction .filtered 4 _ _).1 _ _ declaredRun
  have second := (productions_written modifiedFunction .verbatim 4 _ _).2.1 _ _ _ statedRun
  have third := (productions_written modifiedFunction .filtered 4 _ _).2.2 _ _ valueRun
  exact ⟨⟨declared, _, declaredRun, rfl, first⟩, ⟨stated, _, statedRun, rfl, second⟩,
    ⟨value, _, valueRun, rfl, third⟩⟩

end CppsFrontend.Grammar
