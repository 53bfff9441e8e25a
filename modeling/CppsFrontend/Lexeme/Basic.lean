import CppsFrontend.Lexeme.Punctuator
import CppsFrontend.Lexeme.Word

/-!
# Lexemes

A lexeme is what a token is, apart from its place and its text: a kind, and for
words and punctuators which one.  Each of the six spelled classes is a table of
spellings; `Spelled` gives the table's common operations.  `code` packs a
lexeme into sixteen bits, the kind below and the place in the table above.
-/

set_option autoImplicit false

namespace CppsFrontend

/-- The grammatical category of a token, in code order. -/
inductive LexemeKind where
  | binaryLiteral | booleanLiteral | characterLiteral | decimalLiteral | floatingLiteral
  | functionModifier | hexadecimalLiteral | identifier | keyword | parameterModifier
  | pointerLiteral | punctuator | stringLiteral
deriving DecidableEq

namespace LexemeKind

def all : List LexemeKind := [
  .binaryLiteral, .booleanLiteral, .characterLiteral, .decimalLiteral, .floatingLiteral,
  .functionModifier, .hexadecimalLiteral, .identifier, .keyword, .parameterModifier,
  .pointerLiteral, .punctuator, .stringLiteral]

def name : LexemeKind → String
  | .binaryLiteral => "BinaryLiteral"
  | .booleanLiteral => "BooleanLiteral"
  | .characterLiteral => "CharacterLiteral"
  | .decimalLiteral => "DecimalLiteral"
  | .floatingLiteral => "FloatingLiteral"
  | .functionModifier => "FunctionModifier"
  | .hexadecimalLiteral => "HexadecimalLiteral"
  | .identifier => "Identifier"
  | .keyword => "Keyword"
  | .parameterModifier => "ParameterModifier"
  | .pointerLiteral => "PointerLiteral"
  | .punctuator => "Punctuator"
  | .stringLiteral => "StringLiteral"

def ofName? (name : String) : Option LexemeKind :=
  all.find? fun kind => kind.name == name

/-- Literals, the words for truth values and the null pointer among them. -/
def isLiteral : LexemeKind → Bool
  | .binaryLiteral | .booleanLiteral | .characterLiteral | .decimalLiteral
  | .floatingLiteral | .hexadecimalLiteral | .pointerLiteral | .stringLiteral => true
  | .functionModifier | .identifier | .keyword | .parameterModifier | .punctuator => false

end LexemeKind

class Spelled (α : Type) where
  /-- The members in table order. -/
  table : List α
  spelling : α → String

namespace Spelled

variable {α : Type} [Spelled α]

def index [DecidableEq α] (member : α) : Nat :=
  (table : List α).idxOf member

def ofIndex? (place : Nat) : Option α :=
  (table : List α)[place]?

def ofSpelling? (text : String) : Option α :=
  (table : List α).find? fun member => spelling member == text

/-- The member with a spelling among those from `low` up to `high`, by halving. -/
def searchFrom (text : String) (low high : Nat) : Option α :=
  if low < high then
    let middle := (low + high) / 2
    match (table : List α)[middle]? with
    | none => none
    | some member =>
        if spelling member = text then some member
        else if spelling member < text then searchFrom text (middle + 1) high
        else searchFrom text low middle
  else none
termination_by high - low
decreasing_by all_goals omega

def search? (text : String) : Option α :=
  searchFrom text 0 (table : List α).length

end Spelled

instance : Spelled Punctuator := ⟨Punctuator.all, Punctuator.spelling⟩
instance : Spelled Keyword := ⟨Keyword.all, Keyword.spelling⟩
instance : Spelled ParameterModifier := ⟨ParameterModifier.all, ParameterModifier.spelling⟩
instance : Spelled FunctionModifier := ⟨FunctionModifier.all, FunctionModifier.spelling⟩
instance : Spelled BooleanLiteral := ⟨BooleanLiteral.all, BooleanLiteral.spelling⟩
instance : Spelled PointerLiteral := ⟨PointerLiteral.all, PointerLiteral.spelling⟩

/-- What a token is; `invalid` stands where there is no token. -/
inductive Lexeme where
  | invalid
  | binaryLiteral
  | booleanLiteral (value : BooleanLiteral)
  | characterLiteral
  | decimalLiteral
  | floatingLiteral
  | functionModifier (modifier : FunctionModifier)
  | hexadecimalLiteral
  | identifier
  | keyword (word : Keyword)
  | parameterModifier (modifier : ParameterModifier)
  | pointerLiteral (value : PointerLiteral)
  | punctuator (mark : Punctuator)
  | stringLiteral
deriving DecidableEq

namespace Lexeme

instance : Inhabited Lexeme := ⟨.invalid⟩

instance : Coe Punctuator Lexeme := ⟨.punctuator⟩
instance : Coe Keyword Lexeme := ⟨.keyword⟩
instance : Coe ParameterModifier Lexeme := ⟨.parameterModifier⟩
instance : Coe FunctionModifier Lexeme := ⟨.functionModifier⟩
instance : Coe BooleanLiteral Lexeme := ⟨.booleanLiteral⟩
instance : Coe PointerLiteral Lexeme := ⟨.pointerLiteral⟩

def kind? : Lexeme → Option LexemeKind
  | .invalid => none
  | .binaryLiteral => some .binaryLiteral
  | .booleanLiteral _ => some .booleanLiteral
  | .characterLiteral => some .characterLiteral
  | .decimalLiteral => some .decimalLiteral
  | .floatingLiteral => some .floatingLiteral
  | .functionModifier _ => some .functionModifier
  | .hexadecimalLiteral => some .hexadecimalLiteral
  | .identifier => some .identifier
  | .keyword _ => some .keyword
  | .parameterModifier _ => some .parameterModifier
  | .pointerLiteral _ => some .pointerLiteral
  | .punctuator _ => some .punctuator
  | .stringLiteral => some .stringLiteral

/-- The place in the table of the lexeme's class; zero for kinds without a table. -/
def place : Lexeme → Nat
  | .booleanLiteral value => Spelled.index value
  | .functionModifier modifier => Spelled.index modifier
  | .keyword word => Spelled.index word
  | .parameterModifier modifier => Spelled.index modifier
  | .pointerLiteral value => Spelled.index value
  | .punctuator mark => Spelled.index mark
  | _ => 0

def firstOfKind : LexemeKind → Lexeme
  | .binaryLiteral => .binaryLiteral
  | .booleanLiteral => .booleanLiteral .falseValue
  | .characterLiteral => .characterLiteral
  | .decimalLiteral => .decimalLiteral
  | .floatingLiteral => .floatingLiteral
  | .functionModifier => .functionModifier .final
  | .hexadecimalLiteral => .hexadecimalLiteral
  | .identifier => .identifier
  | .keyword => .keyword .alignasWord
  | .parameterModifier => .parameterModifier .copy
  | .pointerLiteral => .pointerLiteral .nullptr
  | .punctuator => .punctuator .ampersand
  | .stringLiteral => .stringLiteral

def ofSpelling? (kind : LexemeKind) (text : String) : Option Lexeme :=
  match kind with
  | .booleanLiteral => (Spelled.ofSpelling? text).map .booleanLiteral
  | .functionModifier => (Spelled.ofSpelling? text).map .functionModifier
  | .keyword => (Spelled.ofSpelling? text).map .keyword
  | .parameterModifier => (Spelled.ofSpelling? text).map .parameterModifier
  | .pointerLiteral => (Spelled.ofSpelling? text).map .pointerLiteral
  | .punctuator => (Spelled.ofSpelling? text).map .punctuator
  | _ => none

def ofPlace? (kind : LexemeKind) (place : Nat) : Option Lexeme :=
  match kind with
  | .booleanLiteral => (Spelled.ofIndex? place).map .booleanLiteral
  | .functionModifier => (Spelled.ofIndex? place).map .functionModifier
  | .keyword => (Spelled.ofIndex? place).map .keyword
  | .parameterModifier => (Spelled.ofIndex? place).map .parameterModifier
  | .pointerLiteral => (Spelled.ofIndex? place).map .pointerLiteral
  | .punctuator => (Spelled.ofIndex? place).map .punctuator
  | _ => none

def ofReserved? (word : String) : Option Lexeme :=
  (Spelled.search? word).map Lexeme.booleanLiteral
    <|> (Spelled.search? word).map Lexeme.functionModifier
    <|> (Spelled.search? word).map Lexeme.keyword
    <|> (Spelled.search? word).map Lexeme.parameterModifier
    <|> (Spelled.search? word).map Lexeme.pointerLiteral

/-- The lexeme of a whole word; one that is not reserved is an identifier. -/
def ofWord (word : String) : Lexeme := (ofReserved? word).getD .identifier

/-- The kind below, the place in the table above; all ones for no lexeme. -/
def code (lexeme : Lexeme) : Nat :=
  match lexeme.kind? with
  | some kind => LexemeKind.all.idxOf kind + 256 * lexeme.place
  | none => 65535

def isValid (lexeme : Lexeme) : Bool := lexeme.kind?.isSome

def isLiteral (lexeme : Lexeme) : Bool := lexeme.kind?.any LexemeKind.isLiteral

def isIdentifier (lexeme : Lexeme) : Bool := lexeme = .identifier

/-- The spelling of words and punctuators, the kind's name for the others. -/
def text : Lexeme → String
  | .invalid => "invalid"
  | .booleanLiteral value => value.spelling
  | .functionModifier modifier => modifier.spelling
  | .keyword word => word.spelling
  | .parameterModifier modifier => modifier.spelling
  | .pointerLiteral value => value.spelling
  | .punctuator mark => mark.spelling
  | .binaryLiteral => "BinaryLiteral"
  | .characterLiteral => "CharacterLiteral"
  | .decimalLiteral => "DecimalLiteral"
  | .floatingLiteral => "FloatingLiteral"
  | .hexadecimalLiteral => "HexadecimalLiteral"
  | .identifier => "Identifier"
  | .stringLiteral => "StringLiteral"

def fullText (lexeme : Lexeme) : String :=
  match lexeme.kind? with
  | some kind =>
      if kind.name = lexeme.text then lexeme.text
      else kind.name ++ "(" ++ lexeme.text ++ ")"
  | none => lexeme.text

end Lexeme

end CppsFrontend
