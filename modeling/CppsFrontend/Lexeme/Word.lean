/-!
# Reserved words

The words that are not identifiers, in five tables: keywords, parameter
modifiers, function modifiers, and the words for truth values and the null
pointer.  Each table is in the order of its spellings.
-/

set_option autoImplicit false

namespace CppsFrontend

/-- Reserved words, in the order of their spellings. -/
inductive Keyword where
  | alignasWord | alignofWord | asWord | asmWord | autoWord | boolWord | breakWord | caseWord
  | catchWord | charWord | char16Word | char32Word | char8Word | classWord | coAwaitWord
  | coReturnWord | coYieldWord | conceptWord | constWord | constCastWord | constevalWord
  | constexprWord | constinitWord | continueWord | decltypeWord | defaultWord | doWord
  | doubleWord | dynamicCastWord | elseWord | enumWord | explicitWord | exportWord | externWord
  | floatWord | forWord | friendWord | gotoWord | ifWord | importWord | inlineWord | intWord
  | isWord | longWord | moduleWord | mutableWord | namespaceWord | newWord | noexceptWord
  | notWord | operatorWord | privateWord | protectedWord | publicWord | registerWord
  | reinterpretCastWord | requiresWord | returnWord | shortWord | signedWord | sizeofWord
  | staticWord | staticAssertWord | staticCastWord | structWord | switchWord | templateWord
  | thisWord | threadLocalWord | throwWord | throwsWord | tryWord | typedefWord | typeidWord
  | typenameWord | unsignedWord | usingWord | voidWord | volatileWord | wcharTWord | whileWord
deriving DecidableEq

namespace Keyword

def spelling : Keyword → String
  | .alignasWord => "alignas"
  | .alignofWord => "alignof"
  | .asWord => "as"
  | .asmWord => "asm"
  | .autoWord => "auto"
  | .boolWord => "bool"
  | .breakWord => "break"
  | .caseWord => "case"
  | .catchWord => "catch"
  | .charWord => "char"
  | .char16Word => "char16_t"
  | .char32Word => "char32_t"
  | .char8Word => "char8_t"
  | .classWord => "class"
  | .coAwaitWord => "co_await"
  | .coReturnWord => "co_return"
  | .coYieldWord => "co_yield"
  | .conceptWord => "concept"
  | .constWord => "const"
  | .constCastWord => "const_cast"
  | .constevalWord => "consteval"
  | .constexprWord => "constexpr"
  | .constinitWord => "constinit"
  | .continueWord => "continue"
  | .decltypeWord => "decltype"
  | .defaultWord => "default"
  | .doWord => "do"
  | .doubleWord => "double"
  | .dynamicCastWord => "dynamic_cast"
  | .elseWord => "else"
  | .enumWord => "enum"
  | .explicitWord => "explicit"
  | .exportWord => "export"
  | .externWord => "extern"
  | .floatWord => "float"
  | .forWord => "for"
  | .friendWord => "friend"
  | .gotoWord => "goto"
  | .ifWord => "if"
  | .importWord => "import"
  | .inlineWord => "inline"
  | .intWord => "int"
  | .isWord => "is"
  | .longWord => "long"
  | .moduleWord => "module"
  | .mutableWord => "mutable"
  | .namespaceWord => "namespace"
  | .newWord => "new"
  | .noexceptWord => "noexcept"
  | .notWord => "not"
  | .operatorWord => "operator"
  | .privateWord => "private"
  | .protectedWord => "protected"
  | .publicWord => "public"
  | .registerWord => "register"
  | .reinterpretCastWord => "reinterpret_cast"
  | .requiresWord => "requires"
  | .returnWord => "return"
  | .shortWord => "short"
  | .signedWord => "signed"
  | .sizeofWord => "sizeof"
  | .staticWord => "static"
  | .staticAssertWord => "static_assert"
  | .staticCastWord => "static_cast"
  | .structWord => "struct"
  | .switchWord => "switch"
  | .templateWord => "template"
  | .thisWord => "this"
  | .threadLocalWord => "thread_local"
  | .throwWord => "throw"
  | .throwsWord => "throws"
  | .tryWord => "try"
  | .typedefWord => "typedef"
  | .typeidWord => "typeid"
  | .typenameWord => "typename"
  | .unsignedWord => "unsigned"
  | .usingWord => "using"
  | .voidWord => "void"
  | .volatileWord => "volatile"
  | .wcharTWord => "wchar_t"
  | .whileWord => "while"

def all : List Keyword := [
  .alignasWord, .alignofWord, .asWord, .asmWord, .autoWord, .boolWord, .breakWord, .caseWord,
  .catchWord, .charWord, .char16Word, .char32Word, .char8Word, .classWord, .coAwaitWord,
  .coReturnWord, .coYieldWord, .conceptWord, .constWord, .constCastWord, .constevalWord,
  .constexprWord, .constinitWord, .continueWord, .decltypeWord, .defaultWord, .doWord,
  .doubleWord, .dynamicCastWord, .elseWord, .enumWord, .explicitWord, .exportWord, .externWord,
  .floatWord, .forWord, .friendWord, .gotoWord, .ifWord, .importWord, .inlineWord, .intWord,
  .isWord, .longWord, .moduleWord, .mutableWord, .namespaceWord, .newWord, .noexceptWord,
  .notWord, .operatorWord, .privateWord, .protectedWord, .publicWord, .registerWord,
  .reinterpretCastWord, .requiresWord, .returnWord, .shortWord, .signedWord, .sizeofWord,
  .staticWord, .staticAssertWord, .staticCastWord, .structWord, .switchWord, .templateWord,
  .thisWord, .threadLocalWord, .throwWord, .throwsWord, .tryWord, .typedefWord, .typeidWord,
  .typenameWord, .unsignedWord, .usingWord, .voidWord, .volatileWord, .wcharTWord, .whileWord]

end Keyword

inductive ParameterModifier where
  | copy | forward | input | inOut | move | output
deriving DecidableEq

namespace ParameterModifier

def spelling : ParameterModifier → String
  | .copy => "copy"
  | .forward => "forward"
  | .input => "in"
  | .inOut => "inout"
  | .move => "move"
  | .output => "out"

def all : List ParameterModifier := [
  .copy, .forward, .input, .inOut, .move, .output]

end ParameterModifier

inductive FunctionModifier where
  | final | implicit | override | virtual
deriving DecidableEq

namespace FunctionModifier

def spelling : FunctionModifier → String
  | .final => "final"
  | .implicit => "implicit"
  | .override => "override"
  | .virtual => "virtual"

def all : List FunctionModifier := [
  .final, .implicit, .override, .virtual]

end FunctionModifier

inductive BooleanLiteral where
  | falseValue | trueValue
deriving DecidableEq

namespace BooleanLiteral

def spelling : BooleanLiteral → String
  | .falseValue => "false"
  | .trueValue => "true"

def all : List BooleanLiteral := [
  .falseValue, .trueValue]

end BooleanLiteral

inductive PointerLiteral where
  | nullptr
deriving DecidableEq

namespace PointerLiteral

def spelling : PointerLiteral → String
  | .nullptr => "nullptr"

def all : List PointerLiteral := [
  .nullptr]

end PointerLiteral

end CppsFrontend
