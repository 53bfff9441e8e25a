import CppsFrontend.Diagnosis.Basic
import CppsFrontend.Lexeme.Basic

/-!
# Grammatical errors

What a production can find wrong with the tokens, and how it is reported.
-/

set_option autoImplicit false

namespace CppsFrontend

inductive GrammarError where
  | memberNameExpected
  | declarationExpected
  | initializerIllFormed
  | returnExpressionInvalid
  | statementInvalid
  | argumentInvalid
  | parameterListUnclosed
  | commaExpected
  | equalExpected
  | returnsExpected
  | declarationSemicolonExpected
  | statementSemicolonExpected
  | whileExpected
  | subscriptEmpty
  | textAfterArguments
  | argumentsExpected
  | bracketUnmatched
  | parenthesisUnmatched
  | unnamedNotFunction
  | unnamedWithNamedResults
  | expressionExpectedAfter (text : String)
  | resultModifierInvalid (modifier : ParameterModifier)
  | compoundExpectedAfter (word : Keyword)
deriving DecidableEq

def GrammarError.message : GrammarError → String
  | .memberNameExpected => "'.' must be followed by a valid member name"
  | .declarationExpected => "expected a declaration"
  | .initializerIllFormed => "ill-formed initializer"
  | .returnExpressionInvalid => "invalid return expression"
  | .statementInvalid => "invalid statement in compound-statement"
  | .argumentInvalid => "invalid text in expression list"
  | .parameterListUnclosed => "missing close parenthesis in parameter list"
  | .commaExpected => "missing comma between parameter declarations"
  | .equalExpected => "missing = before function body"
  | .returnsExpected => "missing function return after ->"
  | .declarationSemicolonExpected => "missing ';' at end of the declaration"
  | .statementSemicolonExpected => "missing ';' at the end of the statement"
  | .whileExpected => "missing 'while' after do body"
  | .subscriptEmpty => "subscript expression [ ] must not be empty"
  | .textAfterArguments => "unexpected text after expression-list"
  | .argumentsExpected => "unexpected text - ( is not followed by an expression-list"
  | .bracketUnmatched => "unexpected text - [ is not properly matched by ]"
  | .parenthesisUnmatched => "unexpected text - ( is not properly matched by )"
  | .unnamedNotFunction => "an unnamed declaration at expression scope must be a function"
  | .unnamedWithNamedResults =>
      "an unnamed function at expression scope currently cannot return multiple values"
  | .expressionExpectedAfter text => "invalid expression after " ++ text
  | .resultModifierInvalid modifier =>
      "a return value cannot be '" ++ modifier.spelling ++ "'"
  | .compoundExpectedAfter word => "missing compound-statement after " ++ word.spelling

def GrammarError.entry (error : GrammarError) (location : Location) : Entry :=
  .located error.message location

end CppsFrontend
