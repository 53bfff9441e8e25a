import CppsFrontend.Grammar.Production
import CppsFrontend.Tree.Basic

/-!
# Productions for names
-/

set_option autoImplicit false

namespace CppsFrontend.Grammar

open Production

/-- Identifiers and keywords both name things. -/
def isNaming : Lexeme → Bool
  | .identifier | .keyword _ => true
  | _ => false

/-- A name, perhaps after `const`.  A name before `<` fails, because there are no
template arguments. -/
def unqualifiedIdentifier : Production UnqualifiedIdentifier :=
  restoring do
    let constant ←
      if (← check (.keyword .constWord)) && isNaming (← peek 1).lexeme then
        some <$> advance
      else pure none
    if isNaming (← lexeme) && (← peek 1).lexeme ≠ .punctuator .less then
      return ⟨constant, ← advance⟩
    else fail

def scopedRound : Production (Round ScopedIdentifier) := do
  match ← eat (.punctuator .doubleColon) with
  | some scope => return .more ⟨scope, ← unqualifiedIdentifier⟩
  | none => return .stop

def qualifiedIdentifier : Production Identifier :=
  restoring do
    let first ← unqualifiedIdentifier
    if ← check (.punctuator .doubleColon) then
      return .qualified first (← collect scopedRound)
    else fail

def identifierExpression : Production IdentifierExpression := do
  let location := (← current).location
  let identifier ← either qualifiedIdentifier (.unqualified <$> unqualifiedIdentifier)
  return ⟨identifier, location⟩

end CppsFrontend.Grammar
