import CppsFrontend.Grammar.Production
import CppsFrontend.Tree.Basic

/-!
# Nested productions

Declarations hold statements, statements hold expressions, and expressions hold
both.  Productions take what may stand inside them as a parameter, and use it
only after they have passed a token of their own; the nesting of a file is
therefore no deeper than its tokens.
-/

set_option autoImplicit false

namespace CppsFrontend.Grammar

/-- The productions for what stands inside others.  A statement knows whether it
must end with a semicolon, and the `=` of the declaration that it initializes;
a declaration knows whether it must end with a semicolon. -/
structure Nested where
  statement : Bool → Option Location → Production Statement
  expression : Production Expression
  declaration : Bool → Production Declaration

def Nested.none : Nested :=
  ⟨fun _ _ => Production.fail, Production.fail, fun _ => Production.fail⟩

end CppsFrontend.Grammar
