import CppsFrontend.Arena.Basic
import CppsFrontend.Token.Stream

/-!
# Variants

A variant holds one handle, or the place of a token, or nothing.  What it holds can
be replaced, and what was there is then given back to the arena.
-/

set_option autoImplicit false

namespace CppsFrontend

inductive Variant (κ : Type) where
  | empty
  | node (kind : κ) (handle : Node kind)
  | token (token : TokenId)

namespace Variant

variable {κ : Type} [NodeKinds κ]

def isEmpty : Variant κ → Bool
  | .empty => true
  | _ => false

def isNode (kind : κ) : Variant κ → Bool
  | .node held _ => held = kind
  | _ => false

def isToken : Variant κ → Bool
  | .token _ => true
  | _ => false

def release (variant : Variant κ) (arena : Arena κ) : Except Breach (Arena κ) :=
  match variant with
  | .empty | .token _ => .ok arena
  | .node _ handle => do return (← arena.destroy handle).2

/-- Puts something else into the variant, and gives back what was there. -/
def replace (variant value : Variant κ) (arena : Arena κ) :
    Except Breach (Variant κ × Arena κ) := do
  return (value, ← variant.release arena)

def take (variant : Variant κ) : Variant κ × Variant κ := (variant, .empty)

end Variant

end CppsFrontend
