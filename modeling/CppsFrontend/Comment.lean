import CppsFrontend.Location

/-!
# Comments

Comments are kept beside the tokens, with the locations of their first and last
bytes.
-/

set_option autoImplicit false

namespace CppsFrontend

inductive CommentKind where
  | line
  | block
deriving DecidableEq, Repr

/-- A comment.  A block comment over several lines has the fragments of its lines
joined as its text, and an unknown last location as long as it is not closed. -/
structure Comment where
  kind : CommentKind
  text : String
  first : Location
  last : Location
deriving DecidableEq, Repr

end CppsFrontend
