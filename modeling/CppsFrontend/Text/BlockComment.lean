/-!
# The end of a block comment
-/

set_option autoImplicit false

namespace CppsFrontend.Text

/-- The text up to and with the first `*/`, and whether there is one; all of the
text if not. -/
def throughCommentEnd : List Char → List Char × Bool
  | '*' :: '/' :: _ => (['*', '/'], true)
  | c :: rest =>
      let after := throughCommentEnd rest
      (c :: after.1, after.2)
  | [] => ([], false)

end CppsFrontend.Text
