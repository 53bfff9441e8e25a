/-!
# Access to files

Commands reach files by path, and only through a `FileAccess`.
-/

set_option autoImplicit false

namespace CppsFrontend

inductive FileError where
  | noSuchFile
  | notDirectory
  | isDirectory
  | other (text : String)
deriving DecidableEq, Repr

def FileError.message : FileError → String
  | .noSuchFile => "No such file or directory (os error 2)"
  | .notDirectory => "Not a directory (os error 20)"
  | .isDirectory => "Is a directory (os error 21)"
  | .other text => text

structure FileAccess (m : Type → Type) where
  read : String → m (Except FileError (List UInt8))
  write : String → List UInt8 → m (Except FileError Unit)

end CppsFrontend
