import CppsFrontend.Command.Files
import CppsFrontend.Command.Place

/-!
# File trees

A file tree holds files in memory that are reached like those of a system.  There
is a directory wherever the way to a file leads through, the directories above the
working directory exist, and so do those that every system has.
-/

set_option autoImplicit false

namespace CppsFrontend

inductive Occupant where
  | nothing
  | directory
  | file (bytes : List UInt8)
deriving DecidableEq, Repr

/-- Files with their places, each file once. -/
structure FileTree where
  files : List (Place × List UInt8)

namespace FileTree

/-- The device that holds nothing and takes everything. -/
def nullDevice : Place := ⟨.root, ["null", "dev"]⟩

def temporary : Place := ⟨.root, ["tmp"]⟩

def ofFiles (files : List (String × List UInt8)) : FileTree :=
  ⟨files.map fun file =>
    ((Path.steps file.1).foldl Place.step (Path.origin file.1), file.2)⟩

variable (tree : FileTree)

def isDirectory (place : Place) : Bool :=
  place.names.isEmpty || place = temporary || nullDevice.isBelow place ||
    tree.files.any fun file => file.1.isBelow place

def occupant (place : Place) : Occupant :=
  if place = nullDevice then .file []
  else
    match tree.files.lookup place with
    | some bytes => .file bytes
    | none => if tree.isDirectory place then .directory else .nothing

def walk (place : Place) : List String → Except FileError Place
  | [] => .ok place
  | name :: rest =>
      match tree.occupant place with
      | .directory => walk (place.step name) rest
      | .file _ => .error .notDirectory
      | .nothing => .error .noSuchFile

def read (path : String) : Except FileError (List UInt8) :=
  if path.isEmpty then .error .noSuchFile
  else do
    match tree.occupant (← tree.walk (Path.origin path) (Path.steps path)) with
    | .file bytes => .ok bytes
    | .directory => .error .isDirectory
    | .nothing => .error .noSuchFile

def put (place : Place) (bytes : List UInt8) : FileTree :=
  if place = nullDevice then tree
  else ⟨(place, bytes) :: tree.files.filter fun file => file.1 ≠ place⟩

/-- The tree with given bytes, and no others, in the file at the end of a path.  A
file is made where there is none, but not for a path that asks for a directory. -/
def write (path : String) (bytes : List UInt8) : Except FileError FileTree :=
  if path.isEmpty then .error .noSuchFile
  else do
    let place ← tree.walk (Path.origin path) (Path.stepsToName path)
    if Path.endsWithSlash path || tree.occupant place = .directory then .error .isDirectory
    else .ok (tree.put place bytes)

def access : FileAccess (StateM FileTree) where
  read path := return (← get).read path
  write path bytes := do
    match (← get).write path bytes with
    | .ok tree =>
        set tree
        return .ok ()
    | .error error => return .error error

/-- The files in the working directory that are not in an earlier tree, or have other
bytes there. -/
def changedSince (earlier : FileTree) : List (String × List UInt8) :=
  (tree.files.filter fun file =>
    file.1.anchor = .above 0 && earlier.files.lookup file.1 ≠ some file.2).map
      fun file => (file.1.text, file.2)

end FileTree

end CppsFrontend
