/-!
# Places of files

A path leads step by step to a place.  Places are told apart by where the way to
them begins and by the names on it.  Each step of a path starts from a directory, so
a path may lead nowhere although its steps would cancel out.
-/

set_option autoImplicit false

namespace CppsFrontend

/-- Where a way begins: at the root, or some levels above the working directory. -/
inductive Anchor where
  | root
  | above (levels : Nat)
deriving DecidableEq, Repr

/-- The names on the way from an anchor down to a place, the last one first. -/
structure Place where
  anchor : Anchor
  names : List String
deriving DecidableEq, Repr

namespace Place

def root : Place := ⟨.root, []⟩

def working : Place := ⟨.above 0, []⟩

def parent (place : Place) : Place :=
  match place.names, place.anchor with
  | _ :: names, anchor => ⟨anchor, names⟩
  | [], .above levels => ⟨.above (levels + 1), []⟩
  | [], .root => place

/-- Where a step leads to: two points lead up, one point or nothing leads nowhere
else, and any other name leads down. -/
def step (place : Place) (name : String) : Place :=
  if name.isEmpty || name = "." then place
  else if name = ".." then place.parent
  else { place with names := name :: place.names }

def isBelow (place outer : Place) : Bool :=
  place.anchor = outer.anchor && place ≠ outer && outer.names.isSuffixOf place.names

def text (place : Place) : String := "/".intercalate place.names.reverse

@[simp] theorem parent_step (place : Place) (name : String) (named : name ≠ "")
    (down : name ≠ "." ∧ name ≠ "..") : (place.step name).parent = place := by
  simp [step, parent, named, down]

end Place

namespace Path

def origin (path : String) : Place :=
  if path.toList.head? = some '/' then .root else .working

/-- The steps of a path, with an empty one behind each slash that no name follows. -/
def steps (path : String) : List String := path.splitOn "/"

def endsWithSlash (path : String) : Bool := path.toList.getLast? = some '/'

def stepsToName (path : String) : List String :=
  ((steps path).reverse.dropWhile String.isEmpty).reverse

end Path

end CppsFrontend
