/-!
# Source locations

A location is a line and a byte column, both counted from zero.  Either axis
may be unknown, so that a report can name a whole line, or nothing at all.
Locations read off indices saturate: an index at or past `Location.bound`
becomes unknown, and an unknown axis sorts after every known one.
-/

set_option autoImplicit false

namespace CppsFrontend

/-- A position in a source text; an axis that is `none` is unknown. -/
structure Location where
  line : Option Nat
  column : Option Nat
deriving DecidableEq, Repr

namespace Location

/-- The first index that is not an axis value, and the rank of an unknown axis. -/
def bound : Nat := 4294967295

/-- The axis that an index names: unknown from `bound` on. -/
def axis (index : Nat) : Option Nat :=
  if index < bound then some index else none

/-- The rank of an axis among all axes; an unknown axis ranks last. -/
def rank : Option Nat → Nat
  | some index => index
  | none => bound

def unknown : Location := ⟨none, none⟩

instance : Inhabited Location := ⟨unknown⟩

def ofIndices (line column : Nat) : Location := ⟨axis line, axis column⟩

def wholeLine (line : Nat) : Location := ⟨axis line, none⟩

def hasLine (location : Location) : Bool := location.line.isSome

def hasColumn (location : Location) : Bool := location.column.isSome

def isKnown (location : Location) : Bool := location.hasLine && location.hasColumn

def shifted (location : Location) (count : Nat) : Location :=
  { location with column := axis (rank location.column + count) }

/-- Reading order: by line, then by column. -/
def order (first second : Location) : Ordering :=
  (compare (rank first.line) (rank second.line)).then
    (compare (rank first.column) (rank second.column))

def text (location : Location) : String :=
  match location.line, location.column with
  | some line, some column => toString line ++ ", " ++ toString column
  | some line, none => toString line
  | none, _ => "invalid"

def bracedText (location : Location) : String :=
  "\x7b" ++ location.text ++ "\x7d"

@[simp] theorem axis_of_lt (index : Nat) (below : index < bound) :
    axis index = some index := by
  simp [axis, below]

@[simp] theorem axis_rank_none : axis (rank none) = none := by
  simp [axis, rank]

theorem rank_axis_of_lt (index : Nat) (below : index < bound) :
    rank (axis index) = index := by
  simp [below, rank]

end Location

end CppsFrontend
