import CppsFrontend.Breach

/-!
# Bump allocation

Bytes are handed out downwards from the top of a block.  What does not fit below
the current place is taken from the top of a new block.  Every allocation leaves a
mark of where it began, and only the latest one can be given back: the allocator
then stands at that mark again.
-/

set_option autoImplicit false

namespace CppsFrontend

structure Address where
  block : Nat
  offset : Nat
deriving DecidableEq, Repr

/-- Blocks of one capacity, the place below which the next allocation is made, and
the places before each allocation, latest first. -/
structure Bump where
  capacity : Nat
  current : Address
  marks : List Address
deriving DecidableEq, Repr

namespace Bump

def start (capacity : Nat) : Bump := ⟨capacity, ⟨0, capacity⟩, []⟩

def isPowerOfTwo (value : Nat) : Bool := value = Nat.pow 2 value.log2

def alignDown (value alignment : Nat) : Nat := value - value % alignment

variable (bump : Bump)

def blockCount : Nat := bump.current.block + 1

def reservedBytes : Nat := bump.blockCount * bump.capacity

/-- The bytes handed out, with earlier blocks counted as full. -/
def usedBytes : Nat :=
  bump.current.block * bump.capacity + (bump.capacity - bump.current.offset)

def next (size alignment : Nat) : Address :=
  if size ≤ bump.current.offset then
    ⟨bump.current.block, alignDown (bump.current.offset - size) alignment⟩
  else ⟨bump.current.block + 1, alignDown (bump.capacity - size) alignment⟩

/-- Hands out bytes.  No allocation is larger than a block. -/
def allocate (size alignment : Nat) : Except Breach (Address × Bump) :=
  if !isPowerOfTwo alignment then .error .alignmentNotPowerOfTwo
  else if bump.capacity < size then .error .allocationLargerThanBlock
  else
    let address := bump.next size alignment
    .ok (address, { bump with current := address, marks := bump.current :: bump.marks })

/-- Gives bytes back.  Nothing changes unless they are the latest ones handed out. -/
def deallocate (address : Address) (size alignment : Nat) : Except Breach Bump :=
  if !isPowerOfTwo alignment then .error .alignmentNotPowerOfTwo
  else if address ≠ bump.current then .ok bump
  else
    match bump.marks with
    | [] => .ok bump
    | mark :: marks =>
        if mark.block < address.block || address.offset + size ≤ mark.offset then
          .ok { bump with current := mark, marks := marks }
        else .error .deallocationExceedsAllocation

end Bump

end CppsFrontend
