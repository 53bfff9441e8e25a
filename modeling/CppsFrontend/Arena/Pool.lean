/-!
# Pools

A pool keeps values of one type in slots.  A value is put behind all others, and
its slot stays its own until it is taken out.
-/

set_option autoImplicit false

namespace CppsFrontend

/-- Values by slot, and how many there are; a slot whose value has been taken out is
empty. -/
structure Pool (α : Type) where
  slots : Array (Option α)
  live : Nat

namespace Pool

variable {α : Type}

def slotBound : Nat := 4294967296

def empty : Pool α := ⟨#[], 0⟩

def get? (pool : Pool α) (slot : Nat) : Option α := pool.slots[slot]?.join

def insert (pool : Pool α) (value : α) : Nat × Pool α :=
  (pool.slots.size, ⟨pool.slots.push (some value), pool.live + 1⟩)

def set (pool : Pool α) (slot : Nat) (value : α) : Pool α :=
  { pool with slots := pool.slots.setIfInBounds slot (some value) }

/-- The pool without the value in a slot.  Empty slots behind all values are given
up, to be used again. -/
def erase (pool : Pool α) (slot : Nat) : Pool α :=
  ⟨(pool.slots.setIfInBounds slot none).popWhile Option.isNone, pool.live - 1⟩

end Pool

end CppsFrontend
