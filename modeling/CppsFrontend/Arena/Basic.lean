import CppsFrontend.Arena.Bump
import CppsFrontend.Arena.Pool

/-!
# Arenas

An arena keeps values of several kinds, each kind in a pool of its own, and takes
the bytes of all of them from one bump allocator.  A value is reached by the handle
that its creation gives out, and only in the arena that gave it out.
-/

set_option autoImplicit false

namespace CppsFrontend

/-- How many bytes a value takes, and of what its place is a multiple. -/
structure Layout where
  size : Nat
  alignment : Nat
deriving DecidableEq, Repr

class NodeKinds (κ : Type) where
  Value : κ → Type
  layout : κ → Layout
  decEq : DecidableEq κ

instance (κ : Type) [NodeKinds κ] : DecidableEq κ := NodeKinds.decEq

structure Node {κ : Type} (kind : κ) where
  arena : Nat
  slot : Nat
  address : Address
deriving DecidableEq, Repr

open NodeKinds (Value layout)

variable {κ : Type} [NodeKinds κ]

/-- Pools of different kinds, in the order of their first values. -/
abbrev Pools (κ : Type) [NodeKinds κ] : Type :=
  List (Sigma fun kind : κ => Pool (Value kind))

namespace Pools

def find? (kind : κ) : Pools κ → Option (Pool (Value kind))
  | [] => none
  | ⟨other, pool⟩ :: rest =>
      if same : other = kind then some (same ▸ pool) else find? kind rest

def replace (kind : κ) (pool : Pool (Value kind)) : Pools κ → Pools κ
  | [] => [⟨kind, pool⟩]
  | entry :: rest =>
      if entry.1 = kind then ⟨kind, pool⟩ :: rest else entry :: replace kind pool rest

end Pools

/-- Values of several kinds; `id` tells arenas apart. -/
structure Arena (κ : Type) [NodeKinds κ] where
  id : Nat
  bump : Bump
  pools : Pools κ

namespace Arena

def start (id capacity : Nat) : Arena κ := ⟨id, .start capacity, []⟩

variable (arena : Arena κ)

def pool (kind : κ) : Pool (Value kind) := (Pools.find? kind arena.pools).getD .empty

def live (kind : κ) : Nat := (arena.pool kind).live

def create (kind : κ) (value : Value kind) : Except Breach (Node kind × Arena κ) := do
  let (address, bump) ← arena.bump.allocate (layout kind).size (layout kind).alignment
  let (slot, pool) := (arena.pool kind).insert value
  if slot < Pool.slotBound then
    return (⟨arena.id, slot, address⟩,
      { arena with bump := bump, pools := Pools.replace kind pool arena.pools })
  else .error (.slotTooLarge slot)

variable {kind : κ}

def get (node : Node kind) : Except Breach (Value kind) :=
  if node.arena ≠ arena.id then .error .foreignArenaUse
  else
    match (arena.pool kind).get? node.slot with
    | some value => .ok value
    | none => .error .deadNodeUse

def set (node : Node kind) (value : Value kind) : Except Breach (Arena κ) := do
  let _ ← arena.get node
  let pool := (arena.pool kind).set node.slot value
  return { arena with pools := Pools.replace kind pool arena.pools }

/-- Takes the value of a handle out; the handle is used up.  There is no value if
the handle has been used up before. -/
def destroy (node : Node kind) : Except Breach (Option (Value kind) × Arena κ) :=
  if node.arena ≠ arena.id then .error .foreignArenaRelease
  else
    match (arena.pool kind).get? node.slot with
    | none => .ok (none, arena)
    | some value => do
        let pool := (arena.pool kind).erase node.slot
        let bump ←
          arena.bump.deallocate node.address (layout kind).size (layout kind).alignment
        return (some value,
          { arena with bump := bump, pools := Pools.replace kind pool arena.pools })

def text : String :=
  "Arena \x7b pools: " ++ toString arena.pools.length ++ ", blocks: " ++
    toString arena.bump.blockCount ++ ", used_bytes: " ++ toString arena.bump.usedBytes ++
    " \x7d"

end Arena

end CppsFrontend
