import CppsFrontend.Proofs.Arena.Allocations
import CppsFrontend.Proofs.Arena.Pools

/-!
# What an arena keeps

An arena keeps a list of values with their handles: each handle finds its value, no two
handles are in each other's way, and the arena counts what it keeps.  Every operation on a
handle that is in the list does what it says and changes the list at that handle only.
-/

set_option autoImplicit false

namespace CppsFrontend

open NodeKinds (Value layout)

variable {κ : Type} [NodeKinds κ]

structure Kept (κ : Type) [NodeKinds κ] where
  kind : κ
  node : Node kind
  value : Value kind

/-- Handles of different bytes, and of different slots if they are of one kind. -/
def Kept.Apart (first second : Kept κ) : Prop :=
  first.node.address ≠ second.node.address ∧
    (first.kind = second.kind → first.node.slot ≠ second.node.slot)

theorem Kept.Apart.symm {first second : Kept κ} (apart : first.Apart second) :
    second.Apart first :=
  ⟨apart.1.symm, fun same => (apart.2 same.symm).symm⟩

/-- An arena that keeps some values and no others. -/
structure Arena.Keeps (number capacity : Nat) (arena : Arena κ) (kept : List (Kept κ)) : Prop where
  numbered : arena.id = number
  sized : arena.bump.capacity = capacity
  descends : arena.bump.Descends
  own : ∀ entry ∈ kept, entry.node.arena = number
  found : ∀ entry ∈ kept, (arena.pool entry.kind).get? entry.node.slot = some entry.value
  taken : ∀ entry ∈ kept,
    Bump.Taken arena.bump.places entry.node.address (layout entry.kind).size
  apart : kept.Pairwise Kept.Apart
  counted : ∀ kind, arena.live kind = kept.countP (·.kind = kind)

def Exhausts {α : Type} (result : Except Breach α) : Prop :=
  ∃ slot, Pool.slotBound ≤ slot ∧ result = .error (.slotTooLarge slot)

namespace Arena

variable {number capacity : Nat} {arena : Arena κ} {kept before behind : List (Kept κ)}
variable {kind : κ} {node : Node kind} {value : Value kind} {entry : Kept κ}

theorem keeps_start (number capacity : Nat) :
    (start number capacity : Arena κ).Keeps number capacity [] where
  numbered := rfl
  sized := rfl
  descends := List.pairwise_singleton ..
  own := nofun
  found := nofun
  taken := nofun
  apart := .nil
  counted _ := rfl

/-! ## One pool changes -/

/-- What a pool does with one slot leaves the values of all other handles alone. -/
theorem get?_withPool {pool : Pool (Value kind)} {slot : Nat} (bump : Bump)
    (others : ∀ other, other ≠ slot → pool.get? other = (arena.pool kind).get? other)
    (apart : entry.kind = kind → entry.node.slot ≠ slot) :
    ((arena.withPool bump kind pool).pool entry.kind).get? entry.node.slot =
      (arena.pool entry.kind).get? entry.node.slot := by
  obtain ⟨other, handle, stored⟩ := entry
  by_cases same : other = kind
  · subst same
    rw [withPool_pool_self]
    exact others _ (apart rfl)
  · rw [withPool_pool_other _ _ same]

theorem live_withPool (bump : Bump) (pool : Pool (Value kind)) (other : κ) :
    (arena.withPool bump kind pool).live other =
      if other = kind then pool.live else arena.live other := by
  split
  · rename_i same
    rw [same, live, withPool_pool_self]
  · rename_i different
    rw [live, live, withPool_pool_other _ _ different]

theorem countP_kind (entry : Kept κ) (kind : κ) (before behind : List (Kept κ)) :
    (before ++ entry :: behind).countP (·.kind = kind) =
      (before ++ behind).countP (·.kind = kind) + if kind = entry.kind then 1 else 0 := by
  rw [List.countP_append, List.countP_append, List.countP_cons, Nat.add_assoc]
  simp [eq_comm]

theorem forall_mem_middle {entry : Kept κ} {before behind : List (Kept κ)}
    {property : Kept κ → Prop} :
    (∀ other ∈ before ++ entry :: behind, property other) ↔
      property entry ∧ ∀ other ∈ before ++ behind, property other := by
  simp only [List.forall_mem_append, List.forall_mem_cons]
  exact and_left_comm

/-! ## Operations -/

namespace Keeps

theorem perm {other : List (Kept κ)} (keeps : arena.Keeps number capacity kept)
    (same : kept.Perm other) : arena.Keeps number capacity other where
  numbered := keeps.numbered
  sized := keeps.sized
  descends := keeps.descends
  own entry member := keeps.own entry (same.mem_iff.mpr member)
  found entry member := keeps.found entry (same.mem_iff.mpr member)
  taken entry member := keeps.taken entry (same.mem_iff.mpr member)
  apart := same.pairwise keeps.apart Kept.Apart.symm
  counted kind := (keeps.counted kind).trans (same.countP_eq _)

theorem get (keeps : arena.Keeps number capacity kept) (member : ⟨kind, node, value⟩ ∈ kept) :
    arena.get node = .ok value := by
  have own : node.arena = number := keeps.own _ member
  have found : (arena.pool kind).get? node.slot = some value := keeps.found _ member
  rw [Arena.get, own, keeps.numbered, if_neg (not_not_intro rfl), found]

/-- Without a slot that a handle can name, there is no new value. -/
theorem create_exhausts (keeps : arena.Keeps number capacity kept)
    (fits : (layout kind).Fits capacity) (value : Value kind)
    (full : Pool.slotBound ≤ (arena.pool kind).slots.size) :
    Exhausts (arena.create kind value) := by
  refine ⟨_, full, ?_⟩
  rw [Arena.create, Bump.allocate_eq (keeps.sized.symm ▸ fits)]
  exact if_neg (Nat.not_lt.mpr full)

/-- A value is kept behind all others, by a handle of its own. -/
theorem create (keeps : arena.Keeps number capacity kept) (fits : (layout kind).Fits capacity)
    (value : Value kind) (room : (arena.pool kind).slots.size < Pool.slotBound) :
    ∃ node after, arena.create kind value = .ok (node, after) ∧
      after.Keeps number capacity (kept ++ [⟨kind, node, value⟩]) := by
  let address := arena.bump.next (layout kind).size (layout kind).alignment
  let bump : Bump :=
    { arena.bump with current := address, marks := arena.bump.current :: arena.bump.marks }
  let slot := ((arena.pool kind).insert value).1
  let pool := ((arena.pool kind).insert value).2
  have descends := keeps.descends.next fits.positive (layout kind).alignment
  have reaches := arena.bump.next_reaches (layout kind).size (layout kind).alignment
  -- The slot is empty before, so no handle of the kind has it.
  have fresh : ∀ entry ∈ kept, entry.kind = kind → entry.node.slot ≠ slot := by
    rintro ⟨other, handle, stored⟩ member rfl same
    have found := keeps.found _ member
    rw [same, Pool.get?_fresh] at found
    cases found
  have others : ∀ other, other ≠ slot → pool.get? other = (arena.pool kind).get? other :=
    fun _ different => Pool.get?_insert_other different
  refine ⟨⟨arena.id, slot, address⟩, arena.withPool bump kind pool, ?_, ?_⟩
  · rw [Arena.create, Bump.allocate_eq (keeps.sized.symm ▸ fits)]
    exact if_pos room
  · refine ⟨keeps.numbered, keeps.sized, descends, ?_, ?_, ?_, ?_, ?_⟩
    · intro entry member
      rcases List.mem_append.mp member with member | member
      · exact keeps.own entry member
      · rw [List.mem_singleton.mp member]
        exact keeps.numbered
    · intro entry member
      rcases List.mem_append.mp member with member | member
      · rw [get?_withPool bump others (fresh entry member)]
        exact keeps.found entry member
      · rw [List.mem_singleton.mp member, withPool_pool_self]
        exact Pool.get?_insert_self
    · intro entry member
      rcases List.mem_append.mp member with member | member
      · exact (keeps.taken entry member).cons
      · rw [List.mem_singleton.mp member]
        exact ⟨[], arena.bump.current, arena.bump.marks, rfl, reaches⟩
    · refine List.pairwise_append.mpr ⟨keeps.apart, List.pairwise_singleton .., ?_⟩
      intro entry member other new
      rw [List.mem_singleton.mp new]
      have below := (List.pairwise_cons.mp descends).1 _ (keeps.taken entry member).mem
      exact ⟨below.ne.symm, fresh entry member⟩
    · intro other
      rw [live_withPool, countP_kind, List.append_nil, ← keeps.counted]
      split
      · rename_i same
        rw [same]
        exact Pool.live_insert
      · rfl

theorem set (keeps : arena.Keeps number capacity (before ++ ⟨kind, node, value⟩ :: behind))
    (next : Value kind) :
    ∃ after, arena.set node next = .ok after ∧
      after.Keeps number capacity (before ++ ⟨kind, node, next⟩ :: behind) := by
  obtain ⟨own, ownOthers⟩ := forall_mem_middle.mp keeps.own
  obtain ⟨held, found⟩ := forall_mem_middle.mp keeps.found
  obtain ⟨taken, takenOthers⟩ := forall_mem_middle.mp keeps.taken
  have apart := (List.pairwise_middle Kept.Apart.symm).mp keeps.apart
  have clear := (List.pairwise_cons.mp apart).1
  have others : ∀ other, other ≠ node.slot →
      ((arena.pool kind).set node.slot next).get? other = (arena.pool kind).get? other :=
    fun _ different => Pool.get?_set_other different
  refine ⟨arena.withPool arena.bump kind ((arena.pool kind).set node.slot next), ?_, ?_⟩
  · have stored : arena.get node = .ok value := keeps.get (by simp)
    rw [Arena.set, stored]
    rfl
  · refine ⟨keeps.numbered, keeps.sized, keeps.descends, ?_, ?_, ?_, ?_, ?_⟩
    · exact forall_mem_middle.mpr ⟨own, ownOthers⟩
    · refine forall_mem_middle.mpr ⟨?_, ?_⟩
      · rw [withPool_pool_self]
        exact Pool.get?_set_self held
      · intro entry member
        rw [get?_withPool _ others ((clear entry member).symm).2]
        exact found entry member
    · exact forall_mem_middle.mpr ⟨taken, takenOthers⟩
    · exact (List.pairwise_middle Kept.Apart.symm).mpr
        (List.pairwise_cons.mpr ⟨clear, (List.pairwise_cons.mp apart).2⟩)
    · intro other
      have counted := keeps.counted other
      rw [countP_kind] at counted
      rw [live_withPool, countP_kind, ← counted]
      split
      · rename_i same
        rw [same]
        rfl
      · rfl

/-- A handle in the list is used up and gives its value back. -/
theorem destroy (keeps : arena.Keeps number capacity (before ++ ⟨kind, node, value⟩ :: behind))
    (power : Bump.isPowerOfTwo (layout kind).alignment = true) :
    ∃ after, arena.destroy node = .ok (some value, after) ∧
      after.Keeps number capacity (before ++ behind) := by
  obtain ⟨own, ownOthers⟩ := forall_mem_middle.mp keeps.own
  obtain ⟨held, found⟩ := forall_mem_middle.mp keeps.found
  obtain ⟨taken, takenOthers⟩ := forall_mem_middle.mp keeps.taken
  have apart := (List.pairwise_middle Kept.Apart.symm).mp keeps.apart
  have clear := (List.pairwise_cons.mp apart).1
  have others : ∀ other, other ≠ node.slot →
      ((arena.pool kind).erase node.slot).get? other = (arena.pool kind).get? other :=
    fun _ different => Pool.get?_erase_other different
  obtain ⟨bump, given, sized, descends, stay⟩ :=
    Bump.deallocate_taken keeps.descends power taken
  refine ⟨arena.withPool bump kind ((arena.pool kind).erase node.slot), ?_, ?_⟩
  · rw [Arena.destroy, if_neg (not_not_intro (own.trans keeps.numbered.symm)), held]
    simp only [given]
    rfl
  · refine ⟨keeps.numbered, sized.trans keeps.sized, descends, ownOthers, ?_, ?_, ?_, ?_⟩
    · intro entry member
      rw [get?_withPool _ others ((clear entry member).symm).2]
      exact found entry member
    · intro entry member
      exact stay _ _ ((clear entry member).symm).1 (takenOthers entry member)
    · exact (List.pairwise_cons.mp apart).2
    · intro other
      have counted := keeps.counted other
      rw [countP_kind] at counted
      rw [live_withPool]
      split
      · rename_i same
        rw [if_pos same, same] at counted
        rw [Pool.live_erase, same]
        exact Nat.sub_eq_of_eq_add counted
      · rename_i different
        rw [if_neg different] at counted
        exact counted

end Keeps

end Arena

end CppsFrontend
