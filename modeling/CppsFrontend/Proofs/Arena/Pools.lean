import CppsFrontend.Arena.Basic

/-!
# Slots of a pool

Each slot of a pool is on its own: what is done with the value in one leaves the values in
all others alone, although empty slots behind all values are given up and used again.
-/

set_option autoImplicit false

namespace CppsFrontend

namespace Pool

variable {α : Type} {pool : Pool α} {slot other : Nat} {value old : α}

theorem lt_size_of_get? (held : pool.get? slot = some value) : slot < pool.slots.size := by
  apply Nat.lt_of_not_le
  intro past
  rw [get?, Array.getElem?_eq_none past] at held
  cases held

/-! ## Insertion -/

theorem get?_fresh : pool.get? (pool.insert value).1 = none := by
  simp [insert, get?]

theorem get?_insert_self : (pool.insert value).2.get? (pool.insert value).1 = some value := by
  simp [insert, get?]

theorem get?_insert_other (different : other ≠ (pool.insert value).1) :
    (pool.insert value).2.get? other = pool.get? other := by
  have apart : other ≠ pool.slots.size := different
  simp only [insert, get?, Array.getElem?_push, if_neg apart]

@[simp] theorem live_insert : (pool.insert value).2.live = pool.live + 1 := rfl

@[simp] theorem size_insert : (pool.insert value).2.slots.size = pool.slots.size + 1 :=
  Array.size_push ..

/-! ## Change -/

theorem get?_set_self (held : pool.get? slot = some old) :
    (pool.set slot value).get? slot = some value := by
  rw [set, get?, Array.getElem?_setIfInBounds_self_of_lt (lt_size_of_get? held)]
  rfl

theorem get?_set_other (different : other ≠ slot) :
    (pool.set slot value).get? other = pool.get? other := by
  rw [set, get?, get?, Array.getElem?_setIfInBounds_ne (Ne.symm different)]

@[simp] theorem size_set : (pool.set slot value).slots.size = pool.slots.size :=
  Array.size_setIfInBounds ..

/-! ## Removal -/

theorem exists_popWhile (passes : α → Bool) (values : Array α) :
    ∃ dropped, values = values.popWhile passes ++ dropped ∧
      ∀ value ∈ dropped, passes value = true := by
  fun_induction Array.popWhile passes values with
  | case1 values nonempty passed induction =>
      obtain ⟨dropped, same, all⟩ := induction
      refine ⟨dropped.push values[values.size - 1], ?_, ?_⟩
      · rw [Array.append_push, ← same]
        obtain ⟨front, last, whole⟩ := Array.eq_push_of_size_ne_zero (Nat.ne_of_gt nonempty)
        simp [whole]
      · intro value member
        rcases Array.mem_push.mp member with member | rfl
        · exact all value member
        · exact passed
  | case2 values nonempty passed => exact ⟨#[], by simp, by simp⟩
  | case3 values empty => exact ⟨#[], by simp, by simp⟩

theorem join_popWhile (slots : Array (Option α)) (slot : Nat) :
    (slots.popWhile Option.isNone)[slot]?.join = slots[slot]?.join := by
  obtain ⟨dropped, same, empty⟩ := exists_popWhile Option.isNone slots
  generalize slots.popWhile Option.isNone = front at same ⊢
  subst same
  by_cases kept : slot < front.size
  · rw [Array.getElem?_append_left kept]
  · have behind := Nat.le_of_not_lt kept
    rw [Array.getElem?_append_right behind, Array.getElem?_eq_none behind]
    cases found : dropped[slot - front.size]? with
    | none => rfl
    | some value =>
        have absent := empty value (Array.mem_of_getElem? found)
        rw [Option.isNone_iff_eq_none.mp absent]
        rfl

theorem get?_erase_other (different : other ≠ slot) :
    (pool.erase slot).get? other = pool.get? other := by
  rw [erase, get?, join_popWhile, get?, Array.getElem?_setIfInBounds_ne (Ne.symm different)]

@[simp] theorem live_erase : (pool.erase slot).live = pool.live - 1 := rfl

theorem size_erase_le : (pool.erase slot).slots.size ≤ pool.slots.size := by
  obtain ⟨dropped, same, -⟩ :=
    exists_popWhile Option.isNone (pool.slots.setIfInBounds slot none)
  have sizes := congrArg Array.size same
  rw [Array.size_setIfInBounds, Array.size_append] at sizes
  exact sizes ▸ Nat.le_add_right ..

end Pool

/-! ## Pools of several kinds -/

open NodeKinds (Value)

namespace Pools

variable {κ : Type} [NodeKinds κ] {kind other : κ} {pool : Pool (Value kind)} {pools : Pools κ}

theorem find?_replace_self : find? kind (replace kind pool pools) = some pool := by
  induction pools with
  | nil => simp [replace, find?]
  | cons entry rest induction =>
      rw [replace]
      split
      · simp [find?]
      · rename_i different
        rw [find?, dif_neg different, induction]

theorem find?_replace_other (different : other ≠ kind) :
    find? other (replace kind pool pools) = find? other pools := by
  induction pools with
  | nil => simp [replace, find?, Ne.symm different]
  | cons entry rest induction =>
      rw [replace]
      split
      · rename_i same
        have apart : entry.1 ≠ other := fun equal => different (equal.symm.trans same)
        rw [find?, dif_neg (Ne.symm different), find?, dif_neg apart]
      · rw [find?, find?, induction]

end Pools

namespace Arena

variable {κ : Type} [NodeKinds κ] {kind other : κ} {arena : Arena κ}

/-- An arena with another pool for a kind, and perhaps with other bytes handed out. -/
def withPool (arena : Arena κ) (bump : Bump) (kind : κ) (pool : Pool (Value kind)) : Arena κ :=
  { arena with bump := bump, pools := Pools.replace kind pool arena.pools }

@[simp] theorem withPool_pool_self (bump : Bump) (pool : Pool (Value kind)) :
    (arena.withPool bump kind pool).pool kind = pool := by
  rw [Arena.pool, withPool, Pools.find?_replace_self, Option.getD_some]

theorem withPool_pool_other (bump : Bump) (pool : Pool (Value kind)) (different : other ≠ kind) :
    (arena.withPool bump kind pool).pool other = arena.pool other := by
  rw [Arena.pool, Arena.pool, withPool, Pools.find?_replace_other different]

end Arena

end CppsFrontend
