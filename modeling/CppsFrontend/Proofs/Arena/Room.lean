import CppsFrontend.Proofs.Arena.Pools
import CppsFrontend.Proofs.Arena.Sessions

/-!
# Slots for new values

Handles name a slot by a number of limited width, so a pool that has a slot for each such
number takes no more values.  An operation adds one slot at most: a run that is shorter than
the limit always finds room.
-/

set_option autoImplicit false

namespace CppsFrontend

open NodeKinds (Value)

variable {κ : Type} [NodeKinds κ]

theorem Breach.bind_eq_ok {α β : Type} {first : Except Breach α} {next : α → Except Breach β}
    {result : β} :
    first >>= next = .ok result ↔ ∃ value, first = .ok value ∧ next value = .ok result := by
  constructor
  · intro run
    cases first with
    | error breach => cases run
    | ok value => exact ⟨value, rfl, run⟩
  · rintro ⟨value, rfl, run⟩
    exact run

open Breach (bind_eq_ok)

def Arena.SlotsBelow (bound : Nat) (arena : Arena κ) : Prop :=
  ∀ kind, (arena.pool kind).slots.size < bound

/-- After each part of the operations, there is a slot for another value of every kind. -/
def Session.HasRoom (session : Session κ) (operations : List (Operation κ)) : Prop :=
  ∀ before, before <+: operations → ∀ outcomes after,
    session.run before = .ok (outcomes, after) → after.arena.SlotsBelow Pool.slotBound

namespace Arena.SlotsBelow

variable {arena after : Arena κ} {kind : κ} {node : Node kind} {value : Value kind}
variable {bound : Nat}

theorem start (number capacity : Nat) : (start number capacity : Arena κ).SlotsBelow 1 :=
  fun _ => Nat.one_pos

theorem mono {other : Nat} (below : arena.SlotsBelow bound) (le : bound ≤ other) :
    arena.SlotsBelow other :=
  fun kind => Nat.lt_of_lt_of_le (below kind) le

theorem withPool (below : arena.SlotsBelow bound) (bump : Bump) {pool : Pool (Value kind)}
    (size : pool.slots.size < bound) : (arena.withPool bump kind pool).SlotsBelow bound := by
  intro other
  by_cases same : other = kind
  · subst same
    rwa [withPool_pool_self]
  · rw [withPool_pool_other _ _ same]
    exact below other

theorem create (below : arena.SlotsBelow bound)
    (run : arena.create kind value = .ok (node, after)) : after.SlotsBelow (bound + 1) := by
  obtain ⟨⟨address, bump⟩, -, run⟩ := bind_eq_ok.mp run
  by_cases room : ((arena.pool kind).insert value).1 < Pool.slotBound
  · cases (if_pos room).symm.trans run
    refine (below.mono (Nat.le_succ _)).withPool _ ?_
    exact Nat.lt_of_le_of_lt (Nat.le_of_eq Pool.size_insert) (Nat.succ_lt_succ (below kind))
  · cases (if_neg room).symm.trans run

theorem set (below : arena.SlotsBelow bound) (run : arena.set node value = .ok after) :
    after.SlotsBelow bound := by
  obtain ⟨old, -, made⟩ := bind_eq_ok.mp run
  cases made
  refine below.withPool _ ?_
  rw [Pool.size_set]
  exact below kind

theorem destroy {taken : Option (Value kind)} (below : arena.SlotsBelow bound)
    (run : arena.destroy node = .ok (taken, after)) : after.SlotsBelow bound := by
  rw [Arena.destroy] at run
  split at run
  · cases run
  · split at run
    · cases run
      exact below
    · obtain ⟨bump, -, made⟩ := bind_eq_ok.mp run
      cases made
      exact below.withPool _ (Nat.lt_of_le_of_lt Pool.size_erase_le (below kind))

theorem release {variant : Variant κ} (below : arena.SlotsBelow bound)
    (run : variant.release arena = .ok after) : after.SlotsBelow bound := by
  cases variant with
  | empty =>
      cases run
      exact below
  | token id =>
      cases run
      exact below
  | node kind handle =>
      obtain ⟨⟨taken, arena⟩, destroyed, made⟩ := bind_eq_ok.mp run
      cases made
      exact below.destroy destroyed

theorem replace {variant value held : Variant κ} (below : arena.SlotsBelow bound)
    (run : variant.replace value arena = .ok (held, after)) : after.SlotsBelow bound := by
  obtain ⟨arena, released, made⟩ := bind_eq_ok.mp run
  cases made
  exact below.release released

end Arena.SlotsBelow

namespace Session

variable {session after : Session κ} {operation : Operation κ} {operations : List (Operation κ)}
variable {outcome : Outcome κ} {outcomes : List (Outcome κ)} {bound : Nat}

/-- An operation adds one slot at most. -/
theorem perform_slotsBelow (below : session.arena.SlotsBelow bound)
    (run : session.perform operation = .ok (outcome, after)) :
    after.arena.SlotsBelow (bound + 1) := by
  have same := below.mono (Nat.le_succ bound)
  -- Where a place does not hold what is needed, nothing is done.
  have still {none : Outcome κ}
      (run : (.ok (none, session) : Except Breach _) = .ok (outcome, after)) :
      after.arena.SlotsBelow (bound + 1) := by
    cases run
    exact same
  cases operation with
  | create place kind value =>
      obtain ⟨⟨node, arena⟩, created, made⟩ := bind_eq_ok.mp run
      cases made
      exact below.create created
  | get place =>
      rw [perform] at run
      split at run
      · obtain ⟨value, -, made⟩ := bind_eq_ok.mp run
        exact still made
      · exact still run
  | set place kind value =>
      rw [perform] at run
      split at run
      · split at run
        · obtain ⟨arena, stored, made⟩ := bind_eq_ok.mp run
          cases made
          exact same.set stored
        · exact still run
      · exact still run
  | destroy place =>
      rw [perform] at run
      split at run
      · obtain ⟨⟨value, arena⟩, destroyed, made⟩ := bind_eq_ok.mp run
        cases made
        exact same.destroy destroyed
      · exact still run
  | replace place source =>
      rw [perform] at run
      split at run
      · obtain ⟨⟨variant, arena⟩, replaced, made⟩ := bind_eq_ok.mp run
        cases made
        exact same.replace replaced
      · exact still run
  | replaceToken place token =>
      rw [perform] at run
      split at run
      · obtain ⟨⟨variant, arena⟩, replaced, made⟩ := bind_eq_ok.mp run
        cases made
        exact same.replace replaced
      · exact still run
  | release place =>
      rw [perform] at run
      split at run
      · obtain ⟨arena, released, made⟩ := bind_eq_ok.mp run
        cases made
        exact same.release released
      · exact still run
  | take place target =>
      rw [perform] at run
      split at run
      · cases run
        exact same
      · exact still run
  | live kind => exact still run

theorem run_slotsBelow (below : session.arena.SlotsBelow bound)
    (run : session.run operations = .ok (outcomes, after)) :
    after.arena.SlotsBelow (bound + operations.length) := by
  induction operations generalizing session outcomes bound with
  | nil =>
      cases run
      exact below
  | cons operation operations induction =>
      obtain ⟨⟨outcome, middle⟩, performed, run⟩ := bind_eq_ok.mp run
      obtain ⟨⟨others, last⟩, finished, made⟩ := bind_eq_ok.mp run
      cases made
      rw [List.length_cons, Nat.add_comm operations.length, ← Nat.add_assoc]
      exact induction (perform_slotsBelow below performed) finished

theorem HasRoom.first (room : session.HasRoom operations) :
    session.arena.SlotsBelow Pool.slotBound :=
  room [] List.nil_prefix [] session rfl

theorem HasRoom.rest (room : session.HasRoom (operation :: operations))
    (performed : session.perform operation = .ok (outcome, after)) :
    after.HasRoom operations := by
  intro before part outcomes last run
  have whole : session.run (operation :: before) = .ok (outcome :: outcomes, last) :=
    bind_eq_ok.mpr ⟨_, performed, bind_eq_ok.mpr ⟨_, run, rfl⟩⟩
  exact room _ (List.cons_prefix_cons.mpr ⟨rfl, part⟩) _ _ whole

/-- A run of fewer operations than a pool can have slots always finds room. -/
theorem hasRoom_of_length (number capacity count : Nat)
    (short : operations.length < Pool.slotBound) :
    (start number capacity count : Session κ).HasRoom operations := by
  intro before part outcomes after run
  refine (run_slotsBelow (.start number capacity) run).mono ?_
  have shorter := part.length_le
  omega

end Session

end CppsFrontend
