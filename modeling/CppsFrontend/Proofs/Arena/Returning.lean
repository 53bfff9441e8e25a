import CppsFrontend.Proofs.Arena.Loans
import Mathlib.Data.List.Perm.Subperm

/-!
# The order of giving back

Loans may be of no bytes here.  Loans that are given back in the opposite order of their
making leave the allocator as it was before them.  A loan that is given back while a later
one is out changes nothing, unless all the later ones are of no bytes and at the same
address: the address is all that the allocator goes by, so it then takes the loan for the
latest one.
-/

set_option autoImplicit false

namespace CppsFrontend

def Address.AtOrBelow (address mark : Address) : Prop :=
  mark.block < address.block ∨ address.block = mark.block ∧ address.offset ≤ mark.offset

namespace Address.AtOrBelow

variable {first second third : Address}

theorem trans (behind : first.AtOrBelow second) (further : second.AtOrBelow third) :
    first.AtOrBelow third := by
  unfold AtOrBelow at *
  omega

theorem antisymm (behind : first.AtOrBelow second) (before : second.AtOrBelow first) :
    first = second := by
  obtain ⟨block, offset⟩ := first
  obtain ⟨otherBlock, otherOffset⟩ := second
  simp only [AtOrBelow, Address.mk.injEq] at *
  omega

theorem below_trans (below : first.Below second) (behind : second.AtOrBelow third) :
    first.Below third := by
  unfold Below AtOrBelow at *
  omega

end Address.AtOrBelow

namespace Bump

variable {bump : Bump}

theorem next_atOrBelow (bump : Bump) (size alignment : Nat) :
    (bump.next size alignment).AtOrBelow bump.current := by
  have cases := bump.next_cases size alignment
  unfold Address.AtOrBelow
  omega

end Bump

namespace Lending

variable {lending next : Lending} {layout : Layout} {request : Request}
variable {requests : List Request}

/-! ## The latest loan -/

theorem serve_allocate (inBlock : layout.size ≤ lending.bump.capacity)
    (power : layout.alignment.isPowerOfTwo) :
    lending.serve (.allocate layout) =
      .ok ⟨{ lending.bump with
          current := lending.bump.next layout.size layout.alignment
          marks := lending.bump.current :: lending.bump.marks },
        ⟨lending.bump.next layout.size layout.alignment, layout⟩ :: lending.loans⟩ := by
  rw [serve, Bump.allocate_inBlock inBlock ((Bump.isPowerOfTwo_iff _).mpr power)]
  rfl

theorem fits_of_serve (served : lending.serve (.allocate layout) = .ok next) :
    layout.size ≤ lending.bump.capacity ∧ layout.alignment.isPowerOfTwo := by
  rw [serve, Bump.allocate] at served
  split at served
  · cases served
  · rename_i power
    split at served
    · cases served
    · rename_i inBlock
      exact ⟨Nat.not_lt.mp inBlock, (Bump.isPowerOfTwo_iff _).mp (by simpa using power)⟩

/-- The latest loan is given back to where the allocator stood before it. -/
theorem serve_undone (inBlock : layout.size ≤ lending.bump.capacity)
    (power : layout.alignment.isPowerOfTwo) :
    ∃ next, lending.serve (.allocate layout) = .ok next ∧
      next.bump.capacity = lending.bump.capacity ∧ next.serve (.giveBack 0) = .ok lending := by
  refine ⟨_, serve_allocate inBlock power, rfl, ?_⟩
  have reaches := lending.bump.next_reaches layout.size layout.alignment
  have accepted := (Bump.isPowerOfTwo_iff _).mpr power
  simp only [serve, List.getElem?_cons_zero, Bump.deallocate, accepted]
  rw [if_neg (by simp), if_neg (by simp), if_pos (by simpa [Bump.Reaches] using reaches)]
  rfl

/-! ## The opposite order -/

/-- Whether requests give back the loans that they make, each time the latest one of them
that is out, where a number of such loans is out before. -/
def unwinds : Nat → List Request → Bool
  | out, .allocate _ :: requests => unwinds (out + 1) requests
  | out + 1, .giveBack 0 :: requests => unwinds out requests
  | 0, [] => true
  | _, _ => false

inductive Stacked (base : Lending) : Nat → Lending → Prop where
  | nil : Stacked base 0 base
  | cons {out : Nat} {lending next : Lending} (stacked : Stacked base out lending)
      (sized : next.bump.capacity = lending.bump.capacity)
      (undone : next.serve (.giveBack 0) = .ok lending) : Stacked base (out + 1) next

theorem Stacked.capacity {base : Lending} {out : Nat} (stacked : Stacked base out lending) :
    lending.bump.capacity = base.bump.capacity := by
  induction stacked with
  | nil => rfl
  | cons _ sized _ induction => exact sized.trans induction

theorem Stacked.run {base : Lending} {out : Nat} (stacked : Stacked base out lending)
    (unwinding : unwinds out requests = true)
    (fits : ∀ layout, .allocate layout ∈ requests →
      layout.size ≤ base.bump.capacity ∧ layout.alignment.isPowerOfTwo) :
    lending.run requests = .ok base := by
  induction requests generalizing lending out with
  | nil =>
      cases stacked with
      | nil => rfl
      | cons => cases unwinding
  | cons request requests induction =>
      have rest := fun layout member => fits layout (List.mem_cons_of_mem request member)
      cases request with
      | allocate layout =>
          obtain ⟨inBlock, power⟩ := fits layout List.mem_cons_self
          rw [← stacked.capacity] at inBlock
          obtain ⟨next, served, sized, undone⟩ := serve_undone inBlock power
          have more := induction (stacked.cons sized undone) unwinding rest
          simp only [Lending.run, served]
          exact more
      | giveBack place =>
          cases stacked with
          | nil => cases place <;> cases unwinding
          | cons stacked _ undone =>
              cases place with
              | zero =>
                  have more := induction stacked unwinding rest
                  simp only [Lending.run, undone]
                  exact more
              | succ place => cases unwinding

theorem run_append (lending : Lending) (requests more : List Request) :
    lending.run (requests ++ more) = lending.run requests >>= fun next => next.run more := by
  induction requests generalizing lending with
  | nil => rfl
  | cons request requests induction =>
      rw [List.cons_append, Lending.run, Lending.run]
      cases lending.serve request with
      | error breach => rfl
      | ok next => exact induction next

/-- Loans that are given back in the opposite order leave everything as it was, and whatever
is asked for afterwards, the same again included, is served as if they had not been made. -/
theorem run_unwound (lending : Lending) (unwinding : unwinds 0 requests = true)
    (fits : ∀ layout, .allocate layout ∈ requests →
      layout.size ≤ lending.bump.capacity ∧ layout.alignment.isPowerOfTwo) :
    lending.run requests = .ok lending ∧
      ∀ more, lending.run (requests ++ more) = lending.run more := by
  have back : lending.run requests = .ok lending := Stacked.nil.run unwinding fits
  refine ⟨back, fun more => ?_⟩
  rw [run_append, back]
  rfl

/-- Behind a loan in the second block: loans of no bytes, one that needs another block, and
one that is made where an earlier one was. -/
def unwinding : List Request :=
  [.allocate ⟨0, 16⟩, .allocate ⟨0, 1⟩, .allocate ⟨16, 8⟩, .giveBack 0, .giveBack 0,
    .allocate ⟨3, 2⟩, .giveBack 0, .giveBack 0]

theorem unwinding_unwound : ∃ lending,
    (start 16).run [.allocate ⟨12, 4⟩, .allocate ⟨3, 1⟩, .giveBack 1, .allocate ⟨4, 2⟩] =
      .ok lending ∧ unwinds 0 unwinding = true ∧
    (∀ layout, .allocate layout ∈ unwinding →
      layout.size ≤ lending.bump.capacity ∧ layout.alignment.isPowerOfTwo) ∧
    lending.run unwinding = .ok lending ∧
    ∀ more, lending.run (unwinding ++ more) = lending.run more := by
  refine ⟨_, rfl, rfl, ?_, run_unwound _ rfl ?_⟩
  all_goals
    intro layout member
    simp only [unwinding, List.mem_cons, List.not_mem_nil, Request.allocate.injEq,
      reduceCtorEq, false_or, or_false] at member
    rcases member with rfl | rfl | rfl | rfl
    · exact ⟨by decide, 4, rfl⟩
    · exact ⟨by decide, 0, rfl⟩
    · exact ⟨by decide, 3, rfl⟩
    · exact ⟨by decide, 1, rfl⟩

/-! ## Any order -/

/-- An allocator that remembers each of its loans, as often as there are loans at one address,
and whose loans follow each other downwards, those of some bytes strictly so. -/
structure Remembers (lending : Lending) : Prop where
  descends : lending.bump.places.Pairwise Address.AtOrBelow
  handed : (lending.loans.map Loan.address).Subperm lending.bump.places.dropLast
  ordered : lending.loans.Pairwise fun later earlier =>
    later.address.AtOrBelow earlier.address ∧
      (later.address = earlier.address → later.layout.size = 0)
  powers : ∀ loan ∈ lending.loans, Bump.isPowerOfTwo loan.layout.alignment = true

namespace Remembers

theorem start (capacity : Nat) : (Lending.start capacity).Remembers where
  descends := List.pairwise_singleton ..
  handed := List.nil_subperm
  ordered := .nil
  powers := nofun

theorem atOrBelow (remembers : lending.Remembers) {loan : Loan} (member : loan ∈ lending.loans) :
    lending.bump.current.AtOrBelow loan.address := by
  have among : loan.address ∈ lending.bump.places :=
    (List.dropLast_sublist _).subset (remembers.handed.subset (List.mem_map_of_mem member))
  rcases List.mem_cons.mp among with same | marked
  · rw [same]
    exact .inr ⟨rfl, Nat.le_refl _⟩
  · exact (List.pairwise_cons.mp remembers.descends).1 _ marked

theorem allocate (remembers : lending.Remembers)
    (served : lending.serve (.allocate layout) = .ok next) : next.Remembers := by
  obtain ⟨inBlock, power⟩ := fits_of_serve served
  cases (serve_allocate inBlock power).symm.trans served
  have behind := lending.bump.next_atOrBelow layout.size layout.alignment
  refine ⟨?_, ?_, ?_, ?_⟩
  · refine List.pairwise_cons.mpr ⟨?_, remembers.descends⟩
    intro place member
    rcases List.mem_cons.mp member with rfl | marked
    · exact behind
    · exact behind.trans ((List.pairwise_cons.mp remembers.descends).1 place marked)
  · exact (List.subperm_cons _).mpr remembers.handed
  · refine List.pairwise_cons.mpr ⟨?_, remembers.ordered⟩
    intro loan member
    refine ⟨behind.trans (remembers.atOrBelow member), ?_⟩
    intro same
    -- Some bytes would be strictly below everything that was handed out before.
    by_contra some
    have below := lending.bump.next_below (Nat.pos_of_ne_zero some) layout.alignment
    exact (Address.AtOrBelow.below_trans below (remembers.atOrBelow member)).ne same
  · exact List.forall_mem_cons.mpr ⟨(Bump.isPowerOfTwo_iff _).mpr power, remembers.powers⟩

/-- Whichever of the loans at an address is given back, one place at that address is
forgotten for it. -/
theorem giveBack (remembers : lending.Remembers) {place : Nat}
    (served : lending.serve (.giveBack place) = .ok next) : next.Remembers := by
  rw [serve] at served
  split at served
  · rename_i loan found
    cases run : lending.bump.deallocate loan.address loan.layout.size loan.layout.alignment with
    | error breach =>
        rw [run] at served
        cases served
    | ok after =>
        rw [run] at served
        cases served
        obtain ⟨inside, stored⟩ := List.getElem?_eq_some_iff.mp found
        have rest : ∀ other ∈ lending.loans.eraseIdx place, other ∈ lending.loans :=
          fun other => List.mem_of_mem_eraseIdx
        have parted : lending.loans.Perm (loan :: lending.loans.eraseIdx place) := by
          rw [← stored]
          exact (List.getElem_cons_eraseIdx_perm inside).symm
        have handed : (loan.address :: (lending.loans.eraseIdx place).map Loan.address).Subperm
            lending.bump.places.dropLast :=
          (parted.map Loan.address).subperm_right.mp remembers.handed
        have ordered := remembers.ordered.eraseIdx place
        have powers := fun other still => remembers.powers other (rest other still)
        rcases Bump.deallocate_cases run with rfl | ⟨latest, places⟩
        · refine ⟨remembers.descends, ?_, ordered, powers⟩
          exact (List.sublist_cons_self _ _).subperm.trans handed
        · refine ⟨?_, ?_, ordered, powers⟩
          · rw [places]
            exact (List.pairwise_cons.mp remembers.descends).2
          · have remembered : lending.bump.marks ≠ [] := by
              rw [← places]
              exact List.cons_ne_nil _ _
            rw [Bump.places, List.dropLast_cons_of_ne_nil remembered, ← latest] at handed
            rw [places]
            exact (List.subperm_cons _).mp handed
  · cases served
    exact remembers

theorem run (remembers : lending.Remembers) {last : Lending}
    (served : lending.run requests = .ok last) : last.Remembers := by
  induction requests generalizing lending with
  | nil =>
      cases served
      exact remembers
  | cons request requests induction =>
      rw [Lending.run] at served
      cases first : lending.serve request with
      | error breach =>
          rw [first] at served
          cases served
      | ok next =>
          rw [first] at served
          have kept : next.Remembers := by
            cases request with
            | allocate layout => exact remembers.allocate first
            | giveBack place => exact remembers.giveBack first
          exact induction kept served

/-- The allocator does not stand at a loan that is above a later one. -/
theorem deallocate_eq (remembers : lending.Remembers) {loan other : Loan}
    (member : loan ∈ lending.loans) (still : other ∈ lending.loans)
    (behind : other.address.AtOrBelow loan.address) (apart : other.address ≠ loan.address) :
    lending.bump.deallocate loan.address loan.layout.size loan.layout.alignment =
      .ok lending.bump := by
  have different : loan.address ≠ lending.bump.current := by
    intro latest
    have above := remembers.atOrBelow still
    rw [← latest] at above
    exact apart (behind.antisymm above)
  rw [Bump.deallocate, remembers.powers loan member, if_neg (by simp), if_pos different]

end Remembers

/-- A loan that is given back while a later one is out changes nothing if the later one is at
another address, as each loan of some bytes is. -/
theorem giveBack_overtaken {capacity place later : Nat} {loan other : Loan}
    (run : (start capacity).run requests = .ok lending)
    (found : lending.loans[place]? = some loan) (out : lending.loans[later]? = some other)
    (overtaken : later < place) :
    (other.layout.size ≠ 0 → other.address ≠ loan.address) ∧
      (other.address ≠ loan.address →
        lending.bump.deallocate loan.address loan.layout.size loan.layout.alignment =
          .ok lending.bump) := by
  have remembers := (Remembers.start capacity).run run
  obtain ⟨inside, rfl⟩ := List.getElem?_eq_some_iff.mp found
  obtain ⟨laterInside, rfl⟩ := List.getElem?_eq_some_iff.mp out
  obtain ⟨behind, empty⟩ :=
    List.pairwise_iff_getElem.mp remembers.ordered later place laterInside inside overtaken
  refine ⟨fun some same => some (empty same), ?_⟩
  exact remembers.deallocate_eq (List.getElem_mem _) (List.getElem_mem _) behind

/-- A loan of eight bytes, and loans of no bytes before and behind it; the last one is padded. -/
def padded : List Request :=
  [.allocate ⟨0, 1⟩, .allocate ⟨8, 8⟩, .allocate ⟨0, 1⟩, .allocate ⟨0, 16⟩]

def paddedLending : Lending where
  bump := ⟨64, ⟨0, 48⟩, [⟨0, 56⟩, ⟨0, 56⟩, ⟨0, 64⟩, ⟨0, 64⟩]⟩
  loans := [⟨⟨0, 48⟩, ⟨0, 16⟩⟩, ⟨⟨0, 56⟩, ⟨0, 1⟩⟩, ⟨⟨0, 56⟩, ⟨8, 8⟩⟩, ⟨⟨0, 64⟩, ⟨0, 1⟩⟩]

theorem padded_overtaken : (start 64).run padded = .ok paddedLending ∧
    paddedLending.loans[2]? = some ⟨⟨0, 56⟩, ⟨8, 8⟩⟩ ∧
    paddedLending.loans[0]? = some ⟨⟨0, 48⟩, ⟨0, 16⟩⟩ ∧ 0 < 2 ∧
    paddedLending.bump.deallocate ⟨0, 56⟩ 8 8 = .ok paddedLending.bump := by
  have run : (start 64).run padded = .ok paddedLending := rfl
  have found : paddedLending.loans[2]? = some ⟨⟨0, 56⟩, ⟨8, 8⟩⟩ := rfl
  have out : paddedLending.loans[0]? = some ⟨⟨0, 48⟩, ⟨0, 16⟩⟩ := rfl
  have overtaken : 0 < 2 := by decide
  exact ⟨run, found, out, overtaken,
    (giveBack_overtaken run found out overtaken).2 (by decide)⟩

def emptyLoan : List Request := [.allocate ⟨8, 8⟩, .allocate ⟨0, 1⟩]

/-- The loan of eight bytes is taken for the latest one, and refused for its size. -/
theorem emptyLoan_mistaken : ∃ lending, (start 64).run emptyLoan = .ok lending ∧
    lending.loans = [⟨⟨0, 56⟩, ⟨0, 1⟩⟩, ⟨⟨0, 56⟩, ⟨8, 8⟩⟩] ∧
    lending.bump.deallocate ⟨0, 56⟩ 8 8 = .error .deallocationExceedsAllocation :=
  ⟨_, rfl, rfl, rfl⟩

end Lending

end CppsFrontend
