import CppsFrontend.Proofs.Arena.Allocations

/-!
# Bytes on loan

Allocations may be given back in any order.  One that is given back while a later one is
still out stays where it is, so what the allocator remembers can reach over more bytes than
are on loan.  Still no byte is on loan twice: the bytes between two places that it remembers
were handed out at most once.
-/

set_option autoImplicit false

namespace CppsFrontend

theorem Bump.isPowerOfTwo_iff (value : Nat) :
    Bump.isPowerOfTwo value = true ↔ value.isPowerOfTwo := by
  rw [Bump.isPowerOfTwo, decide_eq_true_eq]
  constructor
  · intro power
    exact ⟨value.log2, power⟩
  · rintro ⟨exponent, rfl⟩
    rw [Nat.log2_two_pow]
    rfl

theorem Layout.fits_of_power {layout : Layout} {capacity : Nat} (positive : 0 < layout.size)
    (inBlock : layout.size ≤ capacity) (power : layout.alignment.isPowerOfTwo) :
    layout.Fits capacity :=
  ⟨positive, inBlock, (Bump.isPowerOfTwo_iff _).mpr power⟩

/-- Bytes that were handed out and have not been given back. -/
structure Loan where
  address : Address
  layout : Layout

namespace Loan

def Covers (loan : Loan) (byte : Address) : Prop :=
  byte.block = loan.address.block ∧ loan.address.offset ≤ byte.offset ∧
    byte.offset < loan.address.offset + loan.layout.size

/-- Bytes of one of the blocks that there are, at a multiple of their alignment. -/
structure Placed (loan : Loan) (bump : Bump) : Prop where
  inBlocks : loan.address.block < bump.blockCount
  inBlock : loan.address.offset + loan.layout.size ≤ bump.capacity
  aligned : loan.layout.alignment ∣ loan.address.offset

def Apart (first second : Loan) : Prop := ∀ byte, ¬ (first.Covers byte ∧ second.Covers byte)

theorem apart_of_le {first second : Loan}
    (below : first.address.block = second.address.block →
      first.address.offset + first.layout.size ≤ second.address.offset) :
    first.Apart second := by
  rintro byte ⟨⟨block, _, before⟩, ⟨sameBlock, after, _⟩⟩
  have separated := below (block.symm.trans sameBlock)
  omega

end Loan

/-- What a program asks of an allocator.  Loans are named by their place among those that
are out, the latest first. -/
inductive Request where
  | allocate (layout : Layout)
  | giveBack (place : Nat)

structure Lending where
  bump : Bump
  loans : List Loan

namespace Lending

def start (capacity : Nat) : Lending := ⟨.start capacity, []⟩

/-- A loan is given back with its own layout, and then is no loan any more.  Nothing is done
at a place where there is none. -/
def serve (lending : Lending) : Request → Except Breach Lending
  | .allocate layout => do
      let (address, bump) ← lending.bump.allocate layout.size layout.alignment
      return ⟨bump, ⟨address, layout⟩ :: lending.loans⟩
  | .giveBack place =>
      match lending.loans[place]? with
      | some loan => do
          let bump ←
            lending.bump.deallocate loan.address loan.layout.size loan.layout.alignment
          return ⟨bump, lending.loans.eraseIdx place⟩
      | none => return lending

def run (lending : Lending) : List Request → Except Breach Lending
  | [] => return lending
  | request :: requests => do
      let lending ← lending.serve request
      lending.run requests

end Lending

/-! ## Places -/

namespace Bump

variable {bump after : Bump} {address first second : Address} {size firstSize secondSize : Nat}

theorem next_inBlock (bounded : bump.current.offset ≤ bump.capacity)
    (inBlock : size ≤ bump.capacity) (alignment : Nat) :
    (bump.next size alignment).offset + size ≤ bump.capacity := by
  unfold next
  split
  · rename_i fits
    have aligned := alignDown_le (bump.current.offset - size) alignment
    change alignDown _ _ + _ ≤ _
    omega
  · have aligned := alignDown_le (bump.capacity - size) alignment
    change alignDown _ _ + _ ≤ _
    omega

theorem alignDown_aligned (value alignment : Nat) : alignment ∣ alignDown value alignment :=
  Nat.dvd_sub_mod value

theorem next_aligned (bump : Bump) (size alignment : Nat) :
    alignment ∣ (bump.next size alignment).offset := by
  unfold next
  split
  · exact alignDown_aligned _ _
  · exact alignDown_aligned _ _

/-- Nothing changes, or what is given back was handed out last and is forgotten. -/
theorem deallocate_cases {alignment : Nat}
    (run : bump.deallocate address size alignment = .ok after) :
    after = bump ∨ address = bump.current ∧ after.places = bump.marks := by
  unfold deallocate at run
  split at run
  · cases run
  · split at run
    · cases run
      exact .inl rfl
    · rename_i latest
      split at run
      · cases run
        exact .inl rfl
      · rename_i mark marks remembered
        split at run
        · cases run
          exact .inr ⟨by simpa using latest, remembered.symm⟩
        · cases run

theorem deallocate_places {alignment : Nat}
    (run : bump.deallocate address size alignment = .ok after) :
    after.places <:+ bump.places := by
  rcases deallocate_cases run with rfl | ⟨_, places⟩
  · exact List.suffix_refl _
  · rw [places]
    exact List.suffix_cons _ _

/-- Of two places that are remembered the later one is further down, and what was handed out
there ends before the earlier one. -/
theorem Taken.end_le (descends : bump.Descends) (below : first.Below second)
    (taken : Taken bump.places first firstSize) (remembered : second ∈ bump.places)
    (sameBlock : first.block = second.block) : first.offset + firstSize ≤ second.offset := by
  obtain ⟨later, mark, earlier, places, reaches⟩ := taken
  rw [Descends, places, List.pairwise_append] at descends
  obtain ⟨_, behind, across⟩ := descends
  obtain ⟨down, rest⟩ := List.pairwise_cons.mp behind
  -- The earlier place is the mark of the later one, or was there before the mark.
  have markUp : second = mark ∨ mark.Below second := by
    rw [places] at remembered
    rcases List.mem_append.mp remembered with member | member
    · exact absurd rfl ((across second member first List.mem_cons_self).trans below).ne
    · rcases List.mem_cons.mp member with rfl | member
      · exact absurd rfl below.ne
      · rcases List.mem_cons.mp member with rfl | member
        · exact .inl rfl
        · exact .inr ((List.pairwise_cons.mp rest).1 second member)
  have firstDown := down mark List.mem_cons_self
  unfold Reaches at reaches
  unfold Address.Below at firstDown markUp
  rcases markUp with rfl | up
  · omega
  · omega

end Bump

/-! ## One request -/

/-- An allocator whose loans are placed, each further down than those before it, and each
among the bytes that the allocator remembers to have handed out. -/
structure Lending.Sound (capacity : Nat) (lending : Lending) : Prop where
  sized : lending.bump.capacity = capacity
  descends : lending.bump.Descends
  bounded : ∀ place ∈ lending.bump.places, place.offset ≤ capacity
  fits : ∀ loan ∈ lending.loans, loan.layout.Fits capacity
  taken : ∀ loan ∈ lending.loans,
    Bump.Taken lending.bump.places loan.address loan.layout.size
  inBlock : ∀ loan ∈ lending.loans, loan.address.offset + loan.layout.size ≤ capacity
  aligned : ∀ loan ∈ lending.loans, loan.layout.alignment ∣ loan.address.offset
  ordered : lending.loans.Pairwise fun later earlier => later.address.Below earlier.address

namespace Lending.Sound

variable {capacity : Nat} {lending : Lending}

theorem start (capacity : Nat) : (Lending.start capacity).Sound capacity where
  sized := rfl
  descends := List.pairwise_singleton ..
  bounded := by
    intro place member
    rw [List.mem_singleton.mp member]
    exact Nat.le_refl capacity
  fits := nofun
  taken := nofun
  inBlock := nofun
  aligned := nofun
  ordered := .nil

theorem allocate (sound : lending.Sound capacity) {layout : Layout}
    (fits : layout.Fits capacity) :
    ∃ next, lending.serve (.allocate layout) = .ok next ∧ next.Sound capacity := by
  obtain ⟨bump, loans⟩ := lending
  obtain ⟨rfl, descends, bounded, allFit, taken, inBlock, aligned, ordered⟩ := sound
  have current : bump.current.offset ≤ bump.capacity := bounded _ List.mem_cons_self
  have reaches := bump.next_reaches layout.size layout.alignment
  have descendsNext := descends.next fits.positive layout.alignment
  have nextInBlock := bump.next_inBlock current fits.inBlock layout.alignment
  generalize nextIs : bump.next layout.size layout.alignment = address at *
  refine ⟨⟨{ bump with current := address, marks := bump.current :: bump.marks },
    ⟨address, layout⟩ :: loans⟩, ?_, ?_⟩
  · simp only [serve, Bump.allocate_eq fits, nextIs]
    rfl
  · refine ⟨rfl, descendsNext, ?_, ?_, ?_, ?_, ?_, ?_⟩
    · refine List.forall_mem_cons.mpr ⟨?_, bounded⟩
      exact Nat.le_trans (Nat.le_add_right _ _) nextInBlock
    · exact List.forall_mem_cons.mpr ⟨fits, allFit⟩
    · refine List.forall_mem_cons.mpr ⟨⟨[], bump.current, bump.marks, rfl, reaches⟩, ?_⟩
      exact fun loan member => (taken loan member).cons
    · exact List.forall_mem_cons.mpr ⟨nextInBlock, inBlock⟩
    · refine List.forall_mem_cons.mpr ⟨?_, aligned⟩
      rw [← nextIs]
      exact bump.next_aligned layout.size layout.alignment
    · refine List.pairwise_cons.mpr ⟨?_, ordered⟩
      intro loan member
      exact (List.pairwise_cons.mp descendsNext).1 _ (taken loan member).mem

/-- Loans in different places have different addresses. -/
theorem address_ne (sound : lending.Sound capacity) {place : Nat} {loan other : Loan}
    (found : lending.loans[place]? = some loan) (kept : other ∈ lending.loans.eraseIdx place) :
    other.address ≠ loan.address := by
  obtain ⟨inside, rfl⟩ := List.getElem?_eq_some_iff.mp found
  obtain ⟨index, within, different, rfl⟩ := List.mem_eraseIdx_iff_getElem.mp kept
  have ordered := List.pairwise_iff_getElem.mp sound.ordered
  rcases Nat.lt_or_gt_of_ne different with before | behind
  · exact (ordered index place within inside before).ne
  · exact (ordered place index inside within behind).ne.symm

/-- Whatever loan is given back, the others stay. -/
theorem giveBack (sound : lending.Sound capacity) (place : Nat) :
    ∃ next, lending.serve (.giveBack place) = .ok next ∧ next.Sound capacity := by
  simp only [serve]
  cases found : lending.loans[place]? with
  | none => exact ⟨lending, rfl, sound⟩
  | some loan =>
      have member : loan ∈ lending.loans := List.mem_of_getElem? found
      obtain ⟨after, run, size, descends, kept⟩ := Bump.deallocate_taken sound.descends
        (sound.fits loan member).power (sound.taken loan member)
      have places := Bump.deallocate_places run
      have rest : ∀ other ∈ lending.loans.eraseIdx place, other ∈ lending.loans :=
        fun other => List.mem_of_mem_eraseIdx
      refine ⟨⟨after, lending.loans.eraseIdx place⟩, ?_, ?_⟩
      · simp only [run]
        rfl
      · refine ⟨size.trans sound.sized, descends, ?_, ?_, ?_, ?_, ?_, ?_⟩
        · exact fun other remembered => sound.bounded other (places.subset remembered)
        · exact fun other still => sound.fits other (rest other still)
        · intro other still
          exact kept _ _ (sound.address_ne found still) (sound.taken other (rest other still))
        · exact fun other still => sound.inBlock other (rest other still)
        · exact fun other still => sound.aligned other (rest other still)
        · exact sound.ordered.eraseIdx place

/-! ## Any requests -/

theorem run (sound : lending.Sound capacity) {requests : List Request}
    (fits : ∀ layout, .allocate layout ∈ requests → layout.Fits capacity) :
    ∃ last, lending.run requests = .ok last ∧ last.Sound capacity := by
  induction requests generalizing lending with
  | nil => exact ⟨lending, rfl, sound⟩
  | cons request requests induction =>
      have served : ∃ next, lending.serve request = .ok next ∧ next.Sound capacity := by
        cases request with
        | allocate layout => exact sound.allocate (fits layout List.mem_cons_self)
        | giveBack place => exact sound.giveBack place
      obtain ⟨next, first, nextSound⟩ := served
      obtain ⟨last, others, lastSound⟩ := induction nextSound
        fun layout member => fits layout (List.mem_cons_of_mem _ member)
      refine ⟨last, ?_, lastSound⟩
      simp only [Lending.run, first]
      exact others

theorem placed (sound : lending.Sound capacity) :
    ∀ loan ∈ lending.loans, loan.Placed lending.bump := by
  intro loan member
  refine ⟨?_, ?_, sound.aligned loan member⟩
  · rw [Bump.blockCount, Nat.lt_succ_iff]
    rcases List.mem_cons.mp (sound.taken loan member).mem with same | marked
    · exact Nat.le_of_eq (congrArg Address.block same)
    · have below := (List.pairwise_cons.mp sound.descends).1 loan.address marked
      unfold Address.Below at below
      omega
  · rw [sound.sized]
    exact sound.inBlock loan member

theorem apart (sound : lending.Sound capacity) : lending.loans.Pairwise Loan.Apart := by
  refine sound.ordered.imp_of_mem ?_
  intro later earlier laterMember earlierMember below
  apply Loan.apart_of_le
  exact (sound.taken later laterMember).end_le sound.descends below
    (sound.taken earlier earlierMember).mem

end Lending.Sound

/-- Whatever is asked for and given back, in any order, every loan is placed in its block and
no two loans have a byte in common, at every point of the way. -/
theorem Lending.run_loans_apart (capacity : Nat) (requests : List Request)
    (fits : ∀ layout, .allocate layout ∈ requests →
      0 < layout.size ∧ layout.size ≤ capacity ∧ layout.alignment.isPowerOfTwo) :
    ∀ made, made <+: requests → ∃ lending, (start capacity).run made = .ok lending ∧
      lending.bump.capacity = capacity ∧
      (∀ loan ∈ lending.loans, loan.Placed lending.bump) ∧
      lending.loans.Pairwise Loan.Apart := by
  intro made front
  have madeFits : ∀ layout, .allocate layout ∈ made → layout.Fits capacity := by
    intro layout member
    obtain ⟨positive, inBlock, power⟩ := fits layout (front.subset member)
    exact Layout.fits_of_power positive inBlock power
  obtain ⟨lending, run, sound⟩ := (Sound.start capacity).run madeFits
  exact ⟨lending, run, sound.sized, sound.placed, sound.apart⟩

/-- Two loans that are given back while a later one is out, and then that one; the next loans
are made below the first one, and in another block. -/
def outOfOrder : List Request :=
  [.allocate ⟨3, 1⟩, .allocate ⟨4, 4⟩, .allocate ⟨1, 2⟩, .giveBack 2, .giveBack 1, .giveBack 0,
    .allocate ⟨2, 2⟩, .allocate ⟨16, 8⟩, .giveBack 1, .allocate ⟨1, 1⟩]

theorem outOfOrder_loans_apart : (∀ layout, Request.allocate layout ∈ outOfOrder →
      0 < layout.size ∧ layout.size ≤ 16 ∧ layout.alignment.isPowerOfTwo) ∧
    ∀ made, made <+: outOfOrder → ∃ lending, (Lending.start 16).run made = .ok lending ∧
      lending.bump.capacity = 16 ∧
      (∀ loan ∈ lending.loans, loan.Placed lending.bump) ∧
      lending.loans.Pairwise Loan.Apart := by
  have fits : ∀ layout, Request.allocate layout ∈ outOfOrder →
      0 < layout.size ∧ layout.size ≤ 16 ∧ layout.alignment.isPowerOfTwo := by
    intro layout member
    simp only [outOfOrder, List.mem_cons, List.not_mem_nil, Request.allocate.injEq,
      reduceCtorEq, false_or, or_false] at member
    rcases member with rfl | rfl | rfl | rfl | rfl | rfl
    · exact ⟨by decide, by decide, 0, rfl⟩
    · exact ⟨by decide, by decide, 2, rfl⟩
    · exact ⟨by decide, by decide, 1, rfl⟩
    · exact ⟨by decide, by decide, 1, rfl⟩
    · exact ⟨by decide, by decide, 3, rfl⟩
    · exact ⟨by decide, by decide, 0, rfl⟩
  exact ⟨fits, Lending.run_loans_apart 16 outOfOrder fits⟩

end CppsFrontend
