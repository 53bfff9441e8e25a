import CppsFrontend.Arena.Basic

/-!
# Bytes handed out

The allocator remembers where it stood before each allocation.  Those places and the one
where it stands are in descending order, so an address at which it stands was handed out
last, and what is given back there is what was handed out.
-/

set_option autoImplicit false

namespace CppsFrontend

/-- What a type of a block's capacity must keep to: some bytes, no more than a block has,
and a power of two to be aligned to. -/
structure Layout.Fits (layout : Layout) (capacity : Nat) : Prop where
  positive : 0 < layout.size
  inBlock : layout.size ≤ capacity
  power : Bump.isPowerOfTwo layout.alignment = true

/-- An address is behind another one: in a later block, or further down in the same. -/
def Address.Below (address mark : Address) : Prop :=
  mark.block < address.block ∨ address.block = mark.block ∧ address.offset < mark.offset

namespace Address.Below

variable {first second third : Address}

theorem trans (below : first.Below second) (further : second.Below third) :
    first.Below third := by
  unfold Below at *
  omega

theorem ne (below : first.Below second) : first ≠ second := by
  rintro rfl
  unfold Below at below
  omega

end Address.Below

namespace Bump

def places (bump : Bump) : List Address := bump.current :: bump.marks

def Descends (bump : Bump) : Prop := bump.places.Pairwise Address.Below

def Reaches (address mark : Address) (size : Nat) : Prop :=
  mark.block < address.block ∨ address.offset + size ≤ mark.offset

/-- Bytes from an address on were handed out and have not been given back. -/
def Taken (places : List Address) (address : Address) (size : Nat) : Prop :=
  ∃ later mark earlier, places = later ++ address :: mark :: earlier ∧ Reaches address mark size

theorem Taken.cons {places : List Address} {address place : Address} {size : Nat}
    (taken : Taken places address size) : Taken (place :: places) address size := by
  obtain ⟨later, mark, earlier, rfl, reaches⟩ := taken
  exact ⟨place :: later, mark, earlier, rfl, reaches⟩

theorem Taken.mem {places : List Address} {address : Address} {size : Nat}
    (taken : Taken places address size) : address ∈ places := by
  obtain ⟨later, mark, earlier, rfl, _⟩ := taken
  simp

variable {bump : Bump}

theorem alignDown_le (value alignment : Nat) : alignDown value alignment ≤ value :=
  Nat.sub_le ..

/-- What is handed out next ends at or before the place where the allocator stands, or is in
the next block. -/
theorem next_cases (bump : Bump) (size alignment : Nat) :
    (bump.next size alignment).block = bump.current.block ∧
        (bump.next size alignment).offset + size ≤ bump.current.offset ∨
      (bump.next size alignment).block = bump.current.block + 1 := by
  unfold next
  split
  · rename_i fits
    have aligned := alignDown_le (bump.current.offset - size) alignment
    refine .inl ⟨rfl, ?_⟩
    change alignDown _ _ + _ ≤ _
    omega
  · exact .inr rfl

theorem next_reaches (bump : Bump) (size alignment : Nat) :
    Reaches (bump.next size alignment) bump.current size := by
  have cases := bump.next_cases size alignment
  unfold Reaches
  omega

/-- What is handed out next is behind everything that was handed out before. -/
theorem next_below {size : Nat} (positive : 0 < size) (alignment : Nat) :
    (bump.next size alignment).Below bump.current := by
  have cases := bump.next_cases size alignment
  unfold Address.Below
  omega

theorem allocate_inBlock {layout : Layout} (inBlock : layout.size ≤ bump.capacity)
    (power : isPowerOfTwo layout.alignment = true) :
    bump.allocate layout.size layout.alignment =
      .ok (bump.next layout.size layout.alignment,
        { bump with
          current := bump.next layout.size layout.alignment
          marks := bump.current :: bump.marks }) := by
  rw [allocate, power, if_neg (by simp), if_neg (Nat.not_lt.mpr inBlock)]

theorem allocate_eq {layout : Layout} (fits : layout.Fits bump.capacity) :
    bump.allocate layout.size layout.alignment =
      .ok (bump.next layout.size layout.alignment,
        { bump with
          current := bump.next layout.size layout.alignment
          marks := bump.current :: bump.marks }) :=
  allocate_inBlock fits.inBlock fits.power

theorem Descends.next (descends : bump.Descends) {size : Nat} (positive : 0 < size)
    (alignment : Nat) : (bump.next size alignment :: bump.places).Pairwise Address.Below := by
  have below := bump.next_below positive alignment
  refine List.pairwise_cons.mpr ⟨?_, descends⟩
  intro place member
  rcases List.mem_cons.mp member with rfl | member
  · exact below
  · exact below.trans ((List.pairwise_cons.mp descends).1 place member)

/-- What was handed out can be given back, and what else was handed out stays. -/
theorem deallocate_taken (descends : bump.Descends) {address : Address} {layout : Layout}
    (power : isPowerOfTwo layout.alignment = true)
    (taken : Taken bump.places address layout.size) :
    ∃ after, bump.deallocate address layout.size layout.alignment = .ok after ∧
      after.capacity = bump.capacity ∧ after.Descends ∧
      ∀ other size, other ≠ address → Taken bump.places other size →
        Taken after.places other size := by
  by_cases latest : address = bump.current
  · obtain ⟨later, mark, earlier, places, reaches⟩ := taken
    cases later with
    | cons first later =>
        -- The place where the allocator stands is behind every other one.
        obtain ⟨same, marks⟩ := List.cons.inj places
        have behind : address ∈ bump.marks := by simp [marks]
        exact absurd latest.symm ((List.pairwise_cons.mp descends).1 address behind).ne
    | nil =>
        obtain ⟨_, marks⟩ := List.cons.inj places
        refine ⟨{ bump with current := mark, marks := earlier }, ?_, rfl, ?_, ?_⟩
        · unfold deallocate
          rw [power, if_neg (by simp), if_neg (by simpa using latest), marks]
          refine if_pos ?_
          simpa [Reaches] using reaches
        · have rest := (List.pairwise_cons.mp descends).2
          rwa [marks] at rest
        · rintro other size different ⟨later, next, before, places, reaches⟩
          cases later with
          | nil => exact absurd ((List.cons.inj places).1.symm.trans latest.symm) different
          | cons first later =>
              exact ⟨later, next, before, marks.symm.trans (List.cons.inj places).2, reaches⟩
  · refine ⟨bump, ?_, rfl, descends, fun _ _ _ taken => taken⟩
    unfold deallocate
    rw [power, if_neg (by simp), if_pos latest]

end Bump

end CppsFrontend
