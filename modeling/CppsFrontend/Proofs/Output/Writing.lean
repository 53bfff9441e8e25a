import CppsFrontend.Output.Sink
import CppsFrontend.Proofs.Source.PhysicalLines

/-!
# Writing to sinks

A sink holds the beginning of what it has been offered, as far as its capacity reaches; it
refuses a text exactly if the capacity is exceeded.  A sink without a capacity takes
everything that is written to it, so what it holds is the texts one behind the other.
-/

set_option autoImplicit false

namespace CppsFrontend

/-! ## Bytes -/

theorem toList_eq_data (bytes : ByteArray) : bytes.toList = bytes.data.toList := by
  rw [ByteArray.toList, toByteArray_toList_loop]
  rfl

theorem length_toList (bytes : ByteArray) : bytes.toList.length = bytes.size := by
  rw [toList_eq_data]
  rfl

theorem toList_append (first second : ByteArray) :
    (first ++ second).toList = first.toList ++ second.toList := by
  simp [toList_eq_data]

theorem toList_take (bytes : ByteArray) (count : Nat) :
    (bytes.extract 0 count).toList = bytes.toList.take count := by
  simp [toList_eq_data]

theorem toList_inj {first second : ByteArray} (same : first.toList = second.toList) :
    first = second := by
  rw [toList_eq_data, toList_eq_data] at same
  exact ByteArray.ext (Array.toList_inj.mp same)

/-! ## Capacities -/

def Fits (capacity : Option Nat) (bytes : List UInt8) : Prop :=
  ∀ most ∈ capacity, bytes.length ≤ most

def admitted : Option Nat → List UInt8 → List UInt8
  | none, bytes => bytes
  | some most, bytes => bytes.take most

variable {capacity : Option Nat} {bytes : List UInt8}

theorem Fits.nil (capacity : Option Nat) : Fits capacity [] := fun most _ => Nat.zero_le most

theorem Fits.admitted_eq (fits : Fits capacity bytes) : admitted capacity bytes = bytes := by
  cases capacity with
  | none => rfl
  | some most => exact List.take_of_length_le (fits most rfl)

/-- All of some bytes is admitted exactly if they fit. -/
theorem length_admitted_iff :
    (admitted capacity bytes).length = bytes.length ↔ Fits capacity bytes := by
  cases capacity with
  | none => exact iff_of_true rfl nofun
  | some most =>
      simp only [admitted, List.length_take, Fits, Option.mem_some, forall_eq']
      omega

/-- A capacity that is exceeded admits nothing more. -/
theorem admitted_append (exceeds : ¬ Fits capacity bytes) (more : List UInt8) :
    admitted capacity (bytes ++ more) = admitted capacity bytes := by
  cases capacity with
  | none => exact absurd nofun exceeds
  | some most =>
      have within : most ≤ bytes.length := Nat.le_of_not_le fun short =>
        exceeds fun _ same => Option.some.inj same ▸ short
      exact List.take_append_of_le_length within

theorem Fits.of_append {more : List UInt8} (fits : Fits capacity (bytes ++ more)) :
    Fits capacity bytes := by
  intro most limit
  have all := fits most limit
  rw [List.length_append] at all
  exact Nat.le_of_add_right_le all

theorem length_encoded_toList (text : String) :
    (encoded text.toList).length = text.utf8ByteSize := by
  rw [← toUTF8_toList, length_toList]
  exact text.size_toByteArray

namespace Sink

variable {sink : Sink}

/-- Bytes have been written to a sink, which has taken what its capacity admits. -/
structure Offered (capacity : Option Nat) (bytes : List UInt8) (sink : Sink) : Prop where
  limit : sink.capacity = capacity
  taken : sink.bytes.toList = admitted capacity bytes

theorem Offered.empty (capacity : Option Nat) : (Sink.empty capacity).Offered capacity [] where
  limit := rfl
  taken := by cases capacity <;> simp [Sink.empty, admitted, toList_eq_data]

/-- What is written behind bytes that fit is refused if not all of it fits. -/
theorem Offered.write (offered : sink.Offered capacity bytes) (fits : Fits capacity bytes)
    (text : String) :
    ∃ after error, sink.write text = (after, error) ∧
      after.Offered capacity (bytes ++ encoded text.toList) ∧
      (error = none ∧ Fits capacity (bytes ++ encoded text.toList) ∨
        error = some .sinkFull ∧ ¬ Fits capacity (bytes ++ encoded text.toList)) := by
  have taken := offered.taken
  rw [fits.admitted_eq] at taken
  have after : sink.bytes.toList ++ (sink.accept text.toUTF8).toList =
      admitted capacity (bytes ++ encoded text.toList) := by
    rw [taken, ← toUTF8_toList, accept, offered.limit]
    cases capacity with
    | none => rfl
    | some most =>
        have within := fits most rfl
        rw [toList_take, ← length_toList, taken, admitted, List.take_append,
          List.take_of_length_le within]
  have all : (sink.accept text.toUTF8).size = text.utf8ByteSize ↔
      Fits capacity (bytes ++ encoded text.toList) := by
    rw [← length_admitted_iff, ← after, List.length_append, List.length_append, taken,
      length_toList, length_encoded_toList, Nat.add_right_inj]
  refine ⟨_, _, rfl, ⟨offered.limit, ?_⟩, ?_⟩
  · rw [← after]
    exact toList_append _ _
  · by_cases fitting : Fits capacity (bytes ++ encoded text.toList)
    · exact .inl ⟨if_pos (all.mpr fitting), fitting⟩
    · exact .inr ⟨if_neg fun same => fitting (all.mp same), fitting⟩

theorem Offered.eq {other : Sink} (offered : sink.Offered capacity bytes)
    (same : other.Offered capacity bytes) : sink = other := by
  obtain ⟨held, capacity⟩ := sink
  obtain ⟨otherHeld, otherCapacity⟩ := other
  obtain rfl : capacity = otherCapacity := offered.limit.trans same.limit.symm
  obtain rfl : held = otherHeld := toList_inj (offered.taken.trans same.taken.symm)
  rfl

/-- A sink cannot tell one write from several, of which the first that is refused is the
last. -/
theorem Offered.write_append (offered : sink.Offered capacity bytes) (fits : Fits capacity bytes)
    (first second : String) :
    sink.write (first ++ second) =
      match sink.write first with
      | (after, none) => after.write second
      | refused => refused := by
  obtain ⟨whole, error, written, wholeOffered, answer⟩ := offered.write fits (first ++ second)
  obtain ⟨after, early, writtenFirst, firstOffered, firstAnswer⟩ := offered.write fits first
  rw [String.toList_append, encoded_append, ← List.append_assoc] at wholeOffered answer
  rw [written, writtenFirst]
  rcases firstAnswer with ⟨rfl, firstFits⟩ | ⟨rfl, exceeds⟩
  · obtain ⟨last, late, writtenSecond, lastOffered, lastAnswer⟩ :=
      firstOffered.write firstFits second
    rw [wholeOffered.eq lastOffered]
    refine Eq.trans (congrArg (last, ·) ?_) writtenSecond.symm
    rcases answer with ⟨rfl, fitting⟩ | ⟨rfl, exceeding⟩ <;>
      rcases lastAnswer with ⟨rfl, lastFitting⟩ | ⟨rfl, lastExceeding⟩
    · rfl
    · exact absurd fitting lastExceeding
    · exact absurd lastFitting exceeding
    · rfl
  · have same : whole = after := by
      refine Offered.eq ⟨wholeOffered.limit, ?_⟩ firstOffered
      rw [wholeOffered.taken, admitted_append exceeds]
    rcases answer with ⟨rfl, fitting⟩ | ⟨rfl, -⟩
    · exact absurd fitting.of_append exceeds
    · rw [same]

/-! ## Sinks without a limit -/

structure Holds (sink : Sink) (text : String) : Prop where
  unlimited : sink.capacity = none
  bytes : sink.bytes = text.toUTF8

theorem Offered.holds {text : String} (offered : sink.Offered none (encoded text.toList)) :
    sink.Holds text := by
  refine ⟨offered.limit, toList_inj ?_⟩
  rw [offered.taken, toUTF8_toList]
  rfl

namespace Holds

variable {text : String}

theorem empty : (Sink.empty none).Holds "" := ⟨rfl, rfl⟩

theorem write (holds : sink.Holds text) (more : String) :
    ∃ after, sink.write more = (after, none) ∧ after.Holds (text ++ more) := by
  obtain ⟨unlimited, bytes⟩ := holds
  refine ⟨{ sink with bytes := sink.bytes ++ more.toUTF8 }, ?_, unlimited, ?_⟩
  · simp only [Sink.write, accept, unlimited]
    rw [if_pos]
    exact more.size_toByteArray
  · rw [bytes]
    exact (String.toByteArray_append).symm

theorem text_eq (holds : sink.Holds text) : sink.text = text := by
  have whole : String.fromUTF8? text.toUTF8 = some text := dif_pos text.isValidUTF8
  rw [Sink.text, decode, holds.bytes, whole]
  rfl

end Holds

end Sink

end CppsFrontend
