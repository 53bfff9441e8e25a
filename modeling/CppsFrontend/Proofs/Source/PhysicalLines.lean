import CppsFrontend.Source.PhysicalLine

/-!
# Lines of joined texts

A line feed and a carriage return are bytes of no other character.  So texts without line
feeds that are joined by line feeds are read as these lines again, each without a
carriage return at its end.
-/

set_option autoImplicit false

namespace CppsFrontend

/-! ## Bytes of characters -/

def encoded (chars : List Char) : List UInt8 := chars.flatMap String.utf8EncodeChar

variable {chars : List Char} {c : Char} {byte : UInt8}

/-- A byte in ASCII is a whole character. -/
theorem mem_utf8EncodeChar (member : byte ∈ String.utf8EncodeChar c) (ascii : byte.toNat < 128) :
    String.utf8EncodeChar c = [byte] ∧ c.toNat = byte.toNat := by
  have same : c.toNat = c.val.toNat := rfl
  unfold String.utf8EncodeChar at member ⊢
  simp only at member ⊢
  split at member
  · rename_i small
    rw [List.mem_singleton] at member
    rw [if_pos small, member, UInt8.toNat_ofNat', Nat.mod_eq_of_lt (by omega)]
    exact ⟨rfl, same⟩
  · have large : ∀ {byte : UInt8} {number : Nat}, byte = UInt8.ofNat number →
        128 ≤ number → number < 256 → 128 ≤ byte.toNat := by
      rintro byte number rfl low high
      rw [UInt8.toNat_ofNat', Nat.mod_eq_of_lt high]
      exact low
    have beyond : 128 ≤ byte.toNat := by
      split at member
      · simp only [List.mem_cons, List.not_mem_nil, or_false] at member
        rcases member with one | two
        · exact large one (by omega) (by omega)
        · exact large two (by omega) (by omega)
      · split at member
        · simp only [List.mem_cons, List.not_mem_nil, or_false] at member
          rcases member with one | two | three
          · exact large one (by omega) (by omega)
          · exact large two (by omega) (by omega)
          · exact large three (by omega) (by omega)
        · simp only [List.mem_cons, List.not_mem_nil, or_false] at member
          rcases member with one | two | three | four
          · exact large one (by omega) (by omega)
          · exact large two (by omega) (by omega)
          · exact large three (by omega) (by omega)
          · exact large four (by omega) (by omega)
    omega

theorem toByteArray_toList_loop (bytes : ByteArray) (index : Nat) (before : List UInt8) :
    ByteArray.toList.loop bytes index before = before.reverse ++ bytes.data.toList.drop index := by
  fun_induction ByteArray.toList.loop bytes index before with
  | case1 index before inside induction =>
      have within : index < bytes.data.toList.length := by simpa using inside
      rw [induction, List.drop_eq_getElem_cons within]
      simp [ByteArray.get!, inside]
  | case2 index before outside =>
      rw [List.drop_eq_nil_of_le (by simpa using Nat.le_of_not_lt outside), List.append_nil]

theorem toUTF8_toList (text : String) : text.toUTF8.toList = encoded text.toList := by
  rw [String.toUTF8_eq_toByteArray, ← String.utf8Encode_toList, ByteArray.toList,
    toByteArray_toList_loop]
  exact List.toList_data_toByteArray

theorem fromUTF8?_encoded (chars : List Char) :
    String.fromUTF8? (encoded chars).toByteArray = some (String.ofList chars) := by
  have valid : (encoded chars).toByteArray.IsValidUTF8 := ByteArray.isValidUTF8_utf8Encode
  rw [String.fromUTF8?, dif_pos valid]
  rfl

theorem encoded_append (first second : List Char) :
    encoded (first ++ second) = encoded first ++ encoded second := List.flatMap_append

theorem encoded_singleton (c : Char) : encoded [c] = String.utf8EncodeChar c :=
  List.append_nil _

theorem encoded_ne_nil (nonempty : chars ≠ []) : encoded chars ≠ [] := by
  cases chars with
  | nil => exact absurd rfl nonempty
  | cons c chars => exact List.append_ne_nil_of_left_ne_nil String.utf8EncodeChar_ne_nil _

/-- A byte in ASCII is read as a character of its own. -/
theorem mem_encoded (single : String.utf8EncodeChar c = [byte]) (ascii : byte.toNat < 128)
    (member : byte ∈ encoded chars) : c ∈ chars := by
  obtain ⟨other, among, inside⟩ := List.mem_flatMap.mp member
  have self : byte ∈ String.utf8EncodeChar c := by
    rw [single]
    exact List.mem_singleton_self byte
  have same : other = c := by
    apply Char.toNat_inj.mp
    rw [(mem_utf8EncodeChar inside ascii).2, (mem_utf8EncodeChar self ascii).2]
  rw [← same]
  exact among

def withoutFinal (c : Char) (chars : List Char) : List Char :=
  if chars.getLast? = some c then chars.dropLast else chars

theorem withoutLast_encoded (single : String.utf8EncodeChar c = [byte])
    (ascii : byte.toNat < 128) (chars : List Char) :
    PhysicalLine.withoutLast byte (encoded chars) = encoded (withoutFinal c chars) := by
  unfold PhysicalLine.withoutLast withoutFinal
  rcases List.eq_nil_or_concat chars with rfl | ⟨front, last, rfl⟩
  · rfl
  · rw [List.concat_eq_append, List.getLast?_concat, encoded_append, encoded_singleton]
    by_cases same : last = c
    · rw [same, single, if_pos List.getLast?_concat, if_pos rfl, List.dropLast_concat,
        List.dropLast_concat]
    · have other : ¬ some last = some c := fun equal => same (Option.some.inj equal)
      have ends : ¬ (encoded front ++ String.utf8EncodeChar last).getLast? = some byte := by
        rw [List.getLast?_append, List.getLast?_eq_some_getLast String.utf8EncodeChar_ne_nil,
          Option.some_or]
        intro final
        have inside : byte ∈ encoded [last] := by
          rw [encoded_singleton, ← Option.some.inj final]
          exact List.getLast_mem _
        exact same (List.mem_singleton.mp (mem_encoded single ascii inside)).symm
      rw [if_neg ends, if_neg other, encoded_append, encoded_singleton]

/-! ## Lines between line feeds -/

namespace PhysicalLine

variable {line rest : List UInt8}

theorem split_ne_nil (bytes : List UInt8) : split bytes ≠ [] := by
  cases bytes with
  | nil => exact List.cons_ne_nil _ _
  | cons byte bytes =>
      rw [split, List.foldr_cons]
      split
      · split
        · exact List.cons_ne_nil _ _
        · exact List.cons_ne_nil _ _
      · exact List.cons_ne_nil _ _

theorem split_lineFeed (bytes : List UInt8) : split (lineFeed :: bytes) = [] :: split bytes := by
  have some := split_ne_nil bytes
  rw [split, List.foldr_cons, ← split]
  cases lines : split bytes with
  | nil => exact absurd lines some
  | cons line rest => exact if_pos rfl

theorem split_cons {byte : UInt8} (other : byte ≠ lineFeed) {lines : List (List UInt8)}
    {bytes : List UInt8} (inner : split bytes = line :: lines) :
    split (byte :: bytes) = (byte :: line) :: lines := by
  rw [split, List.foldr_cons, ← split, inner]
  exact if_neg other

theorem split_line (free : lineFeed ∉ line) (bytes : List UInt8) :
    split (line ++ lineFeed :: bytes) = line :: split bytes := by
  induction line with
  | nil => exact split_lineFeed bytes
  | cons byte line induction =>
      rw [List.mem_cons, not_or] at free
      exact split_cons (Ne.symm free.1) (induction free.2)

theorem split_last (free : lineFeed ∉ line) : split line = [line] := by
  induction line with
  | nil => rfl
  | cons byte line induction =>
      rw [List.mem_cons, not_or] at free
      exact split_cons (Ne.symm free.1) (induction free.2)

/-- The text of a line without a carriage return at its end. -/
def textOf (text : String) : String := String.ofList (withoutFinal '\r' text.toList)

theorem decode_encoded (text : String) : decode (encoded text.toList) = some (textOf text) := by
  have single : String.utf8EncodeChar '\r' = [carriageReturn] := rfl
  rw [decode, withoutLast_encoded single (by decide), fromUTF8?_encoded]
  rfl

theorem split_joined (texts : List String) (nonempty : texts ≠ [])
    (breakless : ∀ text ∈ texts, '\n' ∉ text.toList) :
    split (encoded ("\n".intercalate texts).toList) =
      texts.map fun text => encoded text.toList := by
  induction texts with
  | nil => exact absurd rfl nonempty
  | cons text texts induction =>
      obtain ⟨free, breakless⟩ := List.forall_mem_cons.mp breakless
      have free : lineFeed ∉ encoded text.toList := by
        intro inside
        exact free (mem_encoded rfl (by decide) inside)
      cases texts with
      | nil =>
          rw [String.intercalate_singleton]
          exact split_last free
      | cons next texts =>
          have later := induction (List.cons_ne_nil _ _) breakless
          rw [String.intercalate_cons_cons, String.append_assoc, String.toList_append,
            String.toList_append, encoded_append, encoded_append, List.map_cons, ← later]
          exact split_line free _

/-- Texts that are joined by line feeds are the lines of the file. -/
theorem ofBytes_joined {before : List String} {last : String} (visible : last ≠ "")
    (breakless : ∀ text ∈ before ++ [last], '\n' ∉ text.toList) :
    ofBytes ("\n".intercalate (before ++ [last])).toUTF8.toList =
      (before ++ [last]).map fun text => some (textOf text) := by
  have single : String.utf8EncodeChar '\n' = [lineFeed] := rfl
  have nonempty : before ++ [last] ≠ [] := by simp
  obtain ⟨front, joined⟩ : ∃ front, "\n".intercalate (before ++ [last]) = front ++ last := by
    by_cases alone : before = []
    · exact ⟨"", by rw [alone, List.nil_append, String.intercalate_singleton, String.empty_append]⟩
    · refine ⟨"\n".intercalate before ++ "\n", ?_⟩
      rw [String.intercalate_append_of_ne_nil alone (List.cons_ne_nil _ _),
        String.intercalate_singleton]
  have some : last.toList ≠ [] := fun none => visible (String.toList_eq_nil_iff.mp none)
  have unfinished : withoutFinal '\n' (front ++ last).toList = (front ++ last).toList := by
    have free := breakless last (by simp)
    rw [withoutFinal, if_neg]
    rw [String.toList_append, List.getLast?_append, List.getLast?_eq_some_getLast some,
      Option.some_or]
    intro final
    rw [← Option.some.inj final] at free
    exact free (List.getLast_mem some)
  have visible : (encoded (front ++ last).toList).isEmpty = false := by
    rw [String.toList_append, encoded_append, List.isEmpty_eq_false_iff]
    exact List.append_ne_nil_of_right_ne_nil _ (encoded_ne_nil some)
  unfold ofBytes
  rw [toUTF8_toList, joined, withoutLast_encoded single (by decide), unfinished]
  simp only
  rw [visible, ← joined, if_neg Bool.false_ne_true, split_joined _ nonempty breakless, List.map_map]
  exact List.map_congr_left fun text _ => decode_encoded text

end PhysicalLine

end CppsFrontend
