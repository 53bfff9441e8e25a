import CppsFrontend.Proofs.Source.PhysicalLines
import CppsFrontend.Proofs.Source.Steps

/-!
# The lines of a file and the lines of its source

A line ends with a line feed, or with the last byte of the file.  However its lines are
classified, a file that can be read is kept line by line, each without its line feed and
without a carriage return at its end.  Only a file of a lone line feed loses its one line.
-/

set_option autoImplicit false

namespace CppsFrontend

namespace PhysicalLine

/-- The lines of a file.  A line feed ends a line and begins no other by itself. -/
inductive EndedLines : List UInt8 → List (List UInt8) → Prop where
  | none : EndedLines [] []
  | last {line : List UInt8} (nonempty : line ≠ []) (free : lineFeed ∉ line) :
      EndedLines line [line]
  | ended {line rest : List UInt8} {lines : List (List UInt8)} (free : lineFeed ∉ line)
      (behind : EndedLines rest lines) : EndedLines (line ++ lineFeed :: rest) (line :: lines)

variable {bytes line rest : List UInt8} {lines : List (List UInt8)} {byte : UInt8} {text : String}

theorem exists_endedLines (bytes : List UInt8) : ∃ lines, EndedLines bytes lines := by
  induction bytes with
  | nil => exact ⟨[], .none⟩
  | cons byte rest induction =>
      obtain ⟨lines, behind⟩ := induction
      by_cases feed : byte = lineFeed
      · subst feed
        exact ⟨[] :: lines, @EndedLines.ended [] rest lines List.not_mem_nil behind⟩
      · have free : ∀ {line : List UInt8}, lineFeed ∉ line → lineFeed ∉ byte :: line := by
          intro line free
          rw [List.mem_cons, not_or]
          exact ⟨Ne.symm feed, free⟩
        cases behind with
        | none => exact ⟨[[byte]], .last (List.cons_ne_nil _ _) (free List.not_mem_nil)⟩
        | last nonempty inner => exact ⟨_, .last (List.cons_ne_nil _ _) (free inner)⟩
        | @ended line rest lines inner behind =>
            exact ⟨(byte :: line) :: lines, @EndedLines.ended (byte :: line) rest lines (free inner)
              behind⟩

theorem withoutLast_same (last : bytes.getLast? ≠ some byte) : withoutLast byte bytes = bytes :=
  if_neg last

theorem withoutLast_cases (byte : UInt8) (bytes : List UInt8) :
    bytes = withoutLast byte bytes ∨ bytes = withoutLast byte bytes ++ [byte] := by
  unfold withoutLast
  split
  · next last =>
    obtain ⟨front, rfl⟩ := List.getLast?_eq_some_iff.mp last
    exact .inr (by rw [List.dropLast_concat])
  · exact .inl rfl

theorem withoutLast_append (front : List UInt8) (nonempty : rest ≠ []) :
    withoutLast byte (front ++ rest) = front ++ withoutLast byte rest := by
  have last : (front ++ rest).getLast? = rest.getLast? := by
    rw [List.getLast?_append, List.getLast?_eq_some_getLast nonempty, Option.some_or]
  unfold withoutLast
  rw [last, List.dropLast_append_of_ne_nil nonempty]
  split <;> rfl

theorem EndedLines.eq_nil (ended : EndedLines bytes lines) (empty : bytes = []) : lines = [] := by
  cases ended with
  | none => rfl
  | last nonempty => exact absurd empty nonempty
  | ended => cases (List.append_eq_nil_iff.mp empty).2

/-- The stretches between line feeds are the lines, unless there is nothing at all. -/
theorem EndedLines.split_eq (ended : EndedLines bytes lines) (nonempty : bytes ≠ []) :
    split (withoutLast lineFeed bytes) = lines := by
  induction ended with
  | none => exact absurd rfl nonempty
  | @last line visible free =>
      have noFeed : line.getLast? ≠ some lineFeed := fun feed => free (List.mem_of_getLast? feed)
      rw [withoutLast_same noFeed, split_last free]
  | @ended line rest lines free behind induction =>
      rw [withoutLast_append line (List.cons_ne_nil _ _)]
      by_cases final : rest = []
      · have alone : withoutLast lineFeed (lineFeed :: rest) = [] := by
          rw [final]
          rfl
        rw [alone, List.append_nil, split_last free, behind.eq_nil final]
      · rw [← List.singleton_append, withoutLast_append [lineFeed] final, List.singleton_append,
          split_line free, induction final]

def cut (bytes : List UInt8) : List (List UInt8) :=
  if (withoutLast lineFeed bytes).isEmpty then [] else split (withoutLast lineFeed bytes)

theorem ofBytes_eq_cut (bytes : List UInt8) : ofBytes bytes = (cut bytes).map decode := by
  unfold ofBytes cut
  simp only
  split <;> rfl

theorem withoutLast_eq_nil (empty : withoutLast byte bytes = []) : bytes = [] ∨ bytes = [byte] := by
  rcases withoutLast_cases byte bytes with same | ended
  · exact .inl (same.trans empty)
  · rw [empty] at ended
    exact .inr ended

theorem EndedLines.cut_eq (ended : EndedLines bytes lines) (other : bytes ≠ [lineFeed]) :
    cut bytes = lines := by
  by_cases empty : bytes = []
  · rw [ended.eq_nil empty, empty]
    rfl
  · have visible : (withoutLast lineFeed bytes).isEmpty = false := by
      rw [List.isEmpty_eq_false_iff]
      intro nothing
      rcases withoutLast_eq_nil nothing with none | alone
      · exact empty none
      · exact other alone
    rw [cut, visible, if_neg Bool.false_ne_true, ended.split_eq empty]

theorem encoded_of_fromUTF8? (read : String.fromUTF8? line.toByteArray = some text) :
    encoded text.toList = line := by
  unfold String.fromUTF8? at read
  split at read
  · rw [Option.some.injEq] at read
    subst read
    rw [← toUTF8_toList, ByteArray.toList, toByteArray_toList_loop]
    exact List.toList_data_toByteArray
  · contradiction

/-- What a line is read as has its bytes, without a carriage return at their end. -/
theorem encoded_of_decode (read : decode line = some text) :
    encoded text.toList = withoutLast carriageReturn line :=
  encoded_of_fromUTF8? read

end PhysicalLine

open PhysicalLine

namespace Reading

variable {now : Reading} {source : Source}

/-- A file can be read exactly if each of its lines can, and no definition is left open. -/
theorem finish_ok : now.finish.source = .ok source ↔
    now.unreadable = 0 ∧ (∀ first, now.mode ≠ .definition first) ∧ now.source = source := by
  unfold finish
  split
  · next readable =>
    split
    · next first mode => simp [mode]
    · next noDefinition =>
      simp only [readable, Except.ok.injEq, true_and]
      exact ⟨fun same => ⟨fun first mode => noDefinition first mode, same⟩, And.right⟩
  · next unreadable => simp [unreadable]

end Reading

/-- A file that can be read is kept line by line, unless it is a lone line feed.  Each text is
its line without the line feed, and without one carriage return at its end. -/
theorem readSource_endedLines (bytes : List UInt8) (source : Source)
    (other : bytes ≠ [lineFeed]) (read : (readSource bytes).source = .ok source) :
    ∃ lines, EndedLines bytes lines ∧
      source.lines.map (fun line => line.text.toUTF8.toList) =
        lines.map (withoutLast carriageReturn) := by
  obtain ⟨lines, ended⟩ := exists_endedLines bytes
  obtain ⟨readable, -, rfl⟩ := Reading.finish_ok.mp read
  have physical := ofBytes_eq_cut bytes
  rw [ended.cut_eq other] at physical
  change (Reading.readLines (ofBytes bytes)).unreadable = 0 at readable
  rw [Reading.readLines_unreadable, physical, List.count_eq_zero] at readable
  have texts := Reading.readLines_texts (ofBytes bytes)
  rw [physical, List.map_map] at texts
  have kept : (Reading.readLines (ofBytes bytes)).source.lines.map
      (fun line => line.text.toUTF8.toList) =
        lines.map (fun line => ((decode line).getD "").toUTF8.toList) := by
    have encoded := congrArg (List.map fun text : String => text.toUTF8.toList) texts
    rw [List.map_map, List.map_map, ← physical] at encoded
    exact encoded
  refine ⟨lines, ended, kept.trans (List.map_congr_left fun line member => ?_)⟩
  cases decoded : decode line with
  | none =>
      rw [← decoded] at readable
      exact absurd (List.mem_map_of_mem member) readable
  | some text =>
      rw [Option.getD_some, toUTF8_toList]
      exact encoded_of_decode decoded

/-- A file with an empty line at its end, and with a carriage return before a line feed. -/
def returnedLines : List UInt8 := "int x;\r\nf: () = \x7b\n\x7d\n\n".toUTF8.toList

theorem returnedLines_kept : returnedLines ≠ [lineFeed] ∧
    ∃ source lines, (readSource returnedLines).source = .ok source ∧
      EndedLines returnedLines lines ∧
      source.lines.map (fun line => line.text.toUTF8.toList) =
        lines.map (withoutLast carriageReturn) := by
  have other : returnedLines ≠ [lineFeed] := by decide +kernel
  have read : (readSource returnedLines).source =
      .ok (Reading.readLines (ofBytes returnedLines)).source := by
    refine Reading.finish_ok.mpr ⟨by decide +kernel, ?_, rfl⟩
    intro first
    have outside : (Reading.readLines (ofBytes returnedLines)).mode = .outside := by
      decide +kernel
    exact ne_of_eq_of_ne outside nofun
  obtain ⟨lines, ended, kept⟩ := readSource_endedLines returnedLines _ other read
  exact ⟨other, _, lines, read, ended, kept⟩

/-- The one line of a lone line feed is lost, although every other line feed ends a line. -/
theorem loneFeed_lost : (readSource [lineFeed]).source = .ok .empty ∧
    ∀ lines, EndedLines [lineFeed] lines ↔ lines = [[]] := by
  refine ⟨rfl, fun lines => ⟨fun ended => (ended.split_eq (List.cons_ne_nil _ _)).symm, ?_⟩⟩
  rintro rfl
  exact @EndedLines.ended [] [] [] List.not_mem_nil .none

end CppsFrontend
