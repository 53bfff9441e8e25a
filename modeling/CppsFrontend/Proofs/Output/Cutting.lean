import CppsFrontend.Proofs.Output.Numbering

/-!
# Output that is cut

A sink that is too small for an output holds the beginning of it, up to the last byte for which
there is room.  Of the lines only those count that are there with their line feeds, and neither
the blocks nor their warnings depend on what has been written.
-/

set_option autoImplicit false

namespace CppsFrontend

open PhysicalLine

variable {capacity : Option Nat}

/-! ## Lines in bytes -/

theorem count_encoded {chars : List Char} (unbroken : '\n' ∉ chars) :
    (encoded chars).count lineFeed = 0 :=
  List.count_eq_zero.mpr fun member => unbroken (mem_encoded rfl (by decide) member)

theorem encoded_line (line : String) :
    encoded (line ++ "\n").toList = encoded line.toList ++ [lineFeed] := by
  rw [String.toList_append, encoded_append]
  rfl

/-- Lines have as many line feeds as there are lines. -/
theorem count_lineBytes {lines : List String} (unbroken : ∀ line ∈ lines, '\n' ∉ line.toList) :
    (lineBytes lines).count lineFeed = lines.length := by
  induction lines with
  | nil => rfl
  | cons line lines induction =>
      obtain ⟨first, others⟩ := List.forall_mem_cons.mp unbroken
      have bytes : lineBytes (line :: lines) =
          encoded line.toList ++ [lineFeed] ++ lineBytes lines := by
        rw [← encoded_line, ← List.singleton_append, lineBytes_append]
        exact congrArg (· ++ lineBytes lines) (lineBytes_concat [] line)
      rw [bytes, List.count_append, List.count_append, count_encoded first, induction others,
        List.count_singleton_self, List.length_cons]
      omega

theorem lineBytes_cons_behind (lines rest : List String) (line : String) :
    lineBytes (lines ++ line :: rest) = lineBytes (lines ++ [line]) ++ lineBytes rest := by
  rw [List.append_cons, lineBytes_append]

/-! ## Where writing ends -/

namespace Printer.Ends

variable {output : List String} {printer : Printer} {error : Option WriteError}

theorem taken (ends : Ends capacity output printer error) :
    printer.sink.bytes.toList = admitted capacity (lineBytes output) := by
  cases ends with
  | whole took => exact took.offered.taken
  | @cut lines rest line split offered fits exceeds counted =>
      rw [offered.taken, split, lineBytes_cons_behind lines rest, admitted_append exceeds]

/-- The output is refused exactly if it does not fit. -/
theorem answer (ends : Ends capacity output printer error) :
    error = none ∧ Fits capacity (lineBytes output) ∨
      error = some .sinkFull ∧ ¬ Fits capacity (lineBytes output) := by
  cases ends with
  | whole took => exact .inl ⟨rfl, took.fits⟩
  | @cut lines rest line split offered fits exceeds counted =>
      refine .inr ⟨rfl, fun fitting => exceeds ?_⟩
      rw [split, lineBytes_cons_behind] at fitting
      exact fitting.of_append

/-- Only lines that are there with their line feeds are counted. -/
theorem counted_eq (ends : Ends capacity output printer error)
    (unbroken : ∀ line ∈ output, '\n' ∉ line.toList) :
    printer.linesWritten = printer.sink.bytes.toList.count lineFeed := by
  cases ends with
  | whole took =>
      rw [took.counted, took.offered.taken, took.fits.admitted_eq, count_lineBytes unbroken]
  | @cut lines rest line split offered fits exceeds counted =>
      rw [split, List.forall_mem_append, List.forall_mem_cons] at unbroken
      obtain ⟨written, refused, -⟩ := unbroken
      cases capacity with
      | none => exact absurd nofun exceeds
      | some most =>
          -- Of the refused line there is no more than its characters.
          have within := fits most rfl
          have beyond : most ≤ (lineBytes lines ++ encoded line.toList).length := by
            by_contra room
            refine exceeds fun _ same => ?_
            cases same
            rw [lineBytes_concat, encoded_line, ← List.append_assoc, List.length_append]
            exact Nat.succ_le_of_lt (Nat.lt_of_not_le room)
          rw [counted, offered.taken, admitted, lineBytes_concat, encoded_line,
            ← List.append_assoc, List.take_append_of_le_length beyond, List.take_append,
            List.take_of_length_le within, List.count_append, count_lineBytes written]
          have none : (List.take (most - (lineBytes lines).length)
              (encoded line.toList)).count lineFeed = 0 :=
            Nat.le_zero.mp (count_encoded refused ▸ (List.take_sublist _ _).count_le _)
          rw [none, Nat.add_zero]

end Printer.Ends

/-! ## The whole output and the cut one -/

/-- The blocks that were left out, or the error that ended the output early. -/
def Generated.result (generated : Generated) : Except WriteError (List Block) :=
  match generated.error with
  | none => .ok generated.blocks
  | some error => .error error

/-- Output on a sink with a capacity, beside the same output on a sink without one. -/
structure CutAt (capacity : Nat) (whole cut : Generated) : Prop where
  bytes : cut.printer.sink.bytes.toList = whole.printer.sink.bytes.toList.take capacity
  result : cut.result =
    if whole.printer.sink.bytes.size ≤ capacity then .ok whole.blocks else .error .sinkFull
  warnings : cut.warnings = whole.warnings
  counted : cut.printer.linesWritten = cut.printer.sink.bytes.toList.count lineFeed

theorem generate_ends (capacity : Option Nat) (directives : Bool) (source : Source)
    (stream : TokenStream) (declarations : List Declaration) :
    let generated := generate directives source stream declarations (.start (.empty capacity))
    Printer.Ends capacity (layout directives 0 0 source.lines) generated.printer
      generated.error := by
  obtain ⟨after, error, passed, ends⟩ :=
    (Printer.Took.start capacity).passLines directives 0 source.lines
  simp only [generate, passed]
  exact ends

/-- A sink with a capacity takes the first bytes of the output and refuses the rest; nothing
but the bytes, the count of lines and the result depends on it. -/
theorem generate_cutAt (directives : Bool) (source : Source) (stream : TokenStream)
    (declarations : List Declaration) (unbroken : Unbroken source.lines) (capacity : Nat) :
    let whole := generate directives source stream declarations (.start (.empty none))
    whole.result = .ok whole.blocks ∧
      CutAt capacity whole
        (generate directives source stream declarations (.start (.empty (some capacity)))) := by
  intro whole
  have wholeEnds := generate_ends none directives source stream declarations
  have ends := generate_ends (some capacity) directives source stream declarations
  have all : whole.printer.sink.bytes.toList = lineBytes (layout directives 0 0 source.lines) :=
    wholeEnds.taken
  have complete : whole.error = none := by
    rcases wholeEnds.answer with ⟨same, -⟩ | ⟨-, exceeds⟩
    · exact same
    · exact absurd nofun exceeds
  have fits : Fits (some capacity) (lineBytes (layout directives 0 0 source.lines)) ↔
      whole.printer.sink.bytes.size ≤ capacity := by
    rw [← length_toList, all, Fits]
    exact ⟨fun fits => fits capacity rfl, fun within _ same => Option.some.inj same ▸ within⟩
  refine ⟨?_, ?_, ?_, ?_, ?_⟩
  · rw [Generated.result, complete]
  · rw [all]
    exact ends.taken
  · rw [Generated.result]
    rcases ends.answer with ⟨same, fitting⟩ | ⟨same, exceeds⟩
    · rw [same, if_pos (fits.mp fitting)]
      rfl
    · rw [same, if_neg fun within => exceeds (fits.mpr within)]
  · rfl
  · exact ends.counted_eq (layout_unbroken unbroken directives 0 0)

def resumedLine : Source := .ofLines [⟨"a: int;", .cpps⟩, ⟨"int é;", .cpp⟩]

/-- The output is cut in the middle of a character, behind one complete line. -/
theorem resumedLine_cutAt :
    let whole := generate true resumedLine (lex resumedLine).stream [] (.start (.empty none))
    let cut := generate true resumedLine (lex resumedLine).stream [] (.start (.empty (some 13)))
    Unbroken resumedLine.lines ∧ whole.printer.sink.bytes.size = 16 ∧
      whole.result = .ok [⟨0, 0, 0, 4⟩] ∧ CutAt 13 whole cut ∧
      cut.result = .error .sinkFull ∧ cut.printer.linesWritten = 1 := by
  intro whole cut
  have unbroken : Unbroken resumedLine.lines := by
    unfold Unbroken
    decide +kernel
  have size : whole.printer.sink.bytes.size = 16 := by decide +kernel
  have blocks : whole.blocks = [⟨0, 0, 0, 4⟩] := by decide +kernel
  have lines : cut.printer.linesWritten = 1 := by decide +kernel
  obtain ⟨all, cutAt⟩ :=
    generate_cutAt true resumedLine (lex resumedLine).stream [] unbroken 13
  refine ⟨unbroken, size, blocks ▸ all, cutAt, ?_, lines⟩
  exact cutAt.result.trans (if_neg (size ▸ by decide))

end CppsFrontend
