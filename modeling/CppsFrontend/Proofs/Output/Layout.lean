import CppsFrontend.Output.Generated
import CppsFrontend.Proofs.Output.Writing

/-!
# What a printer writes

A printer that passes the lines of a source through writes the lines of a layout one by one.
Whatever its sink admits, it ends in one of two ways: all lines are in the sink, or the first
that does not fit is there in part, and nothing behind it has been tried.
-/

set_option autoImplicit false

namespace CppsFrontend

def joined (lines : List String) : String := String.join (lines.map (· ++ "\n"))

/-- The lines that are written for one line, if a reader expects the line `expected` next. -/
def marked (directives : Bool) (expected index : Nat) (text : String) : List String :=
  if directives && index ≠ expected then ["#line " ++ toString (index + 1), text] else [text]

def layout (directives : Bool) (expected index : Nat) : List Line → List String
  | [] => []
  | line :: rest =>
      if line.kind = .cpps then layout directives expected (index + 1) rest
      else marked directives expected index line.text ++
        layout directives (index + 1) (index + 1) rest

theorem joined_append (first second : List String) :
    joined (first ++ second) = joined first ++ joined second := by
  rw [joined, List.map_append, String.join_append]
  rfl

theorem joined_concat (lines : List String) (line : String) :
    joined (lines ++ [line]) = joined lines ++ (line ++ "\n") := by
  rw [joined_append]
  rfl

def lineBytes (lines : List String) : List UInt8 := encoded (joined lines).toList

theorem lineBytes_append (first second : List String) :
    lineBytes (first ++ second) = lineBytes first ++ lineBytes second := by
  rw [lineBytes, joined_append, String.toList_append, encoded_append]
  rfl

theorem lineBytes_concat (lines : List String) (line : String) :
    lineBytes (lines ++ [line]) = lineBytes lines ++ encoded (line ++ "\n").toList := by
  rw [lineBytes, joined_concat, String.toList_append, encoded_append]
  rfl

namespace Printer

variable {capacity : Option Nat} {printer : Printer} {lines output : List String}

/-- Lines have been written, and all of them are in the sink. -/
structure Took (capacity : Option Nat) (lines : List String) (printer : Printer) : Prop where
  offered : printer.sink.Offered capacity (lineBytes lines)
  fits : Fits capacity (lineBytes lines)
  counted : printer.linesWritten = lines.length

/-- Where a printer that is to write an output ends. -/
inductive Ends (capacity : Option Nat) (output : List String) :
    Printer → Option WriteError → Prop where
  | whole {printer : Printer} (took : printer.Took capacity output) :
      Ends capacity output printer none
  /-- The first line that does not fit is refused, and counted no more than those behind. -/
  | cut {printer : Printer} {lines rest : List String} {line : String}
      (split : output = lines ++ line :: rest)
      (offered : printer.sink.Offered capacity (lineBytes (lines ++ [line])))
      (fits : Fits capacity (lineBytes lines))
      (exceeds : ¬ Fits capacity (lineBytes (lines ++ [line])))
      (counted : printer.linesWritten = lines.length) :
      Ends capacity output printer (some .sinkFull)

theorem Took.start (capacity : Option Nat) :
    (Printer.start (.empty capacity)).Took capacity [] where
  offered := .empty capacity
  fits := .nil capacity
  counted := rfl

/-- What is to be written behind a line that has been refused makes no difference. -/
theorem Ends.more {error : WriteError} (ends : Ends capacity output printer (some error))
    (more : List String) : Ends capacity (output ++ more) printer (some error) := by
  cases ends with
  | @cut lines rest line split offered fits exceeds counted =>
      have behind : output ++ more = lines ++ line :: (rest ++ more) := by
        rw [split, List.append_assoc]
        rfl
      exact .cut behind offered fits exceeds counted

theorem Took.write (took : printer.Took capacity lines) (line : String) (expected : Nat) :
    ∃ after error, printer.write line expected = (after, error) ∧
      Ends capacity (lines ++ [line]) after error ∧
      (error = none → after.expected = some expected) := by
  obtain ⟨sink, error, written, offered, answer⟩ := took.offered.write took.fits (line ++ "\n")
  rw [← lineBytes_concat] at offered answer
  rw [Printer.write, written]
  rcases answer with ⟨rfl, fits⟩ | ⟨rfl, exceeds⟩
  · refine ⟨_, _, rfl, .whole ⟨offered, fits, ?_⟩, fun _ => rfl⟩
    rw [List.length_append, took.counted]
    rfl
  · exact ⟨_, _, rfl, .cut rfl offered took.fits exceeds took.counted, nofun⟩

theorem Took.pass (took : printer.Took capacity lines) (directives : Bool) (index : Nat)
    (text : String) :
    ∃ after error, printer.pass directives index text = (after, error) ∧
      Ends capacity (lines ++ marked directives (printer.expected.getD 0) index text) after
        error ∧
      (error = none → after.expected = some (index + 1)) := by
  unfold Printer.pass isOutOfStep marked
  split
  · obtain ⟨middle, error, directed, ends, _⟩ :=
      took.write ("#line " ++ toString (index + 1)) index
    rw [directive, directed]
    rw [List.append_cons]
    cases ends with
    | whole tookDirective => exact tookDirective.write text (index + 1)
    | cut split offered fits exceeds counted =>
        exact ⟨_, _, rfl, .more (.cut split offered fits exceeds counted) [text], nofun⟩
  · exact took.write text (index + 1)

/-- A printer writes the layout of the lines that it passes through. -/
theorem Took.passLines (took : printer.Took capacity lines) (directives : Bool) (index : Nat)
    (source : List Line) :
    ∃ after error, printer.passLines directives index source = (after, error) ∧
      Ends capacity (lines ++ layout directives (printer.expected.getD 0) index source) after
        error := by
  induction source generalizing printer lines index with
  | nil =>
      refine ⟨printer, none, rfl, ?_⟩
      rw [layout, List.append_nil]
      exact .whole took
  | cons line rest induction =>
      rw [Printer.passLines, layout]
      split
      · exact induction took (index + 1)
      · obtain ⟨middle, error, passed, ends, expected⟩ := took.pass directives index line.text
        rw [passed, ← List.append_assoc]
        cases ends with
        | whole tookLine =>
            have others := induction tookLine (index + 1)
            rw [expected rfl] at others
            exact others
        | cut split offered fits exceeds counted =>
            exact ⟨_, _, rfl, .more (.cut split offered fits exceeds counted) _⟩

end Printer

end CppsFrontend
