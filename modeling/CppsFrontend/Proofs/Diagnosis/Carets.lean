import CppsFrontend.Diagnosis.Terminal
import CppsFrontend.Proofs.Lexical.Lexing
import CppsFrontend.Proofs.Output.Numbering

/-!
# Carets below source lines

A snippet shows a source line and below it a caret, both behind gutters of one width.  The
caret is moved right by one character for each byte in front of the reported column, so it
stands below the character that is reported exactly where all characters before it have one
byte.
-/

set_option autoImplicit false

namespace CppsFrontend

open Text Lexical

/-! ## Bytes and characters -/

/-- There are as many bytes as characters exactly if each has one. -/
theorem byteLength_excess (chars : List Char) : chars.length ≤ byteLength chars ∧
    (byteLength chars = chars.length ↔ ∀ c ∈ chars, c.utf8Size = 1) := by
  induction chars with
  | nil => exact ⟨Nat.le_refl 0, iff_of_true rfl nofun⟩
  | cons c chars induction =>
      obtain ⟨atLeast, equal⟩ := induction
      have first := c.utf8Size_pos
      rw [byteLength_cons, List.length_cons, List.forall_mem_cons, ← equal]
      omega

namespace TerminalStyle

/-! ## Gutters -/

theorem toList_blanks (count : Nat) : (blanks count).toList = List.replicate count ' ' :=
  String.toList_ofList

theorem length_blanks (count : Nat) : (blanks count).length = count := by
  rw [← String.length_toList, toList_blanks, List.length_replicate]

theorem toList_gutterCell (text : String) : (gutterCell text).toList =
    List.replicate (4 - text.length) ' ' ++ text.toList ++ [' ', '|', ' '] := by
  rw [gutterCell, String.toList_append, String.toList_append, toList_blanks]
  rfl

theorem length_gutterCell (text : String) :
    (gutterCell text).length = max 4 text.length + 3 := by
  rw [← String.length_toList, toList_gutterCell, List.length_append, List.length_append,
    List.length_replicate, String.length_toList, List.length_cons]
  simp only [List.length_cons, List.length_nil]
  omega

theorem mem_gutterCell {text : String} {c : Char} (member : c ∈ (gutterCell text).toList) :
    c ∈ text.toList ∨ c = ' ' ∨ c = '|' := by
  rw [toList_gutterCell, List.mem_append, List.mem_append, List.mem_replicate] at member
  rcases member with (⟨-, blank⟩ | inside) | separator
  · exact .inr (.inl blank)
  · exact .inl inside
  · simp only [List.mem_cons, List.not_mem_nil, or_false] at separator
    grind

/-! ## Snippets -/

/-- How many characters are in front of the caret of a line. -/
def caretPlace (line : String) : Nat := (line.toList.takeWhile (· ≠ '^')).length

def caretLine (number : String) (column : Nat) : String :=
  gutterCell (blanks number.length) ++ blanks column ++ "^"

theorem caretPlace_caretLine (number : String) (column : Nat) :
    caretPlace (caretLine number column) = (gutterCell number).length + column := by
  have front : ∀ c ∈ (gutterCell (blanks number.length) ++ blanks column).toList,
      decide (c ≠ '^') = true := by
    intro c member
    rw [String.toList_append, List.mem_append] at member
    have shape : c = ' ' ∨ c = '|' := by
      rcases member with inGutter | inPadding
      · rcases mem_gutterCell inGutter with inside | shape
        · rw [toList_blanks] at inside
          exact .inl (List.eq_of_mem_replicate inside)
        · exact shape
      · rw [toList_blanks] at inPadding
        exact .inl (List.eq_of_mem_replicate inPadding)
    rcases shape with rfl | rfl <;> decide
  have width : (gutterCell (blanks number.length)).length = (gutterCell number).length := by
    rw [length_gutterCell, length_gutterCell, length_blanks]
  rw [caretPlace, caretLine, String.toList_append, List.takeWhile_append_of_pos front]
  have caret : "^".toList.takeWhile (· ≠ '^') = [] := rfl
  rw [caret, List.append_nil, String.length_toList, String.length_append, width, length_blanks]

/-- A snippet is two lines, if the reported line has no line feed in it. -/
theorem linesOf_snippet {style : TerminalStyle} (plain : style.colored = false) {entry : Entry}
    {line column : Nat} {text : String} (stored : style.lines[line]? = some text)
    (unbroken : '\n' ∉ text.toList) (located : entry.location = some ⟨some line, some column⟩) :
    linesOf (style.snippet entry) =
      [gutterCell (toString (line + 1)) ++ text, caretLine (toString (line + 1)) column] := by
  have digits : '\n' ∉ (toString (line + 1)).toList := by
    rw [Nat.toString_eq_repr, Nat.toList_repr]
    intro inside
    exact absurd (Nat.isDigit_of_mem_toDigits (by decide) (by decide) inside) (by decide)
  have noBlank : ∀ count, '\n' ∉ (blanks count).toList := by
    intro count inside
    rw [toList_blanks] at inside
    exact absurd (List.eq_of_mem_replicate inside) (by decide)
  have gutter : ∀ cell : String, '\n' ∉ cell.toList → '\n' ∉ (gutterCell cell).toList := by
    intro cell outside inside
    rcases mem_gutterCell inside with inside | blank | bar
    · exact outside inside
    · exact absurd blank (by decide)
    · exact absurd bar (by decide)
  have snippet : style.snippet entry =
      joined [gutterCell (toString (line + 1)) ++ text,
        caretLine (toString (line + 1)) column] := by
    simp only [TerminalStyle.snippet, located, stored, accented, plain, joined, caretLine]
    simp [String.append_assoc]
  rw [snippet, linesOf_joined]
  simp only [List.forall_mem_cons, caretLine, String.toList_append, List.mem_append, not_or]
  exact ⟨⟨gutter _ digits, unbroken⟩, ⟨⟨gutter _ (noBlank _), noBlank _⟩, by decide⟩,
    List.forall_mem_nil _⟩

/-- In plain output the caret is behind as many characters as the reported text is, and behind
one more for each byte by which the characters in front of that text have more than one. -/
theorem snippet_caret {style : TerminalStyle} (plain : style.colored = false) {entry : Entry}
    {line : Nat} {before behind : String}
    (stored : style.lines[line]? = some (before ++ behind))
    (unbroken : '\n' ∉ (before ++ behind).toList)
    (located : entry.location = some ⟨some line, some before.utf8ByteSize⟩) :
    ∃ gutter shown pointed, linesOf (style.snippet entry) = [shown, pointed] ∧
      shown = gutter ++ before ++ behind ∧ '^' ∈ pointed.toList ∧
      caretPlace pointed + before.length = (gutter ++ before).length + before.utf8ByteSize ∧
      (caretPlace pointed = (gutter ++ before).length ↔
        ∀ c ∈ before.toList, c.utf8Size = 1) := by
  have place := caretPlace_caretLine (toString (line + 1)) before.utf8ByteSize
  obtain ⟨-, equal⟩ := byteLength_excess before.toList
  rw [byteLength_toList, String.length_toList] at equal
  refine ⟨gutterCell (toString (line + 1)), _, _, linesOf_snippet plain stored unbroken located,
    String.append_assoc.symm, ?_, ?_, ?_⟩
  · rw [caretLine, String.toList_append]
    exact List.mem_append_right _ (by decide)
  · rw [place, String.length_append]
    omega
  · rw [place, String.length_append, ← equal]
    omega

/-- A line with a character of two bytes, and an operator without its right operand. -/
def accentedLine : TerminalStyle := ⟨false, none, #["a: S = \"é\" +;"]⟩

def missingOperand (column : Nat) : Entry :=
  .located "invalid expression after +" ⟨some 0, some column⟩

/-- At the character itself the caret is where it should be: all before it have one byte. -/
theorem accentedLine_caret : accentedLine.colored = false ∧
    accentedLine.lines[0]? = some ("a: S = \"" ++ "é\" +;") ∧
    '\n' ∉ ("a: S = \"" ++ "é\" +;").toList ∧
    (missingOperand 8).location = some ⟨some 0, some "a: S = \"".utf8ByteSize⟩ ∧
    ∃ gutter shown pointed,
      linesOf (accentedLine.snippet (missingOperand 8)) = [shown, pointed] ∧
      shown = gutter ++ "a: S = \"" ++ "é\" +;" ∧
      caretPlace pointed = (gutter ++ "a: S = \"").length := by
  have stored : accentedLine.lines[0]? = some ("a: S = \"" ++ "é\" +;") := by decide +kernel
  have unbroken : '\n' ∉ ("a: S = \"" ++ "é\" +;").toList := by decide +kernel
  have located : (missingOperand 8).location =
      some ⟨some 0, some "a: S = \"".utf8ByteSize⟩ := by decide +kernel
  have narrow : "a: S = \"".toList.all (fun c => c.utf8Size == 1) = true := by decide +kernel
  obtain ⟨gutter, shown, pointed, lines, split, -, -, equal⟩ :=
    snippet_caret rfl stored unbroken located
  refine ⟨rfl, stored, unbroken, located, gutter, shown, pointed, lines, split, equal.mpr ?_⟩
  exact fun c member => beq_iff_eq.1 (List.all_eq_true.1 narrow c member)

/-- At the semicolon, which is behind nineteen characters, the caret is behind twenty. -/
theorem accentedLine_misplaced :
    accentedLine.lines[0]? = some ("a: S = \"é\" +" ++ ";") ∧
    (missingOperand 13).location = some ⟨some 0, some "a: S = \"é\" +".utf8ByteSize⟩ ∧
    linesOf (accentedLine.snippet (missingOperand 13)) =
      ["   1 | " ++ "a: S = \"é\" +" ++ ";", "     |              ^"] ∧
    ("   1 | " ++ "a: S = \"é\" +").length = 19 ∧
    caretPlace "     |              ^" = 20 := by
  decide +kernel

end TerminalStyle

end CppsFrontend
