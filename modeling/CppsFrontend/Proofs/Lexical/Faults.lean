import CppsFrontend.Proofs.Lexical.Concatenation

/-!
# Errors of lines

The errors of a source are those of its lines, one after the other, and those of a line are
the faults of its pieces.
-/

set_option autoImplicit false

namespace CppsFrontend

namespace LexicalError

/-- The first letter of a message. -/
def letter : LexicalError → Char
  | .binaryLiteralWithoutDigits => 'b'
  | .hexadecimalLiteralWithoutDigits => 'h'
  | .floatingLiteralWithoutFraction _ => 'f'
  | .characterLiteralEmpty => 'e'
  | .characterLiteralUnclosed => 'c'
  | .stringLiteralUnclosed => 's'
  | .universalNameTooShort _ _ => 'i'
  | .unexpectedText _ => 'u'

theorem message_letter (cause : LexicalError) :
    cause.message.toList.head? = some cause.letter := by
  cases cause with
  | floatingLiteralWithoutFraction text =>
      change ("floating point literal " ++ text ++ " fractional part cannot be empty " ++
        "(if floating point was intended, use .0)").toList.head? = _
      rw [String.toList_append, String.toList_append, String.toList_append]
      rfl
  | universalNameTooShort letter digits =>
      change ("invalid universal character name (\\" ++ letter.toString ++
        " must be followed by " ++ toString digits ++ " hexadecimal digits)").toList.head? = _
      rw [String.toList_append, String.toList_append, String.toList_append, String.toList_append]
      rfl
  | unexpectedText c =>
      change ("unexpected text '" ++ c.toString ++ "'").toList.head? = _
      rw [String.toList_append, String.toList_append]
      rfl
  | _ => decide

/-- The message that a quote is missing is that of no other fault. -/
theorem message_stringLiteral {cause : LexicalError}
    (same : cause.message = LexicalError.stringLiteralUnclosed.message) :
    cause = .stringLiteralUnclosed := by
  have letters : some cause.letter = some 's' := by
    rw [← message_letter, same]
    decide
  cases cause <;> first | rfl | cases letters

end LexicalError

namespace Lexical

open Text

namespace Progress

variable {progress : Progress} {line column : Nat} {front back : List Piece} {entry : Entry}

def entries (line column : Nat) : List Piece → List Entry
  | [] => []
  | piece :: rest =>
      piece.faults.map (faultEntry line column) ++
        entries line (column + byteLength piece.text) rest

theorem entries_append : entries line column (front ++ back) = entries line column front ++
    entries line (column + byteLength (front.flatMap Piece.text)) back := by
  induction front generalizing column with
  | nil => rfl
  | cons piece front induction =>
      rw [List.cons_append, entries, induction, entries, List.flatMap_cons, byteLength_append,
        List.append_assoc, Nat.add_assoc]

theorem mem_entries (member : entry ∈ entries line column front) :
    ∃ piece ∈ front, ∃ fault ∈ piece.faults, entry.message = fault.cause.message := by
  induction front generalizing column with
  | nil => cases member
  | cons piece front induction =>
      rcases List.mem_append.mp member with member | member
      · obtain ⟨fault, among, rfl⟩ := List.mem_map.mp member
        exact ⟨piece, List.mem_cons_self, fault, among, rfl⟩
      · obtain ⟨other, among, found⟩ := induction member
        exact ⟨other, List.mem_cons_of_mem piece among, found⟩

theorem pieces_errors (pieces : List Piece) :
    (pieces.foldl (step line) (progress, column)).1.errors.toList =
      progress.errors.toList ++ entries line column pieces := by
  induction pieces generalizing progress column with
  | nil => simp [entries]
  | cons piece rest induction =>
      have errors : (step line (progress, column) piece).1.errors.toList =
          progress.errors.toList ++ piece.faults.map (faultEntry line column) := by
        rw [← @read_errors progress line column piece]
        simp [step]
      have next : (step line (progress, column) piece).2 = column + byteLength piece.text := rfl
      rw [List.foldl_cons, ← Prod.eta (step line (progress, column) piece), induction, errors, next,
        entries, List.append_assoc]

end Progress

/-- What lexing reports for one line, behind the comment that is open there. -/
def lineErrors (source : Source) (index : Nat) : List Entry :=
  let pending := (Progress.start.readLines 0 (source.lines.take index)).pending
  ((Progress.resumed pending).readLines index source.lines[index]?.toList).errors.toList

/-- The errors of a source are those of its lines. -/
theorem lex_errors (source : Source) : (lex source).errors.toList =
    (List.range source.lines.length).flatMap (lineErrors source) := by
  have upTo : ∀ count, count ≤ source.lines.length →
      (Progress.start.readLines 0 (source.lines.take count)).errors.toList =
        (List.range count).flatMap (lineErrors source) := by
    intro count
    induction count with
    | zero => exact fun _ => rfl
    | succ count induction =>
        intro within
        rw [List.range_succ, List.flatMap_append, ← induction (Nat.le_of_succ_le within),
          List.take_add_one, readLines_append, Progress.readLines_resumed, Nat.zero_add,
          List.length_take_of_le (Nat.le_of_succ_le within), List.flatMap_singleton, lineErrors]
        simp only [Progress.append, Array.toList_append]
  have whole := upTo source.lines.length (Nat.le_refl _)
  rw [List.take_length] at whole
  exact whole

theorem lineErrors_pieces {source : Source} {index : Nat} {line : Line} {cut : List Piece}
    (stored : source.lines[index]? = some line) (kind : line.kind = .cpps)
    (split : pieces (Progress.start.readLines 0 (source.lines.take index)).pending.isSome
      line.text.toList = cut) :
    lineErrors source index = Progress.entries index 0 cut := by
  rw [lineErrors, stored, Option.toList_some, Progress.readLines, if_pos kind, Progress.readLines,
    Progress.readLine, Progress.pieces_errors]
  simp only [Progress.resumed, split, List.nil_append]

/-- Only lines of the language have errors. -/
theorem lineErrors_line {source : Source} {index : Nat} {entry : Entry}
    (among : entry ∈ lineErrors source index) :
    ∃ line, source.lines[index]? = some line ∧ line.kind = .cpps := by
  cases stored : source.lines[index]? with
  | none =>
      rw [lineErrors, stored] at among
      cases among
  | some line =>
      by_cases kind : line.kind = .cpps
      · exact ⟨line, rfl, kind⟩
      · rw [lineErrors, stored, Option.toList_some, Progress.readLines, if_neg kind] at among
        cases among

end Lexical

end CppsFrontend
