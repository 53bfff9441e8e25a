import CppsFrontend.Proofs.Source.Fidelity
import CppsFrontend.Proofs.Source.Unclosed

/-!
# Where the faults of a file are reported

A fault of a line is reported at its index among the lines of the file, and at the byte where
the character stands that it names.  A line that cannot be read is reported at its first byte,
whatever it would have been part of.
-/

set_option autoImplicit false

namespace CppsFrontend

open Text

/-! ## Faults and the characters that they name -/

namespace SourceFault

def Names : SourceFault → Char → Prop
  | .closeBraceUnexpected, c => c = '\x7d'
  | .textAfterDefinition named, c => c = named
  | .lineUnreadable, _ | .endNotFound, _ => False

theorem Names.unique {fault : SourceFault} {c d : Char} (first : fault.Names c)
    (second : fault.Names d) : c = d := by
  cases fault with
  | closeBraceUnexpected | textAfterDefinition => exact Eq.trans first (Eq.symm second)
  | lineUnreadable | endNotFound => exact first.elim

/-- A fault stands at the character that it names, in a text that begins at a column. -/
def StandsIn (column : Nat) (text : List Char) (fault : SourceFault × Nat) : Prop :=
  ∃ front c back, text = front ++ c :: back ∧ fault.2 = column + byteLength front ∧
    fault.1.Names c

variable {column : Nat} {c : Char} {text rest front : List Char} {fault : SourceFault × Nat}

theorem StandsIn.here {cause : SourceFault} (names : cause.Names c) :
    StandsIn column (c :: rest) (cause, column) :=
  ⟨[], c, rest, rfl, rfl, names⟩

theorem StandsIn.behind (stands : StandsIn (column + byteLength front) rest fault) :
    StandsIn column (front ++ rest) fault := by
  obtain ⟨between, c, back, rfl, place, names⟩ := stands
  refine ⟨front ++ between, c, back, (List.append_assoc ..).symm, ?_, names⟩
  rw [place, byteLength_append, Nat.add_assoc]

def NewIn (column : Nat) (text : List Char) (before after : List (SourceFault × Nat)) : Prop :=
  ∀ fault ∈ after, fault ∈ before ∨ StandsIn column text fault

variable {before after : List (SourceFault × Nat)}

theorem NewIn.none (column : Nat) (text : List Char) (before : List (SourceFault × Nat)) :
    NewIn column text before before := fun _ => .inl

theorem NewIn.one {cause : SourceFault} (names : cause.Names c) :
    NewIn column (c :: rest) before ((cause, column) :: before) := by
  intro fault member
  rcases List.mem_cons.mp member with rfl | member
  · exact .inr (.here names)
  · exact .inl member

theorem NewIn.behind (later : NewIn (column + byteLength front) rest before after) :
    NewIn column (front ++ rest) before after :=
  fun fault member => (later fault member).imp_right .behind

theorem NewIn.next (later : NewIn (column + c.utf8Size) rest before after) :
    NewIn column (c :: rest) before after :=
  @NewIn.behind column rest [c] before after later

theorem NewIn.following {between : List (SourceFault × Nat)}
    (here : NewIn column (c :: rest) before between)
    (later : NewIn (column + c.utf8Size) rest between after) :
    NewIn column (c :: rest) before after := by
  intro fault member
  rcases later.next fault member with found | stands
  · exact here fault found
  · exact .inr stands

theorem toList_around (c : Char) (front back : String) :
    (front ++ c.toString ++ back).toList = front.toList ++ c :: back.toList := by
  rw [String.toList_append, String.toList_append, List.append_assoc, Char.toString,
    String.toList_singleton, List.singleton_append]

theorem toList_textAfterDefinition (c : Char) :
    (textAfterDefinition c).message.toList = "unexpected char '".toList ++
      c :: "'- after cpps definition closing ; or \x7d".toList :=
  toList_around c _ _

def letter : SourceFault → Char
  | .lineUnreadable => ' '
  | .closeBraceUnexpected => '\x7d'
  | .textAfterDefinition _ => 'c'
  | .endNotFound => 'n'

theorem message_letter (fault : SourceFault) : fault.message.toList[11]? = some fault.letter := by
  cases fault with
  | textAfterDefinition c =>
      rw [toList_textAfterDefinition, List.getElem?_append_left (by decide), letter]
      decide
  | lineUnreadable | closeBraceUnexpected | endNotFound => decide

/-- What is reported says which fault it is. -/
theorem message_injective {fault other : SourceFault} (same : fault.message = other.message) :
    fault = other := by
  have letters : some fault.letter = some other.letter := by
    rw [← message_letter, ← message_letter, same]
  cases fault <;> cases other
  case textAfterDefinition.textAfterDefinition c d =>
    have texts := congrArg String.toList same
    rw [toList_textAfterDefinition, toList_textAfterDefinition, List.append_cancel_left_eq] at texts
    exact congrArg textAfterDefinition (List.cons.inj texts).1
  all_goals first | rfl | cases letters

end SourceFault

open SourceFault

namespace DefinitionScan

theorem code_faults (scan : DefinitionScan) (c : Char) (column : Nat) (rest : List Char) :
    NewIn column (c :: rest) scan.faults (scan.code c column).faults := by
  unfold code
  split
  · exact .none _ _ _
  · unfold closeBrace
    split
    · exact .one rfl
    · exact .none _ _ _
  · exact .none _ _ _
  · exact .none _ _ _
  · exact .none _ _ _

/-- Every fault that is found in a text stands at a character of it. -/
theorem run_faults (scan : DefinitionScan) (column : Nat) (text : List Char) :
    NewIn column text scan.faults (scan.run column text).faults := by
  fun_induction run scan column text with
  | case1 | case7 | case13 => exact .none _ _ _
  -- inside a comment
  | case2 _ _ _ _ _ _ _ induction | case3 _ _ _ _ _ _ _ induction => exact induction.next
  -- inside a string
  | case4 _ _ _ _ _ _ _ induction => exact induction.next.next
  | case5 _ _ _ _ _ _ induction | case6 _ _ _ _ _ _ _ _ _ induction => exact induction.next
  -- behind the end
  | case8 scan column outside unquoted done rest closed next induction =>
      exact @NewIn.behind column rest ['/', '*'] _ _ induction
  | case9 scan column outside unquoted done rest => exact .one rfl
  | case10 scan column c next outside unquoted done rest space noLine noBlock induction =>
      rw [if_pos space]
      exact induction.next
  | case11 scan column c next outside unquoted done rest visible =>
      rw [if_neg visible]
      exact .one rfl
  -- before the end
  | case12 _ _ _ _ _ _ _ _ _ induction => exact induction.next
  | case14 scan column c rest next outside unquoted going noBlock noLine induction =>
      exact (code_faults scan c column rest).following induction

end DefinitionScan

namespace ForeignScan

theorem code_faults (scan : ForeignScan) (c : Char) (column : Nat) (rest : List Char) :
    NewIn column (c :: rest) scan.faults (scan.code c rest column).faults := by
  unfold code
  split
  · split <;> exact .none _ _ _
  · split <;> exact .none _ _ _
  · split
    · unfold closeBrace
      split
      · exact .one rfl
      · exact .none _ _ _
    · exact .none _ _ _
  · exact .none _ _ _

theorem run_faults (scan : ForeignScan) (column : Nat) (text : List Char) :
    NewIn column text scan.faults (scan.run column text).faults := by
  fun_induction run scan column text with
  | case1 => exact .none _ _ _
  | case2 _ _ _ _ _ _ _ induction | case3 _ _ _ _ _ _ _ induction
  | case4 _ _ _ _ _ _ _ induction => exact induction.next
  | case5 => exact .none _ _ _
  | case6 scan column c rest next outside noBlock noLine induction =>
      exact (code_faults scan c column rest).following induction

theorem line_faults (scan : ForeignScan) (column : Nat) (text : List Char) :
    NewIn column text scan.faults (scan.line column text).faults := by
  unfold line
  split
  · exact run_faults scan column text
  · split
    · exact .none _ _ _
    · next rest =>
      exact @NewIn.behind column rest ['/', '*'] _ _ (run_faults _ (column + 2) rest)
    · exact run_faults scan column text

end ForeignScan

/-! ## The entries of a file -/

namespace Reading

variable {reading after : Reading} {physical : PhysicalLine} {text : String}
variable {lines : List PhysicalLine} {index : Nat} {entry : Entry}

theorem addFaults_toList (reading : Reading) (line : Nat) (faults : List (SourceFault × Nat)) :
    (reading.addFaults line faults).errors.toList = reading.errors.toList ++
      faults.reverse.map fun item => item.1.entry (.ofIndices line item.2) := by
  unfold addFaults
  rw [Array.toList_append]

/-- What is reported of a line at its index. -/
inductive Reports (index : Nat) : PhysicalLine → List Entry → Prop where
  | unreadable : Reports index none [SourceFault.lineUnreadable.entry (.ofIndices index 0)]
  | faults {text : String} {faults : List (SourceFault × Nat)}
      (stand : ∀ fault ∈ faults, StandsIn 0 text.toList fault) :
      Reports index (some text) (faults.map fun item => item.1.entry (.ofIndices index item.2))

theorem Reports.nothing (index : Nat) (text : String) : Reports index (some text) [] :=
  @Reports.faults index text [] nofun

theorem Reports.indented {faults : List (SourceFault × Nat)} (index : Nat) (text : String)
    (new : NewIn (text.toList.takeWhile isSpace).length (trimmed text) [] faults) :
    Reports index (some text)
      (faults.reverse.map fun item => item.1.entry (.ofIndices index item.2)) := by
  refine .faults fun fault member => ?_
  have space : ∀ c ∈ text.toList.takeWhile isSpace, isSpace c = true :=
    fun c member => List.all_eq_true.mp List.all_takeWhile c member
  have indent : (text.toList.takeWhile isSpace).length =
      0 + byteLength (text.toList.takeWhile isSpace) := by
    rw [DefinitionScan.byteLength_space space, Nat.zero_add]
  rw [indent] at new
  have stands := new.behind fault (List.mem_reverse.mp member)
  rw [trimmed, List.takeWhile_append_dropWhile] at stands
  exact stands.resolve_left List.not_mem_nil

/-- A line is reported at its index. -/
theorem step_reports (reading : Reading) (physical : PhysicalLine) :
    ∃ more, (reading.step physical).errors.toList = reading.errors.toList ++ more ∧
      Reports reading.source.lineCount physical more := by
  have takes := reading.step_takes physical
  generalize reading.step physical = after at takes ⊢
  cases takes with
  | unreadable => exact ⟨_, addFaults_toList .., .unreadable⟩
  | directive | blank | importing => exact ⟨[], (List.append_nil _).symm, .nothing _ _⟩
  | further =>
      exact ⟨_, addFaults_toList .., .indented _ _ (DefinitionScan.run_faults _ _ _)⟩
  | @opening text =>
      have last : (reading.source.add text .cpps).claimCommentary.lineCount - 1 =
          reading.source.lineCount := Source.length_claim _
      refine ⟨_, addFaults_toList .., ?_⟩
      rw [last]
      exact .indented _ _ (DefinitionScan.run_faults _ _ _)
  | foreign =>
      exact ⟨_, addFaults_toList .., .indented _ _ (ForeignScan.line_faults _ _ _)⟩

/-- An entry is about a line that cannot be read, or about a character of a line. -/
inductive Marks (lines : List PhysicalLine) : Entry → Prop where
  | unreadable {index : Nat} (stands : lines[index]? = some none) :
      Marks lines (SourceFault.lineUnreadable.entry (.ofIndices index 0))
  | character {index column : Nat} {text : String} {cause : SourceFault}
      (stands : lines[index]? = some (some text)) (names : StandsIn 0 text.toList (cause, column)) :
      Marks lines (cause.entry (.ofIndices index column))

theorem Marks.more (marks : Marks lines entry) (last : PhysicalLine) :
    Marks (lines ++ [last]) entry := by
  have kept : ∀ {index : Nat} {line : PhysicalLine}, lines[index]? = some line →
      (lines ++ [last])[index]? = some line := by
    intro index line stands
    obtain ⟨inside, _⟩ := List.getElem?_eq_some_iff.mp stands
    rw [List.getElem?_append_left inside, stands]
  cases marks with
  | unreadable stands => exact .unreadable (kept stands)
  | character stands names => exact .character (kept stands) names

theorem Reports.marks {more : List Entry} (reports : Reports lines.length physical more) :
    ∀ entry ∈ more, Marks (lines ++ [physical]) entry := by
  have last : ∀ line : PhysicalLine, (lines ++ [line])[lines.length]? = some line :=
    fun _ => List.getElem?_concat_length
  intro entry member
  cases reports with
  | unreadable =>
      rw [List.mem_singleton.mp member]
      exact .unreadable (last none)
  | @faults text _ stand =>
      obtain ⟨fault, found, rfl⟩ := List.mem_map.mp member
      exact .character (last (some text)) (stand fault found)

/-- Every entry stands where it belongs. -/
theorem readLines_marks (lines : List PhysicalLine) :
    ∀ entry ∈ (readLines lines).errors.toList, Marks lines entry := by
  induction lines using List.reverseRecOn with
  | nil => nofun
  | append_singleton front last induction =>
      obtain ⟨more, added, reports⟩ := (readLines front).step_reports last
      rw [readLines_lineCount] at reports
      rw [readLines_concat, added]
      intro entry member
      rcases List.mem_append.mp member with before | here
      · exact (induction entry before).more last
      · exact reports.marks entry here

def isUnreadable (entry : Entry) : Bool := entry.message = SourceFault.lineUnreadable.message

theorem Reports.filtered {more : List Entry} (reports : Reports index physical more) :
    more.filter isUnreadable =
      ([physical].findIdxs (· = none) index).map fun line =>
        SourceFault.lineUnreadable.entry (.ofIndices line 0) := by
  cases reports with
  | unreadable => rfl
  | @faults text faults stand =>
      have none : ([some text].findIdxs (· = none) index) = [] := rfl
      rw [none, List.map_nil, List.filter_eq_nil_iff]
      intro entry member unreadable
      obtain ⟨fault, found, rfl⟩ := List.mem_map.mp member
      obtain ⟨_, c, _, _, _, names⟩ := stand fault found
      have same := message_injective (of_decide_eq_true unreadable)
      rw [same] at names
      exact names

/-- Each line that cannot be read is reported, in the order of the lines. -/
theorem readLines_filtered (lines : List PhysicalLine) :
    (readLines lines).errors.toList.filter isUnreadable =
      (lines.findIdxs (· = none)).map fun line =>
        SourceFault.lineUnreadable.entry (.ofIndices line 0) := by
  induction lines using List.reverseRecOn with
  | nil => rfl
  | append_singleton front last induction =>
      obtain ⟨more, added, reports⟩ := (readLines front).step_reports last
      rw [readLines_lineCount] at reports
      rw [readLines_concat, added, List.filter_append, induction, reports.filtered,
        List.findIdxs_append, List.map_append, Nat.zero_add]

/-- At its end a file may only be reported to end inside a definition. -/
theorem finish_errors (now : Reading) :
    ∃ more, now.finish.errors.toList = now.errors.toList ++ more ∧
      ∀ entry ∈ more, entry.message = SourceFault.endNotFound.message := by
  have same : now.errors.toList = now.errors.toList ++ [] := (List.append_nil _).symm
  unfold finish
  split
  · split
    · next first mode =>
      refine ⟨[SourceFault.endNotFound.entry (.ofIndices first 0)], Array.toList_push, ?_⟩
      intro entry member
      rw [List.mem_singleton.mp member]
      rfl
    · exact ⟨[], same, nofun⟩
  · exact ⟨[], same, nofun⟩

theorem finish_unreadable {now : Reading} {count : Nat} :
    now.finish.source = .error (.unreadable count) ↔ 0 < count ∧ count = now.unreadable := by
  unfold finish
  split
  · next readable =>
    have never : ¬ (0 < count ∧ count = now.unreadable) := by omega
    split
    · simp [never]
    · simp [never]
  · next unreadable =>
    simp only [Except.error.injEq, ReadError.unreadable.injEq]
    omega

end Reading

/-! ## The bytes of a file -/

namespace PhysicalLine

variable {raw bytes : List UInt8} {byte : UInt8} {text : String} {front back : List Char} {c : Char}

def isUTF8 (raw : List UInt8) : Bool := (String.fromUTF8? raw.toByteArray).isSome

theorem decode_isSome (raw : List UInt8) : (decode raw).isSome = isUTF8 raw := by
  rw [Bool.eq_iff_iff, isUTF8, Option.isSome_iff_exists, Option.isSome_iff_exists]
  constructor
  · rintro ⟨text, read⟩
    have kept := encoded_of_decode read
    rcases withoutLast_cases carriageReturn raw with same | ended
    · rw [same, ← kept]
      exact ⟨_, fromUTF8?_encoded _⟩
    · have single : encoded ['\r'] = [carriageReturn] := rfl
      rw [ended, ← kept, ← single, ← encoded_append]
      exact ⟨_, fromUTF8?_encoded _⟩
  · rintro ⟨text, read⟩
    rw [← encoded_of_fromUTF8? read]
    exact ⟨_, decode_encoded text⟩

theorem length_encoded (chars : List Char) : (encoded chars).length = byteLength chars := by
  induction chars with
  | nil => rfl
  | cons c rest induction =>
      rw [← List.singleton_append, encoded_append, encoded_singleton, List.length_append,
        String.length_utf8EncodeChar, induction, byteLength_append]
      rfl

/-- The bytes of a character stand at a column of a line of a file. -/
def Holds (bytes : List UInt8) (line column : Nat) (c : Char) : Prop :=
  ∃ raw, (cut bytes)[line]? = some raw ∧ String.utf8EncodeChar c <+: raw.drop column

/-- The characters before a character are as many bytes as stand before it in the line. -/
theorem decode_holds (read : decode raw = some text) (split : text.toList = front ++ c :: back) :
    String.utf8EncodeChar c <+: raw.drop (byteLength front) := by
  have kept := encoded_of_decode read
  obtain ⟨tail, whole⟩ : ∃ tail, raw = withoutLast carriageReturn raw ++ tail := by
    rcases withoutLast_cases carriageReturn raw with same | ended
    · exact ⟨[], same.trans (List.append_nil _).symm⟩
    · exact ⟨_, ended⟩
  rw [whole, ← kept, split, encoded_append, List.append_assoc, ← length_encoded, List.drop_left,
    ← List.singleton_append, encoded_append, encoded_singleton, List.append_assoc]
  exact List.prefix_append _ _

end PhysicalLine

open PhysicalLine

variable {bytes : List UInt8} {entry : Entry} {c : Char}

/-- An entry of a file stands where it belongs, unless it is that a definition has no end. -/
theorem readSource_marks (member : entry ∈ (readSource bytes).errors)
    (other : entry.message ≠ SourceFault.endNotFound.message) :
    Reading.Marks (ofBytes bytes) entry := by
  obtain ⟨more, added, ends⟩ := (Reading.readLines (ofBytes bytes)).finish_errors
  change (readSource bytes).errors.toList = _ at added
  rw [← Array.mem_toList_iff, added] at member
  rcases List.mem_append.mp member with before | last
  · exact Reading.readLines_marks _ entry before
  · exact absurd (ends entry last) other

theorem readSource_names {cause : SourceFault} (names : cause.Names c)
    (member : entry ∈ (readSource bytes).errors) (same : entry.message = cause.message) :
    ∃ line column, entry.location = some (.ofIndices line column) ∧ Holds bytes line column c := by
  have other : entry.message ≠ SourceFault.endNotFound.message := by
    intro ends
    rw [message_injective (same.symm.trans ends)] at names
    exact names
  cases readSource_marks member other with
  | unreadable =>
      have found : SourceFault.lineUnreadable = cause := message_injective same
      rw [← found] at names
      exact names.elim
  | @character index column text found stands inner =>
      obtain rfl : found = cause := message_injective same
      obtain ⟨front, d, back, split, place, here⟩ := inner
      rw [ofBytes_eq_cut, List.getElem?_map, Option.map_eq_some_iff] at stands
      obtain ⟨raw, cutHere, read⟩ := stands
      have bytesBefore : column = byteLength front := place.trans (Nat.zero_add _)
      rw [here.unique names] at split
      rw [bytesBefore]
      exact ⟨index, _, rfl, raw, cutHere, decode_holds read split⟩

theorem exists_texts {lines : List PhysicalLine} (readable : none ∉ lines) :
    ∃ texts : List String, lines = texts.map some := by
  induction lines with
  | nil => exact ⟨[], rfl⟩
  | cons line rest induction =>
      rw [List.mem_cons, not_or] at readable
      obtain ⟨texts, rfl⟩ := induction readable.2
      cases line with
      | none => exact absurd rfl readable.1
      | some text => exact ⟨text :: texts, rfl⟩

/-- What is reported of a file is where it is reported, by its lines as they are read. -/
structure Addresses (bytes : List UInt8) : Prop where
  /-- A file cannot be read if some of its lines are not UTF-8, as many as the error says. -/
  unreadable : ∀ count, (readSource bytes).source = .error (.unreadable count) ↔
    0 < count ∧ count = (cut bytes).countP (!isUTF8 ·)
  /-- These lines are reported in their order, each at its first byte. -/
  unreadableLines :
    ((readSource bytes).errors.toList.filter (·.message = "source line is unreadable")) =
      ((cut bytes).findIdxs (!isUTF8 ·)).map fun line =>
        .located "source line is unreadable" (.ofIndices line 0)
  /-- Where a closing brace is reported there is one. -/
  braces : ∀ entry ∈ (readSource bytes).errors, entry.message = "unexpected \x7d" →
    ∃ line column, entry.location = some (.ofIndices line column) ∧
      Holds bytes line column '\x7d'
  /-- Where a character is reported there is this one. -/
  characters : ∀ entry ∈ (readSource bytes).errors, ∀ c, entry.message =
      "unexpected char '" ++ c.toString ++ "'- after cpps definition closing ; or \x7d" →
    ∃ line column, entry.location = some (.ofIndices line column) ∧ Holds bytes line column c
  /-- If all lines can be read, a file cannot be read if a definition has no end. -/
  endless : ∀ line, (readSource bytes).source = .error (.endNotFound line) ↔
    ∃ texts : List String, ofBytes bytes = texts.map some ∧ Reading.Unclosed texts line

/-- Every fault of a file is reported at its line and its byte. -/
theorem readSource_addresses (bytes : List UInt8) : Addresses bytes := by
  have isNone : ∀ raw, decide (decode raw = none) = !isUTF8 raw := by
    intro raw
    rw [← decode_isSome]
    cases decode raw <;> rfl
  have unreadable : (Reading.readLines (ofBytes bytes)).unreadable =
      (cut bytes).countP (!isUTF8 ·) := by
    rw [Reading.readLines_unreadable, ofBytes_eq_cut, List.count, List.countP_map]
    refine List.countP_congr fun raw _ => ?_
    rw [← isNone, Function.comp_apply, beq_iff_eq, decide_eq_true_eq]
  refine ⟨?_, ?_, ?_, ?_, ?_⟩
  · intro count
    rw [← unreadable]
    exact Reading.finish_unreadable
  · obtain ⟨more, added, ends⟩ := (Reading.readLines (ofBytes bytes)).finish_errors
    have noMore : more.filter Reading.isUnreadable = [] := by
      rw [List.filter_eq_nil_iff]
      intro entry member unreadable
      have same := (ends entry member).symm.trans (of_decide_eq_true unreadable)
      cases message_injective same
    change (Reading.readLines (ofBytes bytes)).finish.errors.toList.filter Reading.isUnreadable = _
    rw [added, List.filter_append, noMore, List.append_nil, Reading.readLines_filtered,
      ofBytes_eq_cut, List.findIdxs_map, ← funext isNone]
    rfl
  · exact fun entry member same =>
      @readSource_names bytes entry '\x7d' .closeBraceUnexpected rfl member same
  · exact fun entry member c same =>
      @readSource_names bytes entry c (.textAfterDefinition c) rfl member same
  · intro line
    change (Reading.readLines (ofBytes bytes)).finish.source = _ ↔ _
    rw [Reading.finish_endNotFound, Reading.readLines_unreadable, List.count_eq_zero]
    constructor
    · rintro ⟨readable, mode⟩
      obtain ⟨texts, same⟩ := exists_texts readable
      rw [same] at mode
      exact ⟨texts, same, Reading.mode_unclosed.mp mode⟩
    · rintro ⟨texts, same, unclosed⟩
      rw [same]
      exact ⟨by simp, Reading.mode_unclosed.mpr unclosed⟩

/-- A line of a definition that is no text, and a character of two bytes behind its end. -/
example : ((readSource ("f: () = \x7b\n".toUTF8.toList ++ [255, lineFeed] ++
    " \x7d \u00e9\n\x7d".toUTF8.toList)).errors.toList.map fun entry =>
      (entry.message, entry.location)) =
    [("source line is unreadable", some ⟨some 1, some 0⟩),
      ("unexpected char '\u00e9'- after cpps definition closing ; or \x7d", some ⟨some 2, some 3⟩),
      ("unexpected \x7d", some ⟨some 3, some 0⟩)] := by
  decide +kernel

end CppsFrontend
