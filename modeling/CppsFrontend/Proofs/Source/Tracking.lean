import Mathlib.Data.List.Induction
import CppsFrontend.Proofs.Source.Tracking.Lines

/-!
# Braces and strings of C++

Between definitions the classifier counts braces, and knows where it is by the character
before.  On lines of C++ it counts exactly the braces outside of literals and comments,
and is outside of strings behind every line, but for literals whose end or neighbour the
character before cannot tell, and for lines that begin like an import.
-/

set_option autoImplicit false

namespace CppsFrontend

open Text Cpp

/-! ## Files -/

namespace Cpp

/-- A line of C++, what it is made of, and whether a comment is open behind it. -/
structure CppLine where
  text : String
  items : List Item
  inComment : Bool

def commentBehind (lines : List CppLine) : Bool :=
  (lines.getLast?.map CppLine.inComment).getD false

def itemsOf (lines : List CppLine) : List Item := lines.flatMap CppLine.items

/-- Lines of C++ without directives.  None opens a definition, which is only possible outside
of comments and of all braces, and no brace closes more than has been opened. -/
structure CppText (lines : List CppLine) : Prop where
  reads : ∀ front line, front ++ [line] <+: lines →
    Reads (commentBehind front) (Reading.trimmed line.text) line.items line.inComment
  noDirective : ∀ line ∈ lines, (Reading.trimmed line.text).head? ≠ some '#'
  noDefinition : ∀ front line, front ++ [line] <+: lines → commentBehind front = false →
    closed (itemsOf front) = opened (itemsOf front) →
      opensDefinition (Reading.trimmed line.text) = false
  closable : Closable 0 (itemsOf lines)

/-- The classifier can follow the items, and a line that begins like an import leaves depth
and comments as they are. -/
structure TrackedText (lines : List CppLine) : Prop where
  tracked : ∀ line ∈ lines, isTracked line.items = true
  imports : ∀ front line, front ++ [line] <+: lines →
    "import".toList.isPrefixOf (Reading.trimmed line.text) = true →
      line.inComment = commentBehind front ∧ closed line.items = opened line.items

variable {lines front : List CppLine} {line : CppLine}

theorem itemsOf_concat : itemsOf (front ++ [line]) = itemsOf front ++ line.items := by
  simp [itemsOf]

theorem cppText_nil : CppText [] :=
  ⟨fun _ _ within => by simp at within, nofun, fun _ _ within => by simp at within,
    by decide⟩

theorem CppText.concat (text : CppText front)
    (reads : Reads (commentBehind front) (Reading.trimmed line.text) line.items line.inComment)
    (noDirective : (Reading.trimmed line.text).head? ≠ some '#')
    (noDefinition : commentBehind front = false →
      closed (itemsOf front) = opened (itemsOf front) →
        opensDefinition (Reading.trimmed line.text) = false)
    (closable : Closable 0 (itemsOf (front ++ [line]))) : CppText (front ++ [line]) where
  reads before other within := by
    rcases List.prefix_concat_iff.mp within with same | within
    · obtain ⟨rfl, rfl⟩ := List.append_singleton_inj.mp same
      exact reads
    · exact text.reads before other within
  noDirective other member := by
    rcases List.mem_append.mp member with member | member
    · exact text.noDirective other member
    · obtain rfl := List.mem_singleton.mp member
      exact noDirective
  noDefinition before other within := by
    rcases List.prefix_concat_iff.mp within with same | within
    · obtain ⟨rfl, rfl⟩ := List.append_singleton_inj.mp same
      exact noDefinition
    · exact text.noDefinition before other within
  closable := closable

theorem CppText.of_prefix (text : CppText lines) (begins : front <+: lines) : CppText front where
  reads before line within := text.reads before line (within.trans begins)
  noDirective line member := text.noDirective line (begins.mem member)
  noDefinition before line within := text.noDefinition before line (within.trans begins)
  closable := by
    obtain ⟨more, rfl⟩ := begins
    have whole := text.closable
    rw [itemsOf, List.flatMap_append] at whole
    exact whole.front

theorem TrackedText.of_prefix (text : TrackedText lines) (begins : front <+: lines) :
    TrackedText front where
  tracked line member := text.tracked line (begins.mem member)
  imports before line within := text.imports before line (within.trans begins)

end Cpp

namespace Reading

variable {reading : Reading} {lines front : List CppLine} {line : CppLine}

/-- The classifier is outside of strings and definitions, its depth is the number of braces
that are open, and nothing has been reported or taken for a definition. -/
structure Follows (reading : Reading) (lines : List CppLine) : Prop where
  mode : reading.mode = .outside
  inString : reading.inString = false
  inComment : reading.inComment = commentBehind lines
  depth : reading.depth + closed (itemsOf lines) = opened (itemsOf lines)
  errors : reading.errors = #[]
  readable : reading.unreadable = 0
  texts : reading.source.lines.map Line.text = lines.map CppLine.text
  foreign : ∀ line ∈ reading.source.lines, line.kind ≠ .cpps

theorem follows_start : Follows .start [] :=
  ⟨rfl, rfl, rfl, rfl, rfl, rfl, rfl, nofun⟩

theorem Follows.add (follows : Follows reading front) {kind : LineKind} (foreign : kind ≠ .cpps)
    (comment : line.inComment = commentBehind front)
    (balanced : closed line.items = opened line.items) :
    Follows (reading.add line.text kind) (front ++ [line]) := by
  refine ⟨follows.mode, follows.inString, ?_, ?_, follows.errors, follows.readable, ?_, ?_⟩
  · rw [commentBehind, List.getLast?_concat]
    exact follows.inComment.trans comment.symm
  · have depth := follows.depth
    rw [itemsOf_concat, opened_append, closed_append]
    change reading.depth + _ = _
    omega
  · rw [add_lines, List.map_append, List.map_append, follows.texts]
    rfl
  · intro other member
    rw [add_lines, List.mem_append, List.mem_singleton] at member
    rcases member with member | rfl
    · exact follows.foreign other member
    · exact foreign

theorem Follows.foreignLine (follows : Follows reading front) (indent : Nat)
    (reads : Reads (commentBehind front) (trimmed line.text) line.items line.inComment)
    (tracked : isTracked line.items = true) (closable : Closable reading.depth line.items) :
    Follows (reading.foreignLine line.text indent (trimmed line.text)) (front ++ [line]) := by
  have counts : ForeignScan.Counts
      (ForeignScan.start reading.inComment reading.inString reading.depth)
      ((ForeignScan.start reading.inComment reading.inString reading.depth).line indent
        (trimmed line.text)) line.items line.inComment :=
    ForeignScan.line_counts reads follows.inString follows.inComment rfl tracked closable
  unfold Reading.foreignLine
  generalize (ForeignScan.start reading.inComment reading.inString reading.depth).line indent
    (trimmed line.text) = scan at counts ⊢
  have faultless : scan.faults = [] := counts.faults
  have lines := add_lines reading line.text (if scan.hasCode then .cpp else .comment)
  refine ⟨follows.mode, counts.inString, ?_, ?_, ?_, follows.readable, ?_, ?_⟩
  · rw [commentBehind, List.getLast?_concat]
    exact counts.inComment
  · have before := follows.depth
    have depth := counts.depth
    rw [itemsOf_concat, opened_append, closed_append]
    change scan.depth + closed line.items = reading.depth + opened line.items at depth
    change scan.depth + _ = _
    omega
  · obtain ⟨more, errors, none⟩ := reading.addFaults_errors reading.source.lineCount scan.faults
    change (reading.addFaults reading.source.lineCount scan.faults).errors = #[]
    rw [errors, none.mpr faultless, follows.errors]
    rfl
  · change (reading.add line.text _).source.lines.map Line.text = _
    rw [lines, List.map_append, List.map_append, follows.texts]
    rfl
  · intro other member
    change other ∈ (reading.add line.text _).source.lines at member
    rw [lines, List.mem_append, List.mem_singleton] at member
    rcases member with member | rfl
    · exact follows.foreign other member
    · change (if scan.hasCode then LineKind.cpp else .comment) ≠ .cpps
      split <;> decide

theorem Follows.step (follows : Follows reading front) (text : CppText (front ++ [line]))
    (tracked : TrackedText (front ++ [line])) :
    Follows (reading.step (some line.text)) (front ++ [line]) := by
  have within : front ++ [line] <+: front ++ [line] := List.prefix_refl _
  have member : line ∈ front ++ [line] := List.mem_concat_self
  have reads := text.reads front line within
  have stepped : reading.step (some line.text) = reading.outsideLine line.text
      (line.text.toList.takeWhile isSpace).length (trimmed line.text) := by
    simp only [Reading.step, follows.mode]
    rfl
  have noDefinition : ¬ (!reading.inComment && decide (reading.depth = 0) &&
      opensDefinition (trimmed line.text)) = true := by
    intro opens
    simp only [Bool.and_eq_true, Bool.not_eq_true', decide_eq_true_eq] at opens
    obtain ⟨⟨outside, shallow⟩, opens⟩ := opens
    have depth := follows.depth
    rw [shallow, Nat.zero_add] at depth
    rw [text.noDefinition front line within (follows.inComment.symm.trans outside) depth] at opens
    cases opens
  rw [stepped, outsideLine, if_neg (text.noDirective line member), if_neg noDefinition]
  split
  · next empty =>
      rw [List.isEmpty_iff] at empty
      rw [empty] at reads
      obtain ⟨none, same⟩ := reads.of_nil
      exact follows.add (by decide) same (by rw [none]; rfl)
  · split
    · next import_ =>
        obtain ⟨comment, balanced⟩ := tracked.imports front line within import_
        exact follows.add (by decide) comment balanced
    · have closable := text.closable
      rw [itemsOf_concat] at closable
      have depth := follows.depth
      exact follows.foreignLine _ reads (tracked.tracked line member)
        (closable.of_append (by omega))

theorem readTexts_follows {lines : List CppLine} (text : CppText lines)
    (tracked : TrackedText lines) :
    Follows (start.readTexts (lines.map CppLine.text)) lines := by
  induction lines using List.reverseRecOn with
  | nil => exact follows_start
  | append_singleton front line induction =>
      have begins : front <+: front ++ [line] := List.prefix_append front [line]
      rw [List.map_append, readTexts_append]
      exact (induction (text.of_prefix begins) (tracked.of_prefix begins)).step text tracked

end Reading

/-- On lines of C++ the classifier is outside of strings behind every line, and its depth is
the number of braces that are open outside of literals and comments.  So it reports nothing
and takes no line for a definition, as long as the character before does not mislead it and
no line that begins like an import opens or closes braces or comments. -/
theorem cppText_followed {lines : List CppLine} (text : CppText lines)
    (tracked : TrackedText lines) :
    (∀ count, Reading.Follows
      (Reading.start.readTexts ((lines.take count).map CppLine.text)) (lines.take count)) ∧
    ∀ bytes, PhysicalLine.ofBytes bytes = (lines.map CppLine.text).map some →
      (readSource bytes).errors = #[] ∧ ∃ source, (readSource bytes).source = .ok source ∧
        source.lines.map Line.text = lines.map CppLine.text ∧
        ∀ line ∈ source.lines, line.kind ≠ .cpps := by
  refine ⟨fun count => ?_, fun bytes physical => ?_⟩
  · have begins := List.take_prefix count lines
    exact Reading.readTexts_follows (text.of_prefix begins) (tracked.of_prefix begins)
  · have follows := Reading.readTexts_follows text tracked
    have read : readSource bytes =
        (Reading.start.readTexts (lines.map CppLine.text)).finish := by
      rw [readSource, physical]
      rfl
    rw [read, Reading.finish, if_pos follows.readable, follows.mode]
    exact ⟨follows.errors, _, rfl, follows.texts, follows.foreign⟩

/-- Braces in literals and comments, and a label inside a body. -/
def labelledBody : List CppLine := [
  ⟨"void f(int n) \x7b // \x7b",
    "void f(int n) ".toList.map .code ++
      .brace true :: (" ".toList.map .code ++ [.comment]), false⟩,
  ⟨"label: s = \"\\\"\x7b\\\\ \";",
    "label: s = ".toList.map .code ++
      .string [.escaped '"', .plain '\x7b', .escaped '\\', .plain ' '] :: [.code ';'], false⟩,
  ⟨"c = '\x7d' + '\\'' + 1'000; /* \x7b",
    "c = ".toList.map .code ++ .character false '\x7d' :: (" + ".toList.map .code ++
      .character true '\'' :: (" + ".toList.map .code ++
        .number :: ("; ".toList.map .code ++ [.comment]))), true⟩,
  ⟨"\x7d import */ \x7d", [.code ' ', .brace false], false⟩]

theorem labelledBody_text : CppText labelledBody := by
  have first : CppText (labelledBody.take 1) := by
    refine @CppText.concat [] _ cppText_nil ?_ (by decide +kernel) (fun _ _ => by decide +kernel)
      (by decide +kernel)
    have split : Reading.trimmed "void f(int n) \x7b // \x7b" =
        "void f(int n) ".toList ++ '\x7b' :: (" ".toList ++ '/' :: '/' :: " \x7b".toList) := by
      decide +kernel
    rw [split]
    exact .codes _ (by decide +kernel) (.openBrace (.codes _ (by decide +kernel) (.lineComment _)))
  have second : CppText (labelledBody.take 2) := by
    refine @CppText.concat (labelledBody.take 1) _ first ?_ (by decide +kernel)
      (fun _ shallow => absurd shallow (by decide +kernel)) (by decide +kernel)
    have split : Reading.trimmed "label: s = \"\\\"\x7b\\\\ \";" =
        "label: s = ".toList ++ '"' :: ("\\\"\x7b\\\\ ".toList ++ ['"', ';']) := by
      decide +kernel
    rw [split]
    refine .codes _ (by decide +kernel) (.string ?_ rfl (.codes [';'] (by decide) (.done false)))
    simp [Element.IsValid]
  have third : CppText (labelledBody.take 3) := by
    refine @CppText.concat (labelledBody.take 2) _ second ?_ (by decide +kernel)
      (fun _ shallow => absurd shallow (by decide +kernel)) (by decide +kernel)
    have split : Reading.trimmed "c = '\x7d' + '\\'' + 1'000; /* \x7b" =
        "c = ".toList ++ '\'' :: '\x7d' :: '\'' :: (" + ".toList ++
          '\'' :: '\\' :: '\'' :: '\'' :: (" + ".toList ++
            '1' :: ("'000".toList ++ ("; ".toList ++ '/' :: '*' :: (" \x7b".toList ++ []))))) := by
      decide +kernel
    rw [split]
    exact .codes _ (by decide +kernel) (.character (by decide) (by decide)
      (.codes _ (by decide +kernel) (.escapedCharacter (.codes _ (by decide +kernel)
        (.number rfl (by decide +kernel) rfl (.codes _ (by decide +kernel)
          (.openComment (.comments _ (by decide +kernel) (.done true)))))))))
  refine @CppText.concat (labelledBody.take 3) _ third ?_ (by decide +kernel)
    (fun outside => absurd outside (by decide)) (by decide +kernel)
  have split : Reading.trimmed "\x7d import */ \x7d" =
      "\x7d import ".toList ++ '*' :: '/' :: ' ' :: '\x7d' :: [] := by
    decide +kernel
  rw [split]
  exact .comments _ (by decide +kernel) (.closeComment (.codes [' '] (by decide)
    (.closeBrace (.done false))))

theorem labelledBody_followed : CppText labelledBody ∧ TrackedText labelledBody ∧
    Reading.Follows (Reading.start.readTexts (labelledBody.map CppLine.text)) labelledBody := by
  have noImport : ∀ line ∈ labelledBody,
      "import".toList.isPrefixOf (Reading.trimmed line.text) = false := by
    decide +kernel
  have tracked : TrackedText labelledBody := by
    refine ⟨by decide +kernel, fun front line within begins => ?_⟩
    rw [noImport line (within.mem List.mem_concat_self)] at begins
    cases begins
  exact ⟨labelledBody_text, tracked, (cppText_followed labelledBody_text tracked).1 4⟩

/-- A string that ends with an escaped backslash, before a body with a label. -/
def escapedBackslash : List CppLine := [
  ⟨"const char* s = \"\\\\\";", "const char* s = ".toList.map .code ++
    [.string [.escaped '\\'], .code ';'], false⟩,
  ⟨"void f() \x7b", "void f() ".toList.map .code ++ [.brace true], false⟩,
  ⟨"label: x();", "label: x();".toList.map .code ++ [], false⟩,
  ⟨"\x7d", [.brace false], false⟩]

/-- The string does not end for the classifier, the brace behind it does not count, and the
label is taken for a definition. -/
theorem escapedBackslash_misread : CppText escapedBackslash ∧
    (Reading.start.readTexts ((escapedBackslash.take 1).map CppLine.text)).inString = true ∧
    (Reading.start.readTexts (escapedBackslash.map CppLine.text)).source.lines.map Line.kind =
      [.cpp, .cpp, .cpps, .cpp] := by
  have first : CppText (escapedBackslash.take 1) := by
    refine @CppText.concat [] _ cppText_nil ?_ (by decide +kernel) (fun _ _ => by decide +kernel)
      (by decide +kernel)
    have split : Reading.trimmed "const char* s = \"\\\\\";" =
        "const char* s = ".toList ++ '"' :: (['\\', '\\'] ++ '"' :: ([';'] ++ [])) := by
      decide +kernel
    rw [split]
    exact .codes _ (by decide +kernel) (.string (by simp [Element.IsValid]) rfl
      (.codes _ (by decide) (.done false)))
  have second : CppText (escapedBackslash.take 2) := by
    refine @CppText.concat (escapedBackslash.take 1) _ first ?_ (by decide +kernel)
      (fun _ _ => by decide +kernel) (by decide +kernel)
    have split : Reading.trimmed "void f() \x7b" = "void f() ".toList ++ ['\x7b'] := by
      decide +kernel
    rw [split]
    exact .codes _ (by decide +kernel) (.openBrace (.done false))
  have third : CppText (escapedBackslash.take 3) := by
    refine @CppText.concat (escapedBackslash.take 2) _ second ?_ (by decide +kernel)
      (fun _ shallow => absurd shallow (by decide +kernel)) (by decide +kernel)
    have split : Reading.trimmed "label: x();" = "label: x();".toList ++ [] := by decide +kernel
    rw [split]
    exact .codes _ (by decide +kernel) (.done false)
  have text : CppText escapedBackslash := by
    refine @CppText.concat (escapedBackslash.take 3) _ third ?_ (by decide +kernel)
      (fun _ _ => by decide +kernel) (by decide +kernel)
    have split : Reading.trimmed "\x7d" = ['\x7d'] := by decide +kernel
    rw [split]
    exact .closeBrace (.done false)
  exact ⟨text, by decide +kernel, by decide +kernel⟩

end CppsFrontend
