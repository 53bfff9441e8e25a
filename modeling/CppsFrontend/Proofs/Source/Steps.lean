import Mathlib.Data.List.Induction
import CppsFrontend.Source.Reading

/-!
# One line of a file

A line is read in one of seven ways, which the classifier tries in a fixed order.  Each of
them adds one line to the source, and only the beginning of a definition changes the kinds of
the lines before.
-/

set_option autoImplicit false

namespace CppsFrontend

open Text

namespace Reading

variable {reading after : Reading} {physical : PhysicalLine} {text : String}

def readLines (lines : List PhysicalLine) : Reading := lines.foldl step start

theorem readLines_concat (before : List PhysicalLine) (last : PhysicalLine) :
    readLines (before ++ [last]) = (readLines before).step last := by
  rw [readLines, List.foldl_append]
  rfl

def readTexts (reading : Reading) (texts : List String) : Reading :=
  (texts.map some).foldl step reading

theorem readTexts_append (reading : Reading) (before behind : List String) :
    reading.readTexts (before ++ behind) = (reading.readTexts before).readTexts behind := by
  rw [readTexts, List.map_append, List.foldl_append]
  rfl

theorem readTexts_concat (reading : Reading) (before : List String) (last : String) :
    reading.readTexts (before ++ [last]) = (reading.readTexts before).step (some last) :=
  readTexts_append reading before [last]

def trimmed (text : String) : List Char := text.toList.dropWhile isSpace

/-- The classifier is where a definition may begin. -/
structure Ready (reading : Reading) : Prop where
  outside : reading.mode = .outside
  uncommented : reading.inComment = false
  shallow : reading.depth = 0

theorem opensDefinition_visible {line : List Char} (opens : opensDefinition line = true) :
    line.isEmpty = false ∧ line.head? ≠ some '#' := by
  cases line with
  | nil => cases opens
  | cons c rest =>
      refine ⟨rfl, ?_⟩
      intro hash
      cases hash
      cases opens

/-! ## The ways to read a line -/

/-- The ways to read a line, each with what it has been recognized by. -/
inductive Takes (reading : Reading) : PhysicalLine → Reading → Prop where
  | unreadable : Takes reading none reading.unreadableLine
  | directive {text : String}
      (begins : reading.mode = .directive ∨
        reading.mode = .outside ∧ (trimmed text).head? = some '#') :
      Takes reading (some text) (reading.directiveLine text (trimmed text))
  | further {text : String} {first : Nat} (inside : reading.mode = .definition first) :
      Takes reading (some text) ((reading.add text .cpps).scanDefinition first
        (text.toList.takeWhile isSpace).length (trimmed text))
  | blank {text : String} (outside : reading.mode = .outside) (empty : trimmed text = []) :
      Takes reading (some text) (reading.add text .blank)
  | opening {text : String} (ready : Ready reading)
      (opens : opensDefinition (trimmed text) = true) :
      Takes reading (some text) (reading.definitionStart text
        (text.toList.takeWhile isSpace).length (trimmed text))
  | importing {text : String} (outside : reading.mode = .outside)
      (visible : trimmed text ≠ []) (noDirective : (trimmed text).head? ≠ some '#')
      (noDefinition : ¬ (Ready reading ∧ opensDefinition (trimmed text) = true))
      (imports : "import".toList.isPrefixOf (trimmed text) = true) :
      Takes reading (some text) (reading.add text .importing)
  | foreign {text : String} (outside : reading.mode = .outside)
      (visible : trimmed text ≠ []) (noDirective : (trimmed text).head? ≠ some '#')
      (noDefinition : ¬ (Ready reading ∧ opensDefinition (trimmed text) = true))
      (noImport : "import".toList.isPrefixOf (trimmed text) = false) :
      Takes reading (some text) (reading.foreignLine text
        (text.toList.takeWhile isSpace).length (trimmed text))

theorem notOpening (outside : reading.mode = .outside)
    (noDefinition : ¬ (Ready reading ∧ opensDefinition (trimmed text) = true)) :
    (!reading.inComment && reading.depth = 0 && opensDefinition (trimmed text)) = false := by
  rw [← Bool.not_eq_true]
  intro opens
  simp only [Bool.and_eq_true, Bool.not_eq_true', decide_eq_true_eq] at opens
  exact noDefinition ⟨⟨outside, opens.1.1, opens.1.2⟩, opens.2⟩

theorem outsideLine_takes (text : String) (outside : reading.mode = .outside) :
    Takes reading (some text) (reading.outsideLine text
      (text.toList.takeWhile isSpace).length (trimmed text)) := by
  unfold outsideLine
  split
  · next empty => exact .blank outside (List.isEmpty_iff.mp empty)
  · next visible =>
    rw [List.isEmpty_iff] at visible
    split
    · next hash => exact .directive (.inr ⟨outside, hash⟩)
    · next noDirective =>
      split
      · next opens =>
        simp only [Bool.and_eq_true, Bool.not_eq_true', decide_eq_true_eq] at opens
        exact .opening ⟨outside, opens.1.1, opens.1.2⟩ opens.2
      · next closed =>
        have noDefinition : ¬ (Ready reading ∧ opensDefinition (trimmed text) = true) := by
          rintro ⟨ready, opens⟩
          exact closed (by simp [ready.uncommented, ready.shallow, opens])
        split
        · next imports => exact .importing outside visible noDirective noDefinition imports
        · next noImport =>
          exact .foreign outside visible noDirective noDefinition (Bool.eq_false_iff.mpr noImport)

theorem step_takes (reading : Reading) (physical : PhysicalLine) :
    Takes reading physical (reading.step physical) := by
  cases physical with
  | none => exact .unreadable
  | some text =>
      unfold step
      split
      · contradiction
      · next other same =>
        obtain rfl := Option.some.inj same
        split
        · next outside => exact outsideLine_takes text outside
        · next directive => exact .directive (.inl directive)
        · next first inside => exact .further inside

/-- There is only one way to read a line. -/
theorem Takes.eq_step (takes : Takes reading physical after) : after = reading.step physical := by
  cases takes with
  | unreadable => rfl
  | @directive text begins =>
      rcases begins with directive | ⟨outside, hash⟩
      · simp only [step, directive]
        rfl
      · have visible : (trimmed text).isEmpty = false := by
          rw [List.isEmpty_eq_false_iff]
          intro empty
          rw [empty] at hash
          cases hash
        rw [trimmed] at hash visible
        simp only [step, outside, outsideLine, visible, hash, Bool.false_eq_true, if_false, if_true]
        rfl
  | further inside =>
      simp only [step, inside]
      rfl
  | blank outside empty =>
      rw [trimmed] at empty
      simp only [step, outside, outsideLine, empty, List.isEmpty_nil, if_true]
  | opening ready opens =>
      obtain ⟨visible, noHash⟩ := opensDefinition_visible opens
      rw [trimmed] at opens visible noHash
      simp only [step, ready.outside, outsideLine, visible, noHash, ready.uncommented,
        ready.shallow, opens, Bool.not_false, decide_true, Bool.true_and, Bool.false_eq_true,
        if_false, if_true]
      rfl
  | importing outside visible noDirective noDefinition imports =>
      have closed := notOpening outside noDefinition
      rw [← List.isEmpty_eq_false_iff] at visible
      rw [trimmed] at visible noDirective closed imports
      simp only [step, outside, outsideLine, visible, noDirective, closed, imports,
        Bool.false_eq_true, if_false, if_true]
  | foreign outside visible noDirective noDefinition noImport =>
      have closed := notOpening outside noDefinition
      rw [← List.isEmpty_eq_false_iff] at visible
      rw [trimmed] at visible noDirective closed noImport
      simp only [step, outside, outsideLine, visible, noDirective, closed, noImport,
        Bool.false_eq_true, if_false]
      rfl

/-- A line that opens a definition begins one. -/
theorem step_opens (ready : Ready reading) (opens : opensDefinition (trimmed text) = true) :
    reading.step (some text) = reading.definitionStart text
      (text.toList.takeWhile isSpace).length (trimmed text) :=
  (Takes.opening ready opens).eq_step.symm

def defines (reading : Reading) (text : String) : Bool :=
  match reading.mode with
  | .outside => !reading.inComment && reading.depth = 0 && opensDefinition (trimmed text)
  | .directive => false
  | .definition _ => true

theorem defines_iff : reading.defines text = true ↔
    (∃ first, reading.mode = .definition first) ∨
      Ready reading ∧ opensDefinition (trimmed text) = true := by
  unfold defines
  cases mode : reading.mode with
  | outside =>
      simp only [Bool.and_eq_true, Bool.not_eq_true', decide_eq_true_eq]
      constructor
      · rintro ⟨⟨uncommented, shallow⟩, opens⟩
        exact .inr ⟨⟨mode, uncommented, shallow⟩, opens⟩
      · rintro (⟨_, inside⟩ | ⟨ready, opens⟩)
        · cases inside
        · exact ⟨⟨ready.uncommented, ready.shallow⟩, opens⟩
  | directive =>
      refine ⟨nofun, ?_⟩
      rintro (⟨_, inside⟩ | ⟨ready, _⟩)
      · cases inside
      · cases mode.symm.trans ready.outside
  | definition first => exact ⟨fun _ => .inl ⟨first, rfl⟩, fun _ => rfl⟩

/-! ## The line that is added -/

theorem add_lines (reading : Reading) (text : String) (kind : LineKind) :
    (reading.add text kind).source.lines = reading.source.lines ++ [⟨text, kind⟩] :=
  reading.source.lines_add text kind

/-- A line is added behind others, which only the beginning of a definition claims. -/
inductive AddsLine (before : List Line) (text : String) : List Line → Prop where
  | plain (kind : LineKind) : AddsLine before text (⟨text, kind⟩ :: before)
  | claiming : AddsLine before text (⟨text, .cpps⟩ :: Source.claim before)

/-- Every line adds one line with its text; one that cannot be read adds an empty one. -/
theorem Takes.addsLine (takes : Takes reading physical after) :
    AddsLine reading.source.latestFirst (physical.getD "") after.source.latestFirst := by
  cases takes with
  | unreadable => exact .plain .cpp
  | directive => exact .plain .preprocessor
  | further => exact .plain .cpps
  | blank => exact .plain .blank
  | opening => exact .claiming
  | importing => exact .plain .importing
  | foreign => exact .plain _

theorem step_addsLine (reading : Reading) (physical : PhysicalLine) :
    AddsLine reading.source.latestFirst (physical.getD "")
      (reading.step physical).source.latestFirst :=
  (reading.step_takes physical).addsLine

theorem texts_claim (lines : List Line) :
    (Source.claim lines).map Line.text = lines.map Line.text := by
  induction lines with
  | nil => rfl
  | cons line rest induction =>
      unfold Source.claim
      split
      · exact congrArg (line.text :: ·) induction
      · rfl

theorem AddsLine.texts {before behind : List Line} (adds : AddsLine before text behind) :
    behind.map Line.text = text :: before.map Line.text := by
  cases adds with
  | plain => rfl
  | claiming => exact congrArg (text :: ·) (texts_claim before)

theorem step_lineCount (reading : Reading) (physical : PhysicalLine) :
    (reading.step physical).source.lineCount = reading.source.lineCount + 1 := by
  have texts := congrArg List.length (reading.step_addsLine physical).texts
  simpa [Source.lineCount] using texts

/-- The texts of the lines, those that cannot be read being empty. -/
theorem readLines_texts (lines : List PhysicalLine) :
    (readLines lines).source.lines.map Line.text = lines.map (Option.getD · "") := by
  induction lines using List.reverseRecOn with
  | nil => rfl
  | append_singleton front last induction =>
      have texts := ((readLines front).step_addsLine last).texts
      rw [Source.lines, List.map_reverse] at induction
      rw [readLines_concat, Source.lines, List.map_reverse, texts, List.reverse_cons, induction,
        List.map_append]
      rfl

theorem readLines_lineCount (lines : List PhysicalLine) :
    (readLines lines).source.lineCount = lines.length := by
  have count := congrArg List.length (readLines_texts lines)
  simpa [Source.lineCount, Source.lines] using count

theorem readTexts_lineCount (reading : Reading) (texts : List String) :
    (reading.readTexts texts).source.lineCount = reading.source.lineCount + texts.length := by
  induction texts generalizing reading with
  | nil => rfl
  | cons text texts induction =>
      refine (induction (reading.step (some text))).trans ?_
      rw [step_lineCount, List.length_cons, Nat.add_assoc, Nat.add_comm 1]

/-! ## Lines that cannot be read -/

theorem Takes.unreadable_eq (takes : Takes reading (some text) after) :
    after.unreadable = reading.unreadable := by
  cases takes <;> rfl

theorem step_unreadable (now : Reading) (text : String) :
    (now.step (some text)).unreadable = now.unreadable :=
  (now.step_takes (some text)).unreadable_eq

theorem readTexts_unreadable (now : Reading) (texts : List String) :
    (now.readTexts texts).unreadable = now.unreadable := by
  induction texts generalizing now with
  | nil => rfl
  | cons text texts induction =>
    exact (induction (now.step (some text))).trans (step_unreadable now text)

theorem readLines_unreadable (lines : List PhysicalLine) :
    (readLines lines).unreadable = lines.count none := by
  induction lines using List.reverseRecOn with
  | nil => rfl
  | append_singleton front last induction =>
      rw [readLines_concat, List.count_append, ← induction]
      cases last with
      | none => rfl
      | some text => exact step_unreadable _ text

end Reading

end CppsFrontend
