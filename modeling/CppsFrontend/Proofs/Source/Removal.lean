import CppsFrontend.Proofs.Source.Definitions

/-!
# Taking out a definition

Behind its end a definition has left nothing in the classifier, which is in no braces, in no
comment, and in a string of C++ or not as it was before.  So the lines behind a definition
are read in the same way without it: they have the same kinds and the same reports, as many
lines further up as have been taken out.
-/

set_option autoImplicit false

namespace CppsFrontend

open Text

/-! ## The end of a definition -/

namespace DefinitionScan

variable {scan : DefinitionScan} {column : Nat} {c : Char} {text rest : List Char}

/-- The scan is in no braces and in no string, and a comment that is open is closed by the
text. -/
structure Closing (scan : DefinitionScan) (text : List Char) : Prop where
  shallow : scan.depth = 0
  unquoted : scan.inString = false
  comment : scan.inComment = true → (throughCommentEnd text).2 = true ∨
    scan.previous = '*' ∧ text.head? = some '/'

/-- Outside of comments it does not matter what is behind. -/
theorem Closing.passed (closing : Closing scan text) (outside : ¬ scan.inComment = true)
    (previous : Char) (rest : List Char) : Closing { scan with previous := previous } rest :=
  ⟨closing.shallow, closing.unquoted, fun inside => absurd inside outside⟩

theorem Closing.within (closing : Closing scan (c :: rest))
    (goesOn : ¬ (scan.previous = '*' ∧ c = '/')) : Closing { scan with previous := c } rest := by
  refine ⟨closing.shallow, closing.unquoted, fun inside => ?_⟩
  rcases closing.comment inside with closed | ⟨star, slash⟩
  · unfold throughCommentEnd at closed
    split at closed
    · next same =>
      obtain ⟨rfl, rfl⟩ := List.cons.inj same
      exact .inr ⟨rfl, rfl⟩
    · next same =>
      obtain ⟨rfl, rfl⟩ := List.cons.inj same
      exact .inl closed
    · contradiction
  · exact absurd ⟨star, Option.some.inj slash⟩ goesOn

theorem code_closing (outside : ¬ scan.inComment = true) (unquoted : ¬ scan.inString = true)
    (going : ¬ scan.ended = true) (ended : (scan.code c column).ended = true) :
    Closing (scan.code c column) text := by
  rw [Bool.not_eq_true] at unquoted
  revert ended
  unfold code
  split
  · exact fun ended => absurd ended going
  · unfold closeBrace
    split
    · exact fun ended => absurd ended going
    · intro ended
      exact ⟨of_decide_eq_true ended, unquoted, fun inside => absurd inside outside⟩
  · intro ended
    exact ⟨of_decide_eq_true ended, unquoted, fun inside => absurd inside outside⟩
  · exact fun ended => absurd ended going
  · exact fun ended => absurd ended going

/-- Behind the line on which a definition ends nothing is open. -/
theorem run_closing (column : Nat) (text : List Char)
    (closing : scan.ended = true → Closing scan text)
    (ended : (scan.run column text).ended = true) : Closing (scan.run column text) [] := by
  fun_induction run scan column text with
  | case1 => exact closing ended
  -- inside a comment
  | case2 scan column c rest next inside leaves induction =>
      refine induction (fun ended => ?_) ended
      exact ⟨(closing ended).shallow, (closing ended).unquoted,
        fun inside => absurd inside Bool.false_ne_true⟩
  | case3 scan column c rest next inside goesOn induction =>
      refine induction (fun ended => (closing ended).within ?_) ended
      simpa using goesOn
  -- inside a string, which no definition ends in
  | case4 scan column outside inString escaped rest next induction =>
      exact induction (fun ended => (closing ended).passed outside '\\' rest) ended
  | case5 scan column outside inString rest next induction =>
      refine induction (fun ended => ?_) ended
      exact absurd inString (Bool.eq_false_iff.mp (closing ended).unquoted)
  | case6 scan column c next outside inString rest notEscaped notQuote induction =>
      exact induction (fun ended => (closing ended).passed outside c rest) ended
  -- behind the end
  | case7 scan column outside unquoted done rest =>
      exact (closing done).passed outside scan.previous []
  | case8 scan column outside unquoted done rest closed next induction =>
      refine induction (fun _ => ?_) ended
      exact ⟨(closing done).shallow, (closing done).unquoted, fun _ => .inl closed⟩
  | case9 scan column outside unquoted done rest =>
      exact ⟨(closing done).shallow, (closing done).unquoted, fun inside => absurd inside outside⟩
  | case10 scan column c next outside unquoted done rest space noLine noBlock induction =>
      rw [if_pos space] at ended ⊢
      exact induction (fun ended => (closing ended).passed outside c rest) ended
  | case11 scan column c next outside unquoted done rest visible =>
      rw [if_neg visible]
      exact ⟨(closing done).shallow, (closing done).unquoted, fun inside => absurd inside outside⟩
  -- before the end
  | case12 scan column c rest next outside unquoted going opens induction =>
      exact induction (fun ended => absurd ended going) ended
  | case13 scan column c rest outside unquoted going => exact absurd ended going
  | case14 scan column c rest next outside unquoted going noBlock noLine induction =>
      exact induction (code_closing outside unquoted going) ended

end DefinitionScan

namespace Reading

variable {reading after : Reading} {text : String}

/-- A line of a definition does not change whether a string of C++ is open and begins no
directive.  If the definition ends on it, no comment and no brace is open behind it. -/
structure Leaves (reading after : Reading) : Prop where
  inString : after.inString = reading.inString
  noDirective : after.mode ≠ .directive
  closed : after.mode = .outside → after.inComment = false ∧ after.depth = 0

theorem scanDefinition_leaves (reading : Reading) (first indent : Nat) (line : List Char) :
    Leaves reading (reading.scanDefinition first indent line) := by
  refine ⟨rfl, ?_, fun closed => ?_⟩
  · unfold scanDefinition
    simp only
    split <;> nofun
  unfold scanDefinition at closed ⊢
  simp only at closed ⊢
  split at closed
  · next ended =>
    have closing := DefinitionScan.run_closing indent line
      (fun begun => absurd begun Bool.false_ne_true) ended
    refine ⟨?_, closing.shallow⟩
    rw [← Bool.not_eq_true]
    intro inside
    rcases closing.comment inside with closed | ⟨_, slash⟩
    · cases closed
    · cases slash
  · contradiction

theorem step_leaves (defines : reading.defines text = true) :
    Leaves reading (reading.step (some text)) := by
  rcases defines_iff.mp defines with ⟨first, inside⟩ | ⟨ready, opens⟩
  · rw [← (Takes.further inside).eq_step]
    have leaves := scanDefinition_leaves (reading.add text .cpps) first
      (text.toList.takeWhile isSpace).length (trimmed text)
    exact ⟨leaves.inString, leaves.noDirective, leaves.closed⟩
  · rw [step_opens ready opens]
    have leaves := scanDefinition_leaves
      { reading with source := (reading.source.add text .cpps).claimCommentary }
      reading.source.lineCount (text.toList.takeWhile isSpace).length (trimmed text)
    exact ⟨leaves.inString, leaves.noDirective, leaves.closed⟩

structure IsDefinition (reading : Reading) (texts : List String) : Prop where
  ready : Ready reading
  opens : OpensDefinition texts
  goesOn : ∀ front behind, texts = front ++ behind → front ≠ [] → behind ≠ [] →
    (reading.readTexts front).mode = .definition reading.source.lineCount
  ended : (reading.readTexts texts).mode = .outside

theorem IsDefinition.defines {texts front behind : List String}
    (definition : IsDefinition reading texts) (split : texts = front ++ text :: behind) :
    (reading.readTexts front).defines text = true := by
  by_cases first : front = []
  · subst first
    obtain ⟨first, rest, shape, opens⟩ := definition.opens
    obtain ⟨rfl, rfl⟩ := List.cons.inj (split.symm.trans shape)
    exact defines_iff.mpr (.inr ⟨definition.ready, opens⟩)
  · exact defines_iff.mpr
      (.inl ⟨_, definition.goesOn front (text :: behind) split first (List.cons_ne_nil _ _)⟩)

theorem IsDefinition.inString {texts : List String} (definition : IsDefinition reading texts)
    {front behind : List String} (split : texts = front ++ behind) :
    (reading.readTexts front).inString = reading.inString := by
  induction front using List.reverseRecOn generalizing behind with
  | nil => rfl
  | append_singleton front last induction =>
      rw [List.append_assoc] at split
      rw [readTexts_concat, (step_leaves (definition.defines split)).inString, induction split]

/-- Behind a definition nothing is open but what was open before. -/
theorem IsDefinition.leaves {texts : List String} (definition : IsDefinition reading texts) :
    (reading.readTexts texts).depth = 0 ∧ (reading.readTexts texts).inComment = false ∧
      (reading.readTexts texts).inString = reading.inString := by
  obtain ⟨first, rest, rfl, _⟩ := definition.opens
  obtain ⟨front, last, split⟩ : ∃ front last, first :: rest = front ++ [last] :=
    ⟨_, _, (List.dropLast_concat_getLast (List.cons_ne_nil first rest)).symm⟩
  have ended := definition.ended
  have same := definition.inString (List.append_nil (first :: rest)).symm
  rw [split, readTexts_concat] at ended same ⊢
  obtain ⟨outside, shallow⟩ := (step_leaves (definition.defines split)).closed ended
  exact ⟨shallow, outside, same⟩

end Reading

/-! ## Further down -/

/-- The location `count` lines further down; too far down a line is unknown. -/
def Location.down (count : Nat) (location : Location) : Location :=
  { location with line := axis (rank location.line + count) }

theorem Location.ofIndices_down (count line column : Nat) :
    ofIndices (line + count) column = (ofIndices line column).down count := by
  unfold ofIndices down
  by_cases inside : line < bound
  · rw [rank_axis_of_lt line inside]
  · have unknown : axis line = none := if_neg inside
    have beyond : ∀ more, axis (bound + more) = none := fun more => if_neg (by omega)
    rw [unknown, rank, beyond, axis, if_neg (by omega)]

def Entry.down (count : Nat) (entry : Entry) : Entry :=
  { entry with location := entry.location.map (Location.down count) }

def ReadingMode.down (count : Nat) : ReadingMode → ReadingMode
  | .definition first => .definition (first + count)
  | mode => mode

def ReadError.down (count : Nat) : ReadError → ReadError
  | .endNotFound line => .endNotFound (line + count)
  | .unreadable count => .unreadable count

theorem SourceFault.entry_down (fault : SourceFault) (count line column : Nat) :
    fault.entry (.ofIndices (line + count) column) =
      (fault.entry (.ofIndices line column)).down count := by
  rw [Location.ofIndices_down]
  rfl

/-- The lines added last are claimed alike, whatever stands before them. -/
theorem Source.claim_append (added : List Line) :
    ∃ claimed, ∀ before, ∃ rest, claim (added ++ before) = claimed ++ rest ∧
      rest.length = before.length := by
  induction added with
  | nil => exact ⟨[], fun before => ⟨claim before, rfl, length_claim before⟩⟩
  | cons line added induction =>
      obtain ⟨claimed, same⟩ := induction
      by_cases commentary : line.kind.isCommentary = true
      · refine ⟨{ line with kind := .cpps } :: claimed, fun before => ?_⟩
        obtain ⟨rest, claims, count⟩ := same before
        refine ⟨rest, ?_, count⟩
        rw [List.cons_append, claim, if_pos commentary, claims, List.cons_append]
      · refine ⟨line :: added, fun before => ⟨before, ?_, rfl⟩⟩
        rw [List.cons_append, claim, if_neg commentary]

namespace Reading

variable {count : Nat} {base other now later : Reading}

/-- Two readings have read the same lines behind others, of which one had `count` more. -/
structure Alike (count : Nat) (base other now later : Reading) : Prop where
  mode : later.mode = now.mode.down count
  inComment : later.inComment = now.inComment
  inString : later.inString = now.inString
  depth : later.depth = now.depth
  unreadable : later.unreadable = now.unreadable
  lines : ∃ added front back, now.source.latestFirst = added ++ front ∧
    later.source.latestFirst = added ++ back ∧ front.length = base.source.lineCount ∧
      back.length = base.source.lineCount + count
  errors : ∃ more, now.errors = base.errors ++ more ∧
    later.errors = other.errors ++ more.map (Entry.down count)

namespace Alike

theorem lineCount (alike : Alike count base other now later) :
    later.source.lineCount = now.source.lineCount + count := by
  obtain ⟨added, front, back, short, long, shorter, longer⟩ := alike.lines
  rw [Source.lineCount, Source.lineCount, short, long, List.length_append, List.length_append]
  omega

theorem outside_iff (alike : Alike count base other now later) :
    later.mode = .outside ↔ now.mode = .outside := by
  rw [alike.mode]
  cases now.mode <;> simp [ReadingMode.down]

theorem directive_iff (alike : Alike count base other now later) :
    later.mode = .directive ↔ now.mode = .directive := by
  rw [alike.mode]
  cases now.mode <;> simp [ReadingMode.down]

theorem ready_iff (alike : Alike count base other now later) : Ready later ↔ Ready now := by
  constructor
  · rintro ⟨outside, uncommented, shallow⟩
    exact ⟨alike.outside_iff.mp outside, alike.inComment.symm.trans uncommented,
      alike.depth.symm.trans shallow⟩
  · rintro ⟨outside, uncommented, shallow⟩
    exact ⟨alike.outside_iff.mpr outside, alike.inComment.trans uncommented,
      alike.depth.trans shallow⟩

theorem add (alike : Alike count base other now later) (text : String) (kind : LineKind) :
    Alike count base other (now.add text kind) (later.add text kind) := by
  obtain ⟨added, front, back, short, long, lengths⟩ := alike.lines
  refine { alike with lines := ⟨⟨text, kind⟩ :: added, front, back, ?_, ?_, lengths⟩ }
  · exact congrArg (⟨text, kind⟩ :: ·) short
  · exact congrArg (⟨text, kind⟩ :: ·) long

theorem addFaults (alike : Alike count base other now later) (line : Nat)
    (faults : List (SourceFault × Nat)) :
    Alike count base other (now.addFaults line faults) (later.addFaults (line + count) faults) := by
  obtain ⟨more, short, long⟩ := alike.errors
  let entries := faults.reverse.map fun item => item.1.entry (.ofIndices line item.2)
  have moved : (faults.reverse.map fun item => item.1.entry (.ofIndices (line + count) item.2)) =
      entries.map (Entry.down count) := by
    rw [List.map_map]
    exact List.map_congr_left fun item _ => item.1.entry_down count line item.2
  refine { alike with errors := ⟨more ++ entries.toArray, ?_, ?_⟩ }
  · rw [← Array.append_assoc, ← short]
    rfl
  · unfold Reading.addFaults
    simp only
    rw [moved, Array.map_append, ← Array.append_assoc, ← long, List.map_toArray]

theorem directiveLine (alike : Alike count base other now later) (text : String)
    (line : List Char) :
    Alike count base other (now.directiveLine text line) (later.directiveLine text line) := by
  refine { alike.add text .preprocessor with mode := ?_ }
  unfold Reading.directiveLine
  simp only
  split <;> rfl

theorem scanDefinition (alike : Alike count base other now later) (first indent : Nat)
    (line : List Char) (begun : 0 < now.source.lineCount) :
    Alike count base other (now.scanDefinition first indent line)
      (later.scanDefinition (first + count) indent line) := by
  have last : later.source.lineCount - 1 = now.source.lineCount - 1 + count := by
    have lines := alike.lineCount
    omega
  unfold Reading.scanDefinition
  simp only
  rw [alike.inComment, alike.depth, last]
  generalize (DefinitionScan.start now.inComment now.depth).run indent line = scan
  refine { alike.addFaults (now.source.lineCount - 1) scan.faults with
    inComment := rfl, depth := rfl, mode := ?_ }
  simp only
  split <;> rfl

theorem definitionStart (alike : Alike count base other now later) (text : String)
    (indent : Nat) (line : List Char) :
    Alike count base other (now.definitionStart text indent line)
      (later.definitionStart text indent line) := by
  unfold Reading.definitionStart
  simp only
  rw [alike.lineCount]
  refine scanDefinition ?_ _ indent line ?_
  · obtain ⟨added, front, back, short, long, shorter, longer⟩ := alike.lines
    obtain ⟨claimed, claims⟩ := Source.claim_append added
    obtain ⟨before, shortClaim, shortLength⟩ := claims front
    obtain ⟨behind, longClaim, longLength⟩ := claims back
    refine { alike with lines := ⟨⟨text, .cpps⟩ :: claimed, before, behind, ?_, ?_, ?_, ?_⟩ }
    · exact congrArg (⟨text, .cpps⟩ :: ·) ((congrArg Source.claim short).trans shortClaim)
    · exact congrArg (⟨text, .cpps⟩ :: ·) ((congrArg Source.claim long).trans longClaim)
    · rw [shortLength, shorter]
    · rw [longLength, longer]
  · exact Nat.succ_pos _

theorem foreignLine (alike : Alike count base other now later) (text : String) (indent : Nat)
    (line : List Char) :
    Alike count base other (now.foreignLine text indent line)
      (later.foreignLine text indent line) := by
  unfold Reading.foreignLine
  simp only
  rw [alike.inComment, alike.inString, alike.depth, alike.lineCount]
  generalize (ForeignScan.start now.inComment now.inString now.depth).line indent line = scan
  exact { (alike.addFaults now.source.lineCount scan.faults).add text
      (if scan.hasCode then .cpp else .comment) with
    inComment := rfl, inString := rfl, depth := rfl }

/-- The next line is read in the same way. -/
theorem step (alike : Alike count base other now later) (text : String) :
    Alike count base other (now.step (some text)) (later.step (some text)) := by
  have takes := now.step_takes (some text)
  generalize now.step (some text) = after at takes ⊢
  cases takes with
  | directive begins =>
      rw [← alike.directive_iff, ← alike.outside_iff] at begins
      rw [← (Takes.directive begins).eq_step]
      exact alike.directiveLine text _
  | @further _ first inside =>
      have further : later.mode = .definition (first + count) := by
        rw [alike.mode, inside]
        rfl
      rw [← (Takes.further further).eq_step]
      exact (alike.add text .cpps).scanDefinition first _ _ (Nat.succ_pos _)
  | blank outside empty =>
      rw [← (Takes.blank (alike.outside_iff.mpr outside) empty).eq_step]
      exact alike.add text .blank
  | opening ready opens =>
      rw [step_opens (alike.ready_iff.mpr ready) opens]
      exact alike.definitionStart text _ _
  | importing outside visible noDirective noDefinition imports =>
      rw [← alike.ready_iff] at noDefinition
      rw [← (Takes.importing (alike.outside_iff.mpr outside) visible noDirective noDefinition
        imports).eq_step]
      exact alike.add text .importing
  | foreign outside visible noDirective noDefinition noImport =>
      rw [← alike.ready_iff] at noDefinition
      rw [← (Takes.foreign (alike.outside_iff.mpr outside) visible noDirective noDefinition
        noImport).eq_step]
      exact alike.foreignLine text _ _

theorem readTexts (texts : List String) (alike : Alike count base other now later) :
    Alike count base other (now.readTexts texts) (later.readTexts texts) := by
  induction texts generalizing now later with
  | nil => exact alike
  | cons text texts induction => exact induction (alike.step text)

theorem same_lines (alike : Alike count base other now later) :
    later.source.lines.drop (base.source.lineCount + count) =
      now.source.lines.drop base.source.lineCount := by
  obtain ⟨added, front, back, short, long, shorter, longer⟩ := alike.lines
  have shortLines : now.source.lines = front.reverse ++ added.reverse := by
    rw [Source.lines, short, List.reverse_append]
  have longLines : later.source.lines = back.reverse ++ added.reverse := by
    rw [Source.lines, long, List.reverse_append]
  rw [shortLines, longLines, List.drop_left' (List.length_reverse.trans shorter),
    List.drop_left' (List.length_reverse.trans longer)]

theorem finish (alike : Alike count base other now later) :
    (∃ more, now.finish.errors = base.errors ++ more ∧
      later.finish.errors = other.errors ++ more.map (Entry.down count)) ∧
    (later.finish.source.map fun source => source.lines.drop (base.source.lineCount + count)) =
      (now.finish.source.map fun source =>
        source.lines.drop base.source.lineCount).mapError (ReadError.down count) := by
  obtain ⟨more, short, long⟩ := alike.errors
  unfold Reading.finish
  rw [alike.mode, alike.unreadable]
  split
  · cases mode : now.mode with
    | definition first =>
        refine ⟨⟨more.push (SourceFault.endNotFound.entry (.ofIndices first 0)), ?_, ?_⟩, rfl⟩
        · simp [short]
        · simp [ReadingMode.down, long, SourceFault.entry_down]
    | outside | directive =>
        exact ⟨⟨more, short, long⟩, congrArg Except.ok alike.same_lines⟩
  · exact ⟨⟨more, short, long⟩, rfl⟩

end Alike

/-- Behind a definition the classifier is as it was before, but for lines and reports. -/
theorem IsDefinition.alike {reading : Reading} {texts : List String}
    (definition : IsDefinition reading texts) :
    Alike texts.length reading (reading.readTexts texts) reading (reading.readTexts texts) := by
  obtain ⟨shallow, outside, inString⟩ := definition.leaves
  have ready := definition.ready
  refine ⟨?_, outside.trans ready.uncommented.symm, inString, shallow.trans ready.shallow.symm,
    readTexts_unreadable reading texts, ?_, ⟨#[], by simp, by simp⟩⟩
  · rw [definition.ended, ready.outside]
    rfl
  · exact ⟨[], _, _, rfl, rfl, rfl, readTexts_lineCount reading texts⟩

end Reading

/-- What a file with a definition in it has in common with the same file without it: the lines
behind the definition, and what is reported of them. -/
structure Traceless (before definition behind : List String) : Prop where
  shallow : (Reading.start.readTexts (before ++ definition)).depth = 0
  uncommented : (Reading.start.readTexts (before ++ definition)).inComment = false
  inString : (Reading.start.readTexts (before ++ definition)).inString =
    (Reading.start.readTexts before).inString
  lines : (Reading.start.readTexts (before ++ definition ++ behind)).source.lines.drop
      (before.length + definition.length) =
    (Reading.start.readTexts (before ++ behind)).source.lines.drop before.length
  reports : ∃ more,
    (Reading.start.readTexts (before ++ behind)).finish.errors =
      (Reading.start.readTexts before).errors ++ more ∧
    (Reading.start.readTexts (before ++ definition ++ behind)).finish.errors =
      (Reading.start.readTexts (before ++ definition)).errors ++
        more.map (Entry.down definition.length)
  result : ((Reading.start.readTexts (before ++ definition ++ behind)).finish.source.map
      fun source => source.lines.drop (before.length + definition.length)) =
    ((Reading.start.readTexts (before ++ behind)).finish.source.map
      fun source => source.lines.drop before.length).mapError (ReadError.down definition.length)

/-- A definition that is closed leaves nothing behind in the classifier.  The lines behind it
have the same kinds and the same reports without it, in a file that is as much shorter. -/
theorem definition_traceless {before definition : List String}
    (closed : Reading.IsDefinition (Reading.start.readTexts before) definition)
    (behind : List String) : Traceless before definition behind := by
  obtain ⟨shallow, outside, inString⟩ := closed.leaves
  have alike := closed.alike.readTexts behind
  have count : (Reading.start.readTexts before).source.lineCount = before.length := by
    rw [Reading.readTexts_lineCount]
    exact Nat.zero_add _
  have lines := alike.same_lines
  obtain ⟨reports, result⟩ := alike.finish
  simp only [count, ← Reading.readTexts_append] at shallow outside inString lines reports result
  exact ⟨shallow, outside, inString, lines, reports, result⟩

/-- A definition over two lines, with a comment before it, and lines that are reported. -/
def describedBody : List String := ["f: (x: int) = \x7b /* \x7d", "*/ x = \"\x7d;\"; \x7d y"]

theorem describedBody_traceless :
    Reading.IsDefinition (Reading.start.readTexts ["int a;", "// f"]) describedBody ∧
      Traceless ["int a;", "// f"] describedBody ["// g", "g: int = 1; 2", "\x7d", "h: int"] ∧
      ((Reading.start.readTexts (["int a;", "// f"] ++ describedBody ++
        ["// g", "g: int = 1; 2", "\x7d", "h: int"])).finish.errors.map Entry.location) =
          #[some ⟨some 3, some 15⟩, some ⟨some 5, some 12⟩, some ⟨some 6, some 0⟩,
            some ⟨some 7, some 0⟩] := by
  have closed : Reading.IsDefinition (Reading.start.readTexts ["int a;", "// f"])
      describedBody := by
    refine ⟨⟨by decide +kernel, by decide +kernel, by decide +kernel⟩,
      ⟨_, _, rfl, by decide +kernel⟩, ?_, by decide +kernel⟩
    rintro (_ | ⟨first, _ | ⟨second, front⟩⟩) behind split begun ends
    · exact absurd rfl begun
    · cases split
      decide +kernel
    · obtain ⟨-, split⟩ := List.cons.inj split
      obtain ⟨-, split⟩ := List.cons.inj split
      exact absurd (List.append_eq_nil_iff.mp split.symm).2 ends
  exact ⟨closed, definition_traceless closed _, by decide +kernel⟩

end CppsFrontend
