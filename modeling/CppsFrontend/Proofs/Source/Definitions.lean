import CppsFrontend.Proofs.Source.Ends
import CppsFrontend.Proofs.Source.Steps

/-!
# The lines of a definition

The classifier reads characters and the lexer reads tokens, but both find the same line:
a definition is read up to the first line with a token that ends it, and has no end
exactly if there is none.  Only delimiters in character literals are taken for braces,
semicolons and quotes.
-/

set_option autoImplicit false

namespace CppsFrontend

open Text Lexical

variable {texts : List String} {text : String}

/-! ## Reading a definition -/

namespace Reading

variable {reading now : Reading}

theorem addFaults_errors (reading : Reading) (line : Nat) (faults : List (SourceFault × Nat)) :
    ∃ more, (reading.addFaults line faults).errors = reading.errors ++ more ∧
      (more = #[] ↔ faults = []) := by
  refine ⟨_, rfl, ?_⟩
  simp

/-- What is known behind some lines of a definition that begins with them. -/
structure Behind (reading : Reading) (texts : List String) (now : Reading) : Prop where
  mode : now.mode =
    if (Extent.ofTexts texts).ended then .outside else .definition reading.source.lineCount
  inComment : now.inComment = (!(Extent.ofTexts texts).ended && leavesOpen texts)
  depth : now.depth = (Extent.ofTexts texts).depth
  errors : ∃ more, now.errors = reading.errors ++ more ∧
    (more = #[] ↔ (Extent.ofTexts texts).sound = true ∧
      ¬ ((Extent.ofTexts texts).ended = true ∧ leavesOpen texts = true))
  source : now.source.latestFirst =
    (texts.map fun text => ⟨text, .cpps⟩).reverse ++ Source.claim reading.source.latestFirst
  unreadable : now.unreadable = reading.unreadable

theorem Behind.scan (plainly : LexesPlainly (texts ++ [text]))
    (going : (Extent.ofTexts texts).ended = false)
    (inComment : now.inComment = leavesOpen texts)
    (depth : now.depth = (Extent.ofTexts texts).depth)
    (errors : ∃ more, now.errors = reading.errors ++ more ∧
      (more = #[] ↔ (Extent.ofTexts texts).sound = true))
    (source : now.source.latestFirst =
      ((texts ++ [text]).map fun text => ⟨text, .cpps⟩).reverse ++
        Source.claim reading.source.latestFirst)
    (unreadable : now.unreadable = reading.unreadable) :
    Behind reading (texts ++ [text])
      (now.scanDefinition reading.source.lineCount (text.toList.takeWhile isSpace).length
        (trimmed text)) := by
  have all : Extent.ofTexts (texts ++ [text]) =
      (Extent.across ⟨now.depth, false, true⟩ (piecesBehind texts text)).after
        (Extent.ofTexts texts).sound := by
    have before : Extent.ofTexts texts =
        (⟨now.depth, false, true⟩ : Extent).after (Extent.ofTexts texts).sound := by
      rw [depth, ← going, Extent.after, Bool.and_true]
    rw [Extent.ofTexts_concat, Extent.across_written, Extent.across_written, ← Extent.after_foldl,
      ← before]
  have found : DefinitionScan.Found
      ((DefinitionScan.start now.inComment now.depth).run (text.toList.takeWhile isSpace).length
        (trimmed text))
      (Extent.across ⟨now.depth, false, true⟩ (piecesBehind texts text))
      (leavesOpen (texts ++ [text])) := by
    have readable := plainly.of_concat.2
    rw [leavesOpen_concat]
    rw [piecesBehind, ← inComment] at readable ⊢
    exact DefinitionScan.line_found now.inComment now.depth text.toList readable
  unfold scanDefinition
  generalize (DefinitionScan.start now.inComment now.depth).run
    (text.toList.takeWhile isSpace).length (trimmed text) = scan at found ⊢
  generalize Extent.across ⟨now.depth, false, true⟩ (piecesBehind texts text) = extent at found all
  obtain ⟨more, before, soundBefore⟩ := errors
  obtain ⟨added, after, faultless⟩ := now.addFaults_errors (now.source.lineCount - 1) scan.faults
  have ended : (Extent.ofTexts (texts ++ [text])).ended = extent.ended := by rw [all, Extent.after]
  refine ⟨?_, ?_, ?_, ⟨more ++ added, ?_, ?_⟩, source, unreadable⟩
  · rw [ended, ← found.ended]
  · rw [ended]
    exact found.comment
  · rw [all]
    exact found.depth
  · rw [← Array.append_assoc, ← before]
    exact after
  · have sound : (Extent.ofTexts (texts ++ [text])).sound = true ↔
        (Extent.ofTexts texts).sound = true ∧ extent.sound = true := by
      rw [all, Extent.after, Bool.and_eq_true]
    rw [Array.append_eq_empty_iff, soundBefore, faultless, found.sound, sound, ended, and_assoc]

theorem behind_first (ready : Ready reading) (opens : opensDefinition (trimmed text) = true)
    (plainly : LexesPlainly [text]) : Behind reading [text] (reading.step (some text)) := by
  rw [step_opens ready opens]
  refine @Behind.scan [] text reading _ plainly rfl ready.uncommented ready.shallow
    ⟨#[], ?_, ?_⟩ rfl rfl
  · rw [Array.append_empty]
  · exact ⟨fun _ => rfl, fun _ => rfl⟩

/-- A further line of a definition. -/
theorem Behind.next (behind : Behind reading texts now)
    (going : (Extent.ofTexts texts).ended = false) (plainly : LexesPlainly (texts ++ [text])) :
    Behind reading (texts ++ [text]) (now.step (some text)) := by
  have mode := behind.mode
  have inComment := behind.inComment
  obtain ⟨more, errors, sound⟩ := behind.errors
  rw [going] at mode inComment
  simp only [step, mode]
  refine Behind.scan plainly going ?_ behind.depth ⟨more, errors, ?_⟩ ?_ behind.unreadable
  · exact inComment
  · rw [sound, going]
    exact ⟨And.left, fun sound => ⟨sound, fun both => absurd both.1 Bool.false_ne_true⟩⟩
  · rw [List.map_append, List.reverse_append, List.append_assoc, ← behind.source]
    rfl

/-- A definition is read as long as no line before has ended it. -/
theorem Behind.more (more : List String) (behind : Behind reading texts now)
    (plainly : LexesPlainly (texts ++ more))
    (endless : ∀ front text back, more = front ++ text :: back →
      ¬ EndsIn (lexemesOf (texts ++ front))) :
    Behind reading (texts ++ more) (now.readTexts more) := by
  induction more generalizing texts now with
  | nil =>
      rw [List.append_nil]
      exact behind
  | cons text more induction =>
      rw [List.append_cons] at plainly ⊢
      have going : (Extent.ofTexts texts).ended = false := by
        have none := endless [] text more rfl
        rw [List.append_nil, ← (Extent.ofTexts_describes texts).ended] at none
        exact Bool.eq_false_iff.mpr none
      refine induction (behind.next going plainly.of_append) plainly ?_
      intro front next back split
      have later := endless (text :: front) next back (by rw [split, List.cons_append])
      rw [List.append_cons] at later
      exact later

/-! ## Definitions that begin later -/

/-- From a line on, only definitions that begin there or later may be open. -/
structure Beyond (first : Nat) (now : Reading) : Prop where
  count : first ≤ now.source.lineCount
  mode : ∀ line, now.mode = .definition line → first ≤ line

variable {first : Nat}

theorem add_beyond (text : String) (kind : LineKind) (beyond : Beyond first now) :
    Beyond first (now.add text kind) :=
  ⟨Nat.le_succ_of_le beyond.count, beyond.mode⟩

theorem directiveLine_beyond (text : String) (line : List Char) (beyond : Beyond first now) :
    Beyond first (now.directiveLine text line) := by
  refine ⟨Nat.le_succ_of_le beyond.count, ?_⟩
  intro other mode
  unfold directiveLine at mode
  cases goesOn : continues line <;> rw [goesOn] at mode <;> cases mode

theorem scanDefinition_beyond {start : Nat} (indent : Nat) (line : List Char)
    (count : first ≤ now.source.lineCount) (later : first ≤ start) :
    Beyond first (now.scanDefinition start indent line) := by
  refine ⟨count, ?_⟩
  intro other mode
  unfold scanDefinition at mode
  simp only at mode
  split at mode
  · cases mode
  · cases mode
    exact later

theorem foreignLine_beyond (text : String) (indent : Nat) (line : List Char)
    (beyond : Beyond first now) : Beyond first (now.foreignLine text indent line) :=
  ⟨Nat.le_succ_of_le beyond.count, beyond.mode⟩

theorem definitionStart_beyond (text : String) (indent : Nat) (line : List Char)
    (beyond : Beyond first now) : Beyond first (now.definitionStart text indent line) := by
  have claimed : (now.source.add text .cpps).claimCommentary.lineCount =
      now.source.lineCount + 1 := by
    simp [Source.claimCommentary, Source.add, Source.lineCount]
  refine scanDefinition_beyond indent line ?_ beyond.count
  rw [claimed]
  exact Nat.le_succ_of_le beyond.count

theorem step_beyond (text : String) (beyond : Beyond first now) :
    Beyond first (now.step (some text)) := by
  have takes := now.step_takes (some text)
  generalize now.step (some text) = after at takes ⊢
  cases takes with
  | directive => exact directiveLine_beyond text _ beyond
  | further inside =>
      exact scanDefinition_beyond _ _ (Nat.le_succ_of_le beyond.count) (beyond.mode _ inside)
  | blank => exact add_beyond text .blank beyond
  | opening => exact definitionStart_beyond text _ _ beyond
  | importing => exact add_beyond text .importing beyond
  | foreign => exact foreignLine_beyond text _ _ beyond

theorem readTexts_beyond (texts : List String) (beyond : Beyond first now) :
    Beyond first (now.readTexts texts) := by
  induction texts generalizing now with
  | nil => exact beyond
  | cons text texts induction => exact induction (step_beyond text beyond)

/-! ## The lines of a definition -/

/-- A definition that began behind `reading` has been read to its end. -/
structure Ended (reading : Reading) (texts : List String) (now : Reading) : Prop where
  mode : now.mode = .outside
  inComment : now.inComment = false
  depth : now.depth = 0
  source : now.source.latestFirst =
    (texts.map fun text => ⟨text, .cpps⟩).reverse ++ Source.claim reading.source.latestFirst
  /-- Nothing is reported if only closed comments are behind the end on its line, apart
  from closing braces that close none. -/
  errors : now.errors = reading.errors ↔ ¬ Unmatched (lexemesOf texts) ∧
    EndsLast (lexemesOf texts) ∧ leavesOpen texts = false

theorem Behind.ended (behind : Behind reading texts now) (ends : EndsIn (lexemesOf texts)) :
    Ended reading texts now := by
  have describes := Extent.ofTexts_describes texts
  have ended := describes.ended.mpr ends
  have mode := behind.mode
  have inComment := behind.inComment
  obtain ⟨more, errors, sound⟩ := behind.errors
  rw [ended] at mode inComment sound
  refine ⟨mode, inComment, behind.depth.trans (describes.closed ended), behind.source, ?_⟩
  have closed : ¬ (true = true ∧ leavesOpen texts = true) ↔ leavesOpen texts = false := by
    rw [← Bool.not_eq_true]
    exact ⟨fun notBoth opened => notBoth ⟨rfl, opened⟩, fun closed both => closed both.2⟩
  have unchanged : now.errors = reading.errors ↔ more = #[] := by
    rw [errors, Array.append_right_eq_self]
  rw [unchanged, sound, closed, describes.sound, and_assoc]

theorem Behind.mode_of_endless (behind : Behind reading texts now)
    (endless : ¬ EndsIn (lexemesOf texts)) :
    now.mode = .definition reading.source.lineCount := by
  have mode := behind.mode
  rw [← (Extent.ofTexts_describes texts).ended, Bool.not_eq_true] at endless
  rw [endless] at mode
  exact mode

/-- Behind the end of a definition another may begin, on a later line. -/
theorem Ended.beyond (ended : Ended reading (texts ++ [text]) now) :
    Beyond (reading.source.lineCount + 1) now := by
  refine ⟨?_, ?_⟩
  · have count : now.source.lineCount = texts.length + 1 + reading.source.lineCount := by
      rw [Source.lineCount, ended.source]
      simp only [Source.lineCount, List.length_append, List.length_reverse, List.length_map,
        List.length_singleton, Source.length_claim]
    omega
  · intro line mode
    rw [ended.mode] at mode
    cases mode

/-- Where some line ends the definition, there is a first one that does. -/
theorem exists_first (ends : EndsIn (lexemesOf texts)) :
    ∃ before text behind, texts = before ++ text :: behind ∧ ¬ EndsIn (lexemesOf before) ∧
      EndsIn (lexemesOf (before ++ [text])) := by
  have onward : ∀ before behind, ¬ EndsIn (lexemesOf before) →
      EndsIn (lexemesOf (before ++ behind)) → ∃ front text back, before ++ behind =
        front ++ text :: back ∧ ¬ EndsIn (lexemesOf front) ∧
          EndsIn (lexemesOf (front ++ [text])) := by
    intro before behind endless ends
    induction behind generalizing before with
    | nil =>
        rw [List.append_nil] at ends
        exact absurd ends endless
    | cons text behind induction =>
        by_cases here : EndsIn (lexemesOf (before ++ [text]))
        · exact ⟨before, text, behind, rfl, endless, here⟩
        · rw [List.append_cons] at ends ⊢
          exact induction (before ++ [text]) here ends
  exact onward [] texts not_endsIn_nil ends

theorem finish_endNotFound {line : Nat} : now.finish.source = .error (.endNotFound line) ↔
    now.unreadable = 0 ∧ now.mode = .definition line := by
  unfold finish
  split
  · rename_i readable
    split
    · rename_i first mode
      rw [mode]
      simp [readable]
    · rename_i noDefinition
      refine ⟨nofun, fun both => absurd both.2 (noDefinition line)⟩
  · rename_i unreadable
    exact ⟨nofun, fun both => absurd both.1 unreadable⟩

/-- The lines of a definition are read up to the first one with a token that ends it. -/
structure ReadsDefinition (reading : Reading) (texts : List String) : Prop where
  goesOn : ∀ before behind, texts = before ++ behind → before ≠ [] →
    ¬ EndsIn (lexemesOf before) →
      (reading.readTexts before).mode = .definition reading.source.lineCount
  ends : ∀ before text behind, texts = before ++ text :: behind →
    ¬ EndsIn (lexemesOf before) → EndsIn (lexemesOf (before ++ [text])) →
      Ended reading (before ++ [text]) (reading.readTexts (before ++ [text]))
  /-- The definition has no end exactly if no token ends it. -/
  missing : (reading.readTexts texts).finish.source =
      .error (.endNotFound reading.source.lineCount) ↔
    reading.unreadable = 0 ∧ ¬ EndsIn (lexemesOf texts)

def OpensDefinition (texts : List String) : Prop :=
  ∃ first rest, texts = first :: rest ∧ opensDefinition (trimmed first) = true

theorem behind_lines (ready : Ready reading) (opens : OpensDefinition texts)
    (plainly : LexesPlainly texts)
    (endless : ∀ front text back, texts = front ++ text :: back → ¬ EndsIn (lexemesOf front)) :
    Behind reading texts (reading.readTexts texts) := by
  obtain ⟨first, rest, rfl, begins⟩ := opens
  have head : LexesPlainly [first] := @LexesPlainly.of_append [first] rest plainly
  refine (behind_first ready begins head).more rest plainly ?_
  intro front text back split
  refine endless (first :: front) text back ?_
  rw [split]
  rfl

theorem OpensDefinition.front {before behind : List String}
    (opens : OpensDefinition (before ++ behind)) (nonempty : before ≠ []) :
    OpensDefinition before := by
  obtain ⟨first, rest, split, begins⟩ := opens
  cases before with
  | nil => exact absurd rfl nonempty
  | cons text before =>
      cases (List.cons.inj split).1
      exact ⟨first, before, rfl, begins⟩

theorem definition_read (ready : Ready reading) (opens : OpensDefinition texts)
    (plainly : LexesPlainly texts) : ReadsDefinition reading texts := by
  have behindLines : ∀ before behind, texts = before ++ behind → before ≠ [] →
      (∀ front text back, before = front ++ text :: back → ¬ EndsIn (lexemesOf front)) →
        Behind reading before (reading.readTexts before) := by
    rintro before behind rfl nonempty endless
    exact behind_lines ready (opens.front nonempty) plainly.of_append endless
  have goesOn : ∀ before behind, texts = before ++ behind → before ≠ [] →
      ¬ EndsIn (lexemesOf before) → Behind reading before (reading.readTexts before) := by
    intro before behind split nonempty endless
    refine behindLines before behind split nonempty ?_
    rintro front text back rfl ends
    exact endless ends.append
  have ends : ∀ before text behind, texts = before ++ text :: behind →
      ¬ EndsIn (lexemesOf before) → EndsIn (lexemesOf (before ++ [text])) →
        Ended reading (before ++ [text]) (reading.readTexts (before ++ [text])) := by
    intro before text behind split endless last
    rw [List.append_cons] at split
    refine (behindLines (before ++ [text]) behind split (by simp) ?_).ended last
    intro front next back inner
    rcases concat_split.mp inner with ⟨rfl, _⟩ | ⟨rest, _, rfl⟩
    · exact endless
    · exact fun ends => endless ends.append
  refine ⟨?_, ends, ?_⟩
  · intro before behind split nonempty endless
    exact (goesOn before behind split nonempty endless).mode_of_endless endless
  rw [finish_endNotFound, readTexts_unreadable]
  refine and_congr_right fun _ => ⟨?_, ?_⟩
  · intro mode found
    obtain ⟨before, text, behind, rfl, endless, last⟩ := exists_first found
    have later := (ends before text behind rfl endless last).beyond
    rw [List.append_cons, readTexts_append] at mode
    exact Nat.lt_irrefl _ ((readTexts_beyond behind later).mode _ mode)
  · intro endless
    obtain ⟨first, rest, rfl, _⟩ := opens
    exact (goesOn _ [] (List.append_nil _).symm nofun endless).mode_of_endless endless

end Reading

/-- Delimiters in a string literal and in comments, and a definition over three lines. -/
def guardedDefinition : List String :=
  ["f: (x: int) = \x7b /* \x7b", " ; */ g(\"\x7d;\"); // \x7d", "\x7d // end"]

theorem guardedDefinition_read : Reading.Ready .start ∧
    Reading.OpensDefinition guardedDefinition ∧ LexesPlainly guardedDefinition ∧
      Reading.ReadsDefinition .start guardedDefinition := by
  have ready : Reading.Ready .start := ⟨rfl, rfl, rfl⟩
  have opens : Reading.OpensDefinition guardedDefinition := ⟨_, _, rfl, by decide +kernel⟩
  have plainly : LexesPlainly guardedDefinition := ⟨by decide +kernel, by decide +kernel⟩
  exact ⟨ready, opens, plainly, Reading.definition_read ready opens plainly⟩

def quotedBrace : List String := ["c: char = '\x7b';"]

theorem quotedBrace_endless : Reading.Ready .start ∧ Reading.OpensDefinition quotedBrace ∧
    (lex (.ofTexts quotedBrace)).errors = #[] ∧ EndsIn (lexemesOf quotedBrace) ∧
      (Reading.start.readTexts quotedBrace).finish.source = .error (.endNotFound 0) := by
  have lexemes : lexemesOf quotedBrace = [.identifier, .punctuator .colon, .keyword .charWord,
      .punctuator .assignment, .characterLiteral] ++ .punctuator .semicolon :: [] := by
    decide +kernel
  have missing : (Reading.start.readTexts quotedBrace).mode = .definition 0 := by
    decide +kernel
  refine ⟨⟨rfl, rfl, rfl⟩, ⟨_, _, rfl, by decide +kernel⟩, by decide +kernel,
    ⟨_, _, _, lexemes, .inl ⟨rfl, rfl⟩⟩, ?_⟩
  exact Reading.finish_endNotFound.mpr ⟨rfl, missing⟩

end CppsFrontend
