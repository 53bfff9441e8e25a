import CppsFrontend.Proofs.Source.Definitions

/-!
# Definitions without an end

Of the characters of a definition those in comments and string literals do not count.  Among
the others a semicolon in no braces ends it, or the brace that closes its outermost one.  A
file ends inside a definition exactly if no character behind its beginning ends it.
-/

set_option autoImplicit false

namespace CppsFrontend

open Text

/-! ## The code of a definition -/

inductive Within where
  | code
  | comment
  | string
deriving DecidableEq

/-- The code of a line of a definition, and whether a comment is open behind it.  A string
literal ends with its line, and quotes are no code. -/
def codeOf : Within → List Char → List Char × Bool
  | .comment, '*' :: '/' :: rest => codeOf .code rest
  | .comment, _ :: rest => codeOf .comment rest
  | .string, '\\' :: _ :: rest => codeOf .string rest
  | .string, '"' :: rest => codeOf .code rest
  | .string, _ :: rest => codeOf .string rest
  | .code, '/' :: '*' :: rest => codeOf .comment rest
  | .code, '/' :: '/' :: _ => ([], false)
  | .code, '"' :: rest => codeOf .string rest
  | .code, c :: rest => (c :: (codeOf .code rest).1, (codeOf .code rest).2)
  | within, [] => ([], within = .comment)

def codeOfLines (texts : List String) : List Char × Bool :=
  texts.foldl (fun before text =>
    let line := codeOf (if before.2 then .comment else .code) (Reading.trimmed text)
    (before.1 ++ line.1, line.2)) ([], false)

theorem codeOfLines_concat (texts : List String) (text : String) :
    codeOfLines (texts ++ [text]) =
      ((codeOfLines texts).1 ++ (codeOf (if (codeOfLines texts).2 then .comment else .code)
        (Reading.trimmed text)).1,
      (codeOf (if (codeOfLines texts).2 then .comment else .code) (Reading.trimmed text)).2) := by
  rw [codeOfLines, List.foldl_append]
  rfl

/-- How many braces are open behind some code, if some are open before.  A closing brace may
close none. -/
def bracesBehind (depth : Nat) (code : List Char) : Nat :=
  code.foldl (fun depth c =>
    if c = '\x7b' then depth + 1 else if c = '\x7d' then depth - 1 else depth) depth

/-- A character of code in so many braces ends the definition. -/
def EndsAt (depth : Nat) (c : Char) : Prop := c = ';' ∧ depth = 0 ∨ c = '\x7d' ∧ depth = 1

def Endless (depth : Nat) (code : List Char) : Prop :=
  ∀ front c back, code = front ++ c :: back → ¬ EndsAt (bracesBehind depth front) c

variable {depth : Nat} {c : Char} {front back text rest : List Char}

theorem bracesBehind_append (depth : Nat) (front back : List Char) :
    bracesBehind depth (front ++ back) = bracesBehind (bracesBehind depth front) back :=
  List.foldl_append

theorem endless_nil (depth : Nat) : Endless depth [] := by
  intro front c back split
  cases front <;> cases split

theorem endless_cons :
    Endless depth (c :: rest) ↔ ¬ EndsAt depth c ∧ Endless (bracesBehind depth [c]) rest := by
  constructor
  · intro endless
    refine ⟨endless [] c rest rfl, ?_⟩
    rintro front next back rfl
    exact endless (c :: front) next back rfl
  · rintro ⟨here, later⟩ front next back split
    cases front with
    | nil =>
        obtain ⟨rfl, rfl⟩ := List.cons.inj split
        exact here
    | cons first front =>
        obtain ⟨rfl, rfl⟩ := List.cons.inj split
        exact later front next back rfl

theorem endless_append :
    Endless depth (front ++ back) ↔
      Endless depth front ∧ Endless (bracesBehind depth front) back := by
  induction front generalizing depth with
  | nil => exact ⟨fun endless => ⟨endless_nil depth, endless⟩, And.right⟩
  | cons c front induction =>
      rw [List.cons_append, endless_cons, endless_cons, induction, and_assoc]
      rfl

namespace DefinitionScan

variable {scan after : DefinitionScan} {column : Nat} {within : Within}

/-! ## The scan over the code -/

structure At (scan : DefinitionScan) (within : Within) (text : List Char) : Prop where
  going : scan.ended = false
  comment : scan.inComment = decide (within = .comment)
  string : scan.inString = decide (within = .string)
  /-- The character before opens no comment with the next one. -/
  apart : within = .code → scan.previous = '/' → text.head? ≠ some '/' ∧ text.head? ≠ some '*'
  /-- The character before does not close the comment with the next one. -/
  inside : within = .comment → scan.previous = '*' → text.head? ≠ some '/'

/-- What the scan of some code finds. -/
structure Finds (depth : Nat) (code : List Char) (opened : Bool) (after : DefinitionScan) :
    Prop where
  going : after.ended = false ↔ Endless depth code
  depth : after.ended = false → after.depth = bracesBehind depth code
  comment : after.ended = false → after.inComment = opened

/-- A character of code counts as a brace or ends the definition. -/
theorem code_counts (going : scan.ended = false) (noQuote : c ≠ '"') :
    ((scan.code c column).ended = false ↔ ¬ EndsAt scan.depth c) ∧
      ((scan.code c column).ended = false →
        (scan.code c column).depth = bracesBehind scan.depth [c]) := by
  unfold code EndsAt bracesBehind
  split
  · simp [going]
  · unfold closeBrace
    split
    · next shallow => simp [fault, going, shallow]
    · next depth deep => simp [deep]
  · simp
  · exact absurd rfl noQuote
  · next noOpen noClose noSemicolon _ =>
    replace noOpen : c ≠ '\x7b' := noOpen
    replace noClose : c ≠ '\x7d' := noClose
    replace noSemicolon : c ≠ ';' := noSemicolon
    simp [noOpen, noClose, noSemicolon, going]

theorem code_keeps (noQuote : c ≠ '"') :
    (scan.code c column).inComment = scan.inComment ∧
      (scan.code c column).inString = scan.inString ∧ (scan.code c column).previous = c := by
  unfold code
  split
  · exact ⟨rfl, rfl, rfl⟩
  · exact ⟨closeBrace_inComment scan column, closeBrace_inString scan column, rfl⟩
  · exact ⟨rfl, rfl, rfl⟩
  · exact absurd rfl noQuote
  · exact ⟨rfl, rfl, rfl⟩

/-- No further character of code has been passed. -/
theorem Finds.nothing {opened : Bool} (going : scan.ended = false)
    (comment : scan.inComment = opened) : Finds scan.depth [] opened scan :=
  ⟨⟨fun _ => endless_nil _, fun _ => going⟩, fun _ => rfl, fun _ => comment⟩

theorem Finds.of_ended {code : List Char} {opened : Bool} (ended : after.ended = true)
    (ends : ¬ Endless depth code) : Finds depth code opened after := by
  have never : ¬ after.ended = false := by simp [ended]
  exact ⟨⟨fun going => absurd going never, fun endless => absurd endless ends⟩,
    fun going => absurd going never, fun going => absurd going never⟩

theorem At.isGoing (state : At scan .code text) : Going scan :=
  ⟨state.comment, state.string, state.going⟩

theorem At.run_code (state : At scan .code (c :: rest)) :
    scan.run column (c :: rest) = (scan.code c column).run (column + c.utf8Size) rest := by
  refine DefinitionScan.run_code state.isGoing ?_
  rintro ⟨slash, rfl | rfl⟩
  · exact (state.apart rfl slash).1 rfl
  · exact (state.apart rfl slash).2 rfl

theorem At.run_slash (state : At scan .code ('/' :: rest)) :
    scan.run column ('/' :: rest) =
      ({ scan with previous := '/' } : DefinitionScan).run (column + 1) rest := by
  rw [state.run_code, code_plain rfl]
  rfl

theorem At.next (state : At scan .code (c :: rest)) (noQuote : c ≠ '"')
    (noBlock : c = '/' → rest.head? ≠ some '*') (noLine : c = '/' → rest.head? ≠ some '/')
    (going : (scan.code c column).ended = false) : At (scan.code c column) .code rest := by
  obtain ⟨sameComment, sameString, last⟩ := @code_keeps c scan column noQuote
  refine ⟨going, sameComment.trans state.comment, sameString.trans state.string, ?_, nofun⟩
  rw [last]
  exact fun _ slash => ⟨noLine slash, noBlock slash⟩

/-- The scan passes a text as its code says, up to a character that ends the definition. -/
theorem run_finds (within : Within) (text : List Char) (state : At scan within text) :
    Finds scan.depth (codeOf within text).1 (codeOf within text).2 (scan.run column text) := by
  fun_induction codeOf within text generalizing scan column with
  -- inside a comment
  | case1 rest induction =>
      have star : ¬ (scan.previous = '*' ∧ '*' = '/') := fun both => absurd both.2 (by decide)
      rw [run_comment state.comment, if_neg star,
        @run_comment { scan with previous := '*' } _ _ _ state.comment, if_pos ⟨rfl, rfl⟩]
      exact @induction scan.leaveComment _
        ⟨state.going, rfl, state.string,
          fun _ slash => absurd slash (show ¬ ' ' = '/' by decide), nofun⟩
  | case2 c rest notEnd induction =>
      have other : ¬ (scan.previous = '*' ∧ c = '/') := by
        rintro ⟨star, rfl⟩
        exact state.inside rfl star rfl
      rw [run_comment state.comment, if_neg other]
      refine @induction { scan with previous := c } _
        ⟨state.going, state.comment, state.string, nofun, fun _ star slash => ?_⟩
      obtain ⟨behind, rfl⟩ := List.head?_eq_some_iff.mp slash
      exact notEnd behind star rfl
  -- inside a string literal
  | case3 escaped rest induction =>
      rw [run_escape state.comment state.string]
      exact @induction { scan with previous := '\\' } _
        ⟨state.going, state.comment, state.string, nofun, nofun⟩
  | case4 rest induction =>
      rw [run_quote state.comment state.string]
      exact @induction { scan with inString := false, previous := '"' } _
        ⟨state.going, state.comment, rfl,
          fun _ slash => absurd slash (show ¬ '"' = '/' by decide), nofun⟩
  | case5 c rest notEscape notQuote induction =>
      have final : c = '\\' → rest = [] := by
        rintro rfl
        cases rest with
        | nil => rfl
        | cons escaped rest => exact (notEscape escaped rest rfl rfl).elim
      rw [run_stringText state.comment state.string final notQuote]
      exact @induction { scan with previous := c } _
        ⟨state.going, state.comment, state.string, nofun, nofun⟩
  -- code
  | case6 rest induction =>
      have going : Going { scan with previous := '/' } := state.isGoing.behind ['/']
      rw [state.run_slash, run_blockOpening going rfl]
      exact @induction (enterComment { scan with previous := '/' }) _
        ⟨state.going, rfl, state.string, nofun,
          fun _ star => absurd star (show ¬ ' ' = '*' by decide)⟩
  | case7 rest =>
      have going : Going { scan with previous := '/' } := state.isGoing.behind ['/']
      rw [state.run_slash, run_lineOpening going rfl]
      exact @Finds.nothing { scan with previous := '/' } false state.going state.comment
  | case8 rest induction =>
      rw [state.run_code]
      exact @induction { scan with inString := true, previous := '"' } _
        ⟨state.going, state.comment, rfl, nofun, nofun⟩
  | case9 c rest noBlock noLine noQuote induction =>
      have noQuote : c ≠ '"' := noQuote
      obtain ⟨counts, depth⟩ := @code_counts c scan column state.going noQuote
      rw [state.run_code]
      by_cases ends : EndsAt scan.depth c
      · have ended : (scan.code c column).ended = true := by
          rw [← Bool.not_eq_false, counts]
          exact not_not_intro ends
        exact .of_ended (run_ended (column + c.utf8Size) rest ended)
          fun endless => (endless_cons.mp endless).1 ends
      · have going := counts.mpr ends
        have finds := @induction (scan.code c column) (column + c.utf8Size)
          (state.next noQuote ?_ ?_ going)
        · rw [depth going] at finds
          refine ⟨?_, finds.depth, finds.comment⟩
          rw [finds.going, endless_cons]
          exact ⟨fun endless => ⟨ends, endless⟩, And.right⟩
        · rintro rfl star
          obtain ⟨behind, rfl⟩ := List.head?_eq_some_iff.mp star
          exact noBlock behind rfl rfl
        · rintro rfl slash
          obtain ⟨behind, rfl⟩ := List.head?_eq_some_iff.mp slash
          exact noLine behind rfl rfl
  | case10 within =>
      rw [run_nil]
      exact .nothing state.going state.comment

theorem start_finds (inComment : Bool) (depth indent : Nat) (text : List Char) :
    Finds depth (codeOf (if inComment then .comment else .code) text).1
      (codeOf (if inComment then .comment else .code) text).2
      ((start inComment depth).run indent text) := by
  have slash : ¬ ' ' = '/' := by decide
  have star : ¬ ' ' = '*' := by decide
  cases inComment with
  | true =>
      exact @run_finds (start true depth) indent .comment text
        ⟨rfl, rfl, rfl, nofun, fun _ same => absurd same star⟩
  | false =>
      exact @run_finds (start false depth) indent .code text
        ⟨rfl, rfl, rfl, fun _ same => absurd same slash, nofun⟩

end DefinitionScan

namespace Reading

variable {now : Reading} {texts : List String} {text : String} {first line : Nat}

/-! ## Files that end inside a definition -/

/-- The definition that some lines begin goes on behind them. -/
structure GoesOn (first : Nat) (texts : List String) (now : Reading) : Prop where
  mode : now.mode = .definition first
  depth : now.depth = bracesBehind 0 (codeOfLines texts).1
  comment : now.inComment = (codeOfLines texts).2
  endless : Endless 0 (codeOfLines texts).1

/-- The next line of a definition leaves it open exactly if no character ends it. -/
theorem scanDefinition_goesOn (indent : Nat)
    (depth : now.depth = bracesBehind 0 (codeOfLines texts).1)
    (comment : now.inComment = (codeOfLines texts).2) (endless : Endless 0 (codeOfLines texts).1) :
    (Endless 0 (codeOfLines (texts ++ [text])).1 →
      GoesOn first (texts ++ [text]) (now.scanDefinition first indent (trimmed text))) ∧
    ∀ line, (now.scanDefinition first indent (trimmed text)).mode = .definition line →
      line = first ∧ Endless 0 (codeOfLines (texts ++ [text])).1 := by
  have finds := DefinitionScan.start_finds now.inComment now.depth indent (trimmed text)
  rw [comment, depth] at finds
  have more : Endless 0 (codeOfLines (texts ++ [text])).1 ↔
      Endless (bracesBehind 0 (codeOfLines texts).1)
        (codeOf (if (codeOfLines texts).2 then .comment else .code) (trimmed text)).1 := by
    rw [codeOfLines_concat, endless_append]
    exact ⟨And.right, fun later => ⟨endless, later⟩⟩
  unfold scanDefinition
  rw [comment, depth]
  generalize (DefinitionScan.start (codeOfLines texts).2
    (bracesBehind 0 (codeOfLines texts).1)).run indent (trimmed text) = scan at finds ⊢
  constructor
  · intro endless
    have going := finds.going.mpr (more.mp endless)
    refine ⟨if_neg (Bool.eq_false_iff.mp going), ?_, ?_, endless⟩
    · rw [codeOfLines_concat, bracesBehind_append]
      exact finds.depth going
    · rw [codeOfLines_concat]
      exact finds.comment going
  · intro line mode
    simp only at mode
    split at mode
    · cases mode
    · next going =>
      cases mode
      exact ⟨rfl, more.mpr (finds.going.mp (Bool.eq_false_iff.mpr going))⟩

theorem GoesOn.next (goesOn : GoesOn first texts now) (text : String) :
    (Endless 0 (codeOfLines (texts ++ [text])).1 →
      GoesOn first (texts ++ [text]) (now.step (some text))) ∧
    ∀ line, (now.step (some text)).mode = .definition line →
      line = first ∧ Endless 0 (codeOfLines (texts ++ [text])).1 := by
  rw [← (Takes.further goesOn.mode).eq_step]
  exact scanDefinition_goesOn _ goesOn.depth goesOn.comment goesOn.endless

theorem Ready.begins (ready : Ready now) (opens : opensDefinition (trimmed text) = true) :
    (Endless 0 (codeOfLines [text]).1 →
      GoesOn now.source.lineCount [text] (now.step (some text))) ∧
    ∀ line, (now.step (some text)).mode = .definition line →
      line = now.source.lineCount ∧ Endless 0 (codeOfLines [text]).1 := by
  rw [step_opens ready opens]
  exact @scanDefinition_goesOn { now with source := (now.source.add text .cpps).claimCommentary }
    [] text now.source.lineCount (text.toList.takeWhile isSpace).length ready.shallow
    ready.uncommented (endless_nil 0)

/-- A definition is open as long as no character ends it. -/
theorem goesOn_of_endless (ready : Ready now) (opens : OpensDefinition texts)
    (endless : Endless 0 (codeOfLines texts).1) :
    GoesOn now.source.lineCount texts (now.readTexts texts) := by
  obtain ⟨first, rest, rfl, begins⟩ := opens
  induction rest using List.reverseRecOn with
  | nil => exact (ready.begins begins).1 endless
  | append_singleton front last induction =>
      rw [← List.cons_append] at endless ⊢
      have before : Endless 0 (codeOfLines (first :: front)).1 := by
        rw [codeOfLines_concat, endless_append] at endless
        exact endless.1
      rw [readTexts_concat]
      exact ((induction before).next last).1 endless

/-- The definition that begins on a line of a file has no end. -/
def Unclosed (texts : List String) (line : Nat) : Prop :=
  ∃ before behind, texts = before ++ behind ∧ before.length = line ∧
    Ready (start.readTexts before) ∧ OpensDefinition behind ∧ Endless 0 (codeOfLines behind).1

/-- Where a definition is open, it has begun on the line that is remembered. -/
theorem goesOn_of_mode (mode : (start.readTexts texts).mode = .definition line) :
    ∃ before behind, texts = before ++ behind ∧ before.length = line ∧
      Ready (start.readTexts before) ∧ OpensDefinition behind ∧
        GoesOn line behind (start.readTexts texts) := by
  induction texts using List.reverseRecOn generalizing line with
  | nil => cases mode
  | append_singleton front last induction =>
      have takes := (start.readTexts front).step_takes (some last)
      rw [readTexts_concat] at mode ⊢
      generalize same : (start.readTexts front).step (some last) = after at takes mode ⊢
      cases takes with
      | directive =>
          simp only [directiveLine] at mode
          split at mode <;> cases mode
      | further inside =>
          obtain ⟨before, behind, rfl, count, ready, opens, goesOn⟩ := induction inside
          obtain ⟨goes, begun⟩ := goesOn.next last
          rw [same] at goes begun
          obtain ⟨rfl, endless⟩ := begun line mode
          refine ⟨before, behind ++ [last], List.append_assoc .., count, ready, ?_, goes endless⟩
          obtain ⟨first, rest, rfl, opens⟩ := opens
          exact ⟨first, rest ++ [last], rfl, opens⟩
      | opening ready opens =>
          obtain ⟨goes, begun⟩ := ready.begins opens
          rw [same] at goes begun
          obtain ⟨rfl, endless⟩ := begun line mode
          refine ⟨front, [last], rfl, ?_, ready, ⟨last, [], rfl, opens⟩, goes endless⟩
          rw [readTexts_lineCount]
          exact (Nat.zero_add _).symm
      | blank outside | importing outside | foreign outside => cases outside.symm.trans mode

/-- A file ends inside a definition exactly if that has no end. -/
theorem mode_unclosed : (start.readTexts texts).mode = .definition line ↔ Unclosed texts line := by
  constructor
  · intro mode
    obtain ⟨before, behind, split, count, ready, opens, goesOn⟩ := goesOn_of_mode mode
    exact ⟨before, behind, split, count, ready, opens, goesOn.endless⟩
  · rintro ⟨before, behind, rfl, rfl, ready, opens, endless⟩
    have goesOn := goesOn_of_endless ready opens endless
    rw [readTexts_lineCount] at goesOn
    rw [readTexts_append, goesOn.mode]
    exact congrArg ReadingMode.definition (Nat.zero_add _)

end Reading

end CppsFrontend
