import CppsFrontend.Proofs.Source.Definitions

/-!
# Commentary before a definition

The lines of comments and space before a definition become part of it.  Lexed from where
the first of them begins, inside a comment or not, they have no tokens and no errors, and
no comment is open behind them.
-/

set_option autoImplicit false

namespace CppsFrontend

open Text Lexical

/-! ## Text without tokens -/

/-- A text has no tokens and no faults, and a comment is open behind it if `opened`. -/
structure Quiet (inComment : Bool) (text : List Char) (opened : Bool) : Prop where
  silent : ∀ piece ∈ pieces inComment text, piece.faults = [] ∧ piece.written? = none
  opened : openAfter inComment (pieces inComment text) = opened

namespace Quiet

variable {text rest : List Char} {inComment opened : Bool} {c : Char}

theorem nil (inComment : Bool) : Quiet inComment [] inComment := by
  refine ⟨?_, ?_⟩
  · rw [pieces]
    exact List.forall_mem_nil _
  · rw [pieces]
    rfl

theorem cons {piece : Piece} (front : pieceAt inComment c rest = piece)
    (faultless : piece.faults = []) (noToken : piece.written? = none)
    (quiet : Quiet piece.kind.leavesCommentOpen (rest.drop piece.tail.length) opened) :
    Quiet inComment (c :: rest) opened := by
  refine ⟨?_, ?_⟩
  · rw [pieces, front]
    exact List.forall_mem_cons.mpr ⟨⟨faultless, noToken⟩, quiet.silent⟩
  · rw [pieces, front]
    exact quiet.opened

theorem lineComment (behind : List Char) : Quiet false ('/' :: '/' :: behind) false := by
  have nothing : ('/' :: behind).drop ('/' :: behind).length = [] := List.drop_length
  refine @cons _ _ _ _ ⟨.lineComment, '/', '/' :: behind, []⟩ rfl rfl rfl ?_
  rw [nothing]
  exact nil false

theorem blockComment {behind : List Char} (quiet : Quiet true behind opened) :
    Quiet false ('/' :: '*' :: behind) opened :=
  @cons _ _ _ _ ⟨.commentOpening, '/', ['*'], []⟩ rfl rfl rfl quiet

theorem commentText (whole : (throughCommentEnd text).1 = text) :
    Quiet true text (!(throughCommentEnd text).2) := by
  cases text with
  | nil => exact nil true
  | cons c rest =>
      have all : (commentPiece c rest).tail = rest := by
        rw [commentPiece, whole]
        rfl
      refine @cons _ _ _ _ (commentPiece c rest) rfl rfl rfl ?_
      rw [all, List.drop_length]
      exact nil _

theorem indented (quiet : Quiet false (text.dropWhile isSpace) opened) :
    Quiet false text opened := by
  cases text with
  | nil => exact quiet
  | cons c rest =>
      by_cases space : isSpace c = true
      · refine @cons _ _ _ _ ⟨.space, c, rest.takeWhile isSpace, []⟩ (codePiece_space space)
          rfl rfl ?_
        rw [List.dropWhile_cons_of_pos space] at quiet
        have split : (rest.takeWhile isSpace ++ rest.dropWhile isSpace).drop
            (rest.takeWhile isSpace).length = rest.dropWhile isSpace := List.drop_left
        rw [List.takeWhile_append_dropWhile] at split
        rw [split]
        exact quiet
      · rw [List.dropWhile_cons_of_neg space] at quiet
        exact quiet

theorem throughCommentEnd_append {front back : List Char} (noStar : ∀ c ∈ front, c ≠ '*') :
    throughCommentEnd (front ++ back) =
      (front ++ (throughCommentEnd back).1, (throughCommentEnd back).2) := by
  induction front with
  | nil => rfl
  | cons c front induction =>
      have rest := induction fun d member => noStar d (List.mem_cons_of_mem c member)
      have other : c ≠ '*' := noStar c List.mem_cons_self
      rw [List.cons_append, throughCommentEnd, rest]
      · rfl
      · rintro behind rfl
        exact absurd rfl other

theorem indentedComment
    (whole : (throughCommentEnd (text.dropWhile isSpace)).1 = text.dropWhile isSpace) :
    Quiet true text (!(throughCommentEnd (text.dropWhile isSpace)).2) := by
  have noStar : ∀ c ∈ text.takeWhile isSpace, c ≠ '*' := by
    rintro c member rfl
    exact absurd (List.all_eq_true.mp List.all_takeWhile _ member) (by decide)
  have split := @throughCommentEnd_append _ (text.dropWhile isSpace) noStar
  rw [List.takeWhile_append_dropWhile] at split
  have same : (throughCommentEnd text).2 = (throughCommentEnd (text.dropWhile isSpace)).2 := by
    rw [split]
  rw [← same]
  refine commentText ?_
  rw [split, whole, List.takeWhile_append_dropWhile]

end Quiet

/-! ## Lines of comments -/

namespace ForeignScan

variable {scan : ForeignScan} {column : Nat} {c : Char} {text rest : List Char}

theorem run_hasCode (text : List Char) (code : scan.hasCode = true) :
    (scan.run column text).hasCode = true := by
  induction text generalizing scan column with
  | nil => exact code
  | cons c rest induction =>
      unfold run
      simp only
      split
      · split
        · exact induction code
        · exact induction code
      · split
        · exact induction rfl
        · split
          · rfl
          · exact induction rfl

theorem run_outside (outside : scan.inComment = false) :
    (scan.run column (c :: rest)).hasCode = true := by
  unfold run
  rw [outside]
  simp only [Bool.false_eq_true, if_false]
  split
  · exact run_hasCode rest rfl
  · split
    · rfl
    · exact run_hasCode rest rfl

theorem run_comment (inside : scan.inComment = true) :
    scan.run column (c :: rest) =
      if scan.previous = '*' ∧ c = '/' then
        ({ scan with inComment := false, previous := ' ' } : ForeignScan).run
          (column + c.utf8Size) rest
      else ({ scan with previous := c } : ForeignScan).run (column + c.utf8Size) rest := by
  rw [run.eq_def]
  simp only [inside, Bool.and_eq_true, decide_eq_true_eq, if_true]

/-- A line of a comment ends behind the comment, or inside it. -/
theorem run_commentOnly (text : List Char) (inside : scan.inComment = true)
    (apart : scan.previous = '*' → text.head? ≠ some '/')
    (commentOnly : (scan.run column text).hasCode = false) :
    (throughCommentEnd text).1 = text ∧
      (scan.run column text).inComment = !(throughCommentEnd text).2 := by
  fun_induction throughCommentEnd text generalizing scan column with
  | case1 rest =>
      have star : ¬ (scan.previous = '*' ∧ '*' = '/') := fun both => absurd both.2 (by decide)
      rw [run_comment inside, if_neg star, @run_comment { scan with previous := '*' } _ _ _ inside,
        if_pos ⟨rfl, rfl⟩] at commentOnly ⊢
      cases rest with
      | nil => exact ⟨rfl, rfl⟩
      | cons c rest =>
          rw [run_outside rfl] at commentOnly
          cases commentOnly
  | case2 c rest notEnd after =>
      rename_i induction
      have other : ¬ (scan.previous = '*' ∧ c = '/') := by
        rintro ⟨star, rfl⟩
        exact apart star rfl
      have next : c = '*' → rest.head? ≠ some '/' := by
        rintro rfl slash
        cases rest with
        | nil => cases slash
        | cons d rest =>
            cases Option.some.inj slash
            exact notEnd rest rfl rfl
      rw [run_comment inside, if_neg other] at commentOnly ⊢
      obtain ⟨whole, ends⟩ := @induction { scan with previous := c } _ inside next commentOnly
      exact ⟨congrArg (c :: ·) whole, ends⟩
  | case3 => exact ⟨rfl, inside⟩

/-- Outside comments and strings a line without code begins with a comment. -/
theorem line_opensComment (depth : Nat) (text : List Char) (visible : text ≠ [])
    (commentOnly : ((start false false depth).line column text).hasCode = false) :
    Quiet false text ((start false false depth).line column text).inComment := by
  have outside : ¬ ((start false false depth).inComment ||
      (start false false depth).inString) = true := Bool.false_ne_true
  unfold line at commentOnly ⊢
  rw [if_neg outside] at commentOnly ⊢
  split at commentOnly
  · exact .lineComment _
  · obtain ⟨whole, ends⟩ := run_commentOnly _ rfl
      (fun star => absurd star (show ¬ ' ' = '*' by decide)) commentOnly
    refine .blockComment ?_
    rw [ends]
    exact .commentText whole
  · cases text with
    | nil => exact absurd rfl visible
    | cons c rest =>
        rw [run_outside rfl] at commentOnly
        cases commentOnly

/-- A line without code has no tokens, and is in a comment behind it as the classifier
says. -/
theorem line_quiet (inComment inString : Bool) (depth : Nat) (text : List Char)
    (visible : text.dropWhile isSpace ≠ [])
    (commentOnly : ((start inComment inString depth).line column
      (text.dropWhile isSpace)).hasCode = false) :
    Quiet inComment text
      ((start inComment inString depth).line column (text.dropWhile isSpace)).inComment := by
  cases inComment with
  | true =>
      obtain ⟨whole, ends⟩ := @run_commentOnly (start true inString depth) column _ rfl
        (fun star => absurd star (show ¬ ' ' = '*' by decide)) commentOnly
      have carried : ((start true inString depth).line column
          (text.dropWhile isSpace)).inComment = _ := ends
      rw [carried]
      exact .indentedComment whole
  | false =>
      cases inString with
      | false => exact .indented (line_opensComment depth _ visible commentOnly)
      | true =>
          obtain ⟨c, rest, shape⟩ := List.exists_cons_of_ne_nil visible
          have code : ((start false true depth).line column
              (text.dropWhile isSpace)).hasCode = true := by
            rw [shape]
            exact @run_outside (start false true depth) column c rest rfl
          rw [code] at commentOnly
          cases commentOnly

end ForeignScan

/-! ## Lexing commentary -/

namespace Lexical

def Progress.within (inComment : Bool) : Progress :=
  { Progress.start with
    pending := if inComment then some ⟨.block, "", .unknown, .unknown⟩ else none }

end Lexical

/-- Lines of the language have no tokens and no errors if they begin inside a comment or
not, and a comment is open behind them if `opened`. -/
structure OnlyCommentary (inComment : Bool) (texts : List String) (opened : Bool) : Prop where
  tokens : ((Progress.within inComment).readLines 0 (Source.ofTexts texts).lines).tokens = #[]
  errors : ((Progress.within inComment).readLines 0 (Source.ofTexts texts).lines).errors = #[]
  opened : ((Progress.within inComment).readLines 0 (Source.ofTexts texts).lines).pending.isSome =
    opened

structure SelfContained (texts : List String) : Prop where
  tokens : (lex (.ofTexts texts)).stream.tokens = #[]
  errors : (lex (.ofTexts texts)).errors = #[]
  closed : leavesOpen texts = false

namespace OnlyCommentary

variable {inComment opened after : Bool} {texts : List String} {text : String}

theorem nil (inComment : Bool) : OnlyCommentary inComment [] inComment := by
  refine ⟨rfl, rfl, ?_⟩
  cases inComment <;> rfl

theorem concat (only : OnlyCommentary inComment texts opened)
    (quiet : Quiet opened text.toList after) :
    OnlyCommentary inComment (texts ++ [text]) after := by
  have step : (Progress.within inComment).readLines 0 (Source.ofTexts (texts ++ [text])).lines =
      ((Progress.within inComment).readLines 0 (Source.ofTexts texts).lines).readLine
        texts.length text := by
    simp only [Source.ofTexts, Source.lines_ofLines, List.map_append, List.map_cons, List.map_nil,
      readLines_append, List.length_map, Nat.zero_add]
    rfl
  obtain ⟨adds, isOpen⟩ := readLine_adds
    ((Progress.within inComment).readLines 0 (Source.ofTexts texts).lines) texts.length text
  rw [only.opened] at adds isOpen
  have noTokens : (pieces opened text.toList).filterMap Piece.written? = [] :=
    List.filterMap_eq_nil_iff.mpr fun piece member => (quiet.silent piece member).2
  refine ⟨?_, ?_, ?_⟩
  · have written := adds.tokens
    rw [only.tokens, noTokens, ← step] at written
    exact Array.toList_eq_nil_iff.mp (List.map_eq_nil_iff.mp written)
  · rw [step, adds.errors]
    exact ⟨only.errors, fun piece member => (quiet.silent piece member).1⟩
  · rw [step, isOpen]
    exact quiet.opened

theorem selfContained (only : OnlyCommentary false texts false) : SelfContained texts := by
  refine ⟨?_, only.errors, only.opened⟩
  have none : (progressOver texts).tokens = #[] := only.tokens
  have stream : (lex (.ofTexts texts)).stream.tokens = (progressOver texts).tokens.toList.toArray :=
    rfl
  rw [stream, none]

end OnlyCommentary

/-! ## Lines that are claimed -/

def Line.isCommentary (line : Line) : Bool := line.kind.isCommentary

namespace Reading

variable {now : Reading}

/-- The lines of commentary that stand last, which a definition behind them claims. -/
def claimedTexts (source : Source) : List String :=
  ((source.latestFirst.takeWhile Line.isCommentary).map Line.text).reverse

def AddsOther (after : Reading) : Prop :=
  ∃ line rest, after.source.latestFirst = line :: rest ∧ line.isCommentary = false

structure AddsCommentary (now : Reading) (text : String) (after : Reading) : Prop where
  added : ∃ kind, LineKind.isCommentary kind = true ∧
    after.source.latestFirst = ⟨text, kind⟩ :: now.source.latestFirst
  quiet : Quiet now.inComment text.toList after.inComment

theorem blankLine_commentary (text : String) (blank : trimmed text = []) :
    AddsCommentary now text (now.add text .blank) := by
  refine ⟨⟨.blank, rfl, rfl⟩, ?_⟩
  rw [trimmed] at blank
  show Quiet now.inComment text.toList now.inComment
  cases now.inComment with
  | true =>
      have inside := @Quiet.indentedComment text.toList (by rw [blank]; rfl)
      rw [blank] at inside
      exact inside
  | false =>
      apply Quiet.indented
      rw [blank]
      exact .nil false

theorem foreignLine_commentary (text : String) (indent : Nat) (visible : trimmed text ≠ []) :
    AddsOther (now.foreignLine text indent (trimmed text)) ∨
      AddsCommentary now text (now.foreignLine text indent (trimmed text)) := by
  cases code : ((ForeignScan.start now.inComment now.inString now.depth).line indent
      (trimmed text)).hasCode with
  | true =>
      refine .inl ⟨⟨text, .cpp⟩, now.source.latestFirst, ?_, rfl⟩
      simp only [foreignLine, code]
      rfl
  | false =>
      refine .inr ⟨⟨.comment, rfl, ?_⟩, ForeignScan.line_quiet _ _ _ _ visible code⟩
      simp only [foreignLine, code]
      rfl

/-- A line is no commentary, or it is lexed as commentary. -/
theorem step_commentary (now : Reading) (physical : PhysicalLine) :
    AddsOther (now.step physical) ∨
      ∃ text, physical = some text ∧ AddsCommentary now text (now.step physical) := by
  have takes := now.step_takes physical
  generalize now.step physical = after at takes ⊢
  cases takes with
  | unreadable | directive | further | opening | importing => exact .inl ⟨_, _, rfl, rfl⟩
  | @blank text outside empty => exact .inr ⟨text, rfl, blankLine_commentary text empty⟩
  | @foreign text outside visible =>
      rcases foreignLine_commentary text _ visible with other | commentary
      · exact .inl other
      · exact .inr ⟨text, rfl, commentary⟩

structure SplitsAt (before front : List PhysicalLine) : Prop where
  lines : before = front ++ (claimedTexts (readLines before).source).map some
  kept : ((readLines before).source.latestFirst.dropWhile Line.isCommentary) =
    (readLines front).source.latestFirst
  only : OnlyCommentary (readLines front).inComment (claimedTexts (readLines before).source)
    (readLines before).inComment

theorem SplitsAt.other {before : List PhysicalLine} (other : AddsOther (readLines before)) :
    SplitsAt before before := by
  obtain ⟨line, rest, latest, noCommentary⟩ := other
  have none : claimedTexts (readLines before).source = [] := by
    rw [claimedTexts, latest, List.takeWhile_cons_of_neg (Bool.eq_false_iff.mp noCommentary)]
    rfl
  refine ⟨?_, ?_, ?_⟩
  · rw [none]
    exact (List.append_nil before).symm
  · rw [latest, List.dropWhile_cons_of_neg (Bool.eq_false_iff.mp noCommentary)]
  · rw [none]
    exact .nil _

theorem SplitsAt.commentary {before front : List PhysicalLine} {text : String}
    (splits : SplitsAt before front)
    (adds : AddsCommentary (readLines before) text (readLines (before ++ [some text]))) :
    SplitsAt (before ++ [some text]) front := by
  obtain ⟨⟨kind, isCommentary, latest⟩, quiet⟩ := adds
  have commentary : Line.isCommentary ⟨text, kind⟩ = true := isCommentary
  have claimed : claimedTexts (readLines (before ++ [some text])).source =
      claimedTexts (readLines before).source ++ [text] := by
    rw [claimedTexts, latest, List.takeWhile_cons_of_pos commentary, List.map_cons,
      List.reverse_cons]
    rfl
  refine ⟨?_, ?_, ?_⟩
  · rw [claimed, List.map_append, ← List.append_assoc, ← splits.lines]
    rfl
  · rw [latest, List.dropWhile_cons_of_pos commentary]
    exact splits.kept
  · rw [claimed]
    exact splits.only.concat quiet

theorem SplitsAt.more {before front : List PhysicalLine} (more : List PhysicalLine)
    (splits : SplitsAt before front) : ∃ front, SplitsAt (before ++ more) front := by
  induction more generalizing before front with
  | nil =>
      rw [List.append_nil]
      exact ⟨front, splits⟩
  | cons physical more induction =>
      have step := step_commentary (readLines before) physical
      rw [← readLines_concat] at step
      rw [List.append_cons]
      rcases step with other | ⟨text, rfl, adds⟩
      · exact induction (.other other)
      · exact induction (splits.commentary adds)

theorem exists_splitsAt (before : List PhysicalLine) : ∃ front, SplitsAt before front :=
  @SplitsAt.more [] [] before ⟨rfl, rfl, .nil false⟩

theorem claim_eq (lines : List Line) :
    Source.claim lines =
      (lines.takeWhile Line.isCommentary).map (fun line => ⟨line.text, .cpps⟩) ++
        lines.dropWhile Line.isCommentary := by
  induction lines with
  | nil => rfl
  | cons line rest induction =>
      unfold Source.claim
      split
      · rename_i isCommentary
        have commentary : line.isCommentary = true := isCommentary
        rw [List.takeWhile_cons_of_pos commentary, List.dropWhile_cons_of_pos commentary, induction]
        rfl
      · rename_i isOther
        have other : ¬ line.isCommentary = true := isOther
        rw [List.takeWhile_cons_of_neg other, List.dropWhile_cons_of_neg other]
        rfl

/-- A definition claims the commentary that stands last, and nothing else. -/
theorem step_claims {before front : List PhysicalLine} {text : String}
    (ready : Ready (readLines before)) (opens : opensDefinition (trimmed text) = true)
    (splits : SplitsAt before front) :
    (readLines (before ++ [some text])).source.lines = (readLines front).source.lines ++
      (claimedTexts (readLines before).source ++ [text]).map fun text => ⟨text, .cpps⟩ := by
  have latest : (readLines (before ++ [some text])).source.latestFirst =
      ⟨text, .cpps⟩ :: Source.claim (readLines before).source.latestFirst := by
    rw [readLines_concat, step_opens ready opens]
    rfl
  rw [Source.lines, latest, claim_eq, splits.kept, claimedTexts, Source.lines]
  simp

/-- The lines that a definition claims are lexed as commentary from where they begin.
They are lexed so on their own, unless a comment is open in front of them. -/
theorem claimed_selfContained (before : List PhysicalLine) (text : String)
    (ready : Ready (readLines before)) (opens : opensDefinition (trimmed text) = true) :
    ∃ front, before = front ++ (claimedTexts (readLines before).source).map some ∧
      (readLines (before ++ [some text])).source.lines = (readLines front).source.lines ++
        ((claimedTexts (readLines before).source ++ [text]).map fun text => ⟨text, .cpps⟩) ∧
      OnlyCommentary (readLines front).inComment (claimedTexts (readLines before).source) false ∧
      ((readLines front).inComment = false →
        SelfContained (claimedTexts (readLines before).source)) := by
  obtain ⟨front, splits⟩ := exists_splitsAt before
  have only := splits.only
  rw [ready.uncommented] at only
  refine ⟨front, splits.lines, step_claims ready opens splits, only, ?_⟩
  intro outside
  rw [outside] at only
  exact only.selfContained

end Reading

/-- Comments of both kinds and an empty line behind a line of C++. -/
def describedDefinition : List PhysicalLine :=
  [some "int x; /* y */", some "// about f", some "  /* a", some "", some "\tb */"]

theorem describedDefinition_claims :
    Reading.Ready (Reading.readLines describedDefinition) ∧
      opensDefinition (Reading.trimmed "f: () = \x7b \x7d") = true ∧
      Reading.claimedTexts (Reading.readLines describedDefinition).source =
        ["// about f", "  /* a", "", "\tb */"] ∧
      SelfContained (Reading.claimedTexts (Reading.readLines describedDefinition).source) := by
  have ready : Reading.Ready (Reading.readLines describedDefinition) :=
    ⟨by decide +kernel, by decide +kernel, by decide +kernel⟩
  have opens : opensDefinition (Reading.trimmed "f: () = \x7b \x7d") = true := by decide +kernel
  have claimed : Reading.claimedTexts (Reading.readLines describedDefinition).source =
      ["// about f", "  /* a", "", "\tb */"] := by decide +kernel
  refine ⟨ready, opens, claimed, ?_⟩
  obtain ⟨front, lines, _, _, alone⟩ :=
    Reading.claimed_selfContained describedDefinition _ ready opens
  have split : [some "int x; /* y */"] ++ (["// about f", "  /* a", "", "\tb */"].map some) =
      front ++ (["// about f", "  /* a", "", "\tb */"].map some) := by
    rw [claimed] at lines
    exact lines
  apply alone
  rw [← List.append_cancel_right split]
  decide +kernel

/-- A comment that begins behind code of C++, and a definition behind its end. -/
def splitComment : String := "int x; /* open\ntail */\nf: () = \x7b \x7d\n"

/-- The end of such a comment is claimed, and is no commentary on its own. -/
theorem splitComment_claimed :
    (readSource splitComment.toUTF8.toList).errors = #[] ∧
      (readSource splitComment.toUTF8.toList).source.toOption.map Source.lines =
        some [⟨"int x; /* open", .cpp⟩, ⟨"tail */", .cpps⟩, ⟨"f: () = \x7b \x7d", .cpps⟩] ∧
      Reading.claimedTexts (Reading.readLines [some "int x; /* open", some "tail */"]).source =
        ["tail */"] ∧
      ¬ SelfContained ["tail */"] := by
  refine ⟨by decide +kernel, by decide +kernel, by decide +kernel, ?_⟩
  intro alone
  have tokens : (lex (.ofTexts ["tail */"])).stream.tokens ≠ #[] := by decide +kernel
  exact tokens alone.tokens

end CppsFrontend
