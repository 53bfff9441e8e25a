import CppsFrontend.Proofs.Lexical.Lines

/-!
# Lexing lines behind other lines

What lines add to what has been read does not depend on the tokens, comments and errors
before them, and on where they stand only as far as their locations do.  The comment that is
open in front of them is all that they are handed.  So two sources are lexed one after the
other by lexing each of them, if the first one ends outside block comments.
-/

set_option autoImplicit false

namespace CppsFrontend

namespace Location

/-- The location `count` lines further down; an unknown line stays unknown. -/
def below (count : Nat) (location : Location) : Location :=
  { location with line := location.line.map (· + count) }

theorem ofIndices_below {count line : Nat} (column : Nat) (inside : line + count < bound) :
    ofIndices (line + count) column = (ofIndices line column).below count := by
  simp [below, ofIndices, axis_of_lt, inside, show line < bound by omega]

theorem wholeLine_below {count line : Nat} (inside : line + count < bound) :
    wholeLine (line + count) = (wholeLine line).below count := by
  simp [below, wholeLine, axis_of_lt, inside, show line < bound by omega]

end Location

def Token.below (count : Nat) (token : Token) : Token :=
  { token with location := token.location.below count }

def Comment.below (count : Nat) (comment : Comment) : Comment :=
  { comment with first := comment.first.below count, last := comment.last.below count }

def Entry.below (count : Nat) (entry : Entry) : Entry :=
  { entry with location := entry.location.map (Location.below count) }

namespace Lexical

namespace Progress

def resumed (pending : Option Comment) : Progress := ⟨#[], #[], #[], pending⟩

/-- What has been read in two parts, of which the second one knows what is open. -/
def append (first second : Progress) : Progress where
  tokens := first.tokens ++ second.tokens
  comments := first.comments ++ second.comments
  errors := first.errors ++ second.errors
  pending := second.pending

def below (count : Nat) (progress : Progress) : Progress where
  tokens := progress.tokens.map (Token.below count)
  comments := progress.comments.map (Comment.below count)
  errors := progress.errors.map (Entry.below count)
  pending := progress.pending.map (Comment.below count)

theorem append_resumed (progress : Progress) :
    progress.append (resumed progress.pending) = progress := by
  simp [append, resumed]

variable {before part : Progress} {line column count index : Nat} {piece : Piece}

/-! ## Behind what has been read -/

theorem append_read :
    (before.append part).read line column piece = before.append (part.read line column piece) := by
  cases kind : piece.kind with
  | commentText closed =>
      cases pending : part.pending <;> cases closed <;>
        simp [read, append, kind, pending]
  | _ => simp [read, append, kind]

theorem append_step :
    step line (before.append part, column) piece =
      (before.append (step line (part, column) piece).1, (step line (part, column) piece).2) := by
  simp only [step, append_read]
  simp [append]

theorem append_pieces (pieces : List Piece) :
    (pieces.foldl (step line) (before.append part, column)).1 =
      before.append (pieces.foldl (step line) (part, column)).1 := by
  induction pieces generalizing part column with
  | nil => rfl
  | cons piece rest induction => rw [List.foldl_cons, append_step, induction, List.foldl_cons]

theorem append_readLine (text : String) :
    (before.append part).readLine line text = before.append (part.readLine line text) :=
  append_pieces _

theorem append_readLines (lines : List Line) :
    (before.append part).readLines index lines = before.append (part.readLines index lines) := by
  induction lines generalizing part index with
  | nil => rfl
  | cons line rest induction =>
      unfold readLines
      by_cases kind : line.kind = .cpps
      · simp only [if_pos kind, append_readLine, induction]
      · simp only [if_neg kind, induction]

/-- All that lines are handed of what stands before them is the comment that is open. -/
theorem readLines_resumed (progress : Progress) (index : Nat) (lines : List Line) :
    progress.readLines index lines =
      progress.append ((resumed progress.pending).readLines index lines) := by
  rw [← append_readLines, append_resumed]

/-! ## Further down -/

section Below

variable (inside : line + count < Location.bound)

include inside

theorem read_below :
    (part.below count).read (line + count) column piece =
      (part.read line column piece).below count := by
  have placed := fun column => Location.ofIndices_below column inside
  cases kind : piece.kind with
  | commentText closed =>
      cases pending : part.pending <;> cases closed <;>
        simp [read, below, kind, pending, placed, Comment.below]
  | commentOpening => simp [read, below, kind, placed, Comment.below, Location.below,
      Location.unknown]
  | token lexeme => simp [read, below, kind, placed, Token.below]
  | lineComment => simp [read, below, kind, placed, Comment.below]
  | _ => simp [read, below, kind]

theorem faultEntry_below (fault : Fault) :
    faultEntry (line + count) column fault = (faultEntry line column fault).below count := by
  cases distance : fault.distance with
  | none => simp [faultEntry, distance, Entry.located, Entry.below,
      Location.wholeLine_below inside]
  | some distance => simp [faultEntry, distance, Entry.located, Entry.below,
      Location.ofIndices_below _ inside]

theorem step_below :
    step (line + count) (part.below count, column) piece =
      ((step line (part, column) piece).1.below count, (step line (part, column) piece).2) := by
  have faults : piece.faults.map (faultEntry (line + count) column) =
      (piece.faults.map (faultEntry line column)).map (Entry.below count) := by
    rw [List.map_map]
    exact List.map_congr_left fun fault _ => faultEntry_below inside fault
  simp only [step, read_below inside, faults]
  simp [below]

theorem pieces_below (pieces : List Piece) :
    (pieces.foldl (step (line + count)) (part.below count, column)).1 =
      (pieces.foldl (step line) (part, column)).1.below count := by
  induction pieces generalizing part column with
  | nil => rfl
  | cons piece rest induction =>
      rw [List.foldl_cons, step_below inside, induction, List.foldl_cons]

theorem readLine_below (text : String) :
    (part.below count).readLine (line + count) text = (part.readLine line text).below count := by
  have opened : (part.below count).pending.isSome = part.pending.isSome := by
    simp [below]
  rw [readLine, opened, pieces_below inside]
  rfl

end Below

theorem readLines_below (lines : List Line)
    (inside : index + lines.length + count ≤ Location.bound) :
    (part.below count).readLines (index + count) lines =
      (part.readLines index lines).below count := by
  induction lines generalizing part index with
  | nil => rfl
  | cons line rest induction =>
      rw [List.length_cons] at inside
      unfold readLines
      rw [Nat.add_right_comm]
      by_cases kind : line.kind = .cpps
      · simp only [if_pos kind]
        rw [readLine_below (by omega), induction (by omega)]
      · simp only [if_neg kind]
        rw [induction (by omega)]

end Progress

end Lexical

open Lexical

/-! ## Sources -/

/-- The lines of one source behind those of another one. -/
instance : Append Source := ⟨fun first second => .ofLines (first.lines ++ second.lines)⟩

theorem Source.lines_append (first second : Source) :
    (first ++ second).lines = first.lines ++ second.lines :=
  Source.lines_ofLines _

def Source.openComment? (source : Source) : Option Comment :=
  (Progress.start.readLines 0 source.lines).pending

/-- Lexes lines from an index on, behind a comment that is open or none. -/
def lexFrom (opened : Option Comment) (index : Nat) (lines : List Line) : Lexed :=
  let progress := (Progress.resumed opened).readLines index lines
  { stream := .ofTokens progress.tokens.toList
    comments := progress.comments ++ progress.pending.toArray
    errors := progress.errors }

namespace Lexed

def append (first second : Lexed) : Lexed where
  stream := .ofTokens (first.stream.tokens.toList ++ second.stream.tokens.toList)
  comments := first.comments ++ second.comments
  errors := first.errors ++ second.errors

def below (count : Nat) (lexed : Lexed) : Lexed where
  stream := .ofTokens (lexed.stream.tokens.toList.map (Token.below count))
  comments := lexed.comments.map (Comment.below count)
  errors := lexed.errors.map (Entry.below count)

end Lexed

theorem lex_eq_lexFrom (source : Source) : lex source = lexFrom none 0 source.lines := rfl

/-- A source without lines of the language has nothing to lex. -/
theorem lex_of_not_hasCpps {source : Source} (none : source.hasCpps = false) :
    lex source = ⟨.ofTokens [], #[], #[]⟩ := by
  have others : ∀ line ∈ source.lines, line.kind ≠ .cpps := by
    simpa [Source.hasCpps, Source.lines] using none
  have skipped : ∀ (lines : List Line) (index : Nat), (∀ line ∈ lines, line.kind ≠ .cpps) →
      Progress.start.readLines index lines = Progress.start := by
    intro lines
    induction lines with
    | nil => exact fun _ _ => rfl
    | cons line rest induction =>
        intro index others
        obtain ⟨other, rest⟩ := List.forall_mem_cons.mp others
        rw [Progress.readLines, if_neg other, induction (index + 1) rest]
  rw [lex, skipped source.lines 0 others]
  rfl

theorem lexFrom_below (index count : Nat) (lines : List Line)
    (inside : index + lines.length + count ≤ Location.bound) :
    lexFrom none (index + count) lines = (lexFrom none index lines).below count := by
  have moved := @Progress.readLines_below (.resumed none) count index lines inside
  have nothing : (Progress.resumed none).below count = Progress.resumed none := by
    simp [Progress.below, Progress.resumed]
  rw [nothing] at moved
  simp [lexFrom, moved, Lexed.below, Progress.below, TokenStream.ofTokens, Option.toArray_map]

/-- Lexing two sources one behind the other.  What the second one adds depends on the first one
by its number of lines and its open comment only; without an open comment it is what the
second one is lexed to by itself, further down. -/
theorem lex_append (first second : Source)
    (inside : first.lineCount + second.lineCount ≤ Location.bound) :
    (first.openComment? = none →
      lex (first ++ second) = (lex first).append ((lex second).below first.lineCount)) ∧
    ∃ closed, (lex first).comments = closed ++ first.openComment?.toArray ∧
      lex (first ++ second) = { lex first with comments := closed }.append
        (lexFrom first.openComment? first.lineCount second.lines) := by
  have count : first.lines.length = first.lineCount := by
    simp [Source.lines, Source.lineCount]
  have others : second.lines.length = second.lineCount := by
    simp [Source.lines, Source.lineCount]
  let closed := (Progress.start.readLines 0 first.lines).comments
  have comments : (lex first).comments = closed ++ first.openComment?.toArray := rfl
  have behind : lex (first ++ second) = { lex first with comments := closed }.append
      (lexFrom first.openComment? first.lineCount second.lines) := by
    rw [lex, Source.lines_append, readLines_append, Progress.readLines_resumed, Nat.zero_add,
      count]
    simp [Progress.append, Lexed.append, lexFrom, lex, Source.openComment?, closed,
      TokenStream.ofTokens]
  refine ⟨?_, closed, comments, behind⟩
  intro shut
  have all : (lex first).comments = closed := by
    rw [comments, shut]
    exact Array.append_empty
  have alone : lexFrom none first.lineCount second.lines =
      (lex second).below first.lineCount := by
    rw [lex_eq_lexFrom, ← lexFrom_below 0 first.lineCount second.lines (by omega), Nat.zero_add]
  rw [behind, shut, alone, ← all]

/-- A comment over two lines, and a zero without digits behind it. -/
def closedComment : Source :=
  .ofLines [⟨"x /* a", .cpps⟩, ⟨"int y;", .cpp⟩, ⟨"b */ 0x", .cpps⟩]

/-- An empty character literal, and a comment that stays open. -/
def emptyCharacter : Source := .ofLines [⟨"// c", .cpps⟩, ⟨"z '' /* d", .cpps⟩]

theorem closedComment_append :
    closedComment.lineCount + emptyCharacter.lineCount ≤ Location.bound ∧
      closedComment.openComment? = none ∧
      lex (closedComment ++ emptyCharacter) =
        (lex closedComment).append ((lex emptyCharacter).below 3) ∧
      (lex (closedComment ++ emptyCharacter)).errors.map Entry.location =
        #[some ⟨some 2, some 5⟩, some ⟨some 4, some 2⟩] := by
  have inside : closedComment.lineCount + emptyCharacter.lineCount ≤ Location.bound := by decide
  have shut : closedComment.openComment? = none := by decide +kernel
  exact ⟨inside, shut, (lex_append closedComment emptyCharacter inside).1 shut,
    by decide +kernel⟩

end CppsFrontend
