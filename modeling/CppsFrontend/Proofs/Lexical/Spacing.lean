import CppsFrontend.Proofs.Lexical.Lines
import CppsFrontend.Proofs.Lexical.Standalone

/-!
# Tokens between blanks

The tokens of a source without errors, written into one line with blanks between them, are read
back: each one is cut again, and between two of them there is one piece of space.
-/

set_option autoImplicit false

namespace CppsFrontend.Lexical

open Text

variable {c : Char} {rest behind : List Char} {piece : Piece}

/-! ## Pieces with blanks between them -/

/-- A token without faults that is cut again wherever it is parted from what is behind it. -/
structure Detached (piece : Piece) : Prop where
  token : ∃ lexeme, piece.kind = .token lexeme
  faultless : piece.faults = []
  visible : isSpace piece.first = false
  cut : ∀ behind, Parted behind → codePiece piece.first (piece.tail ++ behind) = piece

theorem codePiece_detached {lexeme : Lexeme} (token : (codePiece c rest).kind = .token lexeme)
    (faultless : (codePiece c rest).faults = []) : Detached (codePiece c rest) := by
  have first := (codePiece_cuts c rest).first
  refine ⟨⟨lexeme, token⟩, faultless, ?_, ?_⟩
  · rw [first]
    exact codePiece_visible c rest lexeme token
  · intro behind parted
    rw [first]
    exact codePiece_again token faultless parted

theorem written_token (written : piece.written?.isSome = true) :
    ∃ lexeme, piece.kind = .token lexeme := by
  unfold Piece.written? at written
  split at written
  · exact ⟨_, ‹_›⟩
  · cases written

/-- The tokens of a text are detached, unless they have faults. -/
theorem pieces_detached (inComment : Bool) (text : List Char) :
    ∀ piece ∈ pieces inComment text, piece.faults = [] → piece.written?.isSome = true →
      Detached piece := by
  fun_induction pieces inComment text with
  | case1 inComment => exact List.forall_mem_nil _
  | case2 inComment c rest piece =>
      rename_i induction
      rw [List.forall_mem_cons]
      refine ⟨?_, induction⟩
      intro faultless written
      cases inComment with
      | true => cases written
      | false =>
          obtain ⟨lexeme, token⟩ := written_token written
          exact codePiece_detached token faultless

def blank : Piece := ⟨.space, ' ', [], []⟩

def spacedText : List Piece → List Char
  | [] => []
  | first :: others => first.text ++ others.flatMap fun piece => ' ' :: piece.text

def spacedPieces : List Piece → List Piece
  | [] => []
  | first :: others => first :: others.flatMap fun piece => [blank, piece]

theorem pieces_token (detached : Detached piece) (parted : Parted behind) :
    pieces false (piece.text ++ behind) = piece :: pieces false behind := by
  obtain ⟨lexeme, token⟩ := detached.token
  have cut : pieceAt false piece.first (piece.tail ++ behind) = piece := detached.cut behind parted
  rw [Piece.text, List.cons_append, pieces, cut, token, List.drop_left]
  rfl

theorem pieces_blank (detached : Detached piece) :
    pieces false (' ' :: (piece.text ++ behind)) =
      blank :: pieces false (piece.text ++ behind) := by
  have cut : pieceAt false ' ' (piece.text ++ behind) = blank := by
    have ends : (piece.text ++ behind).takeWhile isSpace = [] :=
      List.takeWhile_cons_of_neg (by rw [detached.visible]; exact Bool.false_ne_true)
    change codePiece ' ' (piece.text ++ behind) = blank
    rw [codePiece_space (by decide), ends]
    rfl
  rw [pieces, cut]
  rfl

theorem parted_others (others : List Piece) :
    Parted (others.flatMap fun piece => ' ' :: piece.text) := by
  cases others with
  | nil => exact .nil
  | cons next others => exact .blank _

theorem pieces_others (others : List Piece) (detached : ∀ piece ∈ others, Detached piece) :
    pieces false (others.flatMap fun piece => ' ' :: piece.text) =
      others.flatMap fun piece => [blank, piece] := by
  induction others with
  | nil => rw [List.flatMap_nil, List.flatMap_nil, pieces]
  | cons next others induction =>
      obtain ⟨head, tail⟩ := List.forall_mem_cons.mp detached
      rw [List.flatMap_cons, List.cons_append, pieces_blank head,
        pieces_token head (parted_others others), induction tail]
      rfl

theorem pieces_spaced (tokens : List Piece) (detached : ∀ piece ∈ tokens, Detached piece) :
    pieces false (spacedText tokens) = spacedPieces tokens := by
  cases tokens with
  | nil => rw [spacedText, spacedPieces, pieces]
  | cons first others =>
      obtain ⟨head, tail⟩ := List.forall_mem_cons.mp detached
      rw [spacedText, pieces_token head (parted_others others), pieces_others others tail]
      rfl

theorem mem_spaced {tokens : List Piece} (member : piece ∈ spacedPieces tokens) :
    piece = blank ∨ piece ∈ tokens := by
  cases tokens with
  | nil => cases member
  | cons first others =>
      simp only [spacedPieces, List.mem_cons, List.mem_flatMap, List.not_mem_nil, or_false]
        at member ⊢
      rcases member with same | ⟨other, among, same | same⟩
      · exact .inr (.inl same)
      · exact .inl same
      · rw [same]
        exact .inr (.inr among)

theorem written_spaced (tokens : List Piece) :
    (spacedPieces tokens).filterMap Piece.written? = tokens.filterMap Piece.written? := by
  have others : ∀ others : List Piece,
      (others.flatMap fun piece => [blank, piece]).filterMap Piece.written? =
        others.filterMap Piece.written? := by
    intro others
    induction others with
    | nil => rfl
    | cons next others induction =>
        have pair : [blank, next].filterMap Piece.written? = [next].filterMap Piece.written? := rfl
        rw [List.flatMap_cons, List.filterMap_append, pair, induction, ← List.filterMap_append]
        rfl
  cases tokens with
  | nil => rfl
  | cons first rest => simp only [spacedPieces, List.filterMap_cons, others]

theorem toList_spaced (tokens : List Piece) :
    (" ".intercalate (tokens.map fun piece => String.ofList piece.text)).toList =
      spacedText tokens := by
  cases tokens with
  | nil => rfl
  | cons first others =>
      induction others generalizing first with
      | nil => simp [spacedText]
      | cons next others induction =>
          simp only [List.map_cons] at induction ⊢
          rw [String.intercalate_cons_cons, String.toList_append, String.toList_append,
            induction next, String.toList_ofList]
          simp [spacedText]

theorem texts_of_written {tokens : List Token} {pieces : List Piece}
    (written : ∀ piece ∈ pieces, piece.written?.isSome = true)
    (same : tokens.map Token.written = pieces.filterMap Piece.written?) :
    tokens.map Token.text = pieces.map fun piece => String.ofList piece.text := by
  have texts : tokens.map Token.text =
      (tokens.map Token.written).map fun word => String.ofList word.2 := by
    rw [List.map_map]
    exact List.map_congr_left fun token _ => String.ofList_toList.symm
  rw [texts, same]
  clear same texts
  induction pieces with
  | nil => rfl
  | cons piece pieces induction =>
      obtain ⟨head, tail⟩ := List.forall_mem_cons.mp written
      obtain ⟨lexeme, token⟩ := written_token head
      have found : piece.written? = some (lexeme, piece.text) := by
        rw [Piece.written?, token]
      rw [List.filterMap_cons_some found, List.map_cons, List.map_cons, induction tail]

/-! ## Reading spaced tokens -/

theorem step_comments (line : Nat) (state : Progress × Nat)
    (quiet : piece.kind = .space ∨ ∃ lexeme, piece.kind = .token lexeme) :
    (Progress.step line state piece).1.comments = state.1.comments ∧
      (Progress.step line state piece).1.pending = state.1.pending := by
  rcases quiet with space | ⟨lexeme, token⟩
  · simp [Progress.step, Progress.read, space]
  · simp [Progress.step, Progress.read, token]

theorem steps_comments (line : Nat) (state : Progress × Nat) (pieces : List Piece)
    (quiet : ∀ piece ∈ pieces, piece.kind = .space ∨ ∃ lexeme, piece.kind = .token lexeme) :
    (pieces.foldl (Progress.step line) state).1.comments = state.1.comments ∧
      (pieces.foldl (Progress.step line) state).1.pending = state.1.pending := by
  induction pieces generalizing state with
  | nil => exact ⟨rfl, rfl⟩
  | cons piece pieces induction =>
      obtain ⟨head, tail⟩ := List.forall_mem_cons.mp quiet
      obtain ⟨comments, pending⟩ := step_comments line state head
      obtain ⟨commentsAll, pendingAll⟩ := induction (Progress.step line state piece) tail
      exact ⟨commentsAll.trans comments, pendingAll.trans pending⟩

/-- All that lines add are pieces of texts. -/
theorem readLines_detached (progress : Progress) (index : Nat) (lines : List Line) :
    ∃ cut, Adds progress (progress.readLines index lines) cut ∧
      ∀ piece ∈ cut, piece.faults = [] → piece.written?.isSome = true → Detached piece := by
  induction lines generalizing progress index with
  | nil => exact ⟨[], .nil progress, List.forall_mem_nil _⟩
  | cons line lines induction =>
      rw [Progress.readLines]
      by_cases kind : line.kind = .cpps
      · rw [if_pos kind]
        obtain ⟨cut, adds, detached⟩ := induction (progress.readLine index line.text) (index + 1)
        refine ⟨_, (readLine_adds progress index line.text).1.append adds, ?_⟩
        exact List.forall_mem_append.mpr ⟨pieces_detached _ _, detached⟩
      · rw [if_neg kind]
        exact induction progress (index + 1)

structure ReadsSpaced (tokens : List Piece) (after : Progress) : Prop where
  tokens : after.tokens.toList.map Token.written = tokens.filterMap Piece.written?
  errors : after.errors = #[]
  comments : after.comments = #[]
  pending : after.pending = none

theorem readLine_spaced (tokens : List Piece) (detached : ∀ piece ∈ tokens, Detached piece)
    {text : String} (letters : text.toList = spacedText tokens) :
    ReadsSpaced tokens (Progress.start.readLine 0 text) := by
  have cut : pieces Progress.start.pending.isSome text.toList = spacedPieces tokens := by
    rw [letters]
    exact pieces_spaced tokens detached
  have quiet : ∀ piece ∈ spacedPieces tokens, piece.faults = [] ∧
      (piece.kind = .space ∨ ∃ lexeme, piece.kind = .token lexeme) := by
    intro piece member
    rcases mem_spaced member with rfl | among
    · exact ⟨rfl, .inl rfl⟩
    · exact ⟨(detached piece among).faultless, .inr (detached piece among).token⟩
  obtain ⟨adds, _⟩ := readLine_adds Progress.start 0 text
  obtain ⟨comments, pending⟩ := steps_comments 0 (Progress.start, 0) (spacedPieces tokens)
    fun piece member => (quiet piece member).2
  rw [cut] at adds
  rw [← cut] at comments pending
  refine ⟨?_, ?_, comments, pending⟩
  · exact adds.tokens.trans (written_spaced tokens)
  · exact adds.errors.mpr ⟨rfl, fun piece member => (quiet piece member).1⟩

end CppsFrontend.Lexical

namespace CppsFrontend

open Lexical

/-- The texts of all tokens with blanks between them, as one line of the language. -/
def Lexed.spaced (lexed : Lexed) : Source :=
  .ofTexts [" ".intercalate (lexed.stream.tokens.toList.map Token.text)]

/-- The tokens of a source without errors are read back from one line that has blanks between
them, and nothing else is read from it. -/
theorem lex_spaced (source : Source) (silent : (lex source).errors = #[]) :
    (lex (lex source).spaced).errors = #[] ∧ (lex (lex source).spaced).comments = #[] ∧
      (lex (lex source).spaced).stream.tokens.toList.map Token.written =
        (lex source).stream.tokens.toList.map Token.written := by
  -- Without errors no piece has a fault, so each token of the source is detached.
  obtain ⟨cut, adds, detached⟩ := readLines_detached Progress.start 0 source.lines
  obtain ⟨_, faultless⟩ := adds.errors.mp silent
  let tokens := cut.filter fun piece => piece.written?.isSome
  have isToken : ∀ piece ∈ tokens, piece ∈ cut ∧ piece.written?.isSome = true :=
    fun piece => List.mem_filter.mp
  have each : ∀ piece ∈ tokens, Detached piece := by
    intro piece member
    obtain ⟨among, token⟩ := isToken piece member
    exact detached piece among (faultless piece among) token
  have written : (lex source).stream.tokens.toList.map Token.written =
      tokens.filterMap Piece.written? := by
    have others : ∀ piece : Piece,
        (if piece.written?.isSome = true then piece.written? else none) = piece.written? := by
      intro piece
      cases piece.written? <;> rfl
    rw [List.filterMap_filter, funext others]
    exact adds.tokens
  have letters : (" ".intercalate ((lex source).stream.tokens.toList.map Token.text)).toList =
      spacedText tokens := by
    rw [texts_of_written (fun piece member => (isToken piece member).2) written, toList_spaced]
  obtain ⟨tokensAgain, errors, comments, pending⟩ := readLine_spaced tokens each letters
  refine ⟨errors, ?_, tokensAgain.trans written.symm⟩
  change (Progress.start.readLine 0 _).comments ++ (Progress.start.readLine 0 _).pending.toArray = _
  rw [comments, pending]
  rfl

/-- Marks that are cut from longer ones, literals with prefixes, escapes and marks among their
digits, and comments that are read over. -/
def crowded : Source :=
  .ofLines [⟨"a<<=b->c/d...; // x", .cpps⟩, ⟨"int y;", .cpp⟩, ⟨"/* u", .cpps⟩,
    ⟨"v */ u8\"\\\" /*\"'\\x41'0x1F'f,1'0.5.u u\"\"", .cpps⟩]

theorem crowded_spaced : (lex crowded).errors = #[] ∧
    (lex (lex crowded).spaced).errors = #[] ∧ (lex (lex crowded).spaced).comments = #[] ∧
      (lex (lex crowded).spaced).stream.tokens.toList.map Token.written =
        (lex crowded).stream.tokens.toList.map Token.written := by
  have silent : (lex crowded).errors = #[] := by decide +kernel
  exact ⟨silent, lex_spaced crowded silent⟩

end CppsFrontend
