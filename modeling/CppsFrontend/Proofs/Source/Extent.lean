import CppsFrontend.Proofs.Source.Scanning
import CppsFrontend.Proofs.Lexical.Lines

/-!
# The end of a definition among tokens

`Extent` says of the tokens of a definition how deep in braces they are and whether the
definition has ended.  Over the pieces of a line the scan for the end of a definition
finds what the tokens say, if the pieces have no faults and the character literals no
delimiters.
-/

set_option autoImplicit false

namespace CppsFrontend

open Text Lexical

/-- What some tokens are, as part of a definition. -/
structure Extent where
  depth : Nat
  ended : Bool
  /-- Every closing brace closes one, and no token is behind the end. -/
  sound : Bool

namespace Extent

def start : Extent := ⟨0, false, true⟩

def close (extent : Extent) : Extent :=
  match extent.depth with
  | 0 => { extent with sound := false }
  | depth + 1 => { extent with depth := depth, ended := depth = 0 }

def next (extent : Extent) (lexeme : Lexeme) : Extent :=
  if extent.ended then { extent with sound := false }
  else
    match lexeme with
    | .punctuator .openBrace => { extent with depth := extent.depth + 1 }
    | .punctuator .closeBrace => extent.close
    | .punctuator .semicolon => { extent with ended := extent.depth = 0 }
    | _ => extent

def across (extent : Extent) (pieces : List Piece) : Extent :=
  pieces.foldl (fun extent piece =>
    match piece.kind with
    | .token lexeme => extent.next lexeme
    | _ => extent) extent

variable {extent : Extent}

theorem across_token {piece : Piece} {lexeme : Lexeme} (pieces : List Piece)
    (kind : piece.kind = .token lexeme) :
    extent.across (piece :: pieces) = (extent.next lexeme).across pieces := by
  rw [across, List.foldl_cons, kind]
  rfl

theorem across_other {piece : Piece} (pieces : List Piece)
    (other : ∀ lexeme, piece.kind ≠ .token lexeme) :
    extent.across (piece :: pieces) = extent.across pieces := by
  rw [across, List.foldl_cons]
  split
  · rename_i lexeme kind
    exact absurd kind (other lexeme)
  · rfl

theorem next_going (lexeme : Lexeme) (going : extent.ended = false) :
    extent.next lexeme =
      match lexeme with
      | .punctuator .openBrace => { extent with depth := extent.depth + 1 }
      | .punctuator .closeBrace => extent.close
      | .punctuator .semicolon => { extent with ended := extent.depth = 0 }
      | _ => extent := by
  unfold next
  rw [going, if_neg Bool.false_ne_true]

theorem next_other {lexeme : Lexeme} (going : extent.ended = false)
    (other : lexeme ≠ .punctuator .openBrace ∧ lexeme ≠ .punctuator .closeBrace ∧
      lexeme ≠ .punctuator .semicolon) : extent.next lexeme = extent := by
  rw [next_going lexeme going]
  split
  · exact absurd rfl other.1
  · exact absurd rfl other.2.1
  · exact absurd rfl other.2.2
  · rfl

theorem next_ended (lexeme : Lexeme) (ended : extent.ended = true) :
    extent.next lexeme = { extent with sound := false } := by
  unfold next
  rw [if_pos ended]

theorem across_ended (pieces : List Piece) (ended : extent.ended = true) :
    extent.across pieces = extent ∨ extent.across pieces = { extent with sound := false } := by
  induction pieces generalizing extent with
  | nil => exact .inl rfl
  | cons piece pieces induction =>
      by_cases token : ∃ lexeme, piece.kind = .token lexeme
      · obtain ⟨lexeme, kind⟩ := token
        rw [across_token pieces kind, next_ended lexeme ended]
        have endedNext : ({ extent with sound := false } : Extent).ended = true := ended
        right
        rcases induction endedNext with same | same
        · exact same
        · exact same
      · rw [across_other pieces (fun lexeme kind => token ⟨lexeme, kind⟩)]
        exact induction ended

/-- A token behind the end is a fault. -/
theorem across_unsound {piece : Piece} {pieces : List Piece} {lexeme : Lexeme}
    (ended : extent.ended = true) (kind : piece.kind = .token lexeme) :
    (extent.across (piece :: pieces)).sound = false := by
  have endedNext : (extent.next lexeme).ended = true := by rw [next_ended lexeme ended, ended]
  rw [across_token pieces kind]
  rcases across_ended pieces endedNext with same | same
  · rw [same, next_ended lexeme ended]
  · rw [same]

end Extent

theorem throughCommentEnd_unclosed {text : List Char}
    (unclosed : (throughCommentEnd text).2 = false) : (throughCommentEnd text).1 = text := by
  fun_induction throughCommentEnd text with
  | case1 rest => cases unclosed
  | case2 c rest notEnd after =>
      rename_i induction
      exact congrArg (c :: ·) (induction unclosed)
  | case3 => rfl

/-- A comment that is not closed on its line is open behind it. -/
theorem openAfter_unclosed {text : List Char} (unclosed : (throughCommentEnd text).2 = false) :
    openAfter true (pieces true text) = true := by
  cases text with
  | nil =>
      rw [pieces]
      rfl
  | cons c rest =>
      have all : (commentPiece c rest).tail = rest := by
        rw [commentPiece, throughCommentEnd_unclosed unclosed]
        rfl
      rw [pieces]
      simp only [pieceAt, if_true, all, List.drop_length]
      rw [pieces, openAfter, List.foldl_cons, List.foldl_nil]
      rw [commentPiece, unclosed]
      rfl

namespace DefinitionScan

variable {scan result : DefinitionScan} {extent : Extent} {column : Nat} {inComment : Bool}
variable {c : Char} {rest text : List Char}

/-- A scan knows what tokens are as part of a definition. -/
structure Follows (scan : DefinitionScan) (extent : Extent) : Prop where
  depth : scan.depth = extent.depth
  ended : scan.ended = extent.ended
  sound : scan.faults = [] ↔ extent.sound = true

structure AtPiece (scan : DefinitionScan) (extent : Extent) (inComment : Bool)
    (text : List Char) : Prop extends Follows scan extent where
  unquoted : scan.inString = false
  comment : scan.inComment = inComment
  /-- The character before does not open a comment with the next one. -/
  apart : inComment = false →
    ¬ (scan.previous = '/' ∧ (text.head? = some '/' ∨ text.head? = some '*'))
  /-- The character before does not close the comment with the next one. -/
  within : inComment = true → scan.previous = '*' → text.head? ≠ some '/'
  /-- Behind the end only closed comments are entered. -/
  closed : inComment = true → extent.ended = true → (throughCommentEnd text).2 = true

structure Found (result : DefinitionScan) (extent : Extent) (opened : Bool) : Prop where
  depth : result.depth = extent.depth
  ended : result.ended = extent.ended
  comment : result.inComment = (!extent.ended && opened)
  sound : result.faults = [] ↔ extent.sound = true ∧ ¬ (extent.ended = true ∧ opened = true)

theorem AtPiece.found (ready : AtPiece scan extent inComment []) : Found scan extent inComment := by
  have notBoth : ¬ (extent.ended = true ∧ inComment = true) := by
    rintro ⟨ended, inside⟩
    cases ready.closed inside ended
  refine ⟨ready.depth, ready.ended, ?_, ?_⟩
  · rw [ready.comment]
    cases ended : extent.ended with
    | false => rfl
    | true =>
        cases inside : inComment with
        | false => rfl
        | true => exact absurd ⟨ended, inside⟩ notBoth
  · rw [ready.sound]
    exact ⟨fun sound => ⟨sound, notBoth⟩, And.left⟩

/-- The scan gets from the front of a piece to the front of the next one. -/
def Passes (scan : DefinitionScan) (extent : Extent) (column : Nat) (c : Char) (rest : List Char)
    (piece : Piece) : Prop :=
  ∃ (after : DefinitionScan) (next : Nat), scan.run column (c :: rest) =
      after.run next (rest.drop piece.tail.length) ∧
    AtPiece after (extent.across [piece]) piece.kind.leavesCommentOpen
      (rest.drop piece.tail.length)

theorem AtPiece.going (ready : AtPiece scan extent false text) (going : extent.ended = false) :
    Going scan :=
  ⟨ready.comment, ready.unquoted, ready.ended.trans going⟩

theorem AtPiece.done (ready : AtPiece scan extent false text) (ended : extent.ended = true) :
    Done scan :=
  ⟨ready.comment, ready.unquoted, ready.ended.trans ended⟩

/-! ## Inside a comment -/

theorem passes_comment (ready : AtPiece scan extent true (c :: rest)) :
    Passes scan extent column c rest (commentPiece c rest) := by
  have unchanged : extent.across [commentPiece c rest] = extent :=
    Extent.across_other [] fun _ => PieceKind.noConfusion
  obtain ⟨tail, fragment⟩ := throughCommentEnd_cons c rest
  have run := @run_throughCommentEnd scan column (c :: rest) ready.comment (ready.within rfl)
  have drop : (c :: rest).drop (throughCommentEnd (c :: rest)).1.length =
      rest.drop (commentPiece c rest).tail.length := by
    rw [commentPiece, fragment]
    rfl
  cases closed : (throughCommentEnd (c :: rest)).2 with
  | true =>
      have leaves : (commentPiece c rest).kind.leavesCommentOpen = false := by
        rw [commentPiece, closed]
        rfl
      rw [closed, if_pos rfl, drop] at run
      refine ⟨scan.leaveComment, _, run, ?_⟩
      rw [unchanged, leaves]
      refine ⟨⟨ready.depth, ready.ended, ready.sound⟩, ready.unquoted, rfl, ?_,
        (absurd · Bool.false_ne_true), (absurd · Bool.false_ne_true)⟩
      exact fun _ both => absurd both.1 (show ¬ ' ' = '/' by decide)
  | false =>
      have leaves : (commentPiece c rest).kind.leavesCommentOpen = true := by
        rw [commentPiece, closed]
        rfl
      have nothing : rest.drop (commentPiece c rest).tail.length = [] := by
        rw [← drop, throughCommentEnd_unclosed closed, List.drop_length]
      rw [closed, if_neg Bool.false_ne_true] at run
      refine ⟨scan.behind (c :: rest), column, ?_, ?_⟩
      · rw [run, nothing, run_nil]
      · rw [unchanged, leaves, nothing]
        refine ⟨⟨ready.depth, ready.ended, ready.sound⟩, ready.unquoted, ready.comment,
          fun code => absurd code.symm Bool.false_ne_true,
          fun _ _ => (Option.some_ne_none '/').symm, ?_⟩
        intro _ ended
        rw [ready.closed rfl ended] at closed
        cases closed

/-! ## Code, before the end -/

variable {piece : Piece}

theorem split_of_cuts (cuts : Cuts c rest piece) :
    c :: rest = piece.text ++ rest.drop piece.tail.length := by
  rw [Piece.text, cuts.first, List.cons_append, List.prefix_iff_eq_append.mp cuts.tail]

/-- The character before matters only to the first character of a text. -/
theorem uncommented_behind {previous : Char} (uncommented : Uncommented ' ' text)
    (apart : ¬ (previous = '/' ∧ (text.head? = some '/' ∨ text.head? = some '*'))) :
    Uncommented previous text := by
  cases text with
  | nil => trivial
  | cons c rest =>
      refine ⟨?_, uncommented.2⟩
      simpa using apart

theorem behind_previous (scan : DefinitionScan) (piece : Piece) :
    (scan.behind piece.text).previous = piece.text.getLast piece.text_ne_nil := by
  rw [behind, List.getLastD_eq_getLast?, List.getLast?_eq_some_getLast piece.text_ne_nil]
  rfl

theorem AtPiece.pass {front back : List Char} (ready : AtPiece scan extent false text)
    (apart : ¬ ((scan.behind front).previous = '/' ∧
      (back.head? = some '/' ∨ back.head? = some '*'))) :
    AtPiece (scan.behind front) extent false back :=
  ⟨⟨ready.depth, ready.ended, ready.sound⟩, ready.unquoted, ready.comment, fun _ => apart, nofun,
    nofun⟩

/-- Text without delimiters, in which no comment begins, is passed as it stands. -/
theorem passes_mild (ready : AtPiece scan extent false (c :: rest))
    (going : extent.ended = false) (cuts : Cuts c rest piece)
    (uncommented : Uncommented ' ' piece.text) (mild : ∀ x ∈ piece.text, isDelimiter x = false)
    (unchanged : extent.across [piece] = extent) (leaves : piece.kind.leavesCommentOpen = false)
    (apart : piece.text.getLast? = some '/' → ¬ ((rest.drop piece.tail.length).head? = some '/' ∨
      (rest.drop piece.tail.length).head? = some '*')) :
    Passes scan extent column c rest piece := by
  have split := split_of_cuts cuts
  have head : piece.text.head? = (c :: rest).head? := by
    rw [Piece.text, cuts.first]
    rfl
  have fromBefore : Uncommented scan.previous piece.text := by
    apply uncommented_behind uncommented
    rw [head]
    exact ready.apart rfl
  refine ⟨scan.behind piece.text, column + byteLength piece.text, ?_, ?_⟩
  · rw [split]
    exact run_plain (ready.going going) fromBefore mild
  · rw [unchanged, leaves]
    apply ready.pass
    rintro ⟨slash, next⟩
    rw [behind_previous] at slash
    refine apart ?_ next
    rw [List.getLast?_eq_some_getLast piece.text_ne_nil, slash]

theorem passes_plain (ready : AtPiece scan extent false (c :: rest))
    (going : extent.ended = false) (cuts : Cuts c rest piece) (plain : Plain piece.text)
    (unchanged : extent.across [piece] = extent)
    (leaves : piece.kind.leavesCommentOpen = false) :
    Passes scan extent column c rest piece := by
  refine passes_mild ready going cuts (plain.uncommented ' ')
    (fun x member => isDelimiter_of_plain (plain x member)) unchanged leaves ?_
  intro slash
  exact absurd (plain '/' (List.mem_of_getLast? slash)) (by decide)

/-- A mark that is passed as it stands. -/
structure MildMark (mark : Punctuator) : Prop where
  other : mark ≠ .openBrace ∧ mark ≠ .closeBrace ∧ mark ≠ .semicolon
  mild : ∀ x ∈ mark.spelling.toList, isDelimiter x = false
  uncommented : Uncommented ' ' mark.spelling.toList
  slash : mark.spelling.toList.getLast? = some '/' → mark = .slash

theorem mark_cases (mark : Punctuator) :
    mark = .openBrace ∨ mark = .closeBrace ∨ mark = .semicolon ∨ MildMark mark := by
  have mild : (mark = .openBrace ∨ mark = .closeBrace ∨ mark = .semicolon) ∨
      (mark ≠ .openBrace ∧ mark ≠ .closeBrace ∧ mark ≠ .semicolon) ∧
      (∀ x ∈ mark.spelling.toList, isDelimiter x = false) ∧
      Uncommented ' ' mark.spelling.toList ∧
      (mark.spelling.toList.getLast? = some '/' → mark = .slash) := by
    cases mark <;> simp [Punctuator.spelling, isDelimiter, Uncommented]
  rcases mild with (same | same | same) | ⟨other, mild, uncommented, slash⟩
  · exact .inl same
  · exact .inr (.inl same)
  · exact .inr (.inr (.inl same))
  · exact .inr (.inr (.inr ⟨other, mild, uncommented, slash⟩))

/-- One character that is a piece of its own. -/
theorem passes_single (ready : AtPiece scan extent false (c :: rest))
    (going : extent.ended = false) (single : piece.tail = [])
    (leaves : piece.kind.leavesCommentOpen = false) (noSlash : c ≠ '/')
    (follows : Follows (scan.code c column) (extent.across [piece]))
    (unquoted : (scan.code c column).inString = false)
    (outside : (scan.code c column).inComment = false) :
    Passes scan extent column c rest piece := by
  refine ⟨scan.code c column, column + c.utf8Size, ?_, ?_⟩
  · rw [single]
    refine run_code (ready.going going) ?_
    have apart := ready.apart rfl
    simpa using apart
  · rw [leaves]
    exact ⟨follows, unquoted, outside, fun _ both => noSlash both.1, nofun, nofun⟩

theorem Follows.closeBrace (follows : Follows scan extent) (column : Nat) :
    Follows (scan.closeBrace column) extent.close := by
  unfold DefinitionScan.closeBrace Extent.close
  rw [follows.depth]
  cases none : extent.depth with
  | zero => exact ⟨follows.depth.trans none, follows.ended, ⟨nofun, nofun⟩⟩
  | succ depth => exact ⟨rfl, rfl, follows.sound⟩

theorem closeBrace_inString (scan : DefinitionScan) (column : Nat) :
    (scan.closeBrace column).inString = scan.inString := by
  unfold closeBrace
  split <;> rfl

theorem closeBrace_inComment (scan : DefinitionScan) (column : Nat) :
    (scan.closeBrace column).inComment = scan.inComment := by
  unfold closeBrace
  split <;> rfl

theorem passes_mark (mark : Punctuator) (ready : AtPiece scan extent false (c :: rest))
    (going : extent.ended = false) (cuts : Cuts c rest piece)
    (kind : piece.kind = .token (.punctuator mark)) (spelled : piece.text = mark.spelling.toList)
    (apart : ¬ (c = '/' ∧ (rest.head? = some '/' ∨ rest.head? = some '*'))) :
    Passes scan extent column c rest piece := by
  have leaves : piece.kind.leavesCommentOpen = false := by rw [kind]; rfl
  have across : extent.across [piece] = extent.next (.punctuator mark) :=
    Extent.across_token [] kind
  have single : ∀ x, mark.spelling.toList = [x] → c = x ∧ piece.tail = [] := by
    intro x one
    rw [one, Piece.text, cuts.first, List.cons.injEq] at spelled
    exact spelled
  rcases mark_cases mark with rfl | rfl | rfl | mild
  · obtain ⟨rfl, tail⟩ := single '\x7b' rfl
    refine passes_single ready going tail leaves (by decide) ?_ ready.unquoted ready.comment
    rw [across, Extent.next_going _ going]
    exact ⟨congrArg (· + 1) ready.depth, ready.ended, ready.sound⟩
  · obtain ⟨rfl, tail⟩ := single '\x7d' rfl
    have follows := ready.toFollows.closeBrace column
    refine passes_single ready going tail leaves (by decide) ?_
      ((closeBrace_inString scan column).trans ready.unquoted)
      ((closeBrace_inComment scan column).trans ready.comment)
    rw [across, Extent.next_going _ going]
    exact ⟨follows.depth, follows.ended, follows.sound⟩
  · obtain ⟨rfl, tail⟩ := single ';' rfl
    refine passes_single ready going tail leaves (by decide) ?_ ready.unquoted ready.comment
    rw [across, Extent.next_going _ going]
    exact ⟨ready.depth, congrArg (fun depth => decide (depth = 0)) ready.depth, ready.sound⟩
  · have other : extent.next (.punctuator mark) = extent := by
      refine Extent.next_other going ⟨?_, ?_, ?_⟩
      · exact fun same => mild.other.1 (Lexeme.punctuator.inj same)
      · exact fun same => mild.other.2.1 (Lexeme.punctuator.inj same)
      · exact fun same => mild.other.2.2 (Lexeme.punctuator.inj same)
    refine passes_mild ready going cuts (spelled ▸ mild.uncommented) (spelled ▸ mild.mild)
      (across.trans other) leaves ?_
    intro last
    have isSlash := mild.slash (spelled ▸ last)
    subst isSlash
    obtain ⟨rfl, tail⟩ := single '/' rfl
    rw [tail]
    exact fun next => apart ⟨rfl, next⟩

theorem passes_string {encoding content : List Char} {distance : Nat}
    (ready : AtPiece scan extent false (c :: rest)) (going : extent.ended = false)
    (kind : piece.kind = .token .stringLiteral)
    (plain : Plain encoding) (text : c :: rest = encoding ++ '"' :: content)
    (closed : (stringContent distance content).closed = true)
    (shape : piece.text = encoding ++ '"' :: (stringContent distance content).text) :
    Passes scan extent column c rest piece := by
  have leaves : piece.kind.leavesCommentOpen = false := by rw [kind]; rfl
  have other : extent.next .stringLiteral = extent := Extent.next_other going (by simp)
  have unchanged : extent.across [piece] = extent := (Extent.across_token [] kind).trans other
  have behindPiece : content.drop (stringContent distance content).text.length =
      rest.drop piece.tail.length := by
    have count : piece.tail.length + 1 =
        encoding.length + ((stringContent distance content).text.length + 1) := by
      rw [← List.length_cons, ← Piece.text, shape, List.length_append, List.length_cons]
    have behind : (c :: rest).drop (piece.tail.length + 1) = rest.drop piece.tail.length :=
      List.drop_succ_cons
    rw [← behind, text, count, List.drop_length_add_append, List.drop_succ_cons]
  refine ⟨{ scan.behind encoding with inString := false, previous := '"' },
    column + byteLength encoding + 1 + byteLength (stringContent distance content).text, ?_, ?_⟩
  · have goingQuote := (ready.going going).behind encoding
    have noComment : ¬ ((scan.behind encoding).previous = '/' ∧ ('"' = '/' ∨ '"' = '*')) := by
      rintro ⟨_, slash | star⟩
      · exact absurd slash (by decide)
      · exact absurd star (by decide)
    rw [text, run_plain (ready.going going) (plain.uncommented _)
      (fun x member => isDelimiter_of_plain (plain x member)), run_code goingQuote noComment,
      ← behindPiece]
    exact @run_stringContent ((scan.behind encoding).code '"' _) _ distance content
      goingQuote.outside rfl closed
  · rw [unchanged, leaves]
    exact ⟨⟨ready.depth, ready.ended, ready.sound⟩, rfl, ready.comment,
      fun _ both => absurd both.1 (show ¬ '"' = '/' by decide),
      (absurd · Bool.false_ne_true), (absurd · Bool.false_ne_true)⟩

/-! ## Comments behind code -/

theorem passes_lineComment {behind : List Char} (ready : AtPiece scan extent false (c :: rest))
    (text : c :: rest = '/' :: '/' :: behind) :
    Passes scan extent column c rest ⟨.lineComment, c, rest, []⟩ := by
  obtain ⟨rfl, rfl⟩ := List.cons.inj text
  have unchanged : extent.across [⟨.lineComment, '/', '/' :: behind, []⟩] = extent :=
    Extent.across_other [] nofun
  have nothing : ('/' :: behind).drop ('/' :: behind).length = [] := List.drop_length
  have ends : ∀ previous, AtPiece { scan with previous := previous } extent false [] := by
    intro previous
    exact ⟨⟨ready.depth, ready.ended, ready.sound⟩, ready.unquoted, ready.comment,
      fun _ both => by cases both.2 <;> contradiction, nofun, nofun⟩
  cases ended : extent.ended with
  | true =>
      refine ⟨scan, column, ?_, ?_⟩
      · rw [nothing, run_nil]
        exact run_doneLine (ready.done ended)
      · rw [nothing, unchanged]
        exact ends scan.previous
  | false =>
      have going := ready.going ended
      refine ⟨{ scan with previous := '/' }, column, ?_, ?_⟩
      · have apart := ready.apart rfl
        rw [nothing, run_nil, run_code going (by simpa using apart), code_plain (by decide)]
        exact run_lineOpening (going.behind ['/']) rfl
      · rw [nothing, unchanged]
        exact ends '/'

theorem enterComment_atPiece {behind : List Char} (ready : AtPiece scan extent false text)
    (closed : extent.ended = true → (throughCommentEnd behind).2 = true) :
    AtPiece scan.enterComment extent true behind :=
  ⟨⟨ready.depth, ready.ended, ready.sound⟩, ready.unquoted, rfl, nofun,
    fun _ star => absurd star (show ¬ ' ' = '*' by decide), fun _ => closed⟩

theorem passes_commentOpening {behind : List Char}
    (ready : AtPiece scan extent false (c :: rest)) (text : c :: rest = '/' :: '*' :: behind)
    (closed : extent.ended = true → (throughCommentEnd behind).2 = true) :
    Passes scan extent column c rest ⟨.commentOpening, c, ['*'], []⟩ := by
  obtain ⟨rfl, rfl⟩ := List.cons.inj text
  have unchanged : extent.across [⟨.commentOpening, '/', ['*'], []⟩] = extent :=
    Extent.across_other [] nofun
  refine ⟨scan.enterComment, column + 1 + 1, ?_, ?_⟩
  · cases ended : extent.ended with
    | true => exact run_doneBlock (ready.done ended) (closed ended)
    | false =>
        have going := ready.going ended
        have apart := ready.apart rfl
        rw [run_code going (by simpa using apart), code_plain (by decide)]
        exact run_blockOpening (going.behind ['/']) rfl
  · rw [unchanged]
    exact enterComment_atPiece ready closed

/-! ## Any piece -/

/-- A piece without faults that is no character literal with delimiters. -/
structure Readable (piece : Piece) : Prop where
  faultless : piece.faults = []
  literal : piece.kind = .token .characterLiteral → ∀ x ∈ piece.text, isDelimiter x = false

theorem passes_code (ready : AtPiece scan extent false (c :: rest))
    (going : extent.ended = false) (readable : Readable (codePiece c rest)) :
    Passes scan extent column c rest (codePiece c rest) := by
  have cuts := (codePiece_cuts c rest).toCuts
  cases codePiece_shape c rest readable.faultless with
  | space kind plain =>
      have leaves : (codePiece c rest).kind.leavesCommentOpen = false := by rw [kind]; rfl
      have unchanged : extent.across [codePiece c rest] = extent :=
        Extent.across_other [] (by rw [kind]; exact nofun)
      exact passes_plain ready going cuts plain unchanged leaves
  | lineComment behind text shape =>
      rw [shape]
      exact passes_lineComment ready text
  | commentOpening behind text shape =>
      rw [shape]
      refine passes_commentOpening ready text ?_
      rw [going]
      exact nofun
  | mark mark kind spelled apart => exact passes_mark mark ready going cuts kind spelled apart
  | character kind uncommented last =>
      have leaves : (codePiece c rest).kind.leavesCommentOpen = false := by rw [kind]; rfl
      have other : extent.next .characterLiteral = extent :=
        Extent.next_other going ⟨nofun, nofun, nofun⟩
      refine passes_mild ready going cuts uncommented (readable.literal kind)
        ((Extent.across_token [] kind).trans other) leaves ?_
      rw [last]
      intro slash
      exact absurd (Option.some.inj slash) (by decide)
  | string encoding content distance kind plain text closed shape =>
      exact passes_string ready going kind plain text closed shape
  | plain token =>
      obtain ⟨lexeme, kind, _, noMark⟩ := token.token
      have leaves : (codePiece c rest).kind.leavesCommentOpen = false := by rw [kind]; rfl
      have other : extent.next lexeme = extent :=
        Extent.next_other going ⟨noMark .openBrace, noMark .closeBrace, noMark .semicolon⟩
      exact passes_plain ready going cuts token.text ((Extent.across_token [] kind).trans other)
        leaves

/-- Behind the end a token is a fault, and a comment that is not closed. -/
theorem passes_done (ready : AtPiece scan extent false (c :: rest))
    (ended : extent.ended = true) (readable : Readable (codePiece c rest)) :
    Passes scan extent column c rest (codePiece c rest) ∨
      ∃ cause, scan.run column (c :: rest) = scan.fault cause column ∧
        ((∃ lexeme, (codePiece c rest).kind = .token lexeme) ∨
          (codePiece c rest).kind = .commentOpening ∧
            (throughCommentEnd (rest.drop (codePiece c rest).tail.length)).2 = false) := by
  have cuts := (codePiece_cuts c rest).toCuts
  have fault : ∀ lexeme, (codePiece c rest).kind = .token lexeme →
      ∃ cause, scan.run column (c :: rest) = scan.fault cause column ∧
        ((∃ lexeme, (codePiece c rest).kind = .token lexeme) ∨
          (codePiece c rest).kind = .commentOpening ∧
            (throughCommentEnd (rest.drop (codePiece c rest).tail.length)).2 = false) := by
    intro lexeme kind
    exact ⟨_, run_doneText (ready.done ended) (codePiece_visible c rest lexeme kind)
      (codePiece_apart kind), .inl ⟨lexeme, kind⟩⟩
  cases codePiece_shape c rest readable.faultless with
  | space kind plain =>
      have leaves : (codePiece c rest).kind.leavesCommentOpen = false := by rw [kind]; rfl
      have unchanged : extent.across [codePiece c rest] = extent :=
        Extent.across_other [] (by rw [kind]; exact nofun)
      have split := split_of_cuts cuts
      left
      refine ⟨scan.behind (codePiece c rest).text, column + byteLength (codePiece c rest).text,
        ?_, ?_⟩
      · rw [split]
        exact run_doneSpace (ready.done ended) (cuts.space kind)
      · rw [unchanged, leaves]
        apply ready.pass
        rw [behind_previous]
        exact fun both => absurd (plain _ (List.getLast_mem _)) (by rw [both.1]; decide)
  | lineComment behind text shape =>
      left
      rw [shape]
      exact passes_lineComment ready text
  | commentOpening behind text shape =>
      rw [shape]
      obtain ⟨rfl, rfl⟩ := List.cons.inj text
      cases closed : (throughCommentEnd behind).2 with
      | true => exact .inl (passes_commentOpening ready rfl (fun _ => closed))
      | false => exact .inr ⟨_, run_doneOpen (ready.done ended) closed, .inr ⟨rfl, closed⟩⟩
  | mark mark kind => exact .inr (fault _ kind)
  | character kind => exact .inr (fault _ kind)
  | string encoding content distance kind => exact .inr (fault _ kind)
  | plain token =>
      obtain ⟨lexeme, kind, _⟩ := token.token
      exact .inr (fault lexeme kind)

theorem found_fault {cause : SourceFault} {final : Extent} {opened : Bool}
    (ready : AtPiece scan extent false text) (ended : extent.ended = true)
    (same : final = extent ∨ final = { extent with sound := false })
    (bad : final.sound = false ∨ opened = true) :
    Found (scan.fault cause column) final opened := by
  have kept : final.depth = extent.depth ∧ final.ended = extent.ended := by
    rcases same with same | same <;> rw [same] <;> exact ⟨rfl, rfl⟩
  have finalEnded : final.ended = true := kept.2.trans ended
  refine ⟨ready.depth.trans kept.1.symm, ready.ended.trans kept.2.symm, ?_, nofun, ?_⟩
  · rw [finalEnded]
    exact ready.comment
  · rintro ⟨sound, notBoth⟩
    rcases bad with unsound | opened
    · rw [unsound] at sound
      cases sound
    · exact absurd ⟨finalEnded, opened⟩ notBoth

/-- Over the pieces of a line the scan finds what the tokens are as part of a definition. -/
theorem run_found (inComment : Bool) (text : List Char)
    (ready : AtPiece scan extent inComment text)
    (readable : ∀ piece ∈ pieces inComment text, Readable piece) :
    Found (scan.run column text) (extent.across (pieces inComment text))
      (openAfter inComment (pieces inComment text)) := by
  fun_induction pieces inComment text generalizing scan extent column with
  | case1 inComment =>
      rw [run_nil]
      exact ready.found
  | case2 inComment c rest piece =>
      rename_i induction
      have readableRest : ∀ other ∈ pieces piece.kind.leavesCommentOpen
          (rest.drop piece.tail.length), Readable other :=
        fun other member => readable other (List.mem_cons_of_mem _ member)
      have passed : Passes scan extent column c rest piece →
          Found (scan.run column (c :: rest))
            (extent.across (piece :: pieces piece.kind.leavesCommentOpen
              (rest.drop piece.tail.length)))
            (openAfter inComment (piece :: pieces piece.kind.leavesCommentOpen
              (rest.drop piece.tail.length))) := by
        rintro ⟨after, next, run, readyNext⟩
        rw [run]
        exact induction readyNext readableRest
      cases inComment with
      | true => exact passed (passes_comment ready)
      | false =>
          have first : Readable (codePiece c rest) := readable piece List.mem_cons_self
          cases ended : extent.ended with
          | false => exact passed (passes_code ready ended first)
          | true =>
              rcases passes_done ready ended first with passes | ⟨cause, run, bad⟩
              · exact passed passes
              · rw [run]
                refine found_fault ready ended (Extent.across_ended _ ended) ?_
                rcases bad with ⟨lexeme, kind⟩ | ⟨kind, unclosed⟩
                · exact .inl (Extent.across_unsound ended kind)
                · right
                  have opens : piece.kind.leavesCommentOpen = true := congrArg _ kind
                  rw [openAfter_cons, opens]
                  exact openAfter_unclosed unclosed

theorem Found.of_forget {other : DefinitionScan} {opened : Bool}
    (same : other.forget = result.forget) (found : Found result extent opened) :
    Found other extent opened := by
  have depth : other.forget.depth = result.forget.depth := by rw [same]
  have ended : other.forget.ended = result.forget.ended := by rw [same]
  have comment : other.forget.inComment = result.forget.inComment := by rw [same]
  have faults : other.faults = result.faults := by
    have forgotten : other.forget.faults = result.forget.faults := by rw [same]
    exact forgotten
  refine ⟨depth.trans found.depth, ended.trans found.ended, comment.trans found.comment, ?_⟩
  rw [faults]
  exact found.sound

/-- The scan of an indented line. -/
theorem line_found (inComment : Bool) (depth : Nat) (text : List Char)
    (readable : ∀ piece ∈ pieces inComment text, Readable piece) :
    Found ((start inComment depth).run (text.takeWhile isSpace).length
        (text.dropWhile isSpace))
      (Extent.across ⟨depth, false, true⟩ (pieces inComment text))
      (openAfter inComment (pieces inComment text)) := by
  have ready : AtPiece (start inComment depth) ⟨depth, false, true⟩ inComment text :=
    ⟨⟨rfl, rfl, fun _ => rfl, fun _ => rfl⟩, rfl, rfl,
      fun _ both => absurd both.1 (show ¬ ' ' = '/' by decide),
      fun _ star => absurd star (show ¬ ' ' = '*' by decide), nofun⟩
  exact (run_found inComment text ready readable).of_forget (forget_indented inComment depth text)

end DefinitionScan

end CppsFrontend
