import CppsFrontend.Proofs.Lexical.Tiling

/-!
# What a line adds

Reading a line adds the tokens of its pieces, in order, and is without errors exactly if
no piece has a fault.  Whether a comment is open behind the line is known from its pieces.
This holds for lines of any number and length.
-/

set_option autoImplicit false

namespace CppsFrontend

def Token.written (token : Token) : Lexeme × List Char := (token.lexeme, token.text.toList)

def Piece.written? (piece : Piece) : Option (Lexeme × List Char) :=
  match piece.kind with
  | .token lexeme => some (lexeme, piece.text)
  | _ => none

namespace Lexical

def openAfter (inComment : Bool) (pieces : List Piece) : Bool :=
  pieces.foldl (fun _ piece => piece.kind.leavesCommentOpen) inComment

theorem openAfter_cons (inComment : Bool) (piece : Piece) (pieces : List Piece) :
    openAfter inComment (piece :: pieces) = openAfter piece.kind.leavesCommentOpen pieces := rfl

/-- What pieces add to what has been read. -/
structure Adds (before after : Progress) (pieces : List Piece) : Prop where
  tokens : after.tokens.toList.map Token.written =
    before.tokens.toList.map Token.written ++ pieces.filterMap Piece.written?
  errors : after.errors = #[] ↔ before.errors = #[] ∧ ∀ piece ∈ pieces, piece.faults = []

variable {progress before middle after : Progress} {line column : Nat}
variable {first second : List Piece} {piece : Piece}

theorem Adds.nil (progress : Progress) : Adds progress progress [] := by
  refine ⟨?_, ?_⟩
  · rw [List.filterMap_nil, List.append_nil]
  · exact ⟨fun none => ⟨none, nofun⟩, And.left⟩

theorem Adds.append (head : Adds before middle first) (tail : Adds middle after second) :
    Adds before after (first ++ second) := by
  refine ⟨?_, ?_⟩
  · rw [tail.tokens, head.tokens, List.filterMap_append, List.append_assoc]
  · rw [tail.errors, head.errors, and_assoc, List.forall_mem_append]

theorem read_written (progress : Progress) (line column : Nat) (piece : Piece) :
    (progress.read line column piece).tokens.toList.map Token.written =
      progress.tokens.toList.map Token.written ++ [piece].filterMap Piece.written? := by
  obtain ⟨kind, c, tail, faults⟩ := piece
  cases kind with
  | token lexeme => simp [Progress.read, Piece.written?, Token.written]
  | commentText closed =>
      cases pending : progress.pending <;> cases closed <;>
        simp [Progress.read, Piece.written?, pending]
  | _ => simp [Progress.read, Piece.written?]

/-- A comment is open behind a piece that leaves one open, if text of a comment stands
only inside one and nothing else does. -/
theorem read_leavesOpen (progress : Progress) (line column : Nat) (piece : Piece)
    (inside : (∃ closed, piece.kind = .commentText closed) ↔ progress.pending.isSome = true) :
    (progress.read line column piece).pending.isSome = piece.kind.leavesCommentOpen := by
  have outside : (∀ closed, piece.kind ≠ .commentText closed) →
      progress.pending.isSome = false := by
    intro other
    rw [Bool.eq_false_iff]
    intro opened
    obtain ⟨closed, kind⟩ := inside.mpr opened
    exact other closed kind
  obtain ⟨kind, c, tail, faults⟩ := piece
  cases kind with
  | commentText closed =>
      obtain ⟨comment, pending⟩ := Option.isSome_iff_exists.mp (inside.mp ⟨closed, rfl⟩)
      cases closed <;> simp [Progress.read, PieceKind.leavesCommentOpen, pending]
  | commentOpening => rfl
  | _ => exact outside (by simp)

theorem step_adds (progress : Progress) (line column : Nat) (piece : Piece) :
    Adds progress (Progress.step line (progress, column) piece).1 [piece] := by
  refine ⟨read_written progress line column piece, ?_⟩
  have errors : (Progress.step line (progress, column) piece).1.errors =
      progress.errors ++ (piece.faults.map (Progress.faultEntry line column)).toArray := by
    rw [← @read_errors progress line column piece]
    rfl
  rw [errors, Array.append_eq_empty_iff]
  simp

theorem pieces_add (inComment : Bool) (text : List Char)
    (opened : progress.pending.isSome = inComment) :
    Adds progress ((pieces inComment text).foldl (Progress.step line) (progress, column)).1
        (pieces inComment text) ∧
      ((pieces inComment text).foldl (Progress.step line) (progress, column)).1.pending.isSome =
        openAfter inComment (pieces inComment text) := by
  fun_induction pieces inComment text generalizing progress column with
  | case1 inComment => exact ⟨.nil progress, opened⟩
  | case2 inComment c rest piece =>
      rename_i induction
      have inside : (∃ closed, piece.kind = .commentText closed) ↔
          progress.pending.isSome = true := by
        rw [opened]
        exact pieceAt_commentText inComment c rest
      have openedNext : (Progress.step line (progress, column) piece).1.pending.isSome =
          piece.kind.leavesCommentOpen := read_leavesOpen progress line column piece inside
      obtain ⟨adds, openedAll⟩ := @induction (Progress.step line (progress, column) piece).1
        (Progress.step line (progress, column) piece).2 openedNext
      exact ⟨(step_adds progress line column piece).append adds, openedAll⟩

/-- What a line adds. -/
theorem readLine_adds (progress : Progress) (line : Nat) (text : String) :
    Adds progress (progress.readLine line text)
        (pieces progress.pending.isSome text.toList) ∧
      (progress.readLine line text).pending.isSome =
        openAfter progress.pending.isSome (pieces progress.pending.isSome text.toList) :=
  pieces_add _ text.toList rfl

theorem readLines_append (progress : Progress) (index : Nat) (first second : List Line) :
    progress.readLines index (first ++ second) =
      (progress.readLines index first).readLines (index + first.length) second := by
  induction first generalizing progress index with
  | nil => rfl
  | cons line rest induction =>
      rw [List.cons_append, Progress.readLines, Progress.readLines, induction, List.length_cons,
        Nat.add_right_comm, Nat.add_assoc]

end Lexical

def Source.ofTexts (texts : List String) : Source :=
  .ofLines (texts.map fun text => ⟨text, .cpps⟩)

namespace Lexical

def progressOver (texts : List String) : Progress :=
  Progress.start.readLines 0 (Source.ofTexts texts).lines

theorem progressOver_concat (texts : List String) (text : String) :
    progressOver (texts ++ [text]) = (progressOver texts).readLine texts.length text := by
  simp only [progressOver, Source.ofTexts, Source.lines_ofLines, List.map_append, List.map_cons,
    List.map_nil, readLines_append, List.length_map, Nat.zero_add]
  rfl

end Lexical

end CppsFrontend
