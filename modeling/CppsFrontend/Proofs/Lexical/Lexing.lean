import CppsFrontend.Proofs.Lexical.Tiling

/-!
# Lexing cuts a source into segments

Reading a line adds segments that tile it, and reading the lines adds segments that
tile all of them.  Order and slices of the tokens are those of the segments.
-/

set_option autoImplicit false

namespace CppsFrontend.Lexical

open Text

theorem byteLength_ofList (text : List Char) :
    byteLength text = (String.ofList text).utf8ByteSize := by
  induction text with
  | nil => rfl
  | cons c rest induction =>
      have split : String.ofList (c :: rest) = String.singleton c ++ String.ofList rest := by
        rw [String.singleton_eq_ofList, ← String.ofList_append, List.singleton_append]
      rw [split, String.utf8ByteSize_append, String.utf8ByteSize_singleton, byteLength_cons,
        induction]

theorem byteLength_toList (text : String) : byteLength text.toList = text.utf8ByteSize := by
  rw [byteLength_ofList, String.ofList_toList]

/-! ## Reading lines -/

variable {progress : Progress} {segments : List Segment} {line column : Nat}

theorem Reads.pieces (inComment : Bool) (text : List Char) (reads : Reads progress segments)
    (opened : progress.pending.isSome = inComment) (lineBelow : line < Location.bound)
    (columnBelow : column + byteLength text < Location.bound) :
    ∃ added, Tiles line column text added ∧
      Reads ((Lexical.pieces inComment text).foldl (Progress.step line) (progress, column)).1
        (segments ++ added) := by
  -- Induction on the cuts: what one piece leaves open is how the next one begins.
  fun_induction Lexical.pieces inComment text generalizing progress segments column with
  | case1 inComment =>
      refine ⟨[], .nil column, ?_⟩
      rw [List.append_nil]
      exact reads
  | case2 inComment c rest piece =>
      rename_i induction
      have whole : piece.text ++ rest.drop piece.tail.length = c :: rest :=
        pieceAt_text inComment c rest
      have inside : (∃ closed, piece.kind = .commentText closed) ↔
          progress.pending.isSome = true := by
        rw [opened]
        exact pieceAt_commentText inComment c rest
      obtain ⟨readsOne, openedNext⟩ := reads.step (pieceAt_cuts inComment c rest) inside
        lineBelow (show column < Location.bound by omega)
      have restBelow : column + byteLength piece.text +
          byteLength (rest.drop piece.tail.length) < Location.bound := by
        rw [← whole, byteLength_append] at columnBelow
        omega
      obtain ⟨added, tiles, readsAll⟩ := induction readsOne openedNext restBelow
      refine ⟨segmentOf progress line column piece :: added, ?_, ?_⟩
      · rw [← whole]
        exact @Tiles.cons line (segmentOf progress line column piece) _ _ rfl
          piece.text_ne_nil tiles
      · rw [List.append_assoc, List.singleton_append] at readsAll
        exact readsAll

theorem Reads.lines (lines : List Line) (index : Nat) (reads : Reads progress segments)
    (countBelow : index + lines.length < Location.bound)
    (bytesBelow : ∀ line ∈ lines, line.text.utf8ByteSize < Location.bound) :
    ∃ added, TilesLines index lines added ∧
      Reads (progress.readLines index lines) (segments ++ added) := by
  induction lines generalizing index progress segments with
  | nil =>
      refine ⟨[], .nil index, ?_⟩
      rw [List.append_nil]
      exact reads
  | cons line rest induction =>
      rw [List.length_cons] at countBelow
      have restCount : index + 1 + rest.length < Location.bound := by omega
      have restBytes : ∀ line ∈ rest, line.text.utf8ByteSize < Location.bound := by
        intro other member
        exact bytesBelow other (List.mem_cons_of_mem _ member)
      unfold Progress.readLines
      by_cases kind : line.kind = .cpps
      · have bytes : 0 + byteLength line.text.toList < Location.bound := by
          rw [byteLength_toList, Nat.zero_add]
          exact bytesBelow line List.mem_cons_self
        obtain ⟨head, tiles, readsLine⟩ := reads.pieces _ line.text.toList rfl
          (show index < Location.bound by omega) bytes
        obtain ⟨tail, tilesRest, readsAll⟩ := induction (index + 1) readsLine restCount restBytes
        refine ⟨head ++ tail, .cut kind tiles tilesRest, ?_⟩
        rw [List.append_assoc] at readsAll
        rw [if_pos kind]
        exact readsAll
      · obtain ⟨tail, tilesRest, readsAll⟩ := induction (index + 1) reads restCount restBytes
        refine ⟨tail, .other kind tilesRest, ?_⟩
        rw [if_neg kind]
        exact readsAll

theorem reads_start : Reads Progress.start [] where
  tokens := rfl
  space := nofun
  skipped := nofun
  errors := nofun
  comments := ⟨nofun, nofun, nofun⟩

/-! ## Order and slices -/

namespace Tiles

variable {index : Nat} {text : List Char}

theorem from_column (tiles : Tiles index column text segments) :
    ∀ segment ∈ segments, segment.line = index ∧ column ≤ segment.column := by
  induction tiles with
  | nil column => exact nofun
  | cons on nonempty behind induction =>
      intro other member
      rcases List.mem_cons.mp member with rfl | member
      · exact ⟨on, Nat.le_refl other.column⟩
      · obtain ⟨sameLine, after⟩ := induction other member
        exact ⟨sameLine, Nat.le_of_add_right_le after⟩

/-- Segments of a line are in order, because each holds at least one byte. -/
theorem ordered (tiles : Tiles index column text segments) :
    segments.Pairwise Segment.Before := by
  induction tiles with
  | nil column => exact .nil
  | @cons segment rest segments on nonempty behind induction =>
      refine List.pairwise_cons.mpr ⟨?_, induction⟩
      intro other member
      obtain ⟨sameLine, after⟩ := behind.from_column other member
      have someBytes : 0 < byteLength segment.text := by
        obtain ⟨c, tail, shape⟩ := List.exists_cons_of_ne_nil nonempty
        have first := c.utf8Size_pos
        rw [shape, byteLength_cons]
        omega
      right
      refine ⟨on.trans sameLine.symm, ?_⟩
      omega

/-- A segment is a slice of the text, at its column. -/
theorem slice (tiles : Tiles index column text segments) :
    ∀ segment ∈ segments, ∃ before behind, text = before ++ segment.text ++ behind ∧
      segment.text ≠ [] ∧ segment.column = column + byteLength before := by
  induction tiles with
  | nil column => exact nofun
  | @cons segment rest segments on nonempty behind induction =>
      intro other member
      rcases List.mem_cons.mp member with rfl | member
      · exact ⟨[], rest, rfl, nonempty, rfl⟩
      · obtain ⟨before, behind, split, otherNonempty, place⟩ := induction other member
        refine ⟨segment.text ++ before, behind, ?_, otherNonempty, ?_⟩
        · rw [split, List.append_assoc, List.append_assoc, List.append_assoc]
        · rw [place, byteLength_append, Nat.add_assoc]

end Tiles

namespace TilesLines

variable {index : Nat} {lines : List Line}

theorem from_line (tiles : TilesLines index lines segments) :
    ∀ segment ∈ segments, index ≤ segment.line := by
  induction tiles with
  | nil index => exact nofun
  | cut kind head rest induction =>
      intro segment member
      rcases List.mem_append.mp member with member | member
      · exact Nat.le_of_eq (head.from_column segment member).1.symm
      · exact Nat.le_of_succ_le (induction segment member)
  | other kind rest induction =>
      intro segment member
      exact Nat.le_of_succ_le (induction segment member)

theorem ordered (tiles : TilesLines index lines segments) :
    segments.Pairwise Segment.Before := by
  induction tiles with
  | nil index => exact .nil
  | cut kind head rest induction =>
      refine List.pairwise_append.mpr ⟨head.ordered, induction, ?_⟩
      intro first firstMember second secondMember
      have sameLine := (head.from_column first firstMember).1
      have later := rest.from_line second secondMember
      left
      omega
  | other kind rest induction => exact induction

/-- A segment is a slice of a line of the language. -/
theorem slice (tiles : TilesLines index lines segments) :
    ∀ segment ∈ segments, ∃ place line before behind, segment.line = index + place ∧
      lines[place]? = some line ∧ line.kind = .cpps ∧
      line.text.toList = before ++ segment.text ++ behind ∧
      segment.text ≠ [] ∧ segment.column = byteLength before := by
  induction tiles with
  | nil index => exact nofun
  | @cut index line lines headSegments tailSegments kind head rest induction =>
      intro segment member
      rcases List.mem_append.mp member with member | member
      · obtain ⟨before, behind, split, nonempty, place⟩ := head.slice segment member
        rw [Nat.zero_add] at place
        exact ⟨0, line, before, behind, (head.from_column segment member).1, rfl, kind, split,
          nonempty, place⟩
      · obtain ⟨place, found, before, behind, row, stored, rest⟩ := induction segment member
        refine ⟨place + 1, found, before, behind, ?_, stored, rest⟩
        omega
  | other kind rest induction =>
      intro segment member
      obtain ⟨place, found, before, behind, row, stored, rest⟩ := induction segment member
      refine ⟨place + 1, found, before, behind, ?_, stored, rest⟩
      omega

end TilesLines

/-- Segments are before one another exactly as their locations are. -/
theorem Segment.order_of_before {first second : Segment} (before : first.Before second) :
    Location.order first.location second.location = .lt := by
  rw [Location.order, Ordering.then_eq_lt]
  rcases before with earlier | ⟨sameLine, earlier⟩
  · left
    exact Nat.compare_eq_lt.mpr earlier
  · right
    exact ⟨Nat.compare_eq_eq.mpr sameLine, Nat.compare_eq_lt.mpr earlier⟩

theorem Segment.location_token {segment : Segment} {token : Token}
    (found : segment.token? = some token) :
    token.location = segment.location ∧ token.text = String.ofList segment.text := by
  unfold Segment.token? at found
  split at found
  · cases found
    exact ⟨rfl, rfl⟩
  · cases found

end CppsFrontend.Lexical

namespace CppsFrontend

open Lexical

/-- A token is nonempty text of a line of the language, from its location on.  Texts
are split at characters. -/
def IsSlice (source : Source) (token : Token) : Prop :=
  token.text ≠ "" ∧ ∃ index line before behind,
    source.lines[index]? = some line ∧ line.kind = .cpps ∧
    line.text = before ++ token.text ++ behind ∧
    token.location = ⟨some index, some before.utf8ByteSize⟩

/-- Segments of a source from which everything that is lexed is read off in order. -/
structure CutInto (source : Source) (lexed : Lexed) (segments : List Segment) : Prop where
  /-- Every line of the language is cut without a gap, other lines are not. -/
  tiles : TilesLines 0 source.lines segments
  tokens : lexed.stream.tokens.toList = segments.filterMap Segment.token?
  space : ∀ segment ∈ segments, segment.role = .space → ∀ c ∈ segment.text, Text.isSpace c = true
  /-- Text that is passed over has an error at its first byte. -/
  skipped : ∀ segment ∈ segments, segment.role = .skipped →
    ∃ entry ∈ lexed.errors, entry.location = some segment.location
  /-- Nothing is reported for other lines. -/
  errors : ∀ entry ∈ lexed.errors, ∃ location index line, entry.location = some location ∧
    location.line = some index ∧ source.lines[index]? = some line ∧ line.kind = .cpps
  /-- A comment is the text of its fragments. -/
  comments : Joined lexed.comments segments
  slices : ∀ token ∈ lexed.stream.tokens.toList, IsSlice source token
  ordered : lexed.stream.tokens.toList.Pairwise fun first second =>
    Location.order first.location second.location = .lt

/-- Lexing loses no byte of a line of the language: each is in a token, in a comment,
in space, or in text that an error points at. -/
theorem lex_cuts (source : Source) (countBelow : source.lines.length < Location.bound)
    (bytesBelow : ∀ line ∈ source.lines, line.text.utf8ByteSize < Location.bound) :
    ∃ segments, CutInto source (lex source) segments := by
  obtain ⟨segments, tiles, reads⟩ := reads_start.lines source.lines 0
    (by rw [Nat.zero_add]; exact countBelow) bytesBelow
  rw [List.nil_append] at reads
  have tokens : (lex source).stream.tokens.toList = segments.filterMap Segment.token? :=
    reads.tokens
  refine ⟨segments, tiles, tokens, reads.space, reads.skipped, ?_, reads.comments, ?_, ?_⟩
  · intro entry member
    obtain ⟨segment, among, location, located, row⟩ := reads.errors entry member
    obtain ⟨place, line, _, _, rowPlace, stored, kind, _⟩ := tiles.slice segment among
    rw [rowPlace, Nat.zero_add] at row
    exact ⟨location, place, line, located, row, stored, kind⟩
  · intro token member
    rw [tokens] at member
    obtain ⟨segment, among, found⟩ := List.mem_filterMap.mp member
    obtain ⟨location, text⟩ := Segment.location_token found
    obtain ⟨place, line, before, behind, row, stored, kind, split, nonempty, column⟩ :=
      tiles.slice segment among
    refine ⟨?_, place, line, String.ofList before, String.ofList behind, stored, kind, ?_, ?_⟩
    · rw [text]
      intro empty
      exact nonempty (String.ofList_eq_empty_iff.mp empty)
    · rw [text, ← String.ofList_append, ← String.ofList_append, ← split, String.ofList_toList]
    · rw [location, Segment.location, row, column, byteLength_ofList, Nat.zero_add]
  · rw [tokens, List.pairwise_filterMap]
    refine tiles.ordered.imp ?_
    intro first second before firstToken firstFound secondToken secondFound
    rw [(Segment.location_token firstFound).1, (Segment.location_token secondFound).1]
    exact Segment.order_of_before before

/-- A comment goes on behind a line of another kind; then a zero without digits is
passed over. -/
def openComment : Source :=
  .ofLines [⟨"fn é /* a", .cpps⟩, ⟨"int x;", .cpp⟩, ⟨"b */ 0x", .cpps⟩]

theorem openComment_cuts : openComment.lines.length < Location.bound ∧
    (∀ line ∈ openComment.lines, line.text.utf8ByteSize < Location.bound) ∧
    ∃ segments, CutInto openComment (lex openComment) segments := by
  have count : openComment.lines.length < Location.bound := by decide
  have bytes : ∀ line ∈ openComment.lines, line.text.utf8ByteSize < Location.bound := by
    decide +kernel
  exact ⟨count, bytes, lex_cuts openComment count bytes⟩

end CppsFrontend
