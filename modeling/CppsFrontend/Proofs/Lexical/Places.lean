import CppsFrontend.Proofs.Lexical.Classes
import CppsFrontend.Proofs.Lexical.Lexing

/-!
# Places of tokens

Tokens are read from left to right and from line to line, each from a place of its own.
Where a place has a location, which all have below the bound of locations, the location
names the token.
-/

set_option autoImplicit false

namespace CppsFrontend

theorem Piece.byteLength_pos (piece : Piece) : 0 < Text.byteLength piece.text := by
  have first := piece.first.utf8Size_pos
  rw [Piece.text, Text.byteLength_cons]
  omega

namespace Lexical

/-- A line and a column, counted without a bound. -/
structure TextPlace where
  line : Nat
  column : Nat

namespace TextPlace

def location (place : TextPlace) : Location := .ofIndices place.line place.column

def Before (first second : TextPlace) : Prop :=
  first.line < second.line ∨ first.line = second.line ∧ first.column < second.column

theorem Before.trans {first second third : TextPlace} (before : first.Before second)
    (behind : second.Before third) : first.Before third := by
  simp only [Before] at before behind ⊢
  omega

/-- Places that have locations are before one another as their locations are. -/
theorem Before.order {first second : TextPlace} (before : first.Before second)
    (firstKnown : first.location.isKnown = true) (secondKnown : second.location.isKnown = true) :
    Location.order first.location second.location = .lt := by
  have below : ∀ place : TextPlace, place.location.isKnown = true →
      place.location = ⟨some place.line, some place.column⟩ := by
    intro place known
    simp only [location, Location.ofIndices, Location.isKnown, Location.hasLine,
      Location.hasColumn, Location.axis, Bool.and_eq_true] at known ⊢
    obtain ⟨lineKnown, columnKnown⟩ := known
    split at lineKnown
    · split at columnKnown
      · simp [*]
      · cases columnKnown
    · cases lineKnown
  rw [below first firstKnown, below second secondKnown, Location.order, Ordering.then_eq_lt]
  rcases before with earlier | ⟨sameLine, earlier⟩
  · exact .inl (Nat.compare_eq_lt.mpr earlier)
  · exact .inr ⟨Nat.compare_eq_eq.mpr sameLine, Nat.compare_eq_lt.mpr earlier⟩

end TextPlace

/-- Tokens stand at places in reading order, all of them before the place where the next
piece is read. -/
def InPlace (tokens : List Token) (next : TextPlace) : Prop :=
  ∃ places : List TextPlace, tokens.map Token.location = places.map TextPlace.location ∧
    (places ++ [next]).Pairwise TextPlace.Before

variable {progress : Progress} {tokens : List Token} {next further : TextPlace}
variable {line column : Nat}

theorem InPlace.skip (placed : InPlace tokens next) (behind : next.Before further) :
    InPlace tokens further := by
  obtain ⟨places, same, ordered⟩ := placed
  refine ⟨places, same, ?_⟩
  rw [List.pairwise_append] at ordered ⊢
  obtain ⟨inner, -, last⟩ := ordered
  refine ⟨inner, List.pairwise_singleton _ _, ?_⟩
  intro place member other among
  obtain rfl := List.mem_singleton.mp among
  exact (last place member next (List.mem_singleton_self next)).trans behind

theorem InPlace.push (placed : InPlace tokens next) {token : Token}
    (stands : token.location = next.location) (behind : next.Before further) :
    InPlace (tokens ++ [token]) further := by
  obtain ⟨places, same, ordered⟩ := placed
  refine ⟨places ++ [next], by simp [same, stands], ?_⟩
  refine List.pairwise_append.mpr ⟨ordered, List.pairwise_singleton _ _, ?_⟩
  intro place member other among
  obtain rfl := List.mem_singleton.mp among
  rcases List.mem_append.mp member with member | member
  · have before := (List.pairwise_append.mp ordered).2.2 place member next
    exact (before (List.mem_singleton_self next)).trans behind
  · obtain rfl := List.mem_singleton.mp member
    exact behind

theorem InPlace.step {state : Progress × Nat}
    (placed : InPlace state.1.tokens.toList ⟨line, state.2⟩) (piece : Piece) :
    InPlace (Progress.step line state piece).1.tokens.toList
      ⟨line, (Progress.step line state piece).2⟩ := by
  have behind : TextPlace.Before ⟨line, state.2⟩ ⟨line, (Progress.step line state piece).2⟩ :=
    .inr ⟨rfl, Nat.lt_add_of_pos_right piece.byteLength_pos⟩
  have tokens : (Progress.step line state piece).1.tokens.toList =
      state.1.tokens.toList ++ (placed? line state.2 piece).toList := Progress.read_placed
  rw [tokens]
  cases found : placed? line state.2 piece with
  | none => simpa using placed.skip behind
  | some token =>
      refine placed.push ?_ behind
      unfold placed? at found
      split at found
      · cases found
        rfl
      · cases found

theorem InPlace.pieces (pieces : List Piece) (state : Progress × Nat)
    (placed : InPlace state.1.tokens.toList ⟨line, state.2⟩) :
    InPlace (pieces.foldl (Progress.step line) state).1.tokens.toList
      ⟨line, (pieces.foldl (Progress.step line) state).2⟩ := by
  induction pieces generalizing state with
  | nil => exact placed
  | cons piece rest induction => exact induction _ (placed.step piece)

theorem InPlace.readLines (lines : List Line) {index : Nat}
    (placed : InPlace progress.tokens.toList ⟨index, 0⟩) :
    InPlace (progress.readLines index lines).tokens.toList ⟨index + lines.length, 0⟩ := by
  induction lines generalizing progress index with
  | nil => exact placed
  | cons line rest induction =>
      have below : ∀ column, TextPlace.Before ⟨index, column⟩ ⟨index + 1, 0⟩ :=
        fun _ => .inl (Nat.lt_succ_self index)
      rw [List.length_cons, Nat.add_comm rest.length, ← Nat.add_assoc, Progress.readLines]
      refine induction ?_
      split
      · have read := InPlace.pieces (Lexical.pieces progress.pending.isSome line.text.toList)
          (progress, 0) placed
        exact read.skip (below _)
      · exact placed.skip (below 0)

end Lexical

open Lexical Text

theorem Lexical.placed?_inside {inComment : Bool} {text : List Char} {front more : List Piece}
    {piece : Piece} {line column : Nat} {token : Token}
    (split : pieces inComment text = front ++ piece :: more)
    (found : placed? line column piece = some token) :
    byteLength (front.flatMap Piece.text) < byteLength text := by
  have code : ∀ closed, piece.kind ≠ .commentText closed := by
    intro closed kind
    rw [placed?, kind] at found
    cases found
  obtain ⟨rest, rfl, cut⟩ := pieces_split split code
  cases rest with
  | nil =>
      rw [pieces] at cut
      cases cut
  | cons c rest =>
      have first := c.utf8Size_pos
      rw [byteLength_append, byteLength_cons]
      omega

/-- Below the bound of locations all tokens have known ones. -/
theorem lex_known {source : Source} (rows : source.lines.length ≤ Location.bound)
    (columns : ∀ line ∈ source.lines, line.text.utf8ByteSize ≤ Location.bound) :
    ∀ token ∈ (lex source).stream.tokens, token.location.isKnown = true := by
  intro token among
  have stored : token ∈ (Progress.start.readLines 0 source.lines).tokens.toList :=
    Array.mem_toList_iff.mpr among
  rw [Progress.mem_readLines] at stored
  rcases stored with impossible | ⟨index, line, front, piece, more, within, -, split, found⟩
  · cases impossible
  · have row : index < Location.bound :=
      Nat.lt_of_lt_of_le (List.getElem?_eq_some_iff.mp within).1 rows
    have column : byteLength (front.flatMap Piece.text) < Location.bound := by
      have bytes := columns line (List.mem_of_getElem? within)
      rw [← byteLength_toList] at bytes
      exact Nat.lt_of_lt_of_le (placed?_inside split found) bytes
    rw [Nat.zero_add] at found
    unfold placed? at found
    split at found
    · cases found
      simp [Location.isKnown, Location.hasLine, Location.hasColumn, Location.ofIndices, row, column]
    · cases found

/-- Tokens are at places of their source, in reading order. -/
theorem lex_placed (source : Source) : ∃ places : List TextPlace,
    (lex source).stream.tokens.toList.map Token.location = places.map TextPlace.location ∧
      places.Pairwise TextPlace.Before := by
  have empty : InPlace Progress.start.tokens.toList ⟨0, 0⟩ :=
    ⟨[], rfl, List.pairwise_singleton _ _⟩
  obtain ⟨places, same, ordered⟩ := empty.readLines source.lines
  exact ⟨places, same, (List.pairwise_append.mp ordered).1⟩

/-- Locations of tokens are in reading order wherever they are known. -/
theorem lex_ordered (source : Source)
    (known : ∀ token ∈ (lex source).stream.tokens, token.location.isKnown = true) :
    (lex source).stream.tokens.toList.Pairwise fun first second =>
      Location.order first.location second.location = .lt := by
  obtain ⟨places, same, ordered⟩ := lex_placed source
  have located : ∀ place ∈ places, place.location.isKnown = true := by
    intro place member
    have among : place.location ∈ places.map TextPlace.location := List.mem_map_of_mem member
    rw [← same] at among
    obtain ⟨token, stored, stands⟩ := List.mem_map.mp among
    rw [← stands]
    exact known token (Array.mem_toList_iff.mp stored)
  have inOrder : (places.map TextPlace.location).Pairwise fun first second =>
      Location.order first second = .lt := by
    rw [List.pairwise_map]
    refine ordered.imp_of_mem ?_
    intro first second firstMember secondMember before
    exact before.order (located first firstMember) (located second secondMember)
  rw [← same, List.pairwise_map] at inOrder
  exact inOrder

/-- No token is on an earlier line than the one before it, however many lines there are. -/
theorem lex_ascends (source : Source) : (lex source).stream.tokens.toList.Pairwise
    fun first second => TokenStream.lineOf first ≤ TokenStream.lineOf second := by
  obtain ⟨places, same, ordered⟩ := lex_placed source
  have ranks : ∀ index, Location.rank (Location.axis index) = min index Location.bound := by
    intro index
    by_cases below : index < Location.bound
    · rw [Location.rank_axis_of_lt index below, Nat.min_eq_left (Nat.le_of_lt below)]
    · rw [Location.axis, if_neg below, Nat.min_eq_right (Nat.not_lt.mp below)]
      rfl
  have ascends : (places.map TextPlace.location).Pairwise fun first second =>
      Location.rank first.line ≤ Location.rank second.line := by
    rw [List.pairwise_map]
    refine ordered.imp fun {first second} before => ?_
    have lines : first.line ≤ second.line := by
      simp only [TextPlace.Before] at before
      omega
    simp only [TextPlace.location, Location.ofIndices, ranks]
    omega
  rw [← same, List.pairwise_map] at ascends
  exact ascends

/-- Where all lines have locations, tokens are located on lines of the language. -/
theorem lex_lines {source : Source} (rows : source.lines.length ≤ Location.bound) :
    ∀ token ∈ (lex source).stream.tokens, ∃ index line,
      token.location.line = some index ∧ source.lines[index]? = some line ∧
        line.kind = .cpps := by
  intro token among
  have stored : token ∈ (Progress.start.readLines 0 source.lines).tokens.toList :=
    Array.mem_toList_iff.mpr among
  rw [Progress.mem_readLines] at stored
  rcases stored with impossible | ⟨index, line, front, piece, more, within, kind, -, found⟩
  · cases impossible
  · refine ⟨index, line, ?_, within, kind⟩
    have row : index < Location.bound :=
      Nat.lt_of_lt_of_le (List.getElem?_eq_some_iff.mp within).1 rows
    rw [Nat.zero_add] at found
    unfold placed? at found
    split at found
    · cases found
      exact Location.axis_of_lt index row
    · cases found

end CppsFrontend
