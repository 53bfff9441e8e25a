import CppsFrontend.Lexical.Lexing
import CppsFrontend.Proofs.Lexical.Pieces

/-!
# The segments of a source

The text of every line that is lexed is cut into segments without a gap: space,
tokens, fragments of comments, and text that is passed over with an error at its
first byte.  The tokens and the comments are read off the segments in order.
-/

set_option autoImplicit false

namespace CppsFrontend.Lexical

open Text

/-! ## Segments -/

/-- What a segment of a line is.  A fragment belongs to the comment at an index. -/
inductive Role where
  | space
  | token (lexeme : Lexeme)
  | comment (index : Nat)
  | skipped
deriving DecidableEq

structure Segment where
  line : Nat
  column : Nat
  text : List Char
  role : Role

namespace Segment

def location (segment : Segment) : Location := ⟨some segment.line, some segment.column⟩

def token? (segment : Segment) : Option Token :=
  match segment.role with
  | .token lexeme => some ⟨lexeme, segment.location, String.ofList segment.text⟩
  | _ => none

def Before (first second : Segment) : Prop :=
  first.line < second.line ∨ first.line = second.line ∧ first.column < second.column

end Segment

def fragments (segments : List Segment) (index : Nat) : List Char :=
  (segments.filter fun segment => segment.role = .comment index).flatMap Segment.text

/-- Segments of a line cut its text from a column on, without a gap. -/
inductive Tiles (line : Nat) : Nat → List Char → List Segment → Prop where
  | nil (column : Nat) : Tiles line column [] []
  | cons {segment : Segment} {rest : List Char} {segments : List Segment}
      (on : segment.line = line) (nonempty : segment.text ≠ [])
      (behind : Tiles line (segment.column + byteLength segment.text) rest segments) :
      Tiles line segment.column (segment.text ++ rest) (segment :: segments)

/-- Segments cut all lines of the language from a line on; other lines have none. -/
inductive TilesLines : Nat → List Line → List Segment → Prop where
  | nil (index : Nat) : TilesLines index [] []
  | cut {index : Nat} {line : Line} {lines : List Line} {head tail : List Segment}
      (kind : line.kind = .cpps) (tiles : Tiles index 0 line.text.toList head)
      (rest : TilesLines (index + 1) lines tail) :
      TilesLines index (line :: lines) (head ++ tail)
  | other {index : Nat} {line : Line} {lines : List Line} {segments : List Segment}
      (kind : line.kind ≠ .cpps) (rest : TilesLines (index + 1) lines segments) :
      TilesLines index (line :: lines) segments

/-! ## Comments and their fragments -/

/-- Every comment is the text of its fragments, and has at least one; there are no
others. -/
structure Joined (comments : Array Comment) (segments : List Segment) : Prop where
  text : ∀ index comment, comments[index]? = some comment →
    comment.text = String.ofList (fragments segments index)
  begun : ∀ index < comments.size, ∃ segment ∈ segments, segment.role = .comment index
  below : ∀ segment ∈ segments, ∀ index, segment.role = .comment index → index < comments.size

theorem fragments_append (head tail : List Segment) (index : Nat) :
    fragments (head ++ tail) index = fragments head index ++ fragments tail index := by
  rw [fragments, List.filter_append, List.flatMap_append, fragments, fragments]

theorem fragments_single_same {segment : Segment} {index : Nat}
    (same : segment.role = .comment index) : fragments [segment] index = segment.text := by
  simp [fragments, same]

theorem fragments_single_other {segment : Segment} {index : Nat}
    (other : segment.role ≠ .comment index) : fragments [segment] index = [] := by
  simp [fragments, other]

namespace Joined

variable {comments : Array Comment} {comment longer : Comment} {segments : List Segment}
variable {segment : Segment}

theorem fragments_size (joined : Joined comments segments) :
    fragments segments comments.size = [] := by
  have none : (segments.filter fun segment => segment.role = .comment comments.size) = [] := by
    rw [List.filter_eq_nil_iff]
    intro segment member same
    have bounded := joined.below segment member comments.size (by simpa using same)
    omega
  rw [fragments, none, List.flatMap_nil]

theorem begun_append (joined : Joined comments segments) (index : Nat)
    (bounded : index < comments.size) :
    ∃ one ∈ segments ++ [segment], one.role = .comment index := by
  obtain ⟨one, member, role⟩ := joined.begun index bounded
  exact ⟨one, List.mem_append_left _ member, role⟩

theorem other (joined : Joined comments segments)
    (plain : ∀ index, segment.role ≠ .comment index) :
    Joined comments (segments ++ [segment]) := by
  refine ⟨?_, ?_, ?_⟩
  · intro index comment found
    rw [fragments_append, fragments_single_other (plain index), List.append_nil]
    exact joined.text index comment found
  · intro index bounded
    exact joined.begun_append index bounded
  · intro one member index same
    rcases List.mem_append.mp member with member | member
    · exact joined.below one member index same
    · rw [List.mem_singleton.mp member] at same
      exact absurd same (plain index)

/-- A fragment that begins a comment. -/
theorem push (joined : Joined comments segments)
    (begins : segment.role = .comment comments.size)
    (text : comment.text = String.ofList segment.text) :
    Joined (comments.push comment) (segments ++ [segment]) := by
  refine ⟨?_, ?_, ?_⟩
  · intro index other found
    rw [fragments_append]
    rw [Array.getElem?_push] at found
    split at found
    · rename_i last
      cases found
      rw [last, joined.fragments_size, fragments_single_same begins, List.nil_append]
      exact text
    · rename_i earlier
      have apart : segment.role ≠ .comment index := by
        rw [begins]
        simpa [eq_comm] using earlier
      rw [fragments_single_other apart, List.append_nil]
      exact joined.text index other found
  · intro index bounded
    rw [Array.size_push] at bounded
    by_cases last : index = comments.size
    · rw [last]
      exact ⟨segment, List.mem_append_right _ (List.mem_singleton.mpr rfl), begins⟩
    · exact joined.begun_append index (by omega)
  · intro other member index same
    rw [Array.size_push]
    rcases List.mem_append.mp member with member | member
    · have bounded := joined.below other member index same
      omega
    · rw [List.mem_singleton.mp member, begins] at same
      cases same
      exact Nat.lt_succ_self _

/-- A fragment that goes on with the last comment. -/
theorem extend (joined : Joined (comments.push comment) segments)
    (begins : segment.role = .comment comments.size)
    (text : longer.text = comment.text ++ String.ofList segment.text) :
    Joined (comments.push longer) (segments ++ [segment]) := by
  refine ⟨?_, ?_, ?_⟩
  · intro index other found
    rw [fragments_append]
    rw [Array.getElem?_push] at found
    split at found
    · rename_i last
      cases found
      have before := joined.text comments.size comment (by simp)
      rw [last, fragments_single_same begins, String.ofList_append, ← before]
      exact text
    · rename_i earlier
      have apart : segment.role ≠ .comment index := by
        rw [begins]
        simpa [eq_comm] using earlier
      rw [fragments_single_other apart, List.append_nil]
      refine joined.text index other ?_
      rw [Array.getElem?_push, if_neg earlier]
      exact found
  · intro index bounded
    apply joined.begun_append index
    rw [Array.size_push] at bounded ⊢
    exact bounded
  · intro other member index same
    rw [Array.size_push]
    rcases List.mem_append.mp member with member | member
    · have bounded := joined.below other member index same
      rw [Array.size_push] at bounded
      exact bounded
    · rw [List.mem_singleton.mp member, begins] at same
      cases same
      exact Nat.lt_succ_self _

end Joined

/-! ## Reading segments -/

def roleOf (index : Nat) : PieceKind → Role
  | .space => .space
  | .token lexeme => .token lexeme
  | .lineComment | .commentOpening | .commentText _ => .comment index
  | .skipped => .skipped

theorem roleOf_space {index : Nat} {kind : PieceKind} :
    roleOf index kind = .space ↔ kind = .space := by
  cases kind <;> simp [roleOf]

theorem roleOf_skipped {index : Nat} {kind : PieceKind} :
    roleOf index kind = .skipped ↔ kind = .skipped := by
  cases kind <;> simp [roleOf]

def Progress.allComments (progress : Progress) : Array Comment :=
  progress.comments ++ progress.pending.toArray

def segmentOf (progress : Progress) (line column : Nat) (piece : Piece) : Segment :=
  ⟨line, column, piece.text, roleOf progress.comments.size piece.kind⟩

/-- Tokens, comments and errors are those of some segments. -/
structure Reads (progress : Progress) (segments : List Segment) : Prop where
  tokens : progress.tokens.toList = segments.filterMap Segment.token?
  space : ∀ segment ∈ segments, segment.role = .space → ∀ c ∈ segment.text, isSpace c = true
  skipped : ∀ segment ∈ segments, segment.role = .skipped →
    ∃ entry ∈ progress.errors, entry.location = some segment.location
  errors : ∀ entry ∈ progress.errors, ∃ segment ∈ segments, ∃ location,
    entry.location = some location ∧ location.line = some segment.line
  comments : Joined progress.allComments segments

variable {progress : Progress} {segments : List Segment} {line column : Nat} {piece : Piece}

theorem location_ofIndices (lineBelow : line < Location.bound)
    (columnBelow : column < Location.bound) :
    Location.ofIndices line column = ⟨some line, some column⟩ := by
  rw [Location.ofIndices, Location.axis_of_lt line lineBelow,
    Location.axis_of_lt column columnBelow]

theorem read_tokens (lineBelow : line < Location.bound)
    (columnBelow : column < Location.bound) :
    (progress.read line column piece).tokens.toList =
      progress.tokens.toList ++ (segmentOf progress line column piece).token?.toList := by
  cases kind : piece.kind with
  | token lexeme =>
      simp [Progress.read, segmentOf, Segment.token?, roleOf, kind, Segment.location,
        location_ofIndices lineBelow columnBelow]
  | commentText closed =>
      have kept : (progress.read line column piece).tokens = progress.tokens := by
        simp only [Progress.read, kind]
        split
        · rfl
        · split <;> rfl
      simp [kept, segmentOf, Segment.token?, roleOf, kind]
  | _ => simp [Progress.read, segmentOf, Segment.token?, roleOf, kind]

theorem read_errors : (progress.read line column piece).errors = progress.errors := by
  unfold Progress.read
  split
  · rfl
  · rfl
  · rfl
  · rfl
  · rfl
  · split
    · rfl
    · split <;> rfl

/-- A piece of code begins a comment or none. -/
theorem read_comments_code (joined : Joined progress.allComments segments)
    (shut : progress.pending = none) (code : ∀ closed, piece.kind ≠ .commentText closed) :
    Joined (progress.read line column piece).allComments
        (segments ++ [segmentOf progress line column piece]) ∧
      (progress.read line column piece).pending.isSome = piece.kind.leavesCommentOpen := by
  have all : progress.allComments = progress.comments := by
    simp [Progress.allComments, shut]
  rw [all] at joined
  have plain : ∀ role, roleOf progress.comments.size piece.kind = role →
      (∀ index, role ≠ .comment index) →
        Joined progress.comments (segments ++ [segmentOf progress line column piece]) := by
    intro role same noComment
    apply joined.other
    intro index
    rw [segmentOf, same]
    exact noComment index
  have begins : ∀ comment, roleOf progress.comments.size piece.kind =
      .comment progress.comments.size → comment.text = String.ofList piece.text →
        Joined (progress.comments.push comment)
          (segments ++ [segmentOf progress line column piece]) := by
    intro comment same text
    exact joined.push same text
  cases kind : piece.kind with
  | commentText closed => exact absurd kind (code closed)
  | space =>
      refine ⟨?_, ?_⟩
      · simpa [Progress.read, kind, all] using plain .space (by rw [kind]; rfl) nofun
      · simp [Progress.read, kind, shut, PieceKind.leavesCommentOpen]
  | skipped =>
      refine ⟨?_, ?_⟩
      · simpa [Progress.read, kind, all] using plain .skipped (by rw [kind]; rfl) nofun
      · simp [Progress.read, kind, shut, PieceKind.leavesCommentOpen]
  | token lexeme =>
      refine ⟨?_, ?_⟩
      · simpa [Progress.read, kind, Progress.allComments, shut] using
          plain (.token lexeme) (by rw [kind]; rfl) nofun
      · simp [Progress.read, kind, shut, PieceKind.leavesCommentOpen]
  | lineComment =>
      have pushed : (progress.read line column piece).allComments = progress.comments.push
          ⟨.line, String.ofList piece.text, Location.ofIndices line column,
            Location.ofIndices line (column + byteLength piece.text - 1)⟩ := by
        simp [Progress.read, kind, Progress.allComments, shut]
      rw [pushed]
      refine ⟨begins _ (by rw [kind]; rfl) rfl, ?_⟩
      simp [Progress.read, kind, shut, PieceKind.leavesCommentOpen]
  | commentOpening =>
      have pushed : (progress.read line column piece).allComments = progress.comments.push
          ⟨.block, String.ofList piece.text, Location.ofIndices line column, .unknown⟩ := by
        simp [Progress.read, kind, Progress.allComments]
      rw [pushed]
      refine ⟨begins _ (by rw [kind]; rfl) rfl, ?_⟩
      simp [Progress.read, kind, PieceKind.leavesCommentOpen]

/-- Text of a block comment goes on with the open comment. -/
theorem read_comments_text (joined : Joined progress.allComments segments)
    {comment : Comment} (opened : progress.pending = some comment) {closed : Bool}
    (kind : piece.kind = .commentText closed) :
    Joined (progress.read line column piece).allComments
        (segments ++ [segmentOf progress line column piece]) ∧
      (progress.read line column piece).pending.isSome = piece.kind.leavesCommentOpen := by
  have all : progress.allComments = progress.comments.push comment := by
    simp [Progress.allComments, opened]
  rw [all] at joined
  have role : (segmentOf progress line column piece).role =
      .comment progress.comments.size := by
    rw [segmentOf, kind]
    rfl
  have extended : ∀ longer : Comment,
      longer.text = comment.text ++ String.ofList piece.text →
        Joined (progress.comments.push longer)
          (segments ++ [segmentOf progress line column piece]) := by
    intro longer text
    exact joined.extend role text
  cases closed with
  | true =>
      have pushed : (progress.read line column piece).allComments = progress.comments.push
          ⟨comment.kind, comment.text ++ String.ofList piece.text, comment.first,
            Location.ofIndices line (column + byteLength piece.text - 1)⟩ := by
        simp [Progress.read, kind, opened, Progress.allComments]
      rw [pushed]
      refine ⟨extended _ rfl, ?_⟩
      simp [Progress.read, kind, opened, PieceKind.leavesCommentOpen]
  | false =>
      have pushed : (progress.read line column piece).allComments = progress.comments.push
          ⟨comment.kind, comment.text ++ String.ofList piece.text, comment.first,
            comment.last⟩ := by
        simp [Progress.read, kind, opened, Progress.allComments]
      rw [pushed]
      refine ⟨extended _ rfl, ?_⟩
      simp [Progress.read, kind, opened, PieceKind.leavesCommentOpen]

theorem read_comments (joined : Joined progress.allComments segments)
    (inside : (∃ closed, piece.kind = .commentText closed) ↔ progress.pending.isSome = true) :
    Joined (progress.read line column piece).allComments
        (segments ++ [segmentOf progress line column piece]) ∧
      (progress.read line column piece).pending.isSome = piece.kind.leavesCommentOpen := by
  cases opened : progress.pending with
  | none =>
      apply read_comments_code joined opened
      intro closed kind
      have impossible := inside.mp ⟨closed, kind⟩
      rw [opened] at impossible
      cases impossible
  | some comment =>
      obtain ⟨closed, kind⟩ := inside.mpr (by rw [opened]; rfl)
      exact read_comments_text joined opened kind

theorem faultEntry_line (lineBelow : line < Location.bound) (fault : Fault) :
    ∃ location, (Progress.faultEntry line column fault).location = some location ∧
      location.line = some line := by
  refine ⟨_, rfl, ?_⟩
  cases fault.distance with
  | some distance => exact Location.axis_of_lt line lineBelow
  | none => exact Location.axis_of_lt line lineBelow

/-- One piece is one more segment. -/
theorem Reads.step (reads : Reads progress segments) {c : Char} {rest : List Char}
    (cuts : Cuts c rest piece)
    (inside : (∃ closed, piece.kind = .commentText closed) ↔ progress.pending.isSome = true)
    (lineBelow : line < Location.bound) (columnBelow : column < Location.bound) :
    Reads (Progress.step line (progress, column) piece).1
        (segments ++ [segmentOf progress line column piece]) ∧
      (Progress.step line (progress, column) piece).1.pending.isSome =
        piece.kind.leavesCommentOpen := by
  obtain ⟨joined, opened⟩ := @read_comments _ _ line column _ reads.comments inside
  have errors : (Progress.step line (progress, column) piece).1.errors =
      progress.errors ++ (piece.faults.map (Progress.faultEntry line column)).toArray := by
    rw [← @read_errors progress line column piece]
    rfl
  refine ⟨⟨?_, ?_, ?_, ?_, joined⟩, opened⟩
  · have single : [segmentOf progress line column piece].filterMap Segment.token? =
        (segmentOf progress line column piece).token?.toList := by
      cases found : (segmentOf progress line column piece).token? <;> simp [found]
    rw [List.filterMap_append, ← reads.tokens, single]
    exact read_tokens lineBelow columnBelow
  · intro segment member role
    rcases List.mem_append.mp member with member | member
    · exact reads.space segment member role
    · rw [List.mem_singleton.mp member] at role ⊢
      exact cuts.space (roleOf_space.mp role)
  · intro segment member role
    rw [errors]
    rcases List.mem_append.mp member with member | member
    · obtain ⟨entry, found, located⟩ := reads.skipped segment member role
      exact ⟨entry, Array.mem_append_left _ found, located⟩
    · rw [List.mem_singleton.mp member] at role ⊢
      obtain ⟨cause, fault⟩ := cuts.fault (roleOf_skipped.mp role)
      refine ⟨Progress.faultEntry line column ⟨cause, some 0⟩, ?_, ?_⟩
      · apply Array.mem_append_right
        exact List.mem_toArray.mpr (List.mem_map_of_mem fault)
      · exact congrArg some (location_ofIndices lineBelow columnBelow)
  · intro entry member
    rw [errors] at member
    rcases Array.mem_append.mp member with member | member
    · obtain ⟨segment, among, located⟩ := reads.errors entry member
      exact ⟨segment, List.mem_append_left _ among, located⟩
    · obtain ⟨fault, _, rfl⟩ := List.mem_map.mp (List.mem_toArray.mp member)
      refine ⟨segmentOf progress line column piece, ?_, faultEntry_line lineBelow fault⟩
      exact List.mem_append_right _ (List.mem_singleton.mpr rfl)

end CppsFrontend.Lexical
