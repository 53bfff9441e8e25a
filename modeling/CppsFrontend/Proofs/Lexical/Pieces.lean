import CppsFrontend.Lexical.Line

/-!
# The pieces of a line

Whatever begins a piece, the piece is the front of the text that it is cut from, and
text that is passed over has a fault at its first byte.  There is one statement for
each kind of text that a piece can be.
-/

set_option autoImplicit false

namespace CppsFrontend.Lexical

open Text

theorem append_prefix_of_drop {front back text : List Char} (first : front <+: text)
    (second : back <+: text.drop front.length) : front ++ back <+: text := by
  obtain ⟨rest, rfl⟩ := first
  rw [List.drop_left] at second
  exact (List.prefix_append_right_inj front).mpr second

/-- A piece is cut off the front of a text.  Space is all space, text that is passed
over has a fault at its first byte. -/
structure Cuts (c : Char) (rest : List Char) (piece : Piece) : Prop where
  first : piece.first = c
  tail : piece.tail <+: rest
  space : piece.kind = .space → ∀ x ∈ piece.text, isSpace x = true
  fault : piece.kind = .skipped → ∃ cause, (⟨cause, some 0⟩ : Fault) ∈ piece.faults

structure CutsCode (c : Char) (rest : List Char) (piece : Piece) : Prop extends
    Cuts c rest piece where
  outside : ∀ closed, piece.kind ≠ .commentText closed

namespace CutsCode

variable {c : Char} {rest tail : List Char} {faults : List Fault}

theorem token (lexeme : Lexeme) (front : tail <+: rest) :
    CutsCode c rest ⟨.token lexeme, c, tail, faults⟩ :=
  ⟨⟨rfl, front, nofun, nofun⟩, nofun⟩

theorem skipped (cause : LexicalError) (front : tail <+: rest) :
    CutsCode c rest ⟨.skipped, c, tail, [⟨cause, some 0⟩]⟩ :=
  ⟨⟨rfl, front, nofun, fun _ => ⟨cause, List.mem_singleton.mpr rfl⟩⟩, nofun⟩

end CutsCode

variable {c : Char} {rest : List Char} {piece : Piece}

/-! ## Numbers -/

theorem moreDigits_front (digit : Char → Bool) (rest : List Char) :
    moreDigits digit rest <+: rest :=
  List.takeWhile_prefix _

theorem prefixedNumber_cuts (letter : Char) (digit : Char → Bool) (lexeme : Lexeme)
    (error : LexicalError) (rest : List Char) :
    CutsCode '0' (letter :: rest) (prefixedNumber letter digit lexeme error rest) := by
  unfold prefixedNumber
  split
  · rename_i d more
    split
    · refine .token lexeme ?_
      rw [List.cons_prefix_cons, List.cons_prefix_cons]
      exact ⟨rfl, rfl, moreDigits_front digit more⟩
    · exact .skipped error (List.nil_prefix)
  · exact .skipped error (List.nil_prefix)

theorem decimalNumber_cuts (c : Char) (rest : List Char) :
    CutsCode c rest (decimalNumber c rest) := by
  have digits := moreDigits_front isDigit rest
  simp only [decimalNumber]
  split
  · rename_i after behind
    have point : moreDigits isDigit rest ++ ['.'] <+: rest := by
      apply append_prefix_of_drop digits
      rw [behind]
      exact ⟨after, rfl⟩
    split
    · rename_i d more
      split
      · refine .token _ (append_prefix_of_drop digits ?_)
        rw [behind, List.cons_prefix_cons, List.cons_prefix_cons]
        exact ⟨rfl, rfl, moreDigits_front isDigit more⟩
      · exact .skipped _ point
    · exact .skipped _ point
  · exact .token _ digits

theorem number_cuts (found : number? c rest = some piece) : CutsCode c rest piece := by
  unfold number? at found
  split at found
  · cases found
  · split at found
    · rename_i zero
      subst zero
      split at found
      · rename_i letter after
        split at found
        · cases found
          exact prefixedNumber_cuts ..
        · split at found
          · cases found
            exact prefixedNumber_cuts ..
          · cases found
            exact decimalNumber_cuts ..
      · cases found
        exact decimalNumber_cuts ..
    · cases found
      exact decimalNumber_cuts ..

/-! ## Character and string literals -/

theorem opening_eq {quote : Char} {lead content : List Char}
    (found : opening? quote c rest = some (lead, content)) : rest = lead ++ content := by
  unfold opening? at found
  split at found
  · cases found
    rfl
  · split at found
    · split at found
      · split at found
        · cases found
          rfl
        · split at found
          · split at found
            · cases found
              rfl
            · cases found
          · cases found
      · cases found
    · cases found

theorem universalName_front (distance : Nat) (letter : Char) (count : Nat)
    (rest : List Char) : (universalName distance letter count rest).tail <+: letter :: rest := by
  have digits : (rest.take count).takeWhile isHexDigit <+: rest :=
    (List.takeWhile_prefix _).trans (List.take_prefix count rest)
  exact List.cons_prefix_cons.mpr ⟨rfl, digits⟩

/-- An element is cut off the front of what follows its first character. -/
theorem element_front {distance : Nat} {element : Element}
    (found : element? distance c rest = some element) : element.tail <+: rest := by
  unfold element? at found
  split at found
  · split at found
    · cases found
    · rename_i letter after
      split at found
      · cases found
        exact universalName_front ..
      · split at found
        · cases found
          exact universalName_front ..
        · split at found
          · simp only at found
            split at found
            · cases found
              exact List.cons_prefix_cons.mpr ⟨rfl, List.takeWhile_prefix _⟩
            · cases found
          · cases found
            exact ⟨after, rfl⟩
  · cases found
    exact List.nil_prefix

theorem unclosed_cuts (lexeme : Lexeme) (c : Char) (rest : List Char) (faults : List Fault)
    (error : LexicalError) (distance : Option Nat) :
    CutsCode c rest (unclosed lexeme c rest faults error distance) :=
  .token lexeme (List.prefix_refl rest)

theorem characterLiteral_cuts (found : characterLiteral? c rest = some piece) :
    CutsCode c rest piece := by
  unfold characterLiteral? at found
  split at found
  · cases found
  · rename_i lead content opened
    have whole := opening_eq opened
    subst whole
    simp only at found
    split at found
    · cases found
      exact unclosed_cuts ..
    · rename_i head more
      split at found
      · cases found
        refine .skipped _ ?_
        exact (List.prefix_append_right_inj lead).mpr ⟨more, rfl⟩
      · split at found
        · cases found
          exact unclosed_cuts ..
        · rename_i element elementFound
          have inner := element_front elementFound
          split at found
          · cases found
            exact unclosed_cuts ..
          · rename_i close behind ends
            split at found
            · cases found
              have closed : element.tail ++ [close] <+: more := by
                apply append_prefix_of_drop inner
                rw [ends]
                exact ⟨behind, rfl⟩
              refine .token _ ?_
              rw [List.append_assoc, List.prefix_append_right_inj]
              exact List.cons_prefix_cons.mpr ⟨rfl, closed⟩
            · cases found
              exact unclosed_cuts ..

theorem stringContent_front (distance : Nat) (text : List Char) :
    (stringContent distance text).text <+: text := by
  fun_induction stringContent distance text with
  | case1 => exact List.nil_prefix
  | case2 distance more => exact ⟨more, rfl⟩
  | case3 distance head more plain missing => exact List.prefix_refl _
  | case4 distance head more plain element found after induction =>
      refine List.cons_prefix_cons.mpr ⟨rfl, ?_⟩
      exact append_prefix_of_drop (element_front found) induction

theorem stringLiteral_cuts (found : stringLiteral? c rest = some piece) :
    CutsCode c rest piece := by
  unfold stringLiteral? at found
  split at found
  · cases found
  · rename_i lead content opened
    have whole := opening_eq opened
    subst whole
    simp only at found
    split at found
    · cases found
      exact .token _ ((List.prefix_append_right_inj lead).mpr (stringContent_front _ content))
    · cases found
      exact unclosed_cuts ..

/-! ## Comments, punctuators, words and space -/

theorem comment_cuts (found : comment? c rest = some piece) : CutsCode c rest piece := by
  unfold comment? at found
  split at found
  · split at found
    · rename_i behind
      cases found
      exact ⟨⟨rfl, ⟨behind, rfl⟩, nofun, nofun⟩, nofun⟩
    · cases found
      exact ⟨⟨rfl, List.prefix_refl _, nofun, nofun⟩, nofun⟩
    · cases found
  · cases found

theorem punctuation_cuts (found : punctuation? c rest = some piece) : CutsCode c rest piece := by
  unfold punctuation? at found
  split at found
  · cases found
    exact .token _ (List.take_prefix _ rest)
  · cases found

theorem word_cuts (found : word? c rest = some piece) : CutsCode c rest piece := by
  unfold word? at found
  split at found
  · cases found
    exact .token _ (List.takeWhile_prefix _)
  · cases found

theorem space_cuts (found : space? c rest = some piece) : CutsCode c rest piece := by
  unfold space? at found
  split at found
  · rename_i first
    cases found
    refine ⟨⟨rfl, List.takeWhile_prefix _, ?_, nofun⟩, nofun⟩
    intro _ x member
    rcases List.mem_cons.mp member with rfl | member
    · exact first
    · have every : (rest.takeWhile isSpace).all isSpace = true := List.all_takeWhile
      exact List.all_eq_true.mp every x member
  · cases found

/-! ## Any piece -/

/-- Of two ways to cut a piece the second is tried where the first fails. -/
theorem orElse_each {property : Piece → Prop} {first second : Option Piece}
    (head : ∀ piece, first = some piece → property piece)
    (tail : first = none → ∀ piece, second = some piece → property piece) :
    ∀ piece, (first <|> second) = some piece → property piece := by
  intro piece found
  cases first with
  | some chosen => exact head piece found
  | none => exact tail rfl piece found

/-- All ways to cut a piece of code, in their order. -/
def codeCut? (c : Char) (rest : List Char) : Option Piece :=
  comment? c rest <|> punctuation? c rest <|> characterLiteral? c rest <|> number? c rest <|>
    stringLiteral? c rest <|> word? c rest <|> space? c rest

def unexpected (c : Char) : Piece := ⟨.skipped, c, [], [⟨.unexpectedText c, some 0⟩]⟩

theorem codePiece_eq (c : Char) (rest : List Char) :
    codePiece c rest = (codeCut? c rest).getD (unexpected c) := rfl

theorem codePiece_each {property : Piece → Prop}
    (cut : ∀ piece, codeCut? c rest = some piece → property piece)
    (skipped : property (unexpected c)) : property (codePiece c rest) := by
  rw [codePiece_eq]
  cases found : codeCut? c rest with
  | some piece => exact cut piece found
  | none => exact skipped

theorem codePiece_cuts (c : Char) (rest : List Char) : CutsCode c rest (codePiece c rest) := by
  refine codePiece_each ?_ (.skipped _ List.nil_prefix)
  refine orElse_each (fun _ => comment_cuts) fun _ => ?_
  refine orElse_each (fun _ => punctuation_cuts) fun _ => ?_
  refine orElse_each (fun _ => characterLiteral_cuts) fun _ => ?_
  refine orElse_each (fun _ => number_cuts) fun _ => ?_
  refine orElse_each (fun _ => stringLiteral_cuts) fun _ => ?_
  refine orElse_each (fun _ => word_cuts) fun _ => ?_
  exact fun _ => space_cuts

theorem throughCommentEnd_front (text : List Char) : (throughCommentEnd text).1 <+: text := by
  fun_induction throughCommentEnd text with
  | case1 rest => exact ⟨rest, rfl⟩
  | case2 c rest notEnd after induction => exact List.cons_prefix_cons.mpr ⟨rfl, induction⟩
  | case3 => exact List.nil_prefix

theorem throughCommentEnd_cons (c : Char) (rest : List Char) :
    ∃ tail, (throughCommentEnd (c :: rest)).1 = c :: tail := by
  have front := throughCommentEnd_front (c :: rest)
  cases fragment : (throughCommentEnd (c :: rest)).1 with
  | nil =>
      unfold throughCommentEnd at fragment
      split at fragment
      · cases fragment
      · cases fragment
      · rename_i empty
        cases empty
  | cons first tail =>
      rw [fragment, List.cons_prefix_cons] at front
      exact ⟨tail, by rw [front.1]⟩

theorem commentPiece_cuts (c : Char) (rest : List Char) :
    Cuts c rest (commentPiece c rest) := by
  have front := throughCommentEnd_front (c :: rest)
  obtain ⟨tail, fragment⟩ := throughCommentEnd_cons c rest
  rw [fragment, List.cons_prefix_cons] at front
  refine ⟨rfl, ?_, nofun, nofun⟩
  simp only [commentPiece, fragment, List.tail_cons]
  exact front.2

theorem pieceAt_cuts (inComment : Bool) (c : Char) (rest : List Char) :
    Cuts c rest (pieceAt inComment c rest) := by
  cases inComment
  · exact (codePiece_cuts c rest).toCuts
  · exact commentPiece_cuts c rest

/-- Whether a piece is text of a block comment is known before it is cut. -/
theorem pieceAt_commentText (inComment : Bool) (c : Char) (rest : List Char) :
    (∃ closed, (pieceAt inComment c rest).kind = .commentText closed) ↔ inComment = true := by
  cases inComment
  · constructor
    · rintro ⟨closed, inside⟩
      exact absurd inside ((codePiece_cuts c rest).outside closed)
    · nofun
  · exact ⟨fun _ => rfl, fun _ => ⟨_, rfl⟩⟩

/-- A piece and what is left behind it are the text. -/
theorem pieceAt_text (inComment : Bool) (c : Char) (rest : List Char) :
    (pieceAt inComment c rest).text ++ rest.drop (pieceAt inComment c rest).tail.length =
      c :: rest := by
  have cuts := pieceAt_cuts inComment c rest
  rw [Piece.text, cuts.first, List.cons_append, List.prefix_iff_eq_append.mp cuts.tail]

end CppsFrontend.Lexical
