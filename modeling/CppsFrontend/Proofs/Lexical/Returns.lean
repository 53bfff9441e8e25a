import CppsFrontend.Proofs.Lexical.Lines
import CppsFrontend.Proofs.Lexical.Shapes
import CppsFrontend.Proofs.Source.PhysicalLines

/-!
# A carriage return at the end of a line

A line without faults has the same tokens with and without a carriage return at its end:
the carriage return is space, or belongs to a comment, or a literal is not closed.
-/

set_option autoImplicit false

namespace CppsFrontend.Lexical

open Text

/-! ## Pieces at the end of a line -/

/-- What is cut from a text, and from the text with a carriage return behind it. -/
inductive Returned (c : Char) (rest : List Char) : Option Piece → Option Piece → Prop where
  | none : Returned c rest .none .none
  | same (piece : Piece) : Returned c rest (some piece) (some piece)
  /-- A piece that reaches to the end, and is no token. -/
  | longer {kind : PieceKind} (noToken : ∀ lexeme, kind ≠ .token lexeme) :
      Returned c rest (some ⟨kind, c, rest, []⟩) (some ⟨kind, c, rest ++ ['\r'], []⟩)
  | faulty {piece other : Piece} (fault : other.faults ≠ []) :
      Returned c rest (some piece) (some other)

variable {c : Char} {rest : List Char}

theorem Returned.orElse {first second firstReturn secondReturn : Option Piece}
    (head : Returned c rest first firstReturn) (tail : Returned c rest second secondReturn) :
    Returned c rest (first <|> second) (firstReturn <|> secondReturn) := by
  cases head with
  | none => exact tail
  | same piece => exact .same piece
  | longer noToken => exact .longer noToken
  | faulty fault => exact .faulty fault

theorem Returned.getD {first second : Option Piece} (returned : Returned c rest first second)
    (default : Piece) :
    Returned c rest (some (first.getD default)) (some (second.getD default)) := by
  cases returned with
  | none => exact .same default
  | same piece => exact .same piece
  | longer noToken => exact .longer noToken
  | faulty fault => exact .faulty fault

theorem Returned.of_eq {first second : Option Piece} (same : second = first) :
    Returned c rest first second := by
  rw [same]
  cases first with
  | none => exact .none
  | some piece => exact .same piece

theorem Returned.split {piece other : Piece}
    (returned : Returned c rest (some piece) (some other)) :
    other = piece ∨ other.faults ≠ [] ∨ ∃ kind, (∀ lexeme, kind ≠ .token lexeme) ∧
      piece = ⟨kind, c, rest, []⟩ ∧ other = ⟨kind, c, rest ++ ['\r'], []⟩ := by
  cases returned with
  | same => exact .inl rfl
  | longer noToken => exact .inr (.inr ⟨_, noToken, rfl, rfl⟩)
  | faulty fault => exact .inr (.inl fault)

theorem takeWhile_return {group : Char → Bool} (apart : group '\r' = false) (text : List Char) :
    (text ++ ['\r']).takeWhile group = text.takeWhile group := by
  rw [List.takeWhile_append]
  split
  · rename_i whole
    rw [List.takeWhile_cons_of_neg (by rw [apart]; exact Bool.false_ne_true), List.append_nil]
    exact (List.takeWhile_prefix group).eq_of_length whole |>.symm
  · rfl

theorem drop_return {count : Nat} {text : List Char} (within : count ≤ text.length) :
    (text ++ ['\r']).drop count = text.drop count ++ ['\r'] :=
  List.drop_append_of_le_length within

/-! ## Comments, words, space and numbers -/

theorem comment_returned : Returned c rest (comment? c rest) (comment? c (rest ++ ['\r'])) := by
  unfold comment?
  split
  · split
    · exact .same _
    · exact .longer nofun
    · rename_i noStar noSlash
      refine .of_eq ?_
      cases rest with
      | nil => rfl
      | cons d rest =>
          split
          · rename_i same
            cases same
            exact absurd rfl (noStar rest)
          · rename_i same
            cases same
            exact absurd rfl (noSlash rest)
          · rfl
  · exact .none

theorem word_return : word? c (rest ++ ['\r']) = word? c rest := by
  have apart : isWordPart '\r' = false := by decide
  simp only [word?, takeWhile_return apart]

theorem space_returned : Returned c rest (space? c rest) (space? c (rest ++ ['\r'])) := by
  unfold space?
  split
  · rw [List.takeWhile_append]
    split
    · rename_i whole
      rw [(List.takeWhile_prefix isSpace).eq_of_length whole]
      exact .longer nofun
    · exact .same _
  · exact .none

theorem moreDigits_return {digit : Char → Bool} (apart : digit '\r' = false) (text : List Char) :
    moreDigits digit (text ++ ['\r']) = moreDigits digit text :=
  takeWhile_return (by simpa [isDigitOrMark] using apart) text

theorem prefixedNumber_return {letter : Char} {digit : Char → Bool} {lexeme : Lexeme}
    {error : LexicalError} (apart : digit '\r' = false) (rest : List Char) :
    prefixedNumber letter digit lexeme error (rest ++ ['\r']) =
      prefixedNumber letter digit lexeme error rest := by
  cases rest with
  | nil => simp [prefixedNumber, apart]
  | cons d more => simp only [prefixedNumber, List.cons_append, moreDigits_return apart]

theorem decimalNumber_return (c : Char) (rest : List Char) :
    decimalNumber c (rest ++ ['\r']) = decimalNumber c rest := by
  have apart : isDigit '\r' = false := by decide
  have within := (moreDigits_front isDigit rest).length_le
  simp only [decimalNumber, moreDigits_return apart, drop_return within]
  generalize moreDigits isDigit rest = digits
  cases rest.drop digits.length with
  | nil => rfl
  | cons d after =>
      by_cases point : d = '.'
      · rw [point]
        cases after with
        | nil => rfl
        | cons e more => simp only [List.cons_append, moreDigits_return apart]
      · rw [List.cons_append]
        split
        · rename_i same
          exact absurd (List.cons.inj same).1 point
        · split
          · rename_i same
            exact absurd (List.cons.inj same).1 point
          · rfl

theorem number_return : number? c (rest ++ ['\r']) = number? c rest := by
  have binary : isBinaryDigit '\r' = false := by decide
  have hexadecimal : isHexDigit '\r' = false := by decide
  unfold number?
  rw [decimalNumber_return]
  cases rest with
  | nil => rfl
  | cons letter after =>
      simp only [List.cons_append, prefixedNumber_return binary, prefixedNumber_return hexadecimal]

/-! ## Marks -/

theorem punctuation_return : punctuation? c (rest ++ ['\r']) = punctuation? c rest := by
  unfold punctuation?
  have space : isSpace '\r' = true := by decide
  rw [← List.cons_append, punctuator?_space space]
  split
  · rename_i mark found
    have within := (punctuator?_front found).length_le
    rw [String.length_toList, List.length_cons] at within
    rw [List.take_append_of_le_length (by omega)]
  · rfl

/-! ## Literals in quotes -/

theorem opening_return {quote : Char} (visible : quote ≠ '\r') :
    opening? quote c (rest ++ ['\r']) =
      (opening? quote c rest).map fun opened => (opened.1, opened.2 ++ ['\r']) := by
  unfold opening?
  split
  · rfl
  · split
    · match rest with
      | [] => simp [visible.symm]
      | [q] =>
          simp only [List.cons_append, List.nil_append]
          split
          · rfl
          · simp [visible.symm]
      | q :: r :: content =>
          simp only [List.cons_append]
          split
          · rfl
          · split <;> rfl
    · rfl

theorem universalName_return (distance : Nat) (letter : Char) (count : Nat) (rest : List Char) :
    universalName distance letter count (rest ++ ['\r']) =
      universalName distance letter count rest := by
  have digits : ((rest ++ ['\r']).take count).takeWhile isHexDigit =
      (rest.take count).takeWhile isHexDigit := by
    by_cases within : count ≤ rest.length
    · rw [List.take_append_of_le_length within]
    · rw [List.take_of_length_le (by simp; omega), List.take_of_length_le (by omega),
        takeWhile_return (by decide)]
  simp only [universalName, digits]

/-- An element is the same, or is missing without the carriage return; in that case
nothing is left behind it but the carriage return. -/
theorem element_return (distance : Nat) (head : Char) (more : List Char) :
    element? distance head (more ++ ['\r']) = element? distance head more ∨
      element? distance head more = none ∧
        ∀ element, element? distance head (more ++ ['\r']) = some element →
          (more ++ ['\r']).drop element.tail.length = [] ∨
            (more ++ ['\r']).drop element.tail.length = ['\r'] := by
  unfold element?
  split
  · cases more with
    | nil =>
        refine .inr ⟨rfl, ?_⟩
        intro element found
        cases found
        exact .inl rfl
    | cons letter after =>
        simp only [List.cons_append, universalName_return]
        rw [takeWhile_return (show isHexDigit '\r' = false by decide)]
        split
        · exact .inl rfl
        · split
          · exact .inl rfl
          · split
            · have front : after.takeWhile isHexDigit <+: after := List.takeWhile_prefix isHexDigit
              have within := front.length_le
              by_cases short : (after.takeWhile isHexDigit).length < after.length
              · rw [if_pos short, if_pos (by simp; omega)]
                exact .inl rfl
              · refine .inr ⟨if_neg short, ?_⟩
                intro element found
                rw [if_pos (by simp; omega)] at found
                cases found
                have whole : (after.takeWhile isHexDigit).length = after.length := by omega
                refine .inr ?_
                rw [List.length_cons, List.drop_succ_cons, whole, List.drop_left]
            · exact .inl rfl
  · exact .inl rfl

theorem Returned.unclosed {piece : Piece} (lexeme : Lexeme) (text : List Char)
    (faults : List Fault) (error : LexicalError) (distance : Option Nat) :
    Returned c rest (some piece) (some (unclosed lexeme c text faults error distance)) :=
  .faulty fun none => unclosed_faulty none

theorem characterLiteral_returned :
    Returned c rest (characterLiteral? c rest) (characterLiteral? c (rest ++ ['\r'])) := by
  unfold characterLiteral?
  rw [opening_return (by decide)]
  cases opening? '\'' c rest with
  | none => exact .none
  | some opened =>
      obtain ⟨lead, content⟩ := opened
      simp only [Option.map_some]
      cases content with
      | nil => exact .unclosed ..
      | cons head more =>
          simp only [List.cons_append]
          split
          · exact .same _
          · rcases element_return (1 + lead.length) head more with same | ⟨missing, left⟩
            · rw [same]
              cases found : element? (1 + lead.length) head more with
              | none => exact .unclosed ..
              | some element =>
                  simp only [drop_return (element_front found).length_le]
                  cases more.drop element.tail.length with
                  | nil => exact .unclosed ..
                  | cons close behind =>
                      simp only [List.cons_append]
                      split
                      · exact .same _
                      · exact .unclosed ..
            · rw [missing]
              cases found : element? (1 + lead.length) head (more ++ ['\r']) with
              | none => exact .unclosed ..
              | some element =>
                  rcases left element found with none | single
                  · simp only [none]
                    exact .unclosed ..
                  · simp only [single]
                    exact .unclosed ..

theorem stringContent_nil (distance : Nat) : (stringContent distance []).closed = false := by
  rw [stringContent]

theorem stringContent_alone (distance : Nat) : (stringContent distance ['\r']).closed = false := by
  have found : element? distance '\r' [] = some ⟨[], []⟩ := rfl
  rw [stringContent_element (by decide) found]
  exact stringContent_nil _

/-- The content of a literal is the same, or the literal is not closed. -/
theorem stringContent_return (distance : Nat) (text : List Char) :
    stringContent distance (text ++ ['\r']) = stringContent distance text ∨
      (stringContent distance (text ++ ['\r'])).closed = false := by
  fun_induction stringContent distance text with
  | case1 distance => exact .inr (stringContent_alone distance)
  | case2 distance more =>
      refine .inl ?_
      rw [List.cons_append, stringContent, if_pos rfl]
  | case3 distance head more plain missing =>
      refine .inr ?_
      rw [List.cons_append]
      cases found : element? distance head (more ++ ['\r']) with
      | none => rw [stringContent, if_neg plain, found]
      | some element =>
          rw [stringContent_element plain found]
          rcases element_return distance head more with same | ⟨_, left⟩
          · rw [same, missing] at found
            cases found
          · rcases left element found with none | single
            · simp only [none]
              exact stringContent_nil _
            · simp only [single]
              exact stringContent_alone _
  | case4 distance head more plain element found after induction =>
      have returned : element? distance head (more ++ ['\r']) = some element := by
        rcases element_return distance head more with same | ⟨missing, _⟩
        · rw [same, found]
        · rw [missing] at found
          cases found
      rw [List.cons_append, stringContent_element plain returned]
      simp only [drop_return (element_front found).length_le]
      rcases induction with same | unclosed
      · exact .inl (by rw [same])
      · exact .inr unclosed

theorem stringLiteral_returned :
    Returned c rest (stringLiteral? c rest) (stringLiteral? c (rest ++ ['\r'])) := by
  unfold stringLiteral?
  rw [opening_return (by decide)]
  cases opening? '"' c rest with
  | none => exact .none
  | some opened =>
      obtain ⟨lead, content⟩ := opened
      simp only [Option.map_some]
      rcases stringContent_return (1 + lead.length) content with same | unclosed
      · rw [same]
        split
        · exact .same _
        · exact .unclosed ..
      · rw [unclosed]
        split
        · exact .unclosed ..
        · exact .unclosed ..

/-! ## Any piece -/

theorem codePiece_returned (c : Char) (rest : List Char) :
    Returned c rest (some (codePiece c rest)) (some (codePiece c (rest ++ ['\r']))) := by
  unfold codePiece
  refine .getD (.orElse comment_returned ?_) _
  refine .orElse (.of_eq punctuation_return) ?_
  refine .orElse characterLiteral_returned ?_
  refine .orElse (.of_eq number_return) ?_
  refine .orElse stringLiteral_returned ?_
  exact .orElse (.of_eq word_return) space_returned

theorem throughCommentEnd_next (notEnd : ∀ more, c = '*' → rest = '/' :: more → False) :
    throughCommentEnd (c :: rest) =
      (c :: (throughCommentEnd rest).1, (throughCommentEnd rest).2) := by
  rw [throughCommentEnd]
  exact notEnd

theorem throughCommentEnd_return (text : List Char) :
    throughCommentEnd (text ++ ['\r']) = throughCommentEnd text ∨
      throughCommentEnd text = (text, false) ∧
        throughCommentEnd (text ++ ['\r']) = (text ++ ['\r'], false) := by
  fun_induction throughCommentEnd text with
  | case1 rest => exact .inl rfl
  | case2 c rest notEnd after induction =>
      have notEndNext : ∀ more, c = '*' → rest ++ ['\r'] = '/' :: more → False := by
        intro more star slash
        cases rest with
        | nil => cases slash
        | cons d rest =>
            cases slash
            exact notEnd rest star rfl
      rw [List.cons_append, throughCommentEnd_next notEndNext]
      rcases induction with same | ⟨unclosed, longer⟩
      · exact .inl (by rw [same])
      · exact .inr ⟨by rw [show after = _ from unclosed], by rw [longer]⟩
  | case3 => exact .inr ⟨rfl, rfl⟩

theorem pieceAt_returned (inComment : Bool) (c : Char) (rest : List Char) :
    Returned c rest (some (pieceAt inComment c rest))
      (some (pieceAt inComment c (rest ++ ['\r']))) := by
  cases inComment with
  | false => exact codePiece_returned c rest
  | true =>
      show Returned c rest (some (commentPiece c rest)) (some (commentPiece c (rest ++ ['\r'])))
      unfold commentPiece
      rw [← List.cons_append]
      rcases throughCommentEnd_return (c :: rest) with same | ⟨unclosed, longer⟩
      · rw [same]
        exact .same _
      · rw [unclosed, longer]
        exact .longer nofun

/-! ## Reading a line -/

/-- What has been read is the same, but perhaps for the texts of comments. -/
structure SameTokens (first second : Progress) : Prop where
  tokens : second.tokens = first.tokens
  errors : second.errors = first.errors
  pending : second.pending.isSome = first.pending.isSome

variable {first second : Progress}

theorem SameTokens.trans {third : Progress} (same : SameTokens first second)
    (next : SameTokens second third) : SameTokens first third :=
  ⟨next.tokens.trans same.tokens, next.errors.trans same.errors, next.pending.trans same.pending⟩

theorem SameTokens.read (same : SameTokens first second) (line column : Nat)
    {piece other : Piece} (kind : other.kind = piece.kind)
    (text : (∃ lexeme, piece.kind = .token lexeme) → other.text = piece.text) :
    SameTokens (first.read line column piece) (second.read line column other) := by
  obtain ⟨tokens, errors, pending⟩ := same
  unfold Progress.read
  rw [kind]
  simp only
  cases inner : piece.kind with
  | space => exact ⟨tokens, errors, pending⟩
  | skipped => exact ⟨tokens, errors, pending⟩
  | token lexeme =>
      refine ⟨?_, errors, pending⟩
      simp only [tokens, text ⟨lexeme, inner⟩]
  | lineComment => exact ⟨tokens, errors, pending⟩
  | commentOpening => exact ⟨tokens, errors, rfl⟩
  | commentText closed =>
      cases before : first.pending with
      | none =>
          rw [before, Option.isSome_none, Option.isSome_eq_false_iff, Option.isNone_iff_eq_none]
            at pending
          rw [pending]
          exact ⟨tokens, errors, by rw [before, pending]⟩
      | some comment =>
          rw [before, Option.isSome_some, Option.isSome_iff_exists] at pending
          obtain ⟨comment, pending⟩ := pending
          rw [pending]
          cases closed with
          | true => exact ⟨tokens, errors, rfl⟩
          | false => exact ⟨tokens, errors, rfl⟩

theorem SameTokens.step (same : SameTokens first second) (line column : Nat)
    {piece other : Piece} (kind : other.kind = piece.kind) (faults : other.faults = piece.faults)
    (text : (∃ lexeme, piece.kind = .token lexeme) → other.text = piece.text) :
    SameTokens (Progress.step line (first, column) piece).1
      (Progress.step line (second, column) other).1 := by
  obtain ⟨tokens, errors, pending⟩ := same.read line column kind text
  refine ⟨tokens, ?_, pending⟩
  simp only [Progress.step, errors, faults]

/-- At the end of a line a carriage return alone adds nothing. -/
theorem foldl_return (progress : Progress) (line column : Nat) :
    SameTokens progress ((pieces progress.pending.isSome ['\r']).foldl (Progress.step line)
      (progress, column)).1 := by
  cases pending : progress.pending with
  | none =>
      have single : pieces false ['\r'] = [⟨.space, '\r', [], []⟩] := by decide +kernel
      rw [Option.isSome_none, single]
      exact ⟨rfl, Array.append_empty, rfl⟩
  | some comment =>
      have single : pieces true ['\r'] = [⟨.commentText false, '\r', [], []⟩] := by decide +kernel
      rw [Option.isSome_some, single]
      simp only [List.foldl_cons, List.foldl_nil, Progress.step, Progress.read, pending]
      exact ⟨rfl, Array.append_empty, by rw [pending]; rfl⟩

/-- A line is read the same with a carriage return at its end, if it has no faults then. -/
theorem pieces_return (inComment : Bool) (text : List Char) (line column : Nat)
    (same : SameTokens first second) (opened : first.pending.isSome = inComment)
    (faultless : ∀ piece ∈ pieces inComment (text ++ ['\r']), piece.faults = []) :
    SameTokens ((pieces inComment text).foldl (Progress.step line) (first, column)).1
      ((pieces inComment (text ++ ['\r'])).foldl (Progress.step line) (second, column)).1 := by
  fun_induction pieces inComment text generalizing first second column with
  | case1 inComment =>
      have alone := foldl_return second line column
      rw [same.pending, opened] at alone
      exact same.trans alone
  | case2 inComment c rest piece =>
      rename_i induction
      rw [List.cons_append, pieces] at faultless ⊢
      simp only [List.foldl_cons] at faultless ⊢
      obtain ⟨head, tail⟩ := List.forall_mem_cons.mp faultless
      rcases (pieceAt_returned inComment c rest).split with
        equal | fault | ⟨kind, noToken, short, long⟩
      · have within : piece.tail.length ≤ rest.length :=
          (pieceAt_cuts inComment c rest).tail.length_le
        have inside : (∃ closed, piece.kind = .commentText closed) ↔
            first.pending.isSome = true := by
          rw [opened]
          exact pieceAt_commentText inComment c rest
        rw [equal, drop_return within] at tail
        rw [equal, drop_return within]
        refine induction _ ?_ (read_leavesOpen first line column piece inside) tail
        exact same.step line column rfl rfl fun _ => rfl
      · exact absurd head fault
      · have nothing : ∀ opened, pieces opened [] = [] := fun _ => by rw [pieces]
        rw [long, show piece = _ from short]
        simp only [List.drop_length, nothing, List.foldl_nil]
        refine same.step line column rfl rfl ?_
        rintro ⟨lexeme, token⟩
        exact absurd token (noToken lexeme)

/-! ## Reading lines -/

theorem SameTokens.pieces (same : SameTokens first second) (line column : Nat)
    (pieces : List Piece) :
    SameTokens (pieces.foldl (Progress.step line) (first, column)).1
      (pieces.foldl (Progress.step line) (second, column)).1 := by
  induction pieces generalizing first second column with
  | nil => exact same
  | cons piece pieces induction => exact induction (same.step line column rfl rfl fun _ => rfl) _

theorem SameTokens.readLine {text : String} (same : SameTokens first second) (line : Nat)
    (faultless : ∀ piece ∈ Lexical.pieces second.pending.isSome text.toList, piece.faults = []) :
    SameTokens (first.readLine line (PhysicalLine.textOf text)) (second.readLine line text) := by
  unfold Progress.readLine PhysicalLine.textOf withoutFinal
  rw [String.toList_ofList]
  rw [same.pending] at faultless ⊢
  split
  · rename_i ending
    obtain ⟨front, chars⟩ := List.getLast?_eq_some_iff.mp ending
    rw [chars] at faultless
    rw [chars, List.dropLast_concat]
    exact pieces_return _ front line 0 same rfl faultless
  · exact same.pieces line 0 _

/-- Lines without errors are lexed the same without the carriage returns at their ends. -/
theorem progressOver_textOf (texts : List String) (silent : (progressOver texts).errors = #[]) :
    SameTokens (progressOver (texts.map PhysicalLine.textOf)) (progressOver texts) := by
  obtain ⟨reversed, rfl⟩ : ∃ reversed : List String, texts = reversed.reverse :=
    ⟨texts.reverse, (List.reverse_reverse texts).symm⟩
  induction reversed with
  | nil => exact ⟨rfl, rfl, rfl⟩
  | cons text before induction =>
      rw [List.reverse_cons, progressOver_concat] at silent
      obtain ⟨earlier, faultless⟩ := (readLine_adds _ _ text).1.errors.mp silent
      rw [List.reverse_cons, List.map_append, List.map_singleton, progressOver_concat,
        progressOver_concat, List.length_map]
      exact (induction earlier).readLine _ faultless

end CppsFrontend.Lexical
