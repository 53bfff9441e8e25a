import CppsFrontend.Proofs.Lexical.Classes
import CppsFrontend.Proofs.Lexical.Faults

/-!
# String literals

A backslash and the character behind it are a pair, and a string literal ends at the first
quote that is in no pair.  The lexer knows elements of more forms, all of which begin with
pairs or are single characters, so it finds the same quote.  A literal without such a quote
takes the rest of its line, and of all errors on the line one says so.
-/

set_option autoImplicit false

namespace CppsFrontend

/-! ## Pairs -/

namespace Text

/-- The text before the first quote that is in no pair of a backslash and the character behind
it, and the text behind that quote. -/
def splitQuote? : List Char → Option (List Char × List Char)
  | [] => none
  | '\\' :: c :: rest => (splitQuote? rest).map fun split => ('\\' :: c :: split.1, split.2)
  | '"' :: rest => some ([], rest)
  | c :: rest => (splitQuote? rest).map fun split => (c :: split.1, split.2)

variable {text front body behind : List Char}

theorem final_of_noPair {c : Char}
    (noPair : ∀ (d : Char) (rest : List Char), c = '\\' → text = d :: rest → False) :
    c = '\\' → text = [] := by
  intro escape
  cases text with
  | nil => rfl
  | cons d rest => exact (noPair d rest escape rfl).elim

theorem splitQuote?_single {c : Char} (single : c = '\\' → text = []) (noQuote : c ≠ '"') :
    splitQuote? (c :: text) = (splitQuote? text).map fun split => (c :: split.1, split.2) := by
  rw [splitQuote?.eq_def]
  split <;> simp_all

theorem splitQuote?_eq (found : splitQuote? text = some (body, behind)) :
    text = body ++ '"' :: behind := by
  fun_induction splitQuote? text generalizing body with
  | case1 => cases found
  | case2 c rest induction =>
      obtain ⟨⟨inner, outer⟩, split, same⟩ := Option.map_eq_some_iff.mp found
      cases same
      rw [List.cons_append, List.cons_append, ← induction split]
  | case3 rest =>
      cases found
      rfl
  | case4 c rest _ _ induction =>
      obtain ⟨⟨inner, outer⟩, split, same⟩ := Option.map_eq_some_iff.mp found
      cases same
      rw [List.cons_append, ← induction split]

theorem splitQuote?_plain (plain : ∀ c ∈ front, c ≠ '"' ∧ c ≠ '\\') (text : List Char) :
    splitQuote? (front ++ text) =
      (splitQuote? text).map fun split => (front ++ split.1, split.2) := by
  induction front with
  | nil => simp
  | cons c front induction =>
      obtain ⟨⟨noQuote, noEscape⟩, others⟩ := List.forall_mem_cons.mp plain
      rw [List.cons_append, splitQuote?_single (absurd · noEscape) noQuote, induction others,
        Option.map_map]
      rfl

/-- What is behind a quote does not move it. -/
theorem splitQuote?_behind (found : splitQuote? text = some (body, behind)) (other : List Char) :
    splitQuote? (body ++ '"' :: other) = some (body, other) := by
  fun_induction splitQuote? text generalizing body with
  | case1 => cases found
  | case2 c rest induction =>
      obtain ⟨⟨inner, outer⟩, split, same⟩ := Option.map_eq_some_iff.mp found
      cases same
      rw [List.cons_append, List.cons_append, splitQuote?, induction split]
      rfl
  | case3 rest =>
      cases found
      rfl
  | case4 c rest noPair noQuote induction =>
      obtain ⟨⟨inner, outer⟩, split, same⟩ := Option.map_eq_some_iff.mp found
      cases same
      have single : c ≠ '\\' := by
        intro escape
        rw [final_of_noPair noPair escape] at split
        cases split
      rw [List.cons_append, splitQuote?_single (absurd · single) noQuote, induction split]
      rfl

theorem splitQuote?_append (found : splitQuote? front = some (body, behind)) (text : List Char) :
    splitQuote? (front ++ text) = some (body, behind ++ text) := by
  rw [splitQuote?_eq found, List.append_assoc, List.cons_append]
  exact splitQuote?_behind found (behind ++ text)

theorem splitQuote?_front (none : splitQuote? text = none) (part : front <+: text) :
    splitQuote? front = .none := by
  obtain ⟨more, rfl⟩ := part
  cases found : splitQuote? front with
  | none => rfl
  | some split => cases (splitQuote?_append found more).symm.trans none

theorem splitQuote?_body (found : splitQuote? text = some (body, behind))
    (part : front <+: body) : splitQuote? front = none := by
  cases early : splitQuote? front with
  | none => rfl
  | some split =>
      obtain ⟨inner, outer⟩ := split
      have whole := splitQuote?_eq found
      obtain ⟨more, rfl⟩ := part
      have again := splitQuote?_append early (more ++ '"' :: behind)
      rw [← List.append_assoc, ← whole, found] at again
      obtain ⟨same, _⟩ := Prod.mk.inj (Option.some.inj again)
      have lengths := congrArg List.length (splitQuote?_eq early)
      rw [← same] at lengths
      simp only [List.length_append, List.length_cons] at lengths
      omega

end Text

namespace Lexical

open Text

variable {c : Char} {rest content body behind : List Char} {distance : Nat} {piece : Piece}

/-! ## Elements of a literal -/

theorem splitQuote?_digits {digits : List Char}
    (hexadecimal : ∀ d ∈ digits, isHexDigit d = true) (text : List Char) :
    splitQuote? (digits ++ text) =
      (splitQuote? text).map fun split => (digits ++ split.1, split.2) := by
  refine splitQuote?_plain (fun d member => ⟨?_, ?_⟩) text
  · rintro rfl
    exact absurd (hexadecimal _ member) (by decide)
  · rintro rfl
    exact absurd (hexadecimal _ member) (by decide)

/-- An element is a single character, or a pair and digits. -/
theorem splitQuote?_element {element : Element} (noQuote : c ≠ '"')
    (found : element? distance c rest = some element) :
    splitQuote? (c :: rest) = (splitQuote? (rest.drop element.tail.length)).map
      fun split => (c :: element.tail ++ split.1, split.2) := by
  rcases element_shape found with ⟨noEscape, single⟩ | ⟨rfl, letter, digits, shape, hexadecimal⟩
  · rw [single, splitQuote?_single (absurd · noEscape) noQuote]
    rfl
  · obtain ⟨after, rfl⟩ := element_front found
    rw [List.drop_left, shape, List.cons_append, splitQuote?, splitQuote?_digits hexadecimal,
      Option.map_map]
    rfl

theorem splitQuote?_missing (missing : element? distance c rest = none) :
    splitQuote? (c :: rest) = none := by
  unfold element? at missing
  split at missing
  · rename_i escape
    subst escape
    split at missing
    · rfl
    · rename_i letter after
      split at missing
      · cases missing
      · split at missing
        · cases missing
        · split at missing
          · simp only at missing
            split at missing
            · cases missing
            · rename_i all
              -- The digits reach to the end of the line, so no quote can follow them.
              have digits : after.takeWhile isHexDigit = after :=
                (List.takeWhile_prefix isHexDigit).eq_of_length_le (Nat.not_lt.mp all)
              have hexadecimal : ∀ d ∈ after, isHexDigit d = true := by
                rw [← digits]
                exact fun d member => List.all_eq_true.mp List.all_takeWhile d member
              have none := splitQuote?_digits hexadecimal []
              rw [List.append_nil] at none
              rw [splitQuote?, none]
              rfl
          · cases missing
  · cases missing

theorem stringContent_closed (distance : Nat) (content : List Char) :
    (stringContent distance content).closed = (splitQuote? content).isSome := by
  fun_induction stringContent distance content with
  | case1 => rfl
  | case2 distance more => rfl
  | case3 distance head more noQuote missing =>
      rw [splitQuote?_missing missing]
      rfl
  | case4 distance head more noQuote element found after induction =>
      rw [splitQuote?_element noQuote found, Option.isSome_map]
      exact induction

theorem stringContent_text (found : splitQuote? content = some (body, behind)) :
    (stringContent distance content).text = body ++ ['"'] := by
  fun_induction stringContent distance content generalizing body with
  | case1 => cases found
  | case2 distance more =>
      cases found
      rfl
  | case3 distance head more noQuote missing =>
      cases (splitQuote?_missing missing).symm.trans found
  | case4 distance head more noQuote element here after =>
      rename_i induction
      rw [splitQuote?_element noQuote here] at found
      obtain ⟨⟨inner, outer⟩, split, same⟩ := Option.map_eq_some_iff.mp found
      cases same
      have inside : after.text = inner ++ ['"'] := induction split
      rw [inside, List.append_assoc]

/-- The faults of elements are those of universal names. -/
theorem element_cause {element : Element} (found : element? distance c rest = some element) :
    ∀ fault ∈ element.faults, fault.cause ≠ .stringLiteralUnclosed := by
  have named : ∀ (letter : Char) (count : Nat) (after : List Char),
      ∀ fault ∈ (universalName distance letter count after).faults,
        fault.cause ≠ .stringLiteralUnclosed := by
    intro letter count after fault member
    simp only [universalName] at member
    split at member
    · cases member
    · rw [List.mem_singleton.mp member]
      simp
  unfold element? at found
  split at found
  · split at found
    · cases found
    · split at found
      · cases found
        exact named _ _ _
      · split at found
        · cases found
          exact named _ _ _
        · split at found
          · simp only at found
            split at found
            · cases found
              exact List.forall_mem_nil _
            · cases found
          · cases found
            exact List.forall_mem_nil _
  · cases found
    exact List.forall_mem_nil _

theorem stringContent_cause (distance : Nat) (content : List Char) :
    ∀ fault ∈ (stringContent distance content).faults, fault.cause ≠ .stringLiteralUnclosed := by
  fun_induction stringContent distance content with
  | case1 | case2 | case3 => exact List.forall_mem_nil _
  | case4 distance head more noQuote element found after induction =>
      intro fault member
      rcases List.mem_append.mp member with member | member
      · exact element_cause found fault member
      · exact induction fault member

/-! ## A literal at the front of a text -/

theorem opening_of_encoding {encoding : List Char} (encoded : encoding ∈ encodings)
    (text : c :: rest = encoding ++ '"' :: content) :
    ∃ lead, opening? '"' c rest = some (lead, content) ∧ c :: lead = encoding ++ ['"'] := by
  simp only [encodings, List.mem_cons, List.not_mem_nil, or_false] at encoded
  rcases encoded with rfl | rfl | rfl
  · cases text
    exact ⟨[], rfl, rfl⟩
  · cases text
    exact ⟨['"'], rfl, rfl⟩
  · cases text
    exact ⟨['8', '"'], rfl, rfl⟩

/-- A literal is no comment, mark, character literal or number. -/
theorem codePiece_of_encoding {encoding : List Char} (encoded : encoding ∈ encodings)
    (text : c :: rest = encoding ++ '"' :: content) (found : stringLiteral? c rest = some piece) :
    codePiece c rest = piece := by
  simp only [encodings, List.mem_cons, List.not_mem_nil, or_false] at encoded
  have others : comment? c rest = none ∧ punctuation? c rest = none ∧
      characterLiteral? c rest = none ∧ number? c rest = none := by
    rcases encoded with rfl | rfl | rfl
    · cases text
      exact ⟨rfl, rfl, rfl, rfl⟩
    · cases text
      exact ⟨rfl, rfl, by cases content <;> rfl, rfl⟩
    · cases text
      exact ⟨rfl, rfl, rfl, rfl⟩
  obtain ⟨comment, punctuation, character, number⟩ := others
  rw [codePiece, comment, punctuation, character, number, found]
  rfl

theorem pieces_of_encoding {encoding : List Char} (encoded : encoding ∈ encodings)
    (content : List Char) :
    ∃ piece faults, pieces false (encoding ++ '"' :: content) = piece :: pieces false
        ((encoding ++ '"' :: content).drop piece.text.length) ∧
      piece.kind = .token .stringLiteral ∧
      (∀ fault ∈ faults, fault.cause ≠ .stringLiteralUnclosed) ∧
      match splitQuote? content with
      | some (body, _) => piece.text = encoding ++ '"' :: (body ++ ['"']) ∧ piece.faults = faults
      | none => piece.text = encoding ++ '"' :: content ∧
          piece.faults = faults ++ [⟨.stringLiteralUnclosed, none⟩] := by
  obtain ⟨c, rest, text⟩ : ∃ c rest, encoding ++ '"' :: content = c :: rest :=
    List.exists_cons_of_ne_nil (by simp)
  obtain ⟨lead, opened, front⟩ := opening_of_encoding encoded text.symm
  let inner := stringContent (1 + lead.length) content
  have closed : inner.closed = (splitQuote? content).isSome := stringContent_closed _ _
  have whole : ∀ tail, c :: (lead ++ tail) = encoding ++ '"' :: tail := by
    intro tail
    rw [← List.cons_append, front, List.append_assoc, List.singleton_append]
  have cut : ∀ piece, piece.kind = .token .stringLiteral → stringLiteral? c rest = some piece →
      pieces false (encoding ++ '"' :: content) = piece :: pieces false
        ((encoding ++ '"' :: content).drop piece.text.length) := by
    intro piece kind found
    have code : pieceAt false c rest = piece := codePiece_of_encoding encoded text.symm found
    rw [text, pieces]
    simp only [code, kind, PieceKind.leavesCommentOpen, Piece.text, List.length_cons,
      List.drop_succ_cons]
  cases shape : splitQuote? content with
  | some split =>
      obtain ⟨body, behind⟩ := split
      rw [shape] at closed
      have found : stringLiteral? c rest =
          some ⟨.token .stringLiteral, c, lead ++ inner.text, inner.faults⟩ := by
        rw [stringLiteral?, opened]
        exact if_pos closed
      refine ⟨_, inner.faults, cut _ rfl found, rfl, stringContent_cause _ _, ?_, rfl⟩
      have inside : inner.text = body ++ ['"'] := stringContent_text shape
      rw [Piece.text, inside, whole]
  | none =>
      rw [shape] at closed
      have found : stringLiteral? c rest = some (unclosed .stringLiteral c rest inner.faults
          .stringLiteralUnclosed none) := by
        rw [stringLiteral?, opened]
        exact if_neg (Bool.eq_false_iff.mp closed)
      exact ⟨_, inner.faults, cut _ rfl found, rfl, stringContent_cause _ _, text.symm, rfl⟩

/-! ## Pieces that are no string literals -/

structure NoString (piece : Piece) : Prop where
  kind : piece.kind ≠ .token .stringLiteral
  faults : ∀ fault ∈ piece.faults, fault.cause ≠ .stringLiteralUnclosed

theorem NoString.faultless {kind : PieceKind} (other : kind ≠ .token .stringLiteral) (c : Char)
    (tail : List Char) : NoString ⟨kind, c, tail, []⟩ :=
  ⟨other, List.forall_mem_nil _⟩

theorem comment_noString (found : comment? c rest = some piece) : NoString piece := by
  obtain ⟨_, _, ⟨_, rfl⟩ | ⟨_, rfl⟩⟩ := comment_opens found
  · exact .faultless (by decide) _ _
  · exact .faultless (by decide) _ _

theorem punctuation_noString (found : punctuation? c rest = some piece) : NoString piece := by
  unfold punctuation? at found
  split at found
  · cases found
    exact .faultless (by simp) _ _
  · cases found

theorem NoString.unclosed {faults : List Fault}
    (others : ∀ fault ∈ faults, fault.cause ≠ .stringLiteralUnclosed) (distance : Option Nat) :
    NoString (unclosed .characterLiteral c rest faults .characterLiteralUnclosed distance) := by
  refine ⟨by simp [Lexical.unclosed], ?_⟩
  exact List.forall_mem_append.mpr ⟨others, List.forall_mem_singleton.mpr (by simp)⟩

theorem NoString.skipped (cause : LexicalError) (other : cause ≠ .stringLiteralUnclosed)
    (c : Char) (tail : List Char) : NoString ⟨.skipped, c, tail, [⟨cause, some 0⟩]⟩ :=
  ⟨by simp, List.forall_mem_singleton.mpr other⟩

theorem characterLiteral_noString (found : characterLiteral? c rest = some piece) :
    NoString piece := by
  unfold characterLiteral? at found
  split at found
  · cases found
  · simp only at found
    split at found
    · cases found
      exact .unclosed (List.forall_mem_nil _) none
    · split at found
      · cases found
        exact .skipped .characterLiteralEmpty (by decide) _ _
      · split at found
        · cases found
          exact .unclosed (List.forall_mem_nil _) none
        · rename_i element elementFound
          have causes := element_cause elementFound
          split at found
          · cases found
            exact .unclosed causes none
          · split at found
            · cases found
              exact ⟨by simp, causes⟩
            · cases found
              exact .unclosed causes _

theorem prefixedNumber_noString {letter : Char} {digit : Char → Bool} {lexeme : Lexeme}
    {error : LexicalError} (number : lexeme ≠ .stringLiteral)
    (other : error ≠ .stringLiteralUnclosed) :
    NoString (prefixedNumber letter digit lexeme error rest) := by
  unfold prefixedNumber
  split
  · split
    · exact .faultless (fun same => number (PieceKind.token.inj same)) _ _
    · exact .skipped error other _ _
  · exact .skipped error other _ _

theorem decimalNumber_noString : NoString (decimalNumber c rest) := by
  simp only [decimalNumber]
  split
  · split
    · split
      · exact .faultless (by decide) _ _
      · exact .skipped (.floatingLiteralWithoutFraction _) (by simp) _ _
    · exact .skipped (.floatingLiteralWithoutFraction _) (by simp) _ _
  · exact .faultless (by decide) _ _

theorem number_noString (found : number? c rest = some piece) : NoString piece := by
  unfold number? at found
  split at found
  · cases found
  · split at found
    · split at found
      · split at found
        · cases found
          exact prefixedNumber_noString (by decide) (by decide)
        · split at found
          · cases found
            exact prefixedNumber_noString (by decide) (by decide)
          · cases found
            exact decimalNumber_noString
      · cases found
        exact decimalNumber_noString
    · cases found
      exact decimalNumber_noString

theorem word_noString (found : word? c rest = some piece) : NoString piece := by
  unfold word? at found
  split at found
  · cases found
    refine .faultless ?_ _ _
    intro same
    have literal := PieceKind.token.inj same
    rcases Lexeme.ofWord_cases (String.ofList (c :: rest.takeWhile isWordPart)) with
      ⟨among, _⟩ | ⟨identifier, _⟩
    · rw [literal] at among
      exact absurd among (by decide)
    · cases identifier.symm.trans literal
  · cases found

theorem space_noString (found : space? c rest = some piece) : NoString piece := by
  unfold space? at found
  split at found
  · cases found
    exact .faultless (by decide) _ _
  · cases found

theorem codePiece_string (c : Char) (rest : List Char) : NoString (codePiece c rest) ∨
    ∃ encoding ∈ encodings, ∃ content, c :: rest = encoding ++ '"' :: content := by
  refine @codePiece_each c rest (fun piece => NoString piece ∨
    ∃ encoding ∈ encodings, ∃ content, c :: rest = encoding ++ '"' :: content) ?_
    (.inl (.skipped (.unexpectedText c) (by simp) c []))
  refine orElse_each (fun _ found => .inl (comment_noString found)) fun _ => ?_
  refine orElse_each (fun _ found => .inl (punctuation_noString found)) fun _ => ?_
  refine orElse_each (fun _ found => .inl (characterLiteral_noString found)) fun _ => ?_
  refine orElse_each (fun _ found => .inl (number_noString found)) fun _ => ?_
  refine orElse_each (fun _ found => .inr ?_) fun _ => ?_
  · unfold stringLiteral? at found
    split at found
    · cases found
    · rename_i lead content opened
      obtain ⟨encoding, encoded, front⟩ := opening_encoding opened
      refine ⟨encoding, encoded, content, ?_⟩
      rw [opening_eq opened, ← List.cons_append, front, List.append_assoc]
      rfl
  refine orElse_each (fun _ found => .inl (word_noString found)) fun _ => ?_
  exact fun _ found => .inl (space_noString found)

theorem pieceAt_string (inComment : Bool) (c : Char) (rest : List Char) :
    NoString (pieceAt inComment c rest) ∨ inComment = false ∧
      ∃ encoding ∈ encodings, ∃ content, c :: rest = encoding ++ '"' :: content := by
  cases inComment with
  | true => exact .inl (.faultless (by simp) c _)
  | false => exact (codePiece_string c rest).imp id fun literal => ⟨rfl, literal⟩

/-- Among the pieces of a text a string literal stands where its encoding and an opening quote
are, outside comments. -/
theorem pieces_string {inComment : Bool} {text : List Char} {front more : List Piece}
    (split : pieces inComment text = front ++ piece :: more) : NoString piece ∨
      ∃ encoding ∈ encodings, ∃ content,
        text = front.flatMap Piece.text ++ (encoding ++ '"' :: content) ∧
          pieces false (encoding ++ '"' :: content) = piece :: more := by
  induction front generalizing inComment text with
  | nil =>
      cases text with
      | nil =>
          rw [pieces] at split
          cases split
      | cons c rest =>
          have first : pieceAt inComment c rest = piece := by
            rw [pieces] at split
            exact (List.cons.inj split).1
          rcases pieceAt_string inComment c rest with
            other | ⟨rfl, encoding, encoded, content, text⟩
          · exact .inl (first ▸ other)
          · exact .inr ⟨encoding, encoded, content, text, text ▸ split⟩
  | cons first front induction =>
      cases text with
      | nil =>
          rw [pieces] at split
          cases split
      | cons c rest =>
          rw [pieces] at split
          obtain ⟨rfl, others⟩ := List.cons.inj split
          refine (induction others).imp id ?_
          rintro ⟨encoding, encoded, content, behind, cut⟩
          refine ⟨encoding, encoded, content, ?_, cut⟩
          rw [List.flatMap_cons, List.append_assoc, ← behind, pieceAt_text]

/-- A literal that is said to have no closing quote has none, and is the last piece. -/
theorem unclosed_of_fault {encoding : List Char} {more : List Piece}
    (encoded : encoding ∈ encodings)
    (cut : pieces false (encoding ++ '"' :: content) = piece :: more) {fault : Fault}
    (member : fault ∈ piece.faults) (cause : fault.cause = .stringLiteralUnclosed) :
    splitQuote? content = none ∧ more = [] := by
  obtain ⟨literal, faults, whole, -, causes, shape⟩ := pieces_of_encoding encoded content
  rw [cut] at whole
  obtain ⟨rfl, rfl⟩ := List.cons.inj whole
  cases found : splitQuote? content with
  | some split =>
      rw [found] at shape
      rw [shape.2] at member
      exact absurd cause (causes fault member)
  | none =>
      rw [found] at shape
      rw [shape.1, List.drop_length, pieces]
      exact ⟨rfl, rfl⟩

/-! ## Literals of a source -/

variable {source : Source} {index : Nat} {before text : List Char} {more : List Piece}

theorem Reaches.mem_tokens {lexeme : Lexeme} (reached : Reaches source index before text)
    (cut : pieces false text = piece :: more) (kind : piece.kind = .token lexeme) :
    ⟨lexeme, .ofIndices index (byteLength before), .ofList piece.text⟩ ∈
      (lex source).stream.tokens.toList := by
  obtain ⟨line, front, stored, cpps, _, rfl, split⟩ := reached
  have tokens : (lex source).stream.tokens.toList =
      (Progress.start.readLines 0 source.lines).tokens.toList := rfl
  rw [tokens, Progress.mem_readLines]
  right
  refine ⟨index, line, front, piece, more, stored, cpps, ?_, ?_⟩
  · rw [split, cut]
  · rw [placed?, kind, Nat.zero_add]

theorem Reaches.goesOn (reached : Reaches source index before text)
    (whole : text = piece.text ++ behind)
    (cut : pieces false text = piece :: pieces false behind) :
    Reaches source index (before ++ piece.text) behind := by
  obtain ⟨line, front, stored, cpps, inside, rfl, split⟩ := reached
  refine ⟨line, front ++ [piece], stored, cpps, ?_, ?_, ?_⟩
  · rw [inside, whole, List.append_assoc]
  · rw [List.flatMap_append, List.flatMap_singleton]
  · rw [split, cut, List.append_assoc, List.singleton_append]

/-- Every string literal stands where lexing comes to an opening quote. -/
theorem stringLiteral_reached {token : Token} (among : token ∈ (lex source).stream.tokens.toList)
    (literal : token.lexeme = .stringLiteral) :
    ∃ index before, ∃ encoding ∈ encodings, ∃ content,
      Reaches source index before (encoding ++ '"' :: content) ∧
        token.location = .ofIndices index (byteLength before) := by
  have tokens : (lex source).stream.tokens.toList =
      (Progress.start.readLines 0 source.lines).tokens.toList := rfl
  rw [tokens, Progress.mem_readLines] at among
  rcases among with impossible | ⟨index, line, front, piece, more, stored, cpps, split, found⟩
  · cases impossible
  · rw [Nat.zero_add] at found
    unfold placed? at found
    split at found
    · rename_i lexeme kind
      cases found
      rcases pieces_string split with other | ⟨encoding, encoded, content, whole, cut⟩
      · exact absurd (kind.trans (congrArg _ literal)) other.kind
      · rw [← cut] at split
        exact ⟨index, _, encoding, encoded, content, ⟨line, front, stored, cpps, whole, rfl, split⟩,
          rfl⟩
    · cases found

/-- For a literal without a closing quote the line has one error that says so, which is about
the whole line. -/
theorem lineErrors_unclosed {encoding : List Char} (encoded : encoding ∈ encodings)
    (reached : Reaches source index before (encoding ++ '"' :: content))
    (missing : splitQuote? content = none) :
    (lineErrors source index).filter
        (fun entry => entry.message = LexicalError.stringLiteralUnclosed.message) =
      [.located LexicalError.stringLiteralUnclosed.message (.wholeLine index)] := by
  obtain ⟨line, front, stored, cpps, _, _, split⟩ := reached
  obtain ⟨piece, faults, cut, -, causes, shape⟩ := pieces_of_encoding encoded content
  rw [missing] at shape
  obtain ⟨text, faulty⟩ := shape
  rw [text, List.drop_length, pieces] at cut
  rw [cut] at split
  -- A piece before the literal is not the last one of the line.
  have earlier : ∀ entry ∈ Progress.entries index 0 front,
      ¬ entry.message = LexicalError.stringLiteralUnclosed.message := by
    intro entry member same
    obtain ⟨other, among, fault, faultMember, message⟩ := Progress.mem_entries member
    have cause := LexicalError.message_stringLiteral (message.symm.trans same)
    obtain ⟨first, rest, rfl⟩ := List.append_of_mem among
    rw [List.append_assoc, List.cons_append] at split
    rcases pieces_string split with noString | ⟨_, encoded, _, _, cut⟩
    · exact noString.faults fault faultMember cause
    · simpa using (unclosed_of_fault encoded cut faultMember cause).2
  have inside : ∀ column, ∀ entry ∈ faults.map (Progress.faultEntry index column),
      ¬ entry.message = LexicalError.stringLiteralUnclosed.message := by
    intro column entry member same
    obtain ⟨fault, among, rfl⟩ := List.mem_map.mp member
    exact causes fault among (LexicalError.message_stringLiteral same)
  rw [lineErrors_pieces stored cpps split, Progress.entries_append, Progress.entries,
    Progress.entries, faulty, List.append_nil, List.map_append, List.filter_append,
    List.filter_append, List.filter_eq_nil_iff.mpr (by simpa using earlier),
    List.filter_eq_nil_iff.mpr (by simpa using inside _)]
  simp [Progress.faultEntry, Entry.located]

/-- Where a line says that a quote is missing, lexing comes to a literal without one. -/
theorem unclosed_reached {entry : Entry} (among : entry ∈ lineErrors source index)
    (message : entry.message = LexicalError.stringLiteralUnclosed.message) :
    ∃ before, ∃ encoding ∈ encodings, ∃ content,
      Reaches source index before (encoding ++ '"' :: content) ∧ splitQuote? content = none := by
  obtain ⟨line, stored, cpps⟩ := lineErrors_line among
  rw [lineErrors_pieces stored cpps rfl] at among
  obtain ⟨piece, member, fault, faultMember, said⟩ := Progress.mem_entries among
  have cause := LexicalError.message_stringLiteral (said.symm.trans message)
  obtain ⟨front, more, split⟩ := List.append_of_mem member
  rcases pieces_string split with noString | ⟨encoding, encoded, content, whole, cut⟩
  · exact absurd cause (noString.faults fault faultMember)
  · rw [← cut] at split
    exact ⟨_, encoding, encoded, content, ⟨line, front, stored, cpps, whole, rfl, split⟩,
      (unclosed_of_fault encoded cut faultMember cause).1⟩

end Lexical

end CppsFrontend
