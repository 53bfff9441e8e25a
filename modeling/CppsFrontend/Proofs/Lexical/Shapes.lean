import CppsFrontend.Proofs.Lexical.Pieces
import CppsFrontend.Proofs.Lexical.Spellings

/-!
# What the text of a piece looks like

Outside comments a piece without faults is space, a comment or its opening, a mark
spelled as in the table, a closed literal, or a word or a number.  Words, numbers and
space have none of the characters that a brace, a semicolon, a string literal or a comment
begins with.
-/

set_option autoImplicit false

namespace CppsFrontend.Lexical

open Text

/-! ## Characters with a meaning of their own -/

/-- The characters of braces, semicolons, string literals and the ends of comments. -/
def special : List Char := ['\x7b', '\x7d', ';', '"', '/', '*']

def Plain (text : List Char) : Prop := ∀ c ∈ text, c ∉ special

theorem Plain.nil : Plain [] := nofun

theorem Plain.cons {c : Char} {text : List Char} (first : c ∉ special) (rest : Plain text) :
    Plain (c :: text) :=
  List.forall_mem_cons.mpr ⟨first, rest⟩

theorem Plain.append {front back : List Char} (first : Plain front) (second : Plain back) :
    Plain (front ++ back) :=
  List.forall_mem_append.mpr ⟨first, second⟩

theorem notMem_special {group : Char → Bool} {c : Char}
    (apart : ∀ x ∈ special, group x = false) (member : group c = true) : c ∉ special := by
  intro among
  rw [apart c among] at member
  cases member

theorem apart_special {group : Char → Bool} (apart : special.all (fun x => !group x) = true) :
    ∀ x ∈ special, group x = false := by
  intro x among
  simpa using List.all_eq_true.mp apart x among

theorem isSpace_special : ∀ x ∈ special, isSpace x = false :=
  apart_special (by decide)

theorem isWordPart_special : ∀ x ∈ special, isWordPart x = false :=
  apart_special (by decide)

theorem isHexDigit_special : ∀ x ∈ special, isHexDigit x = false :=
  apart_special (by decide)

theorem isDigitOrMark_special : ∀ x ∈ special, isDigitOrMark isHexDigit x = false :=
  apart_special (by decide)

theorem plain_takeWhile {group : Char → Bool} (apart : ∀ x ∈ special, group x = false)
    (text : List Char) : Plain (text.takeWhile group) := by
  intro c member
  exact notMem_special apart (List.all_eq_true.mp List.all_takeWhile c member)

/-- Behind a character no two characters of a text, with that one, open a comment. -/
def Uncommented (previous : Char) : List Char → Prop
  | [] => True
  | c :: rest => ¬ (previous = '/' ∧ (c = '/' ∨ c = '*')) ∧ Uncommented c rest

theorem Plain.uncommented {text : List Char} (plain : Plain text) (previous : Char) :
    Uncommented previous text := by
  induction text generalizing previous with
  | nil => trivial
  | cons c rest induction =>
      have first := plain c List.mem_cons_self
      refine ⟨?_, induction (fun d member => plain d (List.mem_cons_of_mem c member)) c⟩
      rintro ⟨_, rfl | rfl⟩
      · exact first (by decide)
      · exact first (by decide)

theorem uncommented_append {previous : Char} {front back : List Char}
    (first : Uncommented previous front) (second : Uncommented (front.getLastD previous) back) :
    Uncommented previous (front ++ back) := by
  induction front generalizing previous with
  | nil => exact second
  | cons c front induction =>
      rw [List.getLastD_cons] at second
      exact ⟨first.1, induction first.2 second⟩

/-! ## Numbers -/

theorem isHexDigit_of_isDigit {c : Char} (digit : isDigit c = true) : isHexDigit c = true := by
  simp [isHexDigit, digit]

theorem isHexDigit_of_isBinaryDigit {c : Char} (digit : isBinaryDigit c = true) :
    isHexDigit c = true := by
  simp only [isBinaryDigit, Bool.or_eq_true, decide_eq_true_eq] at digit
  rcases digit with rfl | rfl <;> decide

def Digits (digit : Char → Bool) : Prop := ∀ c, digit c = true → isHexDigit c = true

theorem moreDigits_plain {digit : Char → Bool} (digits : Digits digit) (rest : List Char) :
    Plain (moreDigits digit rest) := by
  have apart : ∀ x ∈ special, isDigitOrMark digit x = false := by
    intro x among
    have noMark := isDigitOrMark_special x among
    simp only [isDigitOrMark, Bool.or_eq_false_iff] at noMark ⊢
    refine ⟨noMark.1, Bool.eq_false_iff.mpr ?_⟩
    intro isDigit
    exact absurd (digits x isDigit) (by rw [noMark.2]; decide)
  exact plain_takeWhile apart rest

theorem digit_plain {digit : Char → Bool} (digits : Digits digit) {c : Char}
    (isDigit : digit c = true) : c ∉ special :=
  notMem_special isHexDigit_special (digits c isDigit)

structure PlainToken (piece : Piece) : Prop where
  token : ∃ lexeme, piece.kind = .token lexeme ∧ lexeme ≠ .characterLiteral ∧
    ∀ mark, lexeme ≠ .punctuator mark
  text : Plain piece.text

variable {c : Char} {rest : List Char} {piece : Piece}

theorem prefixedNumber_plain {letter : Char} {digit : Char → Bool} {lexeme : Lexeme}
    {error : LexicalError} (digits : Digits digit) (plainLetter : letter ∉ special)
    (literal : lexeme ≠ .characterLiteral) (noMark : ∀ mark, lexeme ≠ .punctuator mark)
    (faultless : (prefixedNumber letter digit lexeme error rest).faults = []) :
    PlainToken (prefixedNumber letter digit lexeme error rest) := by
  unfold prefixedNumber at faultless ⊢
  split at faultless
  · rename_i d more
    split at faultless
    · rename_i isDigit
      refine ⟨⟨lexeme, by rw [if_pos isDigit], literal, noMark⟩, ?_⟩
      simp only [Piece.text, if_pos isDigit]
      have zero : '0' ∉ special := by decide
      exact .cons zero (.cons plainLetter
        (.cons (digit_plain digits isDigit) (moreDigits_plain digits more)))
    · cases faultless
  · cases faultless

theorem decimalNumber_plain (first : isDigit c = true)
    (faultless : (decimalNumber c rest).faults = []) : PlainToken (decimalNumber c rest) := by
  have digits : Digits isDigit := fun _ => isHexDigit_of_isDigit
  have firstPlain := digit_plain digits first
  have front := moreDigits_plain digits rest
  simp only [decimalNumber] at faultless ⊢
  split at faultless
  · split at faultless
    · rename_i d more behind
      split at faultless
      · rename_i isDigit
        simp only [if_pos isDigit]
        refine ⟨⟨_, rfl, by simp, by simp⟩, ?_⟩
        have point : '.' ∉ special := by decide
        exact .cons firstPlain (front.append (.cons point
          (.cons (digit_plain digits isDigit) (moreDigits_plain digits more))))
      · cases faultless
    · cases faultless
  · exact ⟨⟨_, rfl, by simp, by simp⟩, .cons firstPlain front⟩

theorem number_plain (found : number? c rest = some piece) (faultless : piece.faults = []) :
    PlainToken piece := by
  unfold number? at found
  split at found
  · cases found
  · rename_i digit
    have first : isDigit c = true := by simpa using digit
    split at found
    · split at found
      · rename_i letter after
        split at found
        · rename_i isBinary
          cases found
          simp only [Bool.or_eq_true, decide_eq_true_eq] at isBinary
          have plainLetter : letter ∉ special := by rcases isBinary with rfl | rfl <;> decide
          exact prefixedNumber_plain (fun _ => isHexDigit_of_isBinaryDigit) plainLetter nofun
            nofun faultless
        · split at found
          · rename_i isHexadecimal
            cases found
            simp only [Bool.or_eq_true, decide_eq_true_eq] at isHexadecimal
            have plainLetter : letter ∉ special := by
              rcases isHexadecimal with rfl | rfl <;> decide
            exact prefixedNumber_plain (fun _ => id) plainLetter nofun nofun faultless
          · cases found
            exact decimalNumber_plain first faultless
      · cases found
        exact decimalNumber_plain first faultless
    · cases found
      exact decimalNumber_plain first faultless

/-! ## Words and space -/

theorem ofWord_word (word : String) :
    Lexeme.ofWord word ≠ .characterLiteral ∧ ∀ mark, Lexeme.ofWord word ≠ .punctuator mark := by
  rcases Lexeme.ofWord_cases word with ⟨among, _⟩ | ⟨identifier, _⟩
  · have kind := Lexeme.mem_reserved.mp among
    constructor
    · intro same
      rw [same] at kind
      exact absurd kind (by decide)
    · intro mark same
      rw [same] at kind
      exact absurd kind (by simp [Lexeme.kind?])
  · rw [identifier]
    exact ⟨by simp, by simp⟩

theorem word_plain (found : word? c rest = some piece) : PlainToken piece := by
  unfold word? at found
  split at found
  · rename_i start
    cases found
    have first : isWordPart c = true := by simp [isWordPart, start]
    exact ⟨⟨_, rfl, ofWord_word _⟩,
      .cons (notMem_special isWordPart_special first) (plain_takeWhile isWordPart_special rest)⟩
  · cases found

theorem space_plain (found : space? c rest = some piece) :
    piece.kind = .space ∧ Plain piece.text := by
  unfold space? at found
  split at found
  · rename_i first
    cases found
    exact ⟨rfl,
      .cons (notMem_special isSpace_special first) (plain_takeWhile isSpace_special rest)⟩
  · cases found

/-! ## Marks -/

theorem punctuation_spelled (found : punctuation? c rest = some piece) :
    ∃ mark, piece.kind = .token (.punctuator mark) ∧ piece.text = mark.spelling.toList := by
  unfold punctuation? at found
  split at found
  · rename_i mark chosen
    cases found
    refine ⟨mark, rfl, ?_⟩
    have spelling := List.prefix_iff_eq_take.mp (punctuator?_front chosen)
    have length : mark.spelling.toList.length = mark.spelling.length - 1 + 1 := by
      rw [String.length_toList, Nat.sub_add_cancel (spelling_length_pos mark)]
    rw [spelling, length, List.take_succ_cons]
    rfl
  · cases found

/-! ## Literals in quotes -/

/-- What may stand before the opening quote of a literal, for how its text is encoded. -/
def encodings : List (List Char) := [[], ['u'], ['u', '8']]

/-- What stands before the content of a literal is its encoding and the opening quote. -/
theorem opening_encoding {quote : Char} {lead content : List Char}
    (found : opening? quote c rest = some (lead, content)) :
    ∃ encoding ∈ encodings, c :: lead = encoding ++ [quote] := by
  unfold opening? at found
  split at found
  · rename_i bare
    cases found
    exact ⟨[], by decide, by rw [bare, List.nil_append]⟩
  · split at found
    · rename_i isLetter
      split at found
      · split at found
        · rename_i isQuote
          cases found
          exact ⟨['u'], by decide, by rw [isLetter, isQuote]; rfl⟩
        · split at found
          · split at found
            · rename_i both
              cases found
              simp only [Bool.and_eq_true, decide_eq_true_eq] at both
              exact ⟨['u', '8'], by decide, by rw [isLetter, both.1, both.2]; rfl⟩
            · cases found
          · cases found
      · cases found
    · cases found

theorem plain_encoding {encoding : List Char} (encoded : encoding ∈ encodings) :
    Plain encoding := by
  simp only [encodings, List.mem_cons, List.not_mem_nil, or_false] at encoded
  rcases encoded with rfl | rfl | rfl
  · exact .nil
  · exact .cons (by decide) .nil
  · exact .cons (by decide) (.cons (by decide) .nil)

theorem opening_quote {quote : Char} {lead content : List Char}
    (found : opening? quote c rest = some (lead, content)) :
    ∃ encoding, Plain encoding ∧ c :: lead = encoding ++ [quote] := by
  obtain ⟨encoding, encoded, front⟩ := opening_encoding found
  exact ⟨encoding, plain_encoding encoded, front⟩

/-- An element is a character, or a backslash, a character and hexadecimal digits. -/
theorem element_shape {distance : Nat} {element : Element}
    (found : element? distance c rest = some element) :
    c ≠ '\\' ∧ element.tail = [] ∨
      c = '\\' ∧ ∃ letter digits, element.tail = letter :: digits ∧
        ∀ d ∈ digits, isHexDigit d = true := by
  have hexadecimal : ∀ text : List Char, ∀ d ∈ text.takeWhile isHexDigit,
      isHexDigit d = true := by
    intro text d member
    exact List.all_eq_true.mp List.all_takeWhile d member
  unfold element? at found
  split at found
  · rename_i backslash
    refine .inr ⟨backslash, ?_⟩
    split at found
    · cases found
    · rename_i letter after
      split at found
      · cases found
        exact ⟨letter, _, rfl, hexadecimal _⟩
      · split at found
        · cases found
          exact ⟨letter, _, rfl, hexadecimal _⟩
        · split at found
          · simp only at found
            split at found
            · cases found
              exact ⟨letter, _, rfl, hexadecimal _⟩
            · cases found
          · cases found
            exact ⟨letter, [], rfl, List.forall_mem_nil _⟩
  · rename_i plain
    cases found
    exact .inl ⟨plain, rfl⟩

/-- No comment begins between the quotes around an element. -/
theorem element_uncommented {distance : Nat} {element : Element} (previous : Char)
    (found : element? distance c rest = some element) :
    Uncommented previous ('\'' :: c :: element.tail ++ ['\'']) := by
  have quote : Plain ['\''] := .cons (by decide) .nil
  rcases element_shape found with ⟨_, single⟩ | ⟨rfl, letter, digits, shape, hexadecimal⟩
  · rw [single]
    simp [Uncommented]
  · have digitsPlain : Plain digits := by
      intro d member
      exact notMem_special isHexDigit_special (hexadecimal d member)
    have behind : Uncommented letter (digits ++ ['\'']) :=
      (digitsPlain.append quote).uncommented letter
    rw [shape]
    simpa [Uncommented] using behind

theorem unclosed_faulty {lexeme : Lexeme} {faults : List Fault} {error : LexicalError}
    {distance : Option Nat}
    (faultless : (unclosed lexeme c rest faults error distance).faults = []) : False := by
  cases (List.append_eq_nil_iff.mp faultless).2

/-- A character literal without faults has one element between its quotes. -/
theorem characterLiteral_closed (found : characterLiteral? c rest = some piece)
    (faultless : piece.faults = []) : ∃ lead head element after,
      opening? '\'' c rest = some (lead, head :: (element.tail ++ '\'' :: after)) ∧
      head ≠ '\'' ∧
      element? (1 + lead.length) head (element.tail ++ '\'' :: after) = some element ∧
      piece = ⟨.token .characterLiteral, c, lead ++ head :: element.tail ++ ['\''],
        element.faults⟩ := by
  unfold characterLiteral? at found
  split at found
  · cases found
  · rename_i lead content opened
    simp only at found
    split at found
    · cases found
      exact (unclosed_faulty faultless).elim
    · rename_i head more
      split at found
      · cases found
        cases faultless
      · rename_i noQuote
        split at found
        · cases found
          exact (unclosed_faulty faultless).elim
        · rename_i element elementFound
          split at found
          · cases found
            exact (unclosed_faulty faultless).elim
          · rename_i close after ends
            split at found
            · rename_i isClose
              cases found
              have whole := List.prefix_iff_eq_append.mp (element_front elementFound)
              rw [ends, isClose] at whole
              rw [← whole] at opened elementFound
              rw [isClose]
              exact ⟨lead, head, element, after, opened, noQuote, elementFound, rfl⟩
            · cases found
              exact (unclosed_faulty faultless).elim

/-- No comment begins in a character literal. -/
theorem characterLiteral_uncommented (found : characterLiteral? c rest = some piece)
    (faultless : piece.faults = []) : piece.kind = .token .characterLiteral ∧
      Uncommented ' ' piece.text ∧ piece.text.getLast? = some '\'' := by
  obtain ⟨lead, head, element, after, opened, _, elementFound, rfl⟩ :=
    characterLiteral_closed found faultless
  obtain ⟨encoding, plain, front⟩ := opening_quote opened
  have text : c :: (lead ++ head :: element.tail ++ ['\'']) =
      encoding ++ ('\'' :: head :: element.tail ++ ['\'']) := by
    rw [List.append_assoc, ← List.cons_append, front, List.append_assoc]
    rfl
  refine ⟨rfl, ?_, ?_⟩
  · rw [Piece.text, text]
    exact uncommented_append (plain.uncommented _) (element_uncommented _ elementFound)
  · rw [Piece.text, text, List.getLast?_append, List.getLast?_append]
    rfl

theorem stringContent_element {distance : Nat} {head : Char} {more : List Char}
    {element : Element} (plain : head ≠ '"')
    (found : element? distance head more = some element) :
    stringContent distance (head :: more) =
      let after := stringContent (distance + byteLength (head :: element.tail))
        (more.drop element.tail.length)
      ⟨head :: element.tail ++ after.text, after.closed, element.faults ++ after.faults⟩ := by
  rw [stringContent, if_neg plain, found]

theorem stringLiteral_closed (found : stringLiteral? c rest = some piece)
    (faultless : piece.faults = []) : piece.kind = .token .stringLiteral ∧
      ∃ encoding distance content, Plain encoding ∧ c :: rest = encoding ++ '"' :: content ∧
        (stringContent distance content).closed = true ∧
        piece.text = encoding ++ '"' :: (stringContent distance content).text := by
  unfold stringLiteral? at found
  split at found
  · cases found
  · rename_i lead content opened
    obtain ⟨encoding, plain, front⟩ := opening_quote opened
    have whole : ∀ text, c :: (lead ++ text) = encoding ++ '"' :: text := by
      intro text
      rw [← List.cons_append, front, List.append_assoc]
      rfl
    simp only at found
    split at found
    · rename_i closed
      cases found
      refine ⟨rfl, encoding, 1 + lead.length, content, plain, ?_, closed, whole _⟩
      rw [opening_eq opened]
      exact whole content
    · cases found
      exact (unclosed_faulty faultless).elim

/-! ## Comments -/

/-- A token does not begin where a comment opens. -/
theorem codePiece_apart {lexeme : Lexeme} (token : (codePiece c rest).kind = .token lexeme) :
    ¬ (c = '/' ∧ (rest.head? = some '/' ∨ rest.head? = some '*')) := by
  rintro ⟨rfl, next⟩
  cases rest with
  | nil => rcases next with next | next <;> cases next
  | cons d rest =>
      rw [List.head?_cons, Option.some_inj, Option.some_inj] at next
      rcases next with rfl | rfl <;> cases token

/-- What follows a slash that opens no comment. -/
theorem slash_apart (missing : comment? c rest = none) :
    ¬ (c = '/' ∧ (rest.head? = some '/' ∨ rest.head? = some '*')) := by
  rintro ⟨rfl, next⟩
  unfold comment? at missing
  cases rest with
  | nil => rcases next with next | next <;> cases next
  | cons d rest =>
      rw [List.head?_cons, Option.some_inj, Option.some_inj] at next
      rcases next with rfl | rfl <;> cases missing

theorem comment_opens (found : comment? c rest = some piece) : c = '/' ∧
    (∃ behind, rest = '*' :: behind ∧ piece = ⟨.commentOpening, c, ['*'], []⟩ ∨
      rest = '/' :: behind ∧ piece = ⟨.lineComment, c, rest, []⟩) := by
  unfold comment? at found
  split at found
  · rename_i slash
    split at found
    · rename_i behind
      cases found
      exact ⟨slash, behind, .inl ⟨rfl, rfl⟩⟩
    · rename_i behind
      cases found
      exact ⟨slash, behind, .inr ⟨rfl, rfl⟩⟩
    · cases found
  · cases found

/-! ## Any piece of code -/

inductive CodeShape (c : Char) (rest : List Char) (piece : Piece) : Prop
  | space (kind : piece.kind = .space) (plain : Plain piece.text)
  | lineComment (behind : List Char) (text : c :: rest = '/' :: '/' :: behind)
      (shape : piece = ⟨.lineComment, c, rest, []⟩)
  | commentOpening (behind : List Char) (text : c :: rest = '/' :: '*' :: behind)
      (shape : piece = ⟨.commentOpening, c, ['*'], []⟩)
  | mark (mark : Punctuator) (kind : piece.kind = .token (.punctuator mark))
      (spelled : piece.text = mark.spelling.toList)
      (apart : ¬ (c = '/' ∧ (rest.head? = some '/' ∨ rest.head? = some '*')))
  | character (kind : piece.kind = .token .characterLiteral)
      (uncommented : Uncommented ' ' piece.text) (last : piece.text.getLast? = some '\'')
  | string (encoding content : List Char) (distance : Nat)
      (kind : piece.kind = .token .stringLiteral) (plain : Plain encoding)
      (text : c :: rest = encoding ++ '"' :: content)
      (closed : (stringContent distance content).closed = true)
      (shape : piece.text = encoding ++ '"' :: (stringContent distance content).text)
  | plain (token : PlainToken piece)

theorem comment_shape (found : comment? c rest = some piece) : CodeShape c rest piece := by
  obtain ⟨rfl, behind, ⟨rfl, rfl⟩ | ⟨rfl, rfl⟩⟩ := comment_opens found
  · exact .commentOpening behind rfl rfl
  · exact .lineComment behind rfl rfl

theorem punctuation_shape (noComment : comment? c rest = none)
    (found : punctuation? c rest = some piece) : CodeShape c rest piece := by
  obtain ⟨mark, kind, spelled⟩ := punctuation_spelled found
  exact .mark mark kind spelled (slash_apart noComment)

theorem characterLiteral_shape (found : characterLiteral? c rest = some piece)
    (faultless : piece.faults = []) : CodeShape c rest piece := by
  obtain ⟨kind, uncommented, last⟩ := characterLiteral_uncommented found faultless
  exact .character kind uncommented last

theorem stringLiteral_shape (found : stringLiteral? c rest = some piece)
    (faultless : piece.faults = []) : CodeShape c rest piece := by
  obtain ⟨kind, encoding, distance, content, plain, text, closed, shape⟩ :=
    stringLiteral_closed found faultless
  exact .string encoding content distance kind plain text closed shape

theorem space_shape (found : space? c rest = some piece) : CodeShape c rest piece := by
  obtain ⟨kind, plain⟩ := space_plain found
  exact .space kind plain

theorem codePiece_shape (c : Char) (rest : List Char)
    (faultless : (codePiece c rest).faults = []) : CodeShape c rest (codePiece c rest) := by
  have each : (codePiece c rest).faults = [] → CodeShape c rest (codePiece c rest) := by
    refine @codePiece_each c rest (fun piece => piece.faults = [] → CodeShape c rest piece) ?_ nofun
    refine orElse_each (fun _ found _ => comment_shape found) fun noComment => ?_
    refine orElse_each (fun _ found _ => punctuation_shape noComment found) fun _ => ?_
    refine orElse_each (fun _ => characterLiteral_shape) fun _ => ?_
    refine orElse_each (fun _ found none => .plain (number_plain found none)) fun _ => ?_
    refine orElse_each (fun _ => stringLiteral_shape) fun _ => ?_
    refine orElse_each (fun _ found _ => .plain (word_plain found)) fun _ => ?_
    exact fun _ found _ => space_shape found
  exact each faultless

/-! ## The first character of a token -/

theorem visible_of_le {low : Char} (above : ' ' < low) (bound : low ≤ c) : isSpace c = false := by
  have beyond : ¬ c ≤ ' ' := fun below => Char.not_le.mpr above (Char.le_trans bound below)
  simp only [isSpace, Bool.or_eq_false_iff, Bool.and_eq_false_iff, decide_eq_false_iff_not]
  refine ⟨?_, .inr ?_⟩
  · rintro rfl
    exact beyond (Char.le_refl ' ')
  · intro low
    exact beyond (Char.le_trans low (by decide))

theorem isDigit_visible (digit : isDigit c = true) : isSpace c = false := by
  simp only [isDigit, Bool.and_eq_true, decide_eq_true_eq] at digit
  exact visible_of_le (by decide) digit.1

theorem isWordStart_visible (start : isWordStart c = true) : isSpace c = false := by
  simp only [isWordStart, Bool.or_eq_true, Bool.and_eq_true, decide_eq_true_eq] at start
  rcases start with (lower | upper) | rfl
  · exact visible_of_le (by decide) lower.1
  · exact visible_of_le (by decide) upper.1
  · decide

theorem spelling_visible (mark : Punctuator) : ∀ x ∈ mark.spelling.toList, isSpace x = false := by
  have visible : mark.spelling.toList.all (fun x => !isSpace x) = true := by
    cases mark <;> decide
  intro x among
  simpa using List.all_eq_true.mp visible x among

/-- No mark reaches beyond space. -/
theorem punctuator?_space {x : Char} (space : isSpace x = true) (text after : List Char) :
    punctuator? (text ++ x :: after) = punctuator? text := by
  have fronts : ∀ mark : Punctuator, mark.spelling.toList <+: text ++ x :: after ↔
      mark.spelling.toList <+: text := by
    intro mark
    refine ⟨fun front => ?_, fun front => front.trans (List.prefix_append text _)⟩
    rcases Nat.lt_or_ge text.length mark.spelling.toList.length with beyond | within
    · have among : x ∈ mark.spelling.toList := by
        rw [List.prefix_iff_eq_take.mp front, List.take_append, List.take_cons (by omega)]
        simp
      rw [spelling_visible mark x among] at space
      cases space
    · exact List.prefix_of_prefix_length_le front (List.prefix_append text _) within
  apply Option.ext
  intro mark
  simp only [punctuator?_eq_some, fronts]

theorem opening_visible {quote : Char} {opened : List Char × List Char}
    (visible : isSpace quote = false) (found : opening? quote c rest = some opened) :
    isSpace c = false := by
  unfold opening? at found
  split at found
  · rename_i bare
    rw [bare]
    exact visible
  · split at found
    · rename_i letter
      rw [letter]
      decide
    · cases found

def VisibleToken (c : Char) (piece : Piece) : Prop :=
  ∀ lexeme, piece.kind = .token lexeme → isSpace c = false

theorem comment_visible (found : comment? c rest = some piece) : VisibleToken c piece := by
  obtain ⟨rfl, _⟩ := comment_opens found
  exact fun _ _ => by decide

theorem punctuation_visible (found : punctuation? c rest = some piece) :
    VisibleToken c piece := by
  obtain ⟨mark, _, spelled⟩ := punctuation_spelled found
  have visible := spelling_visible mark
  rw [← spelled, Piece.text, (punctuation_cuts found).first] at visible
  exact fun _ _ => visible c List.mem_cons_self

theorem characterLiteral_visible (found : characterLiteral? c rest = some piece) :
    VisibleToken c piece := by
  unfold characterLiteral? at found
  split at found
  · cases found
  · rename_i opened
    exact fun _ _ => opening_visible (by decide) opened

theorem stringLiteral_visible (found : stringLiteral? c rest = some piece) :
    VisibleToken c piece := by
  unfold stringLiteral? at found
  split at found
  · cases found
  · rename_i opened
    exact fun _ _ => opening_visible (by decide) opened

theorem number_visible (found : number? c rest = some piece) : VisibleToken c piece := by
  unfold number? at found
  split at found
  · cases found
  · rename_i digit
    have isDigit : isDigit c = true := by simpa using digit
    exact fun _ _ => isDigit_visible isDigit

theorem word_visible (found : word? c rest = some piece) : VisibleToken c piece := by
  unfold word? at found
  split at found
  · rename_i start
    exact fun _ _ => isWordStart_visible start
  · cases found

theorem codePiece_visible (c : Char) (rest : List Char) :
    VisibleToken c (codePiece c rest) := by
  refine codePiece_each ?_ nofun
  refine orElse_each (fun _ => comment_visible) fun _ => ?_
  refine orElse_each (fun _ => punctuation_visible) fun _ => ?_
  refine orElse_each (fun _ => characterLiteral_visible) fun _ => ?_
  refine orElse_each (fun _ => number_visible) fun _ => ?_
  refine orElse_each (fun _ => stringLiteral_visible) fun _ => ?_
  refine orElse_each (fun _ => word_visible) fun _ => ?_
  intro piece found lexeme token
  rw [(space_plain found).1] at token
  cases token

/-! ## Space -/

theorem opening_space {quote : Char} (other : c ≠ quote) (letter : c ≠ 'u') :
    opening? quote c rest = none := by
  unfold opening?
  rw [if_neg other, if_neg letter]

theorem codePiece_space (space : isSpace c = true) :
    codePiece c rest = ⟨.space, c, rest.takeWhile isSpace, []⟩ := by
  have different : ∀ {d : Char}, isSpace d = false → c ≠ d := by
    rintro d visible rfl
    rw [visible] at space
    cases space
  have comment : comment? c rest = none := by
    unfold comment?
    rw [if_neg (different (by decide))]
  have punctuation : punctuation? c rest = none := by
    cases found : punctuation? c rest with
    | none => rfl
    | some piece =>
        obtain ⟨mark, kind, _⟩ := punctuation_spelled found
        rw [punctuation_visible found _ kind] at space
        cases space
  have character : characterLiteral? c rest = none := by
    rw [characterLiteral?, opening_space (different (by decide)) (different (by decide))]
  have string : stringLiteral? c rest = none := by
    rw [stringLiteral?, opening_space (different (by decide)) (different (by decide))]
  have number : number? c rest = none := by
    have noDigit : isDigit c = false := by
      rw [Bool.eq_false_iff]
      intro digit
      rw [isDigit_visible digit] at space
      cases space
    unfold number?
    rw [noDigit]
    rfl
  have word : word? c rest = none := by
    have noStart : isWordStart c = false := by
      rw [Bool.eq_false_iff]
      intro start
      rw [isWordStart_visible start] at space
      cases space
    unfold word?
    rw [noStart]
    rfl
  rw [codePiece, comment, punctuation, character, number, string, word, space?, if_pos space]
  rfl

end CppsFrontend.Lexical
