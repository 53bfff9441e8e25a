import CppsFrontend.Proofs.Lexical.Lines
import CppsFrontend.Proofs.Lexical.Standalone

/-!
# What tokens are

A token is of the class that its text has the form of, and is as long as its class allows.
Words and marks are spelled as in their tables, and identifiers as in none of them; numbers have
the form of their kind; of the marks that stand at a place the longest one is cut, and no word
or number could go on with the character behind it.
-/

set_option autoImplicit false

namespace CppsFrontend.Lexical

open Text

/-! ## Forms of words and numbers -/

/-- A letter or a low line, and then letters, low lines and digits. -/
def IsWord (text : List Char) : Prop :=
  ∃ first more, text = first :: more ∧ isWordStart first = true ∧
    ∀ c ∈ more, isWordPart c = true

def Numeral (digit : Char → Bool) (text : List Char) : Prop :=
  ∃ first more, text = first :: more ∧ digit first = true ∧
    ∀ c ∈ more, isDigitOrMark digit c = true

/-- The text of a number of each kind, and what is behind it, with which it does not go on. -/
inductive Number : Lexeme → List Char → List Char → Prop
  | binary {letter : Char} {digits behind : List Char} (base : letter ∈ ['b', 'B'])
      (numeral : Numeral isBinaryDigit digits)
      (stops : Stops (isDigitOrMark isBinaryDigit) behind) :
      Number .binaryLiteral ('0' :: letter :: digits) behind
  | hexadecimal {letter : Char} {digits behind : List Char} (base : letter ∈ ['x', 'X'])
      (numeral : Numeral isHexDigit digits)
      (stops : Stops (isDigitOrMark isHexDigit) behind) :
      Number .hexadecimalLiteral ('0' :: letter :: digits) behind
  | decimal {digits behind : List Char} (numeral : Numeral isDigit digits)
      (stops : Stops (isDigitOrMark isDigit) behind) (noPoint : behind.head? ≠ some '.')
      (noBase : digits = ['0'] → ∀ letter ∈ ['b', 'B', 'x', 'X'], behind.head? ≠ some letter) :
      Number .decimalLiteral digits behind
  | floating {whole fraction behind : List Char} (numeral : Numeral isDigit whole)
      (digits : Numeral isDigit fraction) (stops : Stops (isDigitOrMark isDigit) behind) :
      Number .floatingLiteral (whole ++ '.' :: fraction) behind

/-- What is known of a token by its lexeme, its text, and what stands behind it. -/
structure Classified (lexeme : Lexeme) (text behind : List Char) : Prop where
  /-- Marks and reserved words are displayed as they are spelled. -/
  spelled : (∃ mark, lexeme = .punctuator mark) ∨ lexeme ∈ Lexeme.reserved →
    lexeme.text.toList = text
  /-- No longer mark stands at the place of a mark. -/
  longest : ∀ mark, lexeme = .punctuator mark → ∀ other : Punctuator,
    other.spelling.toList <+: text ++ behind → other.spelling.length ≤ mark.spelling.length
  /-- Words do not go on. -/
  word : lexeme = .identifier ∨ lexeme ∈ Lexeme.reserved → IsWord text ∧ Stops isWordPart behind
  /-- A text that is spelled like a reserved word has its lexeme, so no identifier is. -/
  own : ∀ word ∈ Lexeme.reserved, word.text.toList = text → lexeme = word
  number : lexeme ∈ [.binaryLiteral, .decimalLiteral, .floatingLiteral, .hexadecimalLiteral] →
    Number lexeme text behind

/-! ## Texts that are no words -/

variable {c : Char} {rest text behind : List Char} {lexeme : Lexeme} {piece : Piece}

theorem IsWord.of_mem (word : IsWord text) : ∀ x ∈ text, isWordPart x = true := by
  obtain ⟨first, more, rfl, start, parts⟩ := word
  refine List.forall_mem_cons.mpr ⟨?_, parts⟩
  simp [isWordPart, start]

/-- A reserved word is a word of two letters at least, and no prefix of a literal. -/
theorem reserved_shape : ∀ word ∈ Lexeme.reserved, ∃ first second more,
    word.text.toList = first :: second :: more ∧ isWordStart first = true ∧
      (∀ x ∈ second :: more, isWordPart x = true) ∧ second ≠ '8' := by
  have shape : ∀ word ∈ Lexeme.reserved, word.text.toList.head?.any isWordStart = true ∧
      word.text.toList.tail ≠ [] ∧ word.text.toList.tail.all isWordPart = true ∧
      word.text.toList.tail.head? ≠ some '8' := by
    decide +kernel
  intro word among
  obtain ⟨start, longer, parts, plain⟩ := shape word among
  cases text : word.text.toList with
  | nil => simp [text] at longer
  | cons first rest =>
      rw [text] at start longer parts plain
      cases rest with
      | nil => exact absurd rfl longer
      | cons second more =>
          refine ⟨first, second, more, rfl, start, List.all_eq_true.mp parts, ?_⟩
          intro same
          exact plain (congrArg some same)

theorem reserved_isWord {word : Lexeme} (among : word ∈ Lexeme.reserved) :
    IsWord word.text.toList := by
  obtain ⟨first, second, more, text, start, parts, _⟩ := reserved_shape word among
  exact ⟨first, second :: more, text, start, parts⟩

theorem spelling_apart (mark : Punctuator) :
    ∀ x ∈ mark.spelling.toList, isWordPart x = false := by
  have apart : mark.spelling.toList.all (fun x => !isWordPart x) = true := by
    cases mark <;> decide
  intro x among
  simpa using List.all_eq_true.mp apart x among

theorem Classified.of_not_word (noWord : ¬ IsWord text) (other : lexeme ≠ .identifier)
    (free : lexeme ∉ Lexeme.reserved)
    (spelled : (∃ mark, lexeme = .punctuator mark) → lexeme.text.toList = text)
    (longest : ∀ mark, lexeme = .punctuator mark → ∀ other : Punctuator,
      other.spelling.toList <+: text ++ behind → other.spelling.length ≤ mark.spelling.length)
    (number : lexeme ∈ [.binaryLiteral, .decimalLiteral, .floatingLiteral, .hexadecimalLiteral] →
      Number lexeme text behind) :
    Classified lexeme text behind where
  spelled := by
    rintro (mark | among)
    · exact spelled mark
    · exact absurd among free
  longest := longest
  word := by
    rintro (same | among)
    · exact absurd same other
    · exact absurd among free
  own := by
    rintro word among rfl
    exact absurd (reserved_isWord among) noWord
  number := number

/-! ## Marks -/

theorem Cuts.whole (cuts : Cuts c rest piece) :
    piece.text ++ rest.drop piece.tail.length = c :: rest := by
  rw [Piece.text, cuts.first, List.cons_append, List.prefix_iff_eq_append.mp cuts.tail]

theorem punctuation_classified (found : punctuation? c rest = some piece)
    (token : piece.kind = .token lexeme) :
    Classified lexeme piece.text (rest.drop piece.tail.length) := by
  obtain ⟨mark, kind, text⟩ := punctuation_spelled found
  obtain rfl : .punctuator mark = lexeme := PieceKind.token.inj (kind.symm.trans token)
  have chosen : punctuator? (c :: rest) = some mark := by
    unfold punctuation? at found
    split at found
    · rename_i other chosen
      cases found
      cases kind
      exact chosen
    · cases found
  have noWord : ¬ IsWord piece.text := by
    intro word
    have first := word.of_mem piece.first List.mem_cons_self
    rw [spelling_apart mark piece.first (text ▸ List.mem_cons_self)] at first
    cases first
  refine .of_not_word noWord nofun (by simp [Lexeme.mem_reserved, Lexeme.kind?])
    (fun _ => text.symm) ?_ (by simp)
  rintro other same
  cases same
  rw [(punctuation_cuts found).whole]
  exact (punctuator?_eq_some.mp chosen).2

/-! ## Literals in quotes -/

/-- A literal in quotes has its opening quote in its text. -/
theorem quoted_classified {quote : Char} {lead content tail : List Char}
    (opened : opening? quote c rest = some (lead, content)) (front : lead <+: tail)
    (apart : isWordPart quote = false)
    (literal : lexeme ∈ [.characterLiteral, .stringLiteral]) (behind : List Char) :
    Classified lexeme (c :: tail) behind := by
  obtain ⟨encoding, _, shape⟩ := opening_quote opened
  obtain ⟨more, rfl⟩ := front
  have noWord : ¬ IsWord (c :: (lead ++ more)) := by
    intro word
    rw [← List.cons_append, shape] at word
    have part := word.of_mem quote (by simp)
    rw [apart] at part
    cases part
  simp only [List.mem_cons, List.not_mem_nil, or_false] at literal
  rcases literal with rfl | rfl
  · exact .of_not_word noWord nofun (by decide) (by simp) nofun (by simp)
  · exact .of_not_word noWord nofun (by decide) (by simp) nofun (by simp)

theorem characterLiteral_classified (found : characterLiteral? c rest = some piece)
    (token : piece.kind = .token lexeme) :
    Classified lexeme piece.text (rest.drop piece.tail.length) := by
  have first := (characterLiteral_cuts found).first
  unfold characterLiteral? at found
  split at found
  · cases found
  · rename_i lead content opened
    have within : lead <+: rest := ⟨content, (opening_eq opened).symm⟩
    simp only at found
    repeat' split at found
    all_goals cases found
    all_goals cases token
    · exact quoted_classified opened within (by decide) (by simp) _
    · exact quoted_classified opened within (by decide) (by simp) _
    · exact quoted_classified opened within (by decide) (by simp) _
    · refine quoted_classified opened ?_ (by decide) (by simp) _
      rw [List.append_assoc]
      exact List.prefix_append lead _
    · exact quoted_classified opened within (by decide) (by simp) _

theorem stringLiteral_classified (found : stringLiteral? c rest = some piece)
    (token : piece.kind = .token lexeme) :
    Classified lexeme piece.text (rest.drop piece.tail.length) := by
  unfold stringLiteral? at found
  split at found
  · cases found
  · rename_i lead content opened
    simp only at found
    split at found
    · cases found
      cases token
      exact quoted_classified opened (List.prefix_append lead _) (by decide) (by simp) _
    · cases found
      cases token
      exact quoted_classified opened ⟨content, (opening_eq opened).symm⟩ (by decide) (by simp) _

/-! ## Words and numbers -/

theorem stops_drop (group : Char → Bool) (text : List Char) :
    Stops group (text.drop (text.takeWhile group).length) := by
  have behind : text.drop (text.takeWhile group).length = text.dropWhile group := by
    have whole := List.prefix_iff_eq_append.mp (List.takeWhile_prefix (l := text) group)
    exact List.append_cancel_left (whole.trans List.takeWhile_append_dropWhile.symm)
  intro x first
  have outside := List.head?_dropWhile_not group text
  rw [← behind, first] at outside
  simpa using outside

theorem Classified.of_word (word : IsWord text) (stops : Stops isWordPart behind) :
    Classified (.ofWord (String.ofList text)) text behind where
  spelled := by
    rcases Lexeme.ofWord_cases (String.ofList text) with ⟨_, spelled⟩ | ⟨same, _⟩
    · intro _
      rw [spelled, String.toList_ofList]
    · rw [same]
      rintro (⟨mark, impossible⟩ | among)
      · cases impossible
      · exact absurd among (by simp [Lexeme.mem_reserved, Lexeme.kind?])
  longest mark same := absurd same ((ofWord_word _).2 mark)
  word _ := ⟨word, stops⟩
  own := by
    rintro other among rfl
    rw [String.ofList_toList, Lexeme.ofWord_reserved among]
  number := by
    intro number
    have kinds : (Lexeme.ofWord (String.ofList text)).kind? ∈
        [some .binaryLiteral, some .decimalLiteral, some .floatingLiteral,
          some .hexadecimalLiteral] := List.mem_map_of_mem number
    rcases Lexeme.ofWord_cases (String.ofList text) with ⟨among, _⟩ | ⟨same, _⟩
    · rw [Lexeme.mem_reserved] at among
      simp only [List.mem_cons, List.not_mem_nil, or_false] at among kinds
      rcases kinds with kind | kind | kind | kind <;> simp [kind] at among
    · rw [same] at number
      simp at number

theorem word_classified (found : word? c rest = some piece)
    (token : piece.kind = .token lexeme) :
    Classified lexeme piece.text (rest.drop piece.tail.length) := by
  unfold word? at found
  split at found
  · rename_i start
    cases found
    cases token
    exact .of_word ⟨c, _, rfl, start, List.all_eq_true.mp List.all_takeWhile⟩
      (stops_drop isWordPart rest)
  · cases found

theorem isWordStart_digit (digit : isDigit c = true) : isWordStart c = false := by
  simp only [isDigit, Bool.and_eq_true, decide_eq_true_eq] at digit
  have above : ∀ low, '9' < low → ¬ low ≤ c := by
    intro low beyond le
    exact Char.not_le.mpr beyond (Char.le_trans le digit.2)
  have noLine : c ≠ '_' := by
    rintro rfl
    exact absurd digit.2 (by decide)
  simp [isWordStart, above 'a' (by decide), above 'A' (by decide), noLine]

theorem Numeral.head_digit (numeral : Numeral isDigit text) :
    ∃ first, text.head? = some first ∧ isDigit first = true := by
  obtain ⟨first, more, rfl, digit, _⟩ := numeral
  exact ⟨first, rfl, digit⟩

theorem Number.head_digit (number : Number lexeme text behind) :
    ∃ first, text.head? = some first ∧ isDigit first = true := by
  cases number with
  | binary => exact ⟨'0', rfl, by decide⟩
  | hexadecimal => exact ⟨'0', rfl, by decide⟩
  | decimal numeral => exact numeral.head_digit
  | floating whole fraction =>
      obtain ⟨first, head, digit⟩ := whole.head_digit
      exact ⟨first, by rw [List.head?_append, head]; rfl, digit⟩

theorem Number.classified (number : Number lexeme text behind) :
    Classified lexeme text behind := by
  have noWord : ¬ IsWord text := by
    rintro ⟨first, more, rfl, start, _⟩
    obtain ⟨other, head, digit⟩ := number.head_digit
    cases head
    rw [isWordStart_digit digit] at start
    cases start
  have form := number
  cases number with
  | binary => exact .of_not_word noWord nofun (by decide) nofun nofun fun _ => form
  | hexadecimal => exact .of_not_word noWord nofun (by decide) nofun nofun fun _ => form
  | decimal => exact .of_not_word noWord nofun (by decide) nofun nofun fun _ => form
  | floating => exact .of_not_word noWord nofun (by decide) nofun nofun fun _ => form

theorem prefixedNumber_token {letter : Char} {digit : Char → Bool} {number : Lexeme}
    {error : LexicalError} (token : (prefixedNumber letter digit number error rest).kind =
      .token lexeme) :
    lexeme = number ∧ ∃ digits, (prefixedNumber letter digit number error rest).text =
        '0' :: letter :: digits ∧ Numeral digit digits ∧ Stops (isDigitOrMark digit)
          ((letter :: rest).drop (prefixedNumber letter digit number error rest).tail.length) := by
  unfold prefixedNumber at token ⊢
  split at token
  · rename_i d more
    split at token
    · rename_i isDigit
      simp only [if_pos isDigit, Piece.text]
      refine ⟨(PieceKind.token.inj token).symm, d :: moreDigits digit more, rfl,
        ⟨d, _, rfl, isDigit, List.all_eq_true.mp List.all_takeWhile⟩, ?_⟩
      exact stops_drop (isDigitOrMark digit) more
    · cases token
  · cases token

theorem decimalNumber_number (first : isDigit c = true)
    (base : c = '0' → ∀ letter ∈ ['b', 'B', 'x', 'X'], rest.head? ≠ some letter)
    (token : (decimalNumber c rest).kind = .token lexeme) :
    Number lexeme (decimalNumber c rest).text
      (rest.drop (decimalNumber c rest).tail.length) := by
  have whole : Numeral isDigit (c :: moreDigits isDigit rest) :=
    ⟨c, _, rfl, first, List.all_eq_true.mp List.all_takeWhile⟩
  have stops : Stops (isDigitOrMark isDigit) (rest.drop (moreDigits isDigit rest).length) :=
    stops_drop (isDigitOrMark isDigit) rest
  simp only [decimalNumber] at token ⊢
  split at token
  · rename_i after point
    split at token
    · rename_i d more
      split at token
      · rename_i isDigit
        cases token
        simp only [if_pos isDigit, Piece.text]
        have fraction : Numeral Text.isDigit (d :: moreDigits Text.isDigit more) :=
          ⟨d, _, rfl, isDigit, List.all_eq_true.mp List.all_takeWhile⟩
        refine .floating whole fraction ?_
        rw [List.length_append, ← List.drop_drop, point]
        exact stops_drop (isDigitOrMark Text.isDigit) more
      · cases token
    · cases token
  · rename_i noPoint
    cases token
    refine .decimal whole stops ?_ ?_
    · intro point
      obtain ⟨after, shape⟩ := List.head?_eq_some_iff.mp point
      exact noPoint after shape
    · intro zero
      obtain ⟨rfl, none⟩ := List.cons.inj zero
      rw [none]
      exact base rfl

/-- A number that is a token has the form of its kind, and does not go on. -/
theorem number_number (found : number? c rest = some piece)
    (token : piece.kind = .token lexeme) :
    Number lexeme piece.text (rest.drop piece.tail.length) := by
  unfold number? at found
  split at found
  · cases found
  · rename_i digit
    have first : isDigit c = true := by simpa using digit
    split at found
    · split at found
      · rename_i letter after
        split at found
        · rename_i binary
          cases found
          obtain ⟨rfl, digits, text, numeral, stops⟩ := prefixedNumber_token token
          rw [text]
          exact .binary (by simpa using binary) numeral stops
        · split at found
          · rename_i hexadecimal
            cases found
            obtain ⟨rfl, digits, text, numeral, stops⟩ := prefixedNumber_token token
            rw [text]
            exact .hexadecimal (by simpa using hexadecimal) numeral stops
          · rename_i noBinary noHexadecimal
            cases found
            refine decimalNumber_number first ?_ token
            rintro _ letter base same
            cases same
            simp_all
      · cases found
        exact decimalNumber_number first (fun _ _ _ => nofun) token
    · rename_i noZero
      cases found
      exact decimalNumber_number first (fun zero => absurd zero noZero) token

/-! ## Any token -/

theorem codePiece_classified (c : Char) (rest : List Char)
    (token : (codePiece c rest).kind = .token lexeme) :
    Classified lexeme (codePiece c rest).text
      (rest.drop (codePiece c rest).tail.length) := by
  have each : (codePiece c rest).kind = .token lexeme → Classified lexeme (codePiece c rest).text
      (rest.drop (codePiece c rest).tail.length) := by
    refine @codePiece_each c rest (fun piece => piece.kind = .token lexeme →
      Classified lexeme piece.text (rest.drop piece.tail.length)) ?_ nofun
    refine orElse_each (fun _ found token => ?_) fun _ => ?_
    · obtain ⟨_, _, ⟨_, rfl⟩ | ⟨_, rfl⟩⟩ := comment_opens found
      · cases token
      · cases token
    refine orElse_each (fun _ => punctuation_classified) fun _ => ?_
    refine orElse_each (fun _ => characterLiteral_classified) fun _ => ?_
    refine orElse_each (fun _ found token => (number_number found token).classified) fun _ => ?_
    refine orElse_each (fun _ => stringLiteral_classified) fun _ => ?_
    refine orElse_each (fun _ => word_classified) fun _ => ?_
    intro piece found token
    rw [(space_plain found).1] at token
    cases token
  exact each token

/-! ## Reserved words -/

/-- Two parts of a word begin no literal in quotes, if the second one is no `8`. -/
theorem codePiece_word {second : Char} (start : isWordStart c = true)
    (part : isWordPart second = true) (plain : second ≠ '8') :
    codePiece c (second :: rest) =
      ⟨.token (.ofWord (String.ofList (c :: (second :: rest).takeWhile isWordPart))), c,
        (second :: rest).takeWhile isWordPart, []⟩ := by
  have different : ∀ {d : Char}, isWordStart d = false → c ≠ d := by
    rintro d apart rfl
    rw [apart] at start
    cases start
  have comment : comment? c (second :: rest) = none := if_neg (different (by decide))
  have punctuation : punctuation? c (second :: rest) = none := by
    have noMark : punctuator? (c :: second :: rest) = none := by
      rw [punctuator?_eq_none]
      intro mark front
      obtain ⟨first, more, shape⟩ : ∃ first more, mark.spelling.toList = first :: more :=
        List.exists_cons_of_length_pos (String.length_toList ▸ spelling_length_pos mark)
      have apart := spelling_apart mark
      rw [shape] at front apart
      obtain ⟨rfl, _⟩ := List.cons_prefix_cons.mp front
      have outside := apart first List.mem_cons_self
      simp [isWordPart, start] at outside
    rw [punctuation?, noMark]
  have opening : ∀ quote, isWordPart quote = false → opening? quote c (second :: rest) = none := by
    intro quote apart
    simp only [isWordPart, Bool.or_eq_false_iff] at apart
    have bare : c ≠ quote := different apart.1
    have other : second ≠ quote := by
      rintro rfl
      simp [isWordPart, apart] at part
    simp only [opening?, if_neg bare, if_neg other]
    split
    · cases rest <;> simp [plain]
    · rfl
  have character := characterLiteral_none.mpr (opening '\'' (by decide))
  have string := stringLiteral_none.mpr (opening '"' (by decide))
  have number : number? c (second :: rest) = none := by
    rw [number_none, Bool.eq_false_iff]
    intro digit
    rw [isWordStart_digit digit] at start
    cases start
  rw [codePiece, comment, punctuation, character, number, string, word?, if_pos start]
  rfl

/-- A reserved word that stands as a whole word is cut off as its own lexeme. -/
theorem pieces_reserved {word : Lexeme} (among : word ∈ Lexeme.reserved)
    (stops : Stops isWordPart behind) :
    ∃ piece, pieces false (word.text.toList ++ behind) = piece :: pieces false behind ∧
      piece.kind = .token word ∧ piece.text = word.text.toList := by
  obtain ⟨first, second, more, text, start, parts, plain⟩ := reserved_shape word among
  have whole : (second :: (more ++ behind)).takeWhile isWordPart = second :: more := by
    rw [← List.cons_append, takeWhile_stops parts stops]
  have cut : codePiece first (second :: (more ++ behind)) =
      ⟨.token word, first, second :: more, []⟩ := by
    rw [codePiece_word start (parts second List.mem_cons_self) plain, whole, ← text,
      String.ofList_toList, Lexeme.ofWord_reserved among]
  refine ⟨⟨.token word, first, second :: more, []⟩, ?_, rfl, text.symm⟩
  have behindWord : (second :: (more ++ behind)).drop (second :: more).length = behind := by
    rw [← List.cons_append, List.drop_left]
  rw [text, List.cons_append, List.cons_append, pieces]
  simp only [pieceAt, cut, behindWord, PieceKind.leavesCommentOpen, Bool.false_eq_true, if_false]

/-! ## Where tokens are -/

def placed? (line column : Nat) (piece : Piece) : Option Token :=
  match piece.kind with
  | .token lexeme => some ⟨lexeme, .ofIndices line column, String.ofList piece.text⟩
  | _ => none

namespace Progress

variable {progress : Progress} {line column index : Nat} {token : Token}

theorem read_placed : (progress.read line column piece).tokens.toList =
    progress.tokens.toList ++ (placed? line column piece).toList := by
  cases kind : piece.kind with
  | commentText closed =>
      cases pending : progress.pending <;> cases closed <;> simp [read, placed?, kind, pending]
  | _ => simp [read, placed?, kind]

theorem mem_pieces (pieces : List Piece) :
    token ∈ (pieces.foldl (step line) (progress, column)).1.tokens.toList ↔
      token ∈ progress.tokens.toList ∨ ∃ front piece more, pieces = front ++ piece :: more ∧
        placed? line (column + byteLength (front.flatMap Piece.text)) piece = some token := by
  induction pieces generalizing progress column with
  | nil => simp
  | cons piece rest induction =>
      have tokens : (step line (progress, column) piece).1.tokens.toList =
          progress.tokens.toList ++ (placed? line column piece).toList := read_placed
      have next : (step line (progress, column) piece).2 = column + byteLength piece.text := rfl
      rw [List.foldl_cons, ← Prod.eta (step line (progress, column) piece), induction, tokens, next,
        List.mem_append, Option.mem_toList, or_assoc]
      refine or_congr_right ?_
      constructor
      · rintro (first | ⟨front, other, more, rfl, found⟩)
        · exact ⟨[], piece, rest, rfl, first⟩
        · refine ⟨piece :: front, other, more, rfl, ?_⟩
          rw [List.flatMap_cons, byteLength_append, ← Nat.add_assoc]
          exact found
      · rintro ⟨front, other, more, split, found⟩
        cases front with
        | nil =>
            cases split
            exact .inl found
        | cons first front =>
            cases split
            refine .inr ⟨front, other, more, rfl, ?_⟩
            rw [List.flatMap_cons, byteLength_append, ← Nat.add_assoc] at found
            exact found

/-- The tokens of lines are those of the pieces of each line that is read. -/
theorem mem_readLines (lines : List Line) :
    token ∈ (progress.readLines index lines).tokens.toList ↔
      token ∈ progress.tokens.toList ∨ ∃ place line front piece more,
        lines[place]? = some line ∧ line.kind = .cpps ∧
        pieces (progress.readLines index (lines.take place)).pending.isSome line.text.toList =
          front ++ piece :: more ∧
        placed? (index + place) (byteLength (front.flatMap Piece.text)) piece = some token := by
  induction lines generalizing progress index with
  | nil => simp [readLines]
  | cons line rest induction =>
      let next := if line.kind = .cpps then progress.readLine index line.text else progress
      have behind : ∀ lines, progress.readLines index (line :: lines) =
          next.readLines (index + 1) lines := fun _ => rfl
      have added : token ∈ next.tokens.toList ↔ token ∈ progress.tokens.toList ∨
          line.kind = .cpps ∧ ∃ front piece more,
            pieces progress.pending.isSome line.text.toList = front ++ piece :: more ∧
            placed? index (byteLength (front.flatMap Piece.text)) piece = some token := by
        by_cases kind : line.kind = .cpps
        · have read : next = progress.readLine index line.text := if_pos kind
          rw [read, readLine, mem_pieces]
          simp only [kind, true_and, Nat.zero_add]
        · have kept : next = progress := if_neg kind
          simp [kept, kind]
      rw [behind, induction, added, or_assoc]
      refine or_congr_right ?_
      constructor
      · rintro (⟨kind, front, piece, more, split, found⟩ |
          ⟨place, other, front, piece, more, stored, kind, split, found⟩)
        · exact ⟨0, line, front, piece, more, rfl, kind, split, found⟩
        · refine ⟨place + 1, other, front, piece, more, stored, kind, split, ?_⟩
          rw [Nat.add_right_comm, Nat.add_assoc] at found
          exact found
      · rintro ⟨place, other, front, piece, more, stored, kind, split, found⟩
        cases place with
        | zero =>
            cases stored
            exact .inl ⟨kind, front, piece, more, split, found⟩
        | succ place =>
            refine .inr ⟨place, other, front, piece, more, stored, kind, split, ?_⟩
            rw [Nat.add_right_comm, Nat.add_assoc]
            exact found

end Progress

theorem pieces_split {inComment : Bool} {front more : List Piece}
    (split : pieces inComment text = front ++ piece :: more)
    (code : ∀ closed, piece.kind ≠ .commentText closed) :
    ∃ rest, text = front.flatMap Piece.text ++ rest ∧ pieces false rest = piece :: more := by
  induction front generalizing inComment text with
  | nil =>
      refine ⟨text, rfl, ?_⟩
      cases text with
      | nil =>
          rw [pieces] at split
          cases split
      | cons c rest =>
          have outside : inComment = false := by
            rw [Bool.eq_false_iff]
            intro inside
            obtain ⟨closed, kind⟩ := (pieceAt_commentText inComment c rest).mpr inside
            rw [pieces] at split
            obtain ⟨rfl, _⟩ := List.cons.inj split
            exact code closed kind
          rw [← outside]
          exact split
  | cons first front induction =>
      cases text with
      | nil =>
          rw [pieces] at split
          cases split
      | cons c rest =>
          rw [pieces] at split
          obtain ⟨rfl, others⟩ := List.cons.inj split
          obtain ⟨left, behind, cut⟩ := induction others
          refine ⟨left, ?_, cut⟩
          rw [List.flatMap_cons, List.append_assoc, ← behind, pieceAt_text]

/-- A place of a line of the language that lexing comes to outside comments, with the text
before it and the text from there on. -/
def Reaches (source : Source) (index : Nat) (before rest : List Char) : Prop :=
  ∃ line front, source.lines[index]? = some line ∧ line.kind = .cpps ∧
    line.text.toList = before ++ rest ∧ before = front.flatMap Piece.text ∧
    pieces (Progress.start.readLines 0 (source.lines.take index)).pending.isSome
      line.text.toList = front ++ pieces false rest

end CppsFrontend.Lexical

namespace CppsFrontend

open Lexical Text

/-- Every token stands outside comments where it is located, has the form of its class and is
as long as its class allows; and a reserved word that stands as a whole word is a token. -/
theorem lex_classified (source : Source) :
    (∀ token ∈ (lex source).stream.tokens.toList, ∃ index before behind,
      Reaches source index before (token.text.toList ++ behind) ∧
      token.location = .ofIndices index (byteLength before) ∧
      Classified token.lexeme token.text.toList behind) ∧
    ∀ word ∈ Lexeme.reserved, ∀ index before behind,
      Reaches source index before (word.text.toList ++ behind) → Stops isWordPart behind →
      ⟨word, .ofIndices index (byteLength before), word.text⟩ ∈
        (lex source).stream.tokens.toList := by
  have tokens : (lex source).stream.tokens.toList =
      (Progress.start.readLines 0 source.lines).tokens.toList := rfl
  constructor
  · intro token among
    rw [tokens, Progress.mem_readLines] at among
    rcases among with impossible | ⟨index, line, front, piece, more, stored, kind, split, found⟩
    · cases impossible
    · rw [Nat.zero_add] at found
      unfold placed? at found
      split at found
      · rename_i lexeme pieceKind
        cases found
        have code : ∀ closed, piece.kind ≠ .commentText closed := by
          rw [pieceKind]
          nofun
        obtain ⟨text, whole, cut⟩ := pieces_split split code
        rw [← cut] at split
        cases text with
        | nil =>
            rw [pieces] at cut
            cases cut
        | cons c rest =>
            rw [pieces] at cut
            obtain ⟨rfl, _⟩ := List.cons.inj cut
            refine ⟨index, front.flatMap Piece.text,
              rest.drop (pieceAt false c rest).tail.length, ?_, rfl, ?_⟩
            · refine ⟨line, front, stored, kind, ?_, rfl, ?_⟩
              · rw [String.toList_ofList, pieceAt_text]
                exact whole
              · rw [String.toList_ofList, pieceAt_text]
                exact split
            · rw [String.toList_ofList]
              exact codePiece_classified c rest pieceKind
      · cases found
  · rintro word among index before behind ⟨line, front, stored, kind, _, rfl, split⟩ stops
    obtain ⟨piece, cut, pieceKind, text⟩ := pieces_reserved among stops
    rw [tokens, Progress.mem_readLines]
    right
    refine ⟨index, line, front, piece, pieces false behind, stored, kind, ?_, ?_⟩
    · rw [split, cut]
    · rw [placed?, pieceKind, Nat.zero_add, text, String.ofList_toList]

/-- Tokens that touch: a mark of three characters, words, and numbers of three kinds. -/
def touching : Source := .ofLines [⟨"x<<=0b1'02.5as+u8:=", .cpps⟩]

theorem touching_classified :
    (lex touching).stream.tokens.toList.map Token.text =
      ["x", "<<=", "0b1'0", "2.5", "as", "+", "u8", ":", "="] ∧
    ∀ token ∈ (lex touching).stream.tokens.toList, ∃ index before behind,
      Reaches touching index before (token.text.toList ++ behind) ∧
      token.location = .ofIndices index (byteLength before) ∧
      Classified token.lexeme token.text.toList behind :=
  ⟨by decide +kernel, (lex_classified touching).1⟩

end CppsFrontend
