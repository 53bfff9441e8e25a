import CppsFrontend.Proofs.Lexical.Shapes

/-!
# Cutting a token again

A token without faults that is cut from a text is cut again from its own text, if nothing or a
blank stands behind it.  Every way to cut a piece has this property, and fails again where it
failed, so that the same way is chosen again.
-/

set_option autoImplicit false

namespace CppsFrontend.Lexical

open Text

inductive Parted : List Char → Prop where
  | nil : Parted []
  | blank (after : List Char) : Parted (' ' :: after)

variable {c : Char} {rest tail behind : List Char} {piece : Piece}

def Stops (group : Char → Bool) (text : List Char) : Prop :=
  ∀ x, text.head? = some x → group x = false

theorem stops_cons {group : Char → Bool} {x : Char} (apart : group x = false)
    (text : List Char) : Stops group (x :: text) := by
  intro y first
  obtain rfl : x = y := Option.some.inj first
  exact apart

theorem Parted.stops {group : Char → Bool} (parted : Parted behind) (apart : group ' ' = false) :
    Stops group behind := by
  cases parted with
  | nil => exact nofun
  | blank after => exact stops_cons apart after

theorem takeWhile_stops {group : Char → Bool} {text : List Char}
    (all : ∀ x ∈ text, group x = true) (stops : Stops group behind) :
    (text ++ behind).takeWhile group = text := by
  rw [List.takeWhile_append_of_pos all]
  cases behind with
  | nil => exact List.append_nil text
  | cons x after =>
      have apart : ¬ group x = true := by
        rw [stops x rfl]
        exact Bool.false_ne_true
      rw [List.takeWhile_cons_of_neg apart, List.append_nil]

theorem takeWhile_again {group : Char → Bool} (text : List Char) (stops : Stops group behind) :
    (text.takeWhile group ++ behind).takeWhile group = text.takeWhile group :=
  takeWhile_stops (List.all_eq_true.mp List.all_takeWhile) stops

/-- A way to cut a piece.  A token without faults is cut again if it is parted from what is
behind it, and where nothing is cut, nothing is cut from a part of the text. -/
structure Standalone (cut : Char → List Char → Option Piece) : Prop where
  front : ∀ {c rest piece}, cut c rest = some piece → piece.tail <+: rest
  kept : ∀ {c rest piece lexeme behind}, cut c rest = some piece → piece.kind = .token lexeme →
    piece.faults = [] → Parted behind → cut c (piece.tail ++ behind) = some piece
  missing : ∀ {c rest tail behind}, cut c rest = none → tail <+: rest → Parted behind →
    cut c (tail ++ behind) = none

theorem Standalone.orElse {first second : Char → List Char → Option Piece}
    (head : Standalone first) (tail : Standalone second) :
    Standalone fun c rest => first c rest <|> second c rest where
  front := by
    intro c rest piece found
    exact orElse_each (fun _ => head.front) (fun _ _ => tail.front) piece found
  kept := by
    intro c rest piece lexeme behind found token faultless parted
    cases chosen : first c rest with
    | some other =>
        rw [chosen] at found
        cases found
        rw [head.kept chosen token faultless parted]
        rfl
    | none =>
        rw [chosen] at found
        rw [head.missing chosen (tail.front found) parted]
        exact tail.kept found token faultless parted
  missing := by
    intro c rest text behind nothing front parted
    cases chosen : first c rest with
    | some other =>
        rw [chosen] at nothing
        cases nothing
    | none =>
        rw [chosen] at nothing
        rw [head.missing chosen front parted]
        exact tail.missing nothing front parted

/-! ## Comments, words and space -/

theorem comment_missing (apart : ¬ (c = '/' ∧ (rest.head? = some '/' ∨ rest.head? = some '*'))) :
    comment? c rest = none := by
  unfold comment?
  split
  · rename_i slash
    split
    · exact absurd ⟨slash, .inr rfl⟩ apart
    · exact absurd ⟨slash, .inl rfl⟩ apart
    · rfl
  · rfl

theorem head?_parted (front : tail <+: rest) (parted : Parted behind) {x : Char}
    (first : (tail ++ behind).head? = some x) : x = ' ' ∨ rest.head? = some x := by
  cases tail with
  | nil =>
      cases parted with
      | nil => cases first
      | blank after => exact .inl (Option.some.inj first).symm
  | cons y tail =>
      obtain ⟨more, rfl⟩ := front
      exact .inr first

theorem comment_standalone : Standalone comment? where
  front found := (comment_cuts found).tail
  kept := by
    intro c rest piece lexeme behind found token _ _
    obtain ⟨_, _, ⟨_, rfl⟩ | ⟨_, rfl⟩⟩ := comment_opens found
    · cases token
    · cases token
  missing := by
    intro c rest tail behind nothing front parted
    apply comment_missing
    rintro ⟨slash, next⟩
    have apart := slash_apart nothing
    rcases next with next | next
    · rcases head?_parted front parted next with blank | same
      · cases blank
      · exact apart ⟨slash, .inl same⟩
    · rcases head?_parted front parted next with blank | same
      · cases blank
      · exact apart ⟨slash, .inr same⟩

theorem word_standalone : Standalone word? where
  front found := (word_cuts found).tail
  kept := by
    intro c rest piece lexeme behind found _ _ parted
    unfold word? at found ⊢
    split at found
    · rename_i start
      cases found
      have again := takeWhile_again rest (parted.stops (show isWordPart ' ' = false by decide))
      simp only [if_pos start, again]
    · cases found
  missing := by
    intro c rest tail behind nothing _ _
    unfold word? at nothing ⊢
    split at nothing
    · cases nothing
    · rename_i start
      exact if_neg start

theorem space_standalone : Standalone space? where
  front found := (space_cuts found).tail
  kept := by
    intro c rest piece lexeme behind found token _ _
    rw [(space_plain found).1] at token
    cases token
  missing := by
    intro c rest tail behind nothing _ _
    unfold space? at nothing ⊢
    split at nothing
    · cases nothing
    · rename_i visible
      exact if_neg visible

/-! ## Numbers -/

theorem moreDigits_again {digit : Char → Bool} (rest : List Char)
    (stops : Stops (isDigitOrMark digit) behind) :
    moreDigits digit (moreDigits digit rest ++ behind) = moreDigits digit rest :=
  takeWhile_again rest stops

theorem Parted.stopsDigits {digit : Char → Bool} (parted : Parted behind)
    (apart : digit ' ' = false) : Stops (isDigitOrMark digit) behind :=
  parted.stops (by simpa [isDigitOrMark] using apart)

theorem prefixedNumber_again {letter : Char} {digit : Char → Bool} {lexeme : Lexeme}
    {error : LexicalError} (faultless : (prefixedNumber letter digit lexeme error rest).faults = [])
    (apart : digit ' ' = false) (parted : Parted behind) :
    ∃ text, (prefixedNumber letter digit lexeme error rest).tail = letter :: text ∧
      prefixedNumber letter digit lexeme error (text ++ behind) =
        prefixedNumber letter digit lexeme error rest := by
  unfold prefixedNumber at faultless ⊢
  split at faultless
  · rename_i d more
    split at faultless
    · rename_i isDigit
      refine ⟨d :: moreDigits digit more, by rw [if_pos isDigit], ?_⟩
      simp only [List.cons_append, if_pos isDigit, moreDigits_again more (parted.stopsDigits apart)]
    · cases faultless
  · cases faultless

theorem decimalNumber_whole {digits : List Char}
    (all : ∀ x ∈ digits, isDigitOrMark isDigit x = true)
    (stops : Stops (isDigitOrMark isDigit) behind) (noPoint : behind.head? ≠ some '.') :
    decimalNumber c (digits ++ behind) = ⟨.token .decimalLiteral, c, digits, []⟩ := by
  simp only [decimalNumber, moreDigits, takeWhile_stops all stops, List.drop_left]
  split
  · exact absurd rfl noPoint
  · rfl

theorem decimalNumber_point {digits : List Char}
    (all : ∀ x ∈ digits, isDigitOrMark isDigit x = true) (after : List Char) :
    decimalNumber c (digits ++ '.' :: after) =
      if (after.head?.any isDigit) = true then
        ⟨.token .floatingLiteral, c,
          digits ++ '.' :: after.take 1 ++ moreDigits isDigit (after.drop 1), []⟩
      else withoutFraction c digits := by
  have stops : Stops (isDigitOrMark isDigit) ('.' :: after) := stops_cons (by decide) after
  have front : moreDigits isDigit (digits ++ '.' :: after) = digits := takeWhile_stops all stops
  simp only [decimalNumber, front, List.drop_left]
  cases after with
  | nil => rfl
  | cons d more => simp

theorem decimalNumber_again (faultless : (decimalNumber c rest).faults = [])
    (parted : Parted behind) :
    decimalNumber c ((decimalNumber c rest).tail ++ behind) = decimalNumber c rest := by
  have stops : Stops (isDigitOrMark isDigit) behind := parted.stopsDigits (by decide)
  obtain ⟨digits, left, rfl, all, stopsLeft⟩ : ∃ digits left, rest = digits ++ left ∧
      (∀ x ∈ digits, isDigitOrMark isDigit x = true) ∧ Stops (isDigitOrMark isDigit) left := by
    refine ⟨rest.takeWhile (isDigitOrMark isDigit), rest.dropWhile (isDigitOrMark isDigit),
      List.takeWhile_append_dropWhile.symm, List.all_eq_true.mp List.all_takeWhile, ?_⟩
    intro x first
    have outside := List.head?_dropWhile_not (isDigitOrMark isDigit) rest
    rw [first] at outside
    simpa using outside
  -- A point behind the digits is part of the number; then what is behind has to be a digit.
  by_cases point : left.head? = some '.'
  · obtain ⟨after, rfl⟩ := List.head?_eq_some_iff.mp point
    rw [decimalNumber_point all] at faultless ⊢
    cases after with
    | nil => cases faultless
    | cons d more =>
        by_cases digit : isDigit d = true
        · simp [digit, decimalNumber_point all, moreDigits_again more stops]
        · simp [digit, withoutFraction] at faultless
  · have noPoint : behind.head? ≠ some '.' := by
      cases parted <;> simp
    rw [decimalNumber_whole all stopsLeft point, decimalNumber_whole all stops noPoint]

/-- A number has a base, which its second character names, or it has none. -/
inductive Numbered (c : Char) (rest : List Char) (piece : Piece) : Prop
  | based {letter : Char} {after : List Char} {digit : Char → Bool} {lexeme : Lexeme}
      {error : LexicalError} (text : rest = letter :: after) (apart : digit ' ' = false)
      (shape : piece = prefixedNumber letter digit lexeme error after)
      (again : ∀ other, number? c (letter :: other) =
        some (prefixedNumber letter digit lexeme error other))
  | decimal (shape : piece = decimalNumber c rest)
      (again : ∀ other, (∀ x, other.head? = some x → x = ' ' ∨ rest.head? = some x) →
        number? c other = some (decimalNumber c other))

theorem number_none : number? c rest = none ↔ isDigit c = false := by
  unfold number?
  constructor
  · intro nothing
    split at nothing
    · simpa using ‹(!isDigit c) = true›
    · repeat' split at nothing
      all_goals cases nothing
  · intro noDigit
    rw [noDigit]
    rfl

theorem number_zero {letter : Char} (noBase : letter ∉ ['b', 'B', 'x', 'X'])
    (after : List Char) :
    number? '0' (letter :: after) = some (decimalNumber '0' (letter :: after)) := by
  simp only [List.mem_cons, List.not_mem_nil, or_false, not_or] at noBase
  simp [number?, isDigit, noBase]

theorem number_numbered (found : number? c rest = some piece) : Numbered c rest piece := by
  by_cases zero : c = '0'
  · subst zero
    by_cases base : ∃ letter ∈ ['b', 'B', 'x', 'X'], rest.head? = some letter
    · obtain ⟨letter, base, head⟩ := base
      obtain ⟨after, rfl⟩ := List.head?_eq_some_iff.mp head
      simp only [List.mem_cons, List.not_mem_nil, or_false] at base
      rcases base with rfl | rfl | rfl | rfl
      all_goals exact .based rfl (by decide) (Option.some.inj found).symm fun _ => rfl
    · have again : ∀ other, (∀ x, other.head? = some x → x = ' ' ∨ rest.head? = some x) →
          number? '0' other = some (decimalNumber '0' other) := by
        intro other first
        cases other with
        | nil => rfl
        | cons x other =>
            refine number_zero ?_ other
            rcases first x rfl with rfl | same
            · decide
            · exact fun among => base ⟨x, among, same⟩
      rw [again rest fun _ => .inr] at found
      exact .decimal (Option.some.inj found).symm again
  · have digit : isDigit c = true := by
      rw [← Bool.not_eq_false, ← number_none, found]
      exact nofun
    have plain : ∀ other, number? c other = some (decimalNumber c other) := by
      intro other
      simp [number?, digit, zero]
    rw [plain rest] at found
    exact .decimal (Option.some.inj found).symm fun other _ => plain other

theorem number_standalone : Standalone number? where
  front found := (number_cuts found).tail
  kept := by
    intro c rest piece lexeme behind found token faultless parted
    cases number_numbered found with
    | based text apart shape again =>
        subst shape
        obtain ⟨digits, tail, same⟩ := prefixedNumber_again faultless apart parted
        rw [tail, List.cons_append, again, same]
    | decimal shape again =>
        subst shape
        have front := (decimalNumber_cuts c rest).tail
        rw [again _ fun x first => head?_parted front parted first,
          decimalNumber_again faultless parted]
  missing := by
    intro c rest tail behind nothing _ _
    exact number_none.mpr (number_none.mp nothing)

/-! ## Marks -/

theorem punctuator_parted (text : List Char) (parted : Parted behind) :
    punctuator? (text ++ behind) = punctuator? text := by
  cases parted with
  | nil => rw [List.append_nil]
  | blank after => exact punctuator?_space (by decide) text after

theorem punctuator_missing (nothing : punctuator? (c :: rest) = none) (front : tail <+: rest)
    (parted : Parted behind) : punctuator? (c :: (tail ++ behind)) = none := by
  rw [← List.cons_append, punctuator_parted _ parted, punctuator?_eq_none]
  intro mark shorter
  exact punctuator?_eq_none.mp nothing mark
    (shorter.trans (List.cons_prefix_cons.mpr ⟨rfl, front⟩))

theorem punctuator_spelling (mark : Punctuator) (parted : Parted behind) :
    punctuator? (mark.spelling.toList ++ behind) = some mark :=
  (punctuator_parted _ parted).trans (punctuator?_spelling mark)

theorem punctuation_standalone : Standalone punctuation? where
  front found := (punctuation_cuts found).tail
  kept := by
    intro c rest piece lexeme behind found _ _ parted
    obtain ⟨mark, kind, text⟩ := punctuation_spelled found
    unfold punctuation? at found
    split at found
    · rename_i chosen _
      cases found
      obtain rfl : chosen = mark := Lexeme.punctuator.inj (PieceKind.token.inj kind)
      have again := punctuator_spelling chosen parted
      rw [← text, Piece.text, List.cons_append] at again
      have length : (rest.take (chosen.spelling.length - 1)).length + 1 = chosen.spelling.length :=
        (congrArg List.length text).trans String.length_toList
      rw [punctuation?, again]
      simp only
      rw [List.take_left' (Nat.eq_sub_of_add_eq length)]
    · cases found
  missing := by
    intro c rest tail behind nothing front parted
    unfold punctuation? at nothing ⊢
    split at nothing
    · cases nothing
    · rename_i noMark
      rw [punctuator_missing noMark front parted]

/-! ## Literals in quotes -/

/-- What opens a literal does not see its content. -/
theorem opening_again {quote : Char} {lead content : List Char}
    (found : opening? quote c rest = some (lead, content)) (other : List Char) :
    opening? quote c (lead ++ other) = some (lead, other) := by
  unfold opening? at found
  split at found
  · rename_i bare
    cases found
    exact if_pos bare
  · rename_i bare
    split at found
    · rename_i letter
      subst letter
      split at found
      · split at found
        · rename_i isQuote
          cases found
          simp [opening?, bare, isQuote]
        · rename_i noQuote
          split at found
          · split at found
            · rename_i both
              cases found
              simp [opening?, bare, noQuote, both]
            · cases found
          · cases found
      · cases found
    · cases found

theorem opening_missing {quote : Char} (visible : quote ≠ ' ')
    (nothing : opening? quote c rest = none) (front : tail <+: rest) (parted : Parted behind) :
    opening? quote c (tail ++ behind) = none := by
  by_cases bare : c = quote
  · simp [opening?, bare] at nothing
  by_cases letter : c = 'u'
  · subst letter
    obtain ⟨more, rfl⟩ := front
    match tail with
    | [] =>
        cases parted with
        | nil => simp [opening?, bare]
        | blank after => cases after <;> simp [opening?, bare, visible.symm]
    | [q] =>
        have noQuote : q ≠ quote := by
          rintro rfl
          simp [opening?, bare] at nothing
        cases parted with
        | nil => simp [opening?, bare, noQuote]
        | blank after => simp [opening?, bare, noQuote, visible.symm]
    | q :: r :: tail =>
        by_cases isQuote : q = quote
        · simp [opening?, bare, isQuote] at nothing
        by_cases both : (q = '8' && r = quote) = true
        · simp [opening?, bare, isQuote, both] at nothing
        · simp [opening?, bare, isQuote, both]
  · exact opening_space bare letter

/-- What follows a class of characters ends it, whatever stands behind that. -/
theorem takeWhile_next {group : Char → Bool} {text : List Char} {next : Char}
    (whole : (text ++ next :: rest).takeWhile group = text) (other : List Char) :
    (text ++ next :: other).takeWhile group = text := by
  have all : ∀ x ∈ text, group x = true := by
    intro x member
    rw [← whole] at member
    exact List.all_eq_true.mp List.all_takeWhile x member
  refine takeWhile_stops all (stops_cons ?_ other)
  rw [List.takeWhile_append_of_pos all, List.append_right_eq_self] at whole
  rw [Bool.eq_false_iff]
  intro goesOn
  rw [List.takeWhile_cons_of_pos goesOn] at whole
  cases whole

theorem universalName_again {distance : Nat} {letter next : Char} {count : Nat}
    {digits : List Char}
    (found : (universalName distance letter count (digits ++ next :: rest)).tail =
      letter :: digits) (other : List Char) :
    universalName distance letter count (digits ++ next :: other) =
      universalName distance letter count (digits ++ next :: rest) := by
  have own : ((digits ++ next :: rest).take count).takeWhile isHexDigit = digits :=
    (List.cons.inj found).2
  have same : ((digits ++ next :: other).take count).takeWhile isHexDigit = digits := by
    by_cases enough : count ≤ digits.length
    · rw [List.take_append_of_le_length enough] at own ⊢
      exact own
    · obtain ⟨more, beyond⟩ := Nat.exists_eq_add_of_lt (Nat.lt_of_not_le enough)
      have split : ∀ text : List Char, (digits ++ next :: text).take count =
          digits ++ next :: text.take more := by
        intro text
        rw [beyond, Nat.add_assoc, List.take_length_add_append]
        rfl
      rw [split] at own ⊢
      exact takeWhile_next own _
  simp only [universalName, own, same]

/-- An element does not see beyond the next character. -/
theorem element_again {distance : Nat} {next : Char} {element : Element}
    (found : element? distance c (element.tail ++ next :: rest) = some element)
    (other : List Char) :
    element? distance c (element.tail ++ next :: other) = some element := by
  rcases element_shape found with ⟨plain, _⟩ | ⟨rfl, letter, digits, shape, _⟩
  · simpa [element?, plain] using found
  · have escape : ∀ after, element? distance '\\' (letter :: after) =
        if letter = 'u' then some (universalName distance letter 4 after)
        else if letter = 'U' then some (universalName distance letter 8 after)
        else if letter = 'x' then
          if (after.takeWhile isHexDigit).length < after.length then
            some ⟨letter :: after.takeWhile isHexDigit, []⟩
          else none
        else some ⟨[letter], []⟩ := fun _ => rfl
    have name : ∀ count, universalName distance letter count (digits ++ next :: rest) = element →
        universalName distance letter count (digits ++ next :: other) = element := by
      rintro count rfl
      exact universalName_again shape other
    rw [shape, List.cons_append, escape] at found ⊢
    by_cases short : letter = 'u'
    · rw [if_pos short] at found ⊢
      exact congrArg some (name 4 (Option.some.inj found))
    by_cases long : letter = 'U'
    · rw [if_neg short, if_pos long] at found ⊢
      exact congrArg some (name 8 (Option.some.inj found))
    by_cases hexadecimal : letter = 'x'
    · rw [if_neg short, if_neg long, if_pos hexadecimal] at found ⊢
      split at found
      · have tail := congrArg Element.tail (Option.some.inj found)
        rw [shape] at tail
        have own : (digits ++ next :: rest).takeWhile isHexDigit = digits := (List.cons.inj tail).2
        have same := takeWhile_next own other
        rw [own] at found
        rw [same, if_pos (by simp), found]
      · cases found
    · rw [if_neg short, if_neg long, if_neg hexadecimal] at found ⊢
      exact found

theorem stringContent_nonempty {distance : Nat} {text : List Char}
    (closed : (stringContent distance text).closed = true) :
    (stringContent distance text).text ≠ [] := by
  cases text with
  | nil =>
      rw [stringContent] at closed
      cases closed
  | cons head more =>
      rw [stringContent]
      repeat' split
      all_goals exact List.cons_ne_nil _ _

/-- The content of a closed literal does not see beyond its closing quote. -/
theorem stringContent_again {distance : Nat} {text : List Char}
    (closed : (stringContent distance text).closed = true) (other : List Char) :
    stringContent distance ((stringContent distance text).text ++ other) =
      stringContent distance text := by
  fun_induction stringContent distance text with
  | case1 distance => cases closed
  | case2 distance more => rw [List.singleton_append, stringContent, if_pos rfl]
  | case3 distance head more plain missing => cases closed
  | case4 distance head more plain element found after induction =>
      -- What is left of the content is not empty, so the character behind the element, which is
      -- all that the element sees beyond itself, is kept.
      have inside := stringContent_front (distance + byteLength (head :: element.tail))
        (more.drop element.tail.length)
      change after.text <+: _ at inside
      have again := induction closed
      change stringContent _ (after.text ++ other) = after at again
      have nonempty : after.text ≠ [] := stringContent_nonempty closed
      obtain ⟨next, text, shape⟩ := List.exists_cons_of_ne_nil nonempty
      obtain ⟨left, behind⟩ := inside
      have whole : more = element.tail ++ next :: (text ++ left) := by
        have split := List.prefix_iff_eq_append.mp (element_front found)
        rw [← behind, shape] at split
        exact split.symm
      have foundAgain : element? distance head (element.tail ++ (after.text ++ other)) =
          some element := by
        rw [whole] at found
        rw [shape]
        exact element_again found (text ++ other)
      rw [List.append_assoc, List.cons_append, stringContent_element plain foundAgain,
        List.drop_left, again]

theorem characterLiteral_none :
    characterLiteral? c rest = none ↔ opening? '\'' c rest = none := by
  unfold characterLiteral?
  cases opening? '\'' c rest with
  | none => exact ⟨fun _ => rfl, fun _ => rfl⟩
  | some opened =>
      refine ⟨?_, nofun⟩
      intro nothing
      simp only at nothing
      repeat' split at nothing
      all_goals cases nothing

theorem characterLiteral_standalone : Standalone characterLiteral? where
  front found := (characterLiteral_cuts found).tail
  kept := by
    intro c rest piece lexeme behind found _ faultless _
    obtain ⟨lead, head, element, after, opened, noQuote, elementFound, rfl⟩ :=
      characterLiteral_closed found faultless
    have text : lead ++ head :: element.tail ++ ['\''] ++ behind =
        lead ++ head :: (element.tail ++ '\'' :: behind) := by
      simp
    simp only [characterLiteral?, text, opening_again opened, if_neg noQuote,
      element_again elementFound behind, List.drop_left, if_pos]
  missing := by
    intro c rest tail behind nothing front parted
    rw [characterLiteral_none] at nothing ⊢
    exact opening_missing (by decide) nothing front parted

theorem stringLiteral_none : stringLiteral? c rest = none ↔ opening? '"' c rest = none := by
  unfold stringLiteral?
  cases opening? '"' c rest with
  | none => exact ⟨fun _ => rfl, fun _ => rfl⟩
  | some opened =>
      refine ⟨?_, nofun⟩
      intro nothing
      simp only at nothing
      split at nothing
      all_goals cases nothing

theorem stringLiteral_standalone : Standalone stringLiteral? where
  front found := (stringLiteral_cuts found).tail
  kept := by
    intro c rest piece lexeme behind found _ faultless _
    unfold stringLiteral? at found
    split at found
    · cases found
    · rename_i lead content opened
      simp only at found
      split at found
      · rename_i closed
        cases found
        have again := stringContent_again closed behind
        simp only [stringLiteral?, List.append_assoc, opening_again opened, again, if_pos closed]
      · cases found
        exact (unclosed_faulty faultless).elim
  missing := by
    intro c rest tail behind nothing front parted
    rw [stringLiteral_none] at nothing ⊢
    exact opening_missing (by decide) nothing front parted

/-! ## Any piece of code -/

theorem codeCut_standalone : Standalone codeCut? :=
  .orElse comment_standalone <| .orElse punctuation_standalone <|
    .orElse characterLiteral_standalone <| .orElse number_standalone <|
    .orElse stringLiteral_standalone <| .orElse word_standalone space_standalone

/-- A token without faults is cut again from its own text. -/
theorem codePiece_again {lexeme : Lexeme} (token : (codePiece c rest).kind = .token lexeme)
    (faultless : (codePiece c rest).faults = []) (parted : Parted behind) :
    codePiece c ((codePiece c rest).tail ++ behind) = codePiece c rest := by
  rw [codePiece_eq c rest] at token faultless ⊢
  cases found : codeCut? c rest with
  | none =>
      rw [found] at token
      cases token
  | some piece =>
      rw [found] at token faultless
      rw [codePiece_eq, Option.getD_some, codeCut_standalone.kept found token faultless parted,
        Option.getD_some]

end CppsFrontend.Lexical
