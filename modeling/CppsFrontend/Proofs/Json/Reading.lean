import CppsFrontend.Proofs.Json.Decoding

/-!
# Reading what is written

Numbers, names, lists in brackets and members are read whole, whatever follows them, as long as
no number could go on in it.  What a list is read as is known from what its items are read as.
-/

set_option autoImplicit false

namespace CppsFrontend.Json

variable {α β : Type} {text rest : List Char}

def Ends (text : List Char) : Prop :=
  ∀ c, text.head? = some c → c.isDigit = false ∧ c ≠ '.' ∧ c ≠ 'e' ∧ c ≠ 'E'

theorem ends_cons {c : Char} (digit : c.isDigit = false) (other : c ≠ '.' ∧ c ≠ 'e' ∧ c ≠ 'E')
    (text : List Char) : Ends (c :: text) := by
  intro d first
  obtain rfl : c = d := Option.some.inj first
  exact ⟨digit, other⟩

/-- A value begins with a character that is no blank and closes nothing. -/
def Begins (text : List Char) : Prop :=
  ∃ c more, text = c :: more ∧ isBlank c = false ∧ c ≠ ']' ∧ c ≠ '\x7d'

theorem Begins.skipBlank (begins : Begins text) (rest : List Char) :
    Json.skipBlank (text ++ rest) = text ++ rest := by
  obtain ⟨c, more, rfl, visible, _⟩ := begins
  exact List.dropWhile_cons_of_neg (by rw [visible]; exact Bool.false_ne_true)

/-- A text is read as a value, whatever follows. -/
structure Reads (reader : Reader α) (text : List Char) (value : α) : Prop where
  begins : Begins text
  read : ∀ rest, Ends rest → reader (text ++ rest) = some (value, rest)

/-! ## Numbers -/

theorem digits?_read {digits : List Char} (all : ∀ c ∈ digits, c.isDigit = true)
    (nonempty : digits ≠ []) (ends : Ends rest) :
    digits? (digits ++ rest) = some (digits, rest) := by
  have stop : rest.takeWhile Char.isDigit = [] ∧ rest.dropWhile Char.isDigit = rest := by
    cases rest with
    | nil => exact ⟨rfl, rfl⟩
    | cons c rest =>
        have other : ¬ c.isDigit = true := by
          rw [(ends c rfl).1]
          exact Bool.false_ne_true
        exact ⟨List.takeWhile_cons_of_neg other, List.dropWhile_cons_of_neg other⟩
  unfold digits?
  rw [List.takeWhile_append_of_pos all, List.dropWhile_append_of_pos all, stop.1, stop.2,
    List.append_nil, if_neg (by simpa using nonempty)]

theorem fraction?_none (ends : Ends rest) : fraction? rest = some ([], rest) := by
  unfold fraction?
  split
  · exact absurd rfl (ends '.' rfl).2.1
  · rfl

theorem exponent?_none (ends : Ends rest) : exponent? rest = some (0, rest) := by
  unfold exponent?
  split
  · exact absurd rfl (ends 'e' rfl).2.2.1
  · exact absurd rfl (ends 'E' rfl).2.2.2
  · rfl

/-- The digits of a number are a zero alone, or begin with another digit. -/
theorem toDigits_first (number : Nat) : Nat.toDigits 10 number = ['0'] ∨
    ∃ c more, Nat.toDigits 10 number = c :: more ∧ c ≠ '0' := by
  induction number using Nat.strongRecOn with
  | ind number induction =>
      by_cases single : number < 10
      · rw [Nat.toDigits_of_lt_base single]
        by_cases zero : number = 0
        · rw [zero]
          exact .inl rfl
        · exact .inr ⟨_, [], rfl, fun same => zero (Nat.digitChar_eq_zero.mp same)⟩
      · right
        rw [Nat.toDigits_of_base_le (by decide) (Nat.le_of_not_lt single)]
        have smaller : number / 10 < number := by omega
        rcases induction (number / 10) smaller with zero | ⟨c, more, digits, other⟩
        · have value : number / 10 = Nat.ofDigitChars 10 ['0'] 0 := by
            rw [← zero, Nat.ofDigitChars_ten_toDigits]
          have none : Nat.ofDigitChars 10 ['0'] 0 = 0 := by decide
          omega
        · exact ⟨c, _, by rw [digits]; rfl, other⟩

theorem isDigit_toDigits (number : Nat) : ∀ c ∈ Nat.toDigits 10 number, c.isDigit = true :=
  fun _ member => Nat.isDigit_of_mem_toDigits (by decide) (by decide) member

theorem whole?_read (number : Nat) (ends : Ends rest) :
    whole? (Nat.toDigits 10 number ++ rest) = some (Nat.toDigits 10 number, rest) := by
  rcases toDigits_first number with zero | ⟨c, more, digits, other⟩
  · rw [zero]
    rfl
  · have all := digits?_read (isDigit_toDigits number) Nat.toDigits_ne_nil ends
    rw [digits, List.cons_append] at all ⊢
    unfold whole?
    split
    · rename_i same
      exact absurd (List.cons.inj same).1 other
    · exact all

theorem number?_read (number : Nat) (ends : Ends rest) :
    number? (Nat.toDigits 10 number ++ rest) = some (.number number 0, rest) := by
  have value : decimal (Nat.toDigits 10 number) = number := Nat.ofDigitChars_ten_toDigits
  have positive : positive? (Nat.toDigits 10 number ++ rest) = some ((number, 0), rest) := by
    simp only [positive?, whole?_read number ends, fraction?_none ends, exponent?_none ends,
      Option.bind_eq_bind, Option.bind_some, List.append_nil, value]
    rfl
  obtain ⟨c, more, shape⟩ := List.exists_cons_of_ne_nil (@Nat.toDigits_ne_nil number 10)
  have digit := isDigit_toDigits number c (by rw [shape]; exact List.mem_cons_self)
  rw [shape, List.cons_append] at positive ⊢
  unfold number?
  split
  · rename_i sign
    rw [(List.cons.inj sign).1] at digit
    cases digit
  · rw [positive]
    rfl

/-- A digit is none of the characters that other values begin with, and no blank. -/
theorem digit_apart {c : Char} (digit : c.isDigit = true) :
    isBlank c = false ∧ c ∉ ['[', ']', '\x7b', '\x7d', '"', 'n', 't', 'f'] := by
  constructor
  · rw [Bool.eq_false_iff]
    intro blank
    simp only [isBlank, Bool.or_eq_true, decide_eq_true_eq] at blank
    rcases blank with ((rfl | rfl) | rfl) | rfl <;> cases digit
  · intro member
    simp only [List.mem_cons, List.not_mem_nil, or_false] at member
    rcases member with rfl | rfl | rfl | rfl | rfl | rfl | rfl | rfl <;> cases digit

/-! ## Values -/

theorem value?_number (depth number : Nat) :
    Reads (value? (depth + 1)) (Nat.toDigits 10 number) (.number number 0) := by
  obtain ⟨c, more, shape⟩ := List.exists_cons_of_ne_nil (@Nat.toDigits_ne_nil number 10)
  obtain ⟨visible, apart⟩ :=
    digit_apart (isDigit_toDigits number c (by rw [shape]; exact List.mem_cons_self))
  simp only [List.mem_cons, List.not_mem_nil, or_false, not_or] at apart
  obtain ⟨array, arrayEnd, object, objectEnd, quote, nothing, yes, no⟩ := apart
  have begins : Begins (Nat.toDigits 10 number) := ⟨c, more, shape, visible, arrayEnd, objectEnd⟩
  refine ⟨begins, ?_⟩
  intro rest ends
  have read := number?_read number ends
  rw [value?, begins.skipBlank]
  rw [shape, List.cons_append] at read ⊢
  split
  · rename_i same
    exact absurd (List.cons.inj same).1 array
  · rename_i same
    exact absurd (List.cons.inj same).1 object
  · rename_i same
    exact absurd (List.cons.inj same).1 quote
  · rename_i same
    exact absurd (List.cons.inj same).1 nothing
  · rename_i same
    exact absurd (List.cons.inj same).1 yes
  · rename_i same
    exact absurd (List.cons.inj same).1 no
  · exact read

theorem value?_null (depth : Nat) : Reads (value? (depth + 1)) "null".toList .null := by
  refine ⟨⟨'n', ['u', 'l', 'l'], rfl, by decide⟩, ?_⟩
  intro rest _
  rfl

def Quotes (text : List Char) (value : String) : Prop :=
  (∃ more, text = '"' :: more) ∧ ∀ rest, string? (text ++ rest) = some (value, rest)

theorem Quotes.begins {value : String} (quotes : Quotes text value) : Begins text := by
  obtain ⟨⟨more, rfl⟩, _⟩ := quotes
  exact ⟨'"', more, rfl, by decide⟩

theorem value?_string {value : String} (depth : Nat) (quotes : Quotes text value) :
    Reads (value? (depth + 1)) text (.string value) := by
  refine ⟨quotes.begins, ?_⟩
  intro rest _
  have skip := quotes.begins.skipBlank rest
  obtain ⟨⟨more, rfl⟩, read⟩ := quotes
  rw [value?, skip]
  change Option.map _ (string? ('"' :: more ++ rest)) = _
  rw [read]
  rfl

/-! ## Lists in brackets -/

def listed : List (List Char) → List Char
  | [] => []
  | first :: others => first ++ others.flatMap (',' :: ·)

theorem length_le_listed {texts : List (List Char)} (among : text ∈ texts) :
    text.length ≤ (listed texts).length := by
  cases among with
  | head others =>
      rw [listed, List.length_append]
      exact Nat.le_add_right _ _
  | @tail first others among =>
      have inside := (List.sublist_flatten_of_mem
        (List.mem_map_of_mem (f := (',' :: ·)) among)).length_le
      rw [List.length_cons] at inside
      rw [listed, List.length_append, List.flatMap_def]
      omega

def Closes (c : Char) : Prop := c = ']' ∨ c = '\x7d'

theorem Closes.ends {c : Char} (closes : Closes c) (text : List Char) : Ends (c :: text) := by
  rcases closes with rfl | rfl
  · exact ends_cons (by decide) (by decide) text
  · exact ends_cons (by decide) (by decide) text

theorem Closes.skipBlank {c : Char} (closes : Closes c) (text : List Char) :
    Json.skipBlank (c :: text) = c :: text := by
  rcases closes with rfl | rfl <;> rfl

theorem Closes.ne_comma {c : Char} (closes : Closes c) : ',' ≠ c := by
  rcases closes with rfl | rfl <;> decide

theorem separated?_read {item : Reader α} {close : Char} (closes : Closes close)
    {write : β → List Char} {value : β → α} (first : β) (others : List β)
    (each : ∀ one ∈ first :: others, Reads item (write one) (value one)) {count : Nat}
    (enough : others.length < count) (rest : List Char) :
    separated? item close count (listed ((first :: others).map write) ++ close :: rest) =
      some ((first :: others).map value, rest) := by
  induction others generalizing first count with
  | nil =>
      obtain ⟨count, rfl⟩ := Nat.exists_eq_succ_of_ne_zero (Nat.ne_zero_of_lt enough)
      have read := (each first List.mem_cons_self).read (close :: rest) (closes.ends rest)
      simp only [List.map_cons, List.map_nil, listed, List.flatMap_nil, List.append_nil,
        separated?, read, Option.bind_eq_bind, Option.bind_some, closes.skipBlank, if_pos]
      rfl
  | cons next others induction =>
      obtain ⟨count, rfl⟩ := Nat.exists_eq_succ_of_ne_zero (Nat.ne_zero_of_lt enough)
      obtain ⟨head, tail⟩ := List.forall_mem_cons.mp each
      have readOthers := induction next tail (Nat.lt_of_succ_lt_succ enough)
      have text : listed ((first :: next :: others).map write) ++ close :: rest =
          write first ++ ',' :: (listed ((next :: others).map write) ++ close :: rest) := by
        simp [listed]
      have read := head.read (',' :: (listed ((next :: others).map write) ++ close :: rest))
        (ends_cons (by decide) (by decide) _)
      rw [text]
      simp only [separated?, read, Option.bind_eq_bind, Option.bind_some]
      change (if ',' = close then _ else if ',' = ',' then _ else _) = _
      rw [if_neg closes.ne_comma, if_pos rfl, readOthers]
      rfl

theorem length_listed {write : β → List Char} (first : β) (others : List β) :
    others.length ≤ (listed ((first :: others).map write)).length := by
  rw [List.map_cons, listed, List.length_append]
  have each : others.length ≤ ((others.map write).flatMap (',' :: ·)).length := by
    induction others with
    | nil => exact Nat.le_refl 0
    | cons next others induction =>
        simp only [List.map_cons, List.flatMap_cons, List.length_append, List.length_cons]
        omega
  omega

theorem bracketed?_read {item : Reader α} {close : Char} (closes : Closes close)
    {write : β → List Char} {value : β → α} (items : List β)
    (each : ∀ one ∈ items, Reads item (write one) (value one)) (rest : List Char) :
    bracketed? item close (listed (items.map write) ++ close :: rest) =
      some (items.map value, rest) := by
  cases items with
  | nil =>
      rw [bracketed?, List.map_nil, listed, List.nil_append, closes.skipBlank]
      exact if_pos rfl
  | cons first others =>
      obtain ⟨c, more, shape, visible, noArrayEnd, noObjectEnd⟩ :=
        (each first List.mem_cons_self).begins
      have text : ∃ behind,
          listed ((first :: others).map write) ++ close :: rest = c :: behind := by
        rw [List.map_cons, listed, shape]
        exact ⟨_, rfl⟩
      have enough : others.length <
          (listed ((first :: others).map write) ++ close :: rest).length := by
        have listed := @length_listed _ write first others
        rw [List.length_append, List.length_cons]
        omega
      have read := separated?_read closes first others each enough rest
      obtain ⟨behind, text⟩ := text
      rw [text] at read ⊢
      have other : c ≠ close := by
        rintro rfl
        rcases closes with same | same
        · exact noArrayEnd same
        · exact noObjectEnd same
      have skip : Json.skipBlank (c :: behind) = c :: behind :=
        List.dropWhile_cons_of_neg (by rw [visible]; exact Bool.false_ne_true)
      rw [bracketed?, skip]
      exact (if_neg other).trans read

theorem value?_array (depth : Nat) {write : β → List Char} {value : β → Json} (items : List β)
    (each : ∀ one ∈ items, Reads (value? depth) (write one) (value one)) :
    Reads (value? (depth + 1)) ('[' :: listed (items.map write) ++ [']'])
      (.array (items.map value)) := by
  refine ⟨⟨'[', _, rfl, by decide⟩, ?_⟩
  intro rest _
  have read := bracketed?_read (.inl rfl) items each rest
  rw [value?]
  change Option.map _ (bracketed? (value? depth) ']' (listed (items.map write) ++ [']'] ++ rest))
    = _
  rw [List.append_assoc, List.singleton_append, read]
  rfl

theorem value?_object (depth : Nat) {write : β → List Char} {value : β → String × Json}
    (members : List β)
    (each : ∀ one ∈ members, Reads (member? (value? depth)) (write one) (value one)) :
    Reads (value? (depth + 1)) ('\x7b' :: listed (members.map write) ++ ['\x7d'])
      (.object (members.map value)) := by
  refine ⟨⟨'\x7b', _, rfl, by decide⟩, ?_⟩
  intro rest _
  have read := bracketed?_read (.inr rfl) members each rest
  rw [value?]
  change Option.map _ (bracketed? (member? (value? depth)) '\x7d'
    (listed (members.map write) ++ ['\x7d'] ++ rest)) = _
  rw [List.append_assoc, List.singleton_append, read]
  rfl

theorem member?_read {reader : Reader Json} {name : String} {value : Json}
    {nameText valueText : List Char} (quotes : Quotes nameText name)
    (reads : Reads reader valueText value) :
    Reads (member? reader) (nameText ++ ':' :: valueText) (name, value) := by
  have begins := quotes.begins
  refine ⟨?_, ?_⟩
  · obtain ⟨c, more, rfl, outside⟩ := begins
    exact ⟨c, _, rfl, outside⟩
  · intro rest ends
    have text : nameText ++ ':' :: valueText ++ rest =
        nameText ++ ':' :: (valueText ++ rest) := by
      rw [List.append_assoc]
      rfl
    rw [member?, text, begins.skipBlank, quotes.2]
    change (reader (valueText ++ rest)).bind _ = _
    rw [reads.read rest ends]
    rfl

theorem decode?_read {text : String} {value : Json}
    (reads : Reads (value? text.length) text.toList value) : decode? text = some value := by
  have read := reads.read [] nofun
  rw [List.append_nil] at read
  rw [decode?, read]
  rfl

end CppsFrontend.Json
