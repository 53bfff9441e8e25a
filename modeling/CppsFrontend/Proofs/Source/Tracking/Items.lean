import CppsFrontend.Source.Reading

/-!
# Lines of C++

A grammar of lines of C++: code, numbers, braces, literals and comments.  Braces count where
they are items of their own.
-/

set_option autoImplicit false

namespace CppsFrontend.Cpp

open Text

/-! ## Lines of C++ -/

inductive Element where
  | plain (c : Char)
  | escaped (c : Char)
deriving DecidableEq

namespace Element

def chars : Element → List Char
  | .plain c => [c]
  | .escaped c => ['\\', c]

/-- Quotes and backslashes stand in a string behind a backslash only. -/
def IsValid : Element → Prop
  | .plain c => c ≠ '"' ∧ c ≠ '\\'
  | .escaped _ => True

end Element

inductive Item where
  | code (c : Char)
  | number
  | brace (opens : Bool)
  | character (escaped : Bool) (c : Char)
  | string (elements : List Element)
  | comment
deriving DecidableEq

/-- A character that is code by itself: no quote, no brace, no beginning of a comment, and
no backslash that escapes a quote. -/
def IsCode (c : Char) (behind : List Char) : Prop :=
  c ≠ '"' ∧ c ≠ '\'' ∧ c ≠ '\x7b' ∧ c ≠ '\x7d' ∧
    (c = '/' → behind.head? ≠ some '/' ∧ behind.head? ≠ some '*') ∧
    (c = '\\' → behind.head? ≠ some '"')

/-- Digits, letters and points, and single quotes that separate digits. -/
def isSeparated : List Char → Bool
  | [] => true
  | '\'' :: c :: rest => isWordPart c && isSeparated rest
  | c :: rest => (isWordPart c || c = '.') && isSeparated rest

/-- How the text of a line is made of items, from inside a comment or from outside, and
whether a comment is open behind it. -/
inductive Reads : Bool → List Char → List Item → Bool → Prop where
  | done (inComment : Bool) : Reads inComment [] [] inComment
  | code {c : Char} {behind : List Char} {items : List Item} {after : Bool}
      (plain : IsCode c behind) (rest : Reads false behind items after) :
      Reads false (c :: behind) (.code c :: items) after
  | number {first : Char} {text digits behind : List Char} {items : List Item} {after : Bool}
      (digit : isDigit first = true) (separated : isSeparated digits = true)
      (split : text = digits ++ behind) (rest : Reads false behind items after) :
      Reads false (first :: text) (.number :: items) after
  | openBrace {behind : List Char} {items : List Item} {after : Bool}
      (rest : Reads false behind items after) :
      Reads false ('\x7b' :: behind) (.brace true :: items) after
  | closeBrace {behind : List Char} {items : List Item} {after : Bool}
      (rest : Reads false behind items after) :
      Reads false ('\x7d' :: behind) (.brace false :: items) after
  | character {c : Char} {behind : List Char} {items : List Item} {after : Bool}
      (noQuote : c ≠ '\'') (noEscape : c ≠ '\\') (rest : Reads false behind items after) :
      Reads false ('\'' :: c :: '\'' :: behind) (.character false c :: items) after
  | escapedCharacter {c : Char} {behind : List Char} {items : List Item} {after : Bool}
      (rest : Reads false behind items after) :
      Reads false ('\'' :: '\\' :: c :: '\'' :: behind) (.character true c :: items) after
  | string {elements : List Element} {text behind : List Char} {items : List Item}
      {after : Bool} (valid : ∀ element ∈ elements, element.IsValid)
      (split : text = elements.flatMap Element.chars ++ '"' :: behind)
      (rest : Reads false behind items after) :
      Reads false ('"' :: text) (.string elements :: items) after
  | lineComment (behind : List Char) : Reads false ('/' :: '/' :: behind) [.comment] false
  | openComment {behind : List Char} {items : List Item} {after : Bool}
      (rest : Reads true behind items after) :
      Reads false ('/' :: '*' :: behind) (.comment :: items) after
  | commentText {c : Char} {behind : List Char} {items : List Item} {after : Bool}
      (going : c = '*' → behind.head? ≠ some '/') (rest : Reads true behind items after) :
      Reads true (c :: behind) items after
  | closeComment {behind : List Char} {items : List Item} {after : Bool}
      (rest : Reads false behind items after) :
      Reads true ('*' :: '/' :: behind) items after

/-! ## Counting braces -/

def opened (items : List Item) : Nat := items.count (.brace true)

def closed (items : List Item) : Nat := items.count (.brace false)

/-- At a depth no brace of the items closes more than has been opened. -/
def Closable (depth : Nat) (items : List Item) : Prop :=
  ∀ front, front <+: items → closed front ≤ depth + opened front

section Counting

variable {depth deeper : Nat} {item : Item} {items more : List Item}

@[simp] theorem opened_append : opened (items ++ more) = opened items + opened more :=
  List.count_append

@[simp] theorem closed_append : closed (items ++ more) = closed items + closed more :=
  List.count_append

theorem Closable.of_append (closable : Closable depth (items ++ more))
    (same : deeper + closed items = depth + opened items) : Closable deeper more := by
  intro front begins
  have whole := closable (items ++ front) (List.prefix_append_right_inj items |>.mpr begins)
  rw [opened_append, closed_append] at whole
  omega

theorem Closable.tail (closable : Closable depth (item :: items))
    (same : deeper + closed [item] = depth + opened [item]) : Closable deeper items :=
  Closable.of_append closable same

theorem closable_iff : Closable depth items ↔
    ∀ count ≤ items.length, closed (items.take count) ≤ depth + opened (items.take count) := by
  constructor
  · exact fun closable count _ => closable _ (List.take_prefix count items)
  · intro counted front begins
    rw [List.prefix_iff_eq_take.mp begins]
    exact counted front.length begins.length_le

instance (depth : Nat) (items : List Item) : Decidable (Closable depth items) :=
  decidable_of_iff _ closable_iff.symm

theorem Closable.front (closable : Closable depth (items ++ more)) : Closable depth items :=
  fun front begins => closable front (begins.trans (List.prefix_append items more))

end Counting

def isPlain (c : Char) : Bool := decide (c ∉ ['"', '\'', '\x7b', '\x7d', '/', '\\'])

theorem isCode_of_isPlain {c : Char} {behind : List Char} (plain : isPlain c = true) :
    IsCode c behind := by
  simp only [isPlain, decide_eq_true_eq, List.mem_cons, List.not_mem_nil, or_false,
    not_or] at plain
  obtain ⟨noQuote, noSingle, noOpen, noClose, noSlash, noEscape⟩ := plain
  exact ⟨noQuote, noSingle, noOpen, noClose, fun same => absurd same noSlash,
    fun same => absurd same noEscape⟩

theorem Reads.codes (text : List Char) {behind : List Char} {items : List Item} {after : Bool}
    (plain : text.all isPlain = true) (rest : Reads false behind items after) :
    Reads false (text ++ behind) (text.map .code ++ items) after := by
  induction text with
  | nil => exact rest
  | cons c text induction =>
      rw [List.all_cons, Bool.and_eq_true] at plain
      exact .code (isCode_of_isPlain plain.1) (induction plain.2)

theorem Reads.comments (text : List Char) {behind : List Char} {items : List Item}
    {after : Bool} (starless : '*' ∉ text) (rest : Reads true behind items after) :
    Reads true (text ++ behind) items after := by
  induction text with
  | nil => exact rest
  | cons c text induction =>
      rw [List.mem_cons, not_or] at starless
      exact .commentText (fun star => absurd star.symm starless.1) (induction starless.2)

theorem Reads.of_nil {inComment after : Bool} {items : List Item}
    (reads : Reads inComment [] items after) : items = [] ∧ after = inComment := by
  cases reads
  exact ⟨rfl, rfl⟩

/-- Whether the character before misleads inside an item: at the end of a string whose last
element is an escaped backslash, or at a brace that a character literal escapes. -/
def Item.misleads : Item → Bool
  | .string elements => elements.getLast? = some (.escaped '\\')
  | .character true c => c = '\x7b' || c = '\x7d'
  | _ => false

/-- Whether the single quote of a character literal misleads behind it: at a string, or at a
brace before another literal. -/
def Item.misleadsAt : Item → List Item → Bool
  | .character _ _, .string _ :: _ => true
  | .character _ _, .brace _ :: .character _ _ :: _ => true
  | _, _ => false

/-- Whether the character before tells enough of items. -/
def isTracked : List Item → Bool
  | [] => true
  | item :: rest => !item.misleads && !item.misleadsAt rest && isTracked rest

theorem isTracked_append {items more : List Item} (tracked : isTracked (items ++ more) = true) :
    isTracked more = true := by
  induction items with
  | nil => exact tracked
  | cons item items induction =>
      rw [List.cons_append, isTracked, Bool.and_eq_true] at tracked
      exact induction tracked.2

theorem misleads_of_isTracked {items more : List Item} {item : Item}
    (tracked : isTracked (items ++ item :: more) = true) : item.misleads = false := by
  have behind := isTracked_append tracked
  rw [isTracked, Bool.and_eq_true, Bool.and_eq_true, Bool.not_eq_true'] at behind
  exact behind.1.1

/-- Items behind a single quote are a character literal. -/
theorem Reads.of_quote {behind : List Char} {items : List Item} {after : Bool}
    (reads : Reads false behind items after) (quote : behind.head? = some '\'') :
    ∃ escaped c more, items = .character escaped c :: more := by
  cases reads with
  | done => cases quote
  | code plain => exact absurd (Option.some.inj quote) plain.2.1
  | number digit =>
      cases quote
      cases digit
  | openBrace | closeBrace | string | lineComment | openComment => cases quote
  | @character c _ more => exact ⟨false, c, _, rfl⟩
  | @escapedCharacter c _ more => exact ⟨true, c, _, rfl⟩

end CppsFrontend.Cpp
