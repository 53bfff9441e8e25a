import CppsFrontend.Lexical.Piece
import CppsFrontend.Text.Character

/-!
# Character and string literals

Both may have the prefix `u` or `u8` before their opening quote.  Their content
is made of elements: a universal character name, an escape sequence, or one
plain character.  A character literal has one element, a string literal any
number.  A literal that is not closed takes the rest of its line.
-/

set_option autoImplicit false

namespace CppsFrontend.Lexical

open Text

/-- What stands between `c` and the content, if `c` begins a literal with this
quote, and the content. -/
def opening? (quote c : Char) (rest : List Char) : Option (List Char × List Char) :=
  if c = quote then some ([], rest)
  else if c = 'u' then
    match rest with
    | q :: after =>
        if q = quote then some ([q], after)
        else
          match after with
          | r :: content =>
              if q = '8' && r = quote then some ([q, r], content) else none
          | [] => none
    | [] => none
  else none

structure Element where
  tail : List Char
  faults : List Fault

/-- A backslash, a letter and the hexadecimal digits after it.  A wrong number of
digits is a fault, but those that are there belong to the name. -/
def universalName (distance : Nat) (letter : Char) (count : Nat) (rest : List Char) :
    Element :=
  let digits := (rest.take count).takeWhile isHexDigit
  ⟨letter :: digits,
    if digits.length = count then []
    else [⟨.universalNameTooShort letter count, some distance⟩]⟩

/-- The element that begins with `c`, `distance` bytes into its literal; none if
it needs characters that the line does not have. -/
def element? (distance : Nat) (c : Char) (rest : List Char) : Option Element :=
  if c = '\\' then
    match rest with
    | [] => none
    | letter :: after =>
        if letter = 'u' then some (universalName distance letter 4 after)
        else if letter = 'U' then some (universalName distance letter 8 after)
        else if letter = 'x' then
          let digits := after.takeWhile isHexDigit
          if digits.length < after.length then some ⟨letter :: digits, []⟩ else none
        else some ⟨[letter], []⟩
  else some ⟨[], []⟩

def unclosed (lexeme : Lexeme) (c : Char) (rest : List Char) (faults : List Fault)
    (error : LexicalError) (distance : Option Nat) : Piece :=
  ⟨.token lexeme, c, rest, faults ++ [⟨error, distance⟩]⟩

/-- The character literal that begins with `c`.  An empty one is passed over. -/
def characterLiteral? (c : Char) (rest : List Char) : Option Piece :=
  match opening? '\'' c rest with
  | none => none
  | some (lead, content) =>
      let distance := 1 + lead.length
      match content with
      | [] => some (unclosed .characterLiteral c rest [] .characterLiteralUnclosed none)
      | head :: more =>
          if head = '\'' then
            some ⟨.skipped, c, lead ++ [head], [⟨.characterLiteralEmpty, some 0⟩]⟩
          else
            match element? distance head more with
            | none => some (unclosed .characterLiteral c rest [] .characterLiteralUnclosed none)
            | some element =>
                match more.drop element.tail.length with
                | [] =>
                    some (unclosed .characterLiteral c rest element.faults
                      .characterLiteralUnclosed none)
                | close :: _ =>
                    if close = '\'' then
                      some ⟨.token .characterLiteral, c,
                        lead ++ head :: element.tail ++ [close], element.faults⟩
                    else
                      some (unclosed .characterLiteral c rest element.faults
                        .characterLiteralUnclosed
                        (some (distance + byteLength (head :: element.tail))))

structure StringContent where
  text : List Char
  closed : Bool
  faults : List Fault

def stringContent (distance : Nat) : List Char → StringContent
  | [] => ⟨[], false, []⟩
  | head :: more =>
      if head = '"' then ⟨[head], true, []⟩
      else
        match element? distance head more with
        | none => ⟨head :: more, false, []⟩
        | some element =>
            let after := stringContent (distance + byteLength (head :: element.tail))
              (more.drop element.tail.length)
            ⟨head :: element.tail ++ after.text, after.closed,
              element.faults ++ after.faults⟩
termination_by text => text.length
decreasing_by simp only [List.length_drop, List.length_cons]; omega

def stringLiteral? (c : Char) (rest : List Char) : Option Piece :=
  match opening? '"' c rest with
  | none => none
  | some (lead, content) =>
      let body := stringContent (1 + lead.length) content
      if body.closed then
        some ⟨.token .stringLiteral, c, lead ++ body.text, body.faults⟩
      else some (unclosed .stringLiteral c rest body.faults .stringLiteralUnclosed none)

end CppsFrontend.Lexical
