/-!
# JSON texts

A value is read off a text by the grammar of JSON: blanks may stand around values, brackets,
commas and colons, and nothing else may.  A reader takes a front of the text and returns what
is left; it fails where the grammar has no rule.
-/

set_option autoImplicit false

namespace CppsFrontend

/-- Numbers are a mantissa times a power of ten. -/
inductive Json where
  | null
  | bool (value : Bool)
  | number (mantissa exponent : Int)
  | string (text : String)
  | array (items : List Json)
  | object (members : List (String × Json))

namespace Json

abbrev Reader (α : Type) : Type := List Char → Option (α × List Char)

def isBlank (c : Char) : Bool := c = ' ' || c = '\t' || c = '\n' || c = '\r'

def skipBlank (text : List Char) : List Char := text.dropWhile isBlank

/-! ## Numbers -/

def digits? : Reader (List Char) := fun text =>
  if (text.takeWhile Char.isDigit).isEmpty then none
  else some (text.takeWhile Char.isDigit, text.dropWhile Char.isDigit)

def decimal (digits : List Char) : Nat := Nat.ofDigitChars 10 digits 0

/-- A zero alone, or digits that do not begin with one. -/
def whole? : Reader (List Char)
  | '0' :: rest => some (['0'], rest)
  | text => digits? text

def fraction? : Reader (List Char)
  | '.' :: rest => digits? rest
  | text => some ([], text)

def signedDigits? : Reader Int
  | '-' :: rest => (digits? rest).map fun found => (-(decimal found.1 : Int), found.2)
  | '+' :: rest => (digits? rest).map fun found => ((decimal found.1 : Int), found.2)
  | text => (digits? text).map fun found => ((decimal found.1 : Int), found.2)

def exponent? : Reader Int
  | 'e' :: rest => signedDigits? rest
  | 'E' :: rest => signedDigits? rest
  | text => some (0, text)

def positive? : Reader (Nat × Int) := fun text => do
  let (whole, text) ← whole? text
  let (fraction, text) ← fraction? text
  let (exponent, text) ← exponent? text
  return ((decimal (whole ++ fraction), exponent - fraction.length), text)

def number? : Reader Json
  | '-' :: rest => (positive? rest).map fun found =>
      (.number (-(found.1.1 : Int)) found.1.2, found.2)
  | text => (positive? text).map fun found => (.number (found.1.1 : Int) found.1.2, found.2)

/-! ## Strings -/

def hexValue? (c : Char) : Option Nat :=
  if '0' ≤ c && c ≤ '9' then some (c.toNat - '0'.toNat)
  else if 'a' ≤ c && c ≤ 'f' then some (c.toNat - 'a'.toNat + 10)
  else if 'A' ≤ c && c ≤ 'F' then some (c.toNat - 'A'.toNat + 10)
  else none

def codeUnit? : Reader Nat
  | first :: second :: third :: fourth :: rest => do
      let first ← hexValue? first
      let second ← hexValue? second
      let third ← hexValue? third
      let fourth ← hexValue? fourth
      return (((first * 16 + second) * 16 + third) * 16 + fourth, rest)
  | _ => none

/-- One code unit, or the two of a character beyond sixteen bits.  Half of such a character
is none. -/
def codeUnits? : Reader Char := fun text => do
  let (unit, rest) ← codeUnit? text
  if 0xd800 ≤ unit && unit < 0xdc00 then
    match rest with
    | '\\' :: 'u' :: rest => do
        let (low, rest) ← codeUnit? rest
        if 0xdc00 ≤ low && low < 0xe000 then
          return (Char.ofNat (0x10000 + (unit - 0xd800) * 1024 + (low - 0xdc00)), rest)
        else none
    | _ => none
  else if 0xdc00 ≤ unit && unit < 0xe000 then none
  else return (Char.ofNat unit, rest)

def escaped? : Reader Char
  | '"' :: rest => some ('"', rest)
  | '\\' :: rest => some ('\\', rest)
  | '/' :: rest => some ('/', rest)
  | 'b' :: rest => some ('\x08', rest)
  | 'f' :: rest => some ('\x0c', rest)
  | 'n' :: rest => some ('\n', rest)
  | 'r' :: rest => some ('\r', rest)
  | 't' :: rest => some ('\t', rest)
  | 'u' :: rest => codeUnits? rest
  | _ => none

/-- A character of a string; a quote and those below the blank have to be escaped. -/
def character? : Reader Char
  | '\\' :: rest => escaped? rest
  | c :: rest => if c = '"' || c.toNat < 0x20 then none else some (c, rest)
  | [] => none

def characters? : Nat → Reader (List Char)
  | _, '"' :: rest => some ([], rest)
  | 0, _ => none
  | count + 1, text => do
      let (c, text) ← character? text
      let (more, text) ← characters? count text
      return (c :: more, text)

def string? : Reader String
  | '"' :: rest =>
      (characters? rest.length rest).map fun found => (String.ofList found.1, found.2)
  | _ => none

/-! ## Arrays and objects -/

variable {α : Type}

def separated? (item : Reader α) (close : Char) : Nat → Reader (List α)
  | 0, _ => none
  | count + 1, text => do
      let (first, text) ← item text
      match skipBlank text with
      | c :: text =>
          if c = close then return ([first], text)
          else if c = ',' then do
            let (more, text) ← separated? item close count text
            return (first :: more, text)
          else none
      | [] => none

def bracketed? (item : Reader α) (close : Char) : Reader (List α) := fun text =>
  match skipBlank text with
  | c :: rest => if c = close then some ([], rest) else separated? item close text.length text
  | [] => none

def member? (value : Reader Json) : Reader (String × Json) := fun text => do
  let (name, text) ← string? (skipBlank text)
  match skipBlank text with
  | ':' :: text => do
      let (value, text) ← value text
      return ((name, value), text)
  | _ => none

/-- A value behind blanks, in which nothing is nested deeper than a depth. -/
def value? : Nat → Reader Json
  | 0, _ => none
  | depth + 1, text =>
      match skipBlank text with
      | '[' :: rest =>
          (bracketed? (value? depth) ']' rest).map fun found => (.array found.1, found.2)
      | '\x7b' :: rest =>
          (bracketed? (member? (value? depth)) '\x7d' rest).map fun found =>
            (.object found.1, found.2)
      | '"' :: rest => (string? ('"' :: rest)).map fun found => (.string found.1, found.2)
      | 'n' :: 'u' :: 'l' :: 'l' :: rest => some (.null, rest)
      | 't' :: 'r' :: 'u' :: 'e' :: rest => some (.bool true, rest)
      | 'f' :: 'a' :: 'l' :: 's' :: 'e' :: rest => some (.bool false, rest)
      | text => number? text

/-- The value that a text is; there are no more brackets in it than characters. -/
def decode? (text : String) : Option Json := do
  let (value, rest) ← value? text.length text.toList
  if (skipBlank rest).isEmpty then some value else none

end Json

end CppsFrontend
