/-!
# Physical lines

A file is bytes.  Line feeds separate its lines, and one at the very end of the
file starts no other line; a carriage return before a line feed belongs to the
line break.  A line that is not UTF-8 cannot be read.
-/

set_option autoImplicit false

namespace CppsFrontend

/-- A line of a file without its line break; `none` cannot be read. -/
abbrev PhysicalLine := Option String

namespace PhysicalLine

def lineFeed : UInt8 := 10

def carriageReturn : UInt8 := 13

/-- The stretches between line feeds; one more than there are line feeds. -/
def split (bytes : List UInt8) : List (List UInt8) :=
  bytes.foldr (fun byte lines =>
    match lines with
    | line :: rest => if byte = lineFeed then [] :: line :: rest else (byte :: line) :: rest
    | [] => [[byte]]) [[]]

def withoutLast (byte : UInt8) (bytes : List UInt8) : List UInt8 :=
  if bytes.getLast? = some byte then bytes.dropLast else bytes

def decode (line : List UInt8) : PhysicalLine :=
  String.fromUTF8? (withoutLast carriageReturn line).toByteArray

/-- The lines of a file.  A file of no bytes, or of a lone line feed, has none. -/
def ofBytes (bytes : List UInt8) : List PhysicalLine :=
  let content := withoutLast lineFeed bytes
  if content.isEmpty then [] else (split content).map decode

end PhysicalLine

end CppsFrontend
