import CppsFrontend.Arena.Variant

/-!
# Cells

Numbers of fixed width and runs of bytes as values of an arena.
-/

set_option autoImplicit false

namespace CppsFrontend

/-- Numbers of one, two, four and eight bytes, and runs of twelve bytes. -/
inductive Cell where
  | one
  | two
  | four
  | eight
  | twelve
deriving DecidableEq, Repr

namespace Cell

def all : List Cell := [.one, .two, .four, .eight, .twelve]

def Content : Cell → Type
  | .one => UInt8
  | .two => UInt16
  | .four => UInt32
  | .eight => UInt64
  | .twelve => Vector UInt8 12

instance : NodeKinds Cell where
  Value := Content
  layout
    | .one => ⟨1, 1⟩
    | .two => ⟨2, 2⟩
    | .four => ⟨4, 4⟩
    | .eight => ⟨8, 8⟩
    | .twelve => ⟨12, 1⟩
  decEq := inferInstance

def name : Cell → String
  | .one => "u8"
  | .two => "u16"
  | .four => "u32"
  | .eight => "u64"
  | .twelve => "u8x12"

def ofName? (name : String) : Option Cell := all.find? fun cell => cell.name == name

def contentName : Cell → String
  | .twelve => "[u8; 12]"
  | cell => cell.name

/-- A number cut to the width of a cell; a run is filled with its lowest byte. -/
def contentOf : (cell : Cell) → Nat → Content cell
  | .one, value => value.toUInt8
  | .two, value => value.toUInt16
  | .four, value => value.toUInt32
  | .eight, value => value.toUInt64
  | .twelve, value => Vector.replicate 12 value.toUInt8

def toNats : (cell : Cell) → Content cell → List Nat
  | .one, value => [UInt8.toNat value]
  | .two, value => [UInt16.toNat value]
  | .four, value => [UInt32.toNat value]
  | .eight, value => [UInt64.toNat value]
  | .twelve, value => (Vector.toList value).map UInt8.toNat

end Cell

def Node.text {cell : Cell} (node : Node cell) : String :=
  "Node<" ++ cell.contentName ++ ">#" ++ toString node.slot

/-- What a variant holds, in one line.  Only numbers of four and of eight bytes are
put into variants. -/
def Variant.text : Variant Cell → String
  | .empty => "Empty"
  | .node .eight handle => "Wide " ++ handle.text
  | .node _ handle => "Word " ++ handle.text
  | .token id => "Token " ++ toString id

end CppsFrontend
