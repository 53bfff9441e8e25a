import CppsFrontend.Breach
import CppsFrontend.Token.Basic

/-!
# Token streams

A stream keeps its tokens in source order together with two tables.  The sparse table has a
slot for each line up to the last one that has a token; the dense table has a range of places
for each line that has tokens.  A slot is an index of the dense table, or `noLine`, so a query
about a line is two look-ups.
-/

set_option autoImplicit false

namespace CppsFrontend

/-- The place of a token; places are below two to the power of 32. -/
def TokenId.ofIndex? (index : Nat) : Except Breach TokenId :=
  if index < 4294967296 then .ok index else .error (.tokenIndexTooLarge index)

/-- The places `first`, ..., `stop - 1` of a stream. -/
structure TokenRange where
  first : Nat
  stop : Nat
deriving DecidableEq, Repr

structure LineTables where
  sparse : Array UInt32
  dense : Array TokenRange

def TokenStream.lineOf (token : Token) : Nat := Location.rank token.location.line

namespace LineTables

open TokenStream (lineOf)

/-- The slot of a line without tokens. -/
def noLine : UInt32 := 4294967295

def empty (lineCount : Nat) : LineTables := ⟨Array.replicate lineCount noLine, #[]⟩

variable (tables : LineTables)

def range? (line : Nat) : Option TokenRange :=
  match tables.sparse[line]? with
  | some slot => if slot = noLine then none else tables.dense[slot.toNat]?
  | none => none

/-- The latest range must not begin on a later line. -/
def checkOrder (tokens : Array Token) (line : Nat) : Except Breach Unit :=
  match tables.dense.back? with
  | none => .ok ()
  | some latest =>
      match tokens[latest.first]? with
      | none => .error (.indexOutOfBounds tokens.size latest.first)
      | some first => if lineOf first ≤ line then .ok () else .error .linesOutOfOrder

/-- A slot is of 32 bits; an index that has more is `noLine`. -/
def newRange (line place : Nat) : LineTables where
  sparse := tables.sparse.setIfInBounds line (UInt32.ofNatClamp tables.dense.size)
  dense := tables.dense.push ⟨place, place + 1⟩

def growLatest (place : Nat) : LineTables where
  sparse := tables.sparse
  dense := tables.dense.modify (tables.dense.size - 1) fun latest =>
    { latest with stop := place + 1 }

/-- The tables with the token at a place.  The first one of a line begins a range. -/
def add (tokens : Array Token) (place : Nat) (token : Token) : Except Breach LineTables := do
  tables.checkOrder tokens (lineOf token)
  match tables.sparse[lineOf token]? with
  | none => .error (.indexOutOfBounds tables.sparse.size (lineOf token))
  | some slot =>
      .ok (if slot = noLine then tables.newRange (lineOf token) place else tables.growLatest place)

def addFrom (tables : LineTables) (tokens : Array Token) (place : Nat) :
    List Token → Except Breach LineTables
  | [] => .ok tables
  | token :: rest => do (← tables.add tokens place token).addFrom tokens (place + 1) rest

def ofTokens? (tokens : Array Token) : Except Breach LineTables :=
  let lineCount := match tokens.back? with
    | some last => lineOf last + 1
    | none => 0
  (empty lineCount).addFrom tokens 0 tokens.toList

end LineTables

structure TokenStream where
  tokens : Array Token
  tables : LineTables

namespace TokenStream

def ofTokens? (tokens : List Token) : Except Breach TokenStream := do
  return ⟨tokens.toArray, ← LineTables.ofTokens? tokens.toArray⟩

/-- The stream of tokens that are in line order; any others have empty tables. -/
def ofTokens (tokens : List Token) : TokenStream where
  tokens := tokens.toArray
  tables := match LineTables.ofTokens? tokens.toArray with
    | .ok tables => tables
    | .error _ => .empty 0

instance : Inhabited TokenStream := ⟨ofTokens []⟩

variable (stream : TokenStream)

def size : Nat := stream.tokens.size

/-- The highest line that has a token, plus one; zero without tokens. -/
def lineCount : Nat := stream.tables.sparse.size

def get (place : Nat) : Token := stream.tokens[place]?.getD .invalid

def hasLine (line : Nat) : Bool := (stream.tables.range? line).isSome

def countOn (line : Nat) : Nat :=
  match stream.tables.range? line with
  | some range => range.stop - range.first
  | none => 0

def on (line : Nat) : Array Token :=
  match stream.tables.range? line with
  | some range => stream.tokens.extract range.first range.stop
  | none => #[]

def atLine? (line place : Nat) : Option Token := (stream.on line)[place]?

end TokenStream

end CppsFrontend
