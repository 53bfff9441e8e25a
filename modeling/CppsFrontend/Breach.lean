/-!
# Breaches of contract

Some operations are only defined for callers that keep to a contract: tokens
handed over in line order, memory given back to the arena that it came from.
A breach is the rule that a caller broke.
-/

set_option autoImplicit false

namespace CppsFrontend

inductive Breach where
  | linesOutOfOrder
  | indexOutOfBounds (length index : Nat)
  | tokenIndexTooLarge (index : Nat)
  | alignmentNotPowerOfTwo
  | allocationLargerThanBlock
  | deallocationExceedsAllocation
  | foreignArenaUse
  | foreignArenaRelease
  | deadNodeUse
  | slotTooLarge (slot : Nat)
deriving DecidableEq, Repr

def Breach.message : Breach → String
  | .linesOutOfOrder => "tokens must arrive in line order"
  | .indexOutOfBounds length index =>
      "index out of bounds: the len is " ++ toString length ++ " but the index is " ++
        toString index
  | .tokenIndexTooLarge index =>
      "token index " ++ toString index ++ " exceeds u32::MAX"
  | .alignmentNotPowerOfTwo => "alignment must be a power of two"
  | .allocationLargerThanBlock => "allocation larger than a block"
  | .deallocationExceedsAllocation => "deallocated size exceeds the allocation"
  | .foreignArenaUse =>
      "assertion `left == right` failed: node used with a foreign arena"
  | .foreignArenaRelease =>
      "assertion `left == right` failed: node destroyed in a foreign arena"
  | .deadNodeUse => "node handle does not refer to a live value in this arena"
  | .slotTooLarge slot =>
      "arena pool exceeds u32::MAX slots (" ++ toString slot ++ ")"

end CppsFrontend
