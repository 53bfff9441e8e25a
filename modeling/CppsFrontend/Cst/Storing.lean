import CppsFrontend.Cst.Node
import CppsFrontend.Grammar.Production

/-!
# Productions that store nodes

A storing production reads tokens as other productions do, and keeps the nodes of what it
derives in an arena.  A failure puts no node back: what was stored for an alternative that
fails later stays in the arena, and no handle reaches it.
-/

set_option autoImplicit false

namespace CppsFrontend

open Grammar

variable [NodeKind.Layouts]

/-- A storing production for values of a type; `none` is a failure. -/
def Storing (α : Type) : Type :=
  Input → State → Arena NodeKind → Except Breach (Option α × State × Arena NodeKind)

namespace Storing

variable {α β σ : Type}

protected def pure (value : α) : Storing α := fun _ state arena => .ok (some value, state, arena)

protected def bind (production : Storing α) (next : α → Storing β) : Storing β :=
  fun input state arena =>
    match production input state arena with
    | .ok (some value, state, arena) => next value input state arena
    | .ok (none, state, arena) => .ok (none, state, arena)
    | .error breach => .error breach

instance : Monad Storing where
  pure := Storing.pure
  bind := Storing.bind

def reading (production : Production α) : Storing α :=
  fun input state arena =>
    .ok ((production input state).1, (production input state).2, arena)

instance : MonadLift Production Storing := ⟨reading⟩

def fail : Storing α := reading Production.fail

def outcome (production : Storing α) : Storing (Option α) :=
  fun input state arena =>
    match production input state arena with
    | .ok (result, state, arena) => .ok (some result, state, arena)
    | .error breach => .error breach

def restoring (production : Storing α) : Storing α :=
  fun input state arena =>
    match production input state arena with
    | .ok (none, after, arena) => .ok (none, { after with position := state.position }, arena)
    | other => other

/-! ## Nodes -/

variable {kind : NodeKind}

def create (kind : NodeKind) (content : kind.Content) : Storing (Node kind) :=
  fun _ state arena => do
    let (node, arena) ← arena.create kind content
    return (some node, state, arena)

def get (node : Node kind) : Storing kind.Content :=
  fun _ state arena => do
    let content ← arena.get node
    return (some content, state, arena)

def set (node : Node kind) (content : kind.Content) : Storing Unit :=
  fun _ state arena => do
    let arena ← arena.set node content
    return (some (), state, arena)

def destroy (node : Node kind) : Storing Unit :=
  fun _ state arena => do
    let (_, arena) ← arena.destroy node
    return (some (), state, arena)

/-! ## Reports -/

def orRejectAt (production : Storing α) (error : GrammarError) (location : Location) :
    Storing α := do
  let before ← Production.reportCount
  match ← outcome production with
  | some value => pure value
  | none =>
      Production.reportFollowOn before error location
      fail

def orReject (production : Storing α) (error : GrammarError) : Storing α := do
  let before ← Production.reportCount
  match ← outcome production with
  | some value => pure value
  | none =>
      Production.reportFollowOn before error (← Production.here)
      fail

/-! ## Choice and repetition -/

def either (first second : Storing α) : Storing α := do
  match ← outcome first with
  | some value => pure value
  | none => second

/-- The first of several productions that succeeds.  The search ends early when a
failure is explained by a report since a count was taken. -/
def firstOf (before : Nat) : List (Storing α) → Storing α
  | [] => fail
  | production :: rest => do
      match ← outcome production with
      | some value => pure value
      | none => if ← Production.isExplained before then fail else firstOf before rest

/-- Repeats a round that goes on from what the rounds before it have made.  A round that
asks for more without moving forward ends in failure. -/
def loop (round : σ → Storing (Production.Round σ)) (made : σ) (input : Input) (state : State)
    (arena : Arena NodeKind) : Except Breach (Option σ × State × Arena NodeKind) :=
  match round made input state arena with
  | .error breach => .error breach
  | .ok (none, after, arena) => .ok (none, after, arena)
  | .ok (some .stop, after, arena) => .ok (some made, after, arena)
  | .ok (some (.last next), after, arena) => .ok (some next, after, arena)
  | .ok (some (.more next), after, arena) =>
      if Production.remaining input after < Production.remaining input state then
        loop round next input after arena
      else .ok (none, after, arena)
termination_by Production.remaining input state

def collect (round : Storing (Production.Round α)) : Storing (List α) :=
  loop (fun earlier => do
    match ← round with
    | .stop => return .stop
    | .last value => return .last (earlier ++ [value])
    | .more value => return .more (earlier ++ [value])) []

end Storing

end CppsFrontend
