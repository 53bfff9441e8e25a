import CppsFrontend.Grammar.Error
import CppsFrontend.Token.Stream

/-!
# Productions

A production reads tokens from a position on and either derives a value or fails.
It moves the position and appends reports, and both stay as they are when it
fails: what a wrapping production says about the failure depends on where the
inner one stopped.  `restoring` puts the position back after a failure.

`collect` repeats a round as long as it asks for more and has moved forward.
-/

set_option autoImplicit false

namespace CppsFrontend

/-- Whether a wrapping production still reports a failure that an inner one has
explained already. -/
inductive Reporting where
  | filtered
  | verbatim
deriving DecidableEq, Repr

namespace TokenStream

def before (stream : TokenStream) : Nat → Token
  | 0 => .invalid
  | position + 1 => stream.get position

def isPast (stream : TokenStream) (position : Nat) : Bool := stream.size ≤ position

/-- Where a report about a position belongs: at its token, or at the last one when
there are no more. -/
def reportLocation (stream : TokenStream) (position : Nat) : Location :=
  if stream.isPast position then
    match stream.tokens.back? with
    | some last => last.location
    | none => .unknown
  else (stream.get position).location

end TokenStream

namespace Grammar

structure Input where
  stream : TokenStream
  reporting : Reporting

/-- What productions change: the place of the next token, and the reports so far. -/
structure State where
  position : Nat
  reports : Array Entry

/-- A production for values of a type; `none` is a failure. -/
def Production (α : Type) : Type := Input → State → Option α × State

namespace Production

variable {α β : Type}

@[inline] protected def pure (value : α) : Production α := fun _ state => (some value, state)

@[inline] protected def bind (production : Production α) (next : α → Production β) : Production β :=
  fun input state =>
    match production input state with
    | (some value, state) => next value input state
    | (none, state) => (none, state)

instance : Monad Production where
  pure := Production.pure
  bind := Production.bind

@[inline] def fail : Production α := fun _ state => (none, state)

@[inline] def outcome (production : Production α) : Production (Option α) :=
  fun input state =>
    match production input state with
    | (result, state) => (some result, state)

@[inline] def restoring (production : Production α) : Production α :=
  fun input state =>
    match production input state with
    | (none, after) => (none, { after with position := state.position })
    | success => success

/-! ## Tokens -/

@[inline] def current : Production Token :=
  fun input state => (some (input.stream.get state.position), state)

@[inline] def lexeme : Production Lexeme :=
  fun input state => (some (input.stream.get state.position).lexeme, state)

@[inline] def peek (distance : Nat) : Production Token :=
  fun input state => (some (input.stream.get (state.position + distance)), state)

@[inline] def previous : Production Token :=
  fun input state => (some (input.stream.before state.position), state)

@[inline] def isAtEnd : Production Bool :=
  fun input state => (some (input.stream.isPast state.position), state)

@[inline] def position : Production Nat := fun _ state => (some state.position, state)

@[inline] def returnTo (position : Nat) : Production Unit :=
  fun _ state => (some (), { state with position := position })

@[inline] def here : Production Location :=
  fun input state => (some (input.stream.reportLocation state.position), state)

@[inline] def check (lexeme : Lexeme) : Production Bool :=
  fun input state => (some ((input.stream.get state.position).lexeme = lexeme), state)

@[inline] def advance : Production TokenId :=
  fun input state =>
    (some state.position,
      if input.stream.isPast state.position then state
      else { state with position := state.position + 1 })

def expect (lexeme : Lexeme) : Production TokenId := do
  if ← check lexeme then advance else fail

def eat (lexeme : Lexeme) : Production (Option TokenId) := outcome (expect lexeme)

/-! ## Reports -/

@[inline] def report (error : GrammarError) (location : Location) : Production Unit :=
  fun _ state =>
    (some (), { state with reports := state.reports.push (error.entry location) })

@[inline] def reportCount : Production Nat :=
  fun _ state => (some state.reports.size, state)

/-- Whether a failure needs no further report: follow-on reports are filtered, and
there is one since a count was taken. -/
@[inline] def isExplained (before : Nat) : Production Bool :=
  fun input state =>
    (some (input.reporting = .filtered && before < state.reports.size), state)

def reportFollowOn (before : Nat) (error : GrammarError) (location : Location) :
    Production Unit := do
  unless ← isExplained before do
    report error location

def reject (error : GrammarError) (location : Location) : Production α := do
  report error location
  fail

/-- The production; its failure is reported at a location unless it is explained. -/
def orRejectAt (production : Production α) (error : GrammarError) (location : Location) :
    Production α := do
  let before ← reportCount
  match ← outcome production with
  | some value => pure value
  | none =>
      reportFollowOn before error location
      fail

def orReject (production : Production α) (error : GrammarError) : Production α := do
  let before ← reportCount
  match ← outcome production with
  | some value => pure value
  | none =>
      reportFollowOn before error (← here)
      fail

/-! ## Choice and repetition -/

def either (first second : Production α) : Production α := do
  match ← outcome first with
  | some value => pure value
  | none => second

/-- The first of several productions that succeeds.  The search ends early when a
failure is explained by a report since a count was taken. -/
def firstOf (before : Nat) : List (Production α) → Production α
  | [] => fail
  | production :: rest => do
      match ← outcome production with
      | some value => pure value
      | none => if ← isExplained before then fail else firstOf before rest

inductive Round (α : Type) where
  | stop
  | last (value : α)
  | more (value : α)

def remaining (input : Input) (state : State) : Nat := input.stream.size - state.position

/-- Repeats a round, with the values of earlier rounds, latest first.  A round that
asks for more without moving forward ends in failure. -/
def collectAfter (round : Production (Round α)) (earlier : List α) (input : Input)
    (state : State) : Option (List α) × State :=
  match round input state with
  | (none, after) => (none, after)
  | (some .stop, after) => (some earlier.reverse, after)
  | (some (.last value), after) => (some (value :: earlier).reverse, after)
  | (some (.more value), after) =>
      if remaining input after < remaining input state then
        collectAfter round (value :: earlier) input after
      else (none, after)
termination_by remaining input state

def collect (round : Production (Round α)) : Production (List α) :=
  collectAfter round []

end Production

end Grammar

end CppsFrontend
