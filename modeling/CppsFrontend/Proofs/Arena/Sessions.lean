import CppsFrontend.Arena.Variant

/-!
# Programs that use an arena

A program has places for handles and variants.  A handle cannot be copied, so it is in one
place only, and a place that it was moved from is empty.  A handle that is dropped without
being used up is one whose place no operation names again: its value stays live.  What the
program does with its places and one arena is to be what it would do with places that hold the
values themselves: `Ledger` is that map from places to values, and `Ledger.Step` what each
operation does with it.
-/

set_option autoImplicit false

namespace CppsFrontend

open NodeKinds (Value)

variable {κ : Type} [NodeKinds κ]

abbrev Stored (κ : Type) [NodeKinds κ] : Type := Sigma fun kind : κ => Value kind

/-! ## What a program does -/

/-- One use of an arena.  `replace` moves what another place holds, and `take` moves what a
place holds to another one. -/
inductive Operation (κ : Type) [NodeKinds κ] where
  | create (place : Nat) (kind : κ) (value : Value kind)
  | get (place : Nat)
  | set (place : Nat) (kind : κ) (value : Value kind)
  | destroy (place : Nat)
  | replace (place source : Nat)
  | replaceToken (place : Nat) (token : TokenId)
  | release (place : Nat)
  | take (place target : Nat)
  | live (kind : κ)

inductive Outcome (κ : Type) [NodeKinds κ] where
  | done
  | value (value : Option (Stored κ))
  | live (count : Nat)

structure Session (κ : Type) [NodeKinds κ] where
  arena : Arena κ
  places : List (Variant κ)

namespace Session

def start (number capacity count : Nat) : Session κ :=
  ⟨.start number capacity, List.replicate count .empty⟩

variable (session : Session κ)

/-- Nothing is done with a place that does not hold what is needed; no program does that. -/
def perform : Operation κ → Except Breach (Outcome κ × Session κ)
  | .create place kind value => do
      let (node, arena) ← session.arena.create kind value
      return (.done, ⟨arena, session.places.set place (.node kind node)⟩)
  | .get place =>
      match session.places[place]? with
      | some (.node kind node) => do
          let value ← session.arena.get node
          return (.value (some ⟨kind, value⟩), session)
      | _ => return (.value none, session)
  | .set place kind value =>
      match session.places[place]? with
      | some (.node held node) =>
          if same : kind = held then do
            let arena ← session.arena.set node (same ▸ value)
            return (.done, ⟨arena, session.places⟩)
          else return (.done, session)
      | _ => return (.done, session)
  | .destroy place =>
      match session.places[place]? with
      | some (.node kind node) => do
          let (value, arena) ← session.arena.destroy node
          return (.value (value.map (⟨kind, ·⟩)), ⟨arena, session.places.set place .empty⟩)
      | _ => return (.value none, session)
  | .replace place source =>
      match session.places[place]?, session.places[source]? with
      | some held, some moved => do
          let (variant, arena) ← held.replace moved session.arena
          return (.done, ⟨arena, (session.places.set source .empty).set place variant⟩)
      | _, _ => return (.done, session)
  | .replaceToken place token =>
      match session.places[place]? with
      | some held => do
          let (variant, arena) ← held.replace (.token token) session.arena
          return (.done, ⟨arena, session.places.set place variant⟩)
      | none => return (.done, session)
  | .release place =>
      match session.places[place]? with
      | some held => do
          let arena ← held.release session.arena
          return (.done, ⟨arena, session.places.set place .empty⟩)
      | none => return (.done, session)
  | .take place target =>
      match session.places[place]? with
      | some held =>
          return (.done, ⟨session.arena, (session.places.set place held.take.2).set target
            held.take.1⟩)
      | none => return (.done, session)
  | .live kind => return (.live (session.arena.live kind), session)

def run (session : Session κ) : List (Operation κ) → Except Breach (List (Outcome κ) × Session κ)
  | [] => return ([], session)
  | operation :: operations => do
      let (outcome, session) ← session.perform operation
      let (outcomes, session) ← session.run operations
      return (outcome :: outcomes, session)

end Session

/-! ## The map from places to values -/

/-- What a place holds: the value that a handle stands for, a token, or nothing. -/
inductive Content (κ : Type) [NodeKinds κ] where
  | empty
  | value (stored : Stored κ)
  | token (token : TokenId)

def Content.isOf (kind : κ) : Content κ → Bool
  | .value stored => stored.1 = kind
  | _ => false

abbrev Ledger (κ : Type) [NodeKinds κ] : Type := List (Content κ)

namespace Ledger

def start (count : Nat) : Ledger κ := List.replicate count .empty

def live (kind : κ) (ledger : Ledger κ) : Nat := ledger.countP (Content.isOf kind)

/-- What an operation does with the values.  A handle is used where it is, and not any more
once it is used up. -/
inductive Step (ledger : Ledger κ) : Operation κ → Outcome κ → Ledger κ → Prop where
  | create {place : Nat} {kind : κ} {value : Value kind} (free : ledger[place]? = some .empty) :
      Step ledger (.create place kind value) .done (ledger.set place (.value ⟨kind, value⟩))
  | get {place : Nat} {stored : Stored κ} (held : ledger[place]? = some (.value stored)) :
      Step ledger (.get place) (.value (some stored)) ledger
  | set {place : Nat} {kind : κ} {old value : Value kind}
      (held : ledger[place]? = some (.value ⟨kind, old⟩)) :
      Step ledger (.set place kind value) .done (ledger.set place (.value ⟨kind, value⟩))
  | destroy {place : Nat} {stored : Stored κ} (held : ledger[place]? = some (.value stored)) :
      Step ledger (.destroy place) (.value (some stored)) (ledger.set place .empty)
  | replace {place source : Nat} {old content : Content κ} (different : place ≠ source)
      (held : ledger[place]? = some old) (moved : ledger[source]? = some content) :
      Step ledger (.replace place source) .done ((ledger.set source .empty).set place content)
  | replaceToken {place : Nat} {old : Content κ} {token : TokenId}
      (held : ledger[place]? = some old) :
      Step ledger (.replaceToken place token) .done (ledger.set place (.token token))
  | release {place : Nat} {old : Content κ} (held : ledger[place]? = some old) :
      Step ledger (.release place) .done (ledger.set place .empty)
  | take {place target : Nat} {content : Content κ} (different : place ≠ target)
      (held : ledger[place]? = some content) (free : ledger[target]? = some .empty) :
      Step ledger (.take place target) .done ((ledger.set place .empty).set target content)
  | live {kind : κ} : Step ledger (.live kind) (.live (live kind ledger)) ledger

inductive Run : Ledger κ → List (Operation κ) → List (Outcome κ) → Ledger κ → Prop where
  | nil {ledger : Ledger κ} : Run ledger [] [] ledger
  | cons {ledger next last : Ledger κ} {operation : Operation κ} {operations : List (Operation κ)}
      {outcome : Outcome κ} {outcomes : List (Outcome κ)}
      (first : Step ledger operation outcome next) (rest : Run next operations outcomes last) :
      Run ledger (operation :: operations) (outcome :: outcomes) last

end Ledger

end CppsFrontend
