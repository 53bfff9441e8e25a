import CppsFrontend.Arena.Cell
import CppsFrontend.Proofs.Arena.Keeping
import CppsFrontend.Proofs.Arena.Room

/-!
# An arena is a map from handles to values

An arena keeps what a ledger holds, each value for the handle in its place.  Every
operation that the ledger allows does with the arena what it does with the ledger, as long
as there are slots: it breaks no contract, has the same outcome, and the arena keeps the
values afterwards.
-/

set_option autoImplicit false

namespace CppsFrontend

open NodeKinds (Value layout)

variable {κ : Type} [NodeKinds κ]

/-! ## A place of both -/

inductive Holding (κ : Type) [NodeKinds κ] where
  | empty
  | kept (entry : Kept κ)
  | token (token : TokenId)

namespace Holding

def variant : Holding κ → Variant κ
  | .empty => .empty
  | .kept entry => .node entry.kind entry.node
  | .token id => .token id

def content : Holding κ → Content κ
  | .empty => .empty
  | .kept entry => .value ⟨entry.kind, entry.value⟩
  | .token id => .token id

def entries : Holding κ → List (Kept κ)
  | .kept entry => [entry]
  | _ => []

variable {holding : Holding κ} {stored : Stored κ}

theorem eq_empty (same : holding.content = .empty) : holding = .empty := by
  cases holding with
  | empty => rfl
  | kept entry => cases same
  | token id => cases same

theorem eq_kept (same : holding.content = .value stored) :
    ∃ node, holding = .kept ⟨stored.1, node, stored.2⟩ := by
  cases holding with
  | empty => cases same
  | token id => cases same
  | kept entry =>
      cases same
      exact ⟨entry.node, rfl⟩

/-- What a place held is given back, and everything else is kept. -/
theorem release_keeps {number capacity : Nat} (fits : ∀ kind : κ, (layout kind).Fits capacity)
    {arena : Arena κ} {kept : List (Kept κ)}
    (keeps : arena.Keeps number capacity (holding.entries ++ kept)) :
    ∃ after, holding.variant.release arena = .ok after ∧ after.Keeps number capacity kept := by
  cases holding with
  | empty => exact ⟨arena, rfl, keeps⟩
  | token id => exact ⟨arena, rfl, keeps⟩
  | kept entry =>
      have first : arena.Keeps number capacity ([] ++ entry :: kept) := keeps
      obtain ⟨after, run, rest⟩ := first.destroy (fits entry.kind).power
      refine ⟨after, ?_, rest⟩
      rw [variant, Variant.release, run]
      rfl

end Holding

section Places

variable {holdings : List (Holding κ)} {holding : Holding κ} {place : Nat} {content : Content κ}

theorem held_of_content (held : (holdings.map Holding.content)[place]? = some content) :
    ∃ holding, holdings[place]? = some holding ∧ holding.content = content := by
  rwa [List.getElem?_map, Option.map_eq_some_iff] at held

theorem variant_of_held (found : holdings[place]? = some holding) :
    (holdings.map Holding.variant)[place]? = some holding.variant := by
  rw [List.getElem?_map, found]
  rfl

theorem entries_set (inside : place < holdings.length) (holding : Holding κ) :
    ((holdings.set place holding).flatMap Holding.entries).Perm
      (holding.entries ++ (holdings.set place .empty).flatMap Holding.entries) := by
  induction holdings generalizing place with
  | nil => cases inside
  | cons first rest induction =>
      cases place with
      | zero => exact .refl _
      | succ place =>
          have inner := induction (Nat.lt_of_succ_lt_succ inside)
          simp only [List.set_cons_succ, List.flatMap_cons]
          exact (inner.append_left _).trans (List.perm_append_comm_assoc ..)

theorem entries_of (found : holdings[place]? = some holding) :
    (holdings.flatMap Holding.entries).Perm
      (holding.entries ++ (holdings.set place .empty).flatMap Holding.entries) := by
  obtain ⟨inside, same⟩ := List.getElem?_eq_some_iff.mp found
  have split := entries_set inside holding
  rwa [← same, List.set_getElem_self inside, same] at split

theorem entries_move {old : Holding κ} {source : Nat} (different : place ≠ source)
    (held : holdings[place]? = some old) (moved : holdings[source]? = some holding) :
    (holdings.flatMap Holding.entries).Perm
      (old.entries ++ (holding.entries ++
        ((holdings.set source .empty).set place .empty).flatMap Holding.entries)) := by
  have still : (holdings.set source .empty)[place]? = some old := by
    rwa [List.getElem?_set_ne different.symm]
  exact (entries_of moved).trans
    (((entries_of still).append_left _).trans (List.perm_append_comm_assoc ..))

end Places

/-- A session whose arena keeps the values of a ledger, each for the handle in its place. -/
def Session.Refines (number capacity : Nat) (session : Session κ) (ledger : Ledger κ) : Prop :=
  ∃ holdings : List (Holding κ),
    session.places = holdings.map Holding.variant ∧ ledger = holdings.map Holding.content ∧
      session.arena.Keeps number capacity (holdings.flatMap Holding.entries)

namespace Session

variable {number capacity place : Nat} {kind : κ}
variable {arena : Arena κ} {holdings : List (Holding κ)} {holding : Holding κ}
variable {session : Session κ} {ledger next last : Ledger κ}
variable {operation : Operation κ} {outcome : Outcome κ}

theorem start_refines (number capacity count : Nat) :
    (start number capacity count : Session κ).Refines number capacity (Ledger.start count) := by
  refine ⟨List.replicate count .empty, ?_, ?_, ?_⟩
  · simp only [start, List.map_replicate, Holding.variant]
  · simp only [Ledger.start, List.map_replicate, Holding.content]
  · have none : (List.replicate count (Holding.empty : Holding κ)).flatMap Holding.entries = [] :=
      List.flatMap_eq_nil_iff.mpr fun holding member => by
        rw [List.eq_of_mem_replicate member]
        rfl
    rw [none]
    exact Arena.keeps_start number capacity

theorem Refines.live (refines : session.Refines number capacity ledger) (kind : κ) :
    session.arena.live kind = ledger.live kind := by
  obtain ⟨holdings, -, rfl, keeps⟩ := refines
  rw [keeps.counted]
  clear keeps
  induction holdings with
  | nil => rfl
  | cons first rest induction =>
      rw [List.flatMap_cons, List.countP_append, induction, Ledger.live, Ledger.live,
        List.map_cons, List.countP_cons, Nat.add_comm]
      congr 1
      cases first <;> simp [Holding.entries, Holding.content, Content.isOf]

theorem Refines.value (refines : session.Refines number capacity ledger) {stored : Stored κ}
    (held : ledger[place]? = some (.value stored)) :
    ∃ node, session.places[place]? = some (.node stored.1 node) ∧
      session.arena.get node = .ok stored.2 := by
  obtain ⟨holdings, places, rfl, keeps⟩ := refines
  obtain ⟨holding, found, same⟩ := held_of_content held
  obtain ⟨node, rfl⟩ := Holding.eq_kept same
  refine ⟨node, ?_, (keeps.perm (entries_of found)).get (List.mem_cons_self ..)⟩
  rw [places]
  exact variant_of_held found

/-! ### One place changes -/

theorem refines_set (inside : place < holdings.length) (holding : Holding κ)
    (keeps : arena.Keeps number capacity
      (holding.entries ++ (holdings.set place .empty).flatMap Holding.entries)) :
    (⟨arena, (holdings.map Holding.variant).set place holding.variant⟩ : Session κ).Refines
      number capacity ((holdings.map Holding.content).set place holding.content) :=
  ⟨holdings.set place holding, List.map_set.symm, List.map_set.symm,
    keeps.perm (entries_set inside holding).symm⟩

theorem refines_move {source : Nat} (inside : place < holdings.length) (holding : Holding κ)
    (keeps : arena.Keeps number capacity
      (holding.entries ++
        ((holdings.set source .empty).set place .empty).flatMap Holding.entries)) :
    (⟨arena, ((holdings.map Holding.variant).set source .empty).set place holding.variant⟩ :
      Session κ).Refines number capacity
        (((holdings.map Holding.content).set source .empty).set place holding.content) := by
  have moved := refines_set (by rwa [List.length_set]) holding keeps
  rwa [List.map_set, List.map_set] at moved

/-! ### Operations -/

/-- An operation has the outcome and leaves an arena that keeps the values. -/
def Follows (number capacity : Nat) (session : Session κ) (operation : Operation κ)
    (outcome : Outcome κ) (next : Ledger κ) : Prop :=
  ∃ after, session.perform operation = .ok (outcome, after) ∧ after.Refines number capacity next

theorem create_follows (fits : (layout kind).Fits capacity)
    (room : arena.SlotsBelow Pool.slotBound)
    (keeps : arena.Keeps number capacity (holdings.flatMap Holding.entries))
    (found : holdings[place]? = some .empty) (value : Value kind) :
    Follows number capacity ⟨arena, holdings.map Holding.variant⟩ (.create place kind value) .done
      ((holdings.map Holding.content).set place (.value ⟨kind, value⟩)) := by
  obtain ⟨inside, _⟩ := List.getElem?_eq_some_iff.mp found
  have others := keeps.perm (entries_of found)
  obtain ⟨node, after, run, keeps⟩ := others.create fits value (room kind)
  refine ⟨⟨after, (holdings.map Holding.variant).set place (.node kind node)⟩, ?_, ?_⟩
  · simp only [perform, run]
    rfl
  · exact refines_set inside (.kept ⟨kind, node, value⟩) (keeps.perm List.perm_append_comm)

theorem set_follows {node : Node kind} {old : Value kind}
    (keeps : arena.Keeps number capacity (holdings.flatMap Holding.entries))
    (found : holdings[place]? = some (.kept ⟨kind, node, old⟩)) (value : Value kind) :
    Follows number capacity ⟨arena, holdings.map Holding.variant⟩ (.set place kind value) .done
      ((holdings.map Holding.content).set place (.value ⟨kind, value⟩)) := by
  obtain ⟨inside, same⟩ := List.getElem?_eq_some_iff.mp found
  have split : arena.Keeps number capacity ([] ++ ⟨kind, node, old⟩ :: _) :=
    keeps.perm (entries_of found)
  obtain ⟨after, run, keeps⟩ := split.set value
  -- The handle stays where it is.
  have still : (holdings.map Holding.variant).set place (.node kind node) =
      holdings.map Holding.variant := by
    obtain ⟨inside, same⟩ := List.getElem?_eq_some_iff.mp (variant_of_held found)
    have still := List.set_getElem_self inside
    rwa [same] at still
  refine ⟨⟨after, holdings.map Holding.variant⟩, ?_, ?_⟩
  · simp only [perform, variant_of_held found, Holding.variant, run]
    rfl
  · have changed := refines_set inside (.kept ⟨kind, node, value⟩) keeps
    rwa [Holding.variant, still] at changed

theorem destroy_follows {node : Node kind} {value : Value kind}
    (power : Bump.isPowerOfTwo (layout kind).alignment = true)
    (keeps : arena.Keeps number capacity (holdings.flatMap Holding.entries))
    (found : holdings[place]? = some (.kept ⟨kind, node, value⟩)) :
    Follows number capacity ⟨arena, holdings.map Holding.variant⟩ (.destroy place)
      (.value (some ⟨kind, value⟩)) ((holdings.map Holding.content).set place .empty) := by
  obtain ⟨inside, _⟩ := List.getElem?_eq_some_iff.mp found
  have split : arena.Keeps number capacity ([] ++ ⟨kind, node, value⟩ :: _) :=
    keeps.perm (entries_of found)
  obtain ⟨after, run, keeps⟩ := split.destroy power
  refine ⟨⟨after, (holdings.map Holding.variant).set place .empty⟩, ?_, ?_⟩
  · simp only [perform, variant_of_held found, Holding.variant, run]
    rfl
  · exact refines_set inside .empty keeps

theorem replace_follows {source : Nat} {moved : Holding κ}
    (fits : ∀ kind : κ, (layout kind).Fits capacity)
    (keeps : arena.Keeps number capacity (holdings.flatMap Holding.entries))
    (different : place ≠ source) (found : holdings[place]? = some holding)
    (gone : holdings[source]? = some moved) :
    Follows number capacity ⟨arena, holdings.map Holding.variant⟩ (.replace place source) .done
      (((holdings.map Holding.content).set source .empty).set place moved.content) := by
  obtain ⟨inside, _⟩ := List.getElem?_eq_some_iff.mp found
  have split := keeps.perm (entries_move different found gone)
  obtain ⟨after, run, keeps⟩ := Holding.release_keeps fits split
  refine ⟨⟨after, ((holdings.map Holding.variant).set source .empty).set place moved.variant⟩,
    ?_, ?_⟩
  · simp only [perform, variant_of_held found, variant_of_held gone, Variant.replace, run]
    rfl
  · exact refines_move inside moved keeps

theorem replaceToken_follows (fits : ∀ kind : κ, (layout kind).Fits capacity)
    (keeps : arena.Keeps number capacity (holdings.flatMap Holding.entries))
    (found : holdings[place]? = some holding) (token : TokenId) :
    Follows number capacity ⟨arena, holdings.map Holding.variant⟩ (.replaceToken place token)
      .done ((holdings.map Holding.content).set place (.token token)) := by
  obtain ⟨inside, _⟩ := List.getElem?_eq_some_iff.mp found
  obtain ⟨after, run, keeps⟩ := Holding.release_keeps fits (keeps.perm (entries_of found))
  refine ⟨⟨after, (holdings.map Holding.variant).set place (.token token)⟩, ?_, ?_⟩
  · simp only [perform, variant_of_held found, Variant.replace, run]
    rfl
  · exact refines_set inside (.token token) keeps

theorem release_follows (fits : ∀ kind : κ, (layout kind).Fits capacity)
    (keeps : arena.Keeps number capacity (holdings.flatMap Holding.entries))
    (found : holdings[place]? = some holding) :
    Follows number capacity ⟨arena, holdings.map Holding.variant⟩ (.release place) .done
      ((holdings.map Holding.content).set place .empty) := by
  obtain ⟨inside, _⟩ := List.getElem?_eq_some_iff.mp found
  obtain ⟨after, run, keeps⟩ := Holding.release_keeps fits (keeps.perm (entries_of found))
  refine ⟨⟨after, (holdings.map Holding.variant).set place .empty⟩, ?_, ?_⟩
  · simp only [perform, variant_of_held found, run]
    rfl
  · exact refines_set inside .empty keeps

theorem take_follows {target : Nat}
    (keeps : arena.Keeps number capacity (holdings.flatMap Holding.entries))
    (different : place ≠ target) (found : holdings[place]? = some holding)
    (room : holdings[target]? = some .empty) :
    Follows number capacity ⟨arena, holdings.map Holding.variant⟩ (.take place target) .done
      (((holdings.map Holding.content).set place .empty).set target holding.content) := by
  obtain ⟨inside, _⟩ := List.getElem?_eq_some_iff.mp room
  have split := keeps.perm (entries_move different.symm room found)
  refine ⟨⟨arena, ((holdings.map Holding.variant).set place .empty).set target holding.variant⟩,
    ?_, ?_⟩
  · simp only [perform, variant_of_held found]
    rfl
  · exact refines_move inside holding split

/-- One operation does with the arena what it does with the values. -/
theorem step_follows (fits : ∀ kind : κ, (layout kind).Fits capacity)
    (room : session.arena.SlotsBelow Pool.slotBound)
    (refines : session.Refines number capacity ledger)
    (step : ledger.Step operation outcome next) :
    session.Follows number capacity operation outcome next := by
  have counted := refines.live
  obtain ⟨arena, places⟩ := session
  obtain ⟨holdings, rfl, rfl, keeps⟩ := refines
  cases step with
  | create free =>
      obtain ⟨holding, found, same⟩ := held_of_content free
      obtain rfl := Holding.eq_empty same
      exact create_follows (fits _) room keeps found _
  | get held =>
      obtain ⟨node, found, value⟩ := Refines.value ⟨holdings, rfl, rfl, keeps⟩ held
      refine ⟨⟨arena, holdings.map Holding.variant⟩, ?_, holdings, rfl, rfl, keeps⟩
      simp only [perform, found, value]
      rfl
  | set held =>
      obtain ⟨holding, found, same⟩ := held_of_content held
      obtain ⟨node, rfl⟩ := Holding.eq_kept same
      exact set_follows keeps found _
  | destroy held =>
      obtain ⟨holding, found, same⟩ := held_of_content held
      obtain ⟨node, rfl⟩ := Holding.eq_kept same
      exact destroy_follows (fits _).power keeps found
  | replace different held moved =>
      obtain ⟨holding, found, rfl⟩ := held_of_content held
      obtain ⟨other, gone, rfl⟩ := held_of_content moved
      exact replace_follows fits keeps different found gone
  | replaceToken held =>
      obtain ⟨holding, found, rfl⟩ := held_of_content held
      exact replaceToken_follows fits keeps found _
  | release held =>
      obtain ⟨holding, found, rfl⟩ := held_of_content held
      exact release_follows fits keeps found
  | take different held free =>
      obtain ⟨holding, found, rfl⟩ := held_of_content held
      obtain ⟨other, room, same⟩ := held_of_content free
      obtain rfl := Holding.eq_empty same
      exact take_follows keeps different found room
  | live =>
      refine ⟨⟨arena, holdings.map Holding.variant⟩, ?_, holdings, rfl, rfl, keeps⟩
      rw [perform, counted]
      rfl

/-- Every run of operations does with the arena what it does with the values. -/
theorem run_follows (fits : ∀ kind : κ, (layout kind).Fits capacity)
    {operations : List (Operation κ)} {outcomes : List (Outcome κ)}
    (room : session.HasRoom operations)
    (refines : session.Refines number capacity ledger)
    (run : ledger.Run operations outcomes last) :
    ∃ after, session.run operations = .ok (outcomes, after) ∧
      after.Refines number capacity last := by
  induction run generalizing session with
  | nil => exact ⟨session, rfl, refines⟩
  | cons first rest induction =>
      obtain ⟨middle, performed, refines⟩ := step_follows fits room.first refines first
      obtain ⟨after, finished, refines⟩ := induction (room.rest performed) refines
      refine ⟨after, ?_, refines⟩
      simp only [Session.run, performed, bind, Except.bind, finished]
      rfl

/-- A program that uses the handles it has, and each no more once it is used up, runs in a
new arena as on a ledger, as long as every pool has a slot for another value: no step breaks
a contract, every outcome is the ledger's, and then every handle finds its value, and as
many values of a kind are live as are held. -/
theorem run_of_ledger (fits : ∀ kind : κ, (layout kind).Fits capacity) (number count : Nat)
    {operations : List (Operation κ)} {outcomes : List (Outcome κ)}
    (room : (start number capacity count : Session κ).HasRoom operations)
    (run : (Ledger.start count).Run operations outcomes last) :
    ∃ after, (start number capacity count).run operations = .ok (outcomes, after) ∧
      (∀ kind, after.arena.live kind = last.live kind) ∧
      ∀ (place : Nat) (stored : Stored κ), last[place]? = some (Content.value stored) →
        ∃ node, after.places[place]? = some (Variant.node stored.1 node) ∧
          after.arena.get node = .ok stored.2 := by
  obtain ⟨after, finished, refines⟩ :=
    run_follows fits room (start_refines number capacity count) run
  exact ⟨after, finished, refines.live, fun _ _ held => refines.value held⟩

theorem run_of_ledger_cells :
    ∃ after : Session Cell,
      (start 0 64 2).run
        [.create 0 .four (Cell.contentOf .four 7), .create 1 .eight (Cell.contentOf .eight 8),
          .set 0 .four (Cell.contentOf .four 9), .get 0, .replace 0 1, .live .four, .destroy 0,
          .create 1 .four (Cell.contentOf .four 5), .live .four] =
        .ok ([.done, .done, .done, .value (some ⟨.four, Cell.contentOf .four 9⟩), .done, .live 0,
          .value (some ⟨.eight, Cell.contentOf .eight 8⟩), .done, .live 1], after) ∧
      (∀ kind, after.arena.live kind =
        Ledger.live kind [.empty, .value ⟨.four, Cell.contentOf .four 5⟩]) ∧
      ∀ (place : Nat) (stored : Stored Cell),
        ([.empty, .value ⟨.four, Cell.contentOf .four 5⟩] : Ledger Cell)[place]? =
            some (Content.value stored) →
          ∃ node, after.places[place]? = some (Variant.node stored.1 node) ∧
            after.arena.get node = .ok stored.2 := by
  refine run_of_ledger ?_ 0 2 ?_ ?_
  · intro kind
    cases kind <;> exact ⟨by decide, by decide, by decide⟩
  · exact hasRoom_of_length 0 64 2 (by decide)
  · refine .cons (.create rfl) (.cons (.create rfl) (.cons (.set rfl) (.cons (.get rfl) ?_)))
    refine .cons (.replace (by decide) rfl rfl) (.cons .live (.cons (.destroy rfl) ?_))
    exact .cons (.create rfl) (.cons .live .nil)

end Session

end CppsFrontend
