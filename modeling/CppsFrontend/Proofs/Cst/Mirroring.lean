import Mathlib.Data.List.Forall2
import CppsFrontend.Proofs.Cst.Owning
import CppsFrontend.Proofs.Grammar.Run

/-!
# Storing productions as mirrors

A storing production mirrors a production: it moves and reports alike, derives a value where
the other does, and the nodes of that value denote what the other derives.  What is in hand
are the parts that the nodes to come are made of; after a failure they are garbage.  Whatever
else an arena owns stays as it is, so each production is looked at by itself.
-/

set_option autoImplicit false

namespace CppsFrontend

theorem Cst.Each.snoc [NodeKind.Layouts] {α β : Type} {denotes : α → β → List Part → Prop}
    {values : List α} {trees : List β} {value : α} {tree : β} {parts others : List Part}
    (each : Cst.Each denotes values trees parts) (last : denotes value tree others) :
    Cst.Each denotes (values ++ [value]) (trees ++ [tree]) (parts ++ others) := by
  induction each with
  | nil =>
      rw [List.nil_append, List.nil_append, List.nil_append, ← List.append_nil others]
      exact .cons last .nil
  | cons first rest induction =>
      rw [List.append_assoc]
      exact .cons first induction

theorem Grammar.Production.bind_pure {α : Type} (production : Production α) :
    production >>= Pure.pure = production := by
  funext input state
  rw [bind_apply]
  rcases production input state with ⟨_ | value, after⟩ <;> rfl

namespace Storing

open Grammar

variable [NodeKind.Layouts] {α β γ δ σ : Type}

/-- What a storing production leaves, with what a production derives beside it. -/
inductive Agrees (size : Nat) (frame : List Part) (denotes : α → β → List Part → Prop) :
    Option α → Option β → Arena NodeKind → Prop where
  | success {value : α} {tree : β} {parts : List Part} {arena : Arena NodeKind}
      (same : denotes value tree parts) (owns : arena.Owns size (parts ++ frame)) :
      Agrees size frame denotes (some value) (some tree) arena
  | failure {arena : Arena NodeKind} (owns : arena.Owns size frame) :
      Agrees size frame denotes none none arena

/-- A storing production does in every arena that owns what is in hand what a production
does, and breaks no contract, unless the slots are exhausted. -/
def Mirrors (input : Input) (state : State) (hand : List Part) (storing : Storing α)
    (production : Production β) (denotes : α → β → List Part → Prop) : Prop :=
  ∀ arena frame, arena.Owns input.stream.size (hand ++ frame) →
    Exhausts (storing input state arena) ∨
      ∃ result after,
        storing input state arena = .ok (result, (production input state).2, after) ∧
          Agrees input.stream.size frame denotes result (production input state).1 after

variable {input : Input} {state : State} {hand : List Part}
variable {storing : Storing α} {production : Production β}
variable {one : α → β → List Part → Prop} {denotes : γ → δ → List Part → Prop}

/-! ## Runs -/

theorem bind_ok {next : α → Storing γ} {value : α} {after : State} {arena middle : Arena NodeKind}
    (run : storing input state arena = .ok (some value, after, middle)) :
    (storing >>= next) input state arena = next value input after middle := by
  simp only [Bind.bind, Storing.bind, run]

theorem bind_none {next : α → Storing γ} {after : State} {arena middle : Arena NodeKind}
    (run : storing input state arena = .ok (none, after, middle)) :
    (storing >>= next) input state arena = .ok (none, after, middle) := by
  simp only [Bind.bind, Storing.bind, run]

theorem bind_exhausts {next : α → Storing γ} {arena : Arena NodeKind}
    (run : Exhausts (storing input state arena)) :
    Exhausts ((storing >>= next) input state arena) := by
  obtain ⟨slot, full, run⟩ := run
  refine ⟨slot, full, ?_⟩
  simp only [Bind.bind, Storing.bind, run]

theorem outcome_exhausts {arena : Arena NodeKind} (run : Exhausts (storing input state arena)) :
    Exhausts (storing.outcome input state arena) := by
  obtain ⟨slot, full, run⟩ := run
  refine ⟨slot, full, ?_⟩
  simp only [outcome, run]

theorem restoring_exhausts {arena : Arena NodeKind} (run : Exhausts (storing input state arena)) :
    Exhausts (storing.restoring input state arena) := by
  obtain ⟨slot, full, run⟩ := run
  refine ⟨slot, full, ?_⟩
  simp only [Storing.restoring, run]

theorem loop_exhausts {round : σ → Storing (Production.Round σ)} {made : σ}
    {arena : Arena NodeKind} (run : Exhausts (round made input state arena)) :
    Exhausts (loop round made input state arena) := by
  obtain ⟨slot, full, run⟩ := run
  refine ⟨slot, full, ?_⟩
  rw [loop, run]

theorem liftM_ok {result : Option β} {after : State} {arena : Arena NodeKind}
    (run : production input state = (result, after)) :
    (liftM production : Storing β) input state arena = .ok (result, after, arena) := by
  change Except.ok ((production input state).1, (production input state).2, arena) = _
  rw [run]

theorem bind_assoc (storing : Storing α) (first : α → Storing γ) (next : γ → Storing σ) :
    (storing >>= first) >>= next = storing >>= fun value => first value >>= next := by
  funext input state arena
  simp only [Bind.bind, Storing.bind]
  rcases storing input state arena with breach | ⟨_ | value, after, middle⟩ <;> rfl

theorem bind_pure (storing : Storing α) : storing >>= Pure.pure = storing := by
  funext input state arena
  simp only [Bind.bind, Storing.bind]
  rcases storing input state arena with breach | ⟨_ | value, after, middle⟩ <;> rfl

namespace Mirrors

/-! ## Sequences -/

theorem imp {other : α → β → List Part → Prop}
    (mirrors : Mirrors input state hand storing production one)
    (weaker : ∀ value tree parts, one value tree parts → other value tree parts) :
    Mirrors input state hand storing production other := by
  intro arena frame owns
  refine (mirrors arena frame owns).imp_right ?_
  rintro ⟨result, after, run, agrees⟩
  refine ⟨result, after, run, ?_⟩
  generalize (production input state).1 = derived at agrees ⊢
  cases agrees with
  | success same owns => exact .success (weaker _ _ _ same) owns
  | failure owns => exact .failure owns

theorem perm {other : List Part} (mirrors : Mirrors input state other storing production one)
    (same : hand.Perm other) : Mirrors input state hand storing production one :=
  fun arena frame owns => mirrors arena frame (owns.perm (same.append_right frame))

theorem pure {value : α} {tree : β} (same : one value tree hand) :
    Mirrors input state hand (Pure.pure value) (Pure.pure tree) one :=
  fun arena _ owns => .inr ⟨some value, arena, rfl, .success same owns⟩

theorem fail : Mirrors input state hand (fail : Storing α) (Production.fail : Production β) one :=
  fun arena _ owns => .inr ⟨none, arena, rfl, .failure owns.drop⟩

theorem reject {error : GrammarError} {location : Location} :
    Mirrors input state hand (liftM (Production.reject error location : Production α))
      (Production.reject error location : Production β) one :=
  fun arena _ owns => .inr ⟨none, arena, rfl, .failure owns.drop⟩

/-- A sequence.  The parts of the first value are in hand for the rest. -/
theorem bind {next : α → Storing γ} {others : β → Production δ}
    (first : Mirrors input state [] storing production one)
    (rest : ∀ value tree parts after, one value tree parts →
      Mirrors input after (hand ++ parts) (next value) (others tree) denotes) :
    Mirrors input state hand (storing >>= next) (production >>= others) denotes := by
  intro arena frame owns
  rcases first arena (hand ++ frame) owns with full | ⟨result, middle, run, agrees⟩
  case inl => exact .inl (bind_exhausts full)
  rcases other : production input state with ⟨derived, after⟩
  rw [other] at run agrees
  cases agrees with
  | failure owns =>
      rw [bind_none run, Production.bind_of_none others other]
      exact .inr ⟨none, middle, rfl, .failure owns.drop⟩
  | @success value tree parts _ same owns =>
      rw [bind_ok run, Production.bind_of_some others other]
      refine rest value tree parts after same middle frame (owns.perm ?_)
      rw [List.append_assoc]
      exact List.perm_append_comm_assoc ..

/-- A step that stores nothing. -/
theorem read {reading : Production σ} {next : σ → Storing α} {others : σ → Production β}
    (rest : ∀ value after, reading input state = (some value, after) →
      Mirrors input after hand (next value) (others value) one) :
    Mirrors input state hand (liftM reading >>= next) (reading >>= others) one := by
  intro arena frame owns
  rcases run : reading input state with ⟨_ | value, after⟩
  · rw [bind_none (liftM_ok run), Production.bind_of_none others run]
    exact .inr ⟨none, arena, rfl, .failure owns.drop⟩
  · rw [bind_ok (liftM_ok run), Production.bind_of_some others run]
    exact rest value after run arena frame owns

/-- What is tried goes on from where it ended, whether it failed or not. -/
theorem attempt {next : Option α → Storing γ} {others : Option β → Production δ}
    (first : Mirrors input state [] storing production one)
    (found : ∀ value tree parts after, one value tree parts →
      Mirrors input after (hand ++ parts) (next (some value)) (others (some tree)) denotes)
    (missed : ∀ after, Mirrors input after hand (next none) (others none) denotes) :
    Mirrors input state hand (storing.outcome >>= next) (production.outcome >>= others)
      denotes := by
  intro arena frame owns
  rcases first arena (hand ++ frame) owns with full | ⟨result, middle, run, agrees⟩
  case inl => exact .inl (bind_exhausts (outcome_exhausts full))
  rcases other : production input state with ⟨derived, after⟩
  rw [other] at run agrees
  have tried : storing.outcome input state arena = .ok (some result, after, middle) := by
    simp only [outcome, run]
  rw [bind_ok tried, Production.bind_of_some others (Production.outcome_of other)]
  cases agrees with
  | failure owns => exact missed after middle frame owns
  | @success value tree parts _ same owns =>
      refine found value tree parts after same middle frame (owns.perm ?_)
      rw [List.append_assoc]
      exact List.perm_append_comm_assoc ..

theorem restoring (mirrors : Mirrors input state hand storing production one) :
    Mirrors input state hand storing.restoring production.restoring one := by
  intro arena frame owns
  rcases mirrors arena frame owns with full | ⟨result, middle, run, agrees⟩
  case inl => exact .inl (restoring_exhausts full)
  rcases other : production input state with ⟨derived, after⟩
  rw [other] at run agrees
  cases agrees with
  | failure owns =>
      rw [Production.restoring_of_none other]
      refine .inr ⟨none, middle, ?_, .failure owns⟩
      simp only [Storing.restoring, run]
  | success same owns =>
      rw [Production.restoring_of_some other]
      refine .inr ⟨_, middle, ?_, .success same owns⟩
      simp only [Storing.restoring, run]

theorem map {function : α → γ} {other : β → δ}
    (mirrors : Mirrors input state [] storing production one)
    (same : ∀ value tree parts,
      one value tree parts → denotes (function value) (other tree) parts) :
    Mirrors input state [] (function <$> storing) (other <$> production) denotes :=
  mirrors.bind fun value tree parts _ known => .pure (same value tree parts known)

/-- A sequence whose rest derives what the first part has derived. -/
theorem onto {next : α → Storing γ} {denotes : γ → β → List Part → Prop}
    (first : Mirrors input state [] storing production one)
    (rest : ∀ value tree parts after, one value tree parts →
      Mirrors input after (hand ++ parts) (next value) (Pure.pure tree) denotes) :
    Mirrors input state hand (storing >>= next) production denotes := by
  rw [← production.bind_pure]
  exact first.bind rest

/-- A value that is wrapped where the production derives the tree itself. -/
theorem wrap {function : α → γ} {denotes : γ → β → List Part → Prop}
    (mirrors : Mirrors input state [] storing production one)
    (same : ∀ value tree parts, one value tree parts → denotes (function value) tree parts) :
    Mirrors input state [] (function <$> storing) production denotes :=
  mirrors.onto fun value tree parts _ known => .pure (same value tree parts known)

theorem ending {function : β → δ} {denotes : α → δ → List Part → Prop}
    (mirrors : Mirrors input state hand storing production one)
    (same : ∀ value tree parts, one value tree parts → denotes value (function tree) parts) :
    Mirrors input state hand storing (production >>= fun tree => Pure.pure (function tree))
      denotes := by
  intro arena frame owns
  refine (mirrors arena frame owns).imp_right ?_
  rintro ⟨result, middle, run, agrees⟩
  rcases other : production input state with ⟨derived, after⟩
  rw [other] at run agrees
  cases agrees with
  | failure owns =>
      rw [Production.bind_of_none _ other]
      exact ⟨none, middle, run, .failure owns⟩
  | success known owns =>
      rw [Production.bind_of_some _ other]
      exact ⟨_, middle, run, .success (same _ _ _ known) owns⟩

/-! ## Nodes -/

section Nodes

variable {kind : NodeKind} {content : kind.Content} {tree : kind.Tree}
variable {next : Node kind → Storing γ} {rest : Production δ}

/-- What is in hand becomes a subtree. -/
theorem creating (same : kind.Denotes input.stream.size content tree hand)
    (goes : ∀ node, Mirrors input state [⟨kind, .of node content tree hand⟩] (next node) rest
      denotes) :
    Mirrors input state hand (create kind content >>= next) rest denotes := by
  intro arena frame owns
  rcases owns.create same with ⟨slot, full, run⟩ | ⟨node, middle, run, owns⟩
  · refine .inl (bind_exhausts ⟨slot, full, ?_⟩)
    simp only [Storing.create, run]
    rfl
  have stored : create kind content input state arena = .ok (some node, state, middle) := by
    simp only [Storing.create, run]
    rfl
  rw [bind_ok stored]
  exact goes node middle frame owns

theorem create (same : kind.Denotes input.stream.size content tree hand) :
    Mirrors input state hand (create kind content) (Pure.pure tree) Cst.Held := by
  rw [← bind_pure (Storing.create kind content)]
  exact creating same fun node => .pure (.of node content tree hand)

theorem getting {node : Node kind} {next : kind.Content → Storing γ} (content : kind.Content)
    (member : ⟨kind, node, content⟩ ∈ entriesOf hand)
    (goes : Mirrors input state hand (next content) rest denotes) :
    Mirrors input state hand (get node >>= next) rest denotes := by
  intro arena frame owns
  have found := owns.get (by
    rw [entriesOf_append]
    exact List.mem_append_left _ member)
  have read : get node input state arena = .ok (some content, state, arena) := by
    simp only [Storing.get, found]
    rfl
  rw [bind_ok read]
  exact goes arena frame owns

theorem inspect
    (goes : (∀ part ∈ hand, part.2.Sound input.stream.size) →
      Mirrors input state hand storing production one) :
    Mirrors input state hand storing production one := by
  intro arena frame owns
  exact goes (fun part member => owns.sound part (List.mem_append_left _ member)) arena frame owns

theorem setting {node : Node kind} {old : kind.Content} {before : kind.Tree}
    {inner : List Part} {next : Unit → Storing γ}
    (same : kind.Denotes input.stream.size content tree (hand ++ inner))
    (sound : ∀ part ∈ inner, part.2.Sound input.stream.size)
    (goes : Mirrors input state [⟨kind, .of node content tree (hand ++ inner)⟩] (next ()) rest
      denotes) :
    Mirrors input state (hand ++ [⟨kind, .of node old before inner⟩])
      (set node content >>= next) rest denotes := by
  intro arena frame owns
  have front :
      arena.Owns input.stream.size (⟨kind, .of node old before inner⟩ :: (hand ++ frame)) := by
    refine owns.perm ?_
    rw [List.append_assoc]
    exact List.perm_middle
  obtain ⟨middle, run, owns⟩ := front.set same sound
  have stored : set node content input state arena = .ok (some (), state, middle) := by
    simp only [Storing.set, run]
    rfl
  rw [bind_ok stored]
  exact goes middle frame owns

theorem destroying {subtree : Subtree kind} {next : Unit → Storing γ}
    (goes : Mirrors input state [] (next ()) rest denotes) :
    Mirrors input state [⟨kind, subtree⟩] (destroy subtree.node >>= next) rest denotes := by
  intro arena frame owns
  obtain ⟨value, middle, run, owns⟩ := owns.destroy
  have used : destroy subtree.node input state arena = .ok (some (), state, middle) := by
    simp only [Storing.destroy, run]
    rfl
  rw [bind_ok used]
  exact goes middle frame owns

end Nodes

/-! ## Reports and choice -/

theorem orRejectAt {error : GrammarError} {location : Location}
    (mirrors : ∀ state, Mirrors input state [] storing production one) :
    Mirrors input state [] (storing.orRejectAt error location)
      (production.orRejectAt error location) one := by
  refine .read fun before middle _ => .attempt (mirrors middle) ?_ ?_
  · intro value tree parts after same
    exact .pure same
  · intro after
    exact .read fun _ _ _ => .fail

theorem orReject {error : GrammarError}
    (mirrors : ∀ state, Mirrors input state [] storing production one) :
    Mirrors input state [] (storing.orReject error) (production.orReject error) one := by
  refine .read fun before middle _ => .attempt (mirrors middle) ?_ ?_
  · intro value tree parts after same
    exact .pure same
  · intro after
    exact .read fun _ _ _ => .read fun _ _ _ => .fail

theorem either {storing₁ storing₂ : Storing α} {production₁ production₂ : Production β}
    (first : Mirrors input state [] storing₁ production₁ one)
    (second : ∀ after, Mirrors input after [] storing₂ production₂ one) :
    Mirrors input state [] (either storing₁ storing₂) (Production.either production₁ production₂)
      one :=
  .attempt first (fun _ _ _ _ same => .pure same) second

theorem firstOf {before : Nat} {stored : List (Storing α)} {productions : List (Production β)}
    (each : List.Forall₂ (fun storing production =>
      ∀ state, Mirrors input state [] storing production one) stored productions) :
    Mirrors input state [] (firstOf before stored) (Production.firstOf before productions)
      one := by
  induction each generalizing state with
  | nil => exact .fail
  | cons first rest induction =>
      refine .attempt (first state) (fun _ _ _ _ same => .pure same) fun after => ?_
      refine .read fun explained _ _ => ?_
      cases explained
      · exact induction
      · exact .fail

end Mirrors

/-! ## Repetition -/

open Production (Round)

/-- What a round has made of what was made before, with what a round derives beside it. -/
inductive Goes (holds : σ → List β → List Part → Prop) (made : σ) (earlier : List β) :
    Round σ → Round β → List Part → Prop where
  | stop {parts : List Part} (same : holds made earlier parts) :
      Goes holds made earlier .stop .stop parts
  | last {next : σ} {value : β} {parts : List Part} (same : holds next (value :: earlier) parts) :
      Goes holds made earlier (.last next) (.last value) parts
  | more {next : σ} {value : β} {parts : List Part} (same : holds next (value :: earlier) parts) :
      Goes holds made earlier (.more next) (.more value) parts

inductive OfRound (one : α → β → List Part → Prop) : Round α → Round β → List Part → Prop where
  | stop : OfRound one .stop .stop []
  | last {value : α} {tree : β} {parts : List Part} (same : one value tree parts) :
      OfRound one (.last value) (.last tree) parts
  | more {value : α} {tree : β} {parts : List Part} (same : one value tree parts) :
      OfRound one (.more value) (.more tree) parts

namespace Mirrors

theorem loop {round : σ → Storing (Round σ)} {production : Production (Round β)}
    {holds : σ → List β → List Part → Prop} {made : σ} {earlier : List β}
    (each : ∀ made earlier hand state, holds made earlier hand →
      Mirrors input state hand (round made) production (Goes holds made earlier))
    (start : holds made earlier hand) :
    Mirrors input state hand (loop round made) (Production.collectAfter production earlier)
      fun made values parts => holds made values.reverse parts := by
  induction left : Production.remaining input state using Nat.strongRecOn generalizing
    state made earlier hand with
  | ind left induction =>
      subst left
      intro arena frame owns
      rcases each made earlier hand state start arena frame owns with
        full | ⟨result, middle, run, agrees⟩
      case inl => exact .inl (loop_exhausts full)
      rcases other : production input state with ⟨derived, after⟩
      rw [other] at run agrees
      cases agrees with
      | failure owns =>
          rw [Production.collectAfter_none other]
          refine .inr ⟨none, middle, ?_, .failure owns⟩
          rw [Storing.loop, run]
      | success same owns =>
          cases same with
          | stop same =>
              rw [Production.collectAfter_stop other]
              refine .inr ⟨some made, middle, ?_, .success ?_ owns⟩
              · rw [Storing.loop, run]
              · rwa [List.reverse_reverse]
          | @last next value parts same =>
              rw [Production.collectAfter_last other]
              refine .inr ⟨some next, middle, ?_, .success ?_ owns⟩
              · rw [Storing.loop, run]
              · rwa [List.reverse_reverse]
          | @more next value parts same =>
              by_cases forward : Production.remaining input after < Production.remaining input state
              · rw [Production.collectAfter_more other forward, Storing.loop, run]
                simp only [if_pos forward]
                exact induction _ forward same rfl middle frame owns
              · rw [Production.collectAfter_still other forward, Storing.loop, run]
                simp only [if_neg forward]
                exact .inr ⟨none, middle, rfl, .failure owns.drop⟩

theorem collect {round : Storing (Round α)} {production : Production (Round β)}
    (each : ∀ state, Mirrors input state [] round production (OfRound one)) :
    Mirrors input state [] (collect round) (Production.collect production) (Cst.Each one) := by
  let holds : List α → List β → List Part → Prop := fun values trees parts =>
    Cst.Each one values trees.reverse parts
  have start : holds [] [] [] := .nil
  refine (loop ?_ start).imp ?_
  · intro values trees hand state earlier
    refine (each state).onto fun value tree parts after same => ?_
    cases same with
    | stop =>
        rw [List.append_nil]
        exact .pure (.stop earlier)
    | last same => exact .pure (.last (by simpa [holds] using earlier.snoc same))
    | more same => exact .pure (.more (by simpa [holds] using earlier.snoc same))
  · intro values trees parts each
    rwa [← trees.reverse_reverse]

end Mirrors

end Storing

end CppsFrontend
