import CppsFrontend.Cst.Unit
import CppsFrontend.Proofs.Cst.Parts

/-!
# Subtrees in an arena

An arena owns subtrees when it keeps all their values, and perhaps others that no handle
reaches any more.  A new node takes its parts into a subtree of its own; whatever else is
owned stays as it is.
-/

set_option autoImplicit false

namespace CppsFrontend

open TranslationUnit (blockCapacity)

variable [NodeKind.Layouts] {size : Nat} {kind : NodeKind}

/-! ## Sound subtrees -/

def entriesOf (parts : List Part) : List (Kept NodeKind) := parts.flatMap fun part => part.2.entries

@[simp] theorem entriesOf_nil : entriesOf [] = [] := rfl

@[simp] theorem entriesOf_cons (part : Part) (parts : List Part) :
    entriesOf (part :: parts) = part.2.entries ++ entriesOf parts := rfl

@[simp] theorem entriesOf_append (parts others : List Part) :
    entriesOf (parts ++ others) = entriesOf parts ++ entriesOf others := by
  simp [entriesOf]

theorem entriesOf_perm {parts others : List Part} (same : parts.Perm others) :
    (entriesOf parts).Perm (entriesOf others) := same.flatMap_right _

def Subtree.of (node : Node kind) (content : kind.Content) (tree : kind.Tree)
    (parts : List Part) : Subtree kind :=
  ⟨node, tree, ⟨kind, node, content⟩ :: entriesOf parts⟩

theorem Cst.Held.of (node : Node kind) (content : kind.Content) (tree : kind.Tree)
    (parts : List Part) : Cst.Held node tree [⟨kind, .of node content tree parts⟩] :=
  .intro (.of node content tree parts)

/-- The values of a subtree denote its tree, down to the last node. -/
inductive Subtree.Sound (size : Nat) : {kind : NodeKind} → Subtree kind → Prop where
  | intro {kind : NodeKind} (node : Node kind) {content : kind.Content} {tree : kind.Tree}
      {parts : List Part} (denotes : kind.Denotes size content tree parts)
      (inner : ∀ part ∈ parts, part.2.Sound size) : Sound size (.of node content tree parts)

theorem Cst.Held.value {node : Node kind} {tree : kind.Tree} {parts : List Part}
    (held : Cst.Held node tree parts) (sound : ∀ part ∈ parts, part.2.Sound size) :
    ∃ content inner, entriesOf parts = ⟨kind, node, content⟩ :: entriesOf inner ∧
      kind.Denotes size content tree inner ∧ ∀ part ∈ inner, part.2.Sound size := by
  cases held with
  | intro subtree =>
      have known : subtree.Sound size := sound ⟨kind, subtree⟩ (List.mem_singleton_self _)
      cases known with
      | intro node denotes inner => exact ⟨_, _, List.append_nil _, denotes, inner⟩

/-! ## Arenas that own subtrees -/

/-- An arena owns parts of which the tokens are places in a stream of a size. -/
structure Arena.Owns (size : Nat) (arena : Arena NodeKind) (parts : List Part) : Prop where
  fits : ∀ kind : NodeKind, (NodeKinds.layout kind).Fits blockCapacity
  sound : ∀ part ∈ parts, part.2.Sound size
  kept : ∃ number garbage, arena.Keeps number blockCapacity (entriesOf parts ++ garbage)

namespace Arena.Owns

variable {arena : Arena NodeKind} {parts others : List Part}
variable {content : kind.Content} {tree : kind.Tree} {subtree : Subtree kind}

theorem start (fits : ∀ kind : NodeKind, (NodeKinds.layout kind).Fits blockCapacity)
    (number : Nat) : (Arena.start number blockCapacity).Owns size [] :=
  ⟨fits, nofun, number, [], keeps_start number blockCapacity⟩

theorem perm (owns : arena.Owns size parts) (same : parts.Perm others) :
    arena.Owns size others := by
  obtain ⟨number, garbage, keeps⟩ := owns.kept
  exact ⟨owns.fits, fun part member => owns.sound part (same.mem_iff.mpr member), number,
    garbage, keeps.perm ((entriesOf_perm same).append_right garbage)⟩

/-- Parts that are owned no more are garbage. -/
theorem drop (owns : arena.Owns size (parts ++ others)) : arena.Owns size others := by
  obtain ⟨number, garbage, keeps⟩ := owns.kept
  refine ⟨owns.fits, fun part member => owns.sound part (List.mem_append_right _ member), number,
    entriesOf parts ++ garbage, keeps.perm ?_⟩
  rw [entriesOf_append, List.append_assoc]
  exact List.perm_append_comm_assoc ..

/-- A new node takes parts into a subtree. -/
theorem create (owns : arena.Owns size (parts ++ others))
    (denotes : kind.Denotes size content tree parts) :
    Exhausts (arena.create kind content) ∨
      ∃ node after, arena.create kind content = .ok (node, after) ∧
        after.Owns size (⟨kind, .of node content tree parts⟩ :: others) := by
  obtain ⟨number, garbage, keeps⟩ := owns.kept
  rcases Nat.lt_or_ge (arena.pool kind).slots.size Pool.slotBound with room | full
  case inr => exact .inl (keeps.create_exhausts (owns.fits kind) content full)
  obtain ⟨node, after, run, keeps⟩ := keeps.create (owns.fits kind) content room
  refine .inr ⟨node, after, run, owns.fits, ?_, number, garbage, keeps.perm ?_⟩
  · intro part member
    rcases List.mem_cons.mp member with rfl | member
    · exact .intro node denotes fun part member =>
        owns.sound part (List.mem_append_left _ member)
    · exact owns.sound part (List.mem_append_right _ member)
  · rw [entriesOf_append, entriesOf_cons]
    exact List.perm_append_singleton ..

theorem get {node : Node kind} (owns : arena.Owns size parts)
    (member : ⟨kind, node, content⟩ ∈ entriesOf parts) : arena.get node = .ok content := by
  obtain ⟨number, garbage, keeps⟩ := owns.kept
  exact keeps.get (List.mem_append_left _ member)

/-- A handle is used up; the parts of its value are garbage. -/
theorem destroy (owns : arena.Owns size (⟨kind, subtree⟩ :: others)) :
    ∃ value after, arena.destroy subtree.node = .ok (value, after) ∧ after.Owns size others := by
  obtain ⟨content, parts, same, -, -⟩ := (Cst.Held.intro subtree).value fun part member =>
    owns.sound part (List.mem_singleton.mp member ▸ List.mem_cons_self ..)
  obtain ⟨number, garbage, keeps⟩ := owns.kept
  have split : arena.Keeps number blockCapacity
      ([] ++ ⟨kind, subtree.node, content⟩ ::
        (entriesOf parts ++ (entriesOf others ++ garbage))) := by
    have entries : subtree.entries = _ := (List.append_nil _).symm.trans same
    rw [entriesOf_cons, entries, List.append_assoc] at keeps
    exact keeps
  have moved : (entriesOf parts ++ (entriesOf others ++ garbage)).Perm
      (entriesOf others ++ (entriesOf parts ++ garbage)) := List.perm_append_comm_assoc ..
  obtain ⟨after, run, keeps⟩ := split.destroy (owns.fits kind).power
  refine ⟨some content, after, run, owns.fits, ?_, number, entriesOf parts ++ garbage,
    keeps.perm moved⟩
  exact fun part member => owns.sound part (List.mem_cons_of_mem _ member)

theorem set {node : Node kind} {old : kind.Content} {before : kind.Tree}
    {inner added : List Part}
    (owns : arena.Owns size (⟨kind, .of node old before inner⟩ :: (added ++ others)))
    (denotes : kind.Denotes size content tree (added ++ inner))
    (sound : ∀ part ∈ inner, part.2.Sound size) :
    ∃ after, arena.set node content = .ok after ∧
      after.Owns size (⟨kind, .of node content tree (added ++ inner)⟩ :: others) := by
  obtain ⟨number, garbage, keeps⟩ := owns.kept
  have split : arena.Keeps number blockCapacity
      ([] ++ ⟨kind, node, old⟩ ::
        (entriesOf inner ++ entriesOf (added ++ others) ++ garbage)) := keeps
  obtain ⟨after, run, keeps⟩ := split.set content
  refine ⟨after, run, owns.fits, ?_, number, garbage, keeps.perm ?_⟩
  · intro part member
    rcases List.mem_cons.mp member with rfl | member
    · refine .intro node denotes fun part member => ?_
      rcases List.mem_append.mp member with member | member
      · exact owns.sound part (List.mem_cons_of_mem _ (List.mem_append_left _ member))
      · exact sound part member
    · exact owns.sound part (List.mem_cons_of_mem _ (List.mem_append_right _ member))
  · simp only [entriesOf_cons, entriesOf_append, Subtree.of, List.nil_append, List.cons_append,
      List.append_assoc]
    exact (List.perm_append_comm_assoc ..).cons _

end Arena.Owns

end CppsFrontend
