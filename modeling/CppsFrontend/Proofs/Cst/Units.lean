import CppsFrontend.Proofs.Cst.Statements

/-!
# Translation units

Unless the slots are exhausted, a unit has the declarations that are parsed without an
arena, with the same errors and the same end.  Its handles reach a tree of nodes: each is
found in the arena, no two have one slot, and the tokens in the nodes are places in the
stream.
-/

set_option autoImplicit false

namespace CppsFrontend

open Grammar (Nested)
open Storing

variable [NodeKind.Layouts] {input : Grammar.Input} {state : Grammar.State}

namespace Cst

/-! ## Files -/

theorem mirrorsNested_none : MirrorsNested input .none .none where
  statement _ _ := .fail
  expression := .fail
  declaration _ := .fail

theorem mirrorsNested_productions (depth : Nat) :
    MirrorsNested input (productions depth) (Grammar.productions depth) := by
  induction depth with
  | zero => exact mirrorsNested_none
  | succ depth inner =>
      exact {
        statement := statement_mirrors inner
        expression := expression_mirrors inner
        declaration := declaration_mirrors inner }

variable {storing : StoringNested} {nested : Nested}

theorem fileRound_mirrors (inner : MirrorsNested input storing nested) :
    Mirrors input state [] (fileRound storing) (Grammar.fileRound nested) (OfRound Held) := by
  refine .read fun ended _ _ => ?_
  cases ended with
  | true => exact .pure .stop
  | false =>
      refine .attempt (.orReject fun _ => declaration_mirrors inner true) ?_ fun _ => .pure .stop
      intro node declaration parts _ held
      exact .pure (.more held)

theorem file_mirrors (inner : MirrorsNested input storing nested) :
    Mirrors input state [] (file storing) (Grammar.file nested) (Each Held) :=
  .collect fun _ => fileRound_mirrors inner

end Cst

/-! ## Walks -/

section Walks

variable {size : Nat} {arena : Arena NodeKind} {rest : List Handle}
variable {visited : List (Kept NodeKind)}

open Cst (partHandles)

theorem walk_parts {parts : List Part}
    (each : ∀ part ∈ parts, ∀ {rest : List Handle} {visited : List (Kept NodeKind)},
      (∀ entry ∈ part.2.entries, arena.get entry.node = .ok entry.value) →
        arena.Walk rest visited →
          arena.Walk (part.2.node.handle :: rest) (part.2.entries ++ visited))
    (found : ∀ entry ∈ entriesOf parts, arena.get entry.node = .ok entry.value)
    (walk : arena.Walk rest visited) :
    arena.Walk (partHandles parts ++ rest) (entriesOf parts ++ visited) := by
  induction parts with
  | nil => exact walk
  | cons part parts induction =>
      obtain ⟨first, others⟩ := List.forall_mem_cons.mp each
      obtain ⟨here, behind⟩ := List.forall_mem_append.mp (entriesOf_cons part parts ▸ found)
      rw [entriesOf_cons, List.append_assoc]
      exact first here (induction others behind)

/-- The walk from the handle of a sound subtree goes over its values. -/
theorem Subtree.Sound.walk {kind : NodeKind} {subtree : Subtree kind} (sound : subtree.Sound size)
    (found : ∀ entry ∈ subtree.entries, arena.get entry.node = .ok entry.value)
    (walk : arena.Walk rest visited) :
    arena.Walk (subtree.node.handle :: rest) (subtree.entries ++ visited) := by
  induction sound generalizing rest visited with
  | intro node denotes inner induction =>
      obtain ⟨here, below⟩ := List.forall_mem_cons.mp found
      refine .cons here ?_
      rw [← denotes.handles_eq]
      exact walk_parts (fun part member _ _ => induction part member) below walk

theorem Subtree.Sound.tokens_lt {kind : NodeKind} {subtree : Subtree kind}
    (sound : subtree.Sound size) :
    ∀ entry ∈ subtree.entries, ∀ token ∈ entry.kind.tokens entry.value, token < size := by
  induction sound with
  | intro node denotes inner induction =>
      refine List.forall_mem_cons.mpr ⟨denotes.tokens_lt, ?_⟩
      intro entry member
      obtain ⟨part, inside, member⟩ := List.mem_flatMap.mp member
      exact induction part inside entry member

def Kept.OtherSlot (first second : Kept NodeKind) : Prop :=
  first.kind = second.kind → first.node.slot ≠ second.node.slot

namespace Arena.Owns

variable {parts : List Part}

/-- From the handles of what an arena owns, a walk goes over all its values. -/
theorem walk (owns : arena.Owns size parts) : arena.Walk (partHandles parts) (entriesOf parts) := by
  have found : ∀ entry ∈ entriesOf parts, arena.get entry.node = .ok entry.value :=
    fun entry member => owns.get member
  have walk := walk_parts (fun part member _ _ => (owns.sound part member).walk) found .nil
  rwa [List.append_nil, List.append_nil] at walk

theorem otherSlots (owns : arena.Owns size parts) : (entriesOf parts).Pairwise Kept.OtherSlot := by
  obtain ⟨number, garbage, keeps⟩ := owns.kept
  exact (List.pairwise_append.mp keeps.apart).1.imp fun apart => apart.2

theorem tokens_lt (owns : arena.Owns size parts) :
    ∀ entry ∈ entriesOf parts, ∀ token ∈ entry.kind.tokens entry.value, token < size := by
  intro entry member
  obtain ⟨part, inside, member⟩ := List.mem_flatMap.mp member
  exact (owns.sound part inside).tokens_lt entry member

end Arena.Owns

end Walks

/-! ## Units -/

namespace TranslationUnit

/-- The handles that a unit holds itself. -/
def roots (unit : TranslationUnit) : List Handle := unit.declarations.map Node.handle

section Parsing

variable (fits : ∀ kind : NodeKind, (NodeKinds.layout kind).Fits blockCapacity)
variable (number : Nat) (earlier : Array Entry) (reporting : Reporting) (stream : TokenStream)

include fits

/-- A unit is parsed without another breach of contract, and as without an arena. -/
theorem parseAfter_mirrors :
    Exhausts (parseAfter number earlier reporting stream) ∨
      ∃ unit parts,
        parseAfter number earlier reporting stream =
          .ok (unit, (CppsFrontend.parseAfter earlier reporting stream).errors,
            (CppsFrontend.parseAfter earlier reporting stream).position) ∧
        Cst.Each Cst.Held unit.declarations
          (CppsFrontend.parseAfter earlier reporting stream).declarations parts ∧
        unit.arena.Owns stream.size parts := by
  have mirrors : Mirrors ⟨stream, reporting⟩ ⟨0, earlier⟩ []
      (Cst.file (Cst.productions (stream.size + 1)))
      (Grammar.file (Grammar.productions (stream.size + 1))) (Cst.Each Cst.Held) :=
    Cst.file_mirrors (Cst.mirrorsNested_productions _)
  rcases mirrors (.start number blockCapacity) [] (.start fits number) with
    ⟨slot, full, run⟩ | ⟨result, arena, run, agrees⟩
  · refine .inl ⟨slot, full, ?_⟩
    rw [parseAfter, run]
    rfl
  rw [parseAfter, CppsFrontend.parseAfter, run]
  rcases other : Grammar.file (Grammar.productions (stream.size + 1)) ⟨stream, reporting⟩
    ⟨0, earlier⟩ with ⟨derived, after⟩
  rw [other] at agrees
  cases agrees with
  | success each owns =>
      rw [List.append_nil] at owns
      exact .inr ⟨⟨_, arena⟩, _, rfl, each, owns⟩
  | failure owns => exact .inr ⟨⟨[], arena⟩, [], rfl, .nil, owns⟩

/-- Parsing gives a unit, unless more nodes of a kind are made than handles can name.  The unit
has a handle for each declaration, and its handles reach a tree of nodes: a walk visits every
one of them, it visits no slot twice, and every handle that is reached finds a value of its
kind, in which all tokens are places in the stream. -/
theorem parseAfter_reaches :
    Exhausts (parseAfter number earlier reporting stream) ∨
      ∃ unit,
        parseAfter number earlier reporting stream =
          .ok (unit, (CppsFrontend.parseAfter earlier reporting stream).errors,
            (CppsFrontend.parseAfter earlier reporting stream).position) ∧
        unit.roots.length = (CppsFrontend.parseAfter earlier reporting stream).declarations.length ∧
        (∃ visited, unit.arena.Walk unit.roots visited ∧ visited.Pairwise Kept.OtherSlot) ∧
        ∀ handle, unit.arena.Reaches unit.roots handle →
          ∃ content, unit.arena.get handle.2 = .ok content ∧
            ∀ token ∈ handle.1.tokens content, token < stream.size := by
  refine (parseAfter_mirrors fits number earlier reporting stream).imp_right ?_
  rintro ⟨unit, parts, run, each, owns⟩
  have handles : Cst.partHandles parts = unit.roots := by
    rw [each.handles_eq fun _ _ _ held => held.handle_eq, roots, List.map_eq_flatMap]
  have walk := owns.walk
  rw [handles] at walk
  refine ⟨unit, run, ?_, ⟨_, walk, owns.otherSlots⟩, ?_⟩
  · rw [roots, List.length_map, each.length_eq]
  intro handle reached
  obtain ⟨⟨kind, node, content⟩, member, rfl⟩ := walk.visits reached
  exact ⟨content, owns.get member, owns.tokens_lt _ member⟩

end Parsing

@[reducible] def wordLayouts : NodeKind.Layouts := ⟨fun _ => ⟨64, 8⟩⟩

/-- The tokens of `x:a::T;`. -/
def qualifiedObject : TokenStream := .ofTokens [
  ⟨.identifier, ⟨some 0, some 0⟩, "x"⟩,
  ⟨.punctuator .colon, ⟨some 0, some 1⟩, ":"⟩,
  ⟨.identifier, ⟨some 0, some 2⟩, "a"⟩,
  ⟨.punctuator .doubleColon, ⟨some 0, some 3⟩, "::"⟩,
  ⟨.identifier, ⟨some 0, some 5⟩, "T"⟩,
  ⟨.punctuator .semicolon, ⟨some 0, some 6⟩, ";"⟩]

omit [NodeKind.Layouts] in
theorem qualifiedObject_reaches :
    letI : NodeKind.Layouts := wordLayouts
    ∃ unit,
      parseAfter 0 #[] .filtered qualifiedObject =
        .ok (unit, (CppsFrontend.parseAfter #[] .filtered qualifiedObject).errors,
          (CppsFrontend.parseAfter #[] .filtered qualifiedObject).position) ∧
      unit.roots.length =
        (CppsFrontend.parseAfter #[] .filtered qualifiedObject).declarations.length ∧
      (∃ visited, unit.arena.Walk unit.roots visited ∧ visited.Pairwise Kept.OtherSlot) ∧
      ∀ handle, unit.arena.Reaches unit.roots handle →
        ∃ content, unit.arena.get handle.2 = .ok content ∧
          ∀ token ∈ handle.1.tokens content, token < qualifiedObject.size := by
  let _ : NodeKind.Layouts := wordLayouts
  have fits (kind : NodeKind) : (NodeKinds.layout kind).Fits blockCapacity :=
    ⟨show 0 < 64 by decide, show 64 ≤ 1024 * 500 by decide,
      show Bump.isPowerOfTwo 8 = true by decide⟩
  refine (parseAfter_reaches fits 0 #[] .filtered qualifiedObject).resolve_left ?_
  rintro ⟨slot, -, run⟩
  have parsed : (parseAfter 0 #[] .filtered qualifiedObject).toBool = true := by decide +kernel
  rw [run] at parsed
  cases parsed

end TranslationUnit

end CppsFrontend
