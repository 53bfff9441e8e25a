import CppsFrontend.Command.Options
import Mathlib.Data.List.Perm.Basic

/-!
# The order of arguments

A command line names a file and options, each option with the words that belong to it.  Every
argument of them changes a part of the draft that no other kind of argument looks at, so
arguments of different kinds give the same options, or the same error, in every order.
-/

set_option autoImplicit false

namespace CppsFrontend.Options

inductive Argument where
  | file (path : String)
  | output (path : String)
  | json
  | verbatim
  | noDirectives
  | color (value : String)
deriving DecidableEq

namespace Argument

/-- The text that tells the kind of an argument; files have none. -/
def lead : Argument → String
  | .file _ => ""
  | .output _ => "-o"
  | .json => "--json"
  | .verbatim => "--verbatim"
  | .noDirectives => "--no-line-directives"
  | .color _ => "--color="

/-- The words of an argument.  Any word may follow `-o`. -/
def words : Argument → List String
  | .file path => [path]
  | .output path => ["-o", path]
  | .color value => ["--color=" ++ value]
  | argument => [argument.lead]

def IsBare : Argument → Prop
  | .file path => path.toList.head? ≠ some '-'
  | _ => True

def set (draft : Draft) : Argument → Draft
  | .file path => { draft with path := some path }
  | .output path => { draft with output := some path }
  | .json => { draft with format := .json }
  | .verbatim => { draft with reporting := .verbatim }
  | .noDirectives => { draft with directives := false }
  | .color value => { draft with color := (ColorMode.ofName? value).getD draft.color }

def fault? (file : Option String) : Argument → Option UsageError
  | .file path => file.map fun _ => .argumentUnexpected path
  | .color value =>
      match ColorMode.ofName? value with
      | some _ => none
      | none => some (.colorInvalid value)
  | _ => none

def apply (draft : Draft) (argument : Argument) : Except UsageError Draft :=
  match argument.fault? draft.path with
  | none => .ok (argument.set draft)
  | some fault => .error fault

end Argument

/-! ## Reading the words of an argument -/

theorem after?_append (lead text : String) : after? lead (lead ++ text) = some text := by
  have front : lead.toList.isPrefixOf (lead ++ text).toList = true := by
    rw [String.toList_append, List.isPrefixOf_iff_prefix]
    exact List.prefix_append _ _
  rw [after?, if_pos front, String.toList_append, ← String.length_toList, List.drop_left,
    String.ofList_toList]

/-- No option begins like a text without a hyphen. -/
theorem after?_bare {lead text : String} (hyphen : lead.toList.head? = some '-')
    (bare : text.toList.head? ≠ some '-') : after? lead text = none := by
  rw [after?, if_neg]
  rw [List.isPrefixOf_iff_prefix]
  rintro ⟨rest, whole⟩
  refine bare ?_
  rw [← whole, List.head?_append, hyphen]
  rfl

theorem ofArgument_file {path : String} (bare : path.toList.head? ≠ some '-') :
    Meaning.ofArgument path = .file path := by
  have other : ∀ word : String, word.toList.head? = some '-' → path ≠ word := by
    rintro word hyphen rfl
    exact bare hyphen
  rw [Meaning.ofArgument, if_neg (other _ rfl), if_neg (other _ rfl), if_neg (other _ rfl),
    if_neg (other _ rfl), after?_bare rfl bare, after?_bare rfl bare]
  rfl

theorem ofArgument_color (value : String) :
    Meaning.ofArgument ("--color=" ++ value) = .color value := by
  have other : ∀ word : String, after? "--color=" word = none → "--color=" ++ value ≠ word := by
    rintro word missing rfl
    rw [after?_append] at missing
    cases missing
  rw [Meaning.ofArgument, if_neg (other _ rfl), if_neg (other _ rfl), if_neg (other _ rfl),
    if_neg (other _ rfl), after?_append]

theorem read_words (draft : Draft) {argument : Argument} (bare : argument.IsBare)
    (rest : List String) :
    draft.read (argument.words ++ rest) =
      argument.apply draft >>= fun draft => draft.read rest := by
  cases argument with
  | file path =>
      rw [Argument.words, List.singleton_append, Draft.read.eq_def, Argument.apply]
      simp only [ofArgument_file bare]
      cases draft.path <;> rfl
  | color value =>
      rw [Argument.words, List.singleton_append, Draft.read.eq_def, Argument.apply]
      simp only [ofArgument_color, Argument.fault?, Argument.set]
      cases ColorMode.ofName? value <;> rfl
  | output path => rfl
  | json => rfl
  | verbatim => rfl
  | noDirectives => rfl

theorem read_arguments {arguments : List Argument} (bare : ∀ argument ∈ arguments, argument.IsBare)
    (draft : Draft) :
    draft.read (arguments.flatMap Argument.words) =
      arguments.foldlM (fun draft argument => argument.apply draft) draft := by
  induction arguments generalizing draft with
  | nil => rfl
  | cons argument arguments ih =>
      obtain ⟨own, others⟩ := List.forall_mem_cons.1 bare
      rw [List.flatMap_cons, read_words draft own, List.foldlM_cons]
      exact congrArg _ (funext (ih others))

/-! ## Exchanging two arguments -/

namespace Argument

theorem set_path (draft : Draft) {argument : Argument} (option : argument.lead ≠ "") :
    (argument.set draft).path = draft.path := by
  cases argument with
  | file path => exact absurd rfl option
  | _ => rfl

theorem fault_option {argument : Argument} (option : argument.lead ≠ "")
    (file other : Option String) : argument.fault? file = argument.fault? other := by
  cases argument with
  | file path => exact absurd rfl option
  | _ => rfl

/-- Whether an argument is accepted does not depend on an argument of another kind. -/
theorem fault_set (draft : Draft) {left right : Argument} (apart : left.lead ≠ right.lead) :
    right.fault? (left.set draft).path = right.fault? draft.path := by
  by_cases option : right.lead = ""
  · rw [set_path draft (option ▸ apart)]
  · exact fault_option option _ _

/-- Arguments of different kinds change different fields. -/
theorem set_comm (draft : Draft) {left right : Argument} (apart : left.lead ≠ right.lead) :
    right.set (left.set draft) = left.set (right.set draft) := by
  cases left <;> cases right <;> first | rfl | exact absurd rfl apart

/-- A draft without a file refuses a color only, so it does not refuse two kinds. -/
theorem fault_alone {left right : Argument} (apart : left.lead ≠ right.lead)
    {file : Option String} (vacant : file = none ∨ left.lead ≠ "" ∧ right.lead ≠ "") :
    left.fault? file = none ∨ right.fault? file = none := by
  have colored : ∀ argument : Argument, file = none ∨ argument.lead ≠ "" →
      argument.lead = "--color=" ∨ argument.fault? file = none := by
    intro argument accepted
    cases argument with
    | file path =>
        right
        rw [accepted.resolve_right (absurd rfl), fault?, Option.map_none]
    | color value => exact .inl rfl
    | _ => exact .inr rfl
  rcases colored left (vacant.imp_right And.left) with left | left
  · rcases colored right (vacant.imp_right And.right) with right | right
    · exact absurd (left.trans right.symm) apart
    · exact .inr right
  · exact .inl left

/-- Two kinds of arguments, one after the other, both judged by the draft before them. -/
theorem apply_pair (draft : Draft) {left right : Argument} (apart : left.lead ≠ right.lead) :
    (left.apply draft >>= fun draft => right.apply draft) =
      match left.fault? draft.path, right.fault? draft.path with
      | none, none => .ok (right.set (left.set draft))
      | none, some fault => .error fault
      | some fault, _ => .error fault := by
  rw [apply]
  cases left.fault? draft.path with
  | some fault => rfl
  | none =>
      change right.apply (left.set draft) = _
      rw [apply, fault_set draft apart]
      cases right.fault? draft.path <;> rfl

/-- Arguments of two kinds give the same draft, or the same error, in both orders. -/
theorem apply_comm (draft : Draft) {left right : Argument} (apart : left.lead ≠ right.lead)
    (vacant : draft.path = none ∨ left.lead ≠ "" ∧ right.lead ≠ "") :
    (left.apply draft >>= fun draft => right.apply draft) =
      right.apply draft >>= fun draft => left.apply draft := by
  rw [apply_pair draft apart, apply_pair draft apart.symm, set_comm draft apart]
  rcases fault_alone apart vacant with accepted | accepted
  · rw [accepted]
    cases right.fault? draft.path <;> rfl
  · rw [accepted]
    cases left.fault? draft.path <;> rfl

end Argument

/-! ## All orders -/

variable {draft : Draft} {first second : List Argument}

theorem vacant_set {argument : Argument}
    (vacant : draft.path = none ∨ ∀ other ∈ argument :: first, other.lead ≠ "")
    (apart : ∀ other ∈ first, argument.lead ≠ other.lead) :
    (argument.set draft).path = none ∨ ∀ other ∈ first, other.lead ≠ "" := by
  by_cases option : argument.lead = ""
  · exact .inr fun other member => option ▸ (apart other member).symm
  · rw [Argument.set_path draft option]
    exact vacant.imp_right fun options other member => options other (.tail _ member)

/-- Arguments of pairwise different kinds are read alike in every order, by a draft that has
place for the file among them. -/
theorem foldlM_perm (perm : first.Perm second) (apart : (first.map Argument.lead).Nodup)
    (vacant : draft.path = none ∨ ∀ argument ∈ first, argument.lead ≠ "") :
    first.foldlM (fun draft argument => argument.apply draft) draft =
      second.foldlM (fun draft argument => argument.apply draft) draft := by
  induction perm generalizing draft with
  | nil => rfl
  | @cons argument left right perm ih =>
      obtain ⟨own, apart⟩ := List.nodup_cons.1 apart
      rw [List.foldlM_cons, List.foldlM_cons, Argument.apply]
      cases argument.fault? draft.path with
      | some fault => rfl
      | none =>
          refine ih apart (vacant_set vacant fun other member same => own ?_)
          exact List.mem_map.2 ⟨other, member, same.symm⟩
  | swap left right arguments =>
      have kinds : right.lead ≠ left.lead := fun same =>
        (List.nodup_cons.1 apart).1 (same ▸ List.mem_cons_self)
      have fits : draft.path = none ∨ right.lead ≠ "" ∧ left.lead ≠ "" :=
        vacant.imp_right fun options =>
          ⟨options right List.mem_cons_self, options left (.tail _ List.mem_cons_self)⟩
      have exchange := Argument.apply_comm draft kinds fits
      simp only [List.foldlM_cons, ← bind_assoc, exchange]
  | trans perm other ih next =>
      rw [ih apart vacant]
      refine next ((perm.map _).nodup_iff.1 apart) ?_
      exact vacant.imp_right fun options argument member =>
        options argument (perm.mem_iff.2 member)

/-- A command with a file and options of pairwise different kinds gives the same options, or the
same usage error, in every order of its arguments. -/
theorem ofArguments_perm (command : String) {first second : List Argument}
    (perm : first.Perm second) (apart : (first.map Argument.lead).Nodup)
    (bare : ∀ argument ∈ first, argument.IsBare) :
    ofArguments (command :: first.flatMap Argument.words) =
      ofArguments (command :: second.flatMap Argument.words) := by
  have permuted : ∀ argument ∈ second, argument.IsBare := fun argument member =>
    bare argument (perm.mem_iff.2 member)
  have same : Draft.start.read (first.flatMap Argument.words) =
      Draft.start.read (second.flatMap Argument.words) := by
    rw [read_arguments bare, read_arguments permuted]
    exact foldlM_perm perm apart (.inl rfl)
  rw [ofArguments, ofArguments, same]

/-- The word behind `-o` is its path in both orders, though it looks like an option. -/
theorem optionLikeOutput_perm :
    ofArguments ["generate", "a.cpps", "-o", "--json", "--color=never"] =
        ofArguments ["generate", "--color=never", "-o", "--json", "a.cpps"] ∧
      ofArguments ["generate", "a.cpps", "-o", "--json", "--color=never"] =
        .ok ⟨.generate, "a.cpps", some "--json", .terminal, .never, .filtered, true⟩ := by
  refine ⟨?_, by rfl⟩
  refine @ofArguments_perm "generate" [.file "a.cpps", .output "--json", .color "never"]
    [.color "never", .output "--json", .file "a.cpps"] (by decide) (by decide) ?_
  simp [Argument.IsBare]

end CppsFrontend.Options
