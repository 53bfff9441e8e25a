import CppsFrontend.Proofs.Grammar.Parsing
import CppsFrontend.Proofs.Source.Ends

/-!
# Braces in a file

Every brace that a phrase is written with is closed in the phrase, and a declaration that
must be closed ends with a semicolon or with a closing brace.  So the last token of a
declaration of a file is outside of braces.
-/

set_option autoImplicit false

namespace CppsFrontend

/-! ## Balanced tokens -/

/-- How deep in braces the text behind some tokens is, if the first of them is at a
depth; none if a closing brace closes none. -/
def depthBehind (depth : Nat) : List Lexeme → Option Nat
  | [] => some depth
  | .punctuator .openBrace :: rest => depthBehind (depth + 1) rest
  | .punctuator .closeBrace :: rest =>
      match depth with
      | 0 => none
      | outer + 1 => depthBehind outer rest
  | _ :: rest => depthBehind depth rest

def Balanced (lexemes : List Lexeme) : Prop := ∀ depth, depthBehind depth lexemes = some depth

variable {lexeme : Lexeme} {lexemes first second : List Lexeme} {depth : Nat}

@[simp] theorem depthBehind_nil : depthBehind depth [] = some depth := rfl

@[simp] theorem depthBehind_openBrace :
    depthBehind depth (.punctuator .openBrace :: lexemes) = depthBehind (depth + 1) lexemes :=
  rfl

@[simp] theorem depthBehind_closeBrace :
    depthBehind (depth + 1) (.punctuator .closeBrace :: lexemes) = depthBehind depth lexemes :=
  rfl

@[simp] theorem depthBehind_other (notOpen : lexeme ≠ .punctuator .openBrace)
    (notClose : lexeme ≠ .punctuator .closeBrace) :
    depthBehind depth (lexeme :: lexemes) = depthBehind depth lexemes := by
  cases lexeme with
  | punctuator mark =>
      cases mark with
      | openBrace => exact absurd rfl notOpen
      | closeBrace => exact absurd rfl notClose
      | _ => rfl
  | _ => rfl

@[simp] theorem depthBehind_append (depth : Nat) (first second : List Lexeme) :
    depthBehind depth (first ++ second) =
      (depthBehind depth first).bind fun depth => depthBehind depth second := by
  induction first generalizing depth with
  | nil => rfl
  | cons lexeme first induction =>
      rw [List.cons_append]
      by_cases opening : lexeme = .punctuator .openBrace
      · rw [opening]
        exact induction (depth + 1)
      · by_cases closing : lexeme = .punctuator .closeBrace
        · rw [closing]
          cases depth with
          | zero => rfl
          | succ outer => exact induction outer
        · rw [depthBehind_other opening closing, depthBehind_other opening closing,
            induction depth]

theorem braceDepth_of_depthBehind (known : depthBehind 0 lexemes = some depth) :
    braceDepth lexemes = depth := by
  unfold braceDepth
  generalize 0 = start at known ⊢
  induction lexemes generalizing start with
  | nil => exact Option.some.inj known
  | cons lexeme lexemes induction =>
      rw [List.foldl_cons]
      split
      · exact induction _ known
      · cases start with
        | zero => cases known
        | succ outer => exact induction _ known
      · rename_i notOpen notClose
        rw [depthBehind_other notOpen notClose] at known
        exact induction _ known

/-- If the depth behind some tokens is known, each closing brace closes one. -/
theorem not_unmatched_of_depthBehind (known : depthBehind 0 lexemes = some depth) :
    ¬ Unmatched lexemes := by
  rintro ⟨before, behind, rfl, outside⟩
  rw [depthBehind_append, Option.bind_eq_some_iff] at known
  obtain ⟨inner, known, rest⟩ := known
  rw [braceDepth_of_depthBehind known] at outside
  rw [outside] at rest
  cases rest

def IsClosing (lexeme : Lexeme) : Prop :=
  lexeme = .punctuator .semicolon ∨ lexeme = .punctuator .closeBrace

/-- The last of some tokens with closed braces is in none. -/
theorem Balanced.endsBehind (balanced : Balanced (lexemes ++ [lexeme]))
    (closing : IsClosing lexeme) : EndsBehind lexemes lexeme := by
  have known := balanced 0
  rw [depthBehind_append, Option.bind_eq_some_iff] at known
  obtain ⟨before, inner, known⟩ := known
  have same := braceDepth_of_depthBehind inner
  rcases closing with rfl | rfl
  · cases known
    exact .inl ⟨rfl, same⟩
  · cases before with
    | zero => cases known
    | succ outer =>
        cases known
        exact .inr ⟨rfl, same⟩

namespace Grammar

/-! ## Braces of a phrase -/

/-- The token that a rule asks for; a name where it leaves a choice, which is never a brace. -/
@[simp] def Leaf.shown : Leaf → Lexeme
  | .stored _ (.exactly lexeme) => lexeme
  | .stored _ _ => .identifier
  | .fixed _ lexeme => lexeme
  | .unrecorded _ choice => choice.lexeme

variable {stream : TokenStream} {phrase : Phrase} {leaves : List Leaf}

@[simp] theorem semicolonLeaf_shown (semicolon : Bool) (place : TokenId) :
    (semicolonLeaf semicolon place).shown = .punctuator .semicolon := by
  cases semicolon <;> rfl

@[simp] theorem modifierLeaf_shown (role : ParameterRole) (modifier : ParameterModifier)
    (place : TokenId) : (modifierLeaf role modifier place).shown = .parameterModifier modifier := by
  unfold modifierLeaf
  split
  · rename_i same
    rw [same]
    rfl
  · rfl

@[simp] theorem depthBehind_optionalStored (place : Option TokenId) {word : Lexeme}
    (notOpen : word ≠ .punctuator .openBrace) (notClose : word ≠ .punctuator .closeBrace) :
    depthBehind depth ((optionalStored place word).map Leaf.shown) = some depth := by
  cases place with
  | none => rfl
  | some place => exact depthBehind_other notOpen notClose

@[simp] theorem depthBehind_optionalFixed (present : Bool) (place : TokenId) {word : Lexeme}
    (notOpen : word ≠ .punctuator .openBrace) (notClose : word ≠ .punctuator .closeBrace) :
    depthBehind depth ((optionalFixed present place word).map Leaf.shown) = some depth := by
  cases present with
  | false => rfl
  | true => exact depthBehind_other notOpen notClose

@[simp] theorem depthBehind_signs (signs : List TokenId) :
    depthBehind depth ((signs.map (Leaf.stored · .sign)).map Leaf.shown) = some depth := by
  induction signs with
  | nil => rfl
  | cons sign signs induction => exact induction

/-- A phrase opens and closes the same braces, which are those of its blocks. -/
theorem Derives.balanced (derives : Derives stream phrase leaves) :
    Balanced (leaves.map Leaf.shown) := by
  induction derives with
  | closed colon close typed ofType =>
      intro depth
      rw [List.map_append, List.map_singleton, semicolonLeaf_shown, depthBehind_append]
      simp [ofType depth]
  | modifiedParameter word allowed derived ofDeclaration =>
      intro depth
      rw [List.map_cons, modifierLeaf_shown]
      simp [ofDeclaration depth]
  | basic signs derived continued ofPrimary ofTerms =>
      intro depth
      rw [List.map_append, List.map_append, depthBehind_append, depthBehind_append,
        depthBehind_signs, Option.bind_some, ofPrimary depth, Option.bind_some, ofTerms depth]
  | _ =>
      intro depth
      simp_all [Balanced, Choice.lexeme]

/-- Phrases that must end with a semicolon or with a block. -/
def Phrase.isClosed : Phrase → Bool
  | .declaration semicolon _ | .unnamed semicolon _ | .statement semicolon _ _ => semicolon
  | .compound _ _ => true
  | _ => false

def Closes (leaves : List Leaf) : Prop :=
  ∃ front last, leaves = front ++ [last] ∧ IsClosing last.shown

theorem Closes.append {tail : List Leaf} (head : List Leaf) (closes : Closes tail) :
    Closes (head ++ tail) := by
  obtain ⟨front, last, rfl, closing⟩ := closes
  exact ⟨head ++ front, last, (List.append_assoc ..).symm, closing⟩

theorem Closes.cons {tail : List Leaf} (leaf : Leaf) (closes : Closes tail) :
    Closes (leaf :: tail) := .append [leaf] closes

theorem closes_semicolon (head : List Leaf) (place : TokenId) :
    Closes (head ++ [.fixed place (.punctuator .semicolon)]) := ⟨head, _, rfl, .inl rfl⟩

theorem Derives.closes (derives : Derives stream phrase leaves)
    (closed : phrase.isClosed = true) : Closes leaves := by
  induction derives with
  | declaration named unnamed _ ofUnnamed => exact .append _ (ofUnnamed closed)
  | initialized colon equal typed initial _ ofInitial =>
      exact .append _ (.cons _ (ofInitial closed))
  | closed colon close typed =>
      cases show _ = true from closed
      exact closes_semicolon _ close
  | declarationStatement derived ofDeclaration => exact ofDeclaration closed
  | compoundStatement derived ofCompound => exact ofCompound rfl
  | expressionStatement close needed derived =>
      cases needed closed
      exact closes_semicolon _ close
  | whileStatement keyword tested repeated _ ofCompound => exact .append _ (ofCompound rfl)
  | doStatement keyword word close => exact closes_semicolon _ close
  | emptyReturn keyword close => exact closes_semicolon [_] close
  | valueReturn keyword close => exact closes_semicolon _ close
  | selection keyword constant tested taken _ ofCompound => exact .append _ (ofCompound rfl)
  | alternative keyword word constant tested taken otherwise _ _ ofCompound =>
      exact .append _ (.cons _ (ofCompound rfl))
  | compound opening closing derived => exact ⟨_, _, rfl, .inr rfl⟩
  | _ => cases closed

/-! ## Braces of tokens -/

/-- No rule leaves a choice between a brace and something else. -/
theorem Terminal.Admits.noBrace {terminal : Terminal} {place : TokenId} {brace : Punctuator}
    (admits : terminal.Admits stream place) (free : ∀ word, terminal ≠ .exactly word)
    (isBrace : brace = .openBrace ∨ brace = .closeBrace) :
    (stream.get place).lexeme ≠ .punctuator brace := by
  intro same
  cases terminal with
  | exactly word => exact free word rfl
  | name =>
      have naming := admits.1
      rw [same] at naming
      cases naming
  | primary =>
      have primary : isPrimaryToken (stream.get place).lexeme = true := admits
      rw [same] at primary
      cases primary
  | sign =>
      rcases admits with sign | sign | sign <;> rw [same] at sign <;> cases sign <;>
        rcases isBrace with other | other <;> cases other
  | operator allowRelational level =>
      have found : Precedence.ofOperator? (stream.get place).lexeme allowRelational =
        some level := admits
      rw [same] at found
      rcases isBrace with rfl | rfl <;> cases found
  | mark =>
      have continued := admits.1
      unfold continuesPostfix at continued
      rw [same] at continued
      rcases isBrace with rfl | rfl <;> cases continued

theorem Leaf.Fits.shown {leaf : Leaf} (fits : leaf.Fits stream) :
    (stream.get leaf.place).lexeme = leaf.shown ∨
      leaf.shown = .identifier ∧ (stream.get leaf.place).lexeme ≠ .punctuator .openBrace ∧
        (stream.get leaf.place).lexeme ≠ .punctuator .closeBrace := by
  have free : ∀ {place terminal}, leaf = .stored place terminal →
      (∀ word, terminal ≠ .exactly word) →
        (stream.get leaf.place).lexeme ≠ .punctuator .openBrace ∧
          (stream.get leaf.place).lexeme ≠ .punctuator .closeBrace := by
    rintro place terminal rfl free
    exact ⟨Terminal.Admits.noBrace fits.2 free (.inl rfl),
      Terminal.Admits.noBrace fits.2 free (.inr rfl)⟩
  cases leaf with
  | fixed place word => exact .inl fits.2
  | unrecorded place choice => exact .inl fits.2
  | stored place terminal =>
      cases terminal with
      | exactly word => exact .inl fits.2
      | _ => exact .inr ⟨rfl, free rfl nofun⟩

theorem depthBehind_shown (leaves : List Leaf) (fits : ∀ leaf ∈ leaves, leaf.Fits stream)
    (depth : Nat) : depthBehind depth (leaves.map fun leaf => (stream.get leaf.place).lexeme) =
      depthBehind depth (leaves.map Leaf.shown) := by
  induction leaves generalizing depth with
  | nil => rfl
  | cons leaf leaves induction =>
      obtain ⟨first, rest⟩ := List.forall_mem_cons.mp fits
      have inner := induction rest
      rw [List.map_cons, List.map_cons]
      rcases first.shown with same | ⟨name, notOpen, notClose⟩
      · rw [same, ← List.singleton_append, depthBehind_append, funext inner,
          ← depthBehind_append, List.singleton_append]
      · rw [name, depthBehind_other notOpen notClose]
        exact inner depth

theorem Covers.lexemes_eq (covers : Covers stream 0 stream.size leaves) :
    stream.tokens.toList.map Token.lexeme =
      leaves.map fun leaf => (stream.get leaf.place).lexeme := by
  have places := covers.places
  rw [Nat.sub_zero, ← List.range_eq_range'] at places
  have read : leaves.map (fun leaf => (stream.get leaf.place).lexeme) =
      (leaves.map Leaf.place).map fun place => (stream.get place).lexeme := by
    rw [List.map_map]
    rfl
  rw [read, places]
  apply List.ext_getElem
  · simp [TokenStream.size]
  · intro place inside _
    have within : place < stream.tokens.size := by simpa using inside
    have found : stream.tokens[place]? = some stream.tokens[place] :=
      Array.getElem?_eq_getElem within
    simp [TokenStream.get, found]

/-- Without a report, the declarations of a file are all of its tokens. -/
theorem parse_consecutive {reporting : Reporting} (silent : (parse reporting stream).errors = #[]) :
    Consecutive stream (parse reporting stream).declarations 0 stream.size := by
  have everywhere : Places stream (fun _ => True) := ⟨fun _ _ => trivial, fun _ => trivial⟩
  obtain ⟨_, _, consecutive, ends⟩ := parseAfter_modes everywhere #[]
  rcases ends with ⟨whole, _, same⟩ | ⟨report, _, _, one, more, extended, _⟩
  · rw [whole] at consecutive
    cases reporting with
    | filtered => exact consecutive
    | verbatim =>
        rw [parse, same]
        exact consecutive
  · have reported : (parse reporting stream).errors.size ≠ 0 := by
      cases reporting with
      | filtered => simp [parse, one]
      | verbatim => simp [parse, extended]
    exact absurd (congrArg Array.size silent) reported

/-- The last token of a declaration of a file closes it, and all of its braces are closed. -/
theorem Written.closes {declaration : Declaration}
    (written : Written stream (.declaration true declaration) 0 stream.size) :
    ∃ before last, stream.tokens.toList.map Token.lexeme = before ++ [last] ∧
      EndsBehind before last ∧ ¬ Unmatched (before ++ [last]) := by
  obtain ⟨leaves, derives, covers, _⟩ := written
  obtain ⟨front, last, rfl, closing⟩ := derives.closes rfl
  have balanced : Balanced (stream.tokens.toList.map Token.lexeme) := by
    intro depth
    rw [covers.lexemes_eq, depthBehind_shown _ covers.fits]
    exact derives.balanced depth
  have lexemes := covers.lexemes_eq
  rw [List.map_append, List.map_singleton] at lexemes
  have same : (stream.get last.place).lexeme = last.shown := by
    rcases (covers.fits last (by simp)).shown with same | ⟨name, _⟩
    · exact same
    · rw [name] at closing
      rcases closing with other | other <;> cases other
  rw [same] at lexemes
  rw [lexemes] at balanced
  exact ⟨_, _, lexemes, balanced.endsBehind closing, not_unmatched_of_depthBehind (balanced 0)⟩

end Grammar

end CppsFrontend
