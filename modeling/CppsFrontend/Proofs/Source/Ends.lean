import CppsFrontend.Proofs.Source.Extent

/-!
# Tokens that end a definition

A definition ends at the first semicolon that is in no braces, or at the first closing
brace that closes its outermost one.  The extent of some lines says whether one of their
tokens does, and what of this a further line changes.
-/

set_option autoImplicit false

namespace CppsFrontend

open Text Lexical

/-! ## Ends among tokens -/

/-- How deep in braces the text behind some tokens is. -/
def braceDepth (lexemes : List Lexeme) : Nat :=
  lexemes.foldl (fun depth lexeme =>
    match lexeme with
    | .punctuator .openBrace => depth + 1
    | .punctuator .closeBrace => depth - 1
    | _ => depth) 0

/-- A token behind others ends a definition. -/
def EndsBehind (before : List Lexeme) (lexeme : Lexeme) : Prop :=
  lexeme = .punctuator .semicolon ∧ braceDepth before = 0 ∨
    lexeme = .punctuator .closeBrace ∧ braceDepth before = 1

def EndsIn (lexemes : List Lexeme) : Prop :=
  ∃ before lexeme behind, lexemes = before ++ lexeme :: behind ∧ EndsBehind before lexeme

/-- No token is behind one that ends a definition. -/
def EndsLast (lexemes : List Lexeme) : Prop :=
  ∀ before lexeme behind, lexemes = before ++ lexeme :: behind → EndsBehind before lexeme →
    behind = []

def Unmatched (lexemes : List Lexeme) : Prop :=
  ∃ before behind, lexemes = before ++ .punctuator .closeBrace :: behind ∧ braceDepth before = 0

theorem braceDepth_concat (lexemes : List Lexeme) (last : Lexeme) :
    braceDepth (lexemes ++ [last]) =
      match last with
      | .punctuator .openBrace => braceDepth lexemes + 1
      | .punctuator .closeBrace => braceDepth lexemes - 1
      | _ => braceDepth lexemes := by
  rw [braceDepth, List.foldl_append]
  rfl

theorem concat_split {α : Type} {whole before behind : List α} {item last : α} :
    whole ++ [last] = before ++ item :: behind ↔
      before = whole ∧ item = last ∧ behind = [] ∨
        ∃ rest, behind = rest ++ [last] ∧ whole = before ++ item :: rest := by
  constructor
  · intro split
    rcases List.eq_nil_or_concat behind with rfl | ⟨rest, final, rfl⟩
    · obtain ⟨rfl, same⟩ := List.append_inj' split rfl
      cases same
      exact .inl ⟨rfl, rfl, rfl⟩
    · rw [List.concat_eq_append, ← List.cons_append, ← List.append_assoc] at split
      obtain ⟨rfl, same⟩ := List.append_inj' split rfl
      cases same
      exact .inr ⟨rest, List.concat_eq_append .., rfl⟩
  · rintro (⟨rfl, rfl, rfl⟩ | ⟨rest, rfl, rfl⟩)
    · rfl
    · rw [List.append_assoc]
      rfl

variable {lexemes : List Lexeme} {last : Lexeme}

theorem endsIn_concat : EndsIn (lexemes ++ [last]) ↔ EndsIn lexemes ∨ EndsBehind lexemes last := by
  constructor
  · rintro ⟨before, lexeme, behind, split, ends⟩
    rcases concat_split.mp split with ⟨rfl, rfl, _⟩ | ⟨rest, _, inner⟩
    · exact .inr ends
    · exact .inl ⟨before, lexeme, rest, inner, ends⟩
  · rintro (⟨before, lexeme, rest, inner, ends⟩ | ends)
    · exact ⟨before, lexeme, rest ++ [last], concat_split.mpr (.inr ⟨rest, rfl, inner⟩), ends⟩
    · exact ⟨lexemes, last, [], rfl, ends⟩

theorem endsLast_concat : EndsLast (lexemes ++ [last]) ↔ ¬ EndsIn lexemes := by
  constructor
  · rintro endsLast ⟨before, lexeme, rest, inner, ends⟩
    have none := endsLast before lexeme (rest ++ [last])
      (concat_split.mpr (.inr ⟨rest, rfl, inner⟩)) ends
    cases (List.append_eq_nil_iff.mp none).2
  · intro endless before lexeme behind split ends
    rcases concat_split.mp split with ⟨_, _, none⟩ | ⟨rest, _, inner⟩
    · exact none
    · exact absurd ⟨before, lexeme, rest, inner, ends⟩ endless

theorem unmatched_concat : Unmatched (lexemes ++ [last]) ↔
    Unmatched lexemes ∨ last = .punctuator .closeBrace ∧ braceDepth lexemes = 0 := by
  constructor
  · rintro ⟨before, behind, split, depth⟩
    rcases concat_split.mp split with ⟨rfl, rfl, _⟩ | ⟨rest, _, inner⟩
    · exact .inr ⟨rfl, depth⟩
    · exact .inl ⟨before, rest, inner, depth⟩
  · rintro (⟨before, rest, inner, depth⟩ | ⟨rfl, depth⟩)
    · exact ⟨before, rest ++ [last], concat_split.mpr (.inr ⟨rest, rfl, inner⟩), depth⟩
    · exact ⟨lexemes, [], rfl, depth⟩

theorem not_endsIn_nil : ¬ EndsIn [] := by
  rintro ⟨before, lexeme, behind, split, _⟩
  cases before <;> cases split

namespace Extent

variable {extent : Extent}

/-- An extent says where some tokens end a definition. -/
structure Describes (extent : Extent) (lexemes : List Lexeme) : Prop where
  ended : extent.ended = true ↔ EndsIn lexemes
  going : extent.ended = false → extent.depth = braceDepth lexemes
  closed : extent.ended = true → extent.depth = 0
  sound : extent.sound = true ↔ ¬ Unmatched lexemes ∧ EndsLast lexemes

theorem describes_start : Describes start [] := by
  refine ⟨⟨nofun, fun ends => absurd ends not_endsIn_nil⟩, fun _ => rfl, nofun, ?_⟩
  refine ⟨fun _ => ⟨?_, ?_⟩, fun _ => rfl⟩
  · rintro ⟨before, behind, split, _⟩
    cases before <;> cases split
  · intro before lexeme behind split
    cases before <;> cases split

structure Inside (extent : Extent) (lexemes : List Lexeme) : Prop where
  endless : ¬ EndsIn lexemes
  going : extent.ended = false
  depth : extent.depth = braceDepth lexemes
  sound : extent.sound = true ↔ ¬ Unmatched lexemes

theorem Describes.inside (describes : Describes extent lexemes) (going : extent.ended = false) :
    Inside extent lexemes := by
  have endless : ¬ EndsIn lexemes := by
    intro ends
    rw [describes.ended.mpr ends] at going
    cases going
  have endsLast : EndsLast lexemes := fun before lexeme behind split ends =>
    absurd ⟨before, lexeme, behind, split, ends⟩ endless
  refine ⟨endless, going, describes.going going, ?_⟩
  rw [describes.sound]
  exact ⟨And.left, fun matched => ⟨matched, endsLast⟩⟩

variable {after : Extent}

theorem Inside.concat (inside : Inside extent lexemes)
    (ended : after.ended = true ↔ EndsBehind lexemes last)
    (going : after.ended = false → after.depth = braceDepth (lexemes ++ [last]))
    (closed : after.ended = true → after.depth = 0)
    (sound : after.sound = true ↔ extent.sound = true ∧
      ¬ (last = .punctuator .closeBrace ∧ braceDepth lexemes = 0)) :
    Describes after (lexemes ++ [last]) := by
  refine ⟨?_, going, closed, ?_⟩
  · rw [ended, endsIn_concat]
    exact ⟨.inr, fun either => either.resolve_left inside.endless⟩
  · rw [sound, inside.sound, unmatched_concat, endsLast_concat, not_or]
    exact ⟨fun both => ⟨both, inside.endless⟩, And.left⟩

theorem Inside.openBrace (inside : Inside extent lexemes) :
    Describes { extent with depth := extent.depth + 1 }
      (lexemes ++ [.punctuator .openBrace]) := by
  refine inside.concat ⟨?_, ?_⟩ (fun _ => ?_) ?_ ⟨fun sound => ⟨sound, nofun⟩, And.left⟩
  · rw [inside.going]
    exact nofun
  · rintro (⟨other, _⟩ | ⟨other, _⟩) <;> cases other
  · rw [braceDepth_concat, ← inside.depth]
  · rw [inside.going]
    exact nofun

theorem Inside.semicolon (inside : Inside extent lexemes) :
    Describes { extent with ended := extent.depth = 0 }
      (lexemes ++ [.punctuator .semicolon]) := by
  refine inside.concat ⟨?_, ?_⟩ (fun _ => ?_) ?_ ⟨fun sound => ⟨sound, nofun⟩, And.left⟩
  · intro ended
    exact .inl ⟨rfl, inside.depth.symm.trans (of_decide_eq_true ended)⟩
  · rintro (⟨_, depth⟩ | ⟨other, _⟩)
    · exact decide_eq_true (inside.depth.trans depth)
    · cases other
  · rw [braceDepth_concat, ← inside.depth]
  · exact fun ended => of_decide_eq_true ended

theorem Inside.closeBrace (inside : Inside extent lexemes) :
    Describes extent.close (lexemes ++ [.punctuator .closeBrace]) := by
  have depth := inside.depth
  unfold Extent.close
  cases inner : extent.depth with
  | zero =>
      rw [inner] at depth
      refine inside.concat ⟨?_, ?_⟩ (fun _ => ?_) (fun _ => rfl) ⟨nofun, ?_⟩
      · rw [inside.going]
        exact nofun
      · rintro (⟨other, _⟩ | ⟨_, one⟩)
        · cases other
        · rw [one] at depth
          cases depth
      · rw [braceDepth_concat, ← depth]
      · exact fun both => absurd ⟨rfl, depth.symm⟩ both.2
  | succ outer =>
      rw [inner] at depth
      refine inside.concat ⟨?_, ?_⟩ (fun _ => ?_) (fun ended => of_decide_eq_true ended) ?_
      · intro ended
        have zero : outer = 0 := of_decide_eq_true ended
        rw [zero] at depth
        exact .inr ⟨rfl, depth.symm⟩
      · rintro (⟨other, _⟩ | ⟨_, one⟩)
        · cases other
        · exact decide_eq_true (by omega)
      · rw [braceDepth_concat, ← depth]
        rfl
      · refine ⟨fun sound => ⟨sound, ?_⟩, And.left⟩
        rintro ⟨_, zero⟩
        omega

theorem Inside.other (inside : Inside extent lexemes)
    (openBrace : last ≠ .punctuator .openBrace) (closeBrace : last ≠ .punctuator .closeBrace)
    (semicolon : last ≠ .punctuator .semicolon) : Describes extent (lexemes ++ [last]) := by
  refine inside.concat ⟨?_, ?_⟩ (fun _ => ?_) ?_ ⟨fun sound => ⟨sound, ?_⟩, And.left⟩
  · rw [inside.going]
    exact nofun
  · rintro (⟨same, _⟩ | ⟨same, _⟩)
    · exact absurd same semicolon
    · exact absurd same closeBrace
  · rw [braceDepth_concat, inside.depth]
    split
    · exact absurd rfl openBrace
    · exact absurd rfl closeBrace
    · rfl
  · rw [inside.going]
    exact nofun
  · exact fun both => closeBrace both.1

theorem Describes.next (describes : Describes extent lexemes) (last : Lexeme) :
    Describes (extent.next last) (lexemes ++ [last]) := by
  cases ended : extent.ended with
  | true =>
      have ends := describes.ended.mp ended
      rw [next_ended last ended]
      refine ⟨⟨fun _ => endsIn_concat.mpr (.inl ends), fun _ => ended⟩, ?_,
        fun _ => describes.closed ended, ?_⟩
      · intro going
        rw [show extent.ended = false from going] at ended
        cases ended
      · exact ⟨nofun, fun both => absurd ends (endsLast_concat.mp both.2)⟩
  | false =>
      have inside := describes.inside ended
      rw [next_going last ended]
      split
      · exact inside.openBrace
      · exact inside.closeBrace
      · exact inside.semicolon
      · rename_i openBrace closeBrace semicolon
        exact inside.other openBrace closeBrace semicolon

end Extent

/-! ## Lines of a definition -/

def lexemesOf (texts : List String) : List Lexeme :=
  (lex (.ofTexts texts)).stream.tokens.toList.map Token.lexeme

/-- Lines of the language that are lexed without errors, and have no delimiters in
character literals. -/
structure LexesPlainly (texts : List String) : Prop where
  errors : (lex (.ofTexts texts)).errors = #[]
  literals : ∀ token ∈ (lex (.ofTexts texts)).stream.tokens.toList,
    token.lexeme = .characterLiteral → ∀ c ∈ token.text.toList, isDelimiter c = false

def leavesOpen (texts : List String) : Bool := (progressOver texts).pending.isSome

variable {texts : List String} {text : String}

theorem lexemesOf_progress (texts : List String) :
    lexemesOf texts = ((progressOver texts).tokens.toList.map Token.written).map Prod.fst := by
  rw [List.map_map]
  rfl

def piecesBehind (texts : List String) (text : String) : List Piece :=
  pieces (leavesOpen texts) text.toList

theorem lexemesOf_concat (texts : List String) (text : String) :
    lexemesOf (texts ++ [text]) =
      lexemesOf texts ++ ((piecesBehind texts text).filterMap Piece.written?).map Prod.fst := by
  have adds := (readLine_adds (progressOver texts) texts.length text).1.tokens
  rw [lexemesOf_progress, progressOver_concat, adds, List.map_append, ← lexemesOf_progress]
  rfl

theorem leavesOpen_concat (texts : List String) (text : String) :
    leavesOpen (texts ++ [text]) = openAfter (leavesOpen texts) (piecesBehind texts text) := by
  rw [leavesOpen, progressOver_concat]
  exact (readLine_adds (progressOver texts) texts.length text).2

namespace LexesPlainly

theorem of_concat (plainly : LexesPlainly (texts ++ [text])) :
    LexesPlainly texts ∧ ∀ piece ∈ piecesBehind texts text, DefinitionScan.Readable piece := by
  have adds := (readLine_adds (progressOver texts) texts.length text).1
  have errors : ((progressOver texts).readLine texts.length text).errors = #[] := by
    rw [← progressOver_concat]
    exact plainly.errors
  have written : ∀ pair ∈ (progressOver texts).tokens.toList.map Token.written ++
      (piecesBehind texts text).filterMap Piece.written?,
      pair.1 = .characterLiteral → ∀ c ∈ pair.2, isDelimiter c = false := by
    intro pair member
    have all := adds.tokens
    rw [← progressOver_concat] at all
    rw [piecesBehind, leavesOpen, ← all] at member
    obtain ⟨token, among, rfl⟩ := List.mem_map.mp member
    exact plainly.literals token among
  obtain ⟨before, faultless⟩ := adds.errors.mp errors
  refine ⟨⟨before, ?_⟩, ?_⟩
  · intro token member
    exact written token.written (List.mem_append_left _ (List.mem_map_of_mem member))
  · intro piece member
    refine ⟨faultless piece member, ?_⟩
    intro kind
    refine written (.characterLiteral, piece.text) (List.mem_append_right _ ?_) rfl
    exact List.mem_filterMap.mpr ⟨piece, member, by rw [Piece.written?, kind]⟩

theorem of_append {more : List String} (plainly : LexesPlainly (texts ++ more)) :
    LexesPlainly texts := by
  induction more generalizing texts with
  | nil =>
      rw [List.append_nil] at plainly
      exact plainly
  | cons text more induction =>
      rw [List.append_cons] at plainly
      exact (induction plainly).of_concat.1

end LexesPlainly

/-- The tokens of more lines begin with the same tokens. -/
theorem EndsIn.append {more : List String} (ends : EndsIn (lexemesOf texts)) :
    EndsIn (lexemesOf (texts ++ more)) := by
  induction more generalizing texts with
  | nil =>
      rw [List.append_nil]
      exact ends
  | cons text more induction =>
      rw [List.append_cons]
      apply induction
      obtain ⟨before, lexeme, behind, split, last⟩ := ends
      rw [lexemesOf_concat, split, List.append_assoc]
      exact ⟨before, lexeme, _, rfl, last⟩

/-! ## The extent of some lines -/

namespace Extent

variable {extent : Extent}

def ofTexts (texts : List String) : Extent := (lexemesOf texts).foldl next start

theorem describes_foldl {lexemes : List Lexeme} (describes : Describes extent lexemes)
    (more : List Lexeme) : Describes (more.foldl next extent) (lexemes ++ more) := by
  induction more generalizing extent lexemes with
  | nil =>
      rw [List.append_nil]
      exact describes
  | cons lexeme more induction =>
      rw [List.append_cons]
      exact induction (describes.next lexeme)

theorem ofTexts_describes (texts : List String) :
    Describes (ofTexts texts) (lexemesOf texts) :=
  describes_foldl describes_start (lexemesOf texts)

theorem across_written (extent : Extent) (pieces : List Piece) :
    extent.across pieces =
      ((pieces.filterMap Piece.written?).map Prod.fst).foldl next extent := by
  induction pieces generalizing extent with
  | nil => rfl
  | cons piece pieces induction =>
      by_cases token : ∃ lexeme, piece.kind = .token lexeme
      · obtain ⟨lexeme, kind⟩ := token
        have written : piece.written? = some (lexeme, piece.text) := by
          rw [Piece.written?, kind]
        rw [across_token pieces kind, List.filterMap_cons, written, induction]
        rfl
      · have other : ∀ lexeme, piece.kind ≠ .token lexeme :=
          fun lexeme kind => token ⟨lexeme, kind⟩
        have written : piece.written? = none := by
          unfold Piece.written?
          split
          · rename_i lexeme kind
            exact absurd kind (other lexeme)
          · rfl
        rw [across_other pieces other, List.filterMap_cons, written, induction]

theorem ofTexts_concat (texts : List String) (text : String) :
    ofTexts (texts ++ [text]) = (ofTexts texts).across (piecesBehind texts text) := by
  rw [ofTexts, lexemesOf_concat, List.foldl_append, across_written]
  rfl

/-- An extent with faults before, if not `sound`. -/
def after (extent : Extent) (sound : Bool) : Extent :=
  { extent with sound := sound && extent.sound }

theorem after_next (extent : Extent) (sound : Bool) (lexeme : Lexeme) :
    (extent.after sound).next lexeme = (extent.next lexeme).after sound := by
  obtain ⟨depth, ended, inner⟩ := extent
  cases ended with
  | true => simp [next, after]
  | false =>
      unfold next
      split
      · contradiction
      · split <;> cases depth <;> simp [after, close]

/-- Faults before do not matter to what follows. -/
theorem after_foldl (extent : Extent) (sound : Bool) (lexemes : List Lexeme) :
    lexemes.foldl next (extent.after sound) = (lexemes.foldl next extent).after sound := by
  induction lexemes generalizing extent with
  | nil => rfl
  | cons lexeme lexemes induction =>
      rw [List.foldl_cons, List.foldl_cons, after_next, induction]

end Extent

end CppsFrontend
