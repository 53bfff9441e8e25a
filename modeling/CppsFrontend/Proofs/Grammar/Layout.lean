import CppsFrontend.Proofs.Grammar.Correspondence

/-!
# Layout

Line breaks, indentation, comments and spacing reach the productions only as locations.
Where tokens have the same lexemes and texts, and the same neighbours touch, a file is
parsed into the same trees but for the locations in them, with the same messages.
-/

set_option autoImplicit false

namespace CppsFrontend

/-- Tokens with the same lexemes and texts, of which the same neighbours touch. -/
structure SameWriting (first second : TokenStream) : Prop where
  size : first.size = second.size
  lexeme : ∀ place, place < first.size →
    (first.get place).lexeme = (second.get place).lexeme
  text : ∀ place, place < first.size → (first.get place).text = (second.get place).text
  adjacent : ∀ place, place + 1 < first.size →
    (first.get place).isAdjacentTo (first.get (place + 1)) =
      (second.get place).isAdjacentTo (second.get (place + 1))

open Grammar

def unplacedComparison (first second : TokenStream) : Comparison :=
  ⟨first, second, 0, Relocation.unplaced.location⟩

theorem lexeme_get {first second : TokenStream} (size : first.size = second.size)
    (lexeme : ∀ place, place < first.size →
      (first.get place).lexeme = (second.get place).lexeme) (place : TokenId) :
    (first.get place).lexeme = (second.get place).lexeme := by
  by_cases inside : place < first.size
  · exact lexeme place inside
  · rw [first.get_of_size_le place (Nat.le_of_not_lt inside),
      second.get_of_size_le place (size ▸ Nat.le_of_not_lt inside)]

/-- Streams with the same lexemes and texts, in which the same marks continue a postfix
chain, are aligned as far as locations are left out. -/
theorem unplacedComparison_aligned {first second : TokenStream} (size : first.size = second.size)
    (lexeme : ∀ place, place < first.size →
      (first.get place).lexeme = (second.get place).lexeme)
    (text : ∀ place, place < first.size → (first.get place).text = (second.get place).text)
    (continues : ∀ place, place + 1 < first.size →
      continuesPostfix (first.get place) (first.get (place + 1)) (first.get (place + 2)).lexeme =
        continuesPostfix (second.get place) (second.get (place + 1))
          (second.get (place + 2)).lexeme) :
    (unplacedComparison first second).Aligned where
  size := size
  token place := by
    change Comparison.SameToken _ (first.get place) (second.get place)
    by_cases inside : place < first.size
    · exact ⟨lexeme place inside, text place inside, rfl⟩
    · have ended₁ := first.get_of_size_le place (Nat.le_of_not_lt inside)
      have ended₂ := second.get_of_size_le place (size ▸ Nat.le_of_not_lt inside)
      rw [ended₁, ended₂]
      exact ⟨rfl, rfl, rfl⟩
  report _ := rfl
  continues := continues
  opening _ _ := rfl

theorem SameWriting.aligned {first second : TokenStream} (same : SameWriting first second) :
    (unplacedComparison first second).Aligned := by
  have lexeme := lexeme_get same.size same.lexeme
  refine unplacedComparison_aligned same.size same.lexeme same.text fun place inside => ?_
  exact continuesPostfix_alike (lexeme _) (lexeme _) (same.adjacent place inside)

/-- Aligned streams are parsed into the same trees but for their locations, with the same
messages, up to the same place. -/
theorem parseAfter_aligned (reporting : Reporting) (earlier : Array Entry)
    {first second : TokenStream} (aligned : (unplacedComparison first second).Aligned) :
    relocate .unplaced (parseAfter earlier reporting first).declarations =
        relocate .unplaced (parseAfter earlier reporting second).declarations ∧
      (parseAfter earlier reporting first).errors.map Entry.message =
        (parseAfter earlier reporting second).errors.map Entry.message ∧
      (parseAfter earlier reporting first).position =
        (parseAfter earlier reporting second).position := by
  have size : first.size = second.size := aligned.size
  have inner : MatchesNested (unplacedComparison first second) reporting 0
      (productions (first.size + 1)) (productions (second.size + 1)) := by
    rw [← size]
    exact matchesNested_productions aligned (first.size + 1) 0 0 (by simp [unplacedComparison])
  have parallel : (unplacedComparison first second).Parallel ⟨0, earlier⟩ ⟨0, earlier⟩ :=
    ⟨rfl, rfl, Nat.zero_le _⟩
  obtain ⟨run₁, run₂, alike, moved, _⟩ := file_matches aligned inner parallel
  rw [parseAfter_eq run₁, parseAfter_eq run₂]
  refine ⟨alike.getD, ?_, moved.position.symm⟩
  have messages := congrArg (Array.map Entry.message) moved.reports
  rwa [Array.map_map, Array.map_map] at messages

/-- Parsing does not depend on the layout: the trees are the same but for their locations,
and so are the messages and the place where the parser stops. -/
theorem parseAfter_unplaced (reporting : Reporting) (earlier : Array Entry)
    {first second : TokenStream} (same : SameWriting first second) :
    relocate .unplaced (parseAfter earlier reporting first).declarations =
        relocate .unplaced (parseAfter earlier reporting second).declarations ∧
      (parseAfter earlier reporting first).errors.map Entry.message =
        (parseAfter earlier reporting second).errors.map Entry.message ∧
      (parseAfter earlier reporting first).position =
        (parseAfter earlier reporting second).position :=
  parseAfter_aligned reporting earlier same.aligned

/-- The tokens of `x: T = a*; y` in one line. -/
def oneLine : TokenStream := .ofTokens [
  ⟨.identifier, ⟨some 0, some 0⟩, "x"⟩,
  ⟨.punctuator .colon, ⟨some 0, some 1⟩, ":"⟩,
  ⟨.identifier, ⟨some 0, some 3⟩, "T"⟩,
  ⟨.punctuator .assignment, ⟨some 0, some 5⟩, "="⟩,
  ⟨.identifier, ⟨some 0, some 7⟩, "a"⟩,
  ⟨.punctuator .multiply, ⟨some 0, some 8⟩, "*"⟩,
  ⟨.punctuator .semicolon, ⟨some 0, some 9⟩, ";"⟩,
  ⟨.identifier, ⟨some 0, some 11⟩, "y"⟩]

def fourLines : TokenStream := .ofTokens [
  ⟨.identifier, ⟨some 0, some 4⟩, "x"⟩,
  ⟨.punctuator .colon, ⟨some 0, some 5⟩, ":"⟩,
  ⟨.identifier, ⟨some 1, some 0⟩, "T"⟩,
  ⟨.punctuator .assignment, ⟨some 2, some 0⟩, "="⟩,
  ⟨.identifier, ⟨some 2, some 2⟩, "a"⟩,
  ⟨.punctuator .multiply, ⟨some 2, some 3⟩, "*"⟩,
  ⟨.punctuator .semicolon, ⟨some 2, some 4⟩, ";"⟩,
  ⟨.identifier, ⟨some 3, some 0⟩, "y"⟩]

theorem fourLines_unplaced :
    SameWriting oneLine fourLines ∧
      (parse .filtered oneLine).declarations.length = 1 ∧
      relocate .unplaced (parse .filtered oneLine).declarations =
        relocate .unplaced (parse .filtered fourLines).declarations ∧
      (parse .filtered fourLines).errors.map Entry.message = #["expected a declaration"] ∧
      (parse .filtered fourLines).position = 7 := by
  obtain ⟨size, lexeme, text, touching⟩ :
      oneLine.size = fourLines.size ∧
        (∀ place < 8, (oneLine.get place).lexeme = (fourLines.get place).lexeme) ∧
        (∀ place < 8, (oneLine.get place).text = (fourLines.get place).text) ∧
        ∀ place < 7, (oneLine.get place).isAdjacentTo (oneLine.get (place + 1)) =
          (fourLines.get place).isAdjacentTo (fourLines.get (place + 1)) := by
    decide
  have same : SameWriting oneLine fourLines :=
    ⟨size, lexeme, text, fun place inside => touching place (Nat.lt_of_succ_lt_succ inside)⟩
  obtain ⟨single, messages, position⟩ :
      (parse .filtered oneLine).declarations.length = 1 ∧
        (parse .filtered oneLine).errors.map Entry.message = #["expected a declaration"] ∧
        (parse .filtered oneLine).position = 7 := by
    decide +kernel
  obtain ⟨trees, sameMessages, samePosition⟩ := parseAfter_unplaced .filtered #[] same
  exact ⟨same, single, trees, sameMessages.symm.trans messages,
    samePosition.symm.trans position⟩

end CppsFrontend
