import CppsFrontend.Proofs.Grammar.Layout
import CppsFrontend.Tree.Listing

/-!
# Binary `*` and `&` between their operands

A `*` or `&` that touches the token before it may be a postfix operator.  Before an identifier
or an opening parenthesis it never is one, so that there it can be moved towards either operand
and away from it.  Before a literal or a keyword it is one as soon as it touches.
-/

set_option autoImplicit false

namespace CppsFrontend

open Grammar

/-- Streams with the same lexemes and texts, of which the same neighbours touch; only the token
at `place` may have been moved between its neighbours. -/
structure MovedAt (place : TokenId) (first second : TokenStream) : Prop where
  size : first.size = second.size
  lexeme : ∀ other, other < first.size →
    (first.get other).lexeme = (second.get other).lexeme
  text : ∀ other, other < first.size → (first.get other).text = (second.get other).text
  adjacent : ∀ other, other + 1 < first.size → other ≠ place → other + 1 ≠ place →
    (first.get other).isAdjacentTo (first.get (other + 1)) =
      (second.get other).isAdjacentTo (second.get (other + 1))

/-- Before an identifier or an opening parenthesis these marks continue no postfix chain. -/
theorem continuesPostfix_binary {before mark : Token} {after : Lexeme}
    (binary : mark.lexeme ∈ [.punctuator .multiply, .punctuator .ampersand])
    (operand : after ∈ [.identifier, .punctuator .openParenthesis]) :
    continuesPostfix before mark after = false := by
  simp only [List.mem_cons, List.not_mem_nil, or_false] at binary operand
  rcases binary with binary | binary <;> rcases operand with rfl | rfl <;>
    simp [continuesPostfix, binary, Lexeme.isIdentifier]

/-- What an operand begins with needs not to touch anything to continue a postfix chain, and
continues none if it is an identifier. -/
theorem continuesPostfix_operand {before₁ before₂ mark₁ mark₂ : Token} {after : Lexeme}
    (same : mark₁.lexeme = mark₂.lexeme)
    (operand : mark₁.lexeme ∈ [.identifier, .punctuator .openParenthesis]) :
    continuesPostfix before₁ mark₁ after = continuesPostfix before₂ mark₂ after := by
  simp only [List.mem_cons, List.not_mem_nil, or_false] at operand
  rcases operand with operand | operand <;> simp [continuesPostfix, ← same, operand]

theorem MovedAt.aligned {place : TokenId} {first second : TokenStream}
    (moved : MovedAt place first second)
    (binary : (first.get place).lexeme ∈ [.punctuator .multiply, .punctuator .ampersand])
    (operand : (first.get (place + 1)).lexeme ∈
      [.identifier, .punctuator .openParenthesis]) :
    (unplacedComparison first second).Aligned := by
  have lexeme := lexeme_get moved.size moved.lexeme
  refine unplacedComparison_aligned moved.size moved.lexeme moved.text fun other inside => ?_
  by_cases before : other + 1 = place
  · subst before
    have binary₂ := binary
    have operand₂ := operand
    rw [lexeme] at binary₂ operand₂
    rw [continuesPostfix_binary binary operand, continuesPostfix_binary binary₂ operand₂]
  · by_cases behind : other = place
    · subst behind
      rw [lexeme (other + 2)]
      exact continuesPostfix_operand (lexeme _) operand
    · exact continuesPostfix_alike (lexeme _) (lexeme _)
        (moved.adjacent other inside behind before)

/-- Where a `*` or `&` stands between its neighbours does not matter if an identifier or an
opening parenthesis follows it: the trees are the same but for their locations, and so are the
messages.  So a file that is parsed without errors is so as well when the operator touches the
token before it. -/
theorem parseAfter_moved (reporting : Reporting) (earlier : Array Entry) {place : TokenId}
    {first second : TokenStream} (moved : MovedAt place first second)
    (binary : (first.get place).lexeme ∈ [.punctuator .multiply, .punctuator .ampersand])
    (operand : (first.get (place + 1)).lexeme ∈
      [.identifier, .punctuator .openParenthesis]) :
    relocate .unplaced (parseAfter earlier reporting first).declarations =
        relocate .unplaced (parseAfter earlier reporting second).declarations ∧
      (parseAfter earlier reporting first).errors.map Entry.message =
        (parseAfter earlier reporting second).errors.map Entry.message ∧
      (parseAfter earlier reporting first).position =
        (parseAfter earlier reporting second).position :=
  parseAfter_aligned reporting earlier (moved.aligned binary operand)

/-- The tokens of `x: int = a * _;` in one line, with a column for the operator and a token for
its right operand. -/
def oneProduct (column : Nat) (operand : Lexeme) (text : String) : TokenStream := .ofTokens [
  ⟨.identifier, ⟨some 0, some 0⟩, "x"⟩,
  ⟨.punctuator .colon, ⟨some 0, some 1⟩, ":"⟩,
  ⟨.keyword .intWord, ⟨some 0, some 3⟩, "int"⟩,
  ⟨.punctuator .assignment, ⟨some 0, some 7⟩, "="⟩,
  ⟨.identifier, ⟨some 0, some 9⟩, "a"⟩,
  ⟨.punctuator .multiply, ⟨some 0, some column⟩, "*"⟩,
  ⟨operand, ⟨some 0, some 12⟩, text⟩,
  ⟨.punctuator .semicolon, ⟨some 0, some 15⟩, ";"⟩]

theorem oneProduct_movedAt (first second : Nat) (operand : Lexeme) (text : String) :
    MovedAt 5 (oneProduct first operand text) (oneProduct second operand text) := by
  refine ⟨rfl, ?_, ?_, ?_⟩
  · intro other inside
    match other, inside with
    | 0, _ | 1, _ | 2, _ | 3, _ | 4, _ | 5, _ | 6, _ | 7, _ => rfl
  · intro other inside
    match other, inside with
    | 0, _ | 1, _ | 2, _ | 3, _ | 4, _ | 5, _ | 6, _ | 7, _ => rfl
  · intro other inside behind before
    match other, inside with
    | 0, _ | 1, _ | 2, _ | 3, _ | 6, _ => rfl
    | 4, _ => exact absurd rfl before
    | 5, _ => exact absurd rfl behind

theorem touchingOperator_moved :
    MovedAt 5 (oneProduct 11 .identifier "b") (oneProduct 10 .identifier "b") ∧
      ((oneProduct 10 .identifier "b").get 4).isAdjacentTo
        ((oneProduct 10 .identifier "b").get 5) = true ∧
      (parse .filtered (oneProduct 11 .identifier "b")).errors = #[] ∧
      (parse .filtered (oneProduct 10 .identifier "b")).errors.map Entry.message = #[] ∧
      relocate .unplaced (parse .filtered (oneProduct 11 .identifier "b")).declarations =
        relocate .unplaced (parse .filtered (oneProduct 10 .identifier "b")).declarations := by
  have moved := oneProduct_movedAt 11 10 .identifier "b"
  obtain ⟨touches, silent⟩ :
      ((oneProduct 10 .identifier "b").get 4).isAdjacentTo
          ((oneProduct 10 .identifier "b").get 5) = true ∧
        (parse .filtered (oneProduct 11 .identifier "b")).errors = #[] := by
    decide +kernel
  obtain ⟨trees, messages, _⟩ := parseAfter_moved .filtered #[] moved (by decide) (by decide)
  have none : (parse .filtered (oneProduct 11 .identifier "b")).errors.map Entry.message =
      #[] := by
    rw [silent, Array.map_empty]
  exact ⟨moved, touches, silent, messages.symm.trans none, trees⟩

/-- Before a literal or a keyword an operator that comes to touch the token before it is read as
a postfix operator, and what was its operand is unexpected text. -/
theorem touchingOperator_rejected :
    (MovedAt 5 (oneProduct 11 .decimalLiteral "2") (oneProduct 10 .decimalLiteral "2") ∧
      ((oneProduct 10 .decimalLiteral "2").get 4).isAdjacentTo
        ((oneProduct 10 .decimalLiteral "2").get 5) = true ∧
      (parse .filtered (oneProduct 11 .decimalLiteral "2")).errors = #[] ∧
      (Listing.file (oneProduct 11 .decimalLiteral "2")
        (parse .filtered (oneProduct 11 .decimalLiteral "2")).declarations).toList.drop 5 = [
          "2 expression BinaryExpression precedence=multiplicative terms=1",
          "3 first BasicExpression prefix=[] postfix=0",
          "4 primary IdentifierExpression location=\x7b0, 9\x7d",
          "5 name UnqualifiedIdentifier identifier=4:a const=-",
          "3 op=5:* BasicExpression prefix=[] postfix=0",
          "4 primary Token 6:2"] ∧
      (parse .filtered (oneProduct 10 .decimalLiteral "2")).errors.map Entry.message =
        #["missing ';' at the end of the statement"]) ∧
    (MovedAt 5 (oneProduct 11 (.keyword .intWord) "int")
        (oneProduct 10 (.keyword .intWord) "int") ∧
      ((oneProduct 10 (.keyword .intWord) "int").get 4).isAdjacentTo
        ((oneProduct 10 (.keyword .intWord) "int").get 5) = true ∧
      (parse .filtered (oneProduct 11 (.keyword .intWord) "int")).errors = #[] ∧
      (Listing.file (oneProduct 11 (.keyword .intWord) "int")
        (parse .filtered (oneProduct 11 (.keyword .intWord) "int")).declarations).toList.drop 9 = [
          "3 op=5:* BasicExpression prefix=[] postfix=0",
          "4 primary IdentifierExpression location=\x7b0, 12\x7d",
          "5 name UnqualifiedIdentifier identifier=6:int const=-"] ∧
      (parse .filtered (oneProduct 10 (.keyword .intWord) "int")).errors.map Entry.message =
        #["missing ';' at the end of the statement"]) :=
  ⟨⟨oneProduct_movedAt .., by decide +kernel⟩, oneProduct_movedAt .., by decide +kernel⟩

end CppsFrontend
