import CppsFrontend.Proofs.Grammar.Relational.Statements
import CppsFrontend.Tree.Listing

/-!
# `<` for `>`

No name is derived before `<`.  A primary expression holds such a name as a token instead, but a
member behind `.`, a name behind `::` and one behind `const` have no such way out.  Apart from
these, exchanging `>` for `<` changes the single names before it and nothing else, as long as the
file with `>` is parsed without errors.
-/

set_option autoImplicit false

namespace CppsFrontend

namespace Grammar

open Production

variable {exchange : Exchange} {reporting : Reporting} {loose : Bool} {start : State}
variable {nested : Nested}

/-! ## All productions -/

theorem tracksNested_productions (fair : exchange.Fair) (depth : Nat) :
    TracksNested exchange reporting (productions depth) := by
  induction depth with
  | zero => exact ⟨fun _ _ _ => .fail, fun _ => .fail, fun _ _ => .fail⟩
  | succ depth inner =>
      rw [productions_succ]
      exact ⟨fun semicolon equal _ => statement_tracks fair inner semicolon equal,
        fun _ => expression_tracks fair inner true,
        fun semicolon _ => declaration_tracks fair inner semicolon⟩

/-! ## Files -/

theorem fileRound_tracks (fair : exchange.Fair)
    (inner : TracksNested exchange reporting nested) :
    Tracks exchange reporting loose (fileRound nested) (fileRound nested) start := by
  refine .isAtEnd fair ?_
  split
  · exact .pure rfl
  · refine .attempt (.orReject (declaration_tracks fair inner true)) ?_ ?_
    · intro declaration middle _
      exact .pure rfl
    · intro middle _
      exact .pure rfl

theorem file_tracks (fair : exchange.Fair) (inner : TracksNested exchange reporting nested) :
    Tracks exchange reporting loose (file nested) (file nested) start :=
  .collect fair fun _ => fileRound_tracks fair inner

end Grammar

open Grammar

/-- Where a file is parsed without errors, it also is with `<` for some of its `>`, to the same
declarations but for the single names before these operators, which are held as tokens.  The names
may not be members, scoped names or names after `const`. -/
theorem parseAfter_exchanged (reporting : Reporting) (earlier : Array Entry)
    {exchange : Exchange} (fair : exchange.Fair)
    (silent : (parseAfter earlier reporting exchange.first).errors = earlier) :
    parseAfter earlier reporting exchange.second =
      ⟨unname exchange.turned (parseAfter earlier reporting exchange.first).declarations, earlier,
        (parseAfter earlier reporting exchange.first).position⟩ := by
  have inner : TracksNested exchange reporting (productions (exchange.first.size + 1)) :=
    tracksNested_productions fair _
  have tracks : Production.Tracks exchange reporting false _ _ ⟨0, earlier⟩ :=
    file_tracks fair inner
  cases tracks with
  | @intro result after run grows quiet =>
      have parsed := parseAfter_eq run
      rw [parsed] at silent ⊢
      rcases quiet (congrArg Array.size silent) with same | ⟨impossible, _⟩
      · rw [fair.size] at same
        rw [parseAfter_eq same, ← silent]
        cases result <;> rfl
      · cases impossible

/-- Two alike streams, of which the first one is parsed without errors to a tree with a line for
an operator, and the second one with an error. -/
def Grammar.Exchange.RejectsLess (exchange : Exchange) (operator : String) (message : String) :
    Prop :=
  exchange.Alike ∧ (parse .filtered exchange.first).errors = #[] ∧
    operator ∈ (Listing.file exchange.first (parse .filtered exchange.first).declarations).toList ∧
    (parse .filtered exchange.second).errors.map Entry.message = #[message]

theorem TokenStream.get_ofTokens_middle (before after : List Token) (token other : Token)
    (place : TokenId) :
    (ofTokens (before ++ token :: after)).get place =
      if place = before.length then token else (ofTokens (before ++ other :: after)).get place := by
  simp only [get, ofTokens, List.getElem?_toArray]
  by_cases ahead : place < before.length
  · rw [if_neg (Nat.ne_of_lt ahead), List.getElem?_append_left ahead,
      List.getElem?_append_left ahead]
  · obtain ⟨more, rfl⟩ := Nat.exists_eq_add_of_le (Nat.le_of_not_lt ahead)
    rw [List.getElem?_append_right (Nat.le_of_not_lt ahead),
      List.getElem?_append_right (Nat.le_of_not_lt ahead), Nat.add_sub_cancel_left]
    cases more <;> simp

def assignedBool (operand : List Token) : List Token := [
  ⟨.identifier, ⟨some 0, some 0⟩, "x"⟩,
  ⟨.punctuator .colon, ⟨some 0, some 1⟩, ":"⟩,
  ⟨.keyword .boolWord, ⟨some 0, some 3⟩, "bool"⟩,
  ⟨.punctuator .assignment, ⟨some 0, some 8⟩, "="⟩] ++ operand

/-- The tokens of `x: bool = _ > c;` in one line, with an operand and a comparison at a column
behind it. -/
def oneComparison (operand : List Token) (column : Nat) (operator : Punctuator) : TokenStream :=
  .ofTokens (assignedBool operand ++
    ⟨.punctuator operator, ⟨some 0, some column⟩, operator.spelling⟩ :: [
      ⟨.identifier, ⟨some 0, some (column + 2)⟩, "c"⟩,
      ⟨.punctuator .semicolon, ⟨some 0, some (column + 3)⟩, ";"⟩])

def oneExchange (operand : List Token) (column : Nat) : Exchange :=
  ⟨oneComparison operand column .greater, oneComparison operand column .less⟩

section OneComparison

variable (operand : List Token) (column : Nat)

theorem oneComparison_get (operator : Punctuator) (place : TokenId) :
    (oneComparison operand column operator).get place =
      if place = (assignedBool operand).length then
        ⟨.punctuator operator, ⟨some 0, some column⟩, operator.spelling⟩
      else (oneComparison operand column .greater).get place :=
  TokenStream.get_ofTokens_middle ..

theorem oneExchange_alike : (oneExchange operand column).Alike := by
  refine ⟨?_, fun place => ?_⟩
  · simp [oneExchange, oneComparison, TokenStream.ofTokens, TokenStream.size]
  · rw [oneExchange, oneComparison_get operand column .less, oneComparison_get]
    split
    · exact .turned rfl rfl rfl rfl
    · exact .same rfl

theorem oneExchange_turned {place : TokenId}
    (turned : (oneExchange operand column).turned place = true) :
    place = (assignedBool operand).length := by
  by_cases here : place = (assignedBool operand).length
  · exact here
  · simp only [Exchange.turned, oneExchange, oneComparison_get operand column .less, here,
      if_false, Bool.and_eq_true] at turned
    obtain ⟨greater, less⟩ := turned
    rw [of_decide_eq_true greater] at less
    cases less

end OneComparison

def nameExchange : Exchange := oneExchange [⟨.identifier, ⟨some 0, some 10⟩, "a"⟩] 12

theorem comparedName_exchanged :
    nameExchange.Fair ∧ (parse .filtered nameExchange.first).errors = #[] ∧
      parse .filtered nameExchange.second =
        ⟨unname nameExchange.turned (parse .filtered nameExchange.first).declarations, #[], 8⟩ ∧
      (Listing.file nameExchange.first
        (parse .filtered nameExchange.first).declarations).toList.drop 5 = [
          "2 expression BinaryExpression precedence=relational terms=1",
          "3 first BasicExpression prefix=[] postfix=0",
          "4 primary IdentifierExpression location=\x7b0, 10\x7d",
          "5 name UnqualifiedIdentifier identifier=4:a const=-",
          "3 op=5:> BasicExpression prefix=[] postfix=0",
          "4 primary IdentifierExpression location=\x7b0, 14\x7d",
          "5 name UnqualifiedIdentifier identifier=6:c const=-"] ∧
      (Listing.file nameExchange.second
        (parse .filtered nameExchange.second).declarations).toList.drop 5 = [
          "2 expression BinaryExpression precedence=relational terms=1",
          "3 first BasicExpression prefix=[] postfix=0",
          "4 primary Token 4:a",
          "3 op=5:< BasicExpression prefix=[] postfix=0",
          "4 primary IdentifierExpression location=\x7b0, 14\x7d",
          "5 name UnqualifiedIdentifier identifier=6:c const=-"] := by
  have fair : nameExchange.Fair := by
    refine ⟨oneExchange_alike _ _, fun place bare => ?_⟩
    have here := oneExchange_turned _ _ bare.2
    obtain rfl : place = 3 := by simpa [assignedBool] using here
    decide
  obtain ⟨silent, ends⟩ : (parse .filtered nameExchange.first).errors = #[] ∧
      (parse .filtered nameExchange.first).position = 8 := by
    decide +kernel
  have exchanged := parseAfter_exchanged .filtered #[] fair silent
  exact ⟨fair, silent, ends ▸ exchanged, by decide +kernel, by decide +kernel⟩

/-- `a.b > c`, `a::b > c` and `const a > c` are comparisons, and with `<` none of them is parsed
without errors. -/
theorem lessThan_rejected :
    ((oneExchange [
          ⟨.identifier, ⟨some 0, some 10⟩, "a"⟩,
          ⟨.punctuator .dot, ⟨some 0, some 11⟩, "."⟩,
          ⟨.identifier, ⟨some 0, some 12⟩, "b"⟩] 14).RejectsLess
        "3 op=7:> BasicExpression prefix=[] postfix=0"
        "'.' must be followed by a valid member name") ∧
      ((oneExchange [
          ⟨.identifier, ⟨some 0, some 10⟩, "a"⟩,
          ⟨.punctuator .doubleColon, ⟨some 0, some 11⟩, "::"⟩,
          ⟨.identifier, ⟨some 0, some 13⟩, "b"⟩] 15).RejectsLess
        "3 op=7:> BasicExpression prefix=[] postfix=0"
        "missing ';' at the end of the statement") ∧
      ((oneExchange [
          ⟨.keyword .constWord, ⟨some 0, some 10⟩, "const"⟩,
          ⟨.identifier, ⟨some 0, some 16⟩, "a"⟩] 18).RejectsLess
        "3 op=6:> BasicExpression prefix=[] postfix=0"
        "missing ';' at the end of the statement") :=
  ⟨⟨oneExchange_alike .., by decide +kernel⟩, ⟨oneExchange_alike .., by decide +kernel⟩,
    oneExchange_alike .., by decide +kernel⟩

end CppsFrontend
