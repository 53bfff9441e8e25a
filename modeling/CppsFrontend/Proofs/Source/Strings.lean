import CppsFrontend.Proofs.Lexical.Strings
import CppsFrontend.Proofs.Source.Scanning

/-!
# String literals, lexed and scanned

The lexer, the scan of a definition, and the pairing of backslashes with the characters
behind them are three readings of a string literal.  They agree on the quote that closes it,
and on whether there is one.
-/

set_option autoImplicit false

namespace CppsFrontend

open Text Lexical

/-! ## The scan -/

namespace DefinitionScan

variable {scan : DefinitionScan} {column : Nat} {text body behind front : List Char}

structure Enters (scan : DefinitionScan) (column : Nat) : Prop where
  unquoted : scan.inString = false
  enters : (scan.run column ['"']).inString = true

theorem Enters.going (enters : Enters scan column) : Going scan := by
  obtain ⟨unquoted, enters⟩ := enters
  refine ⟨?_, unquoted, ?_⟩
  · rw [Bool.eq_false_iff]
    intro inside
    rw [run_comment inside, if_neg (by simp), run_nil] at enters
    rw [unquoted] at enters
    cases enters
  · rw [Bool.eq_false_iff]
    intro ended
    cases comment : scan.inComment with
    | true =>
        rw [run_comment comment, if_neg (by simp), run_nil, unquoted] at enters
        cases enters
    | false =>
        rw [run_doneText ⟨comment, unquoted, ended⟩ (by decide) (by simp), fault, unquoted]
          at enters
        cases enters

theorem run_opening (going : Going scan) :
    scan.run column ('"' :: text) =
      ({ scan with inString := true, previous := '"' } : DefinitionScan).run (column + 1) text := by
  rw [run_code going (by simp)]
  rfl

/-- Without a quote that is in no pair the scan stays in the string. -/
theorem run_unpaired (outside : scan.inComment = false) (inside : scan.inString = true)
    (missing : splitQuote? text = none) : (scan.run column text).inString = true := by
  fun_induction splitQuote? text generalizing scan column with
  | case1 =>
      rw [run_nil]
      exact inside
  | case2 c rest induction =>
      rw [run_escape outside inside]
      exact @induction { scan with previous := '\\' } _ outside inside
        (Option.map_eq_none_iff.mp missing)
  | case3 rest => cases missing
  | case4 c rest noPair noQuote induction =>
      rw [run_stringText outside inside (final_of_noPair noPair) noQuote]
      exact @induction { scan with previous := c } _ outside inside
        (Option.map_eq_none_iff.mp missing)

/-- The first quote that is in no pair is where the scan leaves the string. -/
theorem run_paired (outside : scan.inComment = false) (inside : scan.inString = true)
    (found : splitQuote? text = some (body, behind)) :
    scan.run column text = ({ scan with inString := false, previous := '"' } : DefinitionScan).run
      (column + byteLength body + 1) behind := by
  fun_induction splitQuote? text generalizing scan column body with
  | case1 => cases found
  | case2 c rest induction =>
      obtain ⟨⟨inner, outer⟩, split, same⟩ := Option.map_eq_some_iff.mp found
      cases same
      rw [run_escape outside inside,
        @induction { scan with previous := '\\' } _ inner outside inside split]
      simp only [byteLength_cons, Nat.add_assoc]
      rfl
  | case3 rest =>
      cases found
      rw [run_quote outside inside]
      rfl
  | case4 c rest noPair noQuote induction =>
      obtain ⟨⟨inner, outer⟩, split, same⟩ := Option.map_eq_some_iff.mp found
      cases same
      rw [run_stringText outside inside (final_of_noPair noPair) noQuote,
        @induction { scan with previous := c } _ inner outside inside split]
      simp only [byteLength_cons, Nat.add_assoc]

end DefinitionScan

/-! ## The three readings -/

section Readings

variable (source : Source) (index : Nat) (before encoding : List Char)

/-- A literal with its closing quote behind `body`. -/
structure ClosesBehind (body behind : List Char) : Prop where
  /-- The lexer ends the token at the quote. -/
  token : ⟨.stringLiteral, .ofIndices index (byteLength before),
      .ofList (encoding ++ '"' :: body ++ ['"'])⟩ ∈ (lex source).stream.tokens.toList
  /-- Lexing goes on behind the quote. -/
  goesOn : Reaches source index (before ++ (encoding ++ '"' :: body ++ ['"'])) behind
  /-- The scan is in its string state up to the quote. -/
  inside : ∀ (scan : DefinitionScan) (column : Nat), scan.Enters column →
    ∀ front, front <+: body → (scan.run column ('"' :: front)).inString = true
  /-- The scan leaves its string state at the quote, with all that it has found before. -/
  leaves : ∀ (scan : DefinitionScan) (column : Nat), scan.Enters column →
    ∀ text, scan.run column ('"' :: body ++ '"' :: text) =
      ({ scan with inString := false, previous := '"' } : DefinitionScan).run
        (column + byteLength ('"' :: body ++ ['"'])) text

structure StaysOpen (content : List Char) : Prop where
  /-- The lexer takes the rest of the line as the token. -/
  token : ⟨.stringLiteral, .ofIndices index (byteLength before),
      .ofList (encoding ++ '"' :: content)⟩ ∈ (lex source).stream.tokens.toList
  /-- Of all errors of the line one says that a quote is missing, about the whole line. -/
  reported : (lineErrors source index).filter
      (fun entry => entry.message = LexicalError.stringLiteralUnclosed.message) =
    [.located LexicalError.stringLiteralUnclosed.message (.wholeLine index)]
  /-- The scan is in its string state up to the end of the line. -/
  inside : ∀ (scan : DefinitionScan) (column : Nat), scan.Enters column →
    ∀ front, front <+: content → (scan.run column ('"' :: front)).inString = true

end Readings

open DefinitionScan

variable {source : Source} {index : Nat} {before encoding content body behind : List Char}

theorem DefinitionScan.Enters.inside {scan : DefinitionScan} {column : Nat}
    (enters : scan.Enters column) (missing : splitQuote? content = none) :
    (scan.run column ('"' :: content)).inString = true := by
  have going := enters.going
  rw [run_opening going]
  exact @run_unpaired { scan with inString := true, previous := '"' } _ _ going.outside rfl missing

theorem closesBehind (encoded : encoding ∈ encodings)
    (reached : Reaches source index before (encoding ++ '"' :: content))
    (found : splitQuote? content = some (body, behind)) :
    ClosesBehind source index before encoding body behind := by
  obtain ⟨piece, faults, cut, kind, -, shape⟩ := pieces_of_encoding encoded content
  rw [found] at shape
  have text : piece.text = encoding ++ '"' :: body ++ ['"'] := by
    rw [shape.1, List.append_assoc]
    rfl
  have whole : encoding ++ '"' :: content = piece.text ++ behind := by
    rw [text, splitQuote?_eq found]
    simp
  refine ⟨?_, ?_, ?_, ?_⟩
  · rw [← text]
    exact reached.mem_tokens cut kind
  · rw [← text]
    refine reached.goesOn whole ?_
    rw [cut, whole, List.drop_left]
  · intro scan column enters front part
    exact enters.inside (splitQuote?_body found part)
  · intro scan column enters text
    have going := enters.going
    rw [List.cons_append, run_opening going,
      @run_paired { scan with inString := true, previous := '"' } _ _ _ _ going.outside rfl
        (splitQuote?_behind found text)]
    simp only [byteLength_cons, byteLength_append, byteLength_nil, Nat.add_assoc, List.cons_append]
    rfl

theorem staysOpen (encoded : encoding ∈ encodings)
    (reached : Reaches source index before (encoding ++ '"' :: content))
    (missing : splitQuote? content = none) :
    StaysOpen source index before encoding content := by
  obtain ⟨piece, faults, cut, kind, -, shape⟩ := pieces_of_encoding encoded content
  rw [missing] at shape
  refine ⟨?_, lineErrors_unclosed encoded reached missing, ?_⟩
  · rw [← shape.1]
    exact reached.mem_tokens cut kind
  · intro scan column enters front part
    exact enters.inside (splitQuote?_front missing part)

/-- Three readings of a string literal agree.  Where the first quote in no pair of a backslash
and the character behind it is, the lexer ends the token and the scan leaves its string state;
where there is none, the token is the rest of the line, the line reports that once, and the scan
stays in its string state.  Nothing else is a string literal, or reported so. -/
theorem stringLiteral_readings (source : Source) :
    (∀ index before, ∀ encoding ∈ encodings, ∀ content,
      Reaches source index before (encoding ++ '"' :: content) →
        match splitQuote? content with
        | some (body, behind) => ClosesBehind source index before encoding body behind
        | none => StaysOpen source index before encoding content) ∧
    (∀ token ∈ (lex source).stream.tokens.toList, token.lexeme = .stringLiteral →
      ∃ index before, ∃ encoding ∈ encodings, ∃ content,
        Reaches source index before (encoding ++ '"' :: content) ∧
          token.location = .ofIndices index (byteLength before)) ∧
    (lex source).errors.toList = (List.range source.lines.length).flatMap (lineErrors source) ∧
    ∀ index, ∀ entry ∈ lineErrors source index,
      entry.message = LexicalError.stringLiteralUnclosed.message →
        ∃ before, ∃ encoding ∈ encodings, ∃ content,
          Reaches source index before (encoding ++ '"' :: content) ∧
            splitQuote? content = none := by
  refine ⟨?_, ?_, lex_errors source, ?_⟩
  · intro index before encoding encoded content reached
    split
    · rename_i body behind found
      exact closesBehind encoded reached found
    · rename_i missing
      exact staysOpen encoded reached missing
  · intro token among literal
    exact stringLiteral_reached among literal
  · intro index entry among message
    exact unclosed_reached among message

/-- A literal with elements of all forms, and one whose last quote is in a pair. -/
def pairedQuotes : Source :=
  .ofLines [⟨"x=u8\"é\\u00e9\\x41\\\"\\\\\";", .cpps⟩, ⟨"\"a\\\"", .cpps⟩]

theorem pairedQuotes_readings :
    ClosesBehind pairedQuotes 0 ['x', '='] ['u', '8'] "é\\u00e9\\x41\\\"\\\\".toList [';'] ∧
      StaysOpen pairedQuotes 1 [] [] ['a', '\\', '"'] := by
  have closed : Reaches pairedQuotes 0 ['x', '=']
      (['u', '8'] ++ '"' :: "é\\u00e9\\x41\\\"\\\\\";".toList) :=
    ⟨⟨"x=u8\"é\\u00e9\\x41\\\"\\\\\";", .cpps⟩, pieces false ['x', '='], rfl, rfl,
      by decide +kernel, by decide +kernel, by decide +kernel⟩
  have opened : Reaches pairedQuotes 1 [] ([] ++ '"' :: ['a', '\\', '"']) :=
    ⟨⟨"\"a\\\"", .cpps⟩, [], rfl, rfl, by decide +kernel, rfl, by decide +kernel⟩
  have first := (stringLiteral_readings pairedQuotes).1 0 _ _ (by decide) _ closed
  have second := (stringLiteral_readings pairedQuotes).1 1 _ _ (by decide) _ opened
  have found : splitQuote? "é\\u00e9\\x41\\\"\\\\\";".toList =
      some ("é\\u00e9\\x41\\\"\\\\".toList, [';']) := by
    decide +kernel
  rw [found] at first
  exact ⟨first, second⟩

end CppsFrontend
