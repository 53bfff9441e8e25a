import CppsFrontend.Analysis
import CppsFrontend.Proofs.Grammar.Braces
import CppsFrontend.Proofs.Lexical.Returns
import CppsFrontend.Proofs.Source.Definitions

/-!
# What the front end accepts

The classifier looks for the end of a definition by its braces alone, and the parser
follows the grammar.  A declaration that the parser accepts is also taken whole by the
front end, if its last token is the first one that ends it for the classifier.
-/

set_option autoImplicit false

namespace CppsFrontend

open Lexical Grammar Text

/-- Lines that are lexed and parsed as one declaration, if all of them are taken for lines
of the language. -/
structure Accepted (reporting : Reporting) (texts : List String) : Prop where
  breakless : ∀ text ∈ texts, '\n' ∉ text.toList
  opens : Reading.OpensDefinition texts
  literals : Lexeme.characterLiteral ∉ lexemesOf texts
  lexed : (lex (.ofTexts texts)).errors = #[]
  parsed : (parse reporting (lex (.ofTexts texts)).stream).errors = #[]
  single : (parse reporting (lex (.ofTexts texts)).stream).declarations.length = 1

/-- The file of these lines is without errors, all of its lines are of the language, and
its tokens and its declaration are those of the lines alone. -/
structure TakenWhole (reporting : Reporting) (texts : List String) (analysis : Analysis) :
    Prop where
  source : analysis.source = .ok (.ofTexts (texts.map PhysicalLine.textOf))
  diagnosis : analysis.diagnosis = .empty
  stream : analysis.stream = (lex (.ofTexts texts)).stream
  declarations : analysis.declarations =
    (parse reporting (lex (.ofTexts texts)).stream).declarations

def Analysis.ofTexts (reporting : Reporting) (texts : List String) : Analysis :=
  .ofBytes reporting ("\n".intercalate texts).toUTF8.toList

/-- The first token that ends the definition is the last one, and is on the last line. -/
structure EndsWhole (texts : List String) : Prop where
  endsLast : EndsLast (lexemesOf texts)
  lastLine : lexemesOf texts.dropLast ≠ lexemesOf texts
  closed : leavesOpen texts = false

variable {reporting : Reporting} {texts : List String}

theorem Accepted.plainly (accepted : Accepted reporting texts) : LexesPlainly texts := by
  refine ⟨accepted.lexed, ?_⟩
  intro token member literal
  have inside : token.lexeme ∈ lexemesOf texts := List.mem_map_of_mem member
  rw [literal] at inside
  exact absurd inside accepted.literals

/-! ## Lines without carriage returns -/

theorem lex_textOf (lexed : (lex (.ofTexts texts)).errors = #[]) :
    (lex (.ofTexts (texts.map PhysicalLine.textOf))).stream = (lex (.ofTexts texts)).stream ∧
      (lex (.ofTexts (texts.map PhysicalLine.textOf))).errors = #[] ∧
      leavesOpen (texts.map PhysicalLine.textOf) = leavesOpen texts := by
  have same := progressOver_textOf texts lexed
  refine ⟨?_, ?_, same.pending.symm⟩
  · exact congrArg (fun tokens => TokenStream.ofTokens tokens.toList) same.tokens.symm
  · exact same.errors.symm.trans lexed

theorem opensDefinition_return {line : List Char}
    (opens : opensDefinition (line ++ ['\r']) = true) : opensDefinition line = true := by
  cases line with
  | nil => cases opens
  | cons c rest =>
      have word : (rest ++ ['\r']).dropWhile isWordPart = rest.dropWhile isWordPart ++ ['\r'] := by
        rw [List.dropWhile_append]
        split
        · rename_i whole
          rw [List.isEmpty_iff.mp whole]
          rfl
        · rfl
      unfold opensDefinition at opens ⊢
      simp only [List.cons_append, word, Bool.and_eq_true] at opens ⊢
      refine ⟨opens.1, ?_⟩
      have colon := opens.2
      rw [List.dropWhile_append] at colon
      cases behind : (rest.dropWhile isWordPart).dropWhile isSpace with
      | nil =>
          rw [behind] at colon
          cases colon
      | cons d more =>
          rw [behind] at colon
          simp only [List.isEmpty_cons, Bool.false_eq_true, if_false, List.cons_append] at colon
          split at colon
          · cases colon
          · rename_i notTwice begins
            obtain ⟨rfl, rfl⟩ := List.cons.inj begins
            split
            · rename_i twice
              rw [(List.cons.inj twice).2] at notTwice
              exact absurd rfl (notTwice _)
            · rfl
            · rename_i notOnce
              exact absurd rfl (notOnce more)
          · cases colon

theorem opensDefinition_textOf (text : String)
    (opens : opensDefinition (Reading.trimmed text) = true) :
    opensDefinition (Reading.trimmed (PhysicalLine.textOf text)) = true := by
  unfold PhysicalLine.textOf withoutFinal
  split
  · rename_i ending
    obtain ⟨front, chars⟩ := List.getLast?_eq_some_iff.mp ending
    rw [Reading.trimmed, chars, List.dropWhile_append] at opens
    rw [Reading.trimmed, String.toList_ofList, chars, List.dropLast_concat]
    split at opens
    · cases opens
    · exact opensDefinition_return opens
  · rw [String.ofList_toList]
    exact opens

/-! ## Reading the whole file -/

theorem not_endsIn_front {before : List String} {last : String}
    (endsLast : EndsLast (lexemesOf (before ++ [last])))
    (lastLine : lexemesOf before ≠ lexemesOf (before ++ [last])) :
    ∀ front text back, before ++ [last] = front ++ text :: back → ¬ EndsIn (lexemesOf front) := by
  intro front text back split ends
  have endsBefore : EndsIn (lexemesOf before) := by
    rcases concat_split.mp split with ⟨rfl, _⟩ | ⟨rest, _, rfl⟩
    · exact ends
    · exact ends.append
  obtain ⟨earlier, lexeme, behind, inner, endsBehind⟩ := endsBefore
  rw [lexemesOf_concat, inner, List.append_assoc] at endsLast
  have none := (List.append_eq_nil_iff.mp (endsLast earlier lexeme _ rfl endsBehind)).2
  rw [lexemesOf_concat, none, List.append_nil] at lastLine
  exact lastLine rfl

/-- The whole of some lines is read as one definition. -/
theorem readTexts_whole (opens : Reading.OpensDefinition texts) (plainly : LexesPlainly texts)
    (ends : EndsWhole texts) (endsIn : EndsIn (lexemesOf texts))
    (matched : ¬ Unmatched (lexemesOf texts)) :
    (Reading.start.readTexts texts).finish = ⟨.ok (.ofTexts texts), #[]⟩ := by
  have ready : Reading.Ready .start := ⟨rfl, rfl, rfl⟩
  have endless : ∀ front text back, texts = front ++ text :: back → ¬ EndsIn (lexemesOf front) := by
    rcases List.eq_nil_or_concat texts with rfl | ⟨before, last, rfl⟩
    · exact fun _ _ _ _ => absurd rfl ends.lastLine
    · have lastLine := ends.lastLine
      rw [List.concat_eq_append] at ends lastLine ⊢
      rw [List.dropLast_concat] at lastLine
      exact not_endsIn_front ends.endsLast lastLine
  have behind := Reading.behind_lines ready opens plainly endless
  have ended := behind.ended endsIn
  have errors : (Reading.start.readTexts texts).errors = #[] :=
    ended.errors.mpr ⟨matched, ends.endsLast, ends.closed⟩
  have readable : (Reading.start.readTexts texts).unreadable = 0 := behind.unreadable
  have source : (Reading.start.readTexts texts).source = .ofTexts texts :=
    congrArg Source.mk (ended.source.trans (List.append_nil _))
  unfold Reading.finish
  rw [if_pos readable, ended.mode, errors, source]

/-- Lines whose last one has a token are the lines of the file that they are joined to. -/
theorem ofBytes_texts (breakless : ∀ text ∈ texts, '\n' ∉ text.toList)
    (lastLine : lexemesOf texts.dropLast ≠ lexemesOf texts) :
    PhysicalLine.ofBytes ("\n".intercalate texts).toUTF8.toList =
      (texts.map PhysicalLine.textOf).map some := by
  rcases List.eq_nil_or_concat texts with rfl | ⟨before, last, rfl⟩
  · exact absurd rfl lastLine
  · rw [List.concat_eq_append] at breakless lastLine ⊢
    rw [List.dropLast_concat] at lastLine
    have visible : last ≠ "" := by
      rintro rfl
      have nothing : piecesBehind before "" = [] := by
        rw [piecesBehind, String.toList_empty, pieces]
      rw [lexemesOf_concat, nothing] at lastLine
      exact lastLine (List.append_nil _).symm
    rw [PhysicalLine.ofBytes_joined visible breakless, List.map_map]
    rfl

theorem lexemesOf_textOf (lexed : (lex (.ofTexts texts)).errors = #[]) :
    lexemesOf (texts.map PhysicalLine.textOf) = lexemesOf texts := by
  rw [lexemesOf, (lex_textOf lexed).1]
  rfl

theorem EndsWhole.textOf (plainly : LexesPlainly texts) (ends : EndsWhole texts) :
    EndsWhole (texts.map PhysicalLine.textOf) := by
  obtain ⟨endsLast, lastLine, closed⟩ := ends
  rcases List.eq_nil_or_concat texts with rfl | ⟨before, last, rfl⟩
  · exact absurd rfl lastLine
  · rw [List.concat_eq_append] at plainly endsLast lastLine closed ⊢
    refine ⟨?_, ?_, ?_⟩
    · rw [lexemesOf_textOf plainly.errors]
      exact endsLast
    · rw [List.dropLast_concat] at lastLine
      rw [← List.map_dropLast, List.dropLast_concat, lexemesOf_textOf plainly.errors,
        lexemesOf_textOf plainly.of_append.errors]
      exact lastLine
    · rw [(lex_textOf plainly.errors).2.2]
      exact closed

theorem Accepted.textOf_opens (accepted : Accepted reporting texts) :
    Reading.OpensDefinition (texts.map PhysicalLine.textOf) := by
  obtain ⟨first, rest, rfl, begins⟩ := accepted.opens
  exact ⟨_, _, rfl, opensDefinition_textOf first begins⟩

theorem Accepted.textOf_plainly (accepted : Accepted reporting texts) :
    LexesPlainly (texts.map PhysicalLine.textOf) := by
  obtain ⟨stream, lexed, _⟩ := lex_textOf accepted.lexed
  refine ⟨lexed, ?_⟩
  rw [stream]
  exact accepted.plainly.literals

/-- The last token of the lines ends the declaration. -/
theorem Accepted.closes (accepted : Accepted reporting texts) :
    EndsIn (lexemesOf texts) ∧ ¬ Unmatched (lexemesOf texts) := by
  have consecutive := parse_consecutive accepted.parsed
  obtain ⟨declaration, single⟩ := List.length_eq_one_iff.mp accepted.single
  rw [single] at consecutive
  cases consecutive with
  | cons written rest =>
      cases rest with
      | nil =>
          obtain ⟨before, last, lexemes, endsBehind, matched⟩ := written.closes
          have same : lexemesOf texts = before ++ [last] := lexemes
          rw [same]
          exact ⟨⟨before, last, [], rfl, endsBehind⟩, matched⟩

theorem Accepted.readSource_eq (accepted : Accepted reporting texts) (ends : EndsWhole texts) :
    readSource ("\n".intercalate texts).toUTF8.toList =
      ⟨.ok (.ofTexts (texts.map PhysicalLine.textOf)), #[]⟩ := by
  obtain ⟨endsIn, matched⟩ := accepted.closes
  rw [← lexemesOf_textOf accepted.lexed] at endsIn matched
  rw [readSource, ofBytes_texts accepted.breakless ends.lastLine]
  exact readTexts_whole accepted.textOf_opens accepted.textOf_plainly
    (ends.textOf accepted.plainly) endsIn matched

/-- What the parser accepts as one declaration, the front end takes as a whole, if the
classifier finds its end where the parser does. -/
theorem Analysis.ofTexts_whole (accepted : Accepted reporting texts) (ends : EndsWhole texts) :
    TakenWhole reporting texts (.ofTexts reporting texts) := by
  obtain ⟨stream, lexed, _⟩ := lex_textOf accepted.lexed
  have read := accepted.readSource_eq ends
  have silent : (Diagnosis.empty.addErrors #[]).addErrors #[] = .empty := rfl
  unfold Analysis.ofTexts Analysis.ofBytes
  rw [read]
  simp only
  rw [lexed, stream, silent]
  refine ⟨rfl, ?_, rfl, rfl⟩
  exact congrArg (Diagnosis.mk · #[]) accepted.parsed

/-- A function over three lines, with a comment and a carriage return behind its first. -/
def commentedFunction : List String := ["f: () = \x7b // a\r", " x;", "\x7d"]

theorem commentedFunction_whole : Accepted .filtered commentedFunction ∧
    EndsWhole commentedFunction ∧
      TakenWhole .filtered commentedFunction (.ofTexts .filtered commentedFunction) := by
  obtain ⟨lexed, literals, parsed, single, sound, lastLine, closed⟩ :
      (lex (.ofTexts commentedFunction)).errors = #[] ∧
        Lexeme.characterLiteral ∉ lexemesOf commentedFunction ∧
        (parse .filtered (lex (.ofTexts commentedFunction)).stream).errors = #[] ∧
        (parse .filtered (lex (.ofTexts commentedFunction)).stream).declarations.length = 1 ∧
        (Extent.ofTexts commentedFunction).sound = true ∧
        lexemesOf commentedFunction.dropLast ≠ lexemesOf commentedFunction ∧
        leavesOpen commentedFunction = false := by
    decide +kernel
  have accepted : Accepted .filtered commentedFunction :=
    ⟨by decide, ⟨_, _, rfl, by decide +kernel⟩, literals, lexed, parsed, single⟩
  have endsLast := ((Extent.ofTexts_describes commentedFunction).sound.mp sound).2
  have ends : EndsWhole commentedFunction := ⟨endsLast, lastLine, closed⟩
  exact ⟨accepted, ends, Analysis.ofTexts_whole accepted ends⟩

/-- A declaration that goes on behind its first block, one with a comment on a line behind
it, and one with an open comment behind it. -/
def elseBranch : List String := ["f: () = if x \x7b \x7d else \x7b \x7d"]

def commentBehind : List String := ["x: int;", "// c"]

def commentOpen : List String := ["x: int; /* open"]

/-- None of them is taken whole, although the parser accepts all three. -/
theorem accepted_notWhole :
    (Accepted .filtered elseBranch ∧
      ¬ TakenWhole .filtered elseBranch (.ofTexts .filtered elseBranch)) ∧
    (Accepted .filtered commentBehind ∧
      ¬ TakenWhole .filtered commentBehind (.ofTexts .filtered commentBehind)) ∧
    (Accepted .filtered commentOpen ∧
      ¬ TakenWhole .filtered commentOpen (.ofTexts .filtered commentOpen)) := by
  have accepts : ∀ texts ∈ [elseBranch, commentBehind, commentOpen],
      (lex (.ofTexts texts)).errors = #[] ∧ Lexeme.characterLiteral ∉ lexemesOf texts ∧
        (parse .filtered (lex (.ofTexts texts)).stream).errors = #[] ∧
        (parse .filtered (lex (.ofTexts texts)).stream).declarations.length = 1 := by
    decide +kernel
  refine ⟨⟨?_, ?_⟩, ⟨?_, ?_⟩, ⟨?_, ?_⟩⟩
  · obtain ⟨lexed, literals, parsed, single⟩ := accepts elseBranch (by simp)
    exact ⟨by decide, ⟨_, _, rfl, by decide +kernel⟩, literals, lexed, parsed, single⟩
  · intro taken
    have reports : (Analysis.ofTexts .filtered elseBranch).diagnosis.errors.size = 1 := by
      decide +kernel
    rw [taken.diagnosis] at reports
    cases reports
  · obtain ⟨lexed, literals, parsed, single⟩ := accepts commentBehind (by simp)
    exact ⟨by decide, ⟨_, _, rfl, by decide +kernel⟩, literals, lexed, parsed, single⟩
  · intro taken
    have kinds : (Analysis.ofTexts .filtered commentBehind).lines.map Line.kind =
        [.cpps, .comment] := by
      decide +kernel
    rw [Analysis.lines, taken.source] at kinds
    cases kinds
  · obtain ⟨lexed, literals, parsed, single⟩ := accepts commentOpen (by simp)
    exact ⟨by decide, ⟨_, _, rfl, by decide +kernel⟩, literals, lexed, parsed, single⟩
  · intro taken
    have reports : (Analysis.ofTexts .filtered commentOpen).diagnosis.errors.size = 1 := by
      decide +kernel
    rw [taken.diagnosis] at reports
    cases reports

end CppsFrontend
