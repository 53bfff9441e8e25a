import CppsFrontend.Proofs.Source.Commentary
import CppsFrontend.Proofs.Source.Tracking.Items

/-!
# Single characters of C++

What the scan of a line does at one character, over a string and over a number, and at a
brace.  It knows where it is by the character before.
-/

set_option autoImplicit false

namespace CppsFrontend.ForeignScan

open Text Cpp

variable {scan : ForeignScan} {column : Nat} {c : Char} {behind : List Char}

/-! ## Single characters -/

theorem run_code (outside : scan.inComment = false)
    (apart : scan.inString = false → scan.previous = '/' → c ≠ '/' ∧ c ≠ '*') :
    scan.run column (c :: behind) =
      (scan.code c behind column).run (column + c.utf8Size) behind := by
  rw [run.eq_def]
  simp only [outside, Bool.false_eq_true, if_false]
  rw [if_neg, if_neg]
  · intro slashes
    simp only [Bool.and_eq_true, Bool.not_eq_true', decide_eq_true_eq] at slashes
    exact (apart slashes.1.1 slashes.2).1 slashes.1.2
  · intro star
    simp only [Bool.and_eq_true, Bool.not_eq_true', decide_eq_true_eq] at star
    exact (apart star.1.1 star.2).2 star.1.2

def pass (scan : ForeignScan) (c : Char) : ForeignScan :=
  { scan with hasCode := true, previous := c }

theorem code_pass (noQuote : c ≠ '"')
    (noBrace : scan.inString = true ∨ scan.isQuoted behind = true ∨ c ≠ '\x7b' ∧ c ≠ '\x7d') :
    scan.code c behind column = scan.pass c := by
  unfold code
  split
  · exact absurd rfl noQuote
  · rcases noBrace with inside | quoted | noBrace
    · simp [inside, pass]
    · simp [quoted, pass]
    · exact absurd rfl noBrace.1
  · rcases noBrace with inside | quoted | noBrace
    · simp [inside, pass]
    · simp [quoted, pass]
    · exact absurd rfl noBrace.2
  · rfl

/-- A quote that the character before hides. -/
theorem code_hiddenQuote
    (hidden : scan.previous = '\\' ∨ scan.inString = false ∧ scan.previous = '\'') :
    scan.code '"' behind column = scan.pass '"' := by
  unfold code
  rcases hidden with backslash | ⟨outside, quote⟩
  · simp [backslash, pass]
  · simp [outside, quote, pass]

theorem code_quote (visible : scan.previous ≠ '\\')
    (apart : scan.inString = true ∨ scan.previous ≠ '\'') :
    scan.code '"' behind column =
      { scan with inString := !scan.inString, hasCode := true, previous := '"' } := by
  unfold code
  rcases apart with inside | apart
  · simp [visible, inside]
  · simp [visible, apart]

/-! ## Strings -/

/-- A string is passed over up to its closing quote, unless the last character before that
is an escaped backslash. -/
theorem run_elements (elements : List Element) (valid : ∀ element ∈ elements, element.IsValid)
    (outside : scan.inComment = false) (inside : scan.inString = true)
    (visible : elements = [] → scan.previous ≠ '\\')
    (closes : elements.getLast? ≠ some (.escaped '\\')) :
    ∃ further, scan.run column (elements.flatMap Element.chars ++ '"' :: behind) =
      ForeignScan.run { scan with inString := false, hasCode := true, previous := '"' }
        further behind := by
  induction elements generalizing scan column with
  | nil =>
      refine ⟨column + '"'.utf8Size, ?_⟩
      rw [List.flatMap_nil, List.nil_append, run_code outside (by simp [inside]),
        code_quote (visible rfl) (.inl inside), inside]
      rfl
  | cons element elements induction =>
      have valid := List.forall_mem_cons.mp valid
      have nextCloses : elements.getLast? ≠ some (.escaped '\\') := by
        intro last
        have kept : (element :: elements).getLast? = elements.getLast? := by
          cases elements with
          | nil => cases last
          | cons => rw [List.getLast?_cons_cons]
        exact closes (kept.trans last)
      cases element with
      | plain c =>
          obtain ⟨noQuote, noEscape⟩ := valid.1
          obtain ⟨further, rest⟩ := @induction (scan.pass c) (column + c.utf8Size) valid.2
            outside inside (fun _ => noEscape) nextCloses
          refine ⟨further, ?_⟩
          change scan.run column (c :: (elements.flatMap Element.chars ++ '"' :: behind)) = _
          rw [run_code outside (by simp [inside]), code_pass noQuote (.inl inside), rest]
          rfl
      | escaped c =>
          have nextVisible : elements = [] → (scan.pass c).previous ≠ '\\' := by
            rintro rfl rfl
            exact closes rfl
          obtain ⟨further, rest⟩ := @induction ((scan.pass '\\').pass c)
            (column + '\\'.utf8Size + c.utf8Size) valid.2 outside inside nextVisible nextCloses
          refine ⟨further, ?_⟩
          change scan.run column
            ('\\' :: c :: (elements.flatMap Element.chars ++ '"' :: behind)) = _
          rw [run_code outside (by simp [inside]), code_pass (by decide) (.inl inside),
            @run_code (scan.pass '\\') _ _ _ outside (by simp [pass, inside])]
          have passed : (scan.pass '\\').code c
              (elements.flatMap Element.chars ++ '"' :: behind) (column + '\\'.utf8Size) =
                (scan.pass '\\').pass c := by
            by_cases quote : c = '"'
            · subst quote
              exact code_hiddenQuote (.inl rfl)
            · exact code_pass quote (.inl inside)
          rw [passed, rest]
          rfl

/-! ## Numbers and braces -/

/-- Two scans differ in their code and in the character before only. -/
structure Alike (scan other : ForeignScan) : Prop where
  inString : other.inString = scan.inString
  inComment : other.inComment = scan.inComment
  depth : other.depth = scan.depth
  faults : other.faults = scan.faults

theorem Alike.pass (scan : ForeignScan) (c : Char) : scan.Alike (scan.pass c) :=
  ⟨rfl, rfl, rfl, rfl⟩

theorem Alike.trans {first second third : ForeignScan} (alike : first.Alike second)
    (other : second.Alike third) : first.Alike third :=
  ⟨other.inString.trans alike.inString, other.inComment.trans alike.inComment,
    other.depth.trans alike.depth, other.faults.trans alike.faults⟩

/-- A character that means nothing to the one behind it. -/
def IsSettled (c : Char) : Prop := c ≠ '\'' ∧ c ≠ '\\' ∧ c ≠ '/'

instance (c : Char) : Decidable (IsSettled c) :=
  inferInstanceAs (Decidable (c ≠ '\'' ∧ c ≠ '\\' ∧ c ≠ '/'))

theorem isWordPart_settled (part : (isWordPart c || c = '.') = true) :
    c ≠ '"' ∧ c ≠ '\x7b' ∧ c ≠ '\x7d' ∧ c ≠ '*' ∧ IsSettled c := by
  refine ⟨?_, ?_, ?_, ?_, ?_, ?_, ?_⟩ <;>
    · rintro rfl
      exact absurd part (by decide)

/-- Separated digits are passed over. -/
theorem run_separated (digits : List Char) (separated : isSeparated digits = true)
    (outside : scan.inComment = false) (settled : IsSettled scan.previous) :
    ∃ other further, scan.run column (digits ++ behind) = ForeignScan.run other further behind ∧
      scan.Alike other ∧ IsSettled other.previous := by
  fun_induction isSeparated digits generalizing scan column with
  | case1 => exact ⟨scan, column, rfl, ⟨rfl, rfl, rfl, rfl⟩, settled⟩
  | case2 c rest induction =>
      rw [Bool.and_eq_true] at separated
      obtain ⟨noQuote, noOpen, noClose, -, next⟩ :=
        isWordPart_settled (Bool.or_eq_true_iff.mpr (.inl separated.1))
      obtain ⟨other, further, same, alike, last⟩ := @induction ((scan.pass '\'').pass c)
        (column + '\''.utf8Size + c.utf8Size) separated.2 outside next
      refine ⟨other, further, ?_, ((Alike.pass scan '\'').trans (.pass _ c)).trans alike, last⟩
      rw [List.cons_append, List.cons_append,
        run_code outside (fun _ slash => absurd slash settled.2.2),
        code_pass (by decide) (.inr (.inr (by decide))),
        @run_code (scan.pass '\'') _ _ _ outside
          (fun _ slash => absurd slash (by decide : '\'' ≠ '/')),
        code_pass noQuote (.inr (.inr ⟨noOpen, noClose⟩)), same]
  | case3 c rest _ induction =>
      rw [Bool.and_eq_true] at separated
      obtain ⟨noQuote, noOpen, noClose, -, next⟩ := isWordPart_settled separated.1
      obtain ⟨other, further, same, alike, last⟩ := @induction (scan.pass c)
        (column + c.utf8Size) separated.2 outside next
      refine ⟨other, further, ?_, (Alike.pass scan c).trans alike, last⟩
      rw [List.cons_append, run_code outside (fun _ slash => absurd slash settled.2.2),
        code_pass noQuote (.inr (.inr ⟨noOpen, noClose⟩)), same]

theorem code_openBrace (outside : scan.inString = false) (unquoted : scan.isQuoted behind = false) :
    scan.code '\x7b' behind column =
      { scan with depth := scan.depth + 1, hasCode := true, previous := '\x7b' } := by
  simp [code, outside, unquoted]

theorem code_closeBrace {depth : Nat} (deep : scan.depth = depth + 1)
    (outside : scan.inString = false) (unquoted : scan.isQuoted behind = false) :
    scan.code '\x7d' behind column =
      { scan with depth := depth, hasCode := true, previous := '\x7d' } := by
  simp [code, outside, unquoted, closeBrace, deep]

end CppsFrontend.ForeignScan
