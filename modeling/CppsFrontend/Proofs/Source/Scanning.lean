import CppsFrontend.Proofs.Lexical.Shapes
import CppsFrontend.Source.Definition

/-!
# The scan of a definition over the pieces of its lines

The scan for the end of a definition reads characters, and knows comments and string
literals.  On a line whose pieces have no faults it passes them one by one: a brace or a
semicolon counts where it is a token, and nothing inside another token, a comment or
space does.  The one exception are delimiters in character literals.
-/

set_option autoImplicit false

namespace CppsFrontend

open Text Lexical

/-- The characters that the scan of a definition acts on by themselves. -/
def isDelimiter (c : Char) : Bool := c = '\x7b' || c = '\x7d' || c = ';' || c = '"'

theorem isDelimiter_of_plain {c : Char} (plain : c ∉ special) : isDelimiter c = false := by
  simp only [special, List.mem_cons, List.not_mem_nil, or_false, not_or] at plain
  simp [isDelimiter, plain]

namespace DefinitionScan

variable {scan : DefinitionScan} {column : Nat} {c : Char} {rest front back : List Char}

/-- The scan is outside comments and strings, and the definition goes on. -/
structure Going (scan : DefinitionScan) : Prop where
  outside : scan.inComment = false
  unquoted : scan.inString = false
  going : scan.ended = false

def behind (scan : DefinitionScan) (text : List Char) : DefinitionScan :=
  { scan with previous := text.getLastD scan.previous }

@[simp] theorem behind_nil (scan : DefinitionScan) : scan.behind [] = scan := rfl

@[simp] theorem behind_cons (scan : DefinitionScan) (c : Char) (text : List Char) :
    ({ scan with previous := c } : DefinitionScan).behind text = scan.behind (c :: text) := by
  rw [behind, behind, List.getLastD_cons]

theorem Going.behind (going : Going scan) (text : List Char) : Going (scan.behind text) :=
  ⟨going.outside, going.unquoted, going.going⟩

theorem run_nil (scan : DefinitionScan) (column : Nat) : scan.run column [] = scan := by
  rw [run.eq_def]

/-! ## Code -/

theorem run_code (going : Going scan)
    (apart : ¬ (scan.previous = '/' ∧ (c = '/' ∨ c = '*'))) :
    scan.run column (c :: rest) = (scan.code c column).run (column + c.utf8Size) rest := by
  have noBlock : ¬ (c = '*' ∧ scan.previous = '/') := fun both => apart ⟨both.2, .inr both.1⟩
  have noLine : ¬ (c = '/' ∧ scan.previous = '/') := fun both => apart ⟨both.2, .inl both.1⟩
  rw [run.eq_def]
  simp only [going.outside, going.unquoted, going.going, Bool.and_eq_true, decide_eq_true_eq,
    noBlock, noLine, Bool.false_eq_true, if_false]

theorem run_blockOpening (going : Going scan) (slash : scan.previous = '/') :
    scan.run column ('*' :: rest) = scan.enterComment.run (column + 1) rest := by
  rw [run.eq_def]
  simp [going.outside, going.unquoted, going.going, slash]
  rfl

theorem run_lineOpening (going : Going scan) (slash : scan.previous = '/') :
    scan.run column ('/' :: rest) = scan := by
  rw [run.eq_def]
  simp [going.outside, going.unquoted, going.going, slash]

theorem code_plain (plain : isDelimiter c = false) :
    scan.code c column = { scan with previous := c } := by
  simp only [isDelimiter, Bool.or_eq_false_iff, decide_eq_false_iff_not] at plain
  unfold code
  split <;> simp_all

theorem run_plain (going : Going scan) (uncommented : Uncommented scan.previous front)
    (plain : ∀ c ∈ front, isDelimiter c = false) :
    scan.run column (front ++ back) =
      (scan.behind front).run (column + byteLength front) back := by
  induction front generalizing scan column with
  | nil => rfl
  | cons c front induction =>
      have goingNext : Going ({ scan with previous := c } : DefinitionScan) := going.behind [c]
      rw [List.cons_append, run_code going uncommented.1,
        code_plain (plain c List.mem_cons_self),
        induction goingNext uncommented.2 (fun d member => plain d (List.mem_cons_of_mem c member)),
        behind_cons, byteLength_cons, Nat.add_assoc]

/-! ## Comments -/

theorem run_comment (inside : scan.inComment = true) :
    scan.run column (c :: rest) =
      if scan.previous = '*' ∧ c = '/' then scan.leaveComment.run (column + c.utf8Size) rest
      else ({ scan with previous := c } : DefinitionScan).run (column + c.utf8Size) rest := by
  rw [run.eq_def]
  simp only [inside, Bool.and_eq_true, decide_eq_true_eq, if_true]

theorem run_throughCommentEnd (text : List Char) (inside : scan.inComment = true)
    (apart : scan.previous = '*' → text.head? ≠ some '/') :
    scan.run column text =
      if (throughCommentEnd text).2 then
        scan.leaveComment.run (column + byteLength (throughCommentEnd text).1)
          (text.drop (throughCommentEnd text).1.length)
      else scan.behind text := by
  fun_induction throughCommentEnd text generalizing scan column with
  | case1 rest =>
      have star : ¬ (scan.previous = '*' ∧ '*' = '/') := fun both => absurd both.2 (by decide)
      rw [run_comment inside, if_neg star, @run_comment { scan with previous := '*' } _ _ _ inside,
        if_pos ⟨rfl, rfl⟩]
      simp [leaveComment, Nat.add_assoc]
  | case2 c rest notEnd after =>
      rename_i induction
      have other : ¬ (scan.previous = '*' ∧ c = '/') := by
        rintro ⟨star, rfl⟩
        exact apart star rfl
      have next : c = '*' → rest.head? ≠ some '/' := by
        rintro rfl slash
        cases rest with
        | nil => cases slash
        | cons d rest =>
            cases Option.some.inj slash
            exact notEnd rest rfl rfl
      rw [run_comment inside, if_neg other, @induction { scan with previous := c } _ inside next,
        behind_cons]
      simp [leaveComment, Nat.add_assoc, after]
  | case3 => rw [run_nil, if_neg (by simp), behind_nil]

/-! ## String literals -/

theorem run_string (outside : scan.inComment = false) (inside : scan.inString = true)
    (plain : c ≠ '\\') (open' : c ≠ '"') :
    scan.run column (c :: rest) =
      ({ scan with previous := c } : DefinitionScan).run (column + c.utf8Size) rest := by
  rw [run.eq_def]
  simp only [outside, inside, Bool.false_eq_true, if_false, if_true]
  split <;> simp_all

/-- Inside a string literal a backslash at the end of a line escapes nothing. -/
theorem run_stringText (outside : scan.inComment = false) (inside : scan.inString = true)
    (final : c = '\\' → rest = []) (noQuote : c ≠ '"') :
    scan.run column (c :: rest) =
      ({ scan with previous := c } : DefinitionScan).run (column + c.utf8Size) rest := by
  by_cases backslash : c = '\\'
  · rw [final backslash, backslash, run.eq_def]
    simp [outside, inside]
  · exact run_string outside inside backslash noQuote

theorem run_escape (outside : scan.inComment = false) (inside : scan.inString = true) :
    scan.run column ('\\' :: c :: rest) =
      ({ scan with previous := '\\' } : DefinitionScan).run (column + 1 + c.utf8Size) rest := by
  rw [run.eq_def]
  simp only [outside, inside, Bool.false_eq_true, if_false, if_true]
  rfl

theorem run_quote (outside : scan.inComment = false) (inside : scan.inString = true) :
    scan.run column ('"' :: rest) =
      ({ scan with inString := false, previous := '"' } : DefinitionScan).run (column + 1)
        rest := by
  rw [run.eq_def]
  simp only [outside, inside, Bool.false_eq_true, if_false, if_true]
  rfl

theorem run_stringDigits (digits : List Char) (outside : scan.inComment = false)
    (inside : scan.inString = true) (hexadecimal : ∀ c ∈ digits, isHexDigit c = true) :
    scan.run column (digits ++ back) =
      (scan.behind digits).run (column + byteLength digits) back := by
  induction digits generalizing scan column with
  | nil => rfl
  | cons c digits induction =>
      have digit := hexadecimal c List.mem_cons_self
      have noBackslash : c ≠ '\\' := by
        rintro rfl
        exact absurd digit (by decide)
      have noQuote : c ≠ '"' := by
        rintro rfl
        exact absurd digit (by decide)
      rw [List.cons_append, run_string outside inside noBackslash noQuote,
        @induction { scan with previous := c } _ outside inside
          (fun d member => hexadecimal d (List.mem_cons_of_mem c member)),
        behind_cons, byteLength_cons, Nat.add_assoc]

/-- An element is passed as a whole. -/
theorem run_element {distance : Nat} {element : Element} (outside : scan.inComment = false)
    (inside : scan.inString = true) (noQuote : c ≠ '"')
    (found : element? distance c rest = some element) :
    ∃ previous, scan.run column (c :: rest) =
      ({ scan with previous := previous } : DefinitionScan).run
        (column + byteLength (c :: element.tail)) (rest.drop element.tail.length) := by
  rcases element_shape found with ⟨noBackslash, single⟩ | ⟨rfl, letter, digits, shape, hexadecimal⟩
  · refine ⟨c, ?_⟩
    rw [run_string outside inside noBackslash noQuote, single]
    rfl
  · obtain ⟨back, rfl⟩ := element_front found
    refine ⟨digits.getLastD '\\', ?_⟩
    rw [List.drop_left, shape, List.cons_append, run_escape outside inside,
      @run_stringDigits { scan with previous := '\\' } _ _ digits outside inside hexadecimal]
    simp only [byteLength_cons, Nat.add_assoc]
    rfl

theorem run_stringContent (distance : Nat) (text : List Char) (outside : scan.inComment = false)
    (inside : scan.inString = true) (closed : (stringContent distance text).closed = true) :
    scan.run column text =
      ({ scan with inString := false, previous := '"' } : DefinitionScan).run
        (column + byteLength (stringContent distance text).text)
        (text.drop (stringContent distance text).text.length) := by
  fun_induction stringContent distance text generalizing scan column with
  | case1 => cases closed
  | case2 distance more => exact run_quote outside inside
  | case3 distance head more noQuote missing => cases closed
  | case4 distance head more noQuote element found after =>
      rename_i induction
      obtain ⟨previous, passed⟩ := run_element outside inside noQuote found
      have bytes : byteLength (head :: element.tail ++ after.text) =
          byteLength (head :: element.tail) + byteLength after.text := byteLength_append ..
      have count : (head :: element.tail ++ after.text).length =
          element.tail.length + after.text.length + 1 := by
        rw [List.length_append, List.length_cons]
        omega
      rw [passed, @induction { scan with previous := previous } _ outside inside closed,
        List.drop_drop, bytes, count, List.drop_succ_cons, ← Nat.add_assoc]

/-! ## Behind the end -/

structure Done (scan : DefinitionScan) : Prop where
  outside : scan.inComment = false
  unquoted : scan.inString = false
  done : scan.ended = true

theorem Done.behind (done : Done scan) (text : List Char) : Done (scan.behind text) :=
  ⟨done.outside, done.unquoted, done.done⟩

/-- A definition that has ended does not go on. -/
theorem run_ended (column : Nat) (text : List Char) (ended : scan.ended = true) :
    (scan.run column text).ended = true := by
  fun_induction run scan column text with
  | case1 | case7 | case9 => exact ended
  | case2 _ _ _ _ _ _ _ induction | case3 _ _ _ _ _ _ _ induction
  | case4 _ _ _ _ _ _ _ induction | case5 _ _ _ _ _ _ induction
  | case6 _ _ _ _ _ _ _ _ _ induction | case8 _ _ _ _ _ _ _ _ induction => exact induction ended
  | case10 scan column c next outside unquoted done rest space noLine noBlock induction =>
      rw [if_pos space]
      exact induction ended
  | case11 scan column c next outside unquoted done rest visible =>
      rw [if_neg visible]
      exact ended
  | case12 scan column c rest next outside unquoted going => exact absurd ended going
  | case13 scan column c rest outside unquoted going => exact absurd ended going
  | case14 scan column c rest next outside unquoted going => exact absurd ended going

theorem run_doneSpace (done : Done scan) (space : ∀ c ∈ front, isSpace c = true) :
    scan.run column (front ++ back) =
      (scan.behind front).run (column + byteLength front) back := by
  induction front generalizing scan column with
  | nil => rfl
  | cons c front induction =>
      have first := space c List.mem_cons_self
      have noSlash : c ≠ '/' := by
        rintro rfl
        exact absurd first (by decide)
      have step : scan.run column (c :: (front ++ back)) =
          ({ scan with previous := c } : DefinitionScan).run (column + c.utf8Size)
            (front ++ back) := by
        rw [run.eq_def]
        simp only [done.outside, done.unquoted, done.done, Bool.false_eq_true, if_false, if_true]
        split
        · contradiction
        · contradiction
        · rw [if_pos first]
      have doneNext : Done ({ scan with previous := c } : DefinitionScan) := done.behind [c]
      rw [List.cons_append, step,
        induction doneNext (fun d member => space d (List.mem_cons_of_mem c member)),
        behind_cons, byteLength_cons, Nat.add_assoc]

theorem run_doneLine (done : Done scan) : scan.run column ('/' :: '/' :: rest) = scan := by
  rw [run.eq_def]
  simp [done.outside, done.unquoted, done.done]

theorem run_doneBlock (done : Done scan) (closed : (throughCommentEnd rest).2 = true) :
    scan.run column ('/' :: '*' :: rest) = scan.enterComment.run (column + 1 + 1) rest := by
  rw [run.eq_def]
  simp only [done.outside, done.unquoted, done.done, Bool.false_eq_true, if_false, if_true, closed]
  rfl

theorem run_doneOpen (done : Done scan) (unclosed : (throughCommentEnd rest).2 = false) :
    scan.run column ('/' :: '*' :: rest) = scan.fault (.textAfterDefinition '/') column := by
  rw [run.eq_def]
  simp only [done.outside, done.unquoted, done.done, Bool.false_eq_true, if_false, if_true,
    unclosed]

/-- Behind the end nothing but space and comments is expected. -/
theorem run_doneText (done : Done scan) (visible : isSpace c = false)
    (apart : ¬ (c = '/' ∧ (rest.head? = some '/' ∨ rest.head? = some '*'))) :
    scan.run column (c :: rest) = scan.fault (.textAfterDefinition c) column := by
  rw [run.eq_def]
  simp only [done.outside, done.unquoted, done.done, Bool.false_eq_true, if_false, if_true]
  split
  · exact absurd ⟨rfl, .inl rfl⟩ apart
  · exact absurd ⟨rfl, .inr rfl⟩ apart
  · rw [visible, if_neg Bool.false_ne_true]

/-! ## The indentation of a line -/

/-- What a scan has found, apart from the character before. -/
def forget (scan : DefinitionScan) : DefinitionScan := { scan with previous := ' ' }

theorem code_previous (c d : Char) :
    ({ scan with previous := d } : DefinitionScan).code c column = scan.code c column := by
  obtain ⟨inComment, inString, depth, ended, previous, faults⟩ := scan
  unfold code
  split <;> cases depth <;> rfl

/-- A character before that neither opens nor closes a comment does not matter. -/
theorem forget_run (text : List Char) (other : c ≠ '/' ∧ c ≠ '*')
    (apart : scan.previous ≠ '/' ∧ scan.previous ≠ '*') :
    (({ scan with previous := c } : DefinitionScan).run column text).forget =
      (scan.run column text).forget := by
  cases text with
  | nil =>
      rw [run_nil, run_nil]
      rfl
  | cons d rest =>
      rw [run.eq_def, run.eq_def scan]
      simp only [code_previous, apart.1, apart.2, other.1, other.2, decide_false, Bool.false_and,
        Bool.and_false, Bool.false_eq_true, if_false]
      split
      · rfl
      · split
        · rfl
        · split
          · split
            · rfl
            · split <;> rfl
            · split <;> rfl
          · rfl

theorem run_commentText (inside : scan.inComment = true) (noSlash : ∀ c ∈ front, c ≠ '/') :
    scan.run column (front ++ back) =
      (scan.behind front).run (column + byteLength front) back := by
  induction front generalizing scan column with
  | nil => rfl
  | cons c front induction =>
      have other : ¬ (scan.previous = '*' ∧ c = '/') :=
        fun both => noSlash c List.mem_cons_self both.2
      rw [List.cons_append, run_comment inside, if_neg other,
        @induction { scan with previous := c } _ inside
          (fun d member => noSlash d (List.mem_cons_of_mem c member)),
        behind_cons, byteLength_cons, Nat.add_assoc]

theorem isSpace_utf8Size (space : isSpace c = true) : c.utf8Size = 1 := by
  simp only [isSpace, Bool.or_eq_true, Bool.and_eq_true, decide_eq_true_eq] at space
  rcases space with rfl | ⟨_, low⟩
  · decide
  · exact Char.utf8Size_eq_one_iff.mpr (UInt32.le_trans low (by decide))

theorem byteLength_space {text : List Char} (space : ∀ c ∈ text, isSpace c = true) :
    byteLength text = text.length := by
  induction text with
  | nil => rfl
  | cons c rest induction =>
      have one := isSpace_utf8Size (space c List.mem_cons_self)
      rw [byteLength_cons, List.length_cons, one,
        induction (fun d member => space d (List.mem_cons_of_mem c member)), Nat.add_comm]

/-- Space is passed, inside a comment and outside. -/
theorem run_indentation (inComment : Bool) (depth : Nat)
    (space : ∀ c ∈ front, isSpace c = true) :
    (start inComment depth).run column (front ++ back) =
      ((start inComment depth).behind front).run (column + front.length) back := by
  have plain : Plain front := fun c member => notMem_special isSpace_special (space c member)
  rw [← byteLength_space space]
  cases inComment with
  | true =>
      refine run_commentText rfl ?_
      rintro c member rfl
      exact absurd (plain '/' member) (by decide)
  | false =>
      exact run_plain ⟨rfl, rfl, rfl⟩ (plain.uncommented ' ')
        (fun c member => isDelimiter_of_plain (plain c member))

/-- A line may be scanned from its first visible character on. -/
theorem forget_indented (inComment : Bool) (depth : Nat) (text : List Char) :
    ((start inComment depth).run (text.takeWhile isSpace).length
        (text.dropWhile isSpace)).forget =
      ((start inComment depth).run 0 text).forget := by
  have space : ∀ c ∈ text.takeWhile isSpace, isSpace c = true :=
    fun c member => List.all_eq_true.mp List.all_takeWhile c member
  have last : isSpace ((text.takeWhile isSpace).getLastD ' ') = true := by
    rcases List.mem_cons.mp (List.getLastD_mem_cons : _ ∈ ' ' :: text.takeWhile isSpace) with
      blank | member
    · rw [blank]
      decide
    · exact space _ member
  have neutral : ∀ c, isSpace c = true → c ≠ '/' ∧ c ≠ '*' := by
    intro c isSpace
    constructor <;> (rintro rfl; cases isSpace)
  have whole := @run_indentation 0 _ (text.dropWhile isSpace) inComment depth space
  rw [List.takeWhile_append_dropWhile, Nat.zero_add] at whole
  rw [whole]
  exact (forget_run _ (neutral _ last) (neutral ' ' (by decide))).symm

end DefinitionScan

end CppsFrontend
