import CppsFrontend.Proofs.Source.Tracking.Characters

/-!
# Counting along lines of C++

Over the items of a line the scan counts exactly the braces among them, and ends outside of
strings, in a comment if the line does.
-/

set_option autoImplicit false

namespace CppsFrontend.ForeignScan

open Text Cpp

variable {scan : ForeignScan} {column : Nat} {c : Char} {behind : List Char}

/-- The character before a text outside of strings tells what stands before it. -/
structure Boundary (previous : Char) (before : Option Item) (text : List Char) : Prop where
  character : previous = '\'' → ∃ escaped c, before = some (.character escaped c)
  escape : previous = '\\' → text.head? ≠ some '"'
  slash : previous = '/' → text.head? ≠ some '/' ∧ text.head? ≠ some '*'

theorem Boundary.of_settled {before : Option Item} (settled : IsSettled c) :
    Boundary c before behind :=
  ⟨fun same => absurd same settled.1, fun same => absurd same settled.2.1,
    fun same => absurd same settled.2.2⟩

theorem Boundary.of_quote (escaped : Bool) (quoted : Char) :
    Boundary '\'' (some (.character escaped quoted)) behind where
  character _ := ⟨escaped, quoted, rfl⟩
  escape same := absurd same (by decide)
  slash same := absurd same (by decide)

/-- What the character before tells outside of comments, and that it does not close a comment
with the next one inside. -/
def Ready (previous : Char) (before : Option Item) (text : List Char) : Bool → Prop
  | false => Boundary previous before text
  | true => previous = '*' → text.head? ≠ some '/'

/-- A scan has counted the braces of items. -/
structure Counts (scan after : ForeignScan) (items : List Item) (inComment : Bool) : Prop where
  inString : after.inString = false
  inComment : after.inComment = inComment
  depth : after.depth + closed items = scan.depth + opened items
  faults : after.faults = scan.faults

theorem Counts.cons {other after : ForeignScan} {item : Item} {items : List Item}
    {inComment : Bool} (counts : Counts other after items inComment)
    (depth : other.depth + closed [item] = scan.depth + opened [item])
    (faults : other.faults = scan.faults) : Counts scan after (item :: items) inComment := by
  refine ⟨counts.inString, counts.inComment, ?_, counts.faults.trans faults⟩
  have rest := counts.depth
  rw [← List.singleton_append, opened_append, closed_append]
  omega

theorem run_lineComment (outside : scan.inComment = false) (noString : scan.inString = false)
    (apart : scan.previous ≠ '/') :
    scan.run column ('/' :: '/' :: behind) = scan.pass '/' := by
  rw [run_code outside (fun _ slash => absurd slash apart),
    code_pass (by decide) (.inr (.inr (by decide))), run.eq_def]
  simp [pass, outside, noString]

theorem run_openComment (outside : scan.inComment = false) (noString : scan.inString = false)
    (apart : scan.previous ≠ '/') :
    ∃ further, scan.run column ('/' :: '*' :: behind) =
      ForeignScan.run { scan with inComment := true, hasCode := true, previous := ' ' }
        further behind := by
  refine ⟨column + '/'.utf8Size + '*'.utf8Size, ?_⟩
  rw [run_code outside (fun _ slash => absurd slash apart),
    code_pass (by decide) (.inr (.inr (by decide))), run.eq_def]
  simp [pass, outside, noString]

/-- A character literal is passed over, unless it is a brace behind a backslash. -/
theorem run_character (outside : scan.inComment = false) (noString : scan.inString = false) :
    ∃ further, scan.run column ('\'' :: c :: '\'' :: behind) =
      ForeignScan.run (((scan.pass '\'').pass c).pass '\'') further behind := by
  refine ⟨column + '\''.utf8Size + c.utf8Size + '\''.utf8Size, ?_⟩
  have middle : (scan.pass '\'').code c ('\'' :: behind) (column + '\''.utf8Size) =
      (scan.pass '\'').pass c := by
    by_cases quote : c = '"'
    · subst quote
      exact code_hiddenQuote (.inr ⟨noString, rfl⟩)
    · exact code_pass quote (.inr (.inl rfl))
  rw [run_code outside (fun _ _ => by decide),
    code_pass (by decide) (.inr (.inr (by decide))),
    @run_code (scan.pass '\'') _ _ _ outside
      (fun _ slash => absurd slash (by decide : '\'' ≠ '/')), middle,
    @run_code ((scan.pass '\'').pass c) _ _ _ outside (fun _ _ => by decide),
    code_pass (by decide) (.inr (.inr (by decide)))]

theorem run_escapedCharacter (outside : scan.inComment = false)
    (noBrace : c ≠ '\x7b' ∧ c ≠ '\x7d') :
    ∃ further, scan.run column ('\'' :: '\\' :: c :: '\'' :: behind) =
      ForeignScan.run ((((scan.pass '\'').pass '\\').pass c).pass '\'') further behind := by
  refine ⟨column + '\''.utf8Size + '\\'.utf8Size + c.utf8Size + '\''.utf8Size, ?_⟩
  have middle : ((scan.pass '\'').pass '\\').code c ('\'' :: behind)
      (column + '\''.utf8Size + '\\'.utf8Size) = ((scan.pass '\'').pass '\\').pass c := by
    by_cases quote : c = '"'
    · subst quote
      exact code_hiddenQuote (.inl rfl)
    · exact code_pass quote (.inr (.inr noBrace))
  rw [run_code outside (fun _ _ => by decide),
    code_pass (by decide) (.inr (.inr (by decide))),
    @run_code (scan.pass '\'') _ _ _ outside
      (fun _ slash => absurd slash (by decide : '\'' ≠ '/')),
    code_pass (by decide) (.inr (.inr (by decide))),
    @run_code ((scan.pass '\'').pass '\\') _ _ _ outside
      (fun _ slash => absurd slash (by decide : '\\' ≠ '/')), middle,
    @run_code (((scan.pass '\'').pass '\\').pass c) _ _ _ outside (fun _ _ => by decide),
    code_pass (by decide) (.inr (.inr (by decide)))]

/-- A brace is counted, unless it stands between two literals. -/
theorem Boundary.unquoted {before : Option Item} {text : List Char} {opens : Bool}
    {items : List Item} {after : Bool} (boundary : Boundary scan.previous before text)
    (tracked : isTracked (before.toList ++ .brace opens :: items) = true)
    (reads : Reads false behind items after) : scan.isQuoted behind = false := by
  refine Bool.eq_false_iff.mpr fun quoted => ?_
  simp only [isQuoted, Bool.and_eq_true, decide_eq_true_eq] at quoted
  obtain ⟨escaped, c, rfl⟩ := boundary.character quoted.1
  obtain ⟨other, d, more, rfl⟩ := reads.of_quote quoted.2
  rw [Option.toList_some, List.singleton_append, isTracked] at tracked
  simp [Item.misleadsAt] at tracked

/-- The scan of a text counts the braces of its items. -/
theorem run_counts {inComment after : Bool} {text : List Char} {items : List Item}
    (reads : Reads inComment text items after) (before : Option Item)
    (outside : scan.inString = false) (comment : scan.inComment = inComment)
    (ready : Ready scan.previous before text inComment)
    (tracked : isTracked (before.toList ++ items) = true) (closable : Closable scan.depth items) :
    Counts scan (scan.run column text) items after := by
  induction reads generalizing scan column before with
  | done inComment => exact ⟨outside, comment, rfl, rfl⟩
  | @code c behind items after plain rest induction =>
      obtain ⟨noQuote, noSingle, noOpen, noClose, slash, escape⟩ := plain
      have apart : scan.previous = '/' → c ≠ '/' ∧ c ≠ '*' := by
        intro same
        obtain ⟨first, second⟩ := Boundary.slash ready same
        exact ⟨fun equal => first (congrArg some equal), fun equal => second (congrArg some equal)⟩
      have counted := @induction (scan.pass c) (column + c.utf8Size) (some (.code c)) outside
        comment (Boundary.mk (fun same => absurd same noSingle) escape slash)
        (isTracked_append tracked) (closable.tail rfl)
      rw [run_code comment (fun _ => apart), code_pass noQuote (.inr (.inr ⟨noOpen, noClose⟩))]
      exact counted.cons rfl rfl
  | @number first text digits behind items after digit separated split rest induction =>
      have part : (isWordPart first || first = '.') = true := by simp [isWordPart, digit]
      obtain ⟨noQuote, noOpen, noClose, star, settled⟩ := isWordPart_settled part
      obtain ⟨other, further, same, alike, last⟩ := @run_separated (scan.pass first)
        (column + first.utf8Size) behind digits separated comment settled
      have counted := @induction other further (some .number) (alike.inString.trans outside)
        (alike.inComment.trans comment) (Boundary.of_settled last) (isTracked_append tracked)
        (closable.tail (congrArg (· + closed [.number]) alike.depth))
      rw [run_code comment (fun _ _ => ⟨settled.2.2, star⟩),
        code_pass noQuote (.inr (.inr ⟨noOpen, noClose⟩)), split, same]
      exact counted.cons (congrArg (· + closed [.number]) alike.depth) alike.faults
  | @openBrace behind items after rest induction =>
      have counted := @induction
        { scan with depth := scan.depth + 1, hasCode := true, previous := '\x7b' }
        (column + '\x7b'.utf8Size) (some (.brace true)) outside comment
        (Boundary.of_settled (show IsSettled '\x7b' by decide)) (isTracked_append tracked)
        (closable.tail rfl)
      rw [run_code comment (fun _ _ => by decide),
        code_openBrace outside (Boundary.unquoted ready tracked rest)]
      exact counted.cons rfl rfl
  | @closeBrace behind items after rest induction =>
      obtain ⟨depth, deep⟩ : ∃ depth, scan.depth = depth + 1 := by
        have covered : 1 ≤ scan.depth + 0 :=
          closable [.brace false] (List.prefix_append [.brace false] items)
        exact Nat.exists_eq_add_one_of_ne_zero (by omega)
      have same : depth + closed [.brace false] = scan.depth + opened [.brace false] := deep.symm
      have counted := @induction
        { scan with depth := depth, hasCode := true, previous := '\x7d' }
        (column + '\x7d'.utf8Size) (some (.brace false)) outside comment
        (Boundary.of_settled (show IsSettled '\x7d' by decide)) (isTracked_append tracked)
        (closable.tail same)
      rw [run_code comment (fun _ _ => by decide),
        code_closeBrace deep outside (Boundary.unquoted ready tracked rest)]
      exact counted.cons same rfl
  | @character c behind items after noQuote noEscape rest induction =>
      obtain ⟨further, same⟩ := @run_character scan column c behind comment outside
      have counted := @induction (((scan.pass '\'').pass c).pass '\'') further
        (some (.character false c)) outside comment (Boundary.of_quote false c)
        (isTracked_append tracked) (closable.tail rfl)
      rw [same]
      exact counted.cons rfl rfl
  | @escapedCharacter c behind items after rest induction =>
      have noBrace : c ≠ '\x7b' ∧ c ≠ '\x7d' := by
        simpa [Item.misleads] using misleads_of_isTracked tracked
      obtain ⟨further, same⟩ := @run_escapedCharacter scan column c behind comment noBrace
      have counted := @induction ((((scan.pass '\'').pass '\\').pass c).pass '\'') further
        (some (.character true c)) outside comment (Boundary.of_quote true c)
        (isTracked_append tracked) (closable.tail rfl)
      rw [same]
      exact counted.cons rfl rfl
  | @string elements text behind items after valid split rest induction =>
      have visible : scan.previous ≠ '\\' := fun same => Boundary.escape ready same rfl
      have apart : scan.previous ≠ '\'' := by
        intro same
        obtain ⟨escaped, c, rfl⟩ := Boundary.character ready same
        rw [Option.toList_some, List.singleton_append, isTracked] at tracked
        simp [Item.misleadsAt] at tracked
      have closes := of_decide_eq_false (misleads_of_isTracked tracked)
      obtain ⟨further, same⟩ := @run_elements
        { scan with inString := true, hasCode := true, previous := '"' }
        (column + '"'.utf8Size) behind elements valid comment rfl
        (fun _ same => absurd same (by decide : '"' ≠ '\\')) closes
      have counted := @induction
        { scan with inString := false, hasCode := true, previous := '"' } further
        (some (.string elements)) rfl comment (Boundary.of_settled (show IsSettled '"' by decide))
        (isTracked_append tracked) (closable.tail rfl)
      rw [run_code comment (fun _ _ => by decide), code_quote visible (.inr apart), outside, split]
      exact (congrArg (Counts scan · (.string elements :: items) after) same).mpr
        (counted.cons rfl rfl)
  | lineComment behind =>
      have apart : scan.previous ≠ '/' := fun same => (Boundary.slash ready same).1 rfl
      rw [run_lineComment comment outside apart]
      exact ⟨outside, comment, rfl, rfl⟩
  | @openComment behind items after rest induction =>
      have apart : scan.previous ≠ '/' := fun same => (Boundary.slash ready same).1 rfl
      obtain ⟨further, same⟩ := @run_openComment scan column behind comment outside apart
      have counted := @induction
        { scan with inComment := true, hasCode := true, previous := ' ' } further
        (some .comment) outside rfl (fun star => absurd star (by decide : ' ' ≠ '*'))
        (isTracked_append tracked) (closable.tail rfl)
      rw [same]
      exact counted.cons rfl rfl
  | @commentText c behind items after notClosed rest induction =>
      have other : ¬ (scan.previous = '*' ∧ c = '/') := by
        rintro ⟨star, rfl⟩
        exact ready star rfl
      obtain ⟨inString, inComment, depth, faults⟩ := @induction { scan with previous := c }
        (column + c.utf8Size) before outside comment notClosed tracked closable
      rw [run_comment comment, if_neg other]
      exact ⟨inString, inComment, depth, faults⟩
  | @closeComment behind items after rest induction =>
      have star : ¬ (scan.previous = '*' ∧ '*' = '/') := fun both => absurd both.2 (by decide)
      obtain ⟨inString, inComment, depth, faults⟩ := @induction
        { scan with inComment := false, previous := ' ' } (column + '*'.utf8Size + '/'.utf8Size)
        before outside rfl (Boundary.of_settled (show IsSettled ' ' by decide)) tracked closable
      rw [run_comment comment, if_neg star,
        @run_comment { scan with previous := '*' } _ _ _ comment, if_pos ⟨rfl, rfl⟩]
      exact ⟨inString, inComment, depth, faults⟩

/-- A whole line is scanned like its text. -/
theorem line_counts {inComment after : Bool} {text : List Char} {items : List Item}
    (reads : Reads inComment text items after) (outside : scan.inString = false)
    (comment : scan.inComment = inComment) (blank : scan.previous = ' ')
    (tracked : isTracked items = true) (closable : Closable scan.depth items) :
    Counts scan (scan.line column text) items after := by
  have settled : IsSettled scan.previous := by
    rw [blank]
    decide
  have star : ∀ text : List Char, scan.previous = '*' → text.head? ≠ some '/' := by
    intro _ same
    rw [blank] at same
    cases same
  have ready : Ready scan.previous none text inComment := by
    cases inComment with
    | false => exact Boundary.of_settled settled
    | true => exact star text
  have whole : Counts scan (scan.run column text) items after :=
    run_counts reads none outside comment ready tracked closable
  unfold line
  split
  · exact whole
  · next neither =>
      simp only [Bool.or_eq_true, not_or, Bool.not_eq_true] at neither
      obtain rfl : inComment = false := comment.symm.trans neither.1
      split
      · cases reads with
        | code plain => exact absurd rfl (plain.2.2.2.2.1 rfl).1
        | number digit => cases digit
        | lineComment => exact ⟨outside, comment, rfl, rfl⟩
      · cases reads with
        | code plain => exact absurd rfl (plain.2.2.2.2.1 rfl).2
        | number digit => cases digit
        | openComment rest =>
            have counted := @run_counts { scan with inComment := true } (column + 2) _ _ _ _ rest
              none outside rfl (star _)
              (@isTracked_append [.comment] _ tracked) (closable.tail rfl)
            exact counted.cons rfl rfl
      · exact whole

end CppsFrontend.ForeignScan
