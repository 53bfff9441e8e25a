import CppsFrontend.Proofs.Source.Removal
import CppsFrontend.Proofs.Source.Tracking

/-!
# Block comments between definitions

A block comment of C++ begins outside of `//` comments and directives, and every line inside
it is text of the comment, whatever it begins with.  The classifier is inside a comment
exactly where the C++ of a file without string literals is, as long as no comment is opened
or closed on a line that it takes for a directive or an import, which it does not scan.
-/

set_option autoImplicit false

namespace CppsFrontend

open Text

/-! ## Where C++ is inside a comment -/

namespace Cpp

/-- The code of a text and whether a comment is open behind it, from inside a comment or from
outside. -/
def strip : Bool → List Char → List Char × Bool
  | inComment, [] => ([], inComment)
  | true, '*' :: '/' :: rest => strip false rest
  | true, _ :: rest => strip true rest
  | false, '/' :: '*' :: rest => strip true rest
  | false, '/' :: '/' :: _ => ([], false)
  | false, c :: rest => (c :: (strip false rest).1, (strip false rest).2)

structure Context where
  inComment : Bool
  /-- The next line is part of the same directive. -/
  inDirective : Bool
deriving DecidableEq

/-- Where C++ is behind a line.  Directives begin outside of comments, and open none. -/
def Context.next (context : Context) (line : List Char) : Context :=
  if context.inDirective || !context.inComment && line.head? = some '#' then
    { context with inDirective := Reading.continues line }
  else ⟨(strip context.inComment line).2, false⟩

theorem Context.next_code {context : Context} {line : List Char}
    (outside : context.inDirective = false) (noHash : line.head? ≠ some '#') :
    context.next line = ⟨(strip context.inComment line).2, false⟩ := by
  unfold next
  rw [if_neg]
  simp [outside, noHash]

end Cpp

open Cpp

namespace ForeignScan

variable {scan : ForeignScan} {column : Nat} {c : Char} {behind text : List Char}

theorem code_keeps (noQuote : c ≠ '"') :
    (scan.code c behind column).inComment = scan.inComment ∧
      (scan.code c behind column).inString = scan.inString ∧
        (scan.code c behind column).previous = c := by
  unfold code
  split
  · exact absurd rfl noQuote
  · split <;> exact ⟨rfl, rfl, rfl⟩
  · split
    · unfold closeBrace
      split <;> exact ⟨rfl, rfl, rfl⟩
    · exact ⟨rfl, rfl, rfl⟩
  · exact ⟨rfl, rfl, rfl⟩

def Apart (previous : Char) (text : List Char) : Bool → Prop
  | false => previous = '/' → text.head? ≠ some '/' ∧ text.head? ≠ some '*'
  | true => previous = '*' → text.head? ≠ some '/'

/-- The scan of a text without strings is inside a comment where its code ends. -/
theorem run_strip (inComment : Bool) (text : List Char)
    (unquoted : '"' ∉ (strip inComment text).1) (comment : scan.inComment = inComment)
    (noString : scan.inString = false) (apart : Apart scan.previous text inComment) :
    (scan.run column text).inComment = (strip inComment text).2 ∧
      (scan.run column text).inString = false := by
  fun_induction strip inComment text generalizing scan column with
  | case1 inComment => exact ⟨comment, noString⟩
  | case2 rest induction =>
      have star : ¬ (scan.previous = '*' ∧ '*' = '/') := fun both => absurd both.2 (by decide)
      rw [run_comment comment, if_neg star,
        @run_comment { scan with previous := '*' } _ _ _ comment, if_pos ⟨rfl, rfl⟩]
      exact induction unquoted rfl noString fun slash => absurd slash (show ¬ ' ' = '/' by decide)
  | case3 c rest notEnd induction =>
      have other : ¬ (scan.previous = '*' ∧ c = '/') := by
        rintro ⟨star, rfl⟩
        exact apart star rfl
      rw [run_comment comment, if_neg other]
      refine induction unquoted comment noString fun star slash => ?_
      obtain ⟨behind, rfl⟩ := List.head?_eq_some_iff.mp slash
      exact notEnd behind star rfl
  | case4 rest induction =>
      have settled : scan.previous ≠ '/' := fun slash => (apart slash).1 rfl
      obtain ⟨further, opened⟩ := @run_openComment scan column rest comment noString settled
      rw [opened]
      exact induction unquoted rfl noString fun star => absurd star (show ¬ ' ' = '*' by decide)
  | case5 rest =>
      have settled : scan.previous ≠ '/' := fun slash => (apart slash).1 rfl
      rw [run_lineComment comment noString settled]
      exact ⟨comment, noString⟩
  | case6 c rest notBlock notLine induction =>
      rw [List.mem_cons, not_or] at unquoted
      have single : scan.inString = false → scan.previous = '/' → c ≠ '/' ∧ c ≠ '*' := by
        intro _ slash
        obtain ⟨noSlash, noStar⟩ := apart slash
        exact ⟨fun same => noSlash (congrArg some same), fun same => noStar (congrArg some same)⟩
      obtain ⟨sameComment, sameString, last⟩ := @code_keeps scan column c rest (Ne.symm unquoted.1)
      rw [run_code comment single]
      refine induction unquoted.2 (sameComment.trans comment) (sameString.trans noString) ?_
      rw [last]
      rintro rfl
      constructor
      · intro slash
        obtain ⟨behind, rfl⟩ := List.head?_eq_some_iff.mp slash
        exact notLine behind rfl rfl
      · intro star
        obtain ⟨behind, rfl⟩ := List.head?_eq_some_iff.mp star
        exact notBlock behind rfl rfl

/-- A line without strings leaves the classifier inside a comment where its code ends. -/
theorem line_strip (inComment : Bool) (depth : Nat) (text : List Char)
    (unquoted : '"' ∉ (strip inComment text).1) :
    ((start inComment false depth).line column text).inComment = (strip inComment text).2 ∧
      ((start inComment false depth).line column text).inString = false := by
  have blank : ∀ inComment text, Apart ' ' text inComment := by
    rintro (_ | _) text same
    · cases same
    · cases same
  have whole := @run_strip (start inComment false depth) column inComment text unquoted rfl rfl
    (blank inComment text)
  unfold line
  split
  · exact whole
  · next neither =>
    obtain rfl : inComment = false := by simpa [start] using neither
    split
    · exact ⟨rfl, rfl⟩
    · next rest =>
      rw [strip] at unquoted
      exact @run_strip { start false false depth with inComment := true } (column + 2) true rest
        unquoted rfl rfl (blank true rest)
    · exact whole

end ForeignScan

/-! ## Files -/

namespace Reading

variable {reading : Reading} {context : Context} {lines front : List PhysicalLine} {text : String}

/-- Where C++ is behind one more line of a file.  Definitions are no C++, and nor is what
cannot be read. -/
def contextAfter (reading : Reading) (context : Context) : PhysicalLine → Context
  | none => context
  | some text => if reading.defines text then context else context.next (trimmed text)

def follow (reading : Reading) (context : Context) : List PhysicalLine → Context
  | [] => context
  | line :: rest => (reading.step line).follow (reading.contextAfter context line) rest

def contextBehind (lines : List PhysicalLine) : Context := start.follow ⟨false, false⟩ lines

theorem contextBehind_concat (front : List PhysicalLine) (last : PhysicalLine) :
    contextBehind (front ++ [last]) =
      (readLines front).contextAfter (contextBehind front) last := by
  have onward : ∀ (reading : Reading) (context : Context),
      reading.follow context (front ++ [last]) =
        (front.foldl step reading).contextAfter (reading.follow context front) last := by
    induction front with
    | nil => exact fun _ _ => rfl
    | cons line front induction => exact fun reading context => induction _ _
  exact onward start ⟨false, false⟩

/-- The lines that are added without a scan: those of directives, and those that begin like an
import. -/
def passesOver (reading : Reading) (text : String) : Bool :=
  reading.mode = .directive || (trimmed text).head? = some '#' ||
    "import".toList.isPrefixOf (trimmed text)

/-- The lines of a file that are C++ have no string literals, and no block comment begins or
ends on one that is added without a scan. -/
structure Scanned (lines : List PhysicalLine) : Prop where
  unquoted : ∀ front text, front ++ [some text] <+: lines →
    (readLines front).defines text = false → (readLines front).passesOver text = false →
      '"' ∉ (strip (contextBehind front).inComment (trimmed text)).1
  passed : ∀ front text, front ++ [some text] <+: lines →
    (readLines front).defines text = false → (readLines front).passesOver text = true →
      ((contextBehind front).next (trimmed text)).inComment = (contextBehind front).inComment

/-- The classifier is inside a comment exactly where C++ is, but for definitions. -/
structure Tracks (reading : Reading) (context : Context) : Prop where
  inString : reading.inString = false
  comment : (∀ first, reading.mode ≠ .definition first) → reading.inComment = context.inComment
  definition : ∀ first, reading.mode = .definition first → context = ⟨false, false⟩
  directive : context.inDirective = true → reading.mode = .directive
  /-- Where the classifier takes comment text for a directive, it is inside the comment. -/
  continued : reading.mode = .directive → context.inDirective = true ∨ context.inComment = true

theorem Tracks.of_outside (outside : reading.mode = .outside) (inString : reading.inString = false)
    (comment : reading.inComment = context.inComment) (code : context.inDirective = false) :
    Tracks reading context where
  inString := inString
  comment _ := comment
  definition first inside := by
    rw [outside] at inside
    cases inside
  directive begun := by
    rw [code] at begun
    cases begun
  continued directive := by
    rw [outside] at directive
    cases directive

theorem Tracks.outside (tracks : Tracks reading context) (outside : reading.mode = .outside) :
    reading.inComment = context.inComment ∧ context.inDirective = false := by
  constructor
  · refine tracks.comment fun first inside => ?_
    rw [outside] at inside
    cases inside
  · rw [← Bool.not_eq_true]
    intro begun
    cases outside.symm.trans (tracks.directive begun)

theorem Tracks.defined (tracks : Tracks reading context) (defines : reading.defines text = true) :
    Tracks (reading.step (some text)) context := by
  obtain rfl : context = ⟨false, false⟩ := by
    rcases defines_iff.mp defines with ⟨first, inside⟩ | ⟨ready, _⟩
    · exact tracks.definition first inside
    · obtain ⟨comment, code⟩ := tracks.outside ready.outside
      rw [ready.uncommented] at comment
      cases context
      cases comment
      cases code
      rfl
  have leaves := step_leaves defines
  refine ⟨leaves.inString.trans tracks.inString, fun noDefinition => ?_, fun _ _ => rfl, nofun,
    fun directive => absurd directive leaves.noDirective⟩
  cases mode : (reading.step (some text)).mode with
  | outside => exact (leaves.closed mode).1
  | directive => exact absurd mode leaves.noDirective
  | definition first => exact absurd mode (noDefinition first)

theorem Tracks.directiveLine (tracks : Tracks reading context)
    (begins : reading.mode = .directive ∨
      reading.mode = .outside ∧ (trimmed text).head? = some '#')
    (passed : (context.next (trimmed text)).inComment = context.inComment) :
    Tracks (reading.directiveLine text (trimmed text)) (context.next (trimmed text)) := by
  have noDefinition : ∀ first, reading.mode ≠ .definition first := by
    rintro first inside
    rw [inside] at begins
    rcases begins with directive | ⟨outside, _⟩
    · cases directive
    · cases outside
  have mode : (reading.directiveLine text (trimmed text)).mode =
      if continues (trimmed text) then .directive else .outside := rfl
  have comment : (reading.directiveLine text (trimmed text)).inComment =
      (context.next (trimmed text)).inComment := (tracks.comment noDefinition).trans passed.symm
  refine ⟨tracks.inString, fun _ => comment, fun first inside => ?_, fun begun => ?_,
    fun directive => ?_⟩
  · rw [mode] at inside
    split at inside <;> cases inside
  · rw [mode]
    unfold Context.next at begun
    split at begun
    · exact if_pos begun
    · cases begun
  · rw [mode] at directive
    unfold Context.next
    split
    · next proper =>
      split at directive
      · next goesOn => exact .inl goesOn
      · cases directive
    · next improper =>
      -- the line is text of a comment, and has not ended it
      refine .inr ?_
      rw [Context.next, if_neg improper] at passed
      rw [passed]
      simp only [Bool.or_eq_true, Bool.and_eq_true, Bool.not_eq_true', decide_eq_true_eq,
        not_or, not_and, Bool.not_eq_true] at improper
      rcases begins with directive | ⟨_, hash⟩
      · exact (tracks.continued directive).resolve_left (Bool.eq_false_iff.mp improper.1)
      · rw [← Bool.not_eq_false]
        exact fun outside => improper.2 outside hash

/-- A line keeps the classifier inside a comment exactly where C++ is. -/
theorem Tracks.step (tracks : Tracks reading context) (text : String)
    (unquoted : reading.defines text = false → reading.passesOver text = false →
      '"' ∉ (strip context.inComment (trimmed text)).1)
    (passed : reading.defines text = false → reading.passesOver text = true →
      (context.next (trimmed text)).inComment = context.inComment) :
    Tracks (reading.step (some text)) (reading.contextAfter context (some text)) := by
  simp only [contextAfter]
  cases defines : reading.defines text with
  | true => exact tracks.defined defines
  | false =>
      rw [if_neg Bool.false_ne_true]
      have takes := reading.step_takes (some text)
      generalize reading.step (some text) = after at takes ⊢
      cases takes with
      | directive begins =>
          refine tracks.directiveLine begins (passed defines ?_)
          rcases begins with directive | ⟨_, hash⟩
          · simp [passesOver, directive]
          · simp [passesOver, hash]
      | further inside => cases (defines_iff.mpr (.inl ⟨_, inside⟩)).symm.trans defines
      | opening ready opens => cases (defines_iff.mpr (.inr ⟨ready, opens⟩)).symm.trans defines
      | blank outside empty =>
          obtain ⟨comment, code⟩ := tracks.outside outside
          have noHash : (trimmed text).head? ≠ some '#' := by
            rw [empty]
            nofun
          rw [Context.next_code code noHash, empty]
          exact .of_outside outside tracks.inString comment rfl
      | importing outside visible noDirective noDefinition imports =>
          obtain ⟨comment, code⟩ := tracks.outside outside
          have same := passed defines (by rw [passesOver, imports, Bool.or_true])
          rw [Context.next_code code noDirective] at same ⊢
          exact .of_outside outside tracks.inString (comment.trans same.symm) rfl
      | foreign outside visible noDirective noDefinition noImport =>
          obtain ⟨comment, code⟩ := tracks.outside outside
          have scanned : reading.passesOver text = false := by
            rw [passesOver, outside, noImport]
            simp [noDirective]
          rw [Context.next_code code noDirective]
          unfold Reading.foreignLine
          rw [comment, tracks.inString]
          obtain ⟨sameComment, sameString⟩ := @ForeignScan.line_strip
            (text.toList.takeWhile isSpace).length context.inComment reading.depth (trimmed text)
            (unquoted defines scanned)
          exact .of_outside outside sameString sameComment rfl

theorem Scanned.of_prefix (scanned : Scanned lines) (begins : front <+: lines) : Scanned front where
  unquoted before text within := scanned.unquoted before text (within.trans begins)
  passed before text within := scanned.passed before text (within.trans begins)

theorem scanned_nil : Scanned [] :=
  ⟨fun _ _ within => by simp at within, fun _ _ within => by simp at within⟩

theorem Scanned.concat (scanned : Scanned front)
    (unquoted : (readLines front).defines text = false →
      (readLines front).passesOver text = false →
        '"' ∉ (strip (contextBehind front).inComment (trimmed text)).1)
    (passed : (readLines front).defines text = false →
      (readLines front).passesOver text = true →
        ((contextBehind front).next (trimmed text)).inComment = (contextBehind front).inComment) :
    Scanned (front ++ [some text]) where
  unquoted before other within := by
    rcases List.prefix_concat_iff.mp within with same | within
    · obtain ⟨rfl, last⟩ := List.append_singleton_inj.mp same
      obtain rfl := Option.some.inj last
      exact unquoted
    · exact scanned.unquoted before other within
  passed before other within := by
    rcases List.prefix_concat_iff.mp within with same | within
    · obtain ⟨rfl, last⟩ := List.append_singleton_inj.mp same
      obtain rfl := Option.some.inj last
      exact passed
    · exact scanned.passed before other within

theorem readLines_tracks (scanned : Scanned lines) :
    Tracks (readLines lines) (contextBehind lines) := by
  induction lines using List.reverseRecOn with
  | nil => exact .of_outside rfl rfl rfl rfl
  | append_singleton front last induction =>
      have tracks := induction (scanned.of_prefix (List.prefix_append front [last]))
      rw [readLines_concat, contextBehind_concat]
      cases last with
      | none => exact ⟨tracks.inString, tracks.comment, tracks.definition, tracks.directive,
          tracks.continued⟩
      | some text =>
          have within := List.prefix_refl (front ++ [some text])
          exact tracks.step text (scanned.unquoted front text within)
            (scanned.passed front text within)

/-! ## Lines of definitions -/

variable {line : Line} {added before : List Line}

/-- Nothing in front of a line of a definition is claimed from behind it. -/
theorem claim_behind (defined : line.kind = .cpps) (added before : List Line) :
    ∃ claimed, Source.claim (added ++ line :: before) = claimed ++ line :: before ∧
      claimed.length = added.length := by
  induction added with
  | nil =>
      refine ⟨[], ?_, rfl⟩
      rw [List.nil_append, Source.claim, defined]
      exact if_neg Bool.false_ne_true
  | cons other added induction =>
      obtain ⟨claimed, claims, count⟩ := induction
      rw [List.cons_append, Source.claim]
      split
      · exact ⟨_ :: claimed, congrArg (_ :: ·) claims, congrArg (· + 1) count⟩
      · exact ⟨other :: added, rfl, rfl⟩

theorem step_keeps (defined : line.kind = .cpps)
    (split : reading.source.latestFirst = added ++ line :: before) (physical : PhysicalLine) :
    ∃ more, (reading.step physical).source.latestFirst = more ++ line :: before ∧
      more.length = added.length + 1 := by
  have adds := reading.step_addsLine physical
  generalize (reading.step physical).source.latestFirst = after at adds ⊢
  rw [split] at adds
  cases adds with
  | plain kind => exact ⟨_ :: added, rfl, rfl⟩
  | claiming =>
      obtain ⟨claimed, claims, count⟩ := claim_behind defined added before
      exact ⟨_ :: claimed, congrArg (_ :: ·) claims, congrArg (· + 1) count⟩

theorem readLines_keeps (defined : line.kind = .cpps) (behind : List PhysicalLine)
    (split : (readLines front).source.latestFirst = line :: before) :
    ∃ more, (readLines (front ++ behind)).source.latestFirst = more ++ line :: before ∧
      more.length = behind.length := by
  induction behind using List.reverseRecOn with
  | nil =>
      rw [List.append_nil]
      exact ⟨[], split, rfl⟩
  | append_singleton behind last induction =>
      obtain ⟨added, latest, count⟩ := induction
      rw [← List.append_assoc, readLines_concat]
      obtain ⟨more, latest, longer⟩ := step_keeps defined latest last
      exact ⟨more, latest, by rw [longer, count, List.length_append, List.length_singleton]⟩

theorem readLines_opens (ready : Ready (readLines front))
    (opens : opensDefinition (trimmed text) = true) (within : front ++ [some text] <+: lines) :
    (readLines lines).source.lines[front.length]? = some ⟨text, .cpps⟩ := by
  obtain ⟨behind, rfl⟩ := within
  have latest : (readLines (front ++ [some text])).source.latestFirst =
      ⟨text, .cpps⟩ :: Source.claim (readLines front).source.latestFirst := by
    rw [readLines_concat, step_opens ready opens]
    rfl
  obtain ⟨more, split, -⟩ := readLines_keeps rfl behind latest
  have place : front.length =
      (Source.claim (readLines front).source.latestFirst).reverse.length := by
    rw [List.length_reverse, Source.length_claim]
    exact (readLines_lineCount front).symm
  rw [Source.lines, split, List.reverse_append, List.reverse_cons, List.append_assoc, place,
    List.getElem?_append_right (Nat.le_refl _), Nat.sub_self]
  rfl

end Reading

open Reading

/-- In a file without string literals the classifier is inside a comment behind every line
outside of definitions exactly if C++ is, as long as no comment begins or ends on a line that
is taken for a directive or an import.  So a definition that follows a closed comment outside
of braces is found. -/
theorem comments_followed {lines : List PhysicalLine} (scanned : Scanned lines) :
    (∀ front, front <+: lines → (∀ first, (readLines front).mode ≠ .definition first) →
      (readLines front).inComment = (contextBehind front).inComment) ∧
    ∀ front text, front ++ [some text] <+: lines →
      (∀ first, (readLines front).mode ≠ .definition first) → (readLines front).depth = 0 →
        contextBehind front = ⟨false, false⟩ → opensDefinition (trimmed text) = true →
          (readLines lines).source.lines[front.length]? = some ⟨text, .cpps⟩ := by
  refine ⟨fun front begins noDefinition => ?_,
    fun front text within noDefinition shallow context opens => ?_⟩
  · exact (readLines_tracks (scanned.of_prefix begins)).comment noDefinition
  · have begins : front <+: lines := (List.prefix_append front [some text]).trans within
    have tracks := readLines_tracks (scanned.of_prefix begins)
    refine readLines_opens ⟨?_, ?_, shallow⟩ opens within
    · cases mode : (readLines front).mode with
      | outside => rfl
      | directive =>
          rcases tracks.continued mode with begun | inside
          · rw [context] at begun
            cases begun
          · rw [context] at inside
            cases inside
      | definition first => exact absurd mode (noDefinition first)
    · rw [tracks.comment noDefinition, context]

/-- A comment over lines that begin like a directive and an import, and a definition. -/
def coveringComment : List PhysicalLine := [
  some "#include \"a.h\" // /*", some "int a; /* b // \"", some "  # c \\", some "import d;",
  some "/**/ int e;", some "f: () = \x7b /*", some "*/ \x7d"]

theorem coveringComment_followed : Scanned coveringComment ∧
    (∀ count ≤ 5, (readLines (coveringComment.take count)).inComment =
      (contextBehind (coveringComment.take count)).inComment) ∧
    (readLines (coveringComment.take 4)).inComment = true ∧
    (readLines coveringComment).source.lines[5]? = some ⟨"f: () = \x7b /*", .cpps⟩ := by
  have scanned : Scanned coveringComment := by
    refine @Scanned.concat (coveringComment.take 6) "*/ \x7d" ?_ (by decide +kernel)
      (by decide +kernel)
    refine @Scanned.concat (coveringComment.take 5) "f: () = \x7b /*" ?_ (by decide +kernel)
      (by decide +kernel)
    refine @Scanned.concat (coveringComment.take 4) "/**/ int e;" ?_ (by decide +kernel)
      (by decide +kernel)
    refine @Scanned.concat (coveringComment.take 3) "import d;" ?_ (by decide +kernel)
      (by decide +kernel)
    refine @Scanned.concat (coveringComment.take 2) "  # c \\" ?_ (by decide +kernel)
      (by decide +kernel)
    refine @Scanned.concat (coveringComment.take 1) "int a; /* b // \"" ?_ (by decide +kernel)
      (by decide +kernel)
    exact @Scanned.concat [] "#include \"a.h\" // /*" scanned_nil (by decide +kernel)
      (by decide +kernel)
  have outside : ∀ count ≤ 5, ∀ first,
      (readLines (coveringComment.take count)).mode ≠ .definition first := by
    have modes : ∀ count ≤ 5, (readLines (coveringComment.take count)).mode = .outside ∨
        (readLines (coveringComment.take count)).mode = .directive := by decide +kernel
    intro count small first inside
    rcases modes count small with outside | directive
    · cases inside.symm.trans outside
    · cases inside.symm.trans directive
  obtain ⟨comments, definitions⟩ := comments_followed scanned
  refine ⟨scanned, fun count small => ?_, by decide +kernel, ?_⟩
  · exact comments _ (List.take_prefix count coveringComment) (outside count small)
  · exact definitions (coveringComment.take 5) _ ⟨[some "*/ \x7d"], rfl⟩
      (outside 5 (Nat.le_refl 5)) (by decide +kernel) (by decide +kernel) (by decide +kernel)

def importedComment : List PhysicalLine :=
  [some "import a; /* b", some "x: int;", some "c */"]

/-- The classifier does not see the comment, and takes its text for a definition and for code. -/
theorem importedComment_missed :
    (∀ text ∈ importedComment.map (Option.getD · ""),
      '"' ∉ text.toList ∧ '\'' ∉ text.toList) ∧
    (contextBehind (importedComment.take 1)).inComment = true ∧
    (readLines (importedComment.take 1)).inComment = false ∧
    (readLines (importedComment.take 1)).mode = .outside ∧
    (readLines importedComment).source.lines.map Line.kind = [.importing, .cpps, .cpp] := by
  refine ⟨?_, ?_, ?_, ?_, ?_⟩ <;> decide +kernel

end CppsFrontend
