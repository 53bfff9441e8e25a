import CppsFrontend.Lexical.Lexing
import CppsFrontend.Output.Generated
import CppsFrontend.Proofs.Lexical.Shapes
import CppsFrontend.Proofs.Output.Layout

/-!
# Line numbers of generated output

A compiler numbers the lines of generated output from one on, and a line directive gives the
number of the line behind it.  With directives every line that is passed through keeps the
number that it has in its source; there is one directive for every run of definition lines
that other lines follow.
-/

set_option autoImplicit false

namespace CppsFrontend

open Text

/-! ## How a compiler reads lines -/

/-- The stretches of a text that line feeds end; the last one may be without. -/
def stretches : List Char → List (List Char)
  | [] => []
  | c :: rest =>
      if c = '\n' then [] :: stretches rest
      else
        match stretches rest with
        | [] => [[c]]
        | line :: lines => (c :: line) :: lines

def linesOf (text : String) : List String := (stretches text.toList).map String.ofList

/-- The number that a line directive gives to the next line; none if a line is no line
directive. -/
def lineDirective? (line : String) : Option Nat :=
  match line.toList.dropWhile isSpace with
  | '#' :: directive =>
      match directive.dropWhile isSpace with
      | 'l' :: 'i' :: 'n' :: 'e' :: argument =>
          if argument.head?.any isWordPart then none
          else some (Nat.ofDigitChars 10 ((argument.dropWhile isSpace).takeWhile Char.isDigit) 0)
      | _ => none
  | _ => none

/-- Lines with their numbers, if the first one has a number.  Directives have none. -/
def numbered (number : Nat) : List String → List (Nat × String)
  | [] => []
  | line :: rest =>
      match lineDirective? line with
      | some next => numbered next rest
      | none => (number, line) :: numbered (number + 1) rest

/-! ## Lines of a source -/

def passedFrom (index : Nat) : List Line → List (Nat × String)
  | [] => []
  | line :: rest =>
      if line.kind = .cpps then passedFrom (index + 1) rest
      else (index, line.text) :: passedFrom (index + 1) rest

def isCpps (lines : List Line) (index : Nat) : Bool := lines[index]?.any (·.kind = .cpps)

/-- The lines `first`, ..., `last` are of the language and those next to them are not. -/
structure IsRun (lines : List Line) (first last : Nat) : Prop where
  ordered : first ≤ last
  inside : ∀ index, first ≤ index → index ≤ last → isCpps lines index = true
  before : ∀ index, index + 1 = first → isCpps lines index = false
  behind : isCpps lines (last + 1) = false

/-! ## Directives -/

theorem lineDirective?_written (number : Nat) :
    lineDirective? ("#line " ++ toString number) = some number := by
  have digits : ∀ c ∈ Nat.toDigits 10 number, c.isDigit = true :=
    fun c member => Nat.isDigit_of_mem_toDigits (by decide) (by decide) member
  have text : ("#line " ++ toString number).toList =
      '#' :: 'l' :: 'i' :: 'n' :: 'e' :: ' ' :: Nat.toDigits 10 number := by
    rw [String.toList_append, Nat.toString_eq_repr, Nat.toList_repr]
    rfl
  have start : (' ' :: Nat.toDigits 10 number).dropWhile isSpace = Nat.toDigits 10 number := by
    rw [List.dropWhile_cons_of_pos (by decide)]
    cases shape : Nat.toDigits 10 number with
    | nil => rfl
    | cons c rest =>
        rw [shape] at digits
        have visible := Lexical.isDigit_visible (digits c List.mem_cons_self)
        exact List.dropWhile_cons_of_neg (by rw [visible]; exact Bool.false_ne_true)
  have all : (Nat.toDigits 10 number).takeWhile Char.isDigit = Nat.toDigits 10 number := by
    have whole := @List.takeWhile_append_of_pos _ _ _ [] digits
    rwa [List.takeWhile_nil, List.append_nil] at whole
  have value : some (Nat.ofDigitChars 10
      (((' ' :: Nat.toDigits 10 number).dropWhile isSpace).takeWhile Char.isDigit) 0) =
        some number := by
    rw [start, all, Nat.ofDigitChars_ten_toDigits]
  unfold lineDirective?
  rw [text]
  exact value

theorem lineDirective_unbroken (number : Nat) : '\n' ∉ ("#line " ++ toString number).toList := by
  rw [String.toList_append, Nat.toString_eq_repr, Nat.toList_repr, List.mem_append]
  rintro (inside | inside)
  · revert inside
    decide
  · exact absurd (Nat.isDigit_of_mem_toDigits (by decide) (by decide) inside) (by decide)

/-! ## Lines of a text -/

theorem stretches_line {line : List Char} (unbroken : '\n' ∉ line) (rest : List Char) :
    stretches (line ++ '\n' :: rest) = line :: stretches rest := by
  induction line with
  | nil => rfl
  | cons c line induction =>
      rw [List.mem_cons, not_or] at unbroken
      rw [List.cons_append, stretches, if_neg (Ne.symm unbroken.1), induction unbroken.2]

theorem linesOf_joined (lines : List String) (unbroken : ∀ line ∈ lines, '\n' ∉ line.toList) :
    linesOf (joined lines) = lines := by
  induction lines with
  | nil => rfl
  | cons line lines induction =>
      obtain ⟨first, rest⟩ := List.forall_mem_cons.mp unbroken
      have text : (joined (line :: lines)).toList =
          line.toList ++ '\n' :: (joined lines).toList := by
        rw [joined, List.map_cons, String.join_cons, String.toList_append, String.toList_append,
          List.append_assoc]
        rfl
      rw [linesOf, text, stretches_line first, List.map_cons, String.ofList_toList]
      exact congrArg (line :: ·) (induction rest)

/-! ## Numbers -/

theorem layout_plain (expected index : Nat) (lines : List Line) :
    layout false expected index lines = (passedFrom index lines).map Prod.snd := by
  induction lines generalizing expected index with
  | nil => rfl
  | cons line rest induction =>
      rw [layout, passedFrom]
      split
      · exact induction expected (index + 1)
      · rw [marked, Bool.false_and, if_neg Bool.false_ne_true, induction]
        rfl

def Undirected (lines : List Line) : Prop :=
  ∀ line ∈ lines, line.kind ≠ .cpps → lineDirective? line.text = none

def Unbroken (lines : List Line) : Prop :=
  ∀ line ∈ lines, line.kind ≠ .cpps → '\n' ∉ line.text.toList

theorem layout_unbroken {lines : List Line} (unbroken : Unbroken lines) (directives : Bool)
    (expected index : Nat) :
    ∀ line ∈ layout directives expected index lines, '\n' ∉ line.toList := by
  induction lines generalizing expected index with
  | nil => exact nofun
  | cons line rest induction =>
      obtain ⟨first, others⟩ := List.forall_mem_cons.mp unbroken
      rw [layout]
      split
      · exact induction others expected (index + 1)
      · rename_i passed
        refine List.forall_mem_append.mpr ⟨?_, induction others _ _⟩
        rw [marked]
        split
        · exact List.forall_mem_cons.mpr ⟨lineDirective_unbroken _,
            List.forall_mem_singleton.mpr (first passed)⟩
        · exact List.forall_mem_singleton.mpr (first passed)

theorem numbered_directive (number next : Nat) (rest : List String) :
    numbered number (("#line " ++ toString next) :: rest) = numbered next rest := by
  rw [numbered, lineDirective?_written]

theorem numbered_line {line : String} (noDirective : lineDirective? line = none) (number : Nat)
    (rest : List String) :
    numbered number (line :: rest) = (number, line) :: numbered (number + 1) rest := by
  rw [numbered, noDirective]

/-- Where a reader counts on, lines keep their numbers. -/
theorem numbered_layout {lines : List Line} (undirected : Undirected lines)
    (expected index : Nat) :
    numbered (expected + 1) (layout true expected index lines) =
      (passedFrom index lines).map fun passed => (passed.1 + 1, passed.2) := by
  induction lines generalizing expected index with
  | nil => rfl
  | cons line rest induction =>
      obtain ⟨first, others⟩ := List.forall_mem_cons.mp undirected
      rw [layout, passedFrom]
      split
      · exact induction others expected (index + 1)
      · rename_i passed
        have number : numbered (index + 1)
            (line.text :: layout true (index + 1) (index + 1) rest) =
              (index + 1, line.text) ::
                (passedFrom (index + 1) rest).map fun passed => (passed.1 + 1, passed.2) := by
          rw [numbered_line (first passed), induction others]
        rw [List.map_cons, ← number, marked]
        split
        · exact numbered_directive _ _ _
        · rename_i inStep
          have same : index = expected := by simpa using inStep
          rw [same]
          rfl

/-! ## Directives and runs -/

def resumes (lines : List Line) : Nat → Bool
  | 0 => false
  | last + 1 => isCpps lines last && !isCpps lines (last + 1)

theorem isCpps_middle (before rest : List Line) (line : Line) :
    isCpps (before ++ line :: rest) before.length = decide (line.kind = .cpps) := by
  rw [isCpps, List.getElem?_append_right (Nat.le_refl _), Nat.sub_self]
  rfl

theorem filterMap_marked {text : String} (noDirective : lineDirective? text = none)
    (expected index : Nat) :
    (marked true expected index text).filterMap lineDirective? =
      if index ≠ expected then [index + 1] else [] := by
  rw [marked, Bool.true_and]
  by_cases inStep : index = expected
  · rw [inStep, if_neg (by simp), if_neg (by simp), List.filterMap_cons_none noDirective]
    rfl
  · rw [if_pos (by simpa using inStep), if_pos inStep,
      List.filterMap_cons_some (lineDirective?_written _), List.filterMap_cons_none noDirective]
    rfl

/-- A reader is out of step exactly behind a line of a definition. -/
structure Follows (before : List Line) (expected : Nat) : Prop where
  reached : expected ≤ before.length
  outOfStep : ∀ last, before.length = last + 1 →
    (isCpps before last = true ↔ expected ≠ before.length)

theorem isCpps_append {before : List Line} {index : Nat} (inside : index < before.length)
    (rest : List Line) : isCpps (before ++ rest) index = isCpps before index := by
  rw [isCpps, isCpps, List.getElem?_append_left inside]

theorem Follows.skip {before : List Line} {expected : Nat} (follows : Follows before expected)
    {line : Line} (kind : line.kind = .cpps) : Follows (before ++ [line]) expected := by
  have reached := follows.reached
  refine ⟨by rw [List.length_append]; exact Nat.le_add_right_of_le reached, ?_⟩
  intro last length
  rw [List.length_append, List.length_singleton] at length ⊢
  obtain rfl : before.length = last := Nat.succ.inj length
  rw [isCpps_middle, decide_eq_true_eq]
  exact ⟨fun _ => by omega, fun _ => kind⟩

theorem Follows.pass (before : List Line) {line : Line} (kind : line.kind ≠ .cpps) :
    Follows (before ++ [line]) (before.length + 1) := by
  refine ⟨by rw [List.length_append]; exact Nat.le_refl _, ?_⟩
  intro last length
  rw [List.length_append, List.length_singleton] at length ⊢
  obtain rfl : before.length = last := Nat.succ.inj length
  rw [isCpps_middle, decide_eq_true_eq]
  exact ⟨fun same => absurd same kind, fun different => absurd rfl different⟩

theorem resumes_middle {before rest : List Line} {line : Line} {expected : Nat}
    (follows : Follows before expected) :
    resumes (before ++ line :: rest) before.length =
      (!decide (line.kind = .cpps) && decide (before.length ≠ expected)) := by
  obtain ⟨reached, outOfStep⟩ := follows
  cases length : before.length with
  | zero =>
      have atStart : expected = 0 := by omega
      simp [resumes, atStart]
  | succ last =>
      have here := isCpps_middle before rest line
      have there := isCpps_append (show last < before.length by omega) (line :: rest)
      have step := outOfStep last length
      rw [length] at here step
      rw [resumes, here, there, Bool.and_comm]
      congr 1
      rw [Bool.eq_iff_iff, step, decide_eq_true_eq]
      exact ⟨Ne.symm, Ne.symm⟩

/-- Directives are written exactly where lines are passed through behind definitions. -/
theorem directives_layout {before rest : List Line} (undirected : Undirected rest)
    {expected : Nat} (follows : Follows before expected) :
    (layout true expected before.length rest).filterMap lineDirective? =
      ((List.range' before.length rest.length).filter (resumes (before ++ rest))).map
        (· + 1) := by
  induction rest generalizing before expected with
  | nil => rfl
  | cons line rest induction =>
      obtain ⟨first, others⟩ := List.forall_mem_cons.mp undirected
      have resumed := @resumes_middle before rest line _ follows
      have length : (before ++ [line]).length = before.length + 1 := by
        rw [List.length_append, List.length_singleton]
      have whole : before ++ [line] ++ rest = before ++ line :: rest := by
        rw [List.append_assoc, List.singleton_append]
      rw [layout, List.length_cons, List.range'_succ, List.filter_cons, resumed]
      by_cases kind : line.kind = .cpps
      · have later := induction others (follows.skip kind)
        rw [length, whole] at later
        rw [if_pos kind, later]
        simp [kind]
      · have later := induction others (.pass before kind)
        rw [length, whole] at later
        rw [if_neg kind, List.filterMap_append, filterMap_marked (first kind), later]
        by_cases inStep : before.length = expected
        · simp [kind, inStep]
        · simp [kind, inStep]

theorem exists_run {lines : List Line} {last : Nat} (here : isCpps lines last = true)
    (behind : isCpps lines (last + 1) = false) : ∃ first, IsRun lines first last := by
  have start : ∃ first ≤ last, (∀ index, first ≤ index → index ≤ last →
      isCpps lines index = true) ∧ ∀ index, index + 1 = first → isCpps lines index = false := by
    clear behind
    induction last with
    | zero =>
        refine ⟨0, Nat.le_refl 0, fun index _ high => ?_, nofun⟩
        rwa [Nat.le_zero.mp high]
    | succ last induction =>
        cases earlier : isCpps lines last with
        | true =>
            obtain ⟨first, ordered, inside, before⟩ := induction earlier
            refine ⟨first, Nat.le_succ_of_le ordered, fun index low high => ?_, before⟩
            rcases Nat.le_succ_iff.mp high with high | rfl
            · exact inside index low high
            · exact here
        | false =>
            refine ⟨last + 1, Nat.le_refl _, fun index low high => ?_, fun index next => ?_⟩
            · rwa [Nat.le_antisymm high low]
            · rwa [Nat.succ.inj next]
  obtain ⟨first, ordered, inside, before⟩ := start
  exact ⟨first, ordered, inside, before, behind⟩

theorem resumes_iff (lines : List Line) (index : Nat) :
    resumes lines index = true ↔ ∃ first last, IsRun lines first last ∧ index = last + 1 := by
  cases index with
  | zero =>
      constructor
      · nofun
      · rintro ⟨_, _, _, next⟩
        cases next
  | succ last =>
      rw [resumes, Bool.and_eq_true, Bool.not_eq_true']
      constructor
      · rintro ⟨here, behind⟩
        obtain ⟨first, run⟩ := exists_run here behind
        exact ⟨first, last, run, rfl⟩
      · rintro ⟨first, _, run, same⟩
        cases same
        exact ⟨run.inside last run.ordered (Nat.le_refl last), run.behind⟩

/-! ## The whole output -/

def Source.passed (source : Source) : List (Nat × String) := passedFrom 0 source.lines

/-- Lines that are generated from a source on a sink without a limit. -/
structure Generates (directives : Bool) (source : Source) (stream : TokenStream)
    (declarations : List Declaration) (output : List String) : Prop where
  whole : (generate directives source stream declarations (.start (.empty none))).error = none
  text : (generate directives source stream declarations
    (.start (.empty none))).printer.sink.text = joined output

/-- Output in which a compiler finds the lines of a source that are passed through, each once
and unchanged, in their order and with the numbers that they have in the source. -/
structure KeepsNumbers (source : Source) (output : List String) : Prop where
  /-- The lines are those that a compiler reads. -/
  read : Unbroken source.lines → linesOf (joined output) = output
  numbers : numbered 1 output = source.passed.map fun line => (line.1 + 1, line.2)
  increasing : (output.filterMap lineDirective?).Pairwise (· < ·)
  /-- One directive for each run that a line follows, with the number of that line. -/
  runs : ∀ number, number ∈ output.filterMap lineDirective? ↔ ∃ first last,
    IsRun source.lines first last ∧ last + 1 < source.lines.length ∧ number = last + 2

theorem generate_generates (directives : Bool) (source : Source) (stream : TokenStream)
    (declarations : List Declaration) :
    Generates directives source stream declarations (layout directives 0 0 source.lines) := by
  obtain ⟨after, error, passed, ends⟩ :=
    (Printer.Took.start none).passLines directives 0 source.lines
  cases ends with
  | whole took =>
      refine ⟨?_, ?_⟩
      · simp only [generate, passed]
      · simp only [generate, passed]
        exact took.offered.holds.text_eq
  | cut split offered fits exceeds counted => exact absurd nofun exceeds

theorem layout_keepsNumbers {source : Source} (undirected : Undirected source.lines) :
    KeepsNumbers source (layout true 0 0 source.lines) := by
  have start : Follows [] 0 := ⟨Nat.le_refl 0, nofun⟩
  have directives := directives_layout undirected start
  rw [List.nil_append, List.length_nil] at directives
  refine ⟨?_, numbered_layout undirected 0 0, ?_, ?_⟩
  · exact fun unbroken => linesOf_joined _ (layout_unbroken unbroken true 0 0)
  · rw [directives, List.pairwise_map]
    exact ((List.pairwise_lt_range' 1).filter _).imp Nat.succ_lt_succ
  · intro number
    rw [directives, List.mem_map]
    simp only [List.mem_filter, List.mem_range'_1, resumes_iff]
    constructor
    · rintro ⟨_, ⟨⟨_, within⟩, first, last, run, rfl⟩, rfl⟩
      exact ⟨first, last, run, by omega, rfl⟩
    · rintro ⟨first, last, run, within, rfl⟩
      exact ⟨last + 1, ⟨⟨Nat.zero_le _, by omega⟩, first, last, run, rfl⟩, rfl⟩

/-- With directives the lines that are passed through keep their numbers, and without
directives they are all of the output. -/
theorem generate_keepsNumbers (source : Source) (stream : TokenStream)
    (declarations : List Declaration) (undirected : Undirected source.lines) :
    (∃ output, Generates true source stream declarations output ∧ KeepsNumbers source output) ∧
      Generates false source stream declarations (source.passed.map Prod.snd) := by
  refine ⟨⟨layout true 0 0 source.lines, ?_, layout_keepsNumbers undirected⟩, ?_⟩
  · exact generate_generates true source stream declarations
  · have plain := generate_generates false source stream declarations
    rwa [layout_plain] at plain

/-- Definitions at the beginning and at the end, one directly behind another, and one behind a
line that only looks like a directive. -/
def mixedSource : Source :=
  .ofLines [⟨"a: int = 1;", .cpps⟩, ⟨"#lines 7", .preprocessor⟩, ⟨"", .blank⟩,
    ⟨"b: () = \x7b", .cpps⟩, ⟨"\x7d", .cpps⟩, ⟨"c: int;", .cpps⟩, ⟨"int d;", .cpp⟩,
    ⟨"e: int;", .cpps⟩]

theorem mixedSource_keepsNumbers : Undirected mixedSource.lines ∧
    (∃ output, Generates true mixedSource (lex mixedSource).stream [] output ∧
      KeepsNumbers mixedSource output) ∧
    Generates false mixedSource (lex mixedSource).stream [] (mixedSource.passed.map Prod.snd) := by
  have undirected : Undirected mixedSource.lines := by
    unfold Undirected
    decide +kernel
  exact ⟨undirected, generate_keepsNumbers mixedSource (lex mixedSource).stream [] undirected⟩

end CppsFrontend
