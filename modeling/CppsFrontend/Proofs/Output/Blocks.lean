import CppsFrontend.Proofs.Grammar.Spans
import CppsFrontend.Proofs.Output.Numbering
import CppsFrontend.Proofs.Token.Lines

/-!
# Blocks that are left out

The blocks of generated output are the runs of definition lines, in their order.  Tokens and
declarations are on lines of definitions, so each of them is in one block, and what the
blocks count adds up to all that was read.
-/

set_option autoImplicit false

namespace CppsFrontend

open Grammar

/-! ## Runs -/

section Runs

variable {lines : List Line} {first last index : Nat}

theorem IsRun.first_le (run : IsRun lines first last) {low : Nat} (reaches : first ≤ index)
    (inside : ∀ place, low ≤ place → place ≤ index → isCpps lines place = true) :
    first ≤ low := by
  by_contra beyond
  have front := run.before (first - 1) (by omega)
  rw [inside (first - 1) (by omega) (by omega)] at front
  cases front

/-- Two runs that end at the same line are the same. -/
theorem IsRun.first_eq (run : IsRun lines first last) {start : Nat}
    (other : IsRun lines start last) : first = start :=
  Nat.le_antisymm (run.first_le run.ordered other.inside)
    (other.first_le other.ordered run.inside)

/-- Every line of a definition is in a run. -/
theorem exists_run_through (here : isCpps lines index = true) :
    ∃ first last, IsRun lines first last ∧ first ≤ index ∧ index ≤ last := by
  have past : ∃ place, index ≤ place ∧ isCpps lines place = false := by
    refine ⟨max index lines.length, Nat.le_max_left _ _, ?_⟩
    rw [isCpps, List.getElem?_eq_none (Nat.le_max_right _ _)]
    rfl
  have cpps : ∀ place, index ≤ place → place < Nat.find past → isCpps lines place = true := by
    intro place behind below
    have minimal := Nat.find_min past below
    rw [not_and, Bool.not_eq_false] at minimal
    exact minimal behind
  obtain ⟨from_index, outside⟩ := Nat.find_spec past
  obtain ⟨last, stop⟩ : ∃ last, Nat.find past = last + 1 := by
    refine Nat.exists_eq_add_one_of_ne_zero fun zero => ?_
    obtain rfl : index = 0 := by omega
    rw [zero, here] at outside
    cases outside
  have reaches : index ≤ last := by
    have different : Nat.find past ≠ index := by
      intro same
      rw [same, here] at outside
      cases outside
    omega
  have final := cpps last reaches (by omega)
  rw [stop] at outside
  obtain ⟨first, run⟩ := exists_run final outside
  refine ⟨first, last, run, ?_, reaches⟩
  exact run.first_le run.ordered fun place behind within => cpps place behind (by omega)

end Runs

/-! ## The walk over the lines -/

/-- A walk over lines has come to an index; the run that reaches up to there began at `first`,
if there is one. -/
structure Reached (lines : List Line) (index : Nat) (first : Option Nat) : Prop where
  opened : ∀ start ∈ first, start < index
  inside : ∀ place, first.getD index ≤ place → place < index → isCpps lines place = true
  before : ∀ place, place + 1 = first.getD index → isCpps lines place = false

/-- Bounds of the runs that end at or behind the line before an index. -/
structure BoundsRuns (lines : List Line) (index : Nat) (bounds : List (Nat × Nat)) : Prop where
  runs : ∀ first last, (first, last) ∈ bounds ↔ IsRun lines first last ∧ index ≤ last + 1
  apart : bounds.Pairwise fun earlier later => earlier.2 + 1 < later.1

section Walk

variable {lines rest : List Line} {index : Nat} {first : Option Nat}
variable {bounds : List (Nat × Nat)}

theorem Reached.start (lines : List Line) : Reached lines 0 none :=
  ⟨nofun, fun _ _ => nofun, fun _ => nofun⟩

theorem Reached.more (reached : Reached lines index first) (here : isCpps lines index = true) :
    Reached lines (index + 1) (some (first.getD index)) := by
  have start : first.getD index ≤ index := by
    cases first with
    | none => exact Nat.le_refl index
    | some start => exact Nat.le_of_lt (reached.opened start rfl)
  refine ⟨?_, ?_, reached.before⟩
  · rintro _ ⟨rfl⟩
    exact Nat.lt_succ_of_le start
  · intro place behind within
    rcases Nat.lt_succ_iff_lt_or_eq.mp within with within | rfl
    · exact reached.inside place behind within
    · exact here

theorem Reached.outside (here : isCpps lines index = false) : Reached lines (index + 1) none := by
  refine ⟨nofun, fun place behind within => absurd within (Nat.not_lt.mpr behind), ?_⟩
  intro place same
  cases same
  exact here

/-- The run that a walk has come through ends in front of a line of another kind. -/
theorem Reached.run {start last : Nat} (reached : Reached lines (last + 1) (some start))
    (here : isCpps lines (last + 1) = false) : IsRun lines start last where
  ordered := Nat.le_of_lt_succ (reached.opened start rfl)
  inside place behind within := reached.inside place behind (Nat.lt_succ_of_le within)
  before := reached.before
  behind := here

/-- No run ends directly before an index: bounds from the next line on are those from there. -/
theorem BoundsRuns.skip (behind : BoundsRuns lines (index + 1) bounds)
    (none : ∀ first last, IsRun lines first last → last + 1 ≠ index) :
    BoundsRuns lines index bounds := by
  refine ⟨fun first last => ?_, behind.apart⟩
  rw [behind.runs]
  refine and_congr_right fun run => ?_
  have different := none first last run
  omega

theorem BoundsRuns.cons {start last : Nat} (run : IsRun lines start last)
    (behind : BoundsRuns lines (last + 2) bounds) :
    BoundsRuns lines (last + 1) ((start, last) :: bounds) := by
  refine ⟨fun first stop => ?_, List.pairwise_cons.mpr ⟨?_, behind.apart⟩⟩
  · rw [List.mem_cons, Prod.mk.injEq, behind.runs]
    constructor
    · rintro (⟨rfl, rfl⟩ | ⟨other, later⟩)
      · exact ⟨run, Nat.le_refl _⟩
      · exact ⟨other, Nat.le_of_succ_le later⟩
    · rintro ⟨other, later⟩
      rcases Nat.eq_or_lt_of_le later with same | later
      · obtain rfl : last = stop := Nat.succ.inj same
        exact .inl ⟨other.first_eq run, rfl⟩
      · exact .inr ⟨other, later⟩
  · -- A later run does not hold the line behind the first one.
    rintro ⟨first, stop⟩ member
    obtain ⟨other, later⟩ := (behind.runs first stop).mp member
    by_contra touching
    have within := other.inside (last + 1) (by omega) (by omega)
    rw [run.behind] at within
    cases within

/-- In front of a line of another kind the run that a walk has come through is complete. -/
theorem Reached.flush (reached : Reached lines index first) (here : isCpps lines index = false)
    (behind : BoundsRuns lines (index + 1) bounds) :
    BoundsRuns lines index ((first.map (·, index - 1)).toList ++ bounds) := by
  cases first with
  | none =>
      refine behind.skip fun first last run same => ?_
      have outside := reached.before last same
      rw [run.inside last run.ordered (Nat.le_refl last)] at outside
      cases outside
  | some start =>
      obtain ⟨last, rfl⟩ : ∃ last, index = last + 1 :=
        Nat.exists_eq_add_one_of_ne_zero (Nat.ne_zero_of_lt (reached.opened start rfl))
      exact .cons (reached.run here) behind

theorem isCpps_past (past : lines.length ≤ index) : isCpps lines index = false := by
  rw [isCpps, List.getElem?_eq_none past]
  rfl

/-- The walk over the lines from an index on finds the runs that end from there on. -/
theorem bounds_boundsRuns (reached : Reached lines index first) (left : lines.drop index = rest) :
    BoundsRuns lines index (Block.bounds index first rest) := by
  induction rest generalizing index first with
  | nil =>
      have past : lines.length ≤ index := List.drop_eq_nil_iff.mp left
      have nothing : BoundsRuns lines (index + 1) [] := by
        refine ⟨fun first last => iff_of_false List.not_mem_nil ?_, .nil⟩
        rintro ⟨run, behind⟩
        have within := run.inside last run.ordered (Nat.le_refl last)
        rw [isCpps_past (by omega)] at within
        cases within
      have flushed := reached.flush (isCpps_past past) nothing
      cases first <;> exact flushed
  | cons line rest induction =>
      have stored : lines[index]? = some line := by
        rw [← Nat.add_zero index, ← List.getElem?_drop, left, List.getElem?_cons_zero]
      have later : lines.drop (index + 1) = rest := by
        rw [← List.drop_drop, left, List.drop_succ_cons, List.drop_zero]
      have here : isCpps lines index = decide (line.kind = .cpps) := by
        rw [isCpps, stored]
        rfl
      unfold Block.bounds
      split
      · rename_i kind
        rw [decide_eq_true kind] at here
        refine (induction (reached.more here) later).skip fun first last run same => ?_
        subst same
        rw [run.behind] at here
        cases here
      · rename_i kind
        rw [decide_eq_false kind] at here
        have flushed := reached.flush here (induction (.outside here) later)
        cases first <;> exact flushed

end Walk

/-! ## Counts -/

section Counts

variable {α β : Type}

theorem countP_or {items : List α} {p q : α → Bool}
    (apart : ∀ item ∈ items, ¬ (p item = true ∧ q item = true)) :
    items.countP (fun item => p item || q item) = items.countP p + items.countP q := by
  induction items with
  | nil => rfl
  | cons item items induction =>
      obtain ⟨here, others⟩ := List.forall_mem_cons.mp apart
      simp only [List.countP_cons, induction others]
      cases first : p item <;> cases second : q item
      · rfl
      · simp [Nat.add_assoc]
      · simp; omega
      · exact absurd ⟨first, second⟩ here

/-- Parts that have no item in common count what is in any of them. -/
theorem sum_countP {items : List α} {parts : List β} {holds : β → α → Bool}
    (apart : parts.Pairwise fun first second => ∀ item ∈ items,
      ¬ (holds first item = true ∧ holds second item = true)) :
    (parts.map fun part => items.countP (holds part)).sum =
      items.countP fun item => parts.any (holds · item) := by
  induction parts with
  | nil => simp
  | cons part parts induction =>
      obtain ⟨here, others⟩ := List.pairwise_cons.mp apart
      rw [List.map_cons, List.sum_cons, induction others, ← countP_or]
      · simp only [List.any_cons]
      · rintro item member ⟨own, other⟩
        obtain ⟨second, among, holding⟩ := List.any_eq_true.mp other
        exact here second among item member ⟨own, holding⟩

def within (rank : α → Nat) (bounds : Nat × Nat) (item : α) : Bool :=
  bounds.1 ≤ rank item && rank item ≤ bounds.2

/-- Items that are on lines of runs are counted by the runs, each once. -/
theorem BoundsRuns.sum_within {lines : List Line} {bounds : List (Nat × Nat)} {items : List α}
    {rank : α → Nat} (found : BoundsRuns lines 0 bounds)
    (covered : ∀ item ∈ items, isCpps lines (rank item) = true) :
    (bounds.map fun bounds => items.countP (within rank bounds)).sum = items.length := by
  have apart : bounds.Pairwise fun earlier later => ∀ item ∈ items,
      ¬ (within rank earlier item = true ∧ within rank later item = true) := by
    refine found.apart.imp fun {earlier later} gap item _ => ?_
    simp only [within, Bool.and_eq_true, decide_eq_true_eq]
    omega
  rw [sum_countP apart, List.countP_eq_length]
  intro item member
  obtain ⟨first, last, run, low, high⟩ := exists_run_through (covered item member)
  refine List.any_eq_true.mpr ⟨(first, last), ?_, ?_⟩
  · exact (found.runs first last).mpr ⟨run, Nat.zero_le _⟩
  · simp [within, low, high]

end Counts

/-! ## What was read from a source -/

def Declaration.lineRank (declaration : Declaration) : Nat :=
  Location.rank declaration.first.line

theorem lex_isCpps {source : Source} (rows : source.lines.length ≤ Location.bound) :
    ∀ token ∈ (lex source).stream.tokens,
      token.location.hasLine = true ∧ isCpps source.lines (TokenStream.lineOf token) = true := by
  intro token among
  obtain ⟨index, line, row, stored, kind⟩ := lex_lines rows token among
  refine ⟨by rw [Location.hasLine, row]; rfl, ?_⟩
  rw [TokenStream.lineOf, row, Location.rank, isCpps, stored]
  exact decide_eq_true kind

/-- Lexed tokens are not refused by the tables of their stream. -/
theorem lex_holds {source : Source} (rows : source.lines.length ≤ Location.bound) :
    ∃ lineCount, (∀ token ∈ (lex source).stream.tokens.toList,
        TokenStream.lineOf token < lineCount) ∧
      (lex source).stream.tables.Holds lineCount (lex source).stream.tokens.toList := by
  have below : ∀ token ∈ (lex source).stream.tokens.toList,
      TokenStream.lineOf token < Location.bound := by
    intro token member
    obtain ⟨index, line, row, stored, -⟩ := lex_lines rows token (Array.mem_toList_iff.mp member)
    rw [TokenStream.lineOf, row]
    exact Nat.lt_of_lt_of_le (List.getElem?_eq_some_iff.mp stored).1 rows
  obtain ⟨inside, stream, made, -, holds⟩ :=
    TokenStream.ofTokens?_holds (lex_ascends source) below
  have same : (lex source).stream = stream := TokenStream.ofTokens_eq made
  rw [← same] at holds
  exact ⟨_, inside, holds⟩

theorem lex_countOn {source : Source} (rows : source.lines.length ≤ Location.bound) (line : Nat) :
    (lex source).stream.countOn line =
      (lex source).stream.tokens.toList.countP (TokenStream.lineOf · = line) := by
  obtain ⟨lineCount, inside, holds⟩ := lex_holds rows
  rw [List.countP_eq_length_filter]
  exact (TokenStream.answers_of_holds holds inside line).count

theorem lex_ofBounds_tokens {source : Source} (rows : source.lines.length ≤ Location.bound)
    (declarations : List Declaration) (bounds : Nat × Nat) :
    (Block.ofBounds (lex source).stream declarations bounds).tokens =
      (lex source).stream.tokens.toList.countP (within TokenStream.lineOf bounds) := by
  have apart : (List.range' bounds.1 (bounds.2 + 1 - bounds.1)).Pairwise fun first second =>
      ∀ token ∈ (lex source).stream.tokens.toList,
        ¬ (decide (TokenStream.lineOf token = first) = true ∧
          decide (TokenStream.lineOf token = second) = true) := by
    refine (List.pairwise_lt_range' 1).imp fun {first second} before token _ => ?_
    simp only [decide_eq_true_eq]
    omega
  have inside : ∀ token, (List.range' bounds.1 (bounds.2 + 1 - bounds.1)).any
      (fun line => decide (TokenStream.lineOf token = line)) =
        within TokenStream.lineOf bounds token := by
    intro token
    rw [Bool.eq_iff_iff, List.any_eq_true]
    simp only [List.mem_range'_1, within, Bool.and_eq_true, decide_eq_true_eq]
    constructor
    · rintro ⟨_, inside, rfl⟩
      omega
    · rintro ⟨low, high⟩
      exact ⟨_, ⟨low, by omega⟩, rfl⟩
  have sum := sum_countP apart
  simp only [inside, ← lex_countOn rows] at sum
  rw [← sum, List.sum_eq_foldr, List.foldr_map]
  rfl

/-- Declarations of a lexed source begin on lines of definitions. -/
theorem parseAfter_isCpps {source : Source} (rows : source.lines.length ≤ Location.bound)
    (earlier : Array Entry) (reporting : Reporting) :
    ∀ declaration ∈ (parseAfter earlier reporting (lex source).stream).declarations,
      isCpps source.lines declaration.lineRank = true := by
  have read : ∀ place < (lex source).stream.size,
      (lex source).stream.get place ∈ (lex source).stream.tokens := by
    intro place inside
    rw [TokenStream.get, Array.getElem?_eq_getElem inside]
    exact Array.getElem_mem inside
  have known : LinesKnown (lex source).stream :=
    fun place inside => (lex_isCpps rows _ (read place inside)).1
  obtain ⟨declarations, after, run, consecutive⟩ := fileRounds_consecutive
    (soundNested_productions ((lex source).stream.size + 1)) [] ⟨0, earlier⟩
    (Nat.zero_le (lex source).stream.size)
  rw [parseAfter_eq run]
  intro declaration member
  obtain ⟨place, inside, first⟩ := (consecutive.tiled known).begins declaration member
  rw [Declaration.lineRank, first]
  exact (lex_isCpps rows _ (read place inside)).2

/-! ## All blocks -/

/-- Blocks that are all the lines of definitions of a source, one block for each run, and count
everything that was read from them. -/
structure AccountFor (source : Source) (stream : TokenStream) (declarations : List Declaration)
    (blocks : List Block) : Prop where
  runs : ∀ first last, (∃ block ∈ blocks, block.first = first ∧ block.last = last) ↔
    IsRun source.lines first last
  apart : blocks.Pairwise fun earlier later => earlier.last + 1 < later.first
  covers : ∀ index, isCpps source.lines index = true ↔
    ∃ block ∈ blocks, block.first ≤ index ∧ index ≤ block.last
  tokens : (blocks.map Block.tokens).sum = stream.size
  declarations : (blocks.map Block.declarations).sum = declarations.length

theorem IsRun.last_lt {lines : List Line} {first last : Nat} (run : IsRun lines first last) :
    last < lines.length := by
  by_contra past
  have inside := run.inside last run.ordered (Nat.le_refl last)
  rw [isCpps_past (Nat.not_lt.mp past)] at inside
  cases inside

theorem ofSource_accountFor {source : Source} (rows : source.lines.length ≤ Location.bound)
    {declarations : List Declaration} (located : ∀ declaration ∈ declarations,
      isCpps source.lines declaration.lineRank = true) :
    AccountFor source (lex source).stream declarations
      (Block.ofSource source (lex source).stream declarations) := by
  have found : BoundsRuns source.lines 0 (Block.bounds 0 none source.lines) :=
    bounds_boundsRuns (.start source.lines) List.drop_zero
  have runs : ∀ first last, (∃ block ∈ Block.ofSource source (lex source).stream declarations,
      block.first = first ∧ block.last = last) ↔ IsRun source.lines first last := by
    intro first last
    rw [← and_iff_left (Nat.zero_le (last + 1)) (a := IsRun _ _ _), ← found.runs]
    simp [Block.ofSource, Block.ofBounds]
  refine ⟨runs, List.pairwise_map.mpr found.apart, fun index => ?_, ?_, ?_⟩
  · constructor
    · intro here
      obtain ⟨first, last, run, low, high⟩ := exists_run_through here
      obtain ⟨block, member, rfl, rfl⟩ := (runs first last).mpr run
      exact ⟨block, member, low, high⟩
    · rintro ⟨block, member, low, high⟩
      exact ((runs _ _).mp ⟨block, member, rfl, rfl⟩).inside index low high
  · have counted := found.sum_within fun token member =>
      (lex_isCpps rows token (Array.mem_toList_iff.mp member)).2
    simp only [← lex_ofBounds_tokens rows declarations] at counted
    rw [Block.ofSource, List.map_map, TokenStream.size, ← Array.length_toList]
    exact counted
  · have counted := found.sum_within located
    rw [Block.ofSource, List.map_map]
    exact counted

/-- The blocks of generated output account for all lines of definitions, all tokens and all
declarations, and one warning for each of them, in their order, is at the whole of its first
line. -/
theorem generate_accountFor (source : Source) (rows : source.lines.length < Location.bound)
    (earlier : Array Entry) (reporting : Reporting) (directives : Bool) (printer : Printer) :
    let stream := (lex source).stream
    let declarations := (parseAfter earlier reporting stream).declarations
    let generated := generate directives source stream declarations printer
    AccountFor source stream declarations generated.blocks ∧
      ∀ diagnosis : Diagnosis, diagnosis.addWarnings generated.warnings =
        { diagnosis with
          warnings := diagnosis.warnings ++ (generated.blocks.map fun block =>
            ⟨"cpps declarations are not lowered to C++ yet", some ⟨some block.first, none⟩,
              none⟩).toArray } := by
  intro stream declarations generated
  have known := Nat.le_of_lt rows
  have account : AccountFor source stream declarations generated.blocks :=
    ofSource_accountFor known (parseAfter_isCpps known earlier reporting)
  refine ⟨account, fun diagnosis => ?_⟩
  have entries : ∀ block ∈ generated.blocks, block.entry =
      ⟨"cpps declarations are not lowered to C++ yet", some ⟨some block.first, none⟩, none⟩ := by
    intro block member
    have run := (account.runs _ _).mp ⟨block, member, rfl, rfl⟩
    have row : block.first < Location.bound :=
      Nat.lt_of_le_of_lt run.ordered (Nat.lt_trans run.last_lt rows)
    rw [Block.entry, Location.wholeLine, Location.axis_of_lt _ row]
    rfl
  rw [Diagnosis.addWarnings, Generated.warnings, List.map_congr_left entries]

/-- A block of two definitions in the middle, and one at the end in which tokens are left over
behind the only declaration. -/
def twoBlocks : Source := .ofLines [⟨"int a;", .cpp⟩, ⟨"b: int = 1;", .cpps⟩,
  ⟨"c: () = \x7b", .cpps⟩, ⟨"\x7d // c", .cpps⟩, ⟨"", .blank⟩, ⟨"d: int;", .cpps⟩,
  ⟨"e: = ;", .cpps⟩]

theorem twoBlocks_accountFor :
    let stream := (lex twoBlocks).stream
    let declarations := (parseAfter #[] .filtered stream).declarations
    let generated := generate true twoBlocks stream declarations (.start (.empty none))
    twoBlocks.lines.length < Location.bound ∧
    generated.blocks = [⟨1, 3, 2, 13⟩, ⟨5, 6, 1, 8⟩] ∧
    AccountFor twoBlocks stream declarations generated.blocks ∧
    (Diagnosis.empty.addWarnings generated.warnings).warnings.toList.map Entry.location =
      [some ⟨some 1, none⟩, some ⟨some 5, none⟩] := by
  have rows : twoBlocks.lines.length < Location.bound := by decide
  have blocks : (generate true twoBlocks (lex twoBlocks).stream
      (parseAfter #[] .filtered (lex twoBlocks).stream).declarations
      (.start (.empty none))).blocks = [⟨1, 3, 2, 13⟩, ⟨5, 6, 1, 8⟩] := by
    decide +kernel
  obtain ⟨account, warned⟩ :=
    generate_accountFor twoBlocks rows #[] .filtered true (.start (.empty none))
  refine ⟨rows, blocks, account, ?_⟩
  rw [warned, blocks]
  rfl

end CppsFrontend
