import CppsFrontend.Token.Stream
import Mathlib.Data.List.Basic

/-!
# Tokens by line

The tables of a stream are filled in one walk over its tokens.  Behind each step they hold what
has been passed: a line without tokens has no slot, the slot of any other line leads to the
range of its tokens, and the latest range is of the line of the last token and ends behind it.
So a token in line order is either the first one of its line or goes on with the latest range,
and the range that is read through the two tables is what is on a line.
-/

set_option autoImplicit false

namespace CppsFrontend

open TokenStream (lineOf)

variable {tokens before rest : List Token} {token : Token} {line other lineCount : Nat}

/-! ## Tokens in line order -/

theorem lineOf_le_last {earlier last : Token}
    (sorted : before.Pairwise fun first second => lineOf first ≤ lineOf second)
    (reached : before.getLast? = some last) (member : earlier ∈ before) :
    lineOf earlier ≤ lineOf last := by
  obtain ⟨front, rfl⟩ := List.getLast?_eq_some_iff.mp reached
  rcases List.mem_append.mp member with inside | inside
  · exact (List.pairwise_append.mp sorted).2.2 earlier inside last List.mem_cons_self
  · exact Nat.le_of_eq (congrArg lineOf (List.mem_singleton.mp inside))

/-- A line that has been reached goes on only from the token before. -/
theorem exists_last_same
    (sorted : (before ++ [token]).Pairwise fun first second => lineOf first ≤ lineOf second)
    (reached : before.filter (lineOf · = lineOf token) ≠ []) :
    ∃ last, before.getLast? = some last ∧ lineOf last = lineOf token := by
  obtain ⟨earlier, member⟩ := List.exists_mem_of_ne_nil _ reached
  obtain ⟨member, here⟩ := List.mem_filter.mp member
  obtain ⟨last, final⟩ := Option.ne_none_iff_exists'.mp
    (mt List.getLast?_eq_none_iff.mp (List.ne_nil_of_mem member))
  obtain ⟨inOrder, -, above⟩ := List.pairwise_append.mp sorted
  refine ⟨last, final, Nat.le_antisymm ?_ ?_⟩
  · exact above last (List.mem_of_getLast? final) token List.mem_cons_self
  · rw [← of_decide_eq_true here]
    exact lineOf_le_last inOrder final member

theorem filter_concat_other (apart : lineOf token ≠ line) :
    (before ++ [token]).filter (lineOf · = line) = before.filter (lineOf · = line) := by
  rw [List.filter_append, List.filter_cons_of_neg (by simpa using apart), List.filter_nil,
    List.append_nil]

theorem filter_concat_same (here : lineOf token = line) :
    (before ++ [token]).filter (lineOf · = line) = before.filter (lineOf · = line) ++ [token] := by
  rw [List.filter_append, List.filter_cons_of_pos (by simpa using here), List.filter_nil]

/-! ## Ranges -/

namespace TokenRange

variable {range : TokenRange}

/-- The tokens from the first place of a range to its last one are those of a line. -/
structure Reads (range : TokenRange) (line : Nat) (tokens : List Token) : Prop where
  within : range.stop ≤ tokens.length
  reads : (tokens.take range.stop).drop range.first = tokens.filter (lineOf · = line)
  nonempty : tokens.filter (lineOf · = line) ≠ []

theorem Reads.first_lt (reads : range.Reads line tokens) : range.first < range.stop := by
  by_contra past
  refine reads.nonempty ?_
  rw [← reads.reads, List.drop_eq_nil_iff, List.length_take]
  exact Nat.le_trans (Nat.min_le_left _ _) (Nat.not_lt.mp past)

theorem Reads.exists_first (reads : range.Reads line tokens) :
    ∃ first, tokens[range.first]? = some first ∧ lineOf first = line := by
  have inside : range.first < tokens.length := Nat.lt_of_lt_of_le reads.first_lt reads.within
  have member : tokens[range.first] ∈ (tokens.take range.stop).drop range.first := by
    rw [List.mem_drop_iff_getElem]
    refine ⟨0, ?_, ?_⟩
    · rw [List.length_take, Nat.min_eq_left reads.within, Nat.zero_add]
      exact reads.first_lt
    · simp
  rw [reads.reads, List.mem_filter] at member
  exact ⟨_, List.getElem?_eq_getElem inside, of_decide_eq_true member.2⟩

theorem Reads.line_eq (reads : range.Reads line tokens) (also : range.Reads other tokens) :
    line = other := by
  obtain ⟨first, stored, rfl⟩ := reads.exists_first
  obtain ⟨_, same, rfl⟩ := also.exists_first
  rw [Option.some.inj (stored.symm.trans same)]

theorem Reads.past (reads : range.Reads line before) (apart : lineOf token ≠ line) :
    range.Reads line (before ++ [token]) where
  within := by
    rw [List.length_append]
    exact Nat.le_add_right_of_le reads.within
  reads := by
    rw [List.take_append_of_le_length reads.within, reads.reads, filter_concat_other apart]
  nonempty := by
    rw [filter_concat_other apart]
    exact reads.nonempty

/-- A token of its line is in a range that goes on to it. -/
theorem Reads.grow (reads : range.Reads line before) (reaches : range.stop = before.length)
    (here : lineOf token = line) :
    ({ range with stop := before.length + 1 } : TokenRange).Reads line (before ++ [token]) := by
  have whole := reads.reads
  rw [reaches, List.take_length] at whole
  refine ⟨Nat.le_of_eq (by simp), ?_, ?_⟩
  · rw [filter_concat_same here, ← whole, List.take_of_length_le (by simp)]
    exact List.drop_append_of_le_length (Nat.le_of_lt (reaches ▸ reads.first_lt))
  · rw [filter_concat_same here]
    exact List.append_ne_nil_of_right_ne_nil _ (List.cons_ne_nil _ _)

theorem Reads.single (missing : before.filter (lineOf · = line) = [])
    (here : lineOf token = line) :
    (⟨before.length, before.length + 1⟩ : TokenRange).Reads line (before ++ [token]) := by
  have filtered : (before ++ [token]).filter (lineOf · = line) = [token] := by
    rw [filter_concat_same here, missing, List.nil_append]
  refine ⟨Nat.le_of_eq (by simp), ?_, ?_⟩
  · rw [filtered, List.take_of_length_le (by simp), List.drop_left]
  · rw [filtered]
    exact List.cons_ne_nil _ _

end TokenRange

/-! ## The two changes of the tables -/

namespace LineTables

variable {tables : LineTables} {slot : UInt32} {range : TokenRange}

theorem toNat_newSlot {count : Nat} (below : count < Location.bound) :
    (UInt32.ofNatClamp count).toNat = count ∧ UInt32.ofNatClamp count ≠ noLine := by
  have same : (UInt32.ofNatClamp count).toNat = count :=
    UInt32.toNat_ofNatClamp_of_lt (Nat.lt_trans below (by decide))
  refine ⟨same, fun none => ?_⟩
  rw [none] at same
  exact absurd below (Nat.not_lt.mpr (Nat.le_of_eq same))

theorem newRange_slot_same (inside : line < tables.sparse.size) (place : Nat) :
    (tables.newRange line place).sparse[line]? = some (UInt32.ofNatClamp tables.dense.size) := by
  rw [newRange, Array.getElem?_setIfInBounds, if_pos rfl, if_pos inside]

theorem newRange_slot_other (apart : line ≠ other) (place : Nat) :
    (tables.newRange line place).sparse[other]? = tables.sparse[other]? := by
  rw [newRange, Array.getElem?_setIfInBounds, if_neg apart]

theorem newRange_range {index : Nat} (stored : tables.dense[index]? = some range)
    (line place : Nat) : (tables.newRange line place).dense[index]? = some range := by
  have earlier := (Array.getElem?_eq_some_iff.mp stored).1
  rw [newRange, Array.getElem?_push, if_neg (Nat.ne_of_lt earlier), stored]

theorem growLatest_range_same (size : tables.dense.size = slot.toNat + 1)
    (stored : tables.dense[slot.toNat]? = some range) (place : Nat) :
    (tables.growLatest place).dense[slot.toNat]? = some { range with stop := place + 1 } := by
  rw [growLatest, Array.getElem?_modify, size, Nat.add_sub_cancel, if_pos rfl, stored]
  rfl

theorem growLatest_range_other {index : Nat} (size : tables.dense.size = slot.toNat + 1)
    (apart : slot.toNat ≠ index) (place : Nat) :
    (tables.growLatest place).dense[index]? = tables.dense[index]? := by
  rw [growLatest, Array.getElem?_modify, size, Nat.add_sub_cancel, if_neg apart]

/-! ## What the tables hold -/

/-- The latest range is that of a line and ends at a place. -/
structure Latest (tables : LineTables) (line stop : Nat) : Prop where
  assigned : ∃ slot, tables.sparse[line]? = some slot ∧ slot ≠ noLine ∧
    tables.dense.size = slot.toNat + 1
  reaches : ∀ range ∈ tables.dense.back?, range.stop = stop

/-- The tables say where the tokens of each line are among those that have been passed. -/
structure Holds (tables : LineTables) (lineCount : Nat) (before : List Token) : Prop where
  width : tables.sparse.size = lineCount
  missing : ∀ line, tables.sparse[line]? = some noLine → before.filter (lineOf · = line) = []
  found : ∀ line slot, tables.sparse[line]? = some slot → slot ≠ noLine →
    ∃ range, tables.dense[slot.toNat]? = some range ∧ range.Reads line before
  latest : ∀ last ∈ before.getLast?, tables.Latest (lineOf last) before.length
  few : tables.dense.size ≤ before.getLast?.elim 0 fun last => lineOf last + 1

theorem empty_holds (lineCount : Nat) : (empty lineCount).Holds lineCount [] where
  width := Array.size_replicate
  missing _ _ := rfl
  found line slot assigned known := by
    rw [empty, Array.getElem?_replicate] at assigned
    split at assigned
    · exact absurd (Option.some.inj assigned).symm known
    · cases assigned
  latest _ last := by cases last
  few := Nat.le_refl 0

/-- Two lines do not share a range. -/
theorem Holds.slot_ne {otherSlot : UInt32} (holds : tables.Holds lineCount before)
    (assigned : tables.sparse[line]? = some slot) (known : slot ≠ noLine)
    (also : tables.sparse[other]? = some otherSlot) (otherKnown : otherSlot ≠ noLine)
    (apart : line ≠ other) : slot.toNat ≠ otherSlot.toNat := by
  intro equal
  obtain ⟨range, stored, reads⟩ := holds.found line slot assigned known
  obtain ⟨_, again, otherReads⟩ := holds.found other otherSlot also otherKnown
  rw [← equal, stored] at again
  cases again
  exact apart (reads.line_eq otherReads)

/-- The latest range is of the line of the last token. -/
theorem Holds.back (holds : tables.Holds lineCount before)
    (final : tables.dense.back? = some range) :
    ∃ last, before.getLast? = some last ∧ range.Reads (lineOf last) before := by
  rw [Array.back?_eq_getElem?] at final
  have few := holds.few
  cases reached : before.getLast? with
  | none =>
      rw [reached] at few
      have inside := (Array.getElem?_eq_some_iff.mp final).1
      exact absurd inside (Nat.not_lt.mpr (Nat.le_trans few (Nat.zero_le _)))
  | some last =>
      obtain ⟨slot, assigned, known, size⟩ := (holds.latest last reached).assigned
      obtain ⟨found, stored, reads⟩ := holds.found _ slot assigned known
      rw [size, Nat.add_sub_cancel, stored] at final
      cases final
      exact ⟨last, rfl, reads⟩

/-! ## One more token -/

section Step

variable (holds : tables.Holds lineCount before)
variable (sorted : (before ++ [token]).Pairwise fun first second => lineOf first ≤ lineOf second)

include holds sorted

theorem Holds.checkOrder : tables.checkOrder (before ++ token :: rest).toArray (lineOf token) =
    .ok () := by
  rw [LineTables.checkOrder]
  cases final : tables.dense.back? with
  | none => rfl
  | some range =>
      obtain ⟨last, reached, reads⟩ := holds.back final
      obtain ⟨first, stored, same⟩ := reads.exists_first
      have inside := (List.getElem?_eq_some_iff.mp stored).1
      have above := (List.pairwise_append.mp sorted).2.2 last (List.mem_of_getLast? reached) token
        List.mem_cons_self
      simp only [List.getElem?_toArray, List.getElem?_append_left inside, stored, same]
      exact if_pos above

/-- Up to a token on a line that has not been reached there are no more ranges than lines. -/
theorem Holds.size_le (missing : before.filter (lineOf · = lineOf token) = []) :
    tables.dense.size ≤ lineOf token := by
  have few := holds.few
  cases reached : before.getLast? with
  | none =>
      rw [reached] at few
      exact Nat.le_trans few (Nat.zero_le _)
  | some last =>
      have member := List.mem_of_getLast? reached
      have apart : lineOf last ≠ lineOf token := by
        simpa using List.filter_eq_nil_iff.mp missing last member
      have above := (List.pairwise_append.mp sorted).2.2 last member token List.mem_cons_self
      rw [reached] at few
      exact Nat.le_trans few (Nat.lt_of_le_of_ne above apart)

/-- The first token of a line begins a range behind the ones there are. -/
theorem Holds.newRange (below : lineOf token < Location.bound)
    (unassigned : tables.sparse[lineOf token]? = some noLine) :
    (tables.newRange (lineOf token) before.length).Holds lineCount (before ++ [token]) := by
  have missing := holds.missing _ unassigned
  have few := holds.size_le sorted missing
  obtain ⟨place, known⟩ := toNat_newSlot (Nat.lt_of_le_of_lt few below)
  have inside : lineOf token < tables.sparse.size := (Array.getElem?_eq_some_iff.mp unassigned).1
  have own := newRange_slot_same inside before.length
  constructor
  case width =>
    rw [← holds.width]
    exact Array.size_setIfInBounds
  case missing =>
    intro line none
    by_cases here : lineOf token = line
    · subst here
      rw [own] at none
      exact absurd (Option.some.inj none) known
    · rw [newRange_slot_other here] at none
      rw [filter_concat_other here]
      exact holds.missing line none
  case found =>
    intro line slot assigned used
    by_cases here : lineOf token = line
    · subst here
      rw [own] at assigned
      cases assigned
      refine ⟨⟨before.length, before.length + 1⟩, ?_, .single missing rfl⟩
      rw [place]
      exact Array.getElem?_push_size
    · rw [newRange_slot_other here] at assigned
      obtain ⟨range, stored, reads⟩ := holds.found line slot assigned used
      exact ⟨range, newRange_range stored _ _, reads.past here⟩
  case latest =>
    intro last reached
    rw [List.getLast?_concat] at reached
    cases reached
    refine ⟨⟨_, own, known, ?_⟩, ?_⟩
    · rw [place]
      exact Array.size_push _
    · intro range final
      rw [LineTables.newRange, Array.back?_push] at final
      cases final
      rw [List.length_append]
      rfl
  case few =>
    rw [List.getLast?_concat, LineTables.newRange, Array.size_push]
    exact Nat.succ_le_succ few

/-- A token on a line that has been reached is behind the latest range, which is of its line. -/
theorem Holds.growLatest (assigned : tables.sparse[lineOf token]? = some slot)
    (known : slot ≠ noLine) :
    (tables.growLatest before.length).Holds lineCount (before ++ [token]) := by
  obtain ⟨range, stored, reads⟩ := holds.found _ slot assigned known
  obtain ⟨last, reached, same⟩ := exists_last_same sorted reads.nonempty
  obtain ⟨⟨latestSlot, latestAssigned, -, size⟩, reaches⟩ := holds.latest last reached
  rw [same, assigned] at latestAssigned
  obtain rfl : slot = latestSlot := Option.some.inj latestAssigned
  have ends : range.stop = before.length := by
    refine reaches range ?_
    rw [Array.back?_eq_getElem?, size, Nat.add_sub_cancel]
    exact stored
  have final := growLatest_range_same size stored before.length
  have grown : (tables.growLatest before.length).dense.size = slot.toNat + 1 :=
    Array.size_modify.trans size
  constructor
  case width => exact holds.width
  case missing =>
    intro line none
    have apart : lineOf token ≠ line := by
      rintro rfl
      exact known (Option.some.inj (assigned.symm.trans none))
    rw [filter_concat_other apart]
    exact holds.missing line none
  case found =>
    intro line place used otherKnown
    by_cases here : lineOf token = line
    · subst here
      obtain rfl : slot = place := Option.some.inj (assigned.symm.trans used)
      exact ⟨_, final, reads.grow ends rfl⟩
    · obtain ⟨other, otherStored, otherReads⟩ := holds.found line place used otherKnown
      refine ⟨other, ?_, otherReads.past here⟩
      rw [growLatest_range_other size (holds.slot_ne assigned known used otherKnown here)]
      exact otherStored
  case latest =>
    intro next reachedNext
    rw [List.getLast?_concat] at reachedNext
    cases reachedNext
    refine ⟨⟨slot, assigned, known, grown⟩, ?_⟩
    intro latest atEnd
    rw [Array.back?_eq_getElem?, grown, Nat.add_sub_cancel, final] at atEnd
    cases atEnd
    rw [List.length_append]
    rfl
  case few =>
    have few := holds.few
    rw [reached, size, Option.elim_some, same] at few
    rw [List.getLast?_concat, grown]
    exact few

/-- A token in line order is added, and the tables hold it as well. -/
theorem Holds.add (inside : lineOf token < lineCount) (below : lineOf token < Location.bound) :
    ∃ after, tables.add (before ++ token :: rest).toArray before.length token = .ok after ∧
      after.Holds lineCount (before ++ [token]) := by
  have assigned : ∃ slot, tables.sparse[lineOf token]? = some slot :=
    ⟨_, Array.getElem?_eq_getElem (holds.width ▸ inside)⟩
  obtain ⟨slot, assigned⟩ := assigned
  rw [LineTables.add, holds.checkOrder sorted, assigned]
  refine ⟨_, rfl, ?_⟩
  split
  · rename_i unused
    exact holds.newRange sorted below (unused ▸ assigned)
  · rename_i used
    exact holds.growLatest sorted assigned used

end Step

theorem Holds.addFrom (holds : tables.Holds lineCount before)
    (sorted : (before ++ rest).Pairwise fun first second => lineOf first ≤ lineOf second)
    (inside : ∀ token ∈ rest, lineOf token < lineCount)
    (below : ∀ token ∈ rest, lineOf token < Location.bound) :
    ∃ after, tables.addFrom (before ++ rest).toArray before.length rest = .ok after ∧
      after.Holds lineCount (before ++ rest) := by
  induction rest generalizing tables before with
  | nil =>
      refine ⟨tables, rfl, ?_⟩
      rwa [List.append_nil]
  | cons token rest induction =>
      obtain ⟨insideHere, insideRest⟩ := List.forall_mem_cons.mp inside
      obtain ⟨belowHere, belowRest⟩ := List.forall_mem_cons.mp below
      have split : before ++ token :: rest = before ++ [token] ++ rest := List.append_cons ..
      have front := (List.pairwise_append.mp (split ▸ sorted)).1
      obtain ⟨middle, added, next⟩ := holds.add front insideHere belowHere
      obtain ⟨after, addedRest, whole⟩ := induction next (split ▸ sorted) insideRest belowRest
      rw [LineTables.addFrom, added, split]
      rw [List.length_append] at addedRest
      exact ⟨after, addedRest, whole⟩

/-- Two look-ups find the range of the tokens of a line, or that there are none. -/
theorem Holds.range? (holds : tables.Holds lineCount tokens)
    (inside : ∀ token ∈ tokens, lineOf token < lineCount) (line : Nat) :
    (∃ range, tables.range? line = some range ∧ range.Reads line tokens) ∨
      tables.range? line = none ∧ tokens.filter (lineOf · = line) = [] := by
  rw [LineTables.range?]
  cases assigned : tables.sparse[line]? with
  | none =>
      have past : lineCount ≤ line := holds.width ▸ Array.getElem?_eq_none_iff.mp assigned
      refine .inr ⟨rfl, List.filter_eq_nil_iff.mpr fun token member => ?_⟩
      have before := inside token member
      rw [decide_eq_true_eq]
      omega
  | some slot =>
      by_cases known : slot = noLine
      · subst known
        exact .inr ⟨if_pos rfl, holds.missing line assigned⟩
      · obtain ⟨range, stored, reads⟩ := holds.found line slot assigned known
        exact .inl ⟨range, (if_neg known).trans stored, reads⟩

end LineTables

namespace TokenStream

/-! ## What a stream answers -/

/-- The queries about a line give the tokens that are on it, in their order, and the range that
they read is inside the stream. -/
structure Answers (stream : TokenStream) (line : Nat) (onLine : List Token) : Prop where
  inside : ∀ range ∈ stream.tables.range? line,
    range.first ≤ range.stop ∧ range.stop ≤ stream.size
  on : (stream.on line).toList = onLine
  count : stream.countOn line = onLine.length
  has : stream.hasLine line = true ↔ onLine ≠ []
  place : ∀ place, stream.atLine? line place = onLine[place]?

theorem answers_of_holds {stream : TokenStream}
    (holds : stream.tables.Holds lineCount stream.tokens.toList)
    (inside : ∀ token ∈ stream.tokens.toList, lineOf token < lineCount) (line : Nat) :
    stream.Answers line (stream.tokens.toList.filter (lineOf · = line)) := by
  have place : ∀ {onLine : List Token}, (stream.on line).toList = onLine →
      ∀ place, stream.atLine? line place = onLine[place]? := by
    rintro _ rfl place
    rw [atLine?, Array.getElem?_toList]
  rcases holds.range? inside line with ⟨range, found, reads⟩ | ⟨missing, none⟩
  · have on : (stream.on line).toList = stream.tokens.toList.filter (lineOf · = line) := by
      rw [on, found, ← reads.reads, List.drop_take, ← List.extract_eq_take_drop]
      exact Array.toList_extract
    refine ⟨?_, on, ?_, ?_, place on⟩
    · intro _ same
      rw [found] at same
      cases same
      exact ⟨Nat.le_of_lt reads.first_lt, reads.within⟩
    · rw [countOn, found, ← reads.reads, List.length_drop, List.length_take,
        Nat.min_eq_left reads.within]
    · simpa [hasLine, found] using reads.nonempty
  · have on : (stream.on line).toList = stream.tokens.toList.filter (lineOf · = line) := by
      rw [on, missing, none]
    refine ⟨?_, on, ?_, ?_, place on⟩
    · intro _ same
      rw [missing] at same
      cases same
    · rw [countOn, missing, none, List.length_nil]
    · simp [hasLine, missing, none]

/-- Tokens in line order on lines below the bound are never refused. -/
theorem ofTokens?_holds
    (sorted : tokens.Pairwise fun first second => lineOf first ≤ lineOf second)
    (below : ∀ token ∈ tokens, lineOf token < Location.bound) :
    let lineCount := tokens.getLast?.elim 0 fun last => lineOf last + 1
    (∀ token ∈ tokens, lineOf token < lineCount) ∧
      ∃ stream, ofTokens? tokens = .ok stream ∧ stream.tokens = tokens.toArray ∧
        stream.tables.Holds lineCount tokens := by
  intro lineCount
  have inside : ∀ token ∈ tokens, lineOf token < lineCount := by
    intro token member
    obtain ⟨last, reached⟩ := Option.ne_none_iff_exists'.mp
      (mt List.getLast?_eq_none_iff.mp (List.ne_nil_of_mem member))
    have within := Nat.lt_succ_of_le (lineOf_le_last sorted reached member)
    simp only [lineCount, reached]
    exact within
  obtain ⟨tables, added, holds⟩ :=
    (LineTables.empty_holds lineCount).addFrom sorted inside below
  have filled : LineTables.ofTokens? tokens.toArray = .ok tables := by
    rw [LineTables.ofTokens?, List.back?_toArray, ← added]
    cases reached : tokens.getLast? with
    | none => simp [lineCount, reached]
    | some last => simp [lineCount, reached]
  refine ⟨inside, ⟨tokens.toArray, tables⟩, ?_, rfl, holds⟩
  rw [ofTokens?, filled]
  rfl

theorem ofTokens_eq {stream : TokenStream} (made : ofTokens? tokens = .ok stream) :
    ofTokens tokens = stream := by
  rw [ofTokens?] at made
  cases filled : LineTables.ofTokens? tokens.toArray with
  | error breach =>
      rw [filled] at made
      cases made
  | ok tables =>
      rw [filled] at made
      cases made
      rw [ofTokens, filled]

/-! ## The lines one after the other -/

theorem filter_below_append
    (ordered : tokens.Pairwise fun first second => lineOf first ≤ lineOf second) (line : Nat) :
    tokens.filter (lineOf · < line) ++ tokens.filter (lineOf · = line) =
      tokens.filter (lineOf · < line + 1) := by
  induction tokens with
  | nil => rfl
  | cons first tokens induction =>
      obtain ⟨above, rest⟩ := List.pairwise_cons.mp ordered
      have others := induction rest
      simp only [List.filter_cons, decide_eq_true_eq]
      rcases Nat.lt_trichotomy (lineOf first) line with below | here | beyond
      · rw [if_pos below, if_neg (Nat.ne_of_lt below), if_pos (Nat.lt_succ_of_lt below),
          List.cons_append, others]
      · have none : tokens.filter (lineOf · < line) = [] :=
          List.filter_eq_nil_iff.mpr fun token member before => by
            have behind := above token member
            have early := of_decide_eq_true before
            omega
        rw [none, List.nil_append] at others
        rw [if_neg (Nat.not_lt.mpr (Nat.le_of_eq here.symm)), if_pos here,
          if_pos (Nat.lt_succ_of_le (Nat.le_of_eq here)), none, List.nil_append, others]
      · have later : ¬ lineOf first < line + 1 := by omega
        rw [if_neg (Nat.lt_asymm beyond), if_neg (Nat.ne_of_gt beyond), if_neg later, others]

theorem flatMap_filter
    (ordered : tokens.Pairwise fun first second => lineOf first ≤ lineOf second) (count : Nat) :
    (List.range count).flatMap (fun line => tokens.filter (lineOf · = line)) =
      tokens.filter (lineOf · < count) := by
  induction count with
  | zero => simp
  | succ line induction =>
      rw [List.range_succ, List.flatMap_append, induction, List.flatMap_singleton,
        filter_below_append ordered]

/-- A stream says of some tokens what a walk over them does. -/
structure Indexes (stream : TokenStream) (tokens : List Token) : Prop where
  stored : stream.tokens.toList = tokens
  answers : ∀ line, stream.Answers line
    (tokens.filter fun token => token.location.line = some line)
  joined : (List.range stream.lineCount).flatMap (fun line => (stream.on line).toList) = tokens
  count : stream.lineCount = tokens.getLast?.elim 0 fun last => lineOf last + 1

/-- Tokens in line order are indexed: each line has the tokens that are located on it, and the
lines together have them all, up to the line of the last one. -/
theorem ofTokens?_indexes
    (ordered : tokens.Pairwise fun first second => lineOf first ≤ lineOf second)
    (known : ∀ token ∈ tokens, lineOf token < Location.bound) :
    ∃ stream, ofTokens? tokens = .ok stream ∧ stream.Indexes tokens := by
  obtain ⟨inside, stream, made, same, holds⟩ := ofTokens?_holds ordered known
  have stored : stream.tokens.toList = tokens := by rw [same]
  have answers : ∀ line, stream.Answers line (tokens.filter (lineOf · = line)) := by
    intro line
    rw [← stored] at holds inside ⊢
    exact answers_of_holds holds inside line
  have count : stream.lineCount = tokens.getLast?.elim 0 fun last => lineOf last + 1 :=
    holds.width
  have located : ∀ line, tokens.filter (fun token => token.location.line = some line) =
      tokens.filter (lineOf · = line) := by
    intro line
    refine List.filter_congr fun token member => ?_
    have row := known token member
    cases own : token.location.line with
    | none =>
        rw [lineOf, own] at row
        exact absurd row (Nat.lt_irrefl _)
    | some index => simp [lineOf, own, Location.rank]
  refine ⟨stream, made, stored, ?_, ?_, count⟩
  · intro line
    rw [located]
    exact answers line
  · calc (List.range stream.lineCount).flatMap (fun line => (stream.on line).toList)
        = (List.range stream.lineCount).flatMap
            (fun line => tokens.filter (lineOf · = line)) := by
          simp only [(answers _).on]
      _ = tokens.filter (lineOf · < stream.lineCount) := flatMap_filter ordered _
      _ = tokens := List.filter_eq_self.mpr fun token member =>
          decide_eq_true (count ▸ inside token member)

-- The third token is on a line before that of the latest range.
example : (ofTokens? ([1, 3, 2, 3].map fun line => ⟨.identifier, .ofIndices line 0, "x"⟩)).map
    TokenStream.lineCount = .error .linesOutOfOrder := by
  rfl

-- The sparse table has a slot for each line up to that of the last token, and no more.
example : (ofTokens? ([3, 1].map fun line => ⟨.identifier, .ofIndices line 0, "x"⟩)).map
    TokenStream.lineCount = .error (.indexOutOfBounds 2 3) := by
  rfl

def scattered : List Token :=
  [(1, 0), (1, 2), (1, 4), (3, 0), (5, 0), (5, 1)].map fun place =>
    ⟨.identifier, .ofIndices place.1 place.2, "x"⟩

theorem scattered_indexes :
    (scattered.Pairwise fun first second => lineOf first ≤ lineOf second) ∧
    (∀ token ∈ scattered, lineOf token < Location.bound) ∧
    ∃ stream, ofTokens? scattered = .ok stream ∧ stream.Indexes scattered := by
  have ordered : scattered.Pairwise fun first second => lineOf first ≤ lineOf second := by decide
  have known : ∀ token ∈ scattered, lineOf token < Location.bound := by decide
  exact ⟨ordered, known, ofTokens?_indexes ordered known⟩

end CppsFrontend.TokenStream
