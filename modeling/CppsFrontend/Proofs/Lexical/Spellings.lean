import Mathlib.Data.List.Nodup
import CppsFrontend.Lexical.Line

/-!
# Spellings and the tables

The mark at the front of a text is the longest one of the table, although it is chosen by
cases on its characters, and a word is sought in its tables by halving, which finds what is
there because the tables are in order.  No two of the tables of words share a spelling.
-/

set_option autoImplicit false

namespace CppsFrontend

/-! ## Tables in order -/

namespace Spelled

variable {α : Type} [Spelled α] {text : String} {low high index : Nat} {member : α}

def Sorted (α : Type) [Spelled α] : Prop :=
  (table : List α).Pairwise fun first second => spelling first < spelling second

theorem sorted_of_isChain
    (chain : (table : List α).IsChain fun first second => spelling first < spelling second) :
    Sorted α := by
  have : Trans (fun first second : α => spelling first < spelling second)
      (fun first second : α => spelling first < spelling second)
      (fun first second : α => spelling first < spelling second) :=
    ⟨fun lower upper => String.lt_trans lower upper⟩
  exact List.isChain_iff_pairwise.mp chain

theorem searchFrom_sound (found : searchFrom text low high = some member) :
    member ∈ (table : List α) ∧ spelling member = text := by
  fun_induction searchFrom (α := α) text low high with
  | case1 => cases found
  | case2 low high inside middle other stored same =>
      cases found
      exact ⟨List.mem_of_getElem? stored, same⟩
  | case3 low high inside middle other stored apart below induction => exact induction found
  | case4 low high inside middle other stored apart above induction => exact induction found
  | case5 => cases found

theorem Sorted.lt_of_spelling_lt (sorted : Sorted α) {first second : α} {place : Nat}
    (stored : (table : List α)[place]? = some first)
    (other : (table : List α)[index]? = some second)
    (below : spelling first < spelling second) : place < index := by
  obtain ⟨inside, rfl⟩ := List.getElem?_eq_some_iff.mp stored
  obtain ⟨otherInside, rfl⟩ := List.getElem?_eq_some_iff.mp other
  rcases Nat.lt_trichotomy place index with before | rfl | behind
  · exact before
  · exact absurd below (String.lt_irrefl _)
  · exact absurd below (String.lt_asymm (List.pairwise_iff_getElem.mp sorted _ _ _ _ behind))

/-- Halving keeps the place of a spelling inside, because the table is in order. -/
theorem searchFrom_complete (sorted : Sorted α) (stored : (table : List α)[index]? = some member)
    (fromLow : low ≤ index) (belowHigh : index < high) (inside : high ≤ (table : List α).length) :
    ∃ found : α, searchFrom (spelling member) low high = some found := by
  fun_induction searchFrom (α := α) (spelling member) low high with
  | case1 low high nonempty middle missing =>
      have bounded := List.getElem?_eq_none_iff.mp missing
      omega
  | case2 low high nonempty middle other found same => exact ⟨other, rfl⟩
  | case3 low high nonempty middle other found apart below induction =>
      have behind := sorted.lt_of_spelling_lt found stored below
      exact induction behind belowHigh inside
  | case4 low high nonempty middle other found apart notBelow induction =>
      have above : spelling member < spelling other :=
        String.not_le.mp fun le => apart (String.le_antisymm le (String.not_lt.mp notBelow))
      have before := sorted.lt_of_spelling_lt stored found above
      exact induction fromLow before (by omega)
  | case5 low high empty => omega

/-- What is sought in a table in order is found exactly if it is there. -/
theorem search?_isSome (sorted : Sorted α) (text : String) :
    (search? text : Option α).isSome ↔ ∃ member ∈ (table : List α), spelling member = text := by
  rw [Option.isSome_iff_exists]
  constructor
  · rintro ⟨member, found⟩
    exact ⟨member, searchFrom_sound found⟩
  · rintro ⟨member, among, rfl⟩
    obtain ⟨index, stored⟩ := List.mem_iff_getElem?.mp among
    have inside := (List.getElem?_eq_some_iff.mp stored).1
    exact searchFrom_complete sorted stored (Nat.zero_le index) inside (Nat.le_refl _)

end Spelled

/-! ## Words -/

namespace Lexeme

def reserved : List Lexeme :=
  BooleanLiteral.all.map Lexeme.booleanLiteral ++
    FunctionModifier.all.map Lexeme.functionModifier ++ Keyword.all.map Lexeme.keyword ++
    ParameterModifier.all.map Lexeme.parameterModifier ++
    PointerLiteral.all.map Lexeme.pointerLiteral

theorem mem_reserved {lexeme : Lexeme} : lexeme ∈ reserved ↔
    lexeme.kind? ∈ [some .booleanLiteral, some .functionModifier, some .keyword,
      some .parameterModifier, some .pointerLiteral] := by
  have keywords : ∀ word, word ∈ Keyword.all := by
    intro word
    cases word <;> decide
  have functions : ∀ modifier, modifier ∈ FunctionModifier.all := by
    intro modifier
    cases modifier <;> decide
  have parameters : ∀ modifier, modifier ∈ ParameterModifier.all := by
    intro modifier
    cases modifier <;> decide
  have booleans : ∀ value, value ∈ BooleanLiteral.all := by
    intro value
    cases value <;> decide
  cases lexeme with
  | pointerLiteral value =>
      cases value
      decide
  | _ => simp [reserved, kind?, keywords, functions, parameters, booleans]

theorem sorted_booleanLiteral : Spelled.Sorted BooleanLiteral :=
  Spelled.sorted_of_isChain (by decide)

theorem sorted_functionModifier : Spelled.Sorted FunctionModifier :=
  Spelled.sorted_of_isChain (by decide)

theorem sorted_keyword : Spelled.Sorted Keyword :=
  Spelled.sorted_of_isChain (by decide +kernel)

theorem sorted_parameterModifier : Spelled.Sorted ParameterModifier :=
  Spelled.sorted_of_isChain (by decide)

theorem sorted_pointerLiteral : Spelled.Sorted PointerLiteral :=
  Spelled.sorted_of_isChain (by decide)

/-- No two reserved words are spelled alike, also in different tables. -/
theorem reserved_nodup : (reserved.map Lexeme.text).Nodup := by
  decide +kernel

/-- A way to look for words finds exactly the spellings of some lexemes. -/
structure Finds (words : List Lexeme) (look : String → Option Lexeme) : Prop where
  sound : ∀ {word lexeme}, look word = some lexeme → lexeme ∈ words ∧ lexeme.text = word
  complete : ∀ lexeme ∈ words, (look lexeme.text).isSome

theorem Finds.orElse {first second : List Lexeme} {look other : String → Option Lexeme}
    (head : Finds first look) (tail : Finds second other) :
    Finds (first ++ second) fun word => look word <|> other word where
  sound := by
    intro word lexeme found
    cases chosen : look word with
    | some member =>
        rw [chosen] at found
        cases found
        obtain ⟨among, text⟩ := head.sound chosen
        exact ⟨List.mem_append_left second among, text⟩
    | none =>
        rw [chosen] at found
        obtain ⟨among, text⟩ := tail.sound found
        exact ⟨List.mem_append_right first among, text⟩
  complete := by
    intro lexeme among
    cases chosen : look lexeme.text with
    | some member => rfl
    | none =>
        rcases List.mem_append.mp among with among | among
        · have found := head.complete lexeme among
          rw [chosen] at found
          cases found
        · exact tail.complete lexeme among

theorem finds_search {α : Type} [Spelled α] {wrap : α → Lexeme} (sorted : Spelled.Sorted α)
    (text : ∀ member, (wrap member).text = Spelled.spelling member) :
    Finds ((Spelled.table : List α).map wrap) fun word => (Spelled.search? word).map wrap where
  sound := by
    intro word lexeme found
    obtain ⟨member, sought, rfl⟩ := Option.map_eq_some_iff.mp found
    obtain ⟨among, spelled⟩ := Spelled.searchFrom_sound sought
    exact ⟨List.mem_map_of_mem among, (text member).trans spelled⟩
  complete := by
    intro lexeme among
    obtain ⟨member, stored, rfl⟩ := List.mem_map.mp among
    rw [Option.isSome_map, Spelled.search?_isSome sorted]
    exact ⟨member, stored, (text member).symm⟩

theorem finds_reserved : Finds reserved ofReserved? := by
  have all := (@finds_search _ _ Lexeme.booleanLiteral sorted_booleanLiteral fun _ => rfl).orElse <|
    (@finds_search _ _ Lexeme.functionModifier sorted_functionModifier fun _ => rfl).orElse <|
    (@finds_search _ _ Lexeme.keyword sorted_keyword fun _ => rfl).orElse <|
    (@finds_search _ _ Lexeme.parameterModifier sorted_parameterModifier fun _ => rfl).orElse
      (@finds_search _ _ Lexeme.pointerLiteral sorted_pointerLiteral fun _ => rfl)
  simp only [← List.append_assoc] at all
  exact all

/-- Each reserved word is the lexeme of its spelling. -/
theorem ofReserved?_eq_some {word : String} {lexeme : Lexeme} :
    ofReserved? word = some lexeme ↔ lexeme ∈ reserved ∧ lexeme.text = word := by
  constructor
  · exact finds_reserved.sound
  · rintro ⟨among, rfl⟩
    obtain ⟨found, sought⟩ := Option.isSome_iff_exists.mp (finds_reserved.complete lexeme among)
    obtain ⟨foundAmong, text⟩ := finds_reserved.sound sought
    rw [sought, List.inj_on_of_nodup_map reserved_nodup foundAmong among text]

theorem ofWord_reserved {lexeme : Lexeme} (among : lexeme ∈ reserved) :
    ofWord lexeme.text = lexeme := by
  rw [ofWord, ofReserved?_eq_some.mpr ⟨among, rfl⟩, Option.getD_some]

theorem ofWord_cases (word : String) :
    (ofWord word ∈ reserved ∧ (ofWord word).text = word) ∨
      (ofWord word = .identifier ∧ ∀ lexeme ∈ reserved, lexeme.text ≠ word) := by
  cases sought : ofReserved? word with
  | some lexeme =>
      rw [ofWord, sought, Option.getD_some]
      exact .inl (ofReserved?_eq_some.mp sought)
  | none =>
      refine .inr ⟨by rw [ofWord, sought, Option.getD_none], ?_⟩
      intro lexeme among text
      rw [ofReserved?_eq_some.mpr ⟨among, text⟩] at sought
      cases sought

end Lexeme

namespace Lexical

/-! ## Marks -/

variable {c : Char} {next after : Option Char} {text : List Char} {mark : Punctuator}

theorem markAt_front (chosen : markAt? c next after = some mark) :
    mark.spelling.toList <+: c :: (next.toList ++ after.toList) := by
  unfold markAt? either at chosen
  repeat' split at chosen
  all_goals cases chosen
  all_goals simp_all [Punctuator.spelling]

/-- Whether a mark is chosen is known from its first character. -/
theorem markAt_first (chosen : markAt? c none none = some mark) (next after : Option Char) :
    mark.spelling.length = 1 ∧ ∃ longer, markAt? c next after = some longer := by
  unfold markAt? at chosen
  split at chosen
  all_goals cases chosen
  all_goals
    refine ⟨rfl, ?_⟩
    simp only [markAt?]
    repeat' split
    all_goals exact ⟨_, rfl⟩

/-- One more character behind the two makes no mark shorter. -/
theorem markAt_more (chosen : markAt? c next none = some mark) (after : Option Char) :
    ∃ longer, markAt? c next after = some longer ∧
      mark.spelling.length ≤ longer.spelling.length := by
  unfold markAt? at chosen
  split at chosen
  -- What the cases know of the next character excludes those where the marks do not fit.
  all_goals
    simp only [markAt?, either] at chosen ⊢
    repeat' split at chosen
    all_goals repeat' split
    all_goals cases chosen
    all_goals first
      | exact ⟨_, rfl, by decide⟩
      | simp_all

theorem spelling_length_pos (mark : Punctuator) : 0 < mark.spelling.length := by
  cases mark <;> decide

theorem punctuator?_spelling (mark : Punctuator) :
    punctuator? mark.spelling.toList = some mark := by
  cases mark <;> rfl

theorem punctuator?_append (chosen : punctuator? text = some mark) (more : List Char) :
    ∃ longer, punctuator? (text ++ more) = some longer ∧
      mark.spelling.length ≤ longer.spelling.length := by
  match text with
  | [] => cases chosen
  | [c] =>
      obtain ⟨single, longer, found⟩ := markAt_first chosen more[0]? more[1]?
      rw [single]
      exact ⟨longer, found, spelling_length_pos longer⟩
  | [c, d] => exact markAt_more chosen more[0]?
  | c :: d :: e :: rest => exact ⟨mark, chosen, Nat.le_refl _⟩

theorem punctuator?_front (chosen : punctuator? text = some mark) :
    mark.spelling.toList <+: text := by
  match text with
  | [] => cases chosen
  | [c] => exact @markAt_front c none none mark chosen
  | [c, d] => exact @markAt_front c (some d) none mark chosen
  | c :: d :: e :: rest =>
      exact (@markAt_front c (some d) (some e) mark chosen).trans ⟨rest, rfl⟩

/-- The mark at the front of a text is the longest one of the table that is spelled there. -/
theorem punctuator?_eq_some : punctuator? text = some mark ↔ mark.spelling.toList <+: text ∧
    ∀ other : Punctuator, other.spelling.toList <+: text →
      other.spelling.length ≤ mark.spelling.length := by
  have atLeast : ∀ other : Punctuator, other.spelling.toList <+: text →
      ∃ longer, punctuator? text = some longer ∧
        other.spelling.length ≤ longer.spelling.length := by
    rintro other ⟨more, rfl⟩
    exact punctuator?_append (punctuator?_spelling other) more
  constructor
  · intro chosen
    refine ⟨punctuator?_front chosen, ?_⟩
    intro other front
    obtain ⟨longer, found, le⟩ := atLeast other front
    rw [chosen] at found
    cases found
    exact le
  · rintro ⟨front, longest⟩
    obtain ⟨longer, found, le⟩ := atLeast mark front
    have other := punctuator?_front found
    -- Both are fronts of the text and of one length, so they are spelled alike.
    have length : mark.spelling.toList.length = longer.spelling.toList.length := by
      rw [String.length_toList, String.length_toList]
      exact Nat.le_antisymm le (longest longer other)
    have same : mark.spelling.toList = longer.spelling.toList :=
      (List.prefix_of_prefix_length_le front other (Nat.le_of_eq length)).eq_of_length length
    have again := punctuator?_spelling longer
    rw [← same, punctuator?_spelling mark] at again
    rw [found, again]

theorem punctuator?_eq_none :
    punctuator? text = none ↔ ∀ mark : Punctuator, ¬ mark.spelling.toList <+: text := by
  constructor
  · rintro missing mark ⟨more, rfl⟩
    obtain ⟨longer, found, _⟩ := punctuator?_append (punctuator?_spelling mark) more
    rw [missing] at found
    cases found
  · intro missing
    cases chosen : punctuator? text with
    | none => rfl
    | some mark => exact absurd (punctuator?_front chosen) (missing mark)

end Lexical

end CppsFrontend
