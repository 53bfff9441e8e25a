import CppsFrontend.Diagnosis.Json
import CppsFrontend.Proofs.Json.Reading
import CppsFrontend.Proofs.Output.Writing

/-!
# Diagnoses read back from JSON

The escapes of a text are undone character by character, so every message and every fix is
read back as it is.  An array that is written entry by entry is one value, in which each entry
has all that is known of it.
-/

set_option autoImplicit false

namespace CppsFrontend

open Json DiagnosisJson

/-! ## What is to be read -/

/-- A location without a line is none, and a column may be unknown. -/
def Location.json : Option Location → Json
  | some ⟨some line, some column⟩ =>
      .object [("line", .number line 0), ("column", .number column 0)]
  | some ⟨some line, none⟩ =>
      .object [("line", .number line 0), ("column", .null)]
  | some ⟨none, _⟩ => .null
  | none => .null

def Entry.fixJson : Option String → Json
  | some fix => .string fix
  | none => .null

def Entry.json (severity : Severity) (entry : Entry) : Json :=
  .object [("severity", .string severity.name), ("message", .string entry.message),
    ("fixMessage", Entry.fixJson entry.fix), ("location", Location.json entry.location)]

/-! ## Strings -/

theorem hexValue?_hexDigit (value : Nat) : hexValue? (hexDigit value) = some (value % 16) := by
  have each : ∀ digit < 16, hexValue? (Nat.digitChar digit) = some digit := by decide
  exact each (value % 16) (Nat.mod_lt value (by decide))

theorem codeUnit?_fourDigits {unit : Nat} (small : unit < 65536) (rest : List Char) :
    codeUnit? (fourDigits unit ++ rest) = some (unit, rest) := by
  have value : ((unit / 4096 % 16 * 16 + unit / 256 % 16) * 16 + unit / 16 % 16) * 16 +
      unit % 16 = unit := by omega
  simp only [fourDigits, List.cons_append, List.nil_append, codeUnit?, hexValue?_hexDigit,
    Option.bind_eq_bind, Option.bind_some, value]
  rfl

theorem codeUnits?_control {c : Char} (control : isControl c = true) (rest : List Char) :
    codeUnits? (fourDigits c.toNat ++ rest) = some (c, rest) := by
  have small : c.toNat < 0xa0 := by
    simp only [isControl, Bool.or_eq_true, Bool.and_eq_true, decide_eq_true_eq] at control
    omega
  have unit := codeUnit?_fourDigits (show c.toNat < 65536 by omega) rest
  simp only [codeUnits?, unit, Option.bind_eq_bind, Option.bind_some]
  rw [if_neg (by simp; omega), if_neg (by simp; omega), Char.ofNat_toNat]
  rfl

theorem character?_escape (c : Char) (rest : List Char) :
    character? (escapeChar c ++ rest) = some (c, rest) := by
  unfold escapeChar
  by_cases quote : c = '"'
  · rw [if_pos quote, quote]
    rfl
  by_cases backslash : c = '\\'
  · rw [if_neg quote, if_pos backslash, backslash]
    rfl
  by_cases newline : c = '\n'
  · rw [if_neg quote, if_neg backslash, if_pos newline, newline]
    rfl
  by_cases carriageReturn : c = '\r'
  · rw [if_neg quote, if_neg backslash, if_neg newline, if_pos carriageReturn, carriageReturn]
    rfl
  by_cases tab : c = '\t'
  · rw [if_neg quote, if_neg backslash, if_neg newline, if_neg carriageReturn, if_pos tab, tab]
    rfl
  rw [if_neg quote, if_neg backslash, if_neg newline, if_neg carriageReturn, if_neg tab]
  by_cases control : isControl c = true
  · rw [if_pos control]
    exact codeUnits?_control control rest
  · rw [if_neg control]
    have visible : ¬ (decide (c = '"') || decide (c.toNat < 0x20)) = true := by
      simp only [isControl, Bool.or_eq_true, decide_eq_true_eq] at control ⊢
      rintro (same | low)
      · exact quote same
      · exact control (.inl low)
    rw [List.singleton_append, character?]
    · exact if_neg visible
    · exact backslash

theorem characters?_next {text rest : List Char} {c : Char}
    (read : character? text = some (c, rest)) (count : Nat) :
    characters? (count + 1) text =
      (characters? count rest).map fun found => (c :: found.1, found.2) := by
  rw [characters?, read]
  · change (characters? count rest).bind _ = _
    cases characters? count rest <;> rfl
  · intro more same
    rw [same] at read
    cases read

/-- Escaped characters in front of a quote are read up to it. -/
theorem characters?_escape (text rest : List Char) {count : Nat} (enough : text.length ≤ count) :
    characters? count (text.flatMap escapeChar ++ '"' :: rest) = some (text, rest) := by
  induction text generalizing count with
  | nil => cases count <;> rfl
  | cons c text induction =>
      obtain ⟨count, rfl⟩ := Nat.exists_eq_succ_of_ne_zero (Nat.ne_zero_of_lt enough)
      rw [List.flatMap_cons, List.append_assoc, characters?_next (character?_escape c _),
        induction (Nat.le_of_succ_le_succ enough)]
      rfl

theorem escapeChar_ne_nil (c : Char) : escapeChar c ≠ [] := by
  unfold escapeChar
  repeat' split
  all_goals exact List.cons_ne_nil _ _

theorem length_escape (text : List Char) : text.length ≤ (text.flatMap escapeChar).length := by
  induction text with
  | nil => exact Nat.le_refl 0
  | cons c text induction =>
      have one := List.length_pos_iff.mpr (escapeChar_ne_nil c)
      rw [List.flatMap_cons, List.length_append, List.length_cons]
      omega

theorem toList_stringLiteral (text : String) :
    (stringLiteral text).toList = '"' :: text.toList.flatMap escapeChar ++ ['"'] := by
  simp [stringLiteral]

/-- A text in which nothing has to be escaped is put between quotes. -/
theorem stringLiteral_plain {text : String}
    (plain : text.toList.flatMap escapeChar = text.toList) :
    stringLiteral text = "\"" ++ text ++ "\"" := by
  rw [stringLiteral, plain, String.ofList_toList]

/-- A literal is read as its text, whatever stands in it. -/
theorem quotes_stringLiteral (text : String) : Quotes (stringLiteral text).toList text := by
  rw [toList_stringLiteral]
  refine ⟨⟨_, rfl⟩, ?_⟩
  intro rest
  have enough : text.toList.length ≤ (text.toList.flatMap escapeChar ++ '"' :: rest).length := by
    have inside := length_escape text.toList
    rw [List.length_append]
    omega
  rw [List.append_assoc, List.singleton_append, List.cons_append, string?,
    characters?_escape _ _ enough]
  exact congrArg (fun text => some (text, rest)) String.ofList_toList

/-! ## Members -/

/-- A member with the text that its value is written as, and the value that this is. -/
structure JsonMember where
  name : String
  text : String
  value : Json

namespace JsonMember

def letters (member : JsonMember) : List Char :=
  (stringLiteral member.name).toList ++ ':' :: member.text.toList

def pair (member : JsonMember) : String × Json := (member.name, member.value)

def ofString (name text : String) : JsonMember := ⟨name, stringLiteral text, .string text⟩

def ofFix (fix : Option String) : JsonMember :=
  ⟨"fixMessage", optionalString fix, Entry.fixJson fix⟩

def ofLocation (location : Option Location) : JsonMember :=
  ⟨"location", locationText location, Location.json location⟩

def ofNumber (name : String) (number : Nat) : JsonMember :=
  ⟨name, toString number, .number number 0⟩

def ofColumn : Option Nat → JsonMember
  | some column => ofNumber "column" column
  | none => ⟨"column", "null", .null⟩

def Reads (member : JsonMember) (depth : Nat) : Prop :=
  Json.Reads (value? depth) member.text.toList member.value

theorem ofString_reads (name text : String) (depth : Nat) :
    (ofString name text).Reads (depth + 1) :=
  value?_string depth (quotes_stringLiteral text)

theorem ofNumber_reads (name : String) (number depth : Nat) :
    (ofNumber name number).Reads (depth + 1) := by
  have digits : (toString number).toList = Nat.toDigits 10 number := String.toList_ofList
  unfold JsonMember.Reads ofNumber
  rw [digits]
  exact value?_number depth number

theorem ofColumn_reads (column : Option Nat) (depth : Nat) :
    (ofColumn column).Reads (depth + 1) := by
  cases column with
  | none => exact value?_null depth
  | some column => exact ofNumber_reads "column" column depth

theorem ofFix_reads (fix : Option String) (depth : Nat) : (ofFix fix).Reads (depth + 1) := by
  cases fix with
  | none => exact value?_null depth
  | some fix => exact ofString_reads "fixMessage" fix depth

end JsonMember

theorem value?_members (members : List JsonMember) {depth : Nat}
    (each : ∀ member ∈ members, member.Reads depth) :
    Reads (value? (depth + 1)) ('\x7b' :: listed (members.map JsonMember.letters) ++ ['\x7d'])
      (.object (members.map JsonMember.pair)) :=
  value?_object depth members fun member among =>
    member?_read (quotes_stringLiteral member.name) (each member among)

/-! ## Entries -/

namespace JsonMember

def ofLine (line : Nat) (column : Option Nat) : List JsonMember :=
  [ofNumber "line" line, ofColumn column]

theorem letters_ofLine (line : Nat) (column : Option Nat) :
    (locationText (some ⟨some line, column⟩)).toList =
      '\x7b' :: listed ((ofLine line column).map letters) ++ ['\x7d'] := by
  have lineName := @stringLiteral_plain "line" (by decide)
  have columnName := @stringLiteral_plain "column" (by decide)
  unfold locationText
  cases column <;> simp [ofLine, ofNumber, ofColumn, letters, listed, lineName, columnName]

theorem ofLocation_reads (location : Option Location) (depth : Nat) :
    (ofLocation location).Reads (depth + 2) := by
  match location with
  | none => exact value?_null (depth + 1)
  | some ⟨none, _⟩ => exact value?_null (depth + 1)
  | some ⟨some line, column⟩ =>
      have each : ∀ member ∈ ofLine line column, member.Reads (depth + 1) := by
        simp only [ofLine, List.forall_mem_cons]
        exact ⟨ofNumber_reads "line" line depth, ofColumn_reads column depth, nofun⟩
      have read := value?_members (ofLine line column) each
      rw [← letters_ofLine] at read
      cases column <;> exact read

def ofEntry (severity : Severity) (entry : Entry) : List JsonMember :=
  [ofString "severity" severity.name, ofString "message" entry.message, ofFix entry.fix,
    ofLocation entry.location]

theorem letters_ofEntry (severity : Severity) (entry : Entry) :
    (entryText severity entry).toList =
      '\x7b' :: listed ((ofEntry severity entry).map letters) ++ ['\x7d'] := by
  have severityName := @stringLiteral_plain "severity" (by decide)
  have messageName := @stringLiteral_plain "message" (by decide)
  have fixName := @stringLiteral_plain "fixMessage" (by decide)
  have locationName := @stringLiteral_plain "location" (by decide)
  have name := @stringLiteral_plain severity.name (by cases severity <;> decide)
  unfold entryText
  simp [ofEntry, ofString, ofFix, ofLocation, letters, listed, severityName, messageName,
    fixName, locationName, name]

theorem ofEntry_reads (severity : Severity) (entry : Entry) (depth : Nat) :
    Json.Reads (value? (depth + 3)) (entryText severity entry).toList
      (Entry.json severity entry) := by
  have each : ∀ member ∈ ofEntry severity entry, member.Reads (depth + 2) := by
    simp only [ofEntry, List.forall_mem_cons]
    exact ⟨ofString_reads "severity" severity.name _, ofString_reads "message" entry.message _,
      ofFix_reads entry.fix _, ofLocation_reads entry.location depth, nofun⟩
  rw [letters_ofEntry]
  exact value?_members (ofEntry severity entry) each

end JsonMember

/-! ## The whole array -/

def Entry.letters (item : Severity × Entry) : List Char := (entryText item.1 item.2).toList

theorem Entry.two_le_length (item : Severity × Entry) : 2 ≤ (Entry.letters item).length := by
  rw [Entry.letters, JsonMember.letters_ofEntry, List.length_append, List.length_cons,
    List.length_singleton]
  omega

def Entry.value (item : Severity × Entry) : Json := Entry.json item.1 item.2

/-- Entries between square brackets are one value; the brackets in a text are deep enough for
what stands in them. -/
theorem entries_decoded (items : List (Severity × Entry)) :
    decode? ("[" ++ String.ofList (listed (items.map Entry.letters)) ++ "]") =
      some (.array (items.map Entry.value)) := by
  have letters : ("[" ++ String.ofList (listed (items.map Entry.letters)) ++ "]").toList =
      '[' :: listed (items.map Entry.letters) ++ [']'] := by
    simp
  have length : ("[" ++ String.ofList (listed (items.map Entry.letters)) ++ "]").length =
      (listed (items.map Entry.letters)).length + 2 := by
    rw [← String.length_toList, letters]
    simp
  have each : ∀ item ∈ items, Reads (value? ((listed (items.map Entry.letters)).length + 1))
      (Entry.letters item) (Entry.value item) := by
    intro item among
    -- An entry nests to a depth of three, and with the brackets there are four characters.
    have long := Nat.le_trans (Entry.two_le_length item)
      (length_le_listed (List.mem_map_of_mem among))
    obtain ⟨depth, deep⟩ := Nat.exists_eq_add_of_le long
    rw [deep, Nat.add_comm 2 depth]
    exact JsonMember.ofEntry_reads item.1 item.2 depth
  apply decode?_read
  rw [length, letters]
  exact value?_array _ items each

namespace JsonEmitter

variable {emitter : JsonEmitter} {text : String}

theorem write_holds (holds : emitter.sink.Holds text) (more : String) :
    (emitter.write more).sink.Holds (text ++ more) := by
  obtain ⟨after, written, holdsAfter⟩ := holds.write more
  rw [write, written]
  exact holdsAfter

theorem emit_holds (holds : emitter.sink.Holds text) (severity : Severity) (entry : Entry) :
    (emitter.emit severity entry).sink.Holds
      (text ++ ((if emitter.first then "" else ",") ++ entryText severity entry)) := by
  rw [emit, ← String.append_assoc]
  cases first : emitter.first with
  | true =>
      rw [if_pos rfl, if_pos rfl, String.append_empty]
      exact write_holds holds _
  | false =>
      rw [if_neg Bool.false_ne_true, if_neg Bool.false_ne_true]
      exact write_holds (write_holds holds ",") _

/-- Behind the first entry, each one is written behind a comma. -/
theorem emit_others (items : List (Severity × Entry)) (others : emitter.first = false)
    (holds : emitter.sink.Holds text) :
    (items.foldl (fun emitter item => emitter.emit item.1 item.2) emitter).sink.Holds
      (text ++ String.ofList ((items.map Entry.letters).flatMap (',' :: ·))) := by
  induction items generalizing emitter text with
  | nil => simpa using holds
  | cons item items induction =>
      have one := emit_holds holds item.1 item.2
      rw [others] at one
      have rest := induction rfl one
      simpa [Entry.letters, String.ofList_cons, String.append_assoc] using rest

theorem emitAll_holds (diagnosis : Diagnosis) (start : emitter.first = true)
    (holds : emitter.sink.Holds text) :
    (emitter.emitAll diagnosis).sink.Holds
      (text ++ String.ofList (listed (diagnosis.entries.map Entry.letters))) := by
  unfold emitAll
  cases diagnosis.entries with
  | nil => simpa [listed] using holds
  | cons item items =>
      have one := emit_holds holds item.1 item.2
      rw [start] at one
      have rest := emit_others items rfl one
      simpa [Entry.letters, listed, String.append_assoc] using rest

/-- What is written of a diagnosis, up to the line break behind the array, is one value: the
entries, errors first, each with all that is known of it. -/
theorem emitAll_decoded (diagnosis : Diagnosis) :
    ∃ text, ((start (.empty none)).begin.emitAll diagnosis).finish.sink.bytes =
        (text ++ "\n").toUTF8 ∧
      decode? text = some (.array
        (diagnosis.errors.toList.map (Entry.json .error) ++
          diagnosis.warnings.toList.map (Entry.json .warning))) := by
  -- The bracket that is closed and the line break are written at once.
  have opened := @write_holds (start (.empty none)) "" Sink.Holds.empty "["
  rw [String.empty_append] at opened
  have listing := emitAll_holds diagnosis rfl opened
  have closed := write_holds listing "]\n"
  refine ⟨"[" ++ String.ofList (listed (diagnosis.entries.map Entry.letters)) ++ "]", ?_, ?_⟩
  · rw [@String.append_assoc _ "]" "\n"]
    exact closed.bytes
  · have items : diagnosis.entries.map Entry.value =
        diagnosis.errors.toList.map (Entry.json .error) ++
          diagnosis.warnings.toList.map (Entry.json .warning) := by
      rw [Diagnosis.entries, List.map_append, List.map_map, List.map_map]
      rfl
    rw [entries_decoded, items]

end JsonEmitter

end CppsFrontend
