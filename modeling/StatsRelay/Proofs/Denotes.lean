import StatsRelay.Proofs.Documents
import StatsRelay.Proofs.Literals
import StatsRelay.Proofs.Strings
import StatsRelay.Text.Blank

/-! The grammar of JSON texts, as far as the writers use it: literals with the sign of the exponent,
strings with the shortest escapes, and blanks around the parts of arrays and objects. The reader
finds what such a text denotes. -/
namespace StatsRelay.Json

def Blank (text : List Char) : Prop := ∀ c ∈ text, isBlank c = true

mutual

/-- A text that denotes a document, with arrays and objects no deeper than the room allows. -/
inductive Denotes : Nat → List Char → Document → Prop
  | null {room : Nat} : Denotes room ['n', 'u', 'l', 'l'] .null
  | bool {room : Nat} (value : Bool) :
    Denotes room (if value then ['t', 'r', 'u', 'e'] else ['f', 'a', 'l', 's', 'e']) (.bool value)
  | number {room : Nat} {literal : Literal} (formed : literal.WellFormed) :
    Denotes room literal.spell (.number literal.number?)
  | string {room : Nat} (text : String) : Denotes room (writeString text) (.string (some text))
  | emptyArray {room : Nat} : Denotes (room + 1) ['[', ']'] (.array [])
  | array {room : Nat} {before body : List Char} {items : List Document} (blank : Blank before)
    (each : DenotesItems room body items) :
    Denotes (room + 1) ('[' :: (before ++ body)) (.array items)
  | emptyObject {room : Nat} : Denotes (room + 1) ['\x7b', '\x7d'] (.object [])
  | object {room : Nat} {before body : List Char} {members : List (Option String × Document)}
    (blank : Blank before) (each : DenotesMembers room body members) :
    Denotes (room + 1) ('\x7b' :: (before ++ body)) (.object members)

/-- The items of an array that has one, and its end. -/
inductive DenotesItems : Nat → List Char → List Document → Prop
  | last {room : Nat} {text after : List Char} {item : Document} (first : Denotes room text item)
    (blank : Blank after) : DenotesItems room (text ++ (after ++ [']'])) [item]
  | more {room : Nat} {text after before body : List Char} {item : Document}
    {items : List Document} (first : Denotes room text item) (blank : Blank after)
    (blank' : Blank before) (others : DenotesItems room body items) :
    DenotesItems room (text ++ (after ++ ',' :: (before ++ body))) (item :: items)

/-- The members of an object that has one, and its end. -/
inductive DenotesMembers : Nat → List Char → List (Option String × Document) → Prop
  | last {room : Nat} {between text after : List Char} (name : String) {value : Document}
    (blank : Blank between) (first : Denotes room text value) (blank' : Blank after) :
    DenotesMembers room (writeString name ++ ':' :: (between ++ (text ++ (after ++ ['\x7d']))))
      [(some name, value)]
  | more {room : Nat} {between text after before body : List Char} (name : String)
    {value : Document} {members : List (Option String × Document)} (blank : Blank between)
    (first : Denotes room text value) (blank' : Blank after) (blank'' : Blank before)
    (others : DenotesMembers room body members) :
    DenotesMembers room
      (writeString name ++ ':' :: (between ++ (text ++ (after ++ ',' :: (before ++ body)))))
      ((some name, value) :: members)

end

theorem skipBlanks_append {before : List Char} (blank : Blank before) (rest : List Char) :
    skipBlanks (before ++ rest) = skipBlanks rest :=
  List.dropWhile_append_of_pos blank

theorem skipBlanks_cons {c : Char} (notBlank : isBlank c = false) (rest : List Char) :
    skipBlanks (c :: rest) = c :: rest := by
  simp [skipBlanks, notBlank]

theorem skipBlanks_append_cons {before : List Char} (blank : Blank before) {c : Char}
    (notBlank : isBlank c = false) (rest : List Char) :
    skipBlanks (before ++ c :: rest) = c :: rest := by
  rw [skipBlanks_append blank, skipBlanks_cons notBlank]

/-- Blanks before a value do not matter. -/
theorem readNested_blank {before : List Char} (blank : Blank before) (room : Nat)
    (text : List Char) : readNested room (before ++ text) = readNested room text := by
  cases room <;> simp only [readNested, readWith, skipBlanks_append blank]

theorem readItems_blank {before : List Char} (blank : Blank before) (room fuel : Nat)
    (text : List Char) :
    readItems (readNested room) fuel (before ++ text) = readItems (readNested room) fuel text := by
  cases fuel <;> simp only [readItems, readNested_blank blank]

theorem readMembers_blank {before : List Char} (blank : Blank before) (item : Step) (fuel : Nat)
    (text : List Char) : readMembers item fuel (before ++ text) = readMembers item fuel text := by
  cases fuel <;> simp only [readMembers, skipBlanks_append blank]

private theorem not_literal_of_blank {c : Char} (blank : isBlank c = true) :
    c.isDigit = false ∧ c ≠ '.' ∧ c ≠ 'e' ∧ c ≠ 'E' := by
  simp only [isBlank, Bool.or_eq_true, decide_eq_true_eq] at blank
  rcases blank with ((rfl | rfl) | rfl) | rfl <;> decide

private theorem ends_append {after rest : List Char} (blank : Blank after)
    (ends : Literal.Ends rest) : Literal.Ends (after ++ rest) := by
  cases after with
  | nil => exact ends
  | cons c after =>
    intro first found
    obtain rfl := Option.some.inj found
    exact not_literal_of_blank (blank c List.mem_cons_self)

private def closings : List Char := [',', ']', '\x7d']

private theorem filled_closing (c : Char) (closing : c ∈ closings) : isBlank c = false := by
  simp only [closings, List.mem_cons, List.not_mem_nil, or_false] at closing
  rcases closing with rfl | rfl | rfl <;> decide

private theorem ends_closing (c : Char) (closing : c ∈ closings) (rest : List Char) :
    Literal.Ends (c :: rest) := by
  intro first found
  obtain rfl := Option.some.inj found
  simp only [closings, List.mem_cons, List.not_mem_nil, or_false] at closing
  rcases closing with rfl | rfl | rfl <;> decide

private def isNumeric (c : Char) : Bool := c = '-' || c.isDigit

private theorem spell_head {literal : Literal} (formed : literal.WellFormed) :
    ∃ c rest, literal.spell = c :: rest ∧ isNumeric c = true := by
  obtain ⟨negative, _ | ⟨first, others⟩, _, _, _⟩ := literal
  · exact absurd rfl formed.filled
  · have digit := formed.whole first List.mem_cons_self
    cases negative
    · exact ⟨_, _, rfl, by simp [isNumeric, digit]⟩
    · exact ⟨_, _, rfl, by simp [isNumeric]⟩

private theorem isNumeric_ne {c : Char} (numeric : isNumeric c = true) :
    isBlank c = false ∧ c ≠ ']' ∧ c ≠ '[' ∧ c ≠ '\x7b' ∧ c ≠ '"' ∧ c ≠ 'n' ∧ c ≠ 't' ∧ c ≠ 'f' := by
  refine ⟨?_, ?_, ?_, ?_, ?_, ?_, ?_, ?_⟩
  · cases blank : isBlank c with
    | false => rfl
    | true =>
      simp only [isBlank, Bool.or_eq_true, decide_eq_true_eq] at blank
      rcases blank with ((rfl | rfl) | rfl) | rfl <;> revert numeric <;> decide
  all_goals
    rintro rfl
    revert numeric
    decide

theorem readNested_literal {literal : Literal} (formed : literal.WellFormed) (room : Nat)
    {rest : List Char} (ends : Literal.Ends rest) :
    readNested room (literal.spell ++ rest) = (.number literal.number?, some rest) := by
  have taken := Literal.take?_spell formed ends
  obtain ⟨c, others, starts, numeric⟩ := spell_head formed
  obtain ⟨blank, _, array, object, quote, n, t, f⟩ := isNumeric_ne numeric
  rw [starts, List.cons_append] at taken ⊢
  cases room <;>
    simp [readNested, readWith, skipBlanks_cons blank, readScalar, array, object, quote, n, t, f,
      taken]

theorem readNested_string (room : Nat) (text : String) (rest : List Char) :
    readNested room (writeString text ++ rest) = (.string (some text), some rest) := by
  have read := readString_escape text rest
  have shape : writeString text ++ rest = '"' :: (text.toList.flatMap escape ++ '"' :: rest) := by
    simp [writeString]
  rw [shape]
  cases room <;> simp [readNested, readWith, skipBlanks, isBlank, readScalar, read]

/-- The first character of a text tells it apart from blanks and ends. -/
theorem Denotes.head {room : Nat} {text : List Char} {document : Document}
    (denotes : Denotes room text document) :
    ∃ c rest, text = c :: rest ∧ isBlank c = false ∧ c ≠ ']' := by
  cases denotes with
  | null => exact ⟨_, _, rfl, by decide, by decide⟩
  | bool value => cases value <;> exact ⟨_, _, rfl, by decide, by decide⟩
  | number formed =>
    obtain ⟨c, rest, starts, numeric⟩ := spell_head formed
    exact ⟨c, rest, starts, (isNumeric_ne numeric).1, (isNumeric_ne numeric).2.1⟩
  | string text => exact ⟨_, _, rfl, by decide, by decide⟩
  | emptyArray => exact ⟨_, _, rfl, by decide, by decide⟩
  | array blank each => exact ⟨_, _, rfl, by decide, by decide⟩
  | emptyObject => exact ⟨_, _, rfl, by decide, by decide⟩
  | object blank each => exact ⟨_, _, rfl, by decide, by decide⟩

theorem DenotesItems.head {room : Nat} {body : List Char} {items : List Document}
    (each : DenotesItems room body items) :
    ∃ c rest, body = c :: rest ∧ isBlank c = false ∧ c ≠ ']' := by
  cases each with
  | last first blank =>
    obtain ⟨c, rest, rfl, notBlank, other⟩ := first.head
    exact ⟨c, _, rfl, notBlank, other⟩
  | more first blank blank' others =>
    obtain ⟨c, rest, rfl, notBlank, other⟩ := first.head
    exact ⟨c, _, rfl, notBlank, other⟩

/-- There are no more items than characters, so the text is fuel enough. -/
theorem DenotesItems.length_le {room : Nat} {body : List Char} {items : List Document}
    (each : DenotesItems room body items) : items.length ≤ body.length := by
  induction items generalizing body with
  | nil => exact Nat.zero_le _
  | cons item items ih =>
    cases each with
    | last first blank => simp; omega
    | more first blank blank' others =>
      have := ih others
      simp
      omega

theorem DenotesMembers.length_le {room : Nat} {body : List Char}
    {members : List (Option String × Document)} (each : DenotesMembers room body members) :
    members.length ≤ body.length := by
  induction members generalizing body with
  | nil => exact Nat.zero_le _
  | cons member members ih =>
    cases each with
    | last first blank => simp; omega
    | more name blank first blank' blank'' others =>
      have := ih others
      simp
      omega

section

variable {item : Step} {before text others : List Char} {c : Char} {rest : Option (List Char)}
  (blank : Blank before) (starts : text = c :: others) (notBlank : isBlank c = false)

include blank starts notBlank

private theorem readWith_array (apart : c ≠ ']') {items : List Document}
    (read : readItems item (text.length + 1) text = (items, rest)) :
    readWith (some item) ('[' :: (before ++ text)) = (.array items, rest) := by
  subst starts
  rw [readWith, skipBlanks_cons (by decide)]
  simp only [skipBlanks_append_cons blank notBlank]
  split
  · rename_i same
    exact absurd (List.cons.inj same).1 apart
  · rw [read]

private theorem readWith_object (apart : c ≠ '\x7d')
    {members : List (Option String × Document)}
    (read : readMembers item (text.length + 1) text = (members, rest)) :
    readWith (some item) ('\x7b' :: (before ++ text)) = (.object members, rest) := by
  subst starts
  rw [readWith, skipBlanks_cons (by decide)]
  simp only [skipBlanks_append_cons blank notBlank]
  split
  · rename_i same
    exact absurd (List.cons.inj same).1 apart
  · rw [read]

end

theorem DenotesMembers.head {room : Nat} {body : List Char}
    {members : List (Option String × Document)} (each : DenotesMembers room body members) :
    ∃ rest, body = '"' :: rest := by
  cases each <;> exact ⟨_, rfl⟩

mutual

/-- The reader finds what a text denotes, and stops after it. -/
theorem Denotes.read {room : Nat} {text : List Char} {document : Document} :
    Denotes room text document → ∀ {rest : List Char}, Literal.Ends rest →
      readNested room (text ++ rest) = (document, some rest)
  | .null, rest, _ => by cases room <;> rfl
  | .bool value, rest, _ => by cases value <;> cases room <;> rfl
  | .number formed, rest, ends => readNested_literal formed room ends
  | .string text, rest, _ => readNested_string room text rest
  | .emptyArray, rest, _ => rfl
  | .array blank each, rest, _ => by
    obtain ⟨c, others, starts, notBlank, apart⟩ := each.head
    -- The reader allows as many items as the text has characters, and none has fewer than one.
    have read := each.read rest (Nat.le_trans each.length_le (Nat.le_add_right _ (rest.length + 1)))
    rw [List.cons_append, List.append_assoc, readNested]
    apply readWith_array blank (by rw [starts, List.cons_append]) notBlank apart
    rwa [List.length_append, Nat.add_assoc]
  | .emptyObject, rest, _ => rfl
  | .object blank each, rest, _ => by
    obtain ⟨others, starts⟩ := each.head
    have read := each.read rest (Nat.le_trans each.length_le (Nat.le_add_right _ (rest.length + 1)))
    rw [List.cons_append, List.append_assoc, readNested]
    apply readWith_object blank (by rw [starts, List.cons_append]) (by decide) (by decide)
    rwa [List.length_append, Nat.add_assoc]

theorem DenotesItems.read {room : Nat} {body : List Char} {items : List Document} :
    DenotesItems room body items → ∀ {fuel : Nat} (rest : List Char), items.length ≤ fuel →
      readItems (readNested room) fuel (body ++ rest) = (items, some rest)
  | .last first blank, fuel + 1, rest, _ => by
    have item := first.read (ends_append blank (ends_closing ']' (by decide) rest))
    have skipped := skipBlanks_append_cons blank (filled_closing ']' (by decide)) rest
    simp [readItems, item, skipped]
  | .more first blank blank' others, fuel + 1, rest, enough => by
    have item tail := first.read (ends_append blank (ends_closing ',' (by decide) tail))
    have skipped := skipBlanks_append_cons blank (filled_closing ',' (by decide))
    have items := others.read rest (Nat.le_of_succ_le_succ enough)
    rw [← readItems_blank blank'] at items
    simp [readItems, item, skipped, items]

theorem DenotesMembers.read {room : Nat} {body : List Char}
    {members : List (Option String × Document)} :
    DenotesMembers room body members → ∀ {fuel : Nat} (rest : List Char), members.length ≤ fuel →
      readMembers (readNested room) fuel (body ++ rest) = (members, some rest)
  | .last name blank first blank', fuel + 1, rest, _ => by
    have value := first.read (ends_append blank' (ends_closing '\x7d' (by decide) rest))
    rw [← readNested_blank blank] at value
    have skipped := skipBlanks_append_cons blank' (filled_closing '\x7d' (by decide)) rest
    have named := readString_escape name
    simp [readMembers, writeString, skipBlanks_cons, isBlank, named, value, skipped]
  | .more name blank first blank' blank'' others, fuel + 1, rest, enough => by
    have value tail := first.read (ends_append blank' (ends_closing ',' (by decide) tail))
    have skipped := skipBlanks_append_cons blank' (filled_closing ',' (by decide))
    have named := readString_escape name
    have members := others.read rest (Nat.le_of_succ_le_succ enough)
    rw [← readMembers_blank blank''] at members
    simp [readMembers, writeString, skipBlanks_cons, isBlank, named, readNested_blank blank, value,
      skipped, members]

end

mutual

/-- The room that a text needs is no more than its length. -/
theorem Denotes.roomy {room room' : Nat} {text : List Char} {document : Document} :
    Denotes room text document → text.length ≤ room' → Denotes room' text document
  | .null, _ => .null
  | .bool value, _ => .bool value
  | .number formed, _ => .number formed
  | .string text, _ => .string text
  | .emptyArray, enough => by
    obtain ⟨room', rfl⟩ := Nat.exists_eq_add_of_le' (Nat.le_of_succ_le enough)
    exact .emptyArray
  | .array blank each, enough => by
    rw [List.length_cons, List.length_append] at enough
    obtain ⟨room', rfl⟩ := Nat.exists_eq_add_of_le' (Nat.le_trans (Nat.le_add_left 1 _) enough)
    exact .array blank (each.roomy (by omega))
  | .emptyObject, enough => by
    obtain ⟨room', rfl⟩ := Nat.exists_eq_add_of_le' (Nat.le_of_succ_le enough)
    exact .emptyObject
  | .object blank each, enough => by
    rw [List.length_cons, List.length_append] at enough
    obtain ⟨room', rfl⟩ := Nat.exists_eq_add_of_le' (Nat.le_trans (Nat.le_add_left 1 _) enough)
    exact .object blank (each.roomy (by omega))

theorem DenotesItems.roomy {room room' : Nat} {body : List Char} {items : List Document} :
    DenotesItems room body items → body.length ≤ room' → DenotesItems room' body items
  | .last first blank, enough => by
    rw [List.length_append] at enough
    exact .last (first.roomy (by omega)) blank
  | .more first blank blank' others, enough => by
    simp only [List.length_append, List.length_cons] at enough
    exact .more (first.roomy (by omega)) blank blank' (others.roomy (by omega))

theorem DenotesMembers.roomy {room room' : Nat} {body : List Char}
    {members : List (Option String × Document)} :
    DenotesMembers room body members → body.length ≤ room' → DenotesMembers room' body members
  | .last name blank first blank', enough => by
    simp only [List.length_append, List.length_cons] at enough
    exact .last name blank (first.roomy (by omega)) blank'
  | .more name blank first blank' blank'' others, enough => by
    simp only [List.length_append, List.length_cons] at enough
    exact .more name blank (first.roomy (by omega)) blank' blank'' (others.roomy (by omega))

end

mutual

/-- What is denoted within a room is not nested deeper than that. -/
theorem Denotes.bounded {room : Nat} {text : List Char} {document : Document} :
    Denotes room text document → document.bounded room = document
  | .null => Document.bounded_null room
  | .bool _ => Document.bounded_bool room _
  | .number _ => Document.bounded_number room _
  | .string _ => Document.bounded_string room _
  | .emptyArray => rfl
  | .array _ each => congrArg Document.array each.bounded
  | .emptyObject => rfl
  | .object _ each => congrArg Document.object each.bounded

theorem DenotesItems.bounded {room : Nat} {body : List Char} {items : List Document} :
    DenotesItems room body items → Document.boundedItems room items = items
  | .last first _ => congrArg (· :: []) first.bounded
  | .more first _ _ others => congrArg₂ List.cons first.bounded others.bounded

theorem DenotesMembers.bounded {room : Nat} {body : List Char}
    {members : List (Option String × Document)} :
    DenotesMembers room body members → Document.boundedMembers room members = members
  | .last name _ first _ => congrArg (fun value => [(some name, value)]) first.bounded
  | .more name _ first _ _ others =>
    congrArg₂ (fun value members => (some name, value) :: members) first.bounded others.bounded

end

/-- A whole text is read as the document that it denotes, with blanks behind it or without. -/
theorem read_of_denotes_append {text rest : List Char} {document : Document}
    (denotes : Denotes nestingLimit text document) (ends : Literal.Ends rest) (blank : Blank rest) :
    Json.read (.ofList (text ++ rest)) = ⟨document, true⟩ := by
  have roomy : Denotes (text ++ rest).length text document := denotes.roomy (by simp)
  have skipped := skipBlanks_append blank []
  rw [Json.read, String.toList_ofList, roomy.read ends]
  dsimp only
  rw [List.append_nil] at skipped
  rw [denotes.bounded, skipped]
  rfl

private theorem not_initial_of_blank {c : Char} (blank : Text.isBlank c = true) :
    c ∉ ['[', '\x7b', '"', 'n', 't', 'f', '-'] ∧ c.isDigit = false := by
  constructor
  · intro listed
    simp only [List.mem_cons, List.not_mem_nil, or_false] at listed
    rcases listed with rfl | rfl | rfl | rfl | rfl | rfl | rfl <;> exact absurd blank (by decide)
  · rw [← Bool.not_eq_true]
    intro digit
    obtain ⟨low, high⟩ : 48 ≤ c.toNat ∧ c.toNat ≤ 57 := by
      simpa [Char.isDigit, UInt32.le_iff_toNat_le] using digit
    simp [Text.isBlank, Text.blankRanges] at blank
    omega

/-- There is no document in blanks, of whatever kind they are. -/
theorem read_of_blank {text : String} (blank : ∀ c ∈ text.toList, Text.isBlank c = true) :
    Json.read text = ⟨.fault, false⟩ := by
  have broken (room : Nat) : readNested room text.toList = broken := by
    obtain ⟨item, same⟩ : ∃ item, readNested room = readWith item := by
      cases room <;> exact ⟨_, rfl⟩
    rw [same, readWith]
    cases rest : skipBlanks text.toList with
    | nil => rfl
    | cons c others =>
      have c_mem : c ∈ text.toList := by
        have suffix := List.dropWhile_suffix (l := text.toList) isBlank
        rw [skipBlanks] at rest
        rw [rest] at suffix
        exact suffix.subset List.mem_cons_self
      obtain ⟨mark, digit⟩ := not_initial_of_blank (blank c c_mem)
      simp only [List.mem_cons, List.not_mem_nil, or_false, not_or] at mark
      obtain ⟨array, object, quote, n, t, f, minus⟩ := mark
      have taken : Literal.take? (c :: others) = none := by
        simp [Literal.take?, Literal.takeWhole, Literal.takeDigits,
          List.span_eq_takeWhile_dropWhile, minus, digit]
      simp [readScalar, array, object, quote, n, t, f, taken]
  rw [read, broken]
  rfl

end StatsRelay.Json
