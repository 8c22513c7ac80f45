import StatsRelay.Proofs.Denotes
import StatsRelay.Proofs.Documents

/-! Values on one line: what is written for a value denotes it and has no control characters. -/
namespace StatsRelay.Json

/-- Values whose numbers are read back, with arrays and objects nested no deeper than the room
allows. -/
inductive Value.Legible : Nat → Value → Prop
  | null {room : Nat} : Legible room .null
  | bool {room : Nat} (value : Bool) : Legible room (.bool value)
  | number {room : Nat} {n : Number} (legible : n.Legible) : Legible room (.number n)
  | string {room : Nat} (text : String) : Legible room (.string text)
  | array {room : Nat} {items : List Value} (each : ∀ item ∈ items, Legible room item) :
    Legible (room + 1) (.array items)
  | object {room : Nat} {members : List (String × Value)}
    (each : ∀ member ∈ members, Legible room member.2) : Legible (room + 1) (.object members)

theorem Value.Legible.entries {α : Type} {room : Nat} {entries : List (String × α)}
    {write : α → Value} (each : ∀ entry ∈ entries, (write entry.2).Legible room) :
    Legible (room + 1) (.object (entries.map fun entry => (entry.1, write entry.2))) := by
  apply Legible.object
  intro member member_mem
  obtain ⟨entry, held, rfl⟩ := List.mem_map.mp member_mem
  exact each entry held

theorem blank_nil : Blank [] := fun _ none_mem => nomatch none_mem

section

variable {room : Nat} {found : Value → Document}

theorem denotes_writeItems {item : Value} {items : List Value}
    (each : ∀ item' ∈ item :: items, Denotes room item'.write (found item')) :
    DenotesItems room (item.write ++ Value.writeItems items) ((item :: items).map found) := by
  induction items generalizing item with
  | nil => exact .last (each item List.mem_cons_self) blank_nil
  | cons next items ih =>
    obtain ⟨first, others⟩ := List.forall_mem_cons.mp each
    have denotes := DenotesItems.more first blank_nil blank_nil (ih others)
    simpa [Value.writeItems] using denotes

theorem denotes_writeMembers {name : String} {value : Value} {members : List (String × Value)}
    (each : ∀ member ∈ (name, value) :: members, Denotes room member.2.write (found member.2)) :
    DenotesMembers room (writeString name ++ ':' :: (value.write ++ Value.writeMembers members))
      (((name, value) :: members).map fun member => (some member.1, found member.2)) := by
  induction members generalizing name value with
  | nil => exact .last name blank_nil (each _ List.mem_cons_self) blank_nil
  | cons next members ih =>
    obtain ⟨first, others⟩ := List.forall_mem_cons.mp each
    have denotes := DenotesMembers.more name blank_nil first blank_nil blank_nil (ih others)
    simpa [Value.writeMembers] using denotes

end

/-- Values whose numbers are good, with arrays and objects nested no deeper than the room allows. -/
inductive Value.Nested (Good : Number → Prop) : Nat → Value → Prop
  | null {room : Nat} : Nested Good room .null
  | bool {room : Nat} (value : Bool) : Nested Good room (.bool value)
  | number {room : Nat} {n : Number} (good : Good n) : Nested Good room (.number n)
  | string {room : Nat} (text : String) : Nested Good room (.string text)
  | array {room : Nat} {items : List Value} (each : ∀ item ∈ items, Nested Good room item) :
    Nested Good (room + 1) (.array items)
  | object {room : Nat} {members : List (String × Value)}
    (each : ∀ member ∈ members, Nested Good room member.2) : Nested Good (room + 1) (.object members)

namespace Value.Nested

variable {Good : Number → Prop} {room : Nat}

@[simp] theorem null_nested : Nested Good room .null := .null
@[simp] theorem bool_nested (value : Bool) : Nested Good room (.bool value) := .bool value
@[simp] theorem string_nested (text : String) : Nested Good room (.string text) := .string text

@[simp] theorem number_iff {n : Number} : Nested Good room (.number n) ↔ Good n :=
  ⟨fun | .number good => good, .number⟩

@[simp] theorem array_iff {items : List Value} :
    Nested Good (room + 1) (.array items) ↔ ∀ item ∈ items, Nested Good room item :=
  ⟨fun | .array each => each, .array⟩

@[simp low] theorem object_iff {members : List (String × Value)} :
    Nested Good (room + 1) (.object members) ↔ ∀ member ∈ members, Nested Good room member.2 :=
  ⟨fun | .object each => each, .object⟩

@[simp] theorem object_map_iff {α : Type} {entries : List α} {name : α → String}
    {write : α → Value} :
    Nested Good (room + 1) (.object (entries.map fun entry => (name entry, write entry))) ↔
      ∀ entry ∈ entries, Nested Good room (write entry) :=
  object_iff.trans List.forall_mem_map

theorem deeper {value : Value} (nested : Nested Good room value) :
    Nested Good (room + 1) value := by
  induction nested with
  | null => exact .null
  | bool value => exact .bool value
  | number good => exact .number good
  | string text => exact .string text
  | array _ ih => exact .array ih
  | object _ ih => exact .object ih

end Value.Nested

theorem Value.Legible.nested {room : Nat} {value : Value} (legible : value.Legible room) :
    value.Nested Number.Legible room := by
  induction legible with
  | null => exact .null
  | bool value => exact .bool value
  | number legible => exact .number legible
  | string text => exact .string text
  | array _ ih => exact .array ih
  | object _ ih => exact .object ih

/-- All but numbers is found as it is. -/
structure Mirrors (found : Value → Document) : Prop where
  null : found .null = .null
  bool (value : Bool) : found (.bool value) = .bool value
  string (text : String) : found (.string text) = .string (some text)
  array (items : List Value) : found (.array items) = .array (items.map found)
  object (members : List (String × Value)) :
    found (.object members) = .object (members.map fun member => (some member.1, found member.2))

theorem mirrors_ofValue : Mirrors Document.ofValue where
  null := rfl
  bool _ := rfl
  string _ := rfl
  array items := by rw [Document.ofValue, Document.ofItems_eq_map]
  object members := by rw [Document.ofValue, Document.ofMembers_eq_map]

/-- A value on one line denotes the value, as far as each number denotes itself. -/
theorem Value.Nested.denotes_write {found : Value → Document} (mirrors : Mirrors found)
    {Good : Number → Prop}
    (numbers : ∀ n, Good n → ∀ room, Denotes room n.write (found (.number n)))
    {room : Nat} {value : Value} (nested : value.Nested Good room) :
    Denotes room value.write (found value) := by
  induction nested with
  | null => exact mirrors.null ▸ .null
  | bool value =>
    rw [mirrors.bool]
    cases value with
    | false => exact .bool false
    | true => exact .bool true
  | number good => exact numbers _ good _
  | string text => exact mirrors.string text ▸ .string text
  | @array room items each ih =>
    rw [mirrors.array]
    cases items with
    | nil => exact .emptyArray
    | cons item items =>
      have denotes := Denotes.array blank_nil (denotes_writeItems ih)
      simpa [Value.write] using denotes
  | @object room members each ih =>
    rw [mirrors.object]
    cases members with
    | nil => exact .emptyObject
    | cons member members =>
      have denotes := Denotes.object blank_nil (denotes_writeMembers ih)
      simpa [Value.write] using denotes

theorem Number.Legible.denotes {number : Number} (legible : number.Legible) (room : Nat) :
    Denotes room number.write (.ofValue (.number number)) := by
  obtain ⟨literal, formed, spelled, read⟩ := legible
  rw [← spelled, Document.ofValue, ← read]
  exact .number formed

theorem Value.Legible.denotes_write {room : Nat} {value : Value} (legible : value.Legible room) :
    Denotes room value.write (.ofValue value) :=
  legible.nested.denotes_write mirrors_ofValue fun _ => Number.Legible.denotes

theorem parse?_of_denotes {text : List Char} {document : Document}
    (denotes : Denotes nestingLimit text document) :
    Value.parse? (.ofList text) = document.value? := by
  have read := read_of_denotes_append denotes Literal.ends_nil blank_nil
  rw [List.append_nil] at read
  rw [Value.parse?, read]
  rfl

/-- A value is parsed back from its text on one line. -/
theorem parse?_compact {value : Value} (legible : value.Legible nestingLimit) :
    Value.parse? value.compact = some value := by
  rw [Value.compact, parse?_of_denotes legible.denotes_write, Document.value?_ofValue]

def Printable (text : List Char) : Prop := ∀ c ∈ text, 0x20 ≤ c.toNat

namespace Printable

variable {c : Char} {first second : List Char}

@[simp] theorem append_iff : Printable (first ++ second) ↔ Printable first ∧ Printable second :=
  List.forall_mem_append

@[simp] theorem cons_iff : Printable (c :: first) ↔ 0x20 ≤ c.toNat ∧ Printable first :=
  List.forall_mem_cons

@[simp] theorem nil : Printable [] := fun _ none_mem => nomatch none_mem

theorem of_digits (digits : ∀ c ∈ first, c.isDigit = true) : Printable first := by
  intro c c_mem
  have digit := digits c c_mem
  simp only [Char.isDigit, Bool.and_eq_true, decide_eq_true_eq, ge_iff_le,
    UInt32.le_iff_toNat_le] at digit
  exact Nat.le_trans (by decide) digit.1

theorem toDigits (n : Nat) : Printable (Nat.toDigits 10 n) :=
  of_digits fun _ => Nat.isDigit_of_mem_toDigits (by decide) (by decide)

theorem of_subset (isSubset : first ⊆ second) (printable : Printable second) : Printable first :=
  fun c listed => printable c (isSubset listed)

end Printable

open StatsRelay.Decimal

theorem plain_printable (layout : Layout) {digits : List Char} (exponent : Int)
    (printable : Printable digits) : Printable (layout.plain digits exponent) := by
  have zeros (count : Nat) : Printable (Layout.zeros count) := by
    intro c c_mem
    rw [List.eq_of_mem_replicate c_mem]
    decide
  have taken count := Printable.of_subset (List.take_subset count digits) printable
  have dropped count := Printable.of_subset (List.drop_subset count digits) printable
  unfold Layout.plain
  simp only
  split
  · split <;> simp [printable, zeros]
  · split <;> simp [printable, zeros, taken, dropped]

theorem scientific_printable {digits : List Char} (power : Int) (printable : Printable digits) :
    Printable (Layout.scientific digits power) := by
  have exponent : Printable ('e' :: (if power < 0 then '-' else '+') ::
      Nat.toDigits 10 power.natAbs) := by
    split <;> simp [Printable.toDigits]
  refine Printable.append_iff.mpr ⟨?_, exponent⟩
  rcases digits with _ | ⟨first, _ | ⟨second, rest⟩⟩
  · exact printable
  · exact printable
  · obtain ⟨first, others⟩ := Printable.cons_iff.mp printable
    exact Printable.cons_iff.mpr ⟨first, Printable.cons_iff.mpr ⟨by decide, others⟩⟩

theorem writeFinite_printable (layout : Layout) (f : Format) (negative : Bool) (significand : Nat)
    (exponent : Int) : Printable (layout.writeFinite f negative significand exponent) := by
  refine Printable.append_iff.mpr ⟨by split <;> simp, ?_⟩
  unfold Layout.writeNumeral
  simp only
  split
  · exact plain_printable layout _ (.toDigits _)
  · exact scientific_printable _ (.toDigits _)

theorem writeBinary_printable {f : Format} (layout : Layout) (value : Binary f) :
    Printable (writeBinary layout value) := by
  unfold writeBinary
  split
  · exact writeFinite_printable layout f _ _ _
  · simp

theorem writeNumber_printable (number : Number) : Printable number.write := by
  cases number with
  | integer value => exact Printable.append_iff.mpr ⟨by split <;> simp, .toDigits _⟩
  | single value => exact writeBinary_printable _ value
  | double value => exact writeBinary_printable _ value

mutual

/-- No value has a control character in its text. -/
theorem write_printable : (value : Value) → Printable value.write
  | .null => by simp [Value.write]
  | .bool true => by simp [Value.write]
  | .bool false => by simp [Value.write]
  | .number n => writeNumber_printable n
  | .string text => writeString_printable text
  | .array [] => by simp [Value.write]
  | .array (item :: rest) => by
    simp [Value.write, write_printable item, writeItems_printable rest]
  | .object [] => by simp [Value.write]
  | .object ((name, value) :: rest) => by
    have named : Printable (writeString name) := writeString_printable name
    simp [Value.write, named, write_printable value, writeMembers_printable rest]

theorem writeItems_printable : (items : List Value) → Printable (Value.writeItems items)
  | [] => by simp [Value.writeItems]
  | item :: rest => by
    simp [Value.writeItems, write_printable item, writeItems_printable rest]

theorem writeMembers_printable :
    (members : List (String × Value)) → Printable (Value.writeMembers members)
  | [] => by simp [Value.writeMembers]
  | (name, value) :: rest => by
    have named : Printable (writeString name) := writeString_printable name
    simp [Value.writeMembers, named, write_printable value, writeMembers_printable rest]

end

end StatsRelay.Json
