import StatsRelay.Proofs.Indented
import StatsRelay.Proofs.Numerals

/-! What the reader finds in the text of any value. Numbers are found as they are read, which may
differ from what they were, and null is found for a number that is not finite; the rest is found
as it was written. -/
namespace StatsRelay

open StatsRelay.Json (Value Number Literal Denotes nestingLimit)

namespace Document

def ofNumberText (number : Number) : Document := (Json.read (.ofList number.write)).document

mutual

def ofText : Value → Document
  | .null => null
  | .bool value => bool value
  | .number n => ofNumberText n
  | .string text => string (some text)
  | .array items => array (ofItemTexts items)
  | .object members => object (ofMemberTexts members)

def ofItemTexts : List Value → List Document
  | [] => []
  | item :: rest => ofText item :: ofItemTexts rest

def ofMemberTexts : List (String × Value) → List (Option String × Document)
  | [] => []
  | (name, value) :: rest => (some name, ofText value) :: ofMemberTexts rest

end

theorem ofItemTexts_eq_map (items : List Value) : ofItemTexts items = items.map ofText := by
  induction items with
  | nil => rfl
  | cons item rest ih => rw [ofItemTexts, ih, List.map_cons]

theorem ofMemberTexts_eq_map (members : List (String × Value)) :
    ofMemberTexts members = members.map fun member => (some member.1, ofText member.2) := by
  induction members with
  | nil => rfl
  | cons member rest ih => rw [ofMemberTexts, ih, List.map_cons]

end Document

namespace Json

open StatsRelay.Decimal

theorem read_of_denotes {text : List Char} {document : Document}
    (denotes : Denotes nestingLimit text document) : read (.ofList text) = ⟨document, true⟩ := by
  have found := read_of_denotes_append denotes Literal.ends_nil blank_nil
  rwa [List.append_nil] at found

/-- The text of a number is a literal, or null. -/
theorem Number.spells (number : Number) :
    (∃ literal : Literal, literal.WellFormed ∧ literal.spell = number.write) ∨
      number.write = ['n', 'u', 'l', 'l'] := by
  have float {f : Format} {layout : Layout} (fraction : layout.wholeFraction = true)
      (value : Binary f) : (∃ literal : Literal, literal.WellFormed ∧
        literal.spell = writeBinary layout value) ∨
          writeBinary layout value = ['n', 'u', 'l', 'l'] := by
    cases finite : value.isFinite with
    | true =>
      obtain ⟨literal, parted, spelled⟩ := writeBinary_spells fraction finite
      exact .inl ⟨literal, parted.toWellFormed, spelled⟩
    | false => exact .inr (writeBinary_not_finite finite)
  cases number with
  | integer value => exact .inl ⟨_, integerLiteral_wellFormed value, spell_integerLiteral value⟩
  | single value => exact float rfl value
  | double value => exact float rfl value

/-- The text of a number denotes what the reader finds in it. -/
theorem Number.denotes (number : Number) (room : Nat) :
    Denotes room number.write (.ofNumberText number) := by
  rcases number.spells with ⟨literal, formed, spelled⟩ | unwritten
  · have found := read_of_denotes (.number formed)
    rw [← spelled, Document.ofNumberText, ← spelled, found]
    exact .number formed
  · have found := read_of_denotes .null
    rw [unwritten, Document.ofNumberText, unwritten, found]
    exact .null

theorem mirrors_ofText : Mirrors Document.ofText where
  null := rfl
  bool _ := rfl
  string _ := rfl
  array items := by rw [Document.ofText, Document.ofItemTexts_eq_map]
  object members := by rw [Document.ofText, Document.ofMemberTexts_eq_map]

/-- Arrays and objects are nested no deeper than the room allows. -/
abbrev Value.Within (room : Nat) (value : Value) : Prop := value.Nested (fun _ => True) room

theorem Value.Nested.within {Good : Number → Prop} {room : Nat} {value : Value}
    (nested : value.Nested Good room) : value.Within room := by
  induction nested with
  | null => exact .null
  | bool value => exact .bool value
  | number => exact .number trivial
  | string text => exact .string text
  | array _ ih => exact .array ih
  | object _ ih => exact .object ih

theorem Number.Legible.ofNumberText_eq {number : Number} (legible : number.Legible) :
    Document.ofNumberText number = .number (some number) := by
  rw [Document.ofNumberText, read_of_denotes (legible.denotes nestingLimit)]
  rfl

theorem rendering_ofText : Rendering Document.ofText where
  null := rfl
  string _ := rfl
  integer low high := (Number.integer_legible low high).ofNumberText_eq
  array := mirrors_ofText.array
  object {members} _ := ⟨_, mirrors_ofText.object members, .refl _⟩

theorem Value.normalItems_eq_map (items : List Value) :
    Value.normalItems items = items.map Value.normal := by
  induction items with
  | nil => rfl
  | cons item rest ih => rw [Value.normalItems, ih, List.map_cons]

theorem rendering_normal : Rendering fun value => Document.ofText value.normal where
  null := rfl
  string _ := rfl
  integer low high := (Number.integer_legible low high).ofNumberText_eq
  array items := by
    rw [Value.normal, mirrors_ofText.array, Value.normalItems_eq_map, List.map_map]
    rfl
  object {members} distinct := by
    have names : ((Value.normalMembers members).map (·.1)).Nodup := by
      rwa [Value.normalMembers_eq_map, List.map_map]
    refine ⟨_, by rw [Value.normal, mirrors_ofText.object], ?_⟩
    refine ((SortedMap.ofList_entries_perm names).map _).trans (.of_eq ?_)
    rw [Value.normalMembers_eq_map, List.map_map]
    rfl

theorem Value.Within.normal {room : Nat} {value : Value} (within : value.Within room) :
    value.normal.Within room := by
  induction within with
  | null => exact .null
  | bool value => exact .bool value
  | number good => exact .number good
  | string text => exact .string text
  | array _ ih =>
    rw [Value.normal, Value.normalItems_eq_map]
    exact .array (List.forall_mem_map.mpr ih)
  | object _ ih =>
    rw [Value.normal, Value.normalMembers_eq_map]
    refine .object fun member member_mem => ?_
    obtain ⟨given, held, rfl⟩ := List.mem_map.mp (SortedMap.mem_of_mem_ofList member_mem)
    exact ih given held

/-- A value over several lines denotes the value. -/
theorem Value.Within.denotes_pretty {value : Value} (within : value.Within nestingLimit) :
    Denotes nestingLimit value.pretty.toList (.ofText value) := by
  rw [Value.pretty, String.toList_ofList]
  exact within.denotes_writeIndented mirrors_ofText (fun n _ => n.denotes) 0

/-- A value on one line is read to its end. -/
theorem read_compact {value : Value} (within : value.Within nestingLimit) :
    read value.compact = ⟨.ofText value, true⟩ :=
  read_of_denotes (within.denotes_write mirrors_ofText fun n _ => n.denotes)

end Json

end StatsRelay
