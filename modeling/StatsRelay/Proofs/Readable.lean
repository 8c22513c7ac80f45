import StatsRelay.Proofs.Compact

/-! The values that are found in texts. Their numbers stand in well formed literals, and they are
nested no deeper than the reader goes; all such values have texts. -/
namespace StatsRelay.Json

def Number.Spelled (number : Number) : Prop :=
  ∃ literal : Literal, literal.WellFormed ∧ literal.number? = some number

section

variable {item : Step} {Good : Document → Prop} (fault : Good .fault)
  (each : ∀ text, Good (item text).1)
include fault each

theorem forall_readItems (fuel : Nat) (text : List Char) :
    ∀ document ∈ (readItems item fuel text).1, Good document := by
  induction fuel generalizing text with
  | zero => exact List.forall_mem_singleton.mpr fault
  | succ fuel ih =>
    have first := each text
    unfold readItems
    split
    · rename_i found
      rw [found] at first
      exact List.forall_mem_singleton.mpr first
    · rename_i found
      rw [found] at first
      split
      · exact List.forall_mem_cons.mpr ⟨first, ih _⟩
      · exact List.forall_mem_singleton.mpr first
      · exact List.forall_mem_cons.mpr ⟨first, List.forall_mem_singleton.mpr fault⟩

theorem forall_readMembers (fuel : Nat) (text : List Char) :
    ∀ member ∈ (readMembers item fuel text).1, Good member.2 := by
  induction fuel generalizing text with
  | zero => exact List.forall_mem_singleton.mpr fault
  | succ fuel ih =>
    have alone {name : Option String} {document : Document} (good : Good document) :
        ∀ member ∈ [(name, document)], Good member.2 := List.forall_mem_singleton.mpr good
    unfold readMembers
    split
    · split
      · exact alone fault
      · split
        · rename_i text _
          have first := each text
          split
          · rename_i found
            rw [found] at first
            exact alone first
          · rename_i found
            rw [found] at first
            split
            · exact List.forall_mem_cons.mpr ⟨first, ih _⟩
            · exact alone first
            · exact List.forall_mem_cons.mpr ⟨first, alone fault⟩
        · exact alone fault
    · exact alone fault

end

/-- A value that the document holds could have been read. -/
def Spells (room : Nat) (document : Document) : Prop :=
  ∀ value, document.value? = some value → value.Nested Number.Spelled room

section

variable {room : Nat}

theorem spells_fault : Spells room .fault := nofun

theorem spells_readWord (word text : List Char) {found : Document} (good : Spells room found) :
    Spells room (readWord word found text).1 := by
  unfold readWord
  split
  · exact good
  · exact spells_fault

theorem spells_readScalar (text : List Char) : Spells room (readScalar text).1 := by
  unfold readScalar
  split
  · exact spells_fault
  · split
    · intro value found
      obtain ⟨text, _, rfl⟩ := Option.map_eq_some_iff.mp found
      exact .string text
    · exact spells_fault
  · refine spells_readWord _ _ fun value found => ?_
    cases found
    exact .null
  · refine spells_readWord _ _ fun value found => ?_
    cases found
    exact .bool true
  · refine spells_readWord _ _ fun value found => ?_
    cases found
    exact .bool false
  · split
    · rename_i literal _ taken
      intro value found
      obtain ⟨number, read, rfl⟩ := Option.map_eq_some_iff.mp found
      exact .number ⟨literal, Literal.wellFormed_of_take? taken, read⟩
    · exact spells_fault

theorem spells_array {items : List Document} (each : ∀ item ∈ items, Spells room item) :
    Spells (room + 1) (.array items) := by
  intro value found
  obtain ⟨values, held, rfl⟩ := Option.map_eq_some_iff.mp found
  refine .array fun value value_mem => ?_
  rw [Document.eq_ofItems items held, Document.ofItems_eq_map] at each
  exact each _ (List.mem_map_of_mem value_mem) value (Document.value?_ofValue value)

theorem spells_object {members : List (Option String × Document)}
    (each : ∀ member ∈ members, Spells room member.2) :
    Spells (room + 1) (.object members) := by
  intro value found
  obtain ⟨values, held, rfl⟩ := Option.map_eq_some_iff.mp found
  refine .object fun member member_mem => ?_
  rw [Document.eq_ofMembers members held, Document.ofMembers_eq_map] at each
  exact each _ (List.mem_map_of_mem member_mem) member.2 (Document.value?_ofValue member.2)

/-- What the reader finds holds only numbers that some literal stands for. -/
theorem spells_readNested (room : Nat) (text : List Char) :
    Spells room (readNested room text).1 := by
  induction room generalizing text with
  | zero =>
    unfold readNested readWith
    split
    · exact spells_fault
    · exact spells_fault
    · exact spells_readScalar _
  | succ room ih =>
    unfold readNested readWith
    split
    · dsimp only
      split
      · exact spells_array (List.forall_mem_nil _)
      · exact spells_array (forall_readItems spells_fault ih _ _)
    · dsimp only
      split
      · exact spells_object (List.forall_mem_nil _)
      · exact spells_object (forall_readMembers spells_fault ih _ _)
    · exact spells_readScalar _

mutual

/-- What is nested too deep holds no value, so a value that is held is nested no deeper than that. -/
theorem value?_bounded {Good : Number → Prop} :
    (least : Nat) → (document : Document) → {value : Value} →
      (document.bounded least).value? = some value → document.value? = some value ∧
        ∀ room, value.Nested Good room → value.Nested Good least
  | 0, .array _, _, found | 0, .object _, _, found => nomatch found
  | least + 1, .array items, _, found => by
    obtain ⟨values, held, rfl⟩ := Option.map_eq_some_iff.mp found
    obtain ⟨same, fits⟩ := itemValues?_bounded least items held
    refine ⟨Option.map_eq_some_iff.mpr ⟨values, same, rfl⟩, fun room nested => ?_⟩
    cases nested with
    | array each => exact .array fun value value_mem => fits value value_mem _ (each value value_mem)
  | least + 1, .object members, _, found => by
    obtain ⟨values, held, rfl⟩ := Option.map_eq_some_iff.mp found
    obtain ⟨same, fits⟩ := memberValues?_bounded least members held
    refine ⟨Option.map_eq_some_iff.mpr ⟨values, same, rfl⟩, fun room nested => ?_⟩
    cases nested with
    | object each =>
      exact .object fun member member_mem => fits member member_mem _ (each member member_mem)
  | least, .null, _, found => by
    rw [Document.bounded_null] at found
    cases found
    exact ⟨rfl, fun _ _ => .null⟩
  | least, .bool value, _, found => by
    rw [Document.bounded_bool] at found
    cases found
    exact ⟨rfl, fun _ _ => .bool value⟩
  | least, .number n, _, found => by
    rw [Document.bounded_number] at found
    refine ⟨found, fun _ nested => ?_⟩
    obtain ⟨number, _, rfl⟩ := Option.map_eq_some_iff.mp found
    cases nested with
    | number good => exact .number good
  | least, .string text, _, found => by
    rw [Document.bounded_string] at found
    refine ⟨found, fun _ _ => ?_⟩
    obtain ⟨text, _, rfl⟩ := Option.map_eq_some_iff.mp found
    exact .string text
  | least, .moment, _, found | least, .deep _, _, found | least, .fault, _, found => by
    cases least <;> cases found

theorem itemValues?_bounded {Good : Number → Prop} (least : Nat) :
    (items : List Document) → {values : List Value} →
      Document.itemValues? (Document.boundedItems least items) = some values →
        Document.itemValues? items = some values ∧
          ∀ value ∈ values, ∀ room, value.Nested Good room → value.Nested Good least
  | [], _, found => by
    cases found
    exact ⟨rfl, nofun⟩
  | item :: rest, _, found => by
    obtain ⟨value, here, found⟩ := Option.bind_eq_some_iff.mp found
    obtain ⟨values, there, same⟩ := Option.bind_eq_some_iff.mp found
    cases same
    obtain ⟨first, fits⟩ := value?_bounded least item here
    obtain ⟨others, each⟩ := itemValues?_bounded least rest there
    exact ⟨by simp [Document.itemValues?, first, others], List.forall_mem_cons.mpr ⟨fits, each⟩⟩

theorem memberValues?_bounded {Good : Number → Prop} (least : Nat) :
    (members : List (Option String × Document)) → {values : List (String × Value)} →
      Document.memberValues? (Document.boundedMembers least members) = some values →
        Document.memberValues? members = some values ∧
          ∀ member ∈ values, ∀ room, member.2.Nested Good room → member.2.Nested Good least
  | [], _, found => by
    cases found
    exact ⟨rfl, nofun⟩
  | (name, member) :: rest, _, found => by
    obtain ⟨name', named, found⟩ := Option.bind_eq_some_iff.mp found
    obtain ⟨value, here, found⟩ := Option.bind_eq_some_iff.mp found
    obtain ⟨values, there, same⟩ := Option.bind_eq_some_iff.mp found
    cases same
    obtain ⟨first, fits⟩ := value?_bounded least member here
    obtain ⟨others, each⟩ := memberValues?_bounded least rest there
    exact ⟨by simp [Document.memberValues?, named, first, others],
      List.forall_mem_cons.mpr ⟨fits, each⟩⟩

end

theorem exists_denotesItems {item : Value} {items : List Value}
    (each : ∀ item' ∈ item :: items, ∃ text, Denotes room text (.ofValue item')) :
    ∃ text, DenotesItems room text ((item :: items).map Document.ofValue) := by
  induction items generalizing item with
  | nil =>
    obtain ⟨text, first⟩ := each item List.mem_cons_self
    exact ⟨_, .last first blank_nil⟩
  | cons next items ih =>
    obtain ⟨⟨text, first⟩, others⟩ := List.forall_mem_cons.mp each
    obtain ⟨body, others⟩ := ih others
    exact ⟨_, .more first blank_nil blank_nil others⟩

theorem exists_denotesMembers {member : String × Value} {members : List (String × Value)}
    (each : ∀ member' ∈ member :: members, ∃ text, Denotes room text (.ofValue member'.2)) :
    ∃ text, DenotesMembers room text
      ((member :: members).map fun member => (some member.1, Document.ofValue member.2)) := by
  induction members generalizing member with
  | nil =>
    obtain ⟨text, first⟩ := each member List.mem_cons_self
    exact ⟨_, .last member.1 blank_nil first blank_nil⟩
  | cons next members ih =>
    obtain ⟨⟨text, first⟩, others⟩ := List.forall_mem_cons.mp each
    obtain ⟨body, others⟩ := ih others
    exact ⟨_, .more member.1 blank_nil first blank_nil blank_nil others⟩

/-- Every value with such numbers has a text. -/
theorem exists_denotes {value : Value} (nested : value.Nested Number.Spelled room) :
    ∃ text, Denotes room text (.ofValue value) := by
  induction nested with
  | null => exact ⟨_, .null⟩
  | bool value => exact ⟨_, .bool value⟩
  | number spelled =>
    obtain ⟨literal, formed, read⟩ := spelled
    rw [Document.ofValue, ← read]
    exact ⟨_, .number formed⟩
  | string text => exact ⟨_, .string text⟩
  | @array _ items _ ih =>
    rw [Document.ofValue, Document.ofItems_eq_map]
    cases items with
    | nil => exact ⟨_, .emptyArray⟩
    | cons item items =>
      obtain ⟨body, denotes⟩ := exists_denotesItems ih
      exact ⟨_, .array blank_nil denotes⟩
  | @object _ members _ ih =>
    rw [Document.ofValue, Document.ofMembers_eq_map]
    cases members with
    | nil => exact ⟨_, .emptyObject⟩
    | cons member members =>
      obtain ⟨body, denotes⟩ := exists_denotesMembers ih
      exact ⟨_, .object blank_nil denotes⟩

end

/-- The values that can be read are those whose numbers stand in literals and whose nesting is not
too deep. -/
theorem exists_text_iff {value : Value} :
    (∃ text, Value.parse? text = some value) ↔ value.Nested Number.Spelled nestingLimit := by
  constructor
  · rintro ⟨text, parsed⟩
    have spells := spells_readNested text.toList.length text.toList
    unfold Value.parse? Json.read at parsed
    split at parsed
    · cases parsed
    · rename_i found
      rw [found] at spells
      obtain ⟨held, fits⟩ := value?_bounded _ _ (Option.ite_none_right_eq_some.mp parsed).2
      exact fits _ (spells value held)
  · intro nested
    obtain ⟨text, denotes⟩ := exists_denotes nested
    exact ⟨_, (parse?_of_denotes denotes).trans (Document.value?_ofValue value)⟩

end StatsRelay.Json
