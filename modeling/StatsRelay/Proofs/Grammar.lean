import StatsRelay.Proofs.Documents
import StatsRelay.Proofs.Fields

/-! Which objects are read as records. A record is described by an object with distinct names: one
member is the kind, every other one spells a value of a field of that kind, and fields without a
member are zero. -/
namespace StatsRelay

open StatsRelay.Json (Value Literal)

theorem Codec.readInteger_ok_iff {least greatest n : Int} {document : Document} :
    readInteger least greatest document = .ok n ↔
      document = .number (some (.integer n)) ∧ least ≤ n ∧ n ≤ greatest := by
  unfold readInteger
  split
  · rename_i value
    by_cases within : least ≤ value ∧ value ≤ greatest
    · simp only [within, and_self, if_true, Except.ok.injEq, Document.number.injEq,
        Option.some.injEq, Json.Number.integer.injEq]
      constructor
      · rintro rfl
        exact ⟨rfl, within⟩
      · exact And.left
    · simp only [within, if_false, reduceCtorEq, Document.number.injEq, Option.some.injEq,
        Json.Number.integer.injEq, false_iff, not_and]
      rintro rfl low high
      exact within ⟨low, high⟩
  · rename_i other
    simp only [reduceCtorEq, false_iff, not_and]
    intro same
    exact absurd same (other n)

namespace Stats

namespace FieldSort

variable {α : Type} {held : α} {value : Value}

private theorem ofValue_eq_number_iff {number : Json.Number} :
    Document.ofValue value = .number (some number) ↔ value = .number number := by
  cases value <;> simp [Document.ofValue]

private theorem readNatural_ok_iff {ofNat : Nat → α} {toNat : α → Nat} {greatest : Int}
    (back : ∀ n : Nat, n ≤ greatest → toNat (ofNat n) = n) (fits : ∀ held, toNat held ≤ greatest)
    (left : ∀ {held}, ofNat (toNat held) = held) :
    (do return ofNat (← Codec.readInteger 0 greatest (.ofValue value)).toNat) =
        (.ok held : Except Fault α) ↔ value = .number (.integer (toNat held)) := by
  refine Except.bind_eq_ok_iff.trans ⟨?_, ?_⟩
  · rintro ⟨n, read, equal⟩
    obtain ⟨same, low, high⟩ := Codec.readInteger_ok_iff.mp read
    cases equal
    have natural : (n.toNat : Int) = n := Int.toNat_of_nonneg low
    rw [ofValue_eq_number_iff.mp same, back n.toNat (natural ▸ high), natural]
  · rintro rfl
    have read := Codec.readInteger_ok_iff.mpr
      ⟨ofValue_eq_number_iff.mpr rfl, Int.natCast_nonneg (toNat held), fits held⟩
    exact ⟨_, read, congrArg Except.ok left⟩

/-- A value is read where a field stands just when it is the spelling of what is read. -/
theorem read_ok_iff (sort : FieldSort α)
    (plain : sort.IsCode → ∀ members, value ≠ .object members) :
    sort.codec.read (.ofValue value) = .ok held ↔ value = sort.spelling held := by
  cases sort with
  | text => cases value <;> simp [codec, Codec.text, spelling, Document.ofValue]
  | flag => cases value <;> simp [codec, Codec.bool, spelling, Document.ofValue]
  | count =>
    refine readNatural_ok_iff (fun n bound => ?_) (fun held => ?_) UInt32.ofNat_toNat
    · rw [UInt32.toNat_ofNat']
      omega
    · have bound := held.toNat_lt
      omega
  | amount =>
    refine readNatural_ok_iff (fun n bound => ?_) (fun held => ?_) UInt64.ofNat_toNat
    · rw [UInt64.toNat_ofNat']
      omega
    · have bound := held.toNat_lt
      omega
  | code zero =>
    cases value with
    | string text =>
      simp [codec, Labelled.wholeCodec, spelling, Document.ofValue, Labelled.read_ok_iff]
    | object members => exact absurd rfl (plain trivial members)
    | _ => simp [codec, Labelled.wholeCodec, spelling, Document.ofValue]

theorem spelling_injective (sort : FieldSort α) {first second : α}
    (same : sort.spelling first = sort.spelling second) : first = second := by
  cases sort with
  | text => exact Value.string.inj same
  | flag => exact Value.bool.inj same
  | count =>
    have same := Json.Number.integer.inj (Value.number.inj same)
    exact UInt32.toNat_inj.mp (Int.ofNat.inj same)
  | amount =>
    have same := Json.Number.integer.inj (Value.number.inj same)
    exact UInt64.toNat_inj.mp (Int.ofNat.inj same)
  | code zero => exact Labelled.label_injective (Value.string.inj same)

/-- No other value has the same normal form as one that spells a field. -/
theorem normal_eq_spelling_iff (sort : FieldSort α) :
    value.normal = sort.spelling held ↔ value = sort.spelling held := by
  cases sort <;> cases value <;> simp only [spelling, Value.normal, reduceCtorEq] <;>
    rename_i number <;> cases number <;> simp [Json.Number.normal]

end FieldSort

namespace Field

variable {payload : Type}

/-- What a field holds is what its member spells, and zero if it has none. -/
def Describes (members : List (String × Value)) (field : Field payload) (held : field.Carrier) :
    Prop :=
  (∀ value, (field.name, value) ∈ members → value = field.sort.spelling held) ∧
    (field.name ∉ members.map (·.1) → held = field.sort.zero)

/-- Objects can stand for codes in another way, as names of members without a value. -/
def Plain (members : List (String × Value)) (field : Field payload) : Prop :=
  field.sort.IsCode → ∀ inner, (field.name, .object inner) ∉ members

/-- What a column reads is what the member of the field spells. -/
theorem reads_iff_describes {members : List (String × Value)}
    (distinct : (members.map (·.1)).Nodup) {field : Field payload} (plain : field.Plain members)
    {held : field.Carrier} :
    field.column.Reads (Document.ofMembers members) held ↔ field.Describes members held := by
  have distinct' := Document.names_nodup distinct
  rw [Column.reads_iff_mem distinct', Document.names_ofMembers, Document.ofMembers_eq_map]
  apply and_congr
  · constructor
    · intro read value member_mem
      refine (field.sort.read_ok_iff fun code inner same => plain code inner (same ▸ member_mem)).mp ?_
      exact read _ (List.mem_map.mpr ⟨_, member_mem, rfl⟩)
    · intro spelled document listed
      obtain ⟨⟨name, value⟩, member_mem, equal⟩ := List.mem_map.mp listed
      obtain ⟨named, rfl⟩ : name = field.name ∧ Document.ofValue value = document := by
        simpa using equal
      replace member_mem : (field.name, value) ∈ members := named ▸ member_mem
      refine (field.sort.read_ok_iff fun code inner same => plain code inner ?_).mpr ?_
      · exact same ▸ member_mem
      · exact spelled _ member_mem
  · have known : some field.name ∉ (members.map (·.1)).map some ↔
        field.name ∉ members.map (·.1) := by simp
    rw [known]
    exact imp_congr_right fun _ => ⟨fun same => (Option.some.inj same).symm, fun same => same ▸ rfl⟩

theorem describes_filter {members : List (String × Value)} {field : Field payload} {name : String}
    (apart : field.name ≠ name) {held : field.Carrier} :
    field.Describes (members.filter (·.1 ≠ name)) held ↔ field.Describes members held := by
  simp [Describes, apart]

end Field

namespace Kind

theorem map_ofRow_ok_iff (kind : Kind) {read : Except Fault (Row kind.table.columns)}
    {payload : kind.Payload} :
    kind.table.ofRow <$> read = .ok payload ↔ read = .ok (kind.table.toRow payload) := by
  cases read with
  | error fault => simp [Functor.map, Except.map]
  | ok row =>
    simp only [Functor.map, Except.map, Except.ok.injEq]
    constructor
    · rintro rfl
      exact (kind.toRow_ofRow row).symm
    · rintro rfl
      exact kind.ofRow_toRow payload

theorem ofMembers_ok_iff_row (kind : Kind) {members : Members} {payload : kind.Payload} :
    kind.table.ofMembers members = .ok payload ↔
      Row.ofMembers true kind.table.columns members = .ok (kind.table.toRow payload) := by
  unfold Table.ofMembers
  rw [kind.strict]
  exact kind.map_ofRow_ok_iff

theorem field_name_ne {kind : Kind} {field : Field kind.Payload} (field_mem : field ∈ kind.fields) :
    field.name ≠ Record.kindName := by
  intro same
  apply kind.kindName_not_mem
  rw [kind.columns_eq, List.map_map, ← same]
  exact List.mem_map.mpr ⟨field, field_mem, rfl⟩

end Kind

namespace Record

/-- A kind is read from its label and from nothing else. -/
theorem readKind_ok_iff {value : Value} {kind : Kind} :
    readKind (.ofValue value) = .ok kind ↔ value = .string (label kind) := by
  cases value <;> simp [readKind, Document.ofValue, Labelled.read_ok_iff]

theorem takeKind_found (kind : Kind) {members : List (String × Value)}
    (others : kindName ∉ members.map (·.1)) :
    takeKind (some kind) (Document.ofMembers members) = .ok (kind, Document.ofMembers members) := by
  induction members with
  | nil => rfl
  | cons member rest ih =>
    obtain ⟨name, value⟩ := member
    obtain ⟨apart, others⟩ : kindName ≠ name ∧ kindName ∉ rest.map (·.1) := by
      simpa using others
    have sound : (Document.ofValue value).value?.isSome = true := by
      rw [Document.value?_ofValue]
      rfl
    rw [Document.ofMembers, takeKind, if_neg (Ne.symm apart), if_pos sound, ih others]
    rfl

/-- The kind is found wherever it stands, and the other members are kept. -/
theorem takeKind_ok_iff {members : List (String × Value)} (distinct : (members.map (·.1)).Nodup)
    {kind : Kind} {others : Members} :
    takeKind none (Document.ofMembers members) = .ok (kind, others) ↔
      (kindName, .string (label kind)) ∈ members ∧
        others = Document.ofMembers (members.filter (·.1 ≠ kindName)) := by
  induction members generalizing others with
  | nil => simp [Document.ofMembers, takeKind]
  | cons member rest ih =>
    obtain ⟨name, value⟩ := member
    obtain ⟨absent, distinct⟩ := List.nodup_cons.mp distinct
    by_cases same : name = kindName
    · -- This is the kind, and no later member has the same name.
      subst same
      have listed : (kindName, .string (label kind)) ∈ (kindName, value) :: rest ↔
          value = .string (label kind) := by
        constructor
        · intro member_mem
          rcases List.mem_cons.mp member_mem with equal | later
          · cases equal
            rfl
          · exact absurd (List.mem_map.mpr ⟨_, later, rfl⟩) absent
        · rintro rfl
          exact List.mem_cons_self
      have kept : ((kindName, value) :: rest).filter (·.1 ≠ kindName) = rest := by
        rw [List.filter_cons_of_neg (by simp)]
        apply List.filter_eq_self.mpr
        intro member member_mem
        simpa using fun same => absent (List.mem_map.mpr ⟨member, member_mem, same⟩)
      rw [listed, kept, Document.ofMembers, takeKind, if_pos rfl, ← readKind_ok_iff]
      refine Except.bind_eq_ok_iff.trans ⟨?_, ?_⟩
      · rintro ⟨found, read, done⟩
        rw [takeKind_found found absent] at done
        cases done
        exact ⟨read, rfl⟩
      · rintro ⟨read, rfl⟩
        exact ⟨kind, read, takeKind_found kind absent⟩
    · have sound : (Document.ofValue value).value?.isSome = true := by
        rw [Document.value?_ofValue]
        rfl
      have listed : (kindName, .string (label kind)) ∈ (name, value) :: rest ↔
          (kindName, .string (label kind)) ∈ rest := by simp [Ne.symm same]
      rw [listed, List.filter_cons_of_pos (by simpa using same), Document.ofMembers, takeKind,
        if_neg same, if_pos sound]
      refine Except.bind_eq_ok_iff.trans ⟨?_, ?_⟩
      · rintro ⟨⟨found, later⟩, read, equal⟩
        cases equal
        obtain ⟨member_mem, rfl⟩ := (ih distinct).mp read
        exact ⟨member_mem, rfl⟩
      · rintro ⟨member_mem, rfl⟩
        exact ⟨_, (ih distinct).mpr ⟨member_mem, rfl⟩, rfl⟩

def Plain (members : List (String × Value)) : Prop :=
  ∀ kind : Kind, (kindName, .string (label kind)) ∈ members →
    ∀ field ∈ kind.fields, field.Plain members

structure Describes (members : List (String × Value)) (record : Record) : Prop where
  labelled : (kindName, .string (label record.kind)) ∈ members
  known : ∀ name ∈ members.map (·.1), name ≠ kindName → name ∈ record.kind.fields.map Field.name
  held : ∀ field ∈ record.kind.fields, field.Describes members (field.get record.payload)

theorem table_ofMembers_ok_iff {members : List (String × Value)}
    (distinct : (members.map (·.1)).Nodup) {kind : Kind} {payload : kind.Payload}
    (plain : ∀ field ∈ kind.fields, field.Plain members) :
    kind.table.ofMembers (Document.ofMembers (members.filter (·.1 ≠ kindName))) = .ok payload ↔
      (∀ name ∈ members.map (·.1), name ≠ kindName → name ∈ kind.fields.map Field.name) ∧
        ∀ field ∈ kind.fields, field.Describes members (field.get payload) := by
  have kept : ((members.filter (·.1 ≠ kindName)).map (·.1)).Nodup :=
    distinct.sublist (List.filter_sublist.map _)
  have distinct' := Document.names_nodup kept
  rw [kind.ofMembers_ok_iff_row, Row.ofMembers_ok_iff kind.names_distinct distinct', kind.reads_iff]
  refine and_congr ?_ (forall₂_congr fun field field_mem => ?_)
  · rw [kind.columns_eq, Document.ofMembers_eq_map]
    constructor
    · intro each name listed other
      obtain ⟨member, member_mem, rfl⟩ := List.mem_map.mp listed
      have kept : member ∈ members.filter (·.1 ≠ kindName) :=
        List.mem_filter.mpr ⟨member_mem, by simpa using other⟩
      obtain ⟨column, found, named⟩ := each _ (List.mem_map.mpr ⟨member, kept, rfl⟩)
      obtain ⟨field, ours, rfl⟩ := List.mem_map.mp found
      exact List.mem_map.mpr ⟨field, ours, (Option.some.inj named).symm⟩
    · intro each document listed
      obtain ⟨member, kept, rfl⟩ := List.mem_map.mp listed
      obtain ⟨member_mem, other⟩ := List.mem_filter.mp kept
      have found := each member.1 (List.mem_map.mpr ⟨member, member_mem, rfl⟩) (by simpa using other)
      obtain ⟨field, ours, named⟩ := List.mem_map.mp found
      exact ⟨_, List.mem_map.mpr ⟨field, ours, rfl⟩, congrArg some named.symm⟩
  · have plain : field.Plain (members.filter (·.1 ≠ kindName)) := fun code inner listed =>
      plain field field_mem code inner (List.mem_of_mem_filter listed)
    rw [Field.reads_iff_describes kept plain, Field.describes_filter (Kind.field_name_ne field_mem)]

/-- Members decode to a record just if they describe it. -/
theorem ofMembers_ok_iff {members : List (String × Value)} (distinct : (members.map (·.1)).Nodup)
    (plain : Plain members) {record : Record} :
    ofMembers (Document.ofMembers members) = .ok record ↔ Describes members record := by
  refine Except.bind_eq_ok_iff.trans ⟨?_, ?_⟩
  · rintro ⟨⟨kind, others⟩, taken, read⟩
    obtain ⟨listed, rfl⟩ := (takeKind_ok_iff distinct).mp taken
    obtain ⟨payload, decoded, equal⟩ := Except.bind_eq_ok_iff.mp read
    cases equal
    obtain ⟨known, held⟩ := (table_ofMembers_ok_iff distinct (plain kind listed)).mp decoded
    exact ⟨listed, known, held⟩
  · rintro ⟨listed, known, held⟩
    refine ⟨_, (takeKind_ok_iff distinct).mpr ⟨listed, rfl⟩, Except.bind_eq_ok_iff.mpr ?_⟩
    exact ⟨_, (table_ofMembers_ok_iff distinct (plain record.kind listed)).mpr ⟨known, held⟩, rfl⟩

end Record

end Stats

end StatsRelay
