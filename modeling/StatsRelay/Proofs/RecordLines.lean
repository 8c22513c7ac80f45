import StatsRelay.Proofs.OutputLines
import StatsRelay.Proofs.Replaying
import StatsRelay.Proofs.Written

/-! Lines of a stack as they are read back. The line of a record holds the record; the line of a
metric holds none. -/
namespace StatsRelay.Stats

open StatsRelay.Json

theorem FieldSort.spelling_legible {α : Type} (sort : FieldSort α) (held : α) (room : Nat) :
    (sort.spelling held).Legible room := by
  cases sort with
  | text => exact .string held
  | flag => exact .bool held
  | count =>
    have bound := held.toNat_lt
    exact .number (Number.integer_legible (by omega) (by omega))
  | amount =>
    have bound := held.toNat_lt
    exact .number (Number.integer_legible (by omega) (by omega))
  | code zero => exact .string (label held)

theorem FieldSort.spelling_plain {α : Type} (sort : FieldSort α) (held : α)
    (members : List (String × Value)) : sort.spelling held ≠ .object members := by
  cases sort <;> exact Value.noConfusion

end StatsRelay.Stats

namespace StatsRelay.Json

theorem Number.one_legible : (Number.double ⟨0x3FF0000000000000#64⟩).Legible := by
  have written : (Number.double ⟨0x3FF0000000000000#64⟩).write = ['1', '.', '0'] := by rfl
  have read : (Literal.mk false ['1'] ['0'] false []).number? =
      some (.double ⟨0x3FF0000000000000#64⟩) := by decide +kernel
  exact ⟨_, by constructor <;> simp, written ▸ rfl, read⟩

theorem Number.zero_legible : (Number.double ⟨0#64⟩).Legible := by
  have written : (Number.double ⟨0#64⟩).write = ['0', '.', '0'] := by rfl
  have read : (Literal.mk false ['0'] ['0'] false []).number? = some (.double ⟨0#64⟩) := by
    decide +kernel
  exact ⟨_, by constructor <;> simp, written ▸ rfl, read⟩

theorem Number.uint64_legible (value : UInt64) : (Number.integer value.toNat).Legible := by
  have bound := value.toNat_lt
  exact Number.integer_legible (by omega) (by omega)

theorem Value.normal_object {members : List (String × Value)}
    (increasing : members.Pairwise fun first second => compare first.1 second.1 = .lt)
    (each : ∀ member ∈ members, member.2.normal = member.2) :
    (Value.object members).normal = .object members := by
  have same : Value.normalMembers members = members := by
    rw [Value.normalMembers_eq_map]
    refine (List.map_congr_left fun member member_mem => ?_).trans (List.map_id _)
    exact Prod.ext rfl (each member member_mem)
  rw [Value.normal, same, sortMembers, SortedMap.ofList_entries increasing]

end StatsRelay.Json

namespace StatsRelay.Log

open StatsRelay.Json StatsRelay.Stats StatsRelay.Text.Utf8

namespace Written

theorem texts_legible (map : SortedMap String String) (room : Nat) :
    (texts map).Legible (room + 1) :=
  .entries fun entry _ => .string entry.2

theorem texts_normal (map : SortedMap String String) : (texts map).normal = texts map := by
  apply Value.normal_object (List.pairwise_map.mpr map.increasing)
  intro member member_mem
  obtain ⟨entry, _, rfl⟩ := List.mem_map.mp member_mem
  rfl

theorem payload_perm (record : Record) :
    (payload record).Perm (record.kind.fields.map fun field =>
      (field.name, field.sort.spelling (field.get record.payload))) := by
  apply SortedMap.ofList_entries_perm
  rw [List.map_map]
  exact record.kind.fields_distinct

/-- The payload has a member for each field, and no other. -/
theorem mem_payload_iff {record : Record} {name : String} {value : Value} :
    (name, value) ∈ payload record ↔ ∃ field ∈ record.kind.fields,
      field.name = name ∧ field.sort.spelling (field.get record.payload) = value := by
  rw [(payload_perm record).mem_iff]
  simp

theorem payload_legible (record : Record) (room : Nat) :
    (Value.object (payload record)).Legible (room + 1) := by
  refine .object fun ⟨name, value⟩ member_mem => ?_
  obtain ⟨field, _, _, rfl⟩ := mem_payload_iff.mp member_mem
  exact field.sort.spelling_legible _ room

theorem payload_normal (record : Record) :
    (Value.object (payload record)).normal = .object (payload record) := by
  refine Value.normal_object (SortedMap.increasing _) fun ⟨name, value⟩ member_mem => ?_
  obtain ⟨field, _, _, rfl⟩ := mem_payload_iff.mp member_mem
  exact field.sort.normal_eq_spelling_iff.mpr rfl

theorem value_legible (baseFields : SortedMap String String) (written : Written) (room : Nat) :
    (written.value baseFields).Legible (room + 2) := by
  have time (now : UInt64) : (Value.number (.integer now.toNat)).Legible (room + 1) :=
    .number (Number.uint64_legible now)
  cases written with
  | record now record =>
    refine .object (List.forall_mem_append.mpr ⟨?_, ?_⟩)
    · cases baseFields.isEmpty with
      | true => simp
      | false => simpa using texts_legible baseFields room
    · simp [Value.Legible.string, payload_legible record room, time]
  | metric now record measure =>
    have number : (measure.number record).Legible := by
      cases measure with
      | count => exact Number.integer_legible (by decide) (by decide)
      | latency => exact Number.uint64_legible record.latency
      | success =>
        rw [Measure.number]
        cases record.status.isOk with
        | true => exact Number.one_legible
        | false => exact Number.zero_legible
    have unit : ∀ member ∈ measure.unit, member.2.Legible (room + 1) := by
      cases measure <;> simp [Measure.unit, Value.Legible.string]
    refine .object (List.forall_mem_append.mpr ⟨List.forall_mem_append.mpr ⟨?_, unit⟩, ?_⟩)
    · simp [Value.Legible.string, time, Value.Legible.number number]
    · simpa using texts_legible (tagsOf baseFields record) room

theorem record_normal (baseFields : SortedMap String String) (now : UInt64) (record : Record) :
    ((Written.record now record).value baseFields).normal =
      (Written.record now record).value baseFields := by
  apply Value.normal_object
  · cases baseFields.isEmpty <;> simp <;> decide
  · refine List.forall_mem_append.mpr ⟨?_, ?_⟩
    · cases baseFields.isEmpty with
      | true => simp
      | false => simpa using texts_normal baseFields
    · simp only [List.forall_mem_cons]
      exact ⟨rfl, payload_normal record, rfl, List.forall_mem_nil _⟩

/-- A line holds its record under the payload's name, and this is what is decoded. -/
theorem unwrap_record (baseFields : SortedMap String String) (now : UInt64) (record : Record) :
    Record.unwrap ((Written.record now record).value baseFields) =
      .object (SortedMap.insertEntry Record.kindName (.string (label record.kind))
        (payload record)) := by
  cases empty : baseFields.isEmpty <;> simp [Record.unwrap, value, empty, Record.payloadName,
    Record.kindName, List.lookup_cons]

/-- What is written of a record describes that record. -/
theorem describes_payload (record : Record) :
    Record.Describes (SortedMap.insertEntry Record.kindName (.string (label record.kind))
      (payload record)) record := by
  have inserted {name : String} {value : Value} :
      (name, value) ∈ SortedMap.insertEntry Record.kindName (.string (label record.kind))
          (payload record) ↔
        (name, value) = (Record.kindName, .string (label record.kind)) ∨
          name ≠ Record.kindName ∧ (name, value) ∈ payload record :=
    SortedMap.mem_insertEntry_iff (SortedMap.increasing _)
  refine ⟨inserted.mpr (.inl rfl), ?_, fun field ours => ⟨?_, fun absent => ?_⟩⟩
  · intro name listed other
    obtain ⟨⟨name, value⟩, member_mem, rfl⟩ := List.mem_map.mp listed
    rcases inserted.mp member_mem with same | ⟨_, found⟩
    · exact absurd (congrArg Prod.fst same) other
    · obtain ⟨field, ours, named, _⟩ := mem_payload_iff.mp found
      exact List.mem_map.mpr ⟨field, ours, named⟩
  · intro value member_mem
    rcases inserted.mp member_mem with same | ⟨_, found⟩
    · exact absurd (congrArg Prod.fst same) (Kind.field_name_ne ours)
    · obtain ⟨field', ours', named, spelled⟩ := mem_payload_iff.mp found
      obtain rfl := List.inj_on_of_nodup_map record.kind.fields_distinct ours' ours named
      exact spelled.symm
  · have written := mem_payload_iff.mpr ⟨field, ours, rfl, rfl⟩
    have found := inserted.mpr (.inr ⟨Kind.field_name_ne ours, written⟩)
    exact absurd (List.mem_map.mpr ⟨_, found, rfl⟩) absent

theorem plain_payload (record : Record) :
    Record.Plain (SortedMap.insertEntry Record.kindName (.string (label record.kind))
      (payload record)) := by
  intro kind _ field _ _ inner member_mem
  rcases (SortedMap.mem_insertEntry_iff (SortedMap.increasing _)).mp member_mem with same | ⟨_, found⟩
  · cases congrArg Prod.snd same
  · obtain ⟨field', _, _, spelled⟩ := mem_payload_iff.mp found
    exact field'.sort.spelling_plain _ inner spelled

/-- The line of a record is read back as the record. -/
theorem decodeLine_record (baseFields : SortedMap String String) (now : UInt64) (record : Record) :
    Record.decodeLine ((Written.record now record).value baseFields).compact = .ok record := by
  have parsed := parse?_compact ((Written.record now record).value_legible baseFields 125)
  have distinct := ((SortedMap.ofList (record.kind.fields.map fun field =>
    (field.name, field.sort.spelling (field.get record.payload)))).insert Record.kindName
      (.string (label record.kind))).keys_nodup
  rw [Record.decodeLine, parsed]
  simp only [record_normal, unwrap_record, Document.ofValue]
  exact (Record.ofMembers_ok_iff distinct (plain_payload record)).mpr (describes_payload record)

/-- Without a member that is the kind, or a payload, nothing is described. -/
theorem decodeLine_unlabelled {members : List (String × Value)}
    (within : (Value.object members).Within nestingLimit) (distinct : (members.map (·.1)).Nodup)
    (flat : Record.payloadName ∉ members.map (·.1))
    (unlabelled : Record.kindName ∉ members.map (·.1)) :
    ∃ fault, Record.decodeLine (Value.object members).compact = .error fault := by
  have parsed : Value.parse? (Value.object members).compact =
      (Document.memberValues? (Document.ofMemberTexts members)).map .object := by
    simp [Value.parse?, read_compact within, Document.ofText, Document.value?]
  cases values : Document.memberValues? (Document.ofMemberTexts members) with
  | none =>
    rw [values] at parsed
    exact ⟨.malformed, by rw [Record.decodeLine, parsed]; rfl⟩
  | some found =>
    rw [values, Option.map_some] at parsed
    have names : found.map (·.1) = members.map (·.1) := by
      have same := Document.names_memberValues? values
      rw [Document.ofMemberTexts_eq_map, List.map_map] at same
      refine List.map_injective_iff.mpr (Option.some_injective _) (same.symm.trans ?_)
      rw [List.map_map]
      rfl
    have missing (value : Value) : (Record.kindName, value) ∉ found := fun member_mem =>
      unlabelled (names ▸ List.mem_map.mpr ⟨_, member_mem, rfl⟩)
    cases read : Record.decodeLine (Value.object members).compact with
    | error fault => exact ⟨fault, rfl⟩
    | ok record =>
      have described := (Record.decodeLine_ok_iff parsed (names ▸ distinct) (names ▸ flat)
        fun kind listed => absurd listed (missing _)).mp read
      exact absurd described.labelled (missing _)

/-- The line of a metric is no record. -/
theorem decodeLine_metric (baseFields : SortedMap String String) (now : UInt64) (record : Record)
    (measure : Measure) :
    ∃ fault, Record.decodeLine ((Written.metric now record measure).value baseFields).compact =
      .error fault := by
  have legible := (Written.metric now record measure).value_legible baseFields 125
  apply decodeLine_unlabelled legible.nested.within
  · cases measure <;> simp [Measure.unit]
  · cases measure <;> simp [Measure.unit, Record.payloadName]
  · cases measure <;> simp [Measure.unit, Record.kindName]

end Written

end StatsRelay.Log
