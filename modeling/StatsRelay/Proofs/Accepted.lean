import StatsRelay.Proofs.Compact
import StatsRelay.Proofs.Grammar
import StatsRelay.Proofs.Literals

/-! Which lines are read as records. Members are sorted and taken to normal form before they are
read, and neither changes what they describe. -/
namespace StatsRelay.Stats

open StatsRelay.Json (Value Literal)

abbrev sorted (members : List (String × Value)) : List (String × Value) :=
  Json.sortMembers (Value.normalMembers members)

theorem names_normalMembers (members : List (String × Value)) :
    (Value.normalMembers members).map (·.1) = members.map (·.1) := by
  simp [Json.Value.normalMembers_eq_map, Function.comp_def]

theorem names_sorted_nodup (members : List (String × Value)) : ((sorted members).map (·.1)).Nodup :=
  SortedMap.keys_nodup _

section

variable {members : List (String × Value)} (distinct : (members.map (·.1)).Nodup)
include distinct

theorem sorted_perm : (sorted members).Perm (Value.normalMembers members) :=
  SortedMap.ofList_entries_perm (by rwa [names_normalMembers])

theorem sorted_eq_of_perm {others : List (String × Value)} (same : others.Perm members) :
    sorted others = sorted members := by
  have normal : (Value.normalMembers members).Perm (Value.normalMembers others) := by
    rw [Json.Value.normalMembers_eq_map, Json.Value.normalMembers_eq_map]
    exact same.symm.map _
  exact (congrArg SortedMap.entries (SortedMap.ofList_eq_of_perm
    (names_normalMembers members ▸ distinct) normal)).symm

theorem mem_sorted_iff {name : String} {value : Value} :
    (name, value) ∈ sorted members ↔ ∃ given, (name, given) ∈ members ∧ given.normal = value := by
  rw [(sorted_perm distinct).mem_iff, Json.Value.normalMembers_eq_map]
  simp

theorem name_mem_sorted_iff {name : String} :
    name ∈ (sorted members).map (·.1) ↔ name ∈ members.map (·.1) := by
  rw [((sorted_perm distinct).map _).mem_iff, names_normalMembers]

theorem Field.plain_sorted {payload : Type} {field : Field payload} (plain : field.Plain members) :
    field.Plain (sorted members) := by
  intro code inner listed
  obtain ⟨given, member_mem, same⟩ := (mem_sorted_iff distinct).mp listed
  cases given with
  | object inner => exact plain code inner member_mem
  | _ => simp [Value.normal] at same

theorem Field.describes_sorted_iff {payload : Type} {field : Field payload}
    {held : field.Carrier} :
    field.Describes (sorted members) held ↔ field.Describes members held := by
  unfold Describes
  rw [name_mem_sorted_iff distinct]
  apply and_congr_left
  intro _
  constructor
  · intro spelled value member_mem
    have listed := (mem_sorted_iff distinct).mpr ⟨value, member_mem, rfl⟩
    exact field.sort.normal_eq_spelling_iff.mp (spelled _ listed)
  · intro spelled value listed
    obtain ⟨given, member_mem, rfl⟩ := (mem_sorted_iff distinct).mp listed
    exact field.sort.normal_eq_spelling_iff.mpr (spelled given member_mem)

end

namespace Record

theorem labelled_sorted_iff {members : List (String × Value)}
    (distinct : (members.map (·.1)).Nodup) {kind : Kind} :
    (kindName, .string (label kind)) ∈ sorted members ↔
      (kindName, .string (label kind)) ∈ members := by
  rw [mem_sorted_iff distinct]
  constructor
  · rintro ⟨given, label_mem, same⟩
    have same : given = .string (label kind) := FieldSort.text.normal_eq_spelling_iff.mp same
    exact same ▸ label_mem
  · intro label_mem
    exact ⟨_, label_mem, rfl⟩

theorem plain_sorted {members : List (String × Value)} (distinct : (members.map (·.1)).Nodup)
    (plain : Plain members) : Plain (sorted members) := by
  intro kind listed field ours
  have labelled := (labelled_sorted_iff distinct).mp listed
  exact Field.plain_sorted distinct (plain kind labelled field ours)

/-- Members describe the same record in the order in which they are read. -/
theorem describes_sorted_iff {members : List (String × Value)}
    (distinct : (members.map (·.1)).Nodup) {record : Record} :
    Describes (sorted members) record ↔ Describes members record := by
  constructor
  · rintro ⟨listed, known, held⟩
    refine ⟨(labelled_sorted_iff distinct).mp listed, fun name name_mem => ?_, fun field ours => ?_⟩
    · exact known name ((name_mem_sorted_iff distinct).mpr name_mem)
    · exact (Field.describes_sorted_iff distinct).mp (held field ours)
  · rintro ⟨listed, known, held⟩
    refine ⟨(labelled_sorted_iff distinct).mpr listed, fun name name_mem => ?_, fun field ours => ?_⟩
    · exact known name ((name_mem_sorted_iff distinct).mp name_mem)
    · exact (Field.describes_sorted_iff distinct).mpr (held field ours)

/-- An object without a payload among its members is read as it stands. -/
theorem decodeLine_eq {text : String} {members : List (String × Value)}
    (parsed : Value.parse? text = some (.object members)) (distinct : (members.map (·.1)).Nodup)
    (flat : payloadName ∉ members.map (·.1)) :
    decodeLine text = ofMembers (Document.ofMembers (sorted members)) := by
  have nothing : (sorted members).lookup payloadName = none := by
    rw [lookup_eq_none_iff_not_mem, name_mem_sorted_iff distinct]
    exact flat
  have form : (Value.object members).normal = .object (sorted members) := by rw [Value.normal]
  have same : unwrap (.object (sorted members)) = .object (sorted members) := by
    simp only [unwrap, nothing]
  simp only [decodeLine, parsed, form, same, Document.ofValue, ofDocument]

/-- A line without a payload decodes to what its members describe. -/
theorem decodeLine_ok_iff {text : String} {members : List (String × Value)}
    (parsed : Value.parse? text = some (.object members)) (distinct : (members.map (·.1)).Nodup)
    (flat : payloadName ∉ members.map (·.1)) (plain : Plain members) {record : Record} :
    decodeLine text = .ok record ↔ Describes members record := by
  rw [decodeLine_eq parsed distinct flat,
    ofMembers_ok_iff (names_sorted_nodup members) (plain_sorted distinct plain),
    describes_sorted_iff distinct]

/-- Members of a kind, as a decoder has to find them. -/
structure Grammatical (kind : Kind) (members : List (String × Value)) : Prop where
  labelled : (kindName, .string (label kind)) ∈ members
  known : ∀ name ∈ members.map (·.1), name ≠ kindName → name ∈ kind.fields.map Field.name
  typed : ∀ field ∈ kind.fields, ∀ value, (field.name, value) ∈ members →
    ∃ held, value = field.sort.spelling held

theorem Describes.grammatical {members : List (String × Value)} {record : Record}
    (described : Describes members record) : Grammatical record.kind members where
  labelled := described.labelled
  known := described.known
  typed field ours value member_mem := ⟨_, (described.held field ours).1 value member_mem⟩

theorem exists_payload {kind : Kind} {members : List (String × Value)}
    (distinct : (members.map (·.1)).Nodup) (plain : ∀ field ∈ kind.fields, field.Plain members)
    (each : ∀ field ∈ kind.fields, ∃ held, field.Describes members held) :
    ∃ payload : kind.Payload,
      ∀ field ∈ kind.fields, field.Describes members (field.get payload) := by
  have readable : ∀ column ∈ kind.table.columns,
      ∃ value, column.Reads (Document.ofMembers members) value := by
    rw [kind.columns_eq]
    intro column listed
    obtain ⟨field, ours, rfl⟩ := List.mem_map.mp listed
    obtain ⟨held, described⟩ := each field ours
    exact ⟨held, (Field.reads_iff_describes distinct (plain field ours)).mpr described⟩
  obtain ⟨row, reads⟩ := Row.exists_reads readable
  rw [← kind.toRow_ofRow row, kind.reads_iff] at reads
  refine ⟨kind.table.ofRow row, fun field ours => ?_⟩
  exact (Field.reads_iff_describes distinct (plain field ours)).mp (reads field ours)

/-- Members that a decoder can read describe some record. -/
theorem Grammatical.exists_describes {kind : Kind} {members : List (String × Value)}
    (grammatical : Grammatical kind members) (distinct : (members.map (·.1)).Nodup)
    (plain : ∀ field ∈ kind.fields, field.Plain members) :
    ∃ payload, Describes members ⟨kind, payload⟩ := by
  have each : ∀ field ∈ kind.fields, ∃ held, field.Describes members held := by
    intro field ours
    by_cases listed : field.name ∈ members.map (·.1)
    · obtain ⟨⟨name, value⟩, member_mem, rfl⟩ := List.mem_map.mp listed
      obtain ⟨held, spelled⟩ := grammatical.typed field ours value member_mem
      refine ⟨held, fun other also => ?_, fun absent => absurd listed absent⟩
      exact eq_of_mem_of_nodup distinct also member_mem ▸ spelled
    · refine ⟨field.sort.zero, fun value member_mem => ?_, fun _ => rfl⟩
      exact absurd (List.mem_map.mpr ⟨_, member_mem, rfl⟩) listed
  obtain ⟨payload, held⟩ := exists_payload distinct plain each
  exact ⟨payload, grammatical.labelled, grammatical.known, held⟩

theorem kind_unique {members : List (String × Value)} (distinct : (members.map (·.1)).Nodup)
    {first second : Kind} (one : (kindName, .string (label first)) ∈ members)
    (other : (kindName, .string (label second)) ∈ members) : first = second :=
  Labelled.label_injective (Value.string.inj (eq_of_mem_of_nodup distinct one other))

section

variable {members others : List (String × Value)} {kind : Kind}

/-- Only some fields are left out, and they are left out where they hold zero. -/
def LeavesOutZeros (kind : Kind) (members others : List (String × Value)) : Prop :=
  others.Sublist members ∧ ∀ member ∈ members, member ∉ others →
    ∃ field ∈ kind.fields, member = (field.name, field.sort.spelling field.sort.zero)

theorem LeavesOutZeros.labelled_iff (zeros : LeavesOutZeros kind members others) {value : Value} :
    (kindName, value) ∈ others ↔ (kindName, value) ∈ members := by
  refine ⟨fun label_mem => zeros.1.subset label_mem, fun label_mem => ?_⟩
  by_contra left
  obtain ⟨field, ours, equal⟩ := zeros.2 _ label_mem left
  exact Kind.field_name_ne ours (congrArg Prod.fst equal).symm

theorem LeavesOutZeros.known_iff (zeros : LeavesOutZeros kind members others) :
    (∀ name ∈ others.map (·.1), name ≠ kindName → name ∈ kind.fields.map Field.name) ↔
      ∀ name ∈ members.map (·.1), name ≠ kindName → name ∈ kind.fields.map Field.name := by
  constructor
  · intro known name listed other
    obtain ⟨member, member_mem, rfl⟩ := List.mem_map.mp listed
    by_cases kept : member ∈ others
    · exact known member.1 (List.mem_map.mpr ⟨member, kept, rfl⟩) other
    · obtain ⟨field, ours, rfl⟩ := zeros.2 member member_mem kept
      exact List.mem_map.mpr ⟨field, ours, rfl⟩
  · intro known name listed
    exact known name ((zeros.1.map Prod.fst).subset listed)

theorem LeavesOutZeros.describes_field_iff (zeros : LeavesOutZeros kind members others)
    (distinct : (members.map (·.1)).Nodup) {field : Field kind.Payload} (ours : field ∈ kind.fields)
    {held : field.Carrier} : field.Describes others held ↔ field.Describes members held := by
  -- A member that is left out spells zero, which is what its absence stands for.
  have left {value : Value} (member_mem : (field.name, value) ∈ members)
      (dropped : (field.name, value) ∉ others) : value = field.sort.spelling field.sort.zero := by
    obtain ⟨field', ours', equal⟩ := zeros.2 _ member_mem dropped
    obtain ⟨named, spelled⟩ := Prod.mk.inj equal
    obtain rfl := List.inj_on_of_nodup_map kind.fields_distinct ours ours' named
    exact spelled
  constructor
  · rintro ⟨spelled, absent⟩
    refine ⟨fun value member_mem => ?_, fun missing => absent fun listed => ?_⟩
    · by_cases kept : (field.name, value) ∈ others
      · exact spelled value kept
      · have zero : held = field.sort.zero := by
          apply absent
          intro listed
          obtain ⟨⟨name, value'⟩, member_mem', rfl⟩ := List.mem_map.mp listed
          exact kept (eq_of_mem_of_nodup distinct (zeros.1.subset member_mem') member_mem ▸ member_mem')
        rw [zero, left member_mem kept]
    · exact missing ((zeros.1.map Prod.fst).subset listed)
  · rintro ⟨spelled, absent⟩
    refine ⟨fun value member_mem => spelled value (zeros.1.subset member_mem), fun missing => ?_⟩
    by_cases listed : field.name ∈ members.map (·.1)
    · obtain ⟨⟨name, value⟩, member_mem, rfl⟩ := List.mem_map.mp listed
      have dropped : (field.name, value) ∉ others :=
        fun kept => missing (List.mem_map.mpr ⟨_, kept, rfl⟩)
      exact field.sort.spelling_injective
        ((spelled value member_mem).symm.trans (left member_mem dropped))
    · exact absent listed

/-- Fields that hold zero can be left out. -/
theorem LeavesOutZeros.describes_iff (zeros : LeavesOutZeros kind members others)
    (distinct : (members.map (·.1)).Nodup) (labelled : (kindName, .string (label kind)) ∈ members)
    {record : Record} : Describes others record ↔ Describes members record := by
  obtain ⟨found, payload⟩ := record
  constructor
  · rintro ⟨here, known, held⟩
    obtain rfl := kind_unique distinct labelled (zeros.labelled_iff.mp here)
    refine ⟨labelled, zeros.known_iff.mp known, fun field ours => ?_⟩
    exact (zeros.describes_field_iff distinct ours).mp (held field ours)
  · rintro ⟨here, known, held⟩
    obtain rfl := kind_unique distinct labelled here
    refine ⟨zeros.labelled_iff.mpr labelled, zeros.known_iff.mpr known, fun field ours => ?_⟩
    exact (zeros.describes_field_iff distinct ours).mpr (held field ours)

end

/-- An object with distinct names is read as a record just when its members are in the grammar of
some kind. What is read is what they describe, so their order does not count, and neither do members
that spell zero; a name that the kind does not have is always refused. -/
theorem decodeLine_accepts_grammar {text : String} {members : List (String × Value)}
    (parsed : Value.parse? text = some (.object members)) (distinct : (members.map (·.1)).Nodup)
    (flat : payloadName ∉ members.map (·.1)) (plain : Plain members) :
    ((∃ record, decodeLine text = .ok record) ↔ ∃ kind, Grammatical kind members) ∧
      (∀ record, decodeLine text = .ok record ↔ Describes members record) ∧
      (∀ (literal : Literal) (n : Nat), literal.number? = some (.integer n) ↔
        literal.negative = false ∧ literal.fraction = [] ∧ literal.exponent = [] ∧
          Literal.value literal.whole = n ∧ n < UInt64.size) ∧
      (∀ other others, Value.parse? other = some (.object others) → others.Perm members →
        decodeLine other = decodeLine text) ∧
      ∀ kind : Kind, (kindName, .string (label kind)) ∈ members →
        (∀ other others, Value.parse? other = some (.object others) →
          LeavesOutZeros kind members others →
          ∀ record, decodeLine other = .ok record ↔ decodeLine text = .ok record) ∧
        ∀ name ∈ members.map (·.1), name ≠ kindName → name ∉ kind.fields.map Field.name →
          ∃ fault, decodeLine text = .error fault := by
  have decodes {record : Record} : decodeLine text = .ok record ↔ Describes members record :=
    decodeLine_ok_iff parsed distinct flat plain
  refine ⟨⟨?_, ?_⟩, fun _ => decodes, Literal.number?_eq_natural_iff, ?_, ?_⟩
  · rintro ⟨record, read⟩
    exact ⟨record.kind, (decodes.mp read).grammatical⟩
  · rintro ⟨kind, grammatical⟩
    obtain ⟨payload, described⟩ :=
      grammatical.exists_describes distinct (plain kind grammatical.labelled)
    exact ⟨⟨kind, payload⟩, decodes.mpr described⟩
  · intro other others parsed' same
    have names := same.map Prod.fst
    have distinct' := names.nodup_iff.mpr distinct
    have flat' : payloadName ∉ others.map (·.1) := fun listed => flat (names.mem_iff.mp listed)
    rw [decodeLine_eq parsed distinct flat, decodeLine_eq parsed' distinct' flat',
      sorted_eq_of_perm distinct same]
  intro kind labelled
  constructor
  · intro other others parsed' zeros record
    have names := zeros.1.map Prod.fst
    have flat' : payloadName ∉ others.map (·.1) := fun listed => flat (names.subset listed)
    rw [decodes, ← zeros.describes_iff distinct labelled]
    apply decodeLine_ok_iff parsed' (distinct.sublist names) flat'
    intro kind listed field ours code inner member_mem
    exact plain kind (zeros.1.subset listed) field ours code inner (zeros.1.subset member_mem)
  · intro name listed other foreign
    cases read : decodeLine text with
    | error fault => exact ⟨fault, rfl⟩
    | ok record =>
      have described := decodes.mp read
      obtain rfl := kind_unique distinct described.labelled labelled
      exact absurd (described.known name listed other) foreign

def removal : List (String × Value) :=
  [("deletedDocumentCount", .number (.integer 2)), ("kind", .string "remove")]

theorem decodeLine_accepts_grammar_remove :
    decodeLine "\x7b\"deletedDocumentCount\":2,\"kind\":\"remove\"\x7d" =
      .ok ⟨.remove,
        ({ (default : RemoveStats) with deletedDocumentCount := 2 } : RemoveStats)⟩ := by
  have legible : (Value.object removal).Legible Json.nestingLimit := by
    refine .object (List.forall_mem_cons.mpr ⟨?_, List.forall_mem_cons.mpr ⟨?_, ?_⟩⟩)
    · exact .number (Json.Number.integer_legible (by decide) (by decide))
    · exact .string "remove"
    · exact List.forall_mem_nil _
  have written : (Value.object removal).compact =
      "\x7b\"deletedDocumentCount\":2,\"kind\":\"remove\"\x7d" := by decide +kernel
  have parsed := Json.parse?_compact legible
  rw [written] at parsed
  have plain : Plain removal := by
    intro kind _ field _ _ inner member_mem
    simp [removal] at member_mem
  apply ((decodeLine_accepts_grammar parsed (by decide) (by decide) plain).2.1 _).mpr
  refine ⟨List.mem_cons_of_mem _ List.mem_cons_self, by decide, ?_⟩
  simp [Kind.fields, RemoveStats.fields, Field.Describes, FieldSort.spelling, removal]
  exact ⟨rfl, rfl, rfl, rfl, rfl, rfl⟩

end Record

end StatsRelay.Stats
