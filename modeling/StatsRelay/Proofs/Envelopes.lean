import StatsRelay.Proofs.Decoders
import StatsRelay.Proofs.Readable

/-! Lines of output and the records in them. A line that has an object as its payload is read as the
payload, under the kind of the line if it has one; nothing else of the line is seen. -/
namespace StatsRelay

open StatsRelay.Json (Value)

def Json.objectOf? (text : String) : Option (SortedMap String Value) :=
  match Value.parse? text with
  | some (.object members) => some (.ofList (Value.normalMembers members))
  | _ => none

namespace Json

/-- Of members under one name, the last stands in the object. -/
theorem objectOf?_eq_some_iff {text : String} {object : SortedMap String Value} :
    objectOf? text = some object ↔ ∃ members, Value.parse? text = some (.object members) ∧
      object.entries = Stats.sorted members := by
  unfold objectOf?
  constructor
  · intro read
    split at read
    · rename_i members parsed
      exact ⟨members, parsed, (congrArg SortedMap.entries (Option.some.inj read)).symm⟩
    · cases read
  · rintro ⟨members, parsed, same⟩
    simp only [parsed, Option.some.injEq]
    exact SortedMap.ext same.symm

theorem exists_text_objectOf? {members : List (String × Value)}
    (each : ∀ member ∈ members, member.2.Nested Number.Spelled (nestingLimit - 1)) :
    ∃ text, objectOf? text = some (.ofList (Value.normalMembers members)) := by
  obtain ⟨text, parsed⟩ := exists_text_iff.mpr (.object each)
  exact ⟨text, objectOf?_eq_some_iff.mpr ⟨members, parsed, rfl⟩⟩

/-- What an object holds is the normal form of a value that was read. -/
theorem exists_given {text name : String} {object : SortedMap String Value} {value : Value}
    (read : objectOf? text = some object) (held : object.get? name = some value) :
    ∃ given : Value, given.normal = value ∧
      given.Nested Number.Spelled (nestingLimit - 1) := by
  obtain ⟨members, parsed, same⟩ := objectOf?_eq_some_iff.mp read
  have listed := same ▸ object.get?_eq_some_iff.mp held
  have member_mem := SortedMap.mem_of_mem_ofList listed
  rw [Value.normalMembers_eq_map] at member_mem
  obtain ⟨⟨_, given⟩, found, same⟩ := List.mem_map.mp member_mem
  cases same
  have nested : (Value.object members).Nested Number.Spelled (nestingLimit - 1 + 1) :=
    exists_text_iff.mp ⟨text, parsed⟩
  exact ⟨given, rfl, Value.Nested.object_iff.mp nested _ found⟩

theorem exists_inner {text name : String} {object : SortedMap String Value}
    {members : List (String × Value)} (read : objectOf? text = some object)
    (held : object.get? name = some (.object members)) :
    ∃ given, (SortedMap.ofList (Value.normalMembers given)).entries = members ∧
      ∀ member ∈ given, member.2.Nested Number.Spelled (nestingLimit - 1) := by
  obtain ⟨value, normal, nested⟩ := exists_given read held
  cases value with
  | object given =>
    cases normal
    have each := Value.Nested.object_iff.mp nested
    exact ⟨given, rfl, fun member member_mem => (each member member_mem).deeper⟩
  | _ => cases normal

theorem objectOf?_compact {object : SortedMap String Value}
    (legible : (Value.object object.entries).Legible nestingLimit)
    (normal : Value.normalMembers object.entries = object.entries) :
    objectOf? (Value.object object.entries).compact = some object := by
  refine objectOf?_eq_some_iff.mpr ⟨object.entries, parse?_compact legible, ?_⟩
  rw [Stats.sorted, normal]
  exact (SortedMap.ofList_entries object.increasing).symm

end Json

namespace Stats.Record

variable {line : String} {envelope payload : SortedMap String Value} {record : Record}

/-- A payload under the kind of its envelope, or its own if the envelope has none. -/
def bare (envelope payload : SortedMap String Value) : SortedMap String Value :=
  match envelope.get? kindName with
  | some kind => payload.insert kindName kind
  | none => payload

/-- What is under a name once a payload is taken out of its envelope. -/
theorem get?_bare (envelope payload : SortedMap String Value) (name : String) :
    (bare envelope payload).get? name =
      if name = kindName then (envelope.get? kindName).or (payload.get? kindName)
      else payload.get? name := by
  unfold bare
  cases envelope.get? kindName with
  | none => by_cases same : name = kindName <;> simp [same]
  | some kind => simp [SortedMap.get?_insert]

theorem exists_text_bare {given : List (String × Value)}
    (read : Json.objectOf? line = some envelope)
    (each : ∀ member ∈ given, member.2.Nested Json.Number.Spelled (Json.nestingLimit - 1)) :
    ∃ text, Json.objectOf? text =
      some (bare envelope (.ofList (Value.normalMembers given))) := by
  unfold bare
  cases held : envelope.get? kindName with
  | none => exact Json.exists_text_objectOf? each
  | some kind =>
    obtain ⟨value, rfl, nested⟩ := Json.exists_given read held
    have both := List.forall_mem_append.mpr
      ⟨each, List.forall_mem_singleton (a := (kindName, value)).mpr nested⟩
    obtain ⟨text, read⟩ := Json.exists_text_objectOf? both
    refine ⟨text, read.trans (congrArg some ?_)⟩
    rw [Value.normalMembers_eq_map, List.map_append, ← Value.normalMembers_eq_map]
    exact SortedMap.ofList_concat _ _ _

theorem decodeLine_of_objectOf? {object : SortedMap String Value}
    (read : Json.objectOf? line = some object) :
    decodeLine line = ofDocument (.ofValue (unwrap (.object object.entries))) := by
  obtain ⟨members, parsed, same⟩ := Json.objectOf?_eq_some_iff.mp read
  rw [decodeLine, parsed, same, ← Value.normal]

theorem unwrap_envelope (held : envelope.get? payloadName = some (.object payload.entries)) :
    unwrap (.object envelope.entries) = .object (bare envelope payload).entries := by
  simp only [unwrap, SortedMap.lookup_entries, held, bare]
  cases envelope.get? kindName <;> rfl

theorem unwrap_object {object : SortedMap String Value}
    (flat : ∀ members, object.get? payloadName ≠ some (.object members)) :
    unwrap (.object object.entries) = .object object.entries := by
  refine Unwrapped.unwrap_eq ?_
  rintro _ members ⟨⟩ listed
  exact flat members (object.get?_eq_some_iff.mpr listed)

/-- An envelope is decoded as its payload, under the envelope's kind if it has one. -/
theorem decodeLine_envelope_eq (read : Json.objectOf? line = some envelope)
    (held : envelope.get? payloadName = some (.object payload.entries)) :
    decodeLine line = ofMembers (Document.ofMembers (bare envelope payload).entries) := by
  rw [decodeLine_of_objectOf? read, unwrap_envelope held]
  rfl

theorem decodeLine_bare_eq {object : SortedMap String Value}
    (read : Json.objectOf? line = some object)
    (flat : ∀ members, object.get? payloadName ≠ some (.object members)) :
    decodeLine line = ofMembers (Document.ofMembers object.entries) := by
  rw [decodeLine_of_objectOf? read, unwrap_object flat]
  rfl

/-- A payload that is no object is refused. -/
theorem decodeLine_refused {value : Value} (read : Json.objectOf? line = some envelope)
    (held : envelope.get? payloadName = some value) (other : ∀ members, value ≠ .object members) :
    ∃ fault, decodeLine line = .error fault := by
  have flat (members : List (String × Value)) :
      envelope.get? payloadName ≠ some (.object members) := by
    rw [held]
    exact fun same => other members (Option.some.inj same)
  cases decoded : decodeLine line with
  | error fault => exact ⟨fault, rfl⟩
  | ok record =>
    rw [decodeLine_bare_eq read flat] at decoded
    have listed := envelope.get?_eq_some_iff.mp held
    exact absurd (List.mem_map.mpr ⟨_, listed, rfl⟩) (payloadName_not_mem decoded)

/-- A line with an object as its payload is read as the payload by itself would be under the kind of
the line, or under its own if the line has none; lines that agree in these two members are read
alike. A line with anything else as its payload is refused. -/
theorem decodeLine_envelope (read : Json.objectOf? line = some envelope) :
    (∀ members, envelope.get? payloadName = some (.object members) →
      ∃ payload : SortedMap String Value, payload.entries = members ∧
        (∃ text, Json.objectOf? text = some (bare envelope payload)) ∧
        (payload.get? payloadName = none →
          ∀ text, Json.objectOf? text = some (bare envelope payload) →
            decodeLine line = decodeLine text) ∧
        (∀ text other, Json.objectOf? text = some other →
          other.get? payloadName = envelope.get? payloadName →
          other.get? kindName = envelope.get? kindName → decodeLine line = decodeLine text) ∧
        ∀ record, decodeLine line = .ok record →
          (envelope.get? kindName).or (payload.get? kindName) =
            some (.string (label record.kind))) ∧
      ∀ value, envelope.get? payloadName = some value → (∀ members, value ≠ .object members) →
        ∃ fault, decodeLine line = .error fault := by
  refine ⟨fun members held => ?_, fun value held other => decodeLine_refused read held other⟩
  obtain ⟨inner, rfl, nested⟩ := Json.exists_inner read held
  have outcome := decodeLine_envelope_eq read held
  refine ⟨_, rfl, exists_text_bare read nested, fun flat text given => ?_,
    fun text other given same kind => ?_, fun record decoded => ?_⟩
  · rw [outcome, decodeLine_bare_eq given]
    intro members
    rw [get?_bare, if_neg (by decide), flat]
    nofun
  · rw [outcome, decodeLine_envelope_eq given (same.trans held), bare, bare, kind]
  · obtain ⟨_, labelled, _⟩ := known_of_ofMembers (outcome.symm.trans decoded)
    rw [← SortedMap.get?_eq_some_iff, get?_bare, if_pos rfl] at labelled
    exact labelled

/-- The kind of the line wins over the one in its payload. -/
theorem decodeLine_envelope_conflict :
    decodeLine "\x7b\"kind\":\"remove\",\"stats\":\x7b\"kind\":\"call\"\x7d\x7d" =
      .ok ⟨.remove, (default : RemoveStats)⟩ := by
  let inner : SortedMap String Value := ⟨[("kind", .string "call")], by decide⟩
  let outer : SortedMap String Value :=
    ⟨[("kind", .string "remove"), ("stats", .object inner.entries)], by decide⟩
  let alone : SortedMap String Value := ⟨[("kind", .string "remove")], by decide⟩
  have line : Json.objectOf? (Value.object outer.entries).compact = some outer := by
    apply Json.objectOf?_compact
    · refine .object (List.forall_mem_cons.mpr ⟨.string "remove", List.forall_mem_singleton.mpr ?_⟩)
      exact .object (List.forall_mem_singleton.mpr (.string "call"))
    · rfl
  have text : Json.objectOf? (Value.object alone.entries).compact = some alone :=
    Json.objectOf?_compact (.object (List.forall_mem_singleton.mpr (.string "remove"))) rfl
  have held : outer.get? payloadName = some (.object inner.entries) :=
    outer.get?_eq_some_iff.mpr (List.mem_cons_of_mem _ List.mem_cons_self)
  obtain ⟨payload, same, _, alike, _⟩ := (decodeLine_envelope line).1 inner.entries held
  obtain rfl : payload = inner := SortedMap.ext same
  have bared : bare outer inner = alone := by
    have kind : outer.get? kindName = some (.string "remove") :=
      outer.get?_eq_some_iff.mpr List.mem_cons_self
    rw [bare, kind]
    rfl
  have flat : inner.get? payloadName = none := by
    rw [inner.get?_eq_none_iff]
    decide
  have written : (Value.object outer.entries).compact =
      "\x7b\"kind\":\"remove\",\"stats\":\x7b\"kind\":\"call\"\x7d\x7d" := by decide +kernel
  have read : decodeLine (Value.object alone.entries).compact =
      .ok ⟨.remove, (default : RemoveStats)⟩ := by decide +kernel
  rw [← written, alike flat _ (text.trans (congrArg some bared.symm)), read]

end Stats.Record

end StatsRelay
