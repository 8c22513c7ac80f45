import StatsRelay.Proofs.Accepted
import StatsRelay.Log.Stack

/-! What the lines of a stack say. A record has one line and three metrics have one each; every line
is one object, which is given here member by member. -/
namespace StatsRelay.Log

open StatsRelay.Decimal StatsRelay.Json StatsRelay.Stats

inductive Measure
  | count
  | latency
  | success
deriving DecidableEq

namespace Measure

def name : Measure → String
  | count => "count"
  | latency => "latency"
  | success => "success"

def typeName : Measure → String
  | count => "counter"
  | latency => "timer"
  | success => "value"

def number (record : Record) : Measure → Number
  | count => .integer 1
  | latency => .integer record.latency.toNat
  | success => .double (if record.status.isOk then ⟨0x3FF0000000000000#64⟩ else ⟨0#64⟩)

def unit : Measure → List (String × Value)
  | latency => [("unit", .string "ms")]
  | _ => []

end Measure

def tagsOf (baseFields : SortedMap String String) (record : Record) : SortedMap String String :=
  (baseFields.insert "kind" (label record.kind)).insert "status" (label record.status)

theorem get?_tagsOf (baseFields : SortedMap String String) (record : Record) (key : String) :
    (tagsOf baseFields record).get? key =
      if key = "kind" then some (label record.kind)
      else if key = "status" then some (label record.status)
      else baseFields.get? key := by
  rw [tagsOf, SortedMap.get?_insert, SortedMap.get?_insert]
  grind

/-- A line by what it is about. -/
inductive Written
  | record (now : UInt64) (record : Record)
  | metric (now : UInt64) (record : Record) (measure : Measure)

namespace Written

def payload (record : Record) : List (String × Value) :=
  sortMembers <| record.kind.fields.map fun field =>
    (field.name, field.sort.spelling (field.get record.payload))

def texts (map : SortedMap String String) : Value :=
  .object (map.entries.map fun entry => (entry.1, .string entry.2))

def value (baseFields : SortedMap String String) : Written → Value
  | .record now held =>
    .object ((if baseFields.isEmpty then [] else [("fields", texts baseFields)]) ++
      [("kind", .string (label held.kind)), ("stats", .object (payload held)),
        ("timestampMs", .number (.integer now.toNat))])
  | .metric now held measure =>
    .object ([("type", .string "metric"), ("timestampMs", .number (.integer now.toNat)),
      ("metricType", .string measure.typeName),
      ("name", .string ("stats." ++ label held.kind ++ "." ++ measure.name)),
      ("value", .number (measure.number held))] ++ measure.unit ++
      [("tags", texts (tagsOf baseFields held))])

def line (baseFields : SortedMap String String) (written : Written) : String :=
  lineOf (written.value baseFields)

end Written

end StatsRelay.Log

namespace StatsRelay.Stats.Record

open StatsRelay.Json

/-- A record is written field by field, in the order of its kind. -/
theorem members_eq (record : Record) :
    record.members = record.kind.fields.map fun field =>
      (field.name, field.sort.spelling (field.get record.payload)) := by
  obtain ⟨kind, payload⟩ := record
  cases kind <;> rfl

theorem normal_members (record : Record) :
    Value.normalMembers record.members = record.members := by
  rw [Value.normalMembers_eq_map, members_eq, List.map_map]
  apply List.map_congr_left
  intro field _
  exact congrArg _ (field.sort.normal_eq_spelling_iff.mpr rfl)

end StatsRelay.Stats.Record

namespace StatsRelay.Log

open StatsRelay.Decimal StatsRelay.Json StatsRelay.Stats

namespace Stack

theorem fields_entries (stack : Stack) :
    stack.fields.entries =
      stack.baseFields.entries.map fun field => (field.1, .string field.2) := by
  refine SortedMap.ofList_entries (List.pairwise_map.mpr ?_)
  exact stack.baseFields.increasing

end Stack

private theorem normal_bare (time kind stats : Value) :
    (Value.object [("timestampMs", time), ("kind", kind), ("stats", stats)]).normal =
      .object [("kind", kind.normal), ("stats", stats.normal), ("timestampMs", time.normal)] := by
  rw [Value.normal]
  refine congrArg Value.object (SortedMap.ofList_entries_of_perm ?_ ?_)
  · simp
    decide
  · have moved := List.perm_append_singleton ("timestampMs", time.normal)
      [("kind", kind.normal), ("stats", stats.normal)]
    exact moved.symm

private theorem normal_full (time kind fields stats : Value) :
    (Value.object [("timestampMs", time), ("kind", kind), ("fields", fields),
      ("stats", stats)]).normal =
      .object [("fields", fields.normal), ("kind", kind.normal), ("stats", stats.normal),
        ("timestampMs", time.normal)] := by
  rw [Value.normal]
  refine congrArg Value.object (SortedMap.ofList_entries_of_perm ?_ ?_)
  · simp
    decide
  · have swapped := List.Perm.swap ("fields", fields.normal) ("kind", kind.normal)
      [("stats", stats.normal), ("timestampMs", time.normal)]
    have moved := List.perm_append_singleton ("timestampMs", time.normal)
      [("kind", kind.normal), ("fields", fields.normal), ("stats", stats.normal)]
    exact moved.symm.trans swapped

/-- The line of a record with its members in their written order. -/
theorem recordLine_eq (stack : Stack) (now : UInt64) (record : Record) :
    recordLine now stack.fields record =
      Written.line stack.baseFields (.record now record) := by
  have payload : (Value.object record.members).normal = .object (Written.payload record) := by
    rw [Value.normal, record.normal_members, record.members_eq]
    rfl
  have fields : (Value.object stack.fields.entries).normal = Written.texts stack.baseFields := by
    rw [Value.normal, Value.normalMembers_eq_map, stack.fields_entries, List.map_map]
    refine congrArg Value.object (SortedMap.ofList_entries (List.pairwise_map.mpr ?_))
    exact stack.baseFields.increasing
  have empty : stack.fields.isEmpty = stack.baseFields.isEmpty := by
    simp [SortedMap.isEmpty, stack.fields_entries]
  unfold recordLine Written.line Written.value
  rw [empty]
  cases stack.baseFields.isEmpty with
  | true => exact congrArg lineOf ((normal_bare _ _ _).trans (by rw [payload]; rfl))
  | false => exact congrArg lineOf ((normal_full _ _ _ _).trans (by rw [payload, fields]; rfl))

/-- The tags of a record win over base fields of the same names. -/
theorem merge_recordTags (baseFields : SortedMap String String) (record : Record) :
    baseFields.merge (Metric.recordTags record) = tagsOf baseFields record := by
  apply SortedMap.ext_get?
  intro key
  rw [SortedMap.get?_merge, get?_tagsOf, Metric.recordTags, SortedMap.get?_ofList (by simp)]
  grind

theorem tagsOf_filled (baseFields : SortedMap String String) (record : Record) :
    (tagsOf baseFields record).isEmpty = false := by
  have kind := get?_tagsOf baseFields record "kind"
  cases entries : (tagsOf baseFields record).entries with
  | nil => simp [SortedMap.get?, entries] at kind
  | cons => simp [SortedMap.isEmpty, entries]

/-- The lines of a record's metrics, one for each measure. -/
theorem metricLines_eq (stack : Stack) (now : UInt64) (record : Record) :
    (Metric.ofRecord record).map (fun (name, metric) =>
      metric.line now name (stack.baseFields.merge (Metric.recordTags record))) =
      [.count, .latency, .success].map fun measure =>
        Written.line stack.baseFields (.metric now record measure) := by
  have nonempty := tagsOf_filled stack.baseFields record
  have success : Measure.success.number record =
      .double (.ofInt (if record.status.isOk then 1 else 0)) := by
    unfold Measure.number
    cases record.status.isOk <;> rfl
  rw [merge_recordTags]
  simp only [Metric.ofRecord, List.map_cons, List.map_nil, Metric.line, Written.line,
    Written.value, nonempty, success]
  rfl

end StatsRelay.Log
