import StatsRelay.Json.Writer
import StatsRelay.Stats.Record

/-! Lines of output: one for a record, and one for each metric. A line is one JSON object and its
line end. -/
namespace StatsRelay.Log

open StatsRelay.Decimal StatsRelay.Json StatsRelay.Stats

abbrev Fields := SortedMap String Value

def lineOf (value : Value) : String := value.compact ++ "\n"

/-- The line of a record, with all members in the order of their names. -/
def recordLine (now : UInt64) (fields : Fields) (record : Record) : String :=
  let extra := if fields.isEmpty then [] else [("fields", Value.object fields.entries)]
  lineOf (Value.normal (.object (("timestampMs", .ofNat now.toNat) ::
    (Record.kindName, .string (label record.kind)) ::
      extra ++ [(Record.payloadName, .object record.members)])))

inductive Metric
  | counter (value : UInt64)
  | timer (milliseconds : UInt64)
  | gauge (value : Binary64)

namespace Metric

def typeName : Metric → String
  | counter _ => "counter"
  | timer _ => "timer"
  | gauge _ => "value"

def number : Metric → Number
  | counter value => .integer value.toNat
  | timer milliseconds => .integer milliseconds.toNat
  | gauge value => .double value

def unit? : Metric → Option String
  | timer _ => some "ms"
  | _ => none

abbrev Tags := SortedMap String String

def tagsValue (tags : Tags) : Value :=
  .object (tags.entries.map fun tag => (tag.1, .string tag.2))

/-- What is written in place of a metric that has no text. -/
def failure : Value :=
  .object [("type", .string "metric"), ("metricType", .string "error"),
    ("name", .string "telemetry.serialize_failed"), ("value", .ofNat 1)]

def encode (text : Option String) : String :=
  match text with
  | some text => text ++ "\n"
  | none => lineOf failure

/-- Every value has a text, so the failure is never written. -/
def line (now : UInt64) (name : String) (metric : Metric) (tags : Tags) : String :=
  let unit := match metric.unit? with
    | some unit => [("unit", Value.string unit)]
    | none => []
  let tags := if tags.isEmpty then [] else [("tags", tagsValue tags)]
  encode (some (Value.object (("type", .string "metric") :: ("timestampMs", .ofNat now.toNat) ::
    ("metricType", .string metric.typeName) :: ("name", .string name) ::
      ("value", .number metric.number) :: unit ++ tags)).compact)

def ofRecord (record : Record) : List (String × Metric) :=
  let name (what : String) := "stats." ++ label record.kind ++ "." ++ what
  [(name "count", .counter 1), (name "latency", .timer record.latency),
    (name "success", .gauge (.ofInt (if record.status.isOk then 1 else 0)))]

def recordTags (record : Record) : Tags :=
  .ofList [("kind", label record.kind), ("status", label record.status)]

end Metric

end StatsRelay.Log
