import StatsRelay.Log.Sink
import StatsRelay.Stats.Record

/-! Events for whoever watches the program at work. -/
namespace StatsRelay.Log

open StatsRelay.Stats

inductive Level
  | debug
  | info
  | warn
deriving DecidableEq, Repr

def Level.name : Level → String
  | debug => "DEBUG"
  | info => "INFO"
  | warn => "WARN"

/-- What an event belongs to: the records themselves, or the working of the program. -/
inductive Topic
  | stats
  | diagnostics
deriving DecidableEq, Repr

inductive FieldValue
  /-- A text, which stands in quotation marks where fields are printed. -/
  | text (value : String)
  | plain (value : String)
deriving DecidableEq, Repr

def FieldValue.raw : FieldValue → String
  | text value => value
  | plain value => value

structure Event where
  level : Level
  topic : Topic
  message : String
  fields : List (String × FieldValue)
deriving DecidableEq

namespace Event

def ofRecord (record : Record) : Event where
  level := if record.status.isOk then .info else .warn
  topic := .stats
  message :=
    if record.status.isOk then "stats recorded" else "stats recorded for failed operation"
  fields := [("kind", .text (label record.kind)), ("status", .text (label record.status)),
    ("latency_ms", .plain (toString record.latency.toNat)),
    ("package", .text (record.package?.getD ""))]

def lineDropped (kind : Kind) (sink : Target) (error : SinkError) : Event :=
  ⟨.warn, .diagnostics, "stats line dropped", [("kind", .plain (label kind)),
    ("sink", .text sink.name), ("error", .plain error.message)]⟩

def metricDropped (metric : String) (sink : Target) (error : SinkError) : Event :=
  ⟨.warn, .diagnostics, "metric dropped", [("metric", .text metric),
    ("sink", .text sink.name), ("error", .plain error.message)]⟩

def loggerPanicked (kind : Kind) (child : Nat) : Event :=
  ⟨.warn, .diagnostics, "stats logger panicked", [("kind", .plain (label kind)),
    ("child", .plain (toString child))]⟩

def stackBuilt (backends : List Config.Backend) (sink : Target) : Event :=
  ⟨.debug, .diagnostics, "stats logger stack built",
    [("backends", .plain ("[" ++ ", ".intercalate (backends.map Config.Backend.name) ++ "]")),
      ("sink", .text sink.name)]⟩

def lineNotText (line : Nat) (octets : Text.Utf8.Bytes) : Event :=
  ⟨.debug, .diagnostics, "skipping non-UTF-8 stats line", [("line", .plain (toString line)),
    ("error", .plain (((Text.Utf8.flaw? 0 octets).map (·.text)).getD ""))]⟩

def lineInvalid (line : Nat) (fault : Fault) : Event :=
  ⟨.debug, .diagnostics, "skipping invalid stats line", [("line", .plain (toString line)),
    ("error", .plain fault.message)]⟩

def replayFinished (accepted rejected : Nat) : Event :=
  ⟨.info, .diagnostics, "replay finished", [("accepted", .plain (toString accepted)),
    ("rejected", .plain (toString rejected))]⟩

end Event

end StatsRelay.Log
