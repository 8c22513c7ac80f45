import StatsRelay.Log.Journal
import StatsRelay.Log.Line

/-! Loggers. What a logger does with a record is a list of actions that depends on nothing but the
record. Only performing a write can fail, and a failure changes no other action; the time that stands
in a line is read when the line is written. -/
namespace StatsRelay.Log

open StatsRelay.Stats

/-- Writes metrics to a sink, each with some tags. -/
structure Telemetry where
  id : Nat
  sink : Sink
  tags : Metric.Tags

inductive Logger
  | noop
  | counting (id : Nat)
  | recording (id : Nat)
  | tracing
  | json (id : Nat) (sink : Sink) (fields : Fields)
  | telemetry (telemetry : Telemetry)
  /-- Hands each record to every child in turn. -/
  | fanout (id : Nat) (children : List Logger)
  /-- Panics on the records of some kinds. -/
  | exploding (on : Kind → Bool)
deriving Inhabited

/-- What a written line is about. -/
inductive Subject
  | record (kind : Kind)
  | metric (name : String)
deriving DecidableEq

def Subject.dropped (subject : Subject) (sink : Target) (error : SinkError) : Event :=
  match subject with
  | record kind => .lineDropped kind sink error
  | metric name => .metricDropped name sink error

/-- What the clock shows when the line of a number is written, in milliseconds since the start of
1970. -/
abbrev Clock := Nat → UInt64

inductive Action
  | note (entry : Entry)
  /-- The line shows the time at which it is written. -/
  | write (writer : Nat) (sink : Sink) (subject : Subject) (line : UInt64 → String)

namespace Action

/-- A write that is refused is followed by a warning. -/
def perform (clock : Clock) (journal : Journal) : Action → Journal
  | note entry => journal.add entry
  | write writer sink subject line =>
    match journal.write (some writer) sink (line (clock journal.nextLine)) with
    | (journal, none) => journal
    | (journal, some error) => journal.add (.event (subject.dropped sink.target error))

end Action

namespace Telemetry

/-- A metric is written with the tags of the telemetry and its own, which win. -/
def write (telemetry : Telemetry) (tags : Metric.Tags) (name : String) (metric : Metric) : Action :=
  .write telemetry.id telemetry.sink (.metric name) fun now =>
    metric.line now name (telemetry.tags.merge tags)

def react (telemetry : Telemetry) (record : Record) : List Action :=
  (Metric.ofRecord record).map fun (name, metric) =>
    telemetry.write (Metric.recordTags record) name metric

end Telemetry

namespace Logger

mutual

def react (record : Record) : Logger → List Action × Bool
  | noop => ([], false)
  | counting id => ([.note (.counted id record)], false)
  | recording id => ([.note (.recorded id record)], false)
  | tracing => ([.note (.event (.ofRecord record))], false)
  | json id sink fields =>
    ([.write id sink (.record record.kind) fun now => recordLine now fields record], false)
  | telemetry t => (t.react record, false)
  | fanout id children => (reactAll record id 0 children, false)
  | exploding on => ([], on record.kind)

/-- The children from a position on. A child that panics is noted, and the next one goes on. -/
def reactAll (record : Record) (id : Nat) (position : Nat) : List Logger → List Action
  | [] => []
  | child :: rest =>
    let (actions, panicked) := react record child
    let notes := if panicked then
      [.note (.panicked id), .note (.event (.loggerPanicked record.kind position))] else []
    actions ++ notes ++ reactAll record id (position + 1) rest

end

def log (logger : Logger) (clock : Clock) (journal : Journal) (record : Record) : Journal :=
  (logger.react record).1.foldl (Action.perform clock) journal

end Logger

end StatsRelay.Log
