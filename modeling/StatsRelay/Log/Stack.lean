import StatsRelay.Log.Logger

/-! The loggers that settings ask for, below one fan-out. -/
namespace StatsRelay.Log

open StatsRelay.Config

structure Stack where
  /-- The identity of the fan-out; those of the loggers that keep something follow it. -/
  id : Nat
  backends : List Backend
  sink : Sink
  baseFields : SortedMap String String

namespace Stack

def counter (stack : Stack) : Nat := stack.id + 1
def writer (stack : Stack) : Nat := stack.id + 2
def meter (stack : Stack) : Nat := stack.id + 3

def width : Nat := 4

def fields (stack : Stack) : Fields :=
  .ofList (stack.baseFields.entries.map fun field => (field.1, .string field.2))

def backendLogger (stack : Stack) : Backend → Logger
  | .counting => .counting stack.counter
  | .json => .json stack.writer stack.sink stack.fields
  | .noop => .noop
  | .telemetry => .telemetry ⟨stack.meter, stack.sink, stack.baseFields⟩
  | .tracing => .tracing

def children (stack : Stack) : List Logger := stack.backends.map stack.backendLogger

def logger (stack : Stack) : Logger := .fanout stack.id stack.children

def counts? (stack : Stack) (journal : Journal) : Option Counts :=
  if .counting ∈ stack.backends then some ⟨journal.counted stack.counter⟩ else none

/-- Lines that were refused, and loggers that panicked. -/
def dropped (stack : Stack) (journal : Journal) : Nat :=
  journal.dropped stack.writer + journal.dropped stack.meter + journal.panics stack.id

def text (stack : Stack) (journal : Journal) : String :=
  "StatsLoggerStack \x7b backends: [" ++ ", ".intercalate (stack.backends.map Backend.name) ++
    "], dropped: " ++ toString (stack.dropped journal) ++ ", .. \x7d"

def build (id : Nat) (settings : Settings) (sink : Sink) (journal : Journal) : Stack × Journal :=
  (⟨id, settings.backends, sink, settings.baseFields⟩,
    journal.add (.event (.stackBuilt settings.backends sink.target)))

/-- The stack of some settings over the sink that they name, which is opened only if a backend
writes to it. -/
def open? (id : Nat) (settings : Settings) (journal : Journal) :
    Except Failure (Stack × Journal) := do
  let (target, files) ←
    if settings.needsSink then Target.ofSettings journal.files settings.sink
    else pure (.stderr, journal.files)
  return build id settings ⟨id, target⟩ { journal with files }

end Stack

end StatsRelay.Log
