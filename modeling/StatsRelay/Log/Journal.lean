import StatsRelay.Log.Event

/-! The journal of all that loggers have done. What a logger, a sink or a watcher holds is what the
journal says about it, so nothing else has to be kept. -/
namespace StatsRelay.Log

open StatsRelay.Stats

inductive Entry
  | counted (counter : Nat) (record : Record)
  | recorded (recorder : Nat) (record : Record)
  /-- What a recorder has recorded so far is taken away. -/
  | taken (recorder : Nat)
  /-- A line was written to a sink, or refused. -/
  | wrote (writer : Option Nat) (sink : Nat) (line : String) (error : Option SinkError)
  /-- A logger below a fan-out panicked. -/
  | panicked (fanout : Nat)
  | event (event : Event)

structure Journal where
  /-- The newest entry first. -/
  past : List Entry
  files : FileSystem
  streams : Refusals

namespace Journal

def start (files : FileSystem) (streams : Refusals) : Journal := ⟨[], files, streams⟩

def entries (journal : Journal) : List Entry := journal.past.reverse

def add (journal : Journal) (entry : Entry) : Journal :=
  { journal with past := entry :: journal.past }

theorem entries_add (journal : Journal) (entry : Entry) :
    (journal.add entry).entries = journal.entries ++ [entry] := by
  simp [entries, add]

def attempts (journal : Journal) (sink : Nat) : List (String × Option SinkError) :=
  journal.entries.filterMap fun
    | .wrote _ s line error => if s = sink then some (line, error) else none
    | _ => none

def kept (journal : Journal) (sink : Nat) : List String :=
  (journal.attempts sink).filterMap fun (line, error) => if error.isNone then some line else none

def dropped (journal : Journal) (writer : Nat) : Nat :=
  journal.past.countP fun
    | .wrote w _ _ error => w = some writer && error.isSome
    | _ => false

def panics (journal : Journal) (fanout : Nat) : Nat :=
  journal.past.countP fun
    | .panicked f => f = fanout
    | _ => false

def counted (journal : Journal) (counter : Nat) : List Record :=
  journal.entries.filterMap fun
    | .counted c record => if c = counter then some record else none
    | _ => none

/-- The records of a recorder that have not been taken away, read from the newest entry on. -/
def untaken (recorder : Nat) : List Entry → List Record
  | [] => []
  | .recorded r record :: rest =>
    if r = recorder then record :: untaken recorder rest else untaken recorder rest
  | .taken r :: rest => if r = recorder then [] else untaken recorder rest
  | _ :: rest => untaken recorder rest

def recorded (journal : Journal) (recorder : Nat) : List Record :=
  (untaken recorder journal.past).reverse

def events (journal : Journal) : List Event :=
  journal.entries.filterMap fun
    | .event event => some event
    | _ => none

def attemptCount (journal : Journal) (sink : Nat) : Nat :=
  journal.past.countP fun
    | .wrote _ s _ _ => s = sink
    | _ => false

/-- The number of the next line that is written, to whichever sink. -/
def nextLine (journal : Journal) : Nat :=
  (journal.past.countP fun
    | .wrote _ _ _ _ => true
    | _ => false) + 1

def write (journal : Journal) (writer : Option Nat) (sink : Sink) (line : String) :
    Journal × Option SinkError :=
  let (files, error) :=
    sink.target.write journal.streams journal.files (journal.attemptCount sink.id + 1) line
  ({ journal with files }.add (.wrote writer sink.id line error), error)

end Journal

/-- What a counter keeps. Each kind has a cell that counts its records, and one in which their
latencies are added up; all cells wrap at `2 ^ 64`. -/
structure Cells where
  counts : Vector UInt64 Kind.number
  latencies : Vector UInt64 Kind.number

namespace Cells

def empty : Cells := ⟨.replicate _ 0, .replicate _ 0⟩

def cell (cells : Vector UInt64 Kind.number) (kind : Kind) : UInt64 := cells[kind.place]

def bump (cells : Vector UInt64 Kind.number) (kind : Kind) (amount : UInt64) :
    Vector UInt64 Kind.number :=
  cells.set kind.place (cell cells kind + amount)

def add (cells : Cells) (record : Record) : Cells :=
  ⟨bump cells.counts record.kind 1, bump cells.latencies record.kind record.latency⟩

end Cells

/-- The counts of the records that a counter has seen. -/
structure Counts where
  records : List Record

namespace Counts

def cells (counts : Counts) : Cells := counts.records.foldl Cells.add .empty

def count (counts : Counts) (kind : Kind) : Nat := (Cells.cell counts.cells.counts kind).toNat

def latency (counts : Counts) (kind : Kind) : UInt64 := Cells.cell counts.cells.latencies kind

/-- The counts of all kinds together, which wrap in their turn. -/
def total (counts : Counts) : Nat := (counts.cells.counts.foldl (· + ·) 0).toNat

end Counts

end StatsRelay.Log
