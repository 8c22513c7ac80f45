import StatsRelay.Log.Logger
import StatsRelay.Text.Lines

/-! Replaying lines of records into a logger. A line that holds no record is counted and passed over;
only a source that cannot be read further ends a replay early. -/
namespace StatsRelay.Log

open StatsRelay.Stats StatsRelay.Text.Utf8

/-- What a line holds. -/
inductive Finding
  | blank
  | notText
  | invalid (fault : Fault)
  | record (record : Record)

def Finding.ofLine (line : Bytes) : Finding :=
  match decodeString? line with
  | none => .notText
  | some text =>
    if Text.trim text = "" then .blank
    else match Record.decodeLine (Text.trim text) with
      | .ok found => .record found
      | .error fault => .invalid fault

structure Summary where
  accepted : Nat
  rejected : Nat
  perKind : SortedMap Kind Nat
deriving DecidableEq

namespace Summary

def empty : Summary := ⟨0, 0, .empty⟩

def accept (summary : Summary) (kind : Kind) : Summary :=
  { summary with
    accepted := summary.accepted + 1
    perKind := summary.perKind.insert kind ((summary.perKind.get? kind).getD 0 + 1) }

def reject (summary : Summary) : Summary := { summary with rejected := summary.rejected + 1 }

def add (summary : Summary) : Finding → Summary
  | .blank => summary
  | .notText | .invalid _ => summary.reject
  | .record record => summary.accept record.kind

def toValue (summary : Summary) : Json.Value :=
  .object [("accepted", .ofNat summary.accepted), ("rejected", .ofNat summary.rejected),
    ("perKind", .object (summary.perKind.entries.map fun entry => (label entry.1, .ofNat entry.2)))]

end Summary

/-- How far a replay has come. -/
structure Replay where
  /-- The lines read, blank ones too. -/
  lines : Nat
  summary : Summary
  journal : Journal

namespace Replay

def start (journal : Journal) : Replay := ⟨0, .empty, journal⟩

def dispatch (logger : Logger) (clock : Clock) (number : Nat) (line : Bytes) (journal : Journal) :
    Finding → Journal
  | .blank => journal
  | .notText => journal.add (.event (.lineNotText number line))
  | .invalid fault => journal.add (.event (.lineInvalid number fault))
  | .record record => logger.log clock journal record

def step (logger : Logger) (clock : Clock) (replay : Replay) (line : Bytes) : Replay :=
  let finding := Finding.ofLine line
  let number := replay.lines + 1
  ⟨number, replay.summary.add finding, dispatch logger clock number line replay.journal finding⟩

def run (logger : Logger) (clock : Clock) (journal : Journal) (lines : List Bytes) : Replay :=
  lines.foldl (step logger clock) (start journal)

end Replay

/-- What a stream yields, octet by octet. Reading goes on after an interruption, but not after any
other fault. -/
abbrev Stream := List (Except SystemFault UInt8)

instance : Coe Bytes Stream := ⟨List.map .ok⟩

/-- Octets that are read to their end, or until the system refuses to read further. -/
structure Source where
  bytes : Bytes
  fault : Option SystemFault

def Source.ofStream : Stream → Source
  | [] => ⟨[], none⟩
  | .error fault :: rest => if fault.kind = .interrupted then ofStream rest else ⟨[], some fault⟩
  | .ok octet :: rest =>
    let ⟨bytes, fault⟩ := ofStream rest
    ⟨octet :: bytes, fault⟩

def Source.read (source : Source) : Except SystemFault Bytes :=
  match source.fault with
  | none => .ok source.bytes
  | some fault => .error fault

/-- The lines that can be read: one that breaks off is lost. -/
def Source.lines (source : Source) : List Bytes :=
  match source.fault with
  | none => Text.Lines.split source.bytes
  | some _ => Text.Lines.split (Text.Lines.finished source.bytes)

/-- Replays a source. The journal holds what was done also when the source fails. -/
def replay (logger : Logger) (clock : Clock) (journal : Journal) (source : Source) :
    Except SystemFault Summary × Journal :=
  let done := Replay.run logger clock journal source.lines
  (match source.fault with
    | none => .ok done.summary
    | some fault => .error fault, done.journal)

namespace Replay

/-- Replays the rest of a stream, behind the octets that were read of a line, the last one first. A
line is dispatched when its newline or the end of the stream is read. -/
def follow (logger : Logger) (clock : Clock) (replay : Replay) (unfinished : Bytes) :
    Stream → Except SystemFault Summary × Journal
  | [] =>
    let done := if unfinished = [] then replay else replay.step logger clock unfinished.reverse
    (.ok done.summary, done.journal)
  | .error fault :: rest =>
    if fault.kind = .interrupted then replay.follow logger clock unfinished rest
    else (.error fault, replay.journal)
  | .ok octet :: rest =>
    let read := octet :: unfinished
    if octet = Text.Lines.newline then
      (replay.step logger clock read.reverse).follow logger clock [] rest
    else replay.follow logger clock read rest

end Replay

def replayStream (logger : Logger) (clock : Clock) (journal : Journal) (stream : Stream) :
    Except SystemFault Summary × Journal :=
  (Replay.start journal).follow logger clock [] stream

end StatsRelay.Log
