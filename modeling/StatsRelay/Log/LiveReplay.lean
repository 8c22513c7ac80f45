import StatsRelay.Log.Replay

/-! Replaying a file that may grow while it is read. Every line is read from what the file holds at
that time, so a logger that writes to the same file adds to what is still to be read. -/
namespace StatsRelay.Log

open StatsRelay.Text.Utf8 (Bytes)

structure LiveReplay where
  /-- The octets read so far. -/
  offset : Nat
  replay : Replay

namespace LiveReplay

def start (journal : Journal) : LiveReplay := ⟨0, .start journal⟩

def unread (live : LiveReplay) (place : List String) : Bytes :=
  match live.replay.journal.files.entry? place with
  | some (.file content) => content.drop live.offset
  | _ => []

def next? (logger : Logger) (clock : Clock) (place : List String) (live : LiveReplay) :
    Option LiveReplay :=
  match Text.Lines.next (live.unread place) with
  | ([], _) => none
  | (line, _) => some ⟨live.offset + line.length, live.replay.step logger clock line⟩

def finish? (logger : Logger) (clock : Clock) (place : List String) : Nat → LiveReplay → Option Replay
  | 0, _ => none
  | limit + 1, live => match live.next? logger clock place with
    | none => some live.replay
    | some live => finish? logger clock place limit live

end LiveReplay

/-- The lines to be read for a record whose metrics are appended to the file that it is read from: its
own and three more. -/
def linesPerRecord : Nat := 4

/-- How many reads are enough for a replay that comes to an end. Metrics are no records, so if nothing
else is appended to the file then there are as many lines as these and the read that finds the end; a
replay that goes beyond that reads its own records again, each of which leads to another. Where room
is limited, every octet that is read is one of the file or of that room. -/
def readLimit (content : Bytes) : Option Nat → Nat
  | none => (Text.Lines.split content).length * linesPerRecord + 1
  | some room => content.length + room + 1

def replayFile (logger : Logger) (clock : Clock) (journal : Journal) (place : List String) :
    Option (Except SystemFault Summary × Journal) :=
  match journal.files.entry? place with
  | some (.file content) =>
    (LiveReplay.finish? logger clock place (readLimit content journal.files.room)
      (.start journal)).map fun done => (.ok done.summary, done.journal)
  | some .directory => some (.error .isDirectory, journal)
  | some (.barred reading _) => some (.error reading, journal)
  | some (.damaged first fault) => some (replay logger clock journal ⟨first, some fault⟩)
  | none => some (.error .missing, journal)

end StatsRelay.Log
