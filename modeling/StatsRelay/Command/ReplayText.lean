import StatsRelay.Command.Report
import StatsRelay.Log.Filter
import StatsRelay.Log.Replay
import StatsRelay.Log.Stack

/-! A replay as output: its lines on the streams while it runs, and its summary at the end. -/
namespace StatsRelay.Command

open StatsRelay.Stats StatsRelay.Log

namespace ReplayText

def latencies (counts : Counts) : List (Kind × UInt64) :=
  (Kind.all.filter fun kind => 0 < counts.count kind).map fun kind => (kind, counts.latency kind)

def lines (stack : Stack) (journal : Journal) (summary : Summary) : List String :=
  ["status: ok", "backends: " ++ ",".intercalate (stack.backends.map label),
    "accepted: " ++ toString summary.accepted, "rejected: " ++ toString summary.rejected,
    "dropped: " ++ toString (stack.dropped journal)] ++
  (summary.perKind.entries.map fun entry =>
    "count." ++ label entry.1 ++ ": " ++ toString entry.2) ++
  match stack.counts? journal with
    | none => []
    | some counts => (latencies counts).map fun entry =>
      "latencyMillis." ++ label entry.1 ++ ": " ++ toString entry.2.toNat

def value (stack : Stack) (journal : Journal) (summary : Summary) : Json.Value :=
  .object [("status", .string "ok"),
    ("backends", .array (stack.backends.map fun backend => .string (label backend))),
    ("summary", summary.toValue), ("dropped", .ofNat (stack.dropped journal)),
    ("latencyMillis", match stack.counts? journal with
      | none => .null
      | some counts => .object ((latencies counts).map fun entry =>
        (label entry.1, .ofNat entry.2.toNat)))]

def text (stack : Stack) (journal : Journal) (summary : Summary) : OutputMode → String
  | .text => textOfLines (lines stack journal summary)
  | .json => textOfValue (value stack journal summary)

def stdout (stack : Stack) (journal : Journal) : String :=
  match stack.sink.target with
  | .stdout => String.join (journal.kept stack.sink.id)
  | _ => ""

/-- The lines of a stack that writes to standard error, and the events that are shown, in the order
in which they came. -/
def stderr (filter : Filter) (stack : Stack) (journal : Journal) : String :=
  String.join <| journal.entries.filterMap fun
    | .event event => if filter.shows event then some event.line else none
    | .wrote _ sink line none => match stack.sink.target with
      | .stderr => if sink = stack.sink.id then some line else none
      | _ => none
    | _ => none

end ReplayText

end StatsRelay.Command
