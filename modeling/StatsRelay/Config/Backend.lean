import StatsRelay.Schema.Label
import StatsRelay.Sorted
import StatsRelay.Text.Blank

/-! What can be done with stats records, and where lines of output can go. -/
namespace StatsRelay.Config

inductive Backend
  | counting
  | json
  | noop
  | telemetry
  | tracing
deriving DecidableEq, Repr

namespace Backend

instance : Labelled Backend where
  all := [.counting, .json, .noop, .telemetry, .tracing]
  label
    | .counting => "counting"
    | .json => "json"
    | .noop => "noop"
    | .telemetry => "telemetry"
    | .tracing => "tracing"

def name : Backend → String
  | counting => "Counting"
  | json => "Json"
  | noop => "Noop"
  | telemetry => "Telemetry"
  | tracing => "Tracing"

def index : Backend → Nat
  | counting => 0
  | json => 1
  | noop => 2
  | telemetry => 3
  | tracing => 4

instance : Ranked Backend where
  rank := index
  rank_injective {a b} same := by cases a <;> cases b <;> first | rfl | exact absurd same (by decide)

/-- A label in any case, with blanks around it. -/
def parse? (text : String) : Option Backend := Labelled.ofLabel? (Text.lower (Text.trim text))

def usesSink : Backend → Bool
  | json | telemetry => true
  | _ => false

end Backend

inductive SinkKind
  | stderr
  | stdout
  | file
deriving DecidableEq, Repr

namespace SinkKind

instance : Labelled SinkKind where
  all := [.stderr, .stdout, .file]
  label
    | .stderr => "stderr"
    | .stdout => "stdout"
    | .file => "file"

def parse? (text : String) : Option SinkKind := Labelled.ofLabel? (Text.lower (Text.trim text))

end SinkKind

end StatsRelay.Config
