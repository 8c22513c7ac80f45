import StatsRelay.Config.Settings
import StatsRelay.Text.Segments

/-! Settings from environment variables. A variable that is set has a value that is not blank. -/
namespace StatsRelay.Config

inductive Variable
  | backends
  | sink
  | sinkPath
deriving DecidableEq, Repr

def Variable.name : Variable → String
  | backends => "OPSTATS_BACKENDS"
  | sink => "OPSTATS_SINK"
  | sinkPath => "OPSTATS_SINK_PATH"

abbrev Variables := SortedMap String String

def listLimit : Nat := 16

inductive EnvironmentError
  | empty (source : Variable)
  | unsupported (source : Variable) (value : String)
  | tooMany (source : Variable) (count : Nat)
deriving DecidableEq

namespace EnvironmentError

def code : EnvironmentError → String
  | empty _ => "empty_env_var"
  | unsupported _ _ => "invalid_env_enum"
  | tooMany _ _ => "invalid_env_csv"

def message : EnvironmentError → String
  | empty v => v.name ++ " must be non-empty"
  | unsupported v _ => v.name ++ " has an unsupported value"
  | tooMany v count =>
    v.name ++ " is too large (" ++ toString count ++ " items, max " ++ toString listLimit ++ ")"

def details : EnvironmentError → List (String × String)
  | empty v => [("env_var", v.name)]
  | unsupported v value => [("env_var", v.name), ("value", value)]
  | tooMany v count =>
    [("env_var", v.name), ("len", toString count), ("max", toString listLimit)]

def failure (error : EnvironmentError) : Failure :=
  error.details.foldl (fun failure detail => failure.withDetail detail.1 detail.2)
    (.expected ⟨"config", error.code⟩ error.message)

end EnvironmentError

/-- What the environment sets. -/
structure Environment where
  backends : Option (List Backend)
  sink : Option SinkKind
  sinkPath : Option String
deriving DecidableEq

namespace Environment

def empty : Environment := ⟨none, none, none⟩

def isEmpty (environment : Environment) : Bool := environment = empty

def value? (vars : Variables) (v : Variable) : Except EnvironmentError (Option String) :=
  match vars.get? v.name with
  | none => .ok none
  | some value =>
    if Text.trim value = "" then .error (.empty v) else .ok (some (Text.trim value))

/-- A list with commas between its entries; blank entries do not count. -/
def readBackends (v : Variable) (value : String) : Except EnvironmentError (List Backend) := do
  let entries := Text.filledSegments ',' value
  if entries.isEmpty then throw (.empty v)
  if listLimit < entries.length then throw (.tooMany v entries.length)
  let backends ← entries.mapM fun entry => match Backend.parse? entry with
    | some backend => .ok backend
    | none => .error (.unsupported v entry)
  return Settings.normalBackends backends

def readSink (v : Variable) (value : String) : Except EnvironmentError SinkKind :=
  match SinkKind.parse? value with
  | some kind => .ok kind
  | none => .error (.unsupported v value)

def read (vars : Variables) : Except EnvironmentError Environment := do
  let backends ← (← value? vars .backends).mapM (readBackends .backends)
  let sink ← (← value? vars .sink).mapM (readSink .sink)
  let sinkPath ← value? vars .sinkPath
  return ⟨backends, sink, sinkPath⟩

def apply (environment : Environment) (settings : Settings) : Settings :=
  { settings with
    backends := environment.backends.getD settings.backends
    sink := ⟨environment.sink.getD settings.sink.kind, environment.sinkPath.or settings.sink.path⟩ }

end Environment

end StatsRelay.Config
