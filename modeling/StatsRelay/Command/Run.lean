import StatsRelay.Command.Build
import StatsRelay.Command.ProfileText
import StatsRelay.Command.ReplayText
import StatsRelay.Config.Layers
import StatsRelay.Config.Writer
import StatsRelay.Log.LiveReplay

/-! Running a command. All that it needs to know is the surroundings, and all that it does is its
outcome. -/
namespace StatsRelay.Command

open StatsRelay.Config (Settings Variables)
open StatsRelay.Log (Clock Filter Journal Refusals Source Stack Stream Summary)

structure Surroundings where
  environment : Variables
  files : FileSystem
  /-- Standard input. -/
  input : Stream
  clock : Clock
  /-- Which lines of a replay cannot be written to the standard streams. What a command reports in the
  end always can. -/
  streams : Refusals

structure Outcome where
  report : Report
  files : FileSystem

/-- What a command reads: standard input, or the file at a place. -/
inductive Input
  | standard
  | file (place : List String)

namespace Input

/-- Whether a path is a dash. Paths are compared step by step, and steps that change nothing count
only at the start. -/
def isDash (path : String) : Bool :=
  match Text.segments '/' path.toList with
  | ['-'] :: rest => rest.all fun step => step = [] ∨ step = ['.']
  | _ => false

/-- The path of a file. A dash, or no path at all, stands for standard input. -/
def filePath? (path : Option String) : Option String := path.filter fun path => !isDash path

def ofPath (files : FileSystem) (path : Option String) : Except Failure Input :=
  match filePath? path with
  | none => .ok .standard
  | some path =>
    let opened := do
      let place ← files.locate path
      let _ ← files.openInput path
      return place
    match opened with
    | .ok place => .ok (.file place)
    | .error fault => .error (fault.failure.withDetail "path" path)

def readText (surroundings : Surroundings) (input : Input) : Except SystemFault String := do
  match input with
  | standard => FileSystem.textOf (← (Source.ofStream surroundings.input).read)
  | file place => match surroundings.files.entry? place with
    | some entry => FileSystem.textOf (← entry.read)
    | none => throw SystemFault.missing

def name (path : Option String) : String := (filePath? path).getD "stdin"

end Input

def showConfig (surroundings : Surroundings) (mode : OutputMode) (config overrides : Option String) :
    Except Failure String := do
  let settings ← (Config.loadEffective surroundings.files surroundings.environment config
    overrides).mapError (·.failure)
  return match mode with
    | .text => settings.toToml
    | .json => settings.toJson

def emptyInput (path : Option String) : Failure :=
  (Failure.expected ⟨"profile", "empty_input"⟩ "profile input is empty").withDetail "input"
    (Input.name path)

def profile (surroundings : Surroundings) (mode : OutputMode) (path : String) :
    Except Failure String := do
  let input ← Input.ofPath surroundings.files path
  let text ← (input.readText surroundings).mapError (·.failure)
  if Text.trim text = "" then throw (emptyInput path)
  let profile ← (Cabin.Profile.ofText Decimal.Binary64 text).mapError (·.failure)
  return ProfileText.text profile mode

/-- Lines on standard output would mix with an output that programs read. -/
def streamConflict : Failure :=
  ((Failure.expected ⟨"cli", "stdout_sink_conflict"⟩
    "the stdout sink cannot be combined with --output json; use stderr or a file sink").withDetail
      "sink" "stdout").withDetail "output" "json"

def openStack (surroundings : Surroundings) (mode : OutputMode) (config overrides : Option String) :
    Except Failure (Stack × Journal) := do
  let settings ← (Config.loadEffective surroundings.files surroundings.environment config
    overrides).mapError (·.failure)
  if mode = .json ∧ settings.needsSink ∧ settings.sink.kind = .stdout then throw streamConflict
  Stack.open? 0 settings (.start surroundings.files surroundings.streams)

def replayInput (surroundings : Surroundings) (stack : Stack) (journal : Journal) :
    Input → Option (Except SystemFault Summary × Journal)
  | .standard =>
    some (Log.replayStream stack.logger surroundings.clock journal surroundings.input)
  | .file place => Log.replayFile stack.logger surroundings.clock journal place

def filterVariable : String := "OPSTATS_LOG"

def replayOutcome (surroundings : Surroundings) (mode : OutputMode) (stack : Stack)
    (journal : Journal) (result : Except Failure Summary) : Outcome :=
  let journal := match result with
    | .ok summary =>
      journal.add (.event (.replayFinished summary.accepted summary.rejected))
    | .error _ => journal
  let report := Report.ofResult mode do return ReplayText.text stack journal (← result) mode
  let filter := Filter.ofText (surroundings.environment.get? filterVariable)
  ⟨{ report with
      stdout := ReplayText.stdout stack journal ++ report.stdout
      stderr := ReplayText.stderr filter stack journal ++ report.stderr }, journal.files⟩

/-- Replays records. The stack is opened before the input, so a file that both name exists by then. -/
def replay (surroundings : Surroundings) (mode : OutputMode)
    (input config overrides : Option String) : Option Outcome :=
  match openStack surroundings mode config overrides with
  | .error failure => some ⟨.failed mode failure, surroundings.files⟩
  | .ok (stack, journal) =>
    match Input.ofPath journal.files input with
    | .error failure => some (replayOutcome surroundings mode stack journal (.error failure))
    | .ok input =>
      (replayInput surroundings stack journal input).map fun (result, journal) =>
        replayOutcome surroundings mode stack journal (result.mapError (·.failure))

def Task.run (surroundings : Surroundings) (mode : OutputMode) : Task → Option Outcome
  | info => some ⟨.done (Build.text mode), surroundings.files⟩
  | showConfig config overrides =>
    some ⟨.ofResult mode (Command.showConfig surroundings mode config overrides), surroundings.files⟩
  | replay input config overrides => Command.replay surroundings mode input config overrides
  | profile input =>
    some ⟨.ofResult mode (Command.profile surroundings mode input), surroundings.files⟩

def Invocation.run (surroundings : Surroundings) : Invocation → Option Outcome
  | version => some ⟨.done Build.versionText, surroundings.files⟩
  | perform mode task => task.run surroundings mode

namespace Invocation

def paths : Invocation → List String
  | perform _ (.showConfig config _) => config.toList
  | perform _ (.replay input config _) => config.toList ++ (Input.filePath? input).toList
  | perform _ (.profile input) => (Input.filePath? input).toList
  | _ => []

def sinkPath? (files : FileSystem) (vars : Variables) : Invocation → Option String
  | perform _ (.replay _ config overrides) =>
    match Config.loadEffective files vars config overrides with
    | .ok settings => if settings.needsSink then settings.sink.path else none
    | .error _ => none
  | _ => none

def readsInput : Invocation → Bool
  | perform _ (.replay input _ _) => (Input.filePath? input).isNone
  | perform _ (.profile input) => (Input.filePath? input).isNone
  | _ => false

end Invocation

def execute (surroundings : Surroundings) (words : List String) : Option Outcome :=
  match Invocation.parse? words with
  | some invocation => invocation.run surroundings
  | none => some ⟨.usage, surroundings.files⟩

end StatsRelay.Command
