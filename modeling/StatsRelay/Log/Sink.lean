import StatsRelay.Config.Settings
import StatsRelay.FileSystem

/-! Sinks of lines. Writes to all of them can fail: to a file for want of room, to a standard stream
or a sink of the caller's own by their number. -/
namespace StatsRelay.Log

inductive SinkError
  | writing (sink : String) (fault : SystemFault)
  | opening (path : String) (fault : SystemFault)
deriving DecidableEq

namespace SinkError

def message : SinkError → String
  | writing sink fault => "failed to write to " ++ sink ++ " sink: " ++ fault.text
  | opening path fault => "failed to open " ++ path ++ ": " ++ fault.text

def failure (error : SinkError) : Failure :=
  match error with
  | writing sink fault =>
    Failure.unexpected ⟨"sink", "write_failed"⟩ error.message fault.kind.retry
      |>.withDetail "sink" sink
  | opening path fault =>
    Failure.unexpected ⟨"sink", "open_failed"⟩ error.message fault.kind.retry
      |>.withDetail "path" path

end SinkError

/-- Why the line of a number cannot be written to a standard stream, if it cannot. The first line is
number one. -/
abbrev Refusals := Nat → Option SystemFault

def Refusals.none : Refusals := fun _ => .none

/-- Where the lines of a sink go. -/
inductive Target
  | stderr
  | stdout
  /-- A file that is open for appending, at a place in the file system. -/
  | file (path : String) (place : List String)
  /-- Keeps each line unless it refuses the write of that number. -/
  | custom (refuses : Nat → Option SinkError)

namespace Target

def name : Target → String
  | stderr => "stderr"
  | stdout => "stdout"
  | file _ _ => "file"
  | custom _ => "custom"

def isFile : Target → Bool
  | file _ _ => true
  | _ => false

def refusal? (target : Target) (streams : Refusals) (number : Nat) : Option SinkError :=
  match target with
  | stderr | stdout => (streams number).map (.writing target.name)
  | file _ _ => none
  | custom refuses => refuses number

/-- Writes the line of a number. Of a line that a file refuses, a part may still stand in it. -/
def write (target : Target) (streams : Refusals) (files : FileSystem) (number : Nat)
    (line : String) : FileSystem × Option SinkError :=
  match target with
  | file _ place =>
    let (files, fault) := files.append place (Text.Utf8.encodeString line)
    (files, fault.map (.writing target.name))
  | _ => (files, target.refusal? streams number)

def openFile (files : FileSystem) (path : String) : Except SinkError (Target × FileSystem) :=
  match files.openAppend path with
  | .ok (files, place) => .ok (file path place, files)
  | .error fault => .error (.opening path fault)

def unnamed : Failure :=
  .invariant ⟨"config", "missing_sink_path"⟩ "file sink reached the factory without a path"

def ofSettings (files : FileSystem) (sink : Config.SinkSettings) :
    Except Failure (Target × FileSystem) :=
  match sink.kind, sink.path with
  | .stderr, _ => .ok (stderr, files)
  | .stdout, _ => .ok (stdout, files)
  | .file, some path => (openFile files path).mapError (·.failure)
  | .file, none => .error unnamed

end Target

/-- A target under an identity, by which its lines are told from those of other sinks. -/
structure Sink where
  id : Nat
  target : Target

end StatsRelay.Log
