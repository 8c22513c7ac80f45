import Std.Time.DateTime.Timestamp
import StatsRelay.Command.Run

/-! The program. It looks up what a command line names, and does what the outcome says. The clock is
read once, before that. A replay that has no end is not begun: the program says so, and ends with a
code that no replay ends with. -/
namespace StatsRelay.Main

open StatsRelay.Command

def now : IO UInt64 := do
  return .ofNat (← Std.Time.Timestamp.now).toMillisecondsSinceUnixEpoch.val.toNat

def faultOf (error : IO.Error) : SystemFault :=
  let numbered (kind : SystemFault.Kind) (code : UInt32) (details : String) : SystemFault :=
    ⟨kind, details ++ " (os error " ++ toString code ++ ")"⟩
  match error with
  | .noFileOrDirectory _ code details => numbered .notFound code details
  | .permissionDenied _ code details => numbered .permissionDenied code details
  | .invalidArgument _ code details => numbered .invalidInput code details
  | .interrupted _ code details => numbered .interrupted code details
  | .timeExpired code details => numbered .timedOut code details
  | .inappropriateType _ 21 _ => .isDirectory
  | error => ⟨.other, toString error⟩

partial def readAll (stream : IO.FS.Stream) (before : ByteArray) : IO Log.Stream := do
  try
    let chunk ← stream.read 65536
    if chunk.isEmpty then return before.toList.map .ok
    readAll stream (before ++ chunk)
  catch
    | .interrupted _ _ _ => readAll stream before
    | error => return before.toList.map .ok ++ [.error (faultOf error)]

def environment : IO Config.Variables := do
  let names := filterVariable :: [Config.Variable.backends, .sink, .sinkPath].map (·.name)
  let entries ← names.filterMapM fun name => do
    return (← IO.getEnv name).map (name, ·)
  return .ofList entries

def entry? (path : String) : IO (Option FileSystem.Entry) := do
  try
    return some (.file (← IO.FS.readBinFile path).toList)
  catch
    | .inappropriateType _ 21 _ => return some .directory
    | .noFileOrDirectory _ _ _ => return none
    | error => return some (.barred (faultOf error) (faultOf error))

def workingDirectory : IO FileSystem := do
  let cwd := FileSystem.steps (← IO.currentDir).toString
  return (List.range cwd.length).foldl (fun files n => files.put (cwd.take (n + 1)) .directory)
    { FileSystem.empty with cwd }

def withPath (files : FileSystem) (path : String) : IO FileSystem := do
  let steps := path.splitOn "/"
  (List.range steps.length).foldlM (fun files n => do
    let path := "/".intercalate (steps.take (n + 1))
    match files.locate path, ← entry? path with
    | .ok place, some entry => return files.put place entry
    | _, _ => return files) files

def surroundings (invocation : Option Invocation) : IO Surroundings := do
  let environment ← environment
  let files ← (invocation.elim [] (·.paths)).foldlM withPath (← workingDirectory)
  let files ← (invocation.bind (·.sinkPath? files environment)).toList.foldlM withPath files
  let input ← if invocation.any (·.readsInput) then readAll (← IO.getStdin) .empty else pure []
  let now ← now
  return { environment, files, input, clock := fun _ => now, streams := .none }

def keep (path : String) (before after : FileSystem) : IO Unit := do
  match before.readBytes path, after.readBytes path with
  | .ok old, .ok new => if old ≠ new then IO.FS.writeBinFile path ⟨new.toArray⟩
  | .error _, .ok new => IO.FS.writeBinFile path ⟨new.toArray⟩
  | _, _ => return

def run (words : List String) : IO UInt32 := do
  let invocation := Invocation.parse? words
  let surroundings ← surroundings invocation
  match execute surroundings words with
  | none =>
    (← IO.getStderr).putStrLn "error: the replay has no end, as it reads the records that it writes"
    return 1
  | some outcome =>
    for path in (invocation.bind (·.sinkPath? surroundings.files surroundings.environment)).toList do
      keep path surroundings.files outcome.files
    (← IO.getStdout).putStr outcome.report.stdout
    (← IO.getStderr).putStr outcome.report.stderr
    return outcome.report.exitCode.number.toUInt32

end StatsRelay.Main

def main (words : List String) : IO UInt32 := StatsRelay.Main.run words
