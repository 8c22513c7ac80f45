import StatsRelay.Command.Arguments
import StatsRelay.Failure
import StatsRelay.Json.Writer

/-! What a command prints on the two streams, and the exit code that it ends with. -/
namespace StatsRelay.Command

inductive ExitCode
  | done
  /-- A failure that the caller cannot help. -/
  | internal
  | invalidInput
  /-- A file or a sink that cannot be opened, read or written. -/
  | inaccessible
deriving DecidableEq, Repr

namespace ExitCode

def number : ExitCode → Nat
  | done => 0
  | internal => 1
  | invalidInput => 2
  | inaccessible => 3

def isAccess (code : Failure.Code) : Bool :=
  match code.area with
  | "sink" => true
  | "config" => "config_file_".toList.isPrefixOf code.name.toList
  | "core" => code = .system || code = .notFound || code = .permissionDenied
  | _ => false

def ofFailure (failure : Failure) : ExitCode :=
  if isAccess failure.code then inaccessible
  else match failure.origin with
    | .expected => invalidInput
    | .invariant | .unexpected => internal

end ExitCode

structure Report where
  exitCode : ExitCode
  stdout : String
  stderr : String
deriving DecidableEq

def textOfLines (lines : List String) : String := String.join (lines.map (· ++ "\n"))

def textOfValue (value : Json.Value) : String := value.normal.pretty ++ "\n"

def failureValue (failure : Failure) : Json.Value :=
  .object [("status", .string "error"), ("error", .object [("code", .string failure.code.text),
    ("kind", .string failure.origin.word), ("class", .string failure.retry.word),
    ("message", .string failure.message), ("metadata",
      .object (failure.details.entries.map fun detail => (detail.1, .string detail.2)))])]

def failureLines (failure : Failure) : List String :=
  ("error: " ++ failure.code.text ++ ": " ++ failure.message) ::
    failure.details.entries.map fun detail => "  " ++ detail.1 ++ ": " ++ detail.2

namespace Report

def done (text : String) : Report := ⟨.done, text, ""⟩

/-- A failure is part of the output only where programs read it. -/
def failed (mode : OutputMode) (failure : Failure) : Report :=
  let exitCode := ExitCode.ofFailure failure
  match mode with
  | .text => ⟨exitCode, "", textOfLines (failureLines failure)⟩
  | .json => ⟨exitCode, textOfValue (failureValue failure), ""⟩

def ofResult (mode : OutputMode) : Except Failure String → Report
  | .ok text => done text
  | .error failure => failed mode failure

def usage : Report :=
  ⟨.invalidInput, "", textOfLines
    ["usage: opstats [--output text|json] info",
      "       opstats [--output text|json] config show [--config FILE] [--overrides-json TEXT]",
      "       opstats [--output text|json] replay [--input FILE] [--config FILE] [--overrides-json TEXT]",
      "       opstats [--output text|json] profile --input FILE",
      "       opstats --version"]⟩

end Report

end StatsRelay.Command
