import StatsRelay.Config.Backend
import StatsRelay.Failure

/-! Settings, and the check that brings them into their normal form. -/
namespace StatsRelay.Config

structure SinkSettings where
  kind : SinkKind
  /-- The file that lines are appended to. -/
  path : Option String
deriving DecidableEq

structure Settings where
  version : UInt32
  backends : List Backend
  sink : SinkSettings
  /-- Written into every line. -/
  baseFields : SortedMap String String
deriving DecidableEq

namespace SinkSettings

def standard : SinkSettings := ⟨.stderr, none⟩

def table : Table SinkSettings where
  columns := [.withDefault "kind" Labelled.codec standard.kind,
    { Column.optional "path" .text with shown := Option.isSome }]
  strict := true
  ofRow | (kind, path, ()) => ⟨kind, path⟩
  toRow sink := (sink.kind, sink.path, ())

end SinkSettings

def supportedVersion : UInt32 := 1

def fieldLimit : Nat := 32

inductive SettingsError
  | unsupportedVersion (found : UInt32)
  | noBackends
  | noSinkPath
  | tooManyFields (count : Nat)
  | invalidFieldName (name : String)
deriving DecidableEq

namespace SettingsError

def code : SettingsError → String
  | unsupportedVersion _ => "unsupported_version"
  | noBackends => "empty_backends"
  | noSinkPath => "missing_sink_path"
  | tooManyFields _ => "list_too_large"
  | invalidFieldName _ => "invalid_field_key"

def message : SettingsError → String
  | unsupportedVersion found =>
    "unsupported config version: " ++ toString found.toNat ++ " (supported: " ++
      toString supportedVersion.toNat ++ ")"
  | noBackends => "backends must list at least one backend"
  | noSinkPath => "sink.path is required when sink.kind is file"
  | tooManyFields count =>
    "root.baseFields must have at most " ++ toString fieldLimit ++ " entries (got " ++
      toString count ++ ")"
  | invalidFieldName name => "baseFields key must match /^[A-Za-z][A-Za-z0-9_]*$/: " ++ name

def details : SettingsError → List (String × String)
  | unsupportedVersion found =>
    [("found", toString found.toNat), ("supported", toString supportedVersion.toNat)]
  | noBackends => [("field", "backends")]
  | noSinkPath => [("field", "sink.path")]
  | tooManyFields count => [("section", "root"), ("field", "baseFields"),
      ("len", toString count), ("max", toString fieldLimit)]
  | invalidFieldName name => [("key", name)]

def failure (error : SettingsError) : Failure :=
  error.details.foldl (fun failure detail => failure.withDetail detail.1 detail.2)
    (.expected ⟨"config", error.code⟩ error.message)

end SettingsError

namespace Settings

def standard : Settings := ⟨supportedVersion, [.tracing], .standard, .empty⟩

def table : Table Settings where
  columns := [.withDefault "version" .uint32 standard.version,
    .withDefault "backends" (.list Labelled.codec) standard.backends,
    .withDefault "sink" SinkSettings.table.codec standard.sink,
    .withDefault "baseFields" (.map .text) standard.baseFields]
  strict := true
  ofRow | (version, backends, sink, baseFields, ()) => ⟨version, backends, sink, baseFields⟩
  toRow settings := (settings.version, settings.backends, settings.sink, settings.baseFields, ())

def codec : Codec Settings := table.codec

/-- A letter, then letters, digits and underscores, all of them ASCII. -/
def isFieldName (name : String) : Bool :=
  match name.toList with
  | [] => false
  | first :: rest => first.isAlpha && rest.all fun c => c.isAlphanum || c = '_'

def normalBackends (backends : List Backend) : List Backend := (SortedSet.ofList backends).keys

/-- Only a file has a path, and a path has no blanks around it. -/
def normalSink (sink : SinkSettings) : Except SettingsError SinkSettings :=
  match sink.kind with
  | .file => match (sink.path.map Text.trim).filter (· ≠ "") with
    | some path => .ok ⟨.file, some path⟩
    | none => .error .noSinkPath
  | kind => .ok ⟨kind, none⟩

def validate (settings : Settings) : Except SettingsError Settings := do
  if settings.version ≠ supportedVersion then throw (.unsupportedVersion settings.version)
  let backends := normalBackends settings.backends
  if backends.isEmpty then throw .noBackends
  let sink ← normalSink settings.sink
  if fieldLimit < settings.baseFields.size then throw (.tooManyFields settings.baseFields.size)
  if let some name := settings.baseFields.keys.find? (!isFieldName ·) then
    throw (.invalidFieldName name)
  return ⟨settings.version, backends, sink, settings.baseFields⟩

def needsSink (settings : Settings) : Bool := settings.backends.any Backend.usesSink

end Settings

end StatsRelay.Config
