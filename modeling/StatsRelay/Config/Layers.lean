import StatsRelay.Config.Environment
import StatsRelay.FileSystem
import StatsRelay.Toml.Reader

/-! Settings from several layers. The environment comes before the overrides, these before the file,
and the file before what holds where nothing is set; only the outcome is checked. -/
namespace StatsRelay.Config

/-- Settings of which each may be left out. -/
structure Overrides where
  version : Option UInt32
  backends : Option (List Backend)
  sinkKind : Option SinkKind
  sinkPath : Option String
  baseFields : Option (SortedMap String String)

namespace Overrides

structure Sink where
  kind : Option SinkKind
  path : Option String

def Sink.table : Table Sink where
  columns := [.optional "kind" (Labelled.codec : Codec SinkKind), .optional "path" .text]
  strict := true
  ofRow | (kind, path, ()) => ⟨kind, path⟩
  toRow sink := (sink.kind, sink.path, ())

def table : Table Overrides where
  columns := [.optional "version" .uint32,
    .optional "backends" (.list (Labelled.codec : Codec Backend)),
    .withDefault "sink" Sink.table.codec ⟨none, none⟩, .optional "baseFields" (.map .text)]
  strict := true
  ofRow
    | (version, backends, sink, baseFields, ()) =>
      ⟨version, backends, sink.kind, sink.path, baseFields⟩
  toRow overrides := (overrides.version, overrides.backends,
    ⟨overrides.sinkKind, overrides.sinkPath⟩, overrides.baseFields, ())

/-- Fields are merged one by one. -/
def apply (overrides : Overrides) (settings : Settings) : Settings where
  version := overrides.version.getD settings.version
  backends := overrides.backends.getD settings.backends
  sink := ⟨overrides.sinkKind.getD settings.sink.kind, overrides.sinkPath.or settings.sink.path⟩
  baseFields := settings.baseFields.merge (overrides.baseFields.getD .empty)

end Overrides

inductive Format
  | json
  | toml
deriving DecidableEq, Repr

/-- What a text of settings is used for: by itself, or as a layer. -/
inductive Role
  | alone
  | file
  | overrides
deriving DecidableEq, Repr

inductive ConfigError
  | environment (error : EnvironmentError)
  | unsupportedFormat (extension : String)
  | unreadableFile (path : String) (fault : SystemFault)
  | malformed (role : Role) (format : Format) (fault : Fault)
  | invalid (error : SettingsError)

namespace ConfigError

def failure : ConfigError → Failure
  | environment error => error.failure
  | unsupportedFormat extension =>
    (Failure.expected ⟨"config", "unsupported_format"⟩
      "unsupported config format; use .json or .toml").withDetail "extension" extension
  | unreadableFile path fault =>
    let code := match fault.kind with
      | .notFound => "config_file_not_found"
      | .permissionDenied => "config_file_permission_denied"
      | _ => "config_file_io"
    (Failure.expected ⟨"config", code⟩ ("failed to read config file: " ++ fault.text)).withDetail
      "path" path
  | malformed role format fault =>
    let subject := if role = .overrides then "overrides" else "config"
    let (code, language) := match format with
      | .json => ("invalid_json", "JSON")
      | .toml => ("invalid_toml", "TOML")
    let failure := Failure.expected ⟨"config", code⟩
      ("invalid " ++ subject ++ " " ++ language ++ ": " ++ fault.message)
    if role = .alone then failure else failure.withDetail "source" subject
  | invalid error => error.failure

end ConfigError

def decode {α : Type} (codec : Codec α) (format : Format) (text : String) : Except Fault α :=
  match format with
  | .json => codec.decode text
  | .toml => match Toml.read? text with
    | some document => codec.read document
    | none => .error .malformed

def decodeLayer {α : Type} (codec : Codec α) (role : Role) (format : Format) (text : String) :
    Except ConfigError α :=
  (decode codec format text).mapError (.malformed role format)

def validated (settings : Settings) : Except ConfigError Settings :=
  settings.validate.mapError .invalid

def parse (format : Format) (text : String) : Except ConfigError Settings := do
  validated (← decodeLayer Settings.codec .alone format text)

def applyLayers (settings : Settings) (overrides : Option String) (environment : Environment) :
    Except ConfigError Settings := do
  let settings ← match overrides with
    | none => pure settings
    | some text => do
      let overrides ← decodeLayer Overrides.table.codec .overrides .json text
      pure (overrides.apply settings)
  validated (environment.apply settings)

def load (file : Option String) (overrides : Option String) (environment : Environment) :
    Except ConfigError Settings := do
  let settings ← match file with
    | none => pure .standard
    | some text => decodeLayer Settings.codec .file .json text
  applyLayers settings overrides environment

/-- The format that the extension of a path tells; without one it is JSON. -/
def formatOf (path : String) : Except ConfigError Format :=
  match (FileSystem.extension? path).map Text.lower with
  | none => .ok .json
  | some "json" => .ok .json
  | some "toml" => .ok .toml
  | some extension => .error (.unsupportedFormat extension)

def readFile (files : FileSystem) (path : String) : Except ConfigError Settings := do
  let format ← formatOf path
  let text ← (files.readText path).mapError (.unreadableFile path)
  decodeLayer Settings.codec .file format text

def loadFile (files : FileSystem) (path : Option String) (overrides : Option String)
    (environment : Environment) : Except ConfigError Settings := do
  let settings ← match path with
    | none => pure .standard
    | some path => readFile files path
  applyLayers settings overrides environment

/-- The settings in effect: the environment is read before all else. -/
def loadEffective (files : FileSystem) (vars : Variables) (path : Option String)
    (overrides : Option String) : Except ConfigError Settings := do
  let environment ← (Environment.read vars).mapError .environment
  loadFile files path overrides environment

def checkVariables (vars : Variables) : Except ConfigError Unit := do
  let environment ← (Environment.read vars).mapError .environment
  discard <| validated (environment.apply .standard)

end StatsRelay.Config
