import StatsRelay.Config.Settings
import StatsRelay.Json.Writer
import StatsRelay.Toml.Quoted

/-! Settings as text, in either format and always in the same order. -/
namespace StatsRelay.Config.Settings

def toJson (settings : Settings) : String := (codec.write settings).pretty ++ "\n"

def quoted (text : String) : String := .ofList (Toml.writeString text.toList)

/-- A list of at most one entry stands on its line, a longer one has a line for each. -/
def listText : List String → String
  | [] => "[]"
  | [entry] => "[" ++ quoted entry ++ "]"
  | entries => "[\n" ++ String.join (entries.map fun entry => "    " ++ quoted entry ++ ",\n") ++ "]"

def pairLine (name text : String) : String := name ++ " = " ++ text ++ "\n"

def toToml (settings : Settings) : String :=
  pairLine "version" (toString settings.version.toNat) ++
    pairLine "backends" (listText (settings.backends.map label)) ++
    "\n[sink]\n" ++ pairLine "kind" (quoted (label settings.sink.kind)) ++
    (match settings.sink.path with
      | some path => pairLine "path" (quoted path)
      | none => "") ++
    "\n[baseFields]\n" ++
    String.join (settings.baseFields.entries.map fun field => pairLine field.1 (quoted field.2)) ++
    "\n"

end StatsRelay.Config.Settings
