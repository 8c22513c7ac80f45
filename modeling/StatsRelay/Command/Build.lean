import StatsRelay.Command.Report

/-! What the program says about itself. -/
namespace StatsRelay.Command.Build

def version : String := "0.1.0"

def name : String := "opstats-cli"

def versionText : String := "opstats " ++ version ++ "\n"

def parts : List (String × String) :=
  [("domain", "domainVersion"), ("config", "configVersion"), ("infra", "infraVersion")]

def lines : List String :=
  ["status: ok", "name: " ++ name, "version: " ++ version] ++
    parts.map fun part => part.1 ++ ": " ++ version

def value : Json.Value :=
  .object [("status", .string "ok"),
    ("build", .object ([("name", .string name), ("version", .string version)] ++
      parts.map fun part => (part.2, .string version)))]

def text : OutputMode → String
  | .text => textOfLines lines
  | .json => textOfValue value

end StatsRelay.Command.Build
