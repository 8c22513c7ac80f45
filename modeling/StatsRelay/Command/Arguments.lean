/-! The words of a command line. Options stand before or after the words of the command that they
belong to, each at most once in its place; the form of the output can be asked for in every place,
and the last place wins. -/
namespace StatsRelay.Command

inductive OutputMode
  | text
  | json
deriving DecidableEq, Repr

def OutputMode.ofName? : String → Option OutputMode
  | "text" => some text
  | "json" => some json
  | _ => none

/-- Options with a value. -/
inductive Setting
  | output
  | input
  | config
  | overrides
deriving DecidableEq, Repr

namespace Setting

def flag : Setting → String
  | output => "--output"
  | input => "--input"
  | config => "--config"
  | overrides => "--overrides-json"

/-- Paths are not empty, and outputs have one of two forms. -/
def accepts (setting : Setting) (value : String) : Bool :=
  match setting with
  | output => (OutputMode.ofName? value).isSome
  | input | config => value ≠ ""
  | overrides => true

def attached? (setting : Setting) (word : String) : Option String :=
  let start := (setting.flag ++ "=").toList
  if start.isPrefixOf word.toList then some (.ofList (word.toList.drop start.length)) else none

end Setting

/-- The options given in one place. -/
structure Options where
  json : Bool
  values : List (Setting × String)

namespace Options

def empty : Options := ⟨false, []⟩

def get? (options : Options) (setting : Setting) : Option String := options.values.lookup setting

def add? (options : Options) (setting : Setting) (value : String) : Option Options :=
  if (options.get? setting).isNone ∧ setting.accepts value then
    some { options with values := (setting, value) :: options.values }
  else none

/-- Whether a word can be a value of its own: those that begin with a dash are options, but for a
dash alone. -/
def isValue (word : String) : Bool := word = "-" || word.toList.head? ≠ some '-'

def read? (allowed : List Setting) (options : Options) : List String → Option (Options × List String)
  | [] => some (options, [])
  | word :: rest =>
    if word = "--json" then
      if options.json then none else read? allowed { options with json := true } rest
    else match allowed.findSome? fun setting => (setting.attached? word).map (setting, ·) with
      | some (setting, value) => do read? allowed (← options.add? setting value) rest
      | none => match allowed.find? (·.flag = word), rest with
        | none, _ => some (options, word :: rest)
        | some _, [] => none
        | some setting, value :: rest =>
          if isValue value then do read? allowed (← options.add? setting value) rest else none

/-- The options of a place inside another, whose own values come before those around it. -/
def inside (outer inner : Options) : Options where
  json := outer.json || inner.json
  values := inner.values ++ outer.values

def mode (options : Options) : OutputMode :=
  match (options.get? .output).bind OutputMode.ofName? with
  | some mode => mode
  | none => if options.json then .json else .text

end Options

inductive Task
  | info
  | showConfig (config overrides : Option String)
  | replay (input config overrides : Option String)
  | profile (input : String)
deriving DecidableEq, Repr

inductive Invocation
  | version
  | perform (mode : OutputMode) (task : Task)
deriving DecidableEq, Repr

namespace Invocation

def last? (allowed : List Setting) (outer : Options) (words : List String) : Option Options :=
  match Options.read? (.output :: allowed) .empty words with
  | some (options, []) | some (options, ["--"]) => some (outer.inside options)
  | _ => none

def isVersion (word : String) : Bool :=
  word = "--version" || ['-', 'V'].isPrefixOf word.toList

def ofTask? (outer : Options) : List String → Option Invocation
  | "info" :: rest => do
    let options ← last? [] outer rest
    return .perform options.mode .info
  | "replay" :: rest => do
    let options ← last? [.input, .config, .overrides] outer rest
    return .perform options.mode
      (.replay (options.get? .input) (options.get? .config) (options.get? .overrides))
  | "profile" :: rest => do
    let options ← last? [.input] outer rest
    return .perform options.mode (.profile (← options.get? .input))
  | "config" :: rest => do
    let (options, rest) ← Options.read? [.output] .empty rest
    let outer := outer.inside options
    match rest with
    | "show" :: rest => do
      let options ← last? [.config, .overrides] outer rest
      return .perform options.mode (.showConfig (options.get? .config) (options.get? .overrides))
    | _ => none
  | word :: _ => if isVersion word then some .version else none
  | [] => none

def parse? (words : List String) : Option Invocation := do
  let (options, rest) ← Options.read? [.output] .empty words
  ofTask? options rest

end Invocation

end StatsRelay.Command
