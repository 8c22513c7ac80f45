import StatsRelay.Log.Event
import StatsRelay.Text.Segments
import StatsRelay.Text.Visible

/-! Which events are shown, and the line of an event that is. A filter is a list of directives; for
each event the one with the longest scope decides. -/
namespace StatsRelay.Log

def Level.rank : Level → Nat
  | debug => 0
  | info => 1
  | warn => 2

def Topic.target : Topic → String
  | stats => "opstats::stats"
  | diagnostics => "opstats"

structure Directive where
  /-- What the targets of the events begin with. -/
  scope : String
  /-- The least level that is shown, if any is. -/
  least : Option Level
deriving DecidableEq, Repr

namespace Directive

/-- The least level shown under the name or the number of a level. No event is graver than a
warning. -/
def least? (name : String) : Option (Option Level) :=
  match Text.lower name with
  | "off" | "0" | "error" | "1" => some none
  | "warn" | "2" => some (some .warn)
  | "info" | "3" => some (some .info)
  | "debug" | "4" | "trace" | "5" | "" => some (some .debug)
  | _ => none

def isScope (text : String) : Bool :=
  match text.toList with
  | [] => false
  | c :: _ => c.isAlphanum || c = '-' || c = ':' || c = '_'

def parse? (text : String) : Option Directive :=
  match (Text.segments '=' text.toList).map String.ofList with
  | [word] => match least? word with
    | some least => some ⟨"", least⟩
    | none => if isScope word then some ⟨word, some .debug⟩ else none
  | [scope, word] => do if isScope scope then return ⟨scope, ← least? word⟩ else none
  | _ => none

def covers (directive : Directive) (topic : Topic) : Bool :=
  directive.scope.toList.isPrefixOf topic.target.toList

/-- Whichever of two directives has the longer scope; of two alike, the second. -/
def narrower (a b : Directive) : Directive := if b.scope.length < a.scope.length then a else b

end Directive

abbrev Filter := List Directive

namespace Filter

def standard : Filter := [⟨"", some .warn⟩, ⟨"opstats::stats", some .info⟩]

/-- The directives between commas, or the standard ones where there is no text or one that cannot be
understood. -/
def ofText : Option String → Filter
  | none => standard
  | some text => ((Text.filledSegments ',' text).mapM Directive.parse?).getD standard

def least (filter : Filter) (topic : Topic) : Option Level :=
  match filter.filter (·.covers topic) with
  | [] => none
  | first :: rest => (rest.foldl Directive.narrower first).least

def shows (filter : Filter) (event : Event) : Bool :=
  match filter.least event.topic with
  | some level => level.rank ≤ event.level.rank
  | none => false

end Filter

namespace FieldValue

def shown : FieldValue → String
  | text value => Text.quoteVisible value
  | plain value => value

end FieldValue

def Event.line (event : Event) : String :=
  event.level.name ++ " " ++ event.topic.target ++ ": " ++ event.message ++
    String.join (event.fields.map fun field => " " ++ field.1 ++ "=" ++ field.2.shown) ++ "\n"

end StatsRelay.Log
