import StatsRelay.Stats.Kind
import StatsRelay.Stats.Payload

/-! Stats records: a kind and a payload of that kind. A record is written as one object in which the
kind comes first and the payload's members follow. -/
namespace StatsRelay.Stats

namespace Kind

abbrev Payload : Kind → Type
  | call => CallStats
  | putDocument => PutDocumentStats
  | initialization => InitializationStats
  | search => SearchStats
  | remove => RemoveStats
  | optimize => OptimizeStats
  | setSchema => SetSchemaStats

instance (kind : Kind) : DecidableEq kind.Payload := by cases kind <;> infer_instance

def table : (kind : Kind) → Table kind.Payload
  | call => CallStats.table
  | putDocument => PutDocumentStats.table
  | initialization => InitializationStats.table
  | search => SearchStats.table
  | remove => RemoveStats.table
  | optimize => OptimizeStats.table
  | setSchema => SetSchemaStats.table

end Kind

structure Record where
  kind : Kind
  payload : kind.Payload
deriving DecidableEq

instance : Inhabited Record := ⟨⟨.call, (default : CallStats)⟩⟩

namespace Record

def status : Record → ResultCode
  | ⟨.call, stats⟩ => stats.statusCode
  | ⟨.putDocument, stats⟩ => stats.statusCode
  | ⟨.initialization, stats⟩ => stats.statusCode
  | ⟨.search, stats⟩ => stats.statusCode
  | ⟨.remove, stats⟩ => stats.statusCode
  | ⟨.optimize, stats⟩ => stats.statusCode
  | ⟨.setSchema, stats⟩ => stats.statusCode

def latency : Record → UInt64
  | ⟨.call, stats⟩ => stats.totalLatencyMillis
  | ⟨.putDocument, stats⟩ => stats.totalLatencyMillis
  | ⟨.initialization, stats⟩ => stats.totalLatencyMillis
  | ⟨.search, stats⟩ => stats.totalLatencyMillis
  | ⟨.remove, stats⟩ => stats.totalLatencyMillis
  | ⟨.optimize, stats⟩ => stats.totalLatencyMillis
  | ⟨.setSchema, stats⟩ => stats.totalLatencyMillis

def package? : Record → Option String
  | ⟨.call, stats⟩ => some stats.packageName
  | ⟨.putDocument, stats⟩ => some stats.packageName
  | ⟨.search, stats⟩ => some stats.packageName
  | ⟨.remove, stats⟩ => some stats.packageName
  | ⟨.setSchema, stats⟩ => some stats.packageName
  | ⟨.initialization, _⟩ => none
  | ⟨.optimize, _⟩ => none

def kindName : String := "kind"

def readKind : Document → Except Fault Kind
  | .string (some text) => Labelled.read text
  | _ => .error .malformed

/-- Finds the kind among the members, and keeps the others, each of which has to hold a value. -/
def takeKind : Option Kind → List (Option String × Document) →
    Except Fault (Kind × List (Option String × Document))
  | none, [] => .error (.missingField kindName)
  | some kind, [] => .ok (kind, [])
  | _, (none, _) :: _ => .error .malformed
  | found, (some name, document) :: rest =>
    if name = kindName then
      if found.isSome then .error (.duplicateField kindName)
      else do takeKind (some (← readKind document)) rest
    else if document.value?.isSome then do
      let (kind, others) ← takeKind found rest
      return (kind, (some name, document) :: others)
    else .error .malformed

/-- The kind is found first, wherever it stands; then the other members are decoded in order. -/
def ofMembers (members : List (Option String × Document)) : Except Fault Record := do
  let (kind, others) ← takeKind none members
  return ⟨kind, ← kind.table.ofMembers others⟩

def ofItems : List Document → Except Fault Record
  | [] => .error (.missingField kindName)
  | first :: rest => do
    let kind ← readKind first
    if !rest.all (·.value?.isSome) then throw .malformed
    return ⟨kind, ← kind.table.ofItems rest⟩

def ofDocument : Document → Except Fault Record
  | .object members => ofMembers members
  | .array items => ofItems items
  | _ => .error .malformed

def members (record : Record) : List (String × Json.Value) :=
  record.kind.table.members record.payload

def toValue (record : Record) : Json.Value :=
  .object ((kindName, .string (label record.kind)) :: record.members)

def codec : Codec Record := ⟨ofDocument, toValue⟩

def decode (text : String) : Except Fault Record := codec.decode text

def payloadName : String := "stats"

/-- An object that holds a payload as one of its members stands for the payload, with the kind of
the object if it has one. -/
def unwrap : Json.Value → Json.Value
  | .object members =>
    match members.lookup payloadName with
    | some (.object payload) => match members.lookup kindName with
      | some kind => .object (SortedMap.insertEntry kindName kind payload)
      | none => .object payload
    | _ => .object members
  | value => value

/-- The record of a line: a record as it is, or one that a line of output holds. Of members under
one name the last counts, and members are read in the order of their names. -/
def decodeLine (line : String) : Except Fault Record :=
  match Json.Value.parse? line with
  | some value => ofDocument (.ofValue (unwrap value.normal))
  | none => .error .malformed

end Record

end StatsRelay.Stats
