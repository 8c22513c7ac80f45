import StatsRelay.Json.Reader

/-! How values of a type are read from a document and written as JSON. Reading names the first fault
in the order of the document. -/
namespace StatsRelay

open StatsRelay.Decimal

structure Codec (α : Type) where
  read : Document → Except Fault α
  write : α → Json.Value

namespace Codec

/-- The value that a whole text describes. A fault in what was read comes before text that should
not follow it. -/
def decode {α : Type} (codec : Codec α) (text : String) : Except Fault α := do
  let reading := Json.read text
  let value ← codec.read reading.document
  if reading.complete then return value else throw .malformed

def text : Codec String where
  read
    | .string (some text) => .ok text
    | _ => .error .malformed
  write := .string

def bool : Codec Bool where
  read
    | .bool value => .ok value
    | _ => .error .malformed
  write := .bool

/-- An integer within bounds; no number that is written with a fraction or an exponent is one. -/
def readInteger (least greatest : Int) : Document → Except Fault Int
  | .number (some (.integer value)) =>
    if least ≤ value ∧ value ≤ greatest then .ok value else .error .malformed
  | _ => .error .malformed

def uint32 : Codec UInt32 where
  read document := do return .ofNat (← readInteger 0 4294967295 document).toNat
  write value := .ofNat value.toNat

def uint64 : Codec UInt64 where
  read document := do return .ofNat (← readInteger 0 18446744073709551615 document).toNat
  write value := .ofNat value.toNat

def int32 : Codec Int32 where
  read document := do return .ofInt (← readInteger (-2147483648) 2147483647 document)
  write value := .number (.integer value.toInt)

def int64 : Codec Int64 where
  read document := do
    return .ofInt (← readInteger (-9223372036854775808) 9223372036854775807 document)
  write value := .number (.integer value.toInt)

def readBinary (f : Format) : Document → Except Fault (Binary f)
  | .number (some (.integer value)) => .ok (.ofInt value)
  | .number (some (.single value)) => .ok (value.convert f)
  | .number (some (.double value)) => .ok (value.convert f)
  | _ => .error .malformed

def single : Codec Binary32 where
  read := readBinary .single
  write value := .number (.single value)

def double : Codec Binary64 where
  read
    | .number (some (.double value)) => .ok value
    | document => readBinary .double document
  write value := .number (.double value)

def option {α : Type} (codec : Codec α) : Codec (Option α) where
  read
    | .null => .ok none
    | document => some <$> codec.read document
  write
    | none => .null
    | some value => codec.write value

def readList {α : Type} (codec : Codec α) : List Document → Except Fault (List α)
  | [] => .ok []
  | item :: rest => do
    let value ← codec.read item
    return value :: (← readList codec rest)

def list {α : Type} (codec : Codec α) : Codec (List α) where
  read
    | .array items => readList codec items
    | _ => .error .malformed
  write values := .array (values.map codec.write)

def readEntries {α : Type} (codec : Codec α) :
    List (Option String × Document) → Except Fault (List (String × α))
  | [] => .ok []
  | (none, _) :: _ => .error .malformed
  | (some name, document) :: rest => do
    let value ← codec.read document
    return (name, value) :: (← readEntries codec rest)

/-- The last of several members under one name counts. -/
def map {α : Type} (codec : Codec α) : Codec (SortedMap String α) where
  read document := match document.members? with
    | some members => SortedMap.ofList <$> readEntries codec members
    | none => .error .malformed
  write entries := .object (entries.entries.map fun entry => (entry.1, codec.write entry.2))

/-- Values that are read as a wider type and then refused or converted. -/
def convert {α β : Type} (codec : Codec α) (fromWide : α → Except Fault β) (toWide : β → α) :
    Codec β where
  read document := codec.read document >>= fromWide
  write value := codec.write (toWide value)

end Codec

end StatsRelay
