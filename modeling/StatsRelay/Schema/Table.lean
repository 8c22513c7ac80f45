import StatsRelay.Schema.Codec

/-! Records with named columns. A record is written as an object, and read from an object or from an
array of the values in the order of the columns. -/
namespace StatsRelay

structure Column where
  name : String
  Carrier : Type
  codec : Codec Carrier
  /-- What a record has where the column is left out. -/
  absent : Option Carrier
  /-- Whether a value is written. -/
  shown : Carrier → Bool

namespace Column

variable {α : Type}

abbrev required (name : String) (codec : Codec α) : Column := ⟨name, α, codec, none, fun _ => true⟩

abbrev withDefault (name : String) (codec : Codec α) (absent : α) : Column :=
  ⟨name, α, codec, some absent, fun _ => true⟩

/-- A column that can be left out or null, which is the same. -/
abbrev optional (name : String) (codec : Codec α) : Column :=
  withDefault name (.option codec) none

end Column

def Row : List Column → Type
  | [] => Unit
  | column :: rest => column.Carrier × Row rest

def Slots : List Column → Type
  | [] => Unit
  | column :: rest => Option column.Carrier × Slots rest

namespace Slots

def empty : (columns : List Column) → Slots columns
  | [] => ()
  | _ :: rest => (none, empty rest)

/-- Reads a value into the place of its column, or is nothing if no column has the name. -/
def fill? (name : String) (document : Document) :
    (columns : List Column) → Slots columns → Option (Except Fault (Slots columns))
  | [], _ => none
  | column :: rest, (slot, slots) =>
    if name = column.name then
      some <| if slot.isSome then .error (.duplicateField name) else do
        return (some (← column.codec.read document), slots)
    else (fill? name document rest slots).map fun filled => do return (slot, ← filled)

/-- The row of the values read; a column without one takes what it has when it is left out. -/
def finish : (columns : List Column) → Slots columns → Except Fault (Row columns)
  | [], _ => .ok ()
  | column :: rest, (slot, slots) => do
    let value ← match slot.or column.absent with
      | some value => .ok value
      | none => .error (.missingField column.name)
    return (value, ← finish rest slots)

/-- Reads members in order. A strict reading refuses names of no column; otherwise such a member is
passed over. -/
def fillAll (strict : Bool) {columns : List Column} (slots : Slots columns) :
    List (Option String × Document) → Except Fault (Slots columns)
  | [] => .ok slots
  | (none, _) :: _ => .error .malformed
  | (some name, document) :: rest =>
    match fill? name document columns slots with
    | some filled => do fillAll strict (← filled) rest
    | none =>
      if strict then .error (.unknownField name)
      else if document.isSound then fillAll strict slots rest
      else .error .malformed

end Slots

namespace Row

def ofMembers (strict : Bool) (columns : List Column)
    (members : List (Option String × Document)) : Except Fault (Row columns) := do
  Slots.finish columns (← Slots.fillAll strict (.empty columns) members)

/-- The last columns may be left out if they can. -/
def ofItems : (columns : List Column) → List Document → Except Fault (Row columns)
  | [], [] => .ok ()
  | [], _ :: _ => .error .malformed
  | column :: rest, [] => match column.absent with
    | some value => do return (value, ← ofItems rest [])
    | none => .error .malformed
  | column :: rest, item :: items => do
    let value ← column.codec.read item
    return (value, ← ofItems rest items)

def members : (columns : List Column) → Row columns → List (String × Json.Value)
  | [], _ => []
  | column :: rest, (value, row) =>
    if column.shown value then (column.name, column.codec.write value) :: members rest row
    else members rest row

end Row

/-- The columns of a type of records. -/
structure Table (α : Type) where
  columns : List Column
  /-- Members of other names are refused. -/
  strict : Bool
  ofRow : Row columns → α
  toRow : α → Row columns

namespace Table

variable {α : Type} (table : Table α)

def ofMembers (members : List (Option String × Document)) : Except Fault α :=
  table.ofRow <$> Row.ofMembers table.strict table.columns members

def ofItems (items : List Document) : Except Fault α :=
  table.ofRow <$> Row.ofItems table.columns items

def members (value : α) : List (String × Json.Value) := Row.members table.columns (table.toRow value)

def codec : Codec α where
  read document := match document with
    | .array items => table.ofItems items
    | _ => match document.members? with
      | some members => table.ofMembers members
      | none => .error .malformed
  write value := .object (table.members value)

end Table

end StatsRelay
