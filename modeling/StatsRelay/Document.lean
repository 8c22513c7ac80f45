import StatsRelay.Json.Value

/-! What a reader found in a text, as far as it could read. A text that breaks off is a document with
a fault where the break is: the last item of an array, the last value of an object, or a member
without a name. So a decoder that goes through a document in order meets the faults of the text and
the faults of the content in the order in which they stand. -/
namespace StatsRelay

inductive Document
  | null
  | bool (value : Bool)
  /-- A number without a value is one that no field can hold. -/
  | number (value : Option Json.Number)
  /-- A string without a text escapes half of a pair of code units. -/
  | string (text : Option String)
  | array (items : List Document)
  | object (members : List (Option String × Document))
  /-- A date or a time of day. -/
  | moment
  /-- Nested too deep to be anything else than passed over. -/
  | deep (document : Document)
  | fault
deriving Inhabited

namespace Document

def momentName : String := "$__toml_private_datetime"

def members? : Document → Option (List (Option String × Document))
  | object members => some members
  | moment => some [(some momentName, string (some ""))]
  | _ => none

mutual

/-- Well formed to its end, so that it can be passed over. -/
def isSound : Document → Bool
  | array items => soundItems items
  | object members => soundMembers members
  | deep document => document.isSound
  | fault => false
  | _ => true

def soundItems : List Document → Bool
  | [] => true
  | item :: rest => item.isSound && soundItems rest

def soundMembers : List (Option String × Document) → Bool
  | [] => true
  | (_, value) :: rest => value.isSound && soundMembers rest

end

mutual

def value? : Document → Option Json.Value
  | null => some .null
  | bool value => some (.bool value)
  | number n => n.map .number
  | string text => text.map .string
  | array items => (itemValues? items).map .array
  | object members => (memberValues? members).map .object
  | moment => none
  | deep _ => none
  | fault => none

def itemValues? : List Document → Option (List Json.Value)
  | [] => some []
  | item :: rest => do return (← item.value?) :: (← itemValues? rest)

def memberValues? : List (Option String × Document) → Option (List (String × Json.Value))
  | [] => some []
  | (name, value) :: rest => do return (← name, ← value.value?) :: (← memberValues? rest)

end

mutual

/-- A document with all that is nested too deep set apart. -/
def bounded : Nat → Document → Document
  | 0, array items => deep (array items)
  | 0, object members => deep (object members)
  | room + 1, array items => array (boundedItems room items)
  | room + 1, object members => object (boundedMembers room members)
  | _, document => document

def boundedItems (room : Nat) : List Document → List Document
  | [] => []
  | item :: rest => item.bounded room :: boundedItems room rest

def boundedMembers (room : Nat) : List (Option String × Document) → List (Option String × Document)
  | [] => []
  | (name, value) :: rest => (name, value.bounded room) :: boundedMembers room rest

end

mutual

def ofValue : Json.Value → Document
  | .null => null
  | .bool value => bool value
  | .number n => number (some n)
  | .string text => string (some text)
  | .array items => array (ofItems items)
  | .object members => object (ofMembers members)

def ofItems : List Json.Value → List Document
  | [] => []
  | item :: rest => ofValue item :: ofItems rest

def ofMembers : List (String × Json.Value) → List (Option String × Document)
  | [] => []
  | (name, value) :: rest => (some name, ofValue value) :: ofMembers rest

end

end Document

/-- Why a document does not describe what it should. -/
inductive Fault
  | unknownField (name : String)
  | unknownVariant (name : String)
  | missingField (name : String)
  | duplicateField (name : String)
  | malformed
deriving DecidableEq, Repr

namespace Fault

def quoted (words name : String) : String := words ++ " " ++ "\x60" ++ name ++ "\x60"

def message : Fault → String
  | unknownField name => quoted "unknown field" name
  | unknownVariant name => quoted "unknown variant" name
  | missingField name => quoted "missing field" name
  | duplicateField name => quoted "duplicate field" name
  | malformed => "malformed"

end Fault

end StatsRelay
