import StatsRelay.Decimal.Binary
import StatsRelay.Sorted

/-! JSON values. An object keeps its members in their order and may repeat a name; the normal form
has every object's members sorted by name, with the last of several values under one name. -/
namespace StatsRelay.Json

open StatsRelay.Decimal

inductive Number
  | integer (value : Int)
  | single (value : Binary32)
  | double (value : Binary64)
deriving DecidableEq

inductive Value
  | null
  | bool (value : Bool)
  | number (number : Number)
  | string (text : String)
  | array (items : List Value)
  | object (members : List (String × Value))
deriving Inhabited

def sortMembers {ν : Type} (members : List (String × ν)) : List (String × ν) :=
  (SortedMap.ofList members).entries

/-- A number of single precision becomes the same number of double precision. -/
def Number.normal : Number → Number
  | .single value => .double (value.convert .double)
  | number => number

namespace Value

mutual

def normal : Value → Value
  | null => null
  | bool value => bool value
  | number n => number n.normal
  | string text => string text
  | array items => array (normalItems items)
  | object members => object (sortMembers (normalMembers members))

def normalItems : List Value → List Value
  | [] => []
  | item :: rest => normal item :: normalItems rest

def normalMembers : List (String × Value) → List (String × Value)
  | [] => []
  | (name, value) :: rest => (name, normal value) :: normalMembers rest

end

def ofNat (value : Nat) : Value := number (.integer value)

def member? (name : String) : Value → Option Value
  | object members => (members.reverse.find? (·.1 = name)).map (·.2)
  | _ => none

end Value

end StatsRelay.Json
