import StatsRelay.Cabin.Zone
import StatsRelay.Json.Writer

/-! What a vehicle says about one of its properties: where it can be controlled, between which bounds,
and for temperatures in which steps. -/
namespace StatsRelay.Cabin

open StatsRelay.Decimal

inductive Status
  | unknown
  | success
  | unimplemented
  | unavailable
deriving DecidableEq, Repr

instance : Labelled Status where
  all := [.unknown, .success, .unimplemented, .unavailable]
  label
    | .unknown => "unknown"
    | .success => "success"
    | .unimplemented => "unimplemented"
    | .unavailable => "unavailable"

/-- Types of values that a property can have. -/
class Bound (α : Type) where
  codec : Codec α
  text : α → String

instance : Bound Binary64 := ⟨.double, Binary.display⟩
instance : Bound String := ⟨.text, id⟩

def integerText (value : Int) : String := .ofList (Json.writeInteger value)

instance : Bound Int32 := ⟨.int32, fun value => integerText value.toInt⟩
instance : Bound Int64 := ⟨.int64, fun value => integerText value.toInt⟩

/-- Both bounds are included. -/
structure Bounds (α : Type) where
  min : α
  max : α
deriving DecidableEq

def Bounds.table {α : Type} (codec : Codec α) : Table (Bounds α) where
  columns := [.required "min" codec, .required "max" codec]
  strict := false
  ofRow | (min, max, ()) => ⟨min, max⟩
  toRow bounds := (bounds.min, bounds.max, ())

abbrev TemperatureRange := Bounds Binary32

inductive Scale
  | celsius
  | fahrenheit
deriving DecidableEq, Repr

/-- What is known of the temperatures on one scale. -/
structure Temperatures where
  range : Option TemperatureRange
  increment : Option Binary32
deriving DecidableEq

structure Profile (α : Type) where
  propertyId : Int32
  status : Status
  carZones : List ZoneGroup
  zoneRanges : Option (SortedMap ZoneGroup (Bounds α))
  celsius : Temperatures
  fahrenheit : Temperatures
deriving DecidableEq

/-- The increment that stands for none. -/
def unspecifiedIncrement : Binary32 := .ofInt (-1)

def steppedLimit : Nat := 1024

def stepValue (range : TemperatureRange) (increment : Binary32) (step : Nat) : Binary32 :=
  (Binary.ofInt step).fusedMultiplyAdd increment range.min

/-- A value may exceed the upper bound by a thousandth of an increment, and what is no number
exceeds nothing. -/
def isBeyond (range : TemperatureRange) (increment value : Binary32) : Bool :=
  (range.max.add (increment.mul (.ofRatio false 1 1000))).lt value

/-- The next step, if sixteen bits can hold its number. -/
def nextStep? (step : UInt16) : Option UInt16 :=
  if step.toNat + 1 < UInt16.size then some (step + 1) else none

def addSteps (range : TemperatureRange) (increment : Binary32) (found : List Binary32)
    (step : UInt16) : Option (List Binary32) :=
  if found.length < steppedLimit then
    let value := stepValue range increment step.toNat
    if isBeyond range increment value then
      some found
    else do
      let next ← nextStep? step
      addSteps range increment (found ++ [value]) next
  else
    some found
termination_by steppedLimit - found.length

def steppedValues (range : TemperatureRange) (increment : Binary32) : Option (List Binary32) :=
  addSteps range increment [] 0

namespace Temperatures

def incrementOrSentinel (temperatures : Temperatures) : Binary32 :=
  temperatures.increment.getD unspecifiedIncrement

def values? (temperatures : Temperatures) : Option (List Binary32) := do
  steppedValues (← temperatures.range) (← temperatures.increment)

/-- Equality in which the two zeros are one number, and all that is no number is one. -/
def same (a b : Temperatures) : Bool :=
  (match a.range, b.range with
    | none, none => true
    | some r, some s => r.min.sameOrdered s.min && r.max.sameOrdered s.max
    | _, _ => false) &&
  match a.increment, b.increment with
    | none, none => true
    | some x, some y => x.sameOrdered y
    | _, _ => false

end Temperatures

namespace Profile

variable {α : Type}

def temperatures (profile : Profile α) : Scale → Temperatures
  | .celsius => profile.celsius
  | .fahrenheit => profile.fahrenheit

def bounds? (profile : Profile α) (group : ZoneGroup) : Option (Bounds α) :=
  profile.zoneRanges.bind (·.get? group)

/-- Equality of all parts, temperatures as numbers. -/
def same [DecidableEq α] (a b : Profile α) : Bool :=
  a.propertyId = b.propertyId && a.status = b.status && a.carZones = b.carZones &&
    a.zoneRanges = b.zoneRanges && a.celsius.same b.celsius && a.fahrenheit.same b.fahrenheit

def identifierText (propertyId : Int32) : String :=
  "0x" ++ .ofList (Nat.toDigits 16 propertyId.toBitVec.toNat)

def rangeValue [Bound α] (entry : ZoneGroup × Bounds α) : Json.Value :=
  .object (("zones", ZoneGroup.codec.write entry.1) :: (Bounds.table Bound.codec).members entry.2)

def toValue [Bound α] (profile : Profile α) : Json.Value :=
  let range := Codec.option (Bounds.table Codec.single).codec
  let increment := Codec.option Codec.single
  .object
    [("propertyId", Codec.int32.write profile.propertyId),
      ("status", .string (label profile.status)),
      ("carZones", (Codec.list ZoneGroup.codec).write profile.carZones),
      ("carZoneSetsToMinMaxRange", match profile.zoneRanges with
        | none => .null
        | some ranges => .array (ranges.entries.map rangeValue)),
      ("celsiusRange", range.write profile.celsius.range),
      ("fahrenheitRange", range.write profile.fahrenheit.range),
      ("celsiusIncrement", increment.write profile.celsius.increment),
      ("fahrenheitIncrement", increment.write profile.fahrenheit.increment)]

end Profile

end StatsRelay.Cabin
