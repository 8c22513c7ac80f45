import StatsRelay.Cabin.Draft

/-! Written descriptions of profiles. Every part of a description may be left out or null, and the
draft then keeps what it starts with. -/
namespace StatsRelay.Cabin

open StatsRelay.Decimal

structure ZoneRange (α : Type) where
  zones : ZoneGroup
  bounds : Bounds α

namespace ZoneRange

def table (α : Type) [Bound α] : Table (ZoneRange α) where
  columns := [.required "zones" ZoneGroup.codec, .required "min" (Bound.codec : Codec α),
    .required "max" (Bound.codec : Codec α)]
  strict := true
  ofRow | (zones, min, max, ()) => ⟨zones, min, max⟩
  toRow range := (range.zones, range.bounds.min, range.bounds.max, ())

end ZoneRange

structure Description (α : Type) where
  propertyId : Option Int32
  status : Option Status
  carZones : Option (List ZoneGroup)
  zoneRanges : Option (List (ZoneRange α))
  celsiusRange : Option TemperatureRange
  fahrenheitRange : Option TemperatureRange
  celsiusIncrement : Option Binary32
  fahrenheitIncrement : Option Binary32

namespace Description

def table (α : Type) [Bound α] : Table (Description α) where
  columns := [.optional "propertyId" .int32,
    .optional "status" (Labelled.codec : Codec Status),
    .optional "carZones" (.list ZoneGroup.codec),
    .optional "carZoneSetsToMinMaxRange" (.list (ZoneRange.table α).codec),
    .optional "celsiusRange" (Bounds.table Codec.single).codec,
    .optional "fahrenheitRange" (Bounds.table Codec.single).codec,
    .optional "celsiusIncrement" .single, .optional "fahrenheitIncrement" .single]
  strict := true
  ofRow
    | (propertyId, status, carZones, zoneRanges, celsiusRange, fahrenheitRange, celsiusIncrement,
      fahrenheitIncrement, ()) =>
      { propertyId, status, carZones, zoneRanges, celsiusRange, fahrenheitRange, celsiusIncrement,
        fahrenheitIncrement }
  toRow description := (description.propertyId, description.status, description.carZones,
    description.zoneRanges, description.celsiusRange, description.fahrenheitRange,
    description.celsiusIncrement, description.fahrenheitIncrement, ())

variable {α : Type}

def changes (description : Description α) : List (Change α) :=
  [description.propertyId.map .propertyId, description.status.map .status,
    description.carZones.map .carZones,
    description.zoneRanges.map fun ranges =>
      .zoneRanges (ranges.map fun range => (range.zones, range.bounds)),
    description.celsiusRange.map (.range .celsius),
    description.fahrenheitRange.map (.range .fahrenheit),
    description.celsiusIncrement.map (.increment .celsius),
    description.fahrenheitIncrement.map (.increment .fahrenheit)].filterMap id

def build (description : Description α) : Except ProfileError (Profile α) :=
  (description.changes.foldl Draft.change .empty).build

end Description

inductive DescriptionError
  | unreadable (fault : Fault)
  | invalid (error : ProfileError)

def DescriptionError.failure : DescriptionError → Failure
  | unreadable fault =>
    .expected ⟨"profile", "invalid_json"⟩ ("invalid profile JSON: " ++ fault.message)
  | invalid error => error.failure

def Profile.ofText (α : Type) [Bound α] (text : String) : Except DescriptionError (Profile α) :=
  match (Description.table α).codec.decode text with
  | .error fault => .error (.unreadable fault)
  | .ok description => description.build.mapError .invalid

end StatsRelay.Cabin
