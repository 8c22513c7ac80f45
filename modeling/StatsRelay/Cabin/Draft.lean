import StatsRelay.Cabin.Profile
import StatsRelay.Failure

/-! Drafts of profiles. A draft is changed part by part and then built, which checks it; every error
says what is wrong with which part. -/
namespace StatsRelay.Cabin

open StatsRelay.Decimal

structure Draft (α : Type) where
  propertyId : Option Int32
  status : Option Status
  carZones : List ZoneGroup
  zoneRanges : Option (SortedMap ZoneGroup (Bounds α))
  celsius : Temperatures
  fahrenheit : Temperatures

/-- Setting one part, or clearing it. -/
inductive Change (α : Type)
  | propertyId (value : Int32)
  | status (value : Status)
  | carZones (groups : List ZoneGroup)
  | zoneRanges (entries : List (ZoneGroup × Bounds α))
  | clearZoneRanges
  | range (scale : Scale) (value : TemperatureRange)
  | clearRange (scale : Scale)
  | increment (scale : Scale) (value : Binary32)

inductive ProfileError
  | missingPropertyId
  | missingStatus
  | noCarZones
  | emptyCarZone (index : Nat)
  | emptyZoneRange (index : Nat)
  | invalidIncrement (scale : Scale) (value : Binary32)
deriving DecidableEq

namespace ProfileError

def incrementName : Scale → String
  | .celsius => "celsius_increment"
  | .fahrenheit => "fahrenheit_increment"

def part : ProfileError → String
  | missingPropertyId => "property_id"
  | missingStatus => "status"
  | noCarZones | emptyCarZone _ => "car_zones"
  | emptyZoneRange _ => "car_zone_sets_to_min_max_range"
  | invalidIncrement scale _ => incrementName scale

def code : ProfileError → String
  | missingPropertyId | missingStatus => "missing_field"
  | noCarZones => "empty_car_zones"
  | emptyCarZone _ | emptyZoneRange _ => "empty_zone_group"
  | invalidIncrement _ _ => "invalid_increment"

def message (error : ProfileError) : String :=
  match error with
  | missingPropertyId | missingStatus => "Missing required properties: " ++ error.part
  | noCarZones => error.part ++ " must contain at least one group"
  | emptyCarZone index | emptyZoneRange index =>
    error.part ++ "[" ++ toString index ++ "] must contain at least one zone"
  | invalidIncrement _ value =>
    error.part ++ " must be positive and finite, got " ++ value.display

def failure (error : ProfileError) : Failure :=
  let failure := Failure.expected ⟨"profile", error.code⟩ error.message
    |>.withDetail "field" error.part
  match error with
  | emptyCarZone index | emptyZoneRange index => failure.withDetail "index" (toString index)
  | invalidIncrement _ value => failure.withDetail "value" value.display
  | _ => failure

end ProfileError

namespace Draft

variable {α : Type}

/-- Controlled for the whole vehicle at once, and nothing else known. -/
def empty : Draft α := ⟨none, none, [.whole], none, ⟨none, none⟩, ⟨none, none⟩⟩

def modify (draft : Draft α) (scale : Scale) (f : Temperatures → Temperatures) : Draft α :=
  match scale with
  | .celsius => { draft with celsius := f draft.celsius }
  | .fahrenheit => { draft with fahrenheit := f draft.fahrenheit }

/-- Of several ranges for one group the last counts. -/
def change (draft : Draft α) : Change α → Draft α
  | .propertyId value => { draft with propertyId := some value }
  | .status value => { draft with status := some value }
  | .carZones groups => { draft with carZones := groups }
  | .zoneRanges entries => { draft with zoneRanges := some (.ofList entries) }
  | .clearZoneRanges => { draft with zoneRanges := none }
  | .range scale value => draft.modify scale fun t => { t with range := some value }
  | .clearRange scale => draft.modify scale fun t => { t with range := none }
  | .increment scale value => draft.modify scale fun t => { t with increment := some value }

/-- The sentinel is no increment; any other must be finite and above zero. -/
def checkIncrement (scale : Scale) (temperatures : Temperatures) :
    Except ProfileError Temperatures :=
  match temperatures.increment with
  | none => .ok temperatures
  | some value =>
    if value = unspecifiedIncrement then .ok { temperatures with increment := none }
    else if value.isFinite && value.isPositive then .ok temperatures
    else .error (.invalidIncrement scale value)

def emptyIndex? (groups : List ZoneGroup) : Option Nat := groups.findIdx? (·.isEmpty)

def build (draft : Draft α) : Except ProfileError (Profile α) := do
  let propertyId ← match draft.propertyId with
    | some value => pure value
    | none => throw .missingPropertyId
  let status ← match draft.status with
    | some value => pure value
    | none => throw .missingStatus
  if draft.carZones.isEmpty then throw .noCarZones
  if let some index := emptyIndex? draft.carZones then throw (.emptyCarZone index)
  if let some ranges := draft.zoneRanges then
    if let some index := emptyIndex? ranges.keys then throw (.emptyZoneRange index)
  let celsius ← checkIncrement .celsius draft.celsius
  let fahrenheit ← checkIncrement .fahrenheit draft.fahrenheit
  return ⟨propertyId, status, draft.carZones, draft.zoneRanges, celsius, fahrenheit⟩

end Draft

end StatsRelay.Cabin
