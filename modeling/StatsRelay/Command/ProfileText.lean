import StatsRelay.Cabin.Description
import StatsRelay.Command.Report

/-! A property profile as output. -/
namespace StatsRelay.Command

open StatsRelay.Cabin StatsRelay.Decimal

namespace ProfileText

variable {α : Type} [Bound α]

def boundsText (bounds : Bounds α) : String :=
  "[" ++ Bound.text bounds.min ++ ", " ++ Bound.text bounds.max ++ "]"

def rangeText : Option TemperatureRange → String
  | none => "none"
  | some range => "[" ++ range.min.display ++ ", " ++ range.max.display ++ "]"

def incrementText (increment : Binary32) : String :=
  if increment = unspecifiedIncrement then increment.display ++ " (unspecified)"
  else increment.display

def zoneRangeLines : Option (SortedMap ZoneGroup (Bounds α)) → List String
  | none => ["zoneRanges: none"]
  | some ranges => ranges.entries.map fun entry =>
    "zoneRange " ++ entry.1.text ++ ": " ++ boundsText entry.2

def lines (profile : Profile α) : List String :=
  ["status: ok", "propertyId: " ++ Profile.identifierText profile.propertyId,
    "propertyStatus: " ++ label profile.status,
    "carZones: [" ++ ", ".intercalate (profile.carZones.map ZoneGroup.text) ++ "]"] ++
  zoneRangeLines profile.zoneRanges ++
  ["celsiusRange: " ++ rangeText profile.celsius.range,
    "fahrenheitRange: " ++ rangeText profile.fahrenheit.range,
    "celsiusIncrement: " ++ incrementText profile.celsius.incrementOrSentinel,
    "fahrenheitIncrement: " ++ incrementText profile.fahrenheit.incrementOrSentinel]

def value (profile : Profile α) : Json.Value :=
  .object [("status", .string "ok"), ("profile", profile.toValue)]

def text (profile : Profile α) : OutputMode → String
  | .text => textOfLines (lines profile)
  | .json => textOfValue (value profile)

end ProfileText

end StatsRelay.Command
