import StatsRelay.Schema.Label
import StatsRelay.Schema.Table
import StatsRelay.Sorted

/-! Places in the cabin of a vehicle, and groups of places that are controlled together. -/
namespace StatsRelay.Cabin

inductive SeatRow
  | all
  | first
  | second
  | third
deriving DecidableEq, Repr

instance : Labelled SeatRow where
  all := [.all, .first, .second, .third]
  label
    | .all => "all"
    | .first => "first"
    | .second => "second"
    | .third => "third"

namespace SeatRow

def name : SeatRow → String
  | all => "All"
  | first => "First"
  | second => "Second"
  | third => "Third"

def index : SeatRow → Nat
  | all => 0
  | first => 1
  | second => 2
  | third => 3

end SeatRow

inductive SeatColumn
  | all
  | left
  | center
  | right
  | driver
  | passenger
deriving DecidableEq, Repr

instance : Labelled SeatColumn where
  all := [.all, .left, .center, .right, .driver, .passenger]
  label
    | .all => "all"
    | .left => "left"
    | .center => "center"
    | .right => "right"
    | .driver => "driver"
    | .passenger => "passenger"

namespace SeatColumn

def name : SeatColumn → String
  | all => "All"
  | left => "Left"
  | center => "Center"
  | right => "Right"
  | driver => "Driver"
  | passenger => "Passenger"

def index : SeatColumn → Nat
  | all => 0
  | left => 1
  | center => 2
  | right => 3
  | driver => 4
  | passenger => 5

theorem index_lt (column : SeatColumn) : column.index < 6 := by cases column <;> decide

end SeatColumn

structure Zone where
  row : SeatRow
  column : SeatColumn
deriving DecidableEq, Repr

namespace Zone

/-- Rows first, then columns. -/
instance : Ranked Zone where
  rank zone := zone.row.index * 6 + zone.column.index
  rank_injective := by
    rintro ⟨row, column⟩ ⟨row', column'⟩ same
    cases row <;> cases row' <;> cases column <;> cases column' <;>
      first | rfl | exact absurd same (by decide)

def whole : Zone := ⟨.all, .all⟩

def isWhole (zone : Zone) : Bool := zone = whole

def text (zone : Zone) : String := zone.row.name ++ ":" ++ zone.column.name

def table : Table Zone where
  columns := [.required "row" (Labelled.codec : Codec SeatRow),
    .required "column" (Labelled.codec : Codec SeatColumn)]
  strict := false
  ofRow | (row, column, ()) => ⟨row, column⟩
  toRow zone := (zone.row, zone.column, ())

end Zone

abbrev ZoneGroup := SortedSet Zone

namespace ZoneGroup

def whole : ZoneGroup := .ofList [.whole]

def text (group : ZoneGroup) : String :=
  "\x7b" ++ ", ".intercalate (group.keys.map Zone.text) ++ "\x7d"

def codec : Codec ZoneGroup :=
  (Codec.list Zone.table.codec).convert (fun zones => .ok (.ofList zones)) (·.keys)

end ZoneGroup

end StatsRelay.Cabin
