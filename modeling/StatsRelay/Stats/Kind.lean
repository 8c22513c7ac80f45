import StatsRelay.Schema.Label
import StatsRelay.Sorted
import StatsRelay.Text.Blank

/-! The kinds of stats records, in their fixed order. -/
namespace StatsRelay.Stats

inductive Kind
  | call
  | putDocument
  | initialization
  | search
  | remove
  | optimize
  | setSchema
deriving DecidableEq, Inhabited, Repr

namespace Kind

instance : Labelled Kind where
  all := [.call, .putDocument, .initialization, .search, .remove, .optimize, .setSchema]
  label
    | .call => "call"
    | .putDocument => "put_document"
    | .initialization => "initialize"
    | .search => "search"
    | .remove => "remove"
    | .optimize => "optimize"
    | .setSchema => "set_schema"

abbrev all : List Kind := Labelled.all

def index : Kind → Nat
  | call => 0
  | putDocument => 1
  | initialization => 2
  | search => 3
  | remove => 4
  | optimize => 5
  | setSchema => 6

abbrev number : Nat := 7

theorem index_lt (kind : Kind) : kind.index < number := by cases kind <;> decide

def place (kind : Kind) : Fin number := ⟨kind.index, kind.index_lt⟩

instance : Ranked Kind where
  rank := index
  rank_injective {a b} same := by cases a <;> cases b <;> first | rfl | exact absurd same (by decide)

/-- A label in any case, with hyphens for underscores, and blanks around it. -/
def parse? (text : String) : Option Kind :=
  Labelled.ofLabel? <| .ofList <|
    (Text.lower (Text.trim text)).toList.map fun c => if c = '-' then '_' else c

end Kind

end StatsRelay.Stats
