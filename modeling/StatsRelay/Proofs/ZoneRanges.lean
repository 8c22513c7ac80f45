import Mathlib.Data.Finset.Dedup
import StatsRelay.Proofs.Descriptions

/-! Ranges for groups of zones. However the zones of a group are listed, they make one set; of the
ranges that are given for a set the last counts, and a profile writes its sets in one order. -/
namespace StatsRelay.Cabin

theorem SeatRow.index_injective : Function.Injective SeatRow.index := by
  intro row row' same
  cases row <;> cases row' <;> first | rfl | cases same

/-- Rows from the front, and in a row the columns as they are declared. -/
def Zone.Before (zone other : Zone) : Prop :=
  zone.row.index < other.row.index ∨
    zone.row = other.row ∧ zone.column.index < other.column.index

/-- The order of zones is that of the vehicle. -/
theorem Zone.compare_eq_lt_iff {zone other : Zone} :
    compare zone other = .lt ↔ zone.Before other := by
  have columnBound := zone.column.index_lt
  have columnBound' := other.column.index_lt
  rw [Ranked.compare_eq, Nat.compare_eq_lt, Zone.Before, ← SeatRow.index_injective.eq_iff]
  simp only [Ranked.rank]
  omega

/-- The first zone in which two lists differ decides, and a list comes before its extensions. -/
def ZoneGroup.Before (zones others : List Zone) : Prop := List.Lex Zone.Before zones others

theorem ZoneGroup.before_of_compare {group other : ZoneGroup} (before : compare group other = .lt) :
    ZoneGroup.Before group.keys other.keys := by
  rw [SortedSet.compare_eq, List.compare_eq_compareLex] at before
  generalize group.keys = zones at before
  generalize other.keys = others at before
  induction zones generalizing others with
  | nil =>
    cases others with
    | nil => simp [List.compareLex_nil_nil] at before
    | cons => exact .nil
  | cons zone rest ih =>
    cases others with
    | nil => simp [List.compareLex_cons_nil] at before
    | cons zone' rest' =>
      rw [List.compareLex_cons_cons, Ordering.then_eq_lt] at before
      rcases before with first | ⟨same, later⟩
      · exact .rel (Zone.compare_eq_lt_iff.mp first)
      · obtain rfl := Std.LawfulEqCmp.eq_of_compare same
        exact .cons (ih _ later)

theorem ZoneGroup.pairwise_before (group : ZoneGroup) : group.keys.Pairwise Zone.Before :=
  (List.pairwise_map.mpr group.increasing).imp Zone.compare_eq_lt_iff.mp

def ZoneGroup.zones (group : ZoneGroup) : Finset Zone := group.keys.toFinset

theorem ZoneGroup.zones_ofList (zones : List Zone) :
    ZoneGroup.zones (.ofList zones) = zones.toFinset := by
  ext zone
  simp [ZoneGroup.zones, SortedSet.mem_keys_ofList]

/-- A group is the set of its zones. -/
theorem ZoneGroup.ofList_eq_iff {zones others : List Zone} :
    (SortedSet.ofList zones : ZoneGroup) = .ofList others ↔ zones.toFinset = others.toFinset := by
  simp [SortedSet.ofList_eq_iff, Finset.ext_iff]

theorem ZoneGroup.zones_injective : Function.Injective ZoneGroup.zones := by
  intro group other same
  rw [← SortedSet.ofList_keys group, ← SortedSet.ofList_keys other]
  exact ZoneGroup.ofList_eq_iff.mpr same

variable {α : Type}

/-- The groups of a description as they are listed, each in any order and with repeats. -/
structure Spelling (α : Type) where
  carZones : Option (List (List Zone))
  zoneRanges : Option (List (List Zone × Bounds α))

namespace Spelling

def sets (spelling : Spelling α) :
    Option (List (Finset Zone)) × Option (List (Finset Zone × Bounds α)) :=
  (spelling.carZones.map (·.map List.toFinset),
    spelling.zoneRanges.map (·.map fun range => (range.1.toFinset, range.2)))

end Spelling

namespace Description

def spelled (description : Description α) (spelling : Spelling α) : Description α :=
  { description with
    carZones := spelling.carZones.map (·.map .ofList)
    zoneRanges := spelling.zoneRanges.map (·.map fun range => ⟨.ofList range.1, range.2⟩) }

/-- Every description is one of its own spellings. -/
theorem exists_spelled (description : Description α) :
    ∃ spelling, description.spelled spelling = description := by
  refine ⟨⟨description.carZones.map (·.map (·.keys)),
    description.zoneRanges.map (·.map fun range => (range.zones.keys, range.bounds))⟩, ?_⟩
  simp [spelled, Function.comp_def, SortedSet.ofList_keys]

theorem spelled_of_sets (description : Description α) {spelling other : Spelling α}
    (same : spelling.sets = other.sets) : description.spelled spelling = description.spelled other := by
  obtain ⟨zones, ranged⟩ := Prod.mk.inj same
  have carZones : (description.spelled spelling).carZones = (description.spelled other).carZones := by
    apply Option.map_injective (List.map_injective_iff.mpr ZoneGroup.zones_injective)
    simpa [spelled, Function.comp_def, ZoneGroup.zones_ofList] using zones
  have zoneRanges :
      (description.spelled spelling).zoneRanges = (description.spelled other).zoneRanges := by
    have apart : Function.Injective fun range : ZoneRange α => (range.zones.zones, range.bounds) := by
      rintro ⟨group, bounds⟩ ⟨group', bounds'⟩ equal
      obtain ⟨zones, rfl⟩ := Prod.mk.inj equal
      obtain rfl : group = group' := ZoneGroup.zones_injective zones
      rfl
    apply Option.map_injective (List.map_injective_iff.mpr apart)
    simpa [spelled, Function.comp_def, ZoneGroup.zones_ofList] using ranged
  exact congrArg₂ (fun carZones zoneRanges => { description with carZones, zoneRanges }) carZones
    zoneRanges

end Description

/-- The bounds of the last range that is given for just the zones of a group. -/
def lastBounds? (ranges : List (List Zone × Bounds α)) (group : ZoneGroup) : Option (Bounds α) :=
  (ranges.reverse.find? (·.1.toFinset = group.zones)).map (·.2)

def rangeRow [Bound α] (range : List Zone × Bounds α) : Json.Value :=
  .object (("zones", .array (range.1.map Zone.table.codec.write)) ::
    (Bounds.table Bound.codec).members range.2)

/-- A profile writes all of its ranges, in the order of their sets. -/
theorem toValue_of_zoneRanges [Bound α] {profile : Profile α}
    {map : SortedMap ZoneGroup (Bounds α)} (held : profile.zoneRanges = some map) :
    ∃ members, ∃ rows : List (List Zone × Bounds α), profile.toValue = .object members ∧
      members.lookup "carZoneSetsToMinMaxRange" = some (.array (rows.map rangeRow)) ∧
      (∀ group bounds, (group.keys, bounds) ∈ rows ↔ profile.bounds? group = some bounds) ∧
      (rows.map (·.1)).Pairwise ZoneGroup.Before ∧ ∀ row ∈ rows, row.1.Pairwise Zone.Before := by
  refine ⟨_, map.entries.map fun entry => (entry.1.keys, entry.2), rfl, ?_, ?_, ?_, ?_⟩
  · rw [held, List.map_map]
    rfl
  · intro group bounds
    have apart : Function.Injective fun entry : ZoneGroup × Bounds α => (entry.1.keys, entry.2) :=
      Function.Injective.prodMap (fun _ _ => SortedSet.ext_keys) Function.injective_id
    rw [Profile.bounds?, held, Option.bind_some, SortedMap.get?_eq_some_iff]
    exact List.mem_map_of_injective apart (a := (group, bounds))
  · rw [List.map_map]
    exact List.pairwise_map.mpr (map.increasing.imp ZoneGroup.before_of_compare)
  · rw [List.forall_mem_map]
    exact fun entry _ => entry.1.pairwise_before

section

variable {description : Description α} {spelling : Spelling α}
  {ranges : List (List Zone × Bounds α)} {profile : Profile α}
  (listed : spelling.zoneRanges = some ranges)
  (built : (description.spelled spelling).build = .ok profile)
include listed built

theorem zoneRanges_of_spelled : profile.zoneRanges =
    some (.ofList (ranges.map fun range => (.ofList range.1, range.2))) := by
  rw [Description.build_eq] at built
  rw [(Draft.heldBy_of_build built).zoneRanges]
  simp [Description.draft, Description.spelled, listed, Function.comp_def]

/-- The bounds of a group are those of the last range given for its zones. -/
theorem bounds?_of_spelled (group : ZoneGroup) :
    profile.bounds? group = lastBounds? ranges group := by
  have same (zones : List Zone) : .ofList zones = group ↔ zones.toFinset = group.zones := by
    rw [← ZoneGroup.zones_ofList, ZoneGroup.zones_injective.eq_iff]
  rw [Profile.bounds?, zoneRanges_of_spelled listed built, Option.bind_some,
    SortedMap.get?_ofList_last, lastBounds?, ← List.map_reverse, List.find?_map]
  simp [Function.comp_def, same]

end

/-- However the zones of a group are listed, a profile has one range for each set of zones that was
listed, with the bounds that were listed last; it writes the sets, and the zones of each, in one
order. So other spellings of the same sets come to the same profile. -/
theorem build_spelled [Bound α] {description : Description α} {spelling : Spelling α}
    {ranges : List (List Zone × Bounds α)} {profile : Profile α}
    (listed : spelling.zoneRanges = some ranges)
    (built : (description.spelled spelling).build = .ok profile) :
    (∃ map, profile.zoneRanges = some map ∧ (map.keys.map ZoneGroup.zones).Nodup ∧
        ∀ zones, zones ∈ map.keys.map ZoneGroup.zones ↔ zones ∈ ranges.map (·.1.toFinset)) ∧
      (∀ group, profile.bounds? group = lastBounds? ranges group) ∧
      (∃ members, ∃ rows : List (List Zone × Bounds α), profile.toValue = .object members ∧
        members.lookup "carZoneSetsToMinMaxRange" = some (.array (rows.map rangeRow)) ∧
        (∀ group bounds, (group.keys, bounds) ∈ rows ↔ profile.bounds? group = some bounds) ∧
        (rows.map (·.1)).Pairwise ZoneGroup.Before ∧ ∀ row ∈ rows, row.1.Pairwise Zone.Before) ∧
      ∀ other, other.sets = spelling.sets → (description.spelled other).build = .ok profile := by
  have held := zoneRanges_of_spelled listed built
  let map : SortedMap ZoneGroup (Bounds α) :=
    .ofList (ranges.map fun range => (.ofList range.1, range.2))
  refine ⟨⟨map, held, ?_, fun zones => ?_⟩, bounds?_of_spelled listed built, ?_, ?_⟩
  · exact (SortedMap.keys_nodup map).map ZoneGroup.zones_injective
  · simp [map, SortedMap.mem_keys_ofList, ZoneGroup.zones_ofList]
  · exact toValue_of_zoneRanges held
  · intro other same
    rw [description.spelled_of_sets same]
    exact built

theorem build_spelled_twice :
    let left : Zone := ⟨.first, .left⟩
    let right : Zone := ⟨.first, .right⟩
    let description : Description Int32 :=
      ⟨some 7, some .success, none, none, none, none, none, none⟩
    let ranges : List (List Zone × Bounds Int32) :=
      [([right, left], ⟨1, 2⟩), ([left], ⟨0, 9⟩), ([left, right, left], ⟨3, 4⟩)]
    let tidy : List (List Zone × Bounds Int32) :=
      [([left, right], ⟨1, 2⟩), ([left], ⟨0, 9⟩), ([left, right], ⟨3, 4⟩)]
    ∃ profile, (description.spelled ⟨none, some ranges⟩).build = .ok profile ∧
      profile.bounds? (.ofList [right, left]) = some ⟨3, 4⟩ ∧
      profile.bounds? (.ofList [right]) = none ∧
      (description.spelled ⟨none, some tidy⟩).build = .ok profile := by
  intro left right description ranges tidy
  obtain ⟨profile, built⟩ : ∃ profile,
      (description.spelled ⟨none, some ranges⟩).build = .ok profile := ⟨_, rfl⟩
  obtain ⟨_, bounds, _, again⟩ := build_spelled rfl built
  refine ⟨profile, built, ?_, ?_, again ⟨none, some tidy⟩ (by decide)⟩
  · rw [bounds]
    decide
  · rw [bounds]
    decide

end StatsRelay.Cabin
