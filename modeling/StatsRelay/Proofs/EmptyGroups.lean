import StatsRelay.Proofs.ZoneRanges

/-! Groups without zones. The car zones keep their order, so the index that is reported is that of an
empty group; but ranges are put in the order of their sets, where the empty one comes first. -/
namespace StatsRelay.Cabin

variable {α : Type}

theorem ZoneGroup.isEmpty_iff {group : ZoneGroup} : group.isEmpty ↔ group.keys = [] := by
  rw [SortedMap.isEmpty, SortedMap.keys, List.isEmpty_iff, List.map_eq_nil_iff]

namespace Draft

variable {draft : Draft α} {groups : List ZoneGroup} {index : Nat}

theorem exists_vacantAt_iff : (∃ index, VacantAt groups index) ↔ ∃ group ∈ groups, group.isEmpty := by
  constructor
  · rintro ⟨index, group, found, vacant⟩
    exact ⟨group, List.mem_of_getElem? found, vacant⟩
  · rintro ⟨group, group_mem, vacant⟩
    obtain ⟨index, found⟩ := List.mem_iff_getElem?.mp group_mem
    exact ⟨index, group, found, vacant⟩

/-- Among the keys of a map only the first can be empty, as they are in increasing order. -/
theorem vacantAt_keys {ranges : SortedMap ZoneGroup (Bounds α)}
    (vacant : VacantAt ranges.keys index) :
    index = 0 := by
  obtain ⟨group, found, vacant⟩ := vacant
  obtain ⟨inRange, here⟩ := List.getElem?_eq_some_iff.mp found
  have ordered : ranges.keys.Pairwise (compare · · = .lt) := List.pairwise_map.mpr ranges.increasing
  by_contra later
  have before : compare ranges.keys[0] ranges.keys[index] = .lt :=
    List.pairwise_iff_getElem.mp ordered 0 index _ inRange (Nat.pos_of_ne_zero later)
  have before := ZoneGroup.before_of_compare before
  rw [here, ZoneGroup.isEmpty_iff.mp vacant] at before
  exact List.not_lex_nil before

theorem first_iff {error : ProfileError} : draft.First error ↔
    draft.Violates error ∧ draft.Passes error.stage ∧
      ∀ other, draft.Violates other → other.stage = error.stage → error.index ≤ other.index := by
  constructor
  · rintro ⟨violated, least⟩
    refine ⟨violated, fun other also => ?_, fun other also same => ?_⟩
    · rcases Prod.Lex.le_iff.mp (least other also) with before | ⟨same, _⟩
      · exact before.le
      · exact same.le
    · rcases Prod.Lex.le_iff.mp (least other also) with before | ⟨_, within⟩
      · exact absurd same before.ne'
      · exact within
  · rintro ⟨violated, passed, least⟩
    exact passed.first violated least

theorem passes_three_iff : draft.Passes 3 ↔
    draft.propertyId ≠ none ∧ draft.status ≠ none ∧ draft.carZones ≠ [] := by
  constructor
  · intro passed
    refine ⟨fun absent => ?_, fun absent => ?_, fun absent => ?_⟩
    · exact absurd (passed .missingPropertyId absent) (by decide)
    · exact absurd (passed .missingStatus absent) (by decide)
    · exact absurd (passed .noCarZones absent) (by decide)
  · rintro ⟨identified, known, zones⟩ error violated
    grind [cases ProfileError, cases Scale]

theorem passes_four_iff : draft.Passes 4 ↔
    draft.Passes 3 ∧ ∀ group ∈ draft.carZones, ¬group.isEmpty := by
  have vacant : (∃ index, VacantAt draft.carZones index) ↔ ∃ group ∈ draft.carZones, group.isEmpty :=
    exists_vacantAt_iff
  have noneEmpty : (∀ group ∈ draft.carZones, ¬group.isEmpty) ↔
      ∀ index, ¬VacantAt draft.carZones index := by
    simpa using not_congr vacant.symm
  rw [noneEmpty]
  constructor
  · intro passed
    refine ⟨fun error violated => Nat.le_of_succ_le (passed error violated), fun index vacant => ?_⟩
    exact absurd (passed (.emptyCarZone index) vacant) (by simp [ProfileError.stage])
  · rintro ⟨passed, noneEmpty⟩
    exact passed.next (by grind [cases ProfileError, cases Scale])

/-- The first empty group of the car zones is reported, by its position. -/
theorem build_emptyCarZone_iff : draft.build = .error (.emptyCarZone index) ↔
    draft.propertyId ≠ none ∧ draft.status ≠ none ∧ VacantAt draft.carZones index ∧
      ∀ other, VacantAt draft.carZones other → index ≤ other := by
  rw [build_error_iff_first, first_iff]
  constructor
  · rintro ⟨vacant, passed, least⟩
    obtain ⟨identified, known, _⟩ := passes_three_iff.mp passed
    exact ⟨identified, known, vacant, fun other also => least (.emptyCarZone other) also rfl⟩
  · rintro ⟨identified, known, vacant, least⟩
    have listed : draft.carZones ≠ [] := by
      obtain ⟨group, found, _⟩ := vacant
      exact List.ne_nil_of_mem (List.mem_of_getElem? found)
    refine ⟨vacant, passes_three_iff.mpr ⟨identified, known, listed⟩, fun other also same => ?_⟩
    grind [cases ProfileError, cases Scale]

/-- An empty group among the ranges is reported at the position that its key has. -/
theorem build_emptyZoneRange_iff : draft.build = .error (.emptyZoneRange index) ↔
    draft.propertyId ≠ none ∧ draft.status ≠ none ∧ draft.carZones ≠ [] ∧
      (∀ group ∈ draft.carZones, ¬group.isEmpty) ∧ index = 0 ∧
        ∃ ranges, draft.zoneRanges = some ranges ∧ ∃ group ∈ ranges.keys, group.isEmpty := by
  rw [build_error_iff_first, first_iff]
  constructor
  · rintro ⟨⟨ranges, held, vacant⟩, passed, _⟩
    obtain ⟨passed, noneEmpty⟩ := passes_four_iff.mp passed
    obtain ⟨identified, known, listed⟩ := passes_three_iff.mp passed
    exact ⟨identified, known, listed, noneEmpty, vacantAt_keys vacant, ranges, held,
      exists_vacantAt_iff.mp ⟨index, vacant⟩⟩
  · rintro ⟨identified, known, listed, noneEmpty, rfl, ranges, held, vacant⟩
    obtain ⟨place, vacant⟩ := exists_vacantAt_iff.mpr vacant
    obtain rfl := vacantAt_keys vacant
    have passed := passes_three_iff.mpr ⟨identified, known, listed⟩
    exact ⟨⟨ranges, held, vacant⟩, passes_four_iff.mpr ⟨passed, noneEmpty⟩, fun _ _ _ => Nat.zero_le _⟩

end Draft

namespace Description

variable {description : Description α}

theorem vacantAt_carZones_iff {index : Nat} : Draft.VacantAt description.draft.carZones index ↔
    ∃ groups, description.carZones = some groups ∧ Draft.VacantAt groups index := by
  cases zones : description.carZones with
  | some groups => simp [draft, zones]
  | none =>
    have noneEmpty : ¬Draft.VacantAt [.whole] index := by
      intro vacant
      obtain ⟨group, group_mem, vacant⟩ := Draft.exists_vacantAt_iff.mp ⟨index, vacant⟩
      rw [List.mem_singleton.mp group_mem] at vacant
      exact absurd vacant (by decide)
    simpa [draft, zones] using noneEmpty

theorem carZones_filled_iff :
    (description.draft.carZones ≠ [] ∧ ∀ group ∈ description.draft.carZones, ¬group.isEmpty) ↔
      ∀ groups, description.carZones = some groups →
        groups ≠ [] ∧ ∀ group ∈ groups, ¬group.isEmpty := by
  cases zones : description.carZones with
  | some groups => simp [draft, zones]
  | none =>
    have noneEmpty : ¬ZoneGroup.whole.isEmpty := by decide
    simp [draft, zones, noneEmpty]

theorem vacant_zoneRanges_iff :
    (∃ ranges, description.draft.zoneRanges = some ranges ∧ ∃ group ∈ ranges.keys, group.isEmpty) ↔
      ∃ ranges, description.zoneRanges = some ranges ∧ ∃ range ∈ ranges, range.zones.isEmpty := by
  cases ranged : description.zoneRanges with
  | none => simp [draft, ranged]
  | some ranges => simp [draft, ranged, SortedMap.mem_keys_ofList]

end Description

/-- Both kinds of empty groups are found. Among the car zones it is the first that is reported; among
the ranges the index is always zero, wherever the empty group was listed. -/
theorem build_empty_group (description : Description α) (index : Nat) :
    (description.build = .error (.emptyCarZone index) ↔
        description.propertyId ≠ none ∧ description.status ≠ none ∧
          ∃ groups, description.carZones = some groups ∧ Draft.VacantAt groups index ∧
            ∀ other, Draft.VacantAt groups other → index ≤ other) ∧
      (description.build = .error (.emptyZoneRange index) ↔
        description.propertyId ≠ none ∧ description.status ≠ none ∧
          (∀ groups, description.carZones = some groups →
            groups ≠ [] ∧ ∀ group ∈ groups, ¬group.isEmpty) ∧
          index = 0 ∧ ∃ ranges, description.zoneRanges = some ranges ∧
            ∃ range ∈ ranges, range.zones.isEmpty) := by
  rw [Description.build_eq, Draft.build_emptyCarZone_iff, Draft.build_emptyZoneRange_iff]
  constructor
  · refine and_congr_right fun _ => and_congr_right fun _ => ?_
    simp only [Description.vacantAt_carZones_iff]
    grind
  · rw [← Description.carZones_filled_iff, ← Description.vacant_zoneRanges_iff, and_assoc]
    rfl

/-- The second of two ranges has no zones, but the index is that of the first. -/
theorem build_empty_group_second :
    let ranges : List (ZoneRange Int32) := [⟨.whole, ⟨0, 1⟩⟩, ⟨.ofList [], ⟨0, 1⟩⟩]
    let description : Description Int32 :=
      ⟨some 1, some .success, none, some ranges, none, none, none, none⟩
    description.build = .error (.emptyZoneRange 0) ∧
      ¬∃ range, ranges[0]? = some range ∧ range.zones.isEmpty := by
  decide

end StatsRelay.Cabin
