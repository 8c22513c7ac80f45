import StatsRelay.Cabin.Profile

/-! The temperatures that a profile supports. They are found one after another until one is beyond
the upper bound or enough are found, so their number is the first at which either holds, whatever
patterns the bounds and the increment have. -/
namespace StatsRelay.Cabin

open StatsRelay.Decimal

section

variable (range : TemperatureRange) (increment : Binary32)

def firstValues (count : Nat) : List Binary32 :=
  (List.range count).map (stepValue range increment)

/-- The steps below a number have values that are not beyond the upper bound. -/
structure Within (count : Nat) : Prop where
  capped : count ≤ steppedLimit
  within : ∀ step < count, isBeyond range increment (stepValue range increment step) = false

/-- And there are no more such steps, unless they are enough. -/
structure Complete (count : Nat) : Prop extends Within range increment count where
  stopped : count < steppedLimit →
    isBeyond range increment (stepValue range increment count) = true

/-- What has been found when the next value is looked for. -/
structure Collected (found : List Binary32) (step : UInt16) : Prop
    extends Within range increment step.toNat where
  found : found = firstValues range increment step.toNat

variable {range increment}

/-- There are never so many values that the number of the next step wraps. -/
theorem nextStep?_eq {step : UInt16} (few : step.toNat < steppedLimit) :
    ∃ next, nextStep? step = some next ∧ next.toNat = step.toNat + 1 := by
  have small : step.toNat + 1 < UInt16.size := Nat.lt_of_lt_of_le (Nat.succ_lt_succ few) (by decide)
  refine ⟨step + 1, if_pos small, ?_⟩
  rw [UInt16.toNat_add]
  exact Nat.mod_eq_of_lt small

theorem Collected.length {found : List Binary32} {step : UInt16}
    (collected : Collected range increment found step) : found.length = step.toNat := by
  rw [collected.found, firstValues, List.length_map, List.length_range]

/-- One more value, as long as there are not enough. -/
theorem Collected.next {found : List Binary32} {step next : UInt16}
    (collected : Collected range increment found step) (few : step.toNat < steppedLimit)
    (follows : next.toNat = step.toNat + 1)
    (notBeyond : isBeyond range increment (stepValue range increment step.toNat) = false) :
    Collected range increment (found ++ [stepValue range increment step.toNat]) next where
  capped := follows ▸ few
  within earlier before := by
    rcases Nat.lt_succ_iff_lt_or_eq.mp (follows ▸ before) with below | rfl
    · exact collected.within earlier below
    · exact notBeyond
  found := by
    rw [follows, firstValues, List.range_succ, List.map_append, List.map_singleton,
      collected.found, firstValues]

theorem addSteps_eq {found : List Binary32} {step : UInt16}
    (collected : Collected range increment found step) :
    ∃ count, Complete range increment count ∧
      addSteps range increment found step = some (firstValues range increment count) := by
  have length := collected.length
  induction found, step using addSteps.induct range increment with
  | case1 found step room value beyond =>
    refine ⟨step.toNat, ⟨collected.toWithin, fun _ => beyond⟩, ?_⟩
    rw [addSteps, if_pos room, if_pos beyond, collected.found]
  | case2 found step room value notBeyond ih =>
    have few : step.toNat < steppedLimit := length ▸ room
    obtain ⟨next, found', follows⟩ := nextStep?_eq few
    have longer := collected.next few follows (Bool.eq_false_iff.mpr notBeyond)
    obtain ⟨count, complete, added⟩ := ih next longer longer.length
    refine ⟨count, complete, ?_⟩
    rw [addSteps, if_pos room, if_neg notBeyond, found']
    exact added
  | case3 found step full =>
    refine ⟨step.toNat, ⟨collected.toWithin, fun few => absurd (length ▸ few) full⟩, ?_⟩
    rw [addSteps, if_neg full, collected.found]

end

/-- The values are a whole sequence of steps, and never fail for want of a step number. -/
theorem steppedValues_eq (range : TemperatureRange) (increment : Binary32) :
    ∃ count, Complete range increment count ∧
      steppedValues range increment = some (firstValues range increment count) :=
  addSteps_eq
    { capped := Nat.zero_le _
      within := fun _ below => absurd below (Nat.not_lt_zero _)
      found := rfl }

namespace Profile

variable {α : Type}

/-- A profile supports temperatures on a scale just if it has both a range and an increment there,
and then they are all that come before the first that is beyond the upper bound, if enough do not
come before it. -/
theorem values?_stepped (profile : Profile α) (scale : Scale) :
    let temperatures := profile.temperatures scale
    (temperatures.values?.isSome ↔ temperatures.range.isSome ∧ temperatures.increment.isSome) ∧
      ∀ range increment, temperatures.range = some range →
        temperatures.increment = some increment →
          ∃ count, Complete range increment count ∧
            temperatures.values? = some (firstValues range increment count) := by
  intro temperatures
  obtain ⟨range?, increment?⟩ : Temperatures := temperatures
  cases range? with
  | none => simp [Temperatures.values?]
  | some range =>
    cases increment? with
    | none => simp [Temperatures.values?]
    | some increment =>
      obtain ⟨count, complete, stepped⟩ := steppedValues_eq range increment
      have values : Temperatures.values? ⟨some range, some increment⟩ =
          some (firstValues range increment count) := stepped
      refine ⟨by simp [values], fun range' increment' same same' => ?_⟩
      obtain rfl := Option.some.inj same
      obtain rfl := Option.some.inj same'
      exact ⟨count, complete, values⟩

def mild : Profile String where
  propertyId := 1
  status := .success
  carZones := []
  zoneRanges := none
  celsius := ⟨some ⟨.ofInt 16, .ofInt 18⟩, some (.ofRatio false 1 2)⟩
  fahrenheit := ⟨none, none⟩

/-- Both bounds are supported. -/
theorem values?_mild : mild.celsius.values? =
    some [.ofInt 16, .ofRatio false 33 2, .ofInt 17, .ofRatio false 35 2, .ofInt 18] := by
  obtain ⟨count, complete, values⟩ := (values?_stepped mild .celsius).2 _ _ rfl rfl
  have notBeyond : ∀ step < 5, isBeyond ⟨.ofInt 16, .ofInt 18⟩ (.ofRatio false 1 2)
      (stepValue ⟨.ofInt 16, .ofInt 18⟩ (.ofRatio false 1 2) step) = false := by decide +kernel
  have beyond : isBeyond ⟨.ofInt 16, .ofInt 18⟩ (.ofRatio false 1 2)
      (stepValue ⟨.ofInt 16, .ofInt 18⟩ (.ofRatio false 1 2) 5) = true := by decide +kernel
  obtain rfl : count = 5 := by
    rcases Nat.lt_trichotomy count 5 with fewer | same | more
    · have stopped := complete.stopped (Nat.lt_trans fewer (by decide))
      exact absurd (notBeyond count fewer) (by simp [stopped])
    · exact same
    · exact absurd (complete.within 5 more) (by simp [beyond])
  refine values.trans (congrArg some ?_)
  decide +kernel

end Profile

end StatsRelay.Cabin
