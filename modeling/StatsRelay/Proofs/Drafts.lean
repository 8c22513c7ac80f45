import Mathlib.Data.List.Induction
import Mathlib.Data.Prod.Lex
import StatsRelay.Cabin.Description
import StatsRelay.Proofs.Rounding
import StatsRelay.Proofs.SortedMap

/-! What becomes of a draft. Each part is what the last change that speaks of it leaves, so whole
sequences of changes are judged by the parts they settle; the checks pass over the parts stage by
stage, and the first that fails gives the error. -/
namespace StatsRelay.Cabin

open StatsRelay.Decimal

variable {α : Type}

instance : Std.TransOrd ZoneGroup := inferInstance
instance : Std.LawfulEqOrd ZoneGroup := inferInstance

namespace Change

def propertyId? : Change α → Option Int32
  | propertyId value => some value
  | _ => none

def status? : Change α → Option Status
  | status value => some value
  | _ => none

def carZones? : Change α → Option (List ZoneGroup)
  | carZones groups => some groups
  | _ => none

def zoneRanges? : Change α → Option (Option (SortedMap ZoneGroup (Bounds α)))
  | zoneRanges entries => some (some (.ofList entries))
  | clearZoneRanges => some none
  | _ => none

def range? (scale : Scale) : Change α → Option (Option TemperatureRange)
  | range other value => if other = scale then some (some value) else none
  | clearRange other => if other = scale then some none else none
  | _ => none

def increment? (scale : Scale) : Change α → Option Binary32
  | increment other value => if other = scale then some value else none
  | _ => none

end Change

/-- What the last change that speaks of a part leaves of it. -/
def lastLeft {β : Type} (left : Change α → Option β) (changes : List (Change α)) : Option β :=
  (changes.filterMap left).getLast?

def settledTemperatures (changes : List (Change α)) (scale : Scale) : Temperatures where
  range := (lastLeft (Change.range? scale) changes).getD none
  increment := lastLeft (Change.increment? scale) changes

/-- Each part as its last change leaves it; one that no change speaks of is as at first. -/
def settled (changes : List (Change α)) : Draft α where
  propertyId := lastLeft Change.propertyId? changes
  status := lastLeft Change.status? changes
  carZones := (lastLeft Change.carZones? changes).getD [.whole]
  zoneRanges := (lastLeft Change.zoneRanges? changes).getD none
  celsius := settledTemperatures changes .celsius
  fahrenheit := settledTemperatures changes .fahrenheit

section

variable {β : Type} (left : Change α → Option β)

theorem lastLeft_append (earlier : List (Change α)) (last : Change α) :
    lastLeft left (earlier ++ [last]) = (left last).or (lastLeft left earlier) := by
  cases spoken : left last <;> simp [lastLeft, spoken]

theorem lastLeft_of_perm {changes : List (Change α)} {held : Option β}
    (spoken : (changes.filterMap left).Perm held.toList) : lastLeft left changes = held := by
  rw [lastLeft]
  cases held with
  | none => rw [spoken.eq_nil, List.getLast?_nil]
  | some value => rw [List.perm_singleton.mp spoken, List.getLast?_singleton]

end

theorem filterMap_present {β : Type} (left : Change α → Option β)
    (parts : List (Option (Change α))) :
    (parts.filterMap id).filterMap left = parts.flatMap fun part => (part.bind left).toList := by
  induction parts with
  | nil => rfl
  | cons part rest ih =>
    rw [List.flatMap_cons, ← ih]
    cases part with
    | none => rfl
    | some change => cases spoken : left change <;> simp [spoken]

theorem foldl_change_eq_settled (changes : List (Change α)) :
    changes.foldl Draft.change .empty = settled changes := by
  -- From the end: the last change sets the parts that it speaks of and leaves the others.
  induction changes using List.reverseRecOn with
  | nil => rfl
  | append_singleton earlier last ih =>
    rw [List.foldl_append, List.foldl_cons, List.foldl_nil, ih]
    simp only [settled, settledTemperatures, lastLeft_append]
    cases last with
    | propertyId | status | carZones | zoneRanges | clearZoneRanges => rfl
    | range scale | clearRange scale | increment scale => cases scale <;> rfl

namespace ProfileError

@[grind]
def stage : ProfileError → Nat
  | missingPropertyId => 0
  | missingStatus => 1
  | noCarZones => 2
  | emptyCarZone _ => 3
  | emptyZoneRange _ => 4
  | invalidIncrement .celsius _ => 5
  | invalidIncrement .fahrenheit _ => 6

@[grind]
def index : ProfileError → Nat
  | emptyCarZone index | emptyZoneRange index => index
  | _ => 0

def place (error : ProfileError) : Nat ×ₗ Nat := toLex (error.stage, error.index)

theorem stage_lt (error : ProfileError) : error.stage < 7 := by
  cases error with
  | invalidIncrement scale => cases scale <;> simp [stage]
  | _ => simp [stage]

end ProfileError

def IsStep (value : Binary32) : Prop :=
  ∃ significand exponent, value.reading = .finite false significand exponent ∧ 0 < significand

theorem isStep_iff {value : Binary32} : (value.isFinite && value.isPositive) ↔ IsStep value := by
  simp only [Bool.and_eq_true, Binary.isPositive, Binary.isZero, Bool.not_eq_true',
    decide_eq_false_iff_not]
  constructor
  · rintro ⟨finite, ⟨above, nonzero⟩, _⟩
    obtain ⟨significand, exponent, read, held, same⟩ := Binary.reading_of_isFinite finite
    rw [same, held.pattern_eq_zero_iff] at nonzero
    exact ⟨significand, exponent, above ▸ read, Nat.pos_of_ne_zero nonzero⟩
  · rintro ⟨significand, exponent, read, nonzero⟩
    have finite := Binary.isFinite_of_reading read
    obtain ⟨other, _, again, held, same⟩ := Binary.reading_of_isFinite finite
    obtain ⟨sign, rfl, _⟩ := Reading.finite.inj (read.symm.trans again)
    refine ⟨finite, ⟨sign.symm, ?_⟩, ?_⟩
    · rw [same, held.pattern_eq_zero_iff]
      exact nonzero.ne'
    · have bounded : value.magnitude < Format.single.infinity := by
        simpa [Binary.isFinite] using finite
      simpa [Binary.isNaN] using bounded.le

namespace Draft

def temperatures (draft : Draft α) : Scale → Temperatures
  | .celsius => draft.celsius
  | .fahrenheit => draft.fahrenheit

def VacantAt (groups : List ZoneGroup) (index : Nat) : Prop :=
  ∃ group, groups[index]? = some group ∧ group.isEmpty

structure Complete (draft : Draft α) : Prop where
  propertyId : draft.propertyId ≠ none
  status : draft.status ≠ none
  carZones : draft.carZones ≠ []
  groups : ∀ group ∈ draft.carZones, ¬group.isEmpty
  ranges : ∀ ranges, draft.zoneRanges = some ranges → ∀ group ∈ ranges.keys, ¬group.isEmpty
  increments : ∀ scale value, (draft.temperatures scale).increment = some value →
    value = unspecifiedIncrement ∨ IsStep value

/-- What is so of a draft that an error fits. -/
@[grind]
def Violates (draft : Draft α) : ProfileError → Prop
  | .missingPropertyId => draft.propertyId = none
  | .missingStatus => draft.status = none
  | .noCarZones => draft.carZones = []
  | .emptyCarZone index => VacantAt draft.carZones index
  | .emptyZoneRange index => ∃ ranges, draft.zoneRanges = some ranges ∧ VacantAt ranges.keys index
  | .invalidIncrement scale value =>
    (draft.temperatures scale).increment = some value ∧
      value ≠ unspecifiedIncrement ∧ ¬IsStep value

theorem complete_iff_not_violates (draft : Draft α) :
    draft.Complete ↔ ∀ error, ¬draft.Violates error := by
  constructor
  · intro complete error violated
    cases error with
    | missingPropertyId => exact complete.propertyId violated
    | missingStatus => exact complete.status violated
    | noCarZones => exact complete.carZones violated
    | emptyCarZone index =>
      obtain ⟨group, found, vacant⟩ := violated
      exact complete.groups group (List.mem_of_getElem? found) vacant
    | emptyZoneRange index =>
      obtain ⟨ranges, held, group, found, vacant⟩ := violated
      exact complete.ranges ranges held group (List.mem_of_getElem? found) vacant
    | invalidIncrement scale value =>
      obtain ⟨held, other, invalid⟩ := violated
      exact (complete.increments scale value held).elim other invalid
  · intro sound
    refine ⟨sound .missingPropertyId, sound .missingStatus, sound .noCarZones, ?_, ?_, ?_⟩
    · intro group group_mem vacant
      obtain ⟨index, found⟩ := List.mem_iff_getElem?.mp group_mem
      exact sound (.emptyCarZone index) ⟨group, found, vacant⟩
    · intro ranges held group group_mem vacant
      obtain ⟨index, found⟩ := List.mem_iff_getElem?.mp group_mem
      exact sound (.emptyZoneRange index) ⟨ranges, held, group, found, vacant⟩
    · intro scale value held
      by_contra neither
      obtain ⟨other, invalid⟩ := not_or.mp neither
      exact sound (.invalidIncrement scale value) ⟨held, other, invalid⟩

def Passes (draft : Draft α) (stage : Nat) : Prop :=
  ∀ error, draft.Violates error → stage ≤ error.stage

/-- The error fits, and no other that fits stands before it. -/
def First (draft : Draft α) (error : ProfileError) : Prop :=
  draft.Violates error ∧ ∀ other, draft.Violates other → error.place ≤ other.place

variable {draft : Draft α}

theorem Passes.next {stage : Nat} (passed : draft.Passes stage)
    (sound : ∀ error, error.stage = stage → ¬draft.Violates error) : draft.Passes (stage + 1) := by
  intro error violated
  have reached := passed error violated
  have other : error.stage ≠ stage := fun same => sound error same violated
  omega

theorem Passes.first {error : ProfileError} (passed : draft.Passes error.stage)
    (violated : draft.Violates error)
    (least : ∀ other, draft.Violates other → other.stage = error.stage →
      error.index ≤ other.index) :
    draft.First error := by
  refine ⟨violated, fun other also => Prod.Lex.le_iff.mpr ?_⟩
  rcases Nat.eq_or_lt_of_le (passed other also) with same | later
  · exact .inr ⟨same, least other also same.symm⟩
  · exact .inl later

theorem Passes.complete (passed : draft.Passes 7) : draft.Complete := by
  refine draft.complete_iff_not_violates.mpr fun error violated => ?_
  exact absurd error.stage_lt (Nat.not_lt.mpr (passed error violated))

theorem emptyIndex?_eq_some {groups : List ZoneGroup} {index : Nat}
    (found : emptyIndex? groups = some index) :
    VacantAt groups index ∧ ∀ other, VacantAt groups other → index ≤ other := by
  obtain ⟨inRange, vacant, least⟩ := List.findIdx?_eq_some_iff_getElem.mp found
  refine ⟨⟨groups[index], List.getElem?_eq_getElem inRange, vacant⟩, ?_⟩
  rintro other ⟨group, held, vacant⟩
  obtain ⟨inRange, rfl⟩ := List.getElem?_eq_some_iff.mp held
  exact Nat.le_of_not_lt fun before => least other before vacant

theorem not_vacantAt_of_emptyIndex? {groups : List ZoneGroup} (none : emptyIndex? groups = none)
    (index : Nat) : ¬VacantAt groups index := by
  rintro ⟨group, held, vacant⟩
  have groupFilled := List.findIdx?_eq_none_iff.mp none group (List.mem_of_getElem? held)
  exact absurd vacant (by simp [groupFilled])

/-- An increment is dropped, kept or refused. -/
theorem checkIncrement_some (scale : Scale) (range : Option TemperatureRange) (value : Binary32) :
    checkIncrement scale ⟨range, some value⟩ = .ok ⟨range, none⟩ ∧ value = unspecifiedIncrement ∨
      checkIncrement scale ⟨range, some value⟩ = .ok ⟨range, some value⟩ ∧
        value ≠ unspecifiedIncrement ∧ IsStep value ∨
      checkIncrement scale ⟨range, some value⟩ = .error (.invalidIncrement scale value) ∧
        value ≠ unspecifiedIncrement ∧ ¬IsStep value := by
  simp only [checkIncrement, ← isStep_iff]
  grind

theorem checkIncrement_ok {scale : Scale} {given temperatures : Temperatures}
    (checked : checkIncrement scale given = .ok temperatures) :
    (∀ value, given.increment = some value → value = unspecifiedIncrement ∨ IsStep value) ∧
      temperatures = ⟨given.range, given.increment.filter (· ≠ unspecifiedIncrement)⟩ := by
  obtain ⟨range, _ | value⟩ := given
  · cases checked
    simp
  · rcases checkIncrement_some scale range value with
      ⟨outcome, sentinel⟩ | ⟨outcome, other, step⟩ | ⟨outcome, _⟩
    · cases checked.symm.trans outcome
      simp [sentinel, Option.filter]
    · cases checked.symm.trans outcome
      simp [step, Option.filter, other]
    · cases checked.symm.trans outcome

theorem checkIncrement_error {scale : Scale} {given : Temperatures} {error : ProfileError}
    (checked : checkIncrement scale given = .error error) :
    ∃ value, given.increment = some value ∧ (value ≠ unspecifiedIncrement ∧ ¬IsStep value) ∧
      error = .invalidIncrement scale value := by
  obtain ⟨range, _ | value⟩ := given
  · cases checked
  · rcases checkIncrement_some scale range value with
      ⟨outcome, _⟩ | ⟨outcome, _⟩ | ⟨outcome, invalid⟩
    · cases checked.symm.trans outcome
    · cases checked.symm.trans outcome
    · cases checked.symm.trans outcome
      exact ⟨value, rfl, invalid, rfl⟩

/-- What is built from a draft in which nothing is wrong. -/
structure HeldBy (draft : Draft α) (profile : Profile α) : Prop where
  propertyId : draft.propertyId = some profile.propertyId
  status : draft.status = some profile.status
  carZones : profile.carZones = draft.carZones
  zoneRanges : profile.zoneRanges = draft.zoneRanges
  temperatures : ∀ scale, profile.temperatures scale =
    ⟨(draft.temperatures scale).range,
      (draft.temperatures scale).increment.filter (· ≠ unspecifiedIncrement)⟩

section

variable {propertyId : Int32} {status : Status} (identified : draft.propertyId = some propertyId)
  (known : draft.status = some status) (zones : draft.carZones.isEmpty = false)
include identified known zones

theorem build_of_emptyCarZone {index : Nat} (found : emptyIndex? draft.carZones = some index) :
    draft.build = .error (.emptyCarZone index) := by
  simp only [build, identified, known, pure_bind, zones, found]
  rfl

variable (noneEmpty : emptyIndex? draft.carZones = none)
include noneEmpty

theorem build_of_emptyZoneRange {ranges : SortedMap ZoneGroup (Bounds α)} {index : Nat}
    (ranged : draft.zoneRanges = some ranges) (found : emptyIndex? ranges.keys = some index) :
    draft.build = .error (.emptyZoneRange index) := by
  simp only [build, identified, known, pure_bind, zones, noneEmpty, ranged, found]
  rfl

theorem build_of_groups
    (ranged : ∀ ranges, draft.zoneRanges = some ranges → emptyIndex? ranges.keys = none) :
    draft.build =
      (checkIncrement .celsius draft.celsius).bind fun celsius =>
        (checkIncrement .fahrenheit draft.fahrenheit).bind fun fahrenheit =>
          .ok ⟨propertyId, status, draft.carZones, draft.zoneRanges, celsius, fahrenheit⟩ := by
  rcases held : draft.zoneRanges with _ | ranges
  · simp only [build, identified, known, pure_bind, zones, noneEmpty, held]
    rfl
  · simp only [build, identified, known, pure_bind, zones, noneEmpty, held, ranged ranges held]
    rfl

end

/-- What becomes of a draft: a profile that it holds, or the first error that fits. -/
def Judged (draft : Draft α) : Prop :=
  (∃ profile, draft.build = .ok profile ∧ draft.Complete ∧ draft.HeldBy profile) ∨
    ∃ error, draft.build = .error error ∧ draft.First error

theorem judged_of_groups {propertyId : Int32} {status : Status}
    (identified : draft.propertyId = some propertyId) (known : draft.status = some status)
    (outcome : draft.build =
      (checkIncrement .celsius draft.celsius).bind fun celsius =>
        (checkIncrement .fahrenheit draft.fahrenheit).bind fun fahrenheit =>
          .ok ⟨propertyId, status, draft.carZones, draft.zoneRanges, celsius, fahrenheit⟩)
    (passed : draft.Passes 5) : draft.Judged := by
  rw [Judged, outcome]
  rcases celsius : checkIncrement .celsius draft.celsius with error | first
  · obtain ⟨value, held, invalid, rfl⟩ := checkIncrement_error celsius
    exact .inr ⟨_, rfl, passed.first ⟨held, invalid⟩ fun _ _ _ => Nat.zero_le _⟩
  obtain ⟨sound, first⟩ := checkIncrement_ok celsius
  replace passed : draft.Passes 6 :=
    passed.next (by grind [cases ProfileError, cases Scale, temperatures])
  rcases fahrenheit : checkIncrement .fahrenheit draft.fahrenheit with error | second
  · obtain ⟨value, held, invalid, rfl⟩ := checkIncrement_error fahrenheit
    exact .inr ⟨_, rfl, passed.first ⟨held, invalid⟩ fun _ _ _ => Nat.zero_le _⟩
  obtain ⟨sound, second⟩ := checkIncrement_ok fahrenheit
  replace passed : draft.Passes 7 :=
    passed.next (by grind [cases ProfileError, cases Scale, temperatures])
  refine .inl ⟨_, rfl, passed.complete, identified, known, rfl, rfl, fun scale => ?_⟩
  cases scale with
  | celsius => exact first
  | fahrenheit => exact second

theorem judged_of_zones {propertyId : Int32} {status : Status}
    (identified : draft.propertyId = some propertyId) (known : draft.status = some status)
    (zones : draft.carZones.isEmpty = false) (passed : draft.Passes 3) : draft.Judged := by
  rcases noneEmpty : emptyIndex? draft.carZones with _ | index
  case some =>
    obtain ⟨vacant, least⟩ := emptyIndex?_eq_some noneEmpty
    have outcome := build_of_emptyCarZone identified known zones noneEmpty
    exact .inr ⟨_, outcome, passed.first vacant (by grind [cases ProfileError, cases Scale])⟩
  -- Each check that is passed rules out the errors of its stage.
  have held := not_vacantAt_of_emptyIndex? noneEmpty
  replace passed : draft.Passes 4 := passed.next (by grind [cases ProfileError, cases Scale])
  by_cases ranged : ∀ ranges, draft.zoneRanges = some ranges → emptyIndex? ranges.keys = none
  case neg =>
    obtain ⟨ranges, given, found⟩ := by push Not at ranged; exact ranged
    obtain ⟨index, found⟩ := Option.ne_none_iff_exists'.mp found
    obtain ⟨vacant, least⟩ := emptyIndex?_eq_some found
    have outcome := build_of_emptyZoneRange identified known zones noneEmpty given found
    exact .inr ⟨_, outcome,
      passed.first ⟨ranges, given, vacant⟩ (by grind [cases ProfileError, cases Scale])⟩
  have held := fun ranges given => not_vacantAt_of_emptyIndex? (ranged ranges given)
  replace passed : draft.Passes 5 := passed.next (by grind [cases ProfileError, cases Scale])
  exact judged_of_groups identified known
    (build_of_groups identified known zones noneEmpty ranged) passed

/-- A draft is built, or the first error that fits it is reported. -/
theorem build_spec (draft : Draft α) : draft.Judged := by
  have start : draft.Passes 0 := fun _ _ => Nat.zero_le _
  rcases identified : draft.propertyId with _ | propertyId
  · have outcome : draft.build = .error .missingPropertyId := by rw [build, identified]; rfl
    exact .inr ⟨_, outcome, start.first identified fun _ _ _ => Nat.zero_le _⟩
  have passed : draft.Passes 1 := start.next (by grind [cases ProfileError, cases Scale])
  rcases known : draft.status with _ | status
  · have outcome : draft.build = .error .missingStatus := by rw [build, identified, known]; rfl
    exact .inr ⟨_, outcome, passed.first known fun _ _ _ => Nat.zero_le _⟩
  replace passed : draft.Passes 2 := passed.next (by grind [cases ProfileError, cases Scale])
  by_cases vacant : draft.carZones = []
  · have outcome : draft.build = .error .noCarZones := by rw [build, identified, known, vacant]; rfl
    exact .inr ⟨_, outcome, passed.first vacant fun _ _ _ => Nat.zero_le _⟩
  have zones : draft.carZones.isEmpty = false := by simpa using vacant
  replace passed : draft.Passes 3 := passed.next (by grind [cases ProfileError, cases Scale])
  exact judged_of_zones identified known zones passed

/-- At most one error is the first. -/
theorem First.eq {error other : ProfileError} (first : draft.First error)
    (also : draft.First other) : error = other := by
  have same : error.place = other.place :=
    le_antisymm (first.2 other also.1) (also.2 error first.1)
  obtain ⟨stage, index⟩ := Prod.mk.inj (toLex.injective same)
  grind [cases ProfileError, cases Scale, first.1, also.1]

/-- A draft is built just if it is complete. -/
theorem build_ok_iff_complete : (∃ profile, draft.build = .ok profile) ↔ draft.Complete := by
  rcases draft.build_spec with ⟨profile, outcome, complete, _⟩ | ⟨error, outcome, violated, _⟩
  · exact ⟨fun _ => complete, fun _ => ⟨profile, outcome⟩⟩
  · have incomplete : ¬draft.Complete := fun complete =>
      draft.complete_iff_not_violates.mp complete error violated
    simp [outcome, incomplete]

/-- A draft is refused with an error just if that is the first that fits. -/
theorem build_error_iff_first {error : ProfileError} :
    draft.build = .error error ↔ draft.First error := by
  rcases draft.build_spec with ⟨profile, outcome, complete, _⟩ | ⟨other, outcome, first⟩
  · have sound := draft.complete_iff_not_violates.mp complete error
    simp [outcome, First, sound]
  · rw [outcome, Except.error.injEq]
    exact ⟨fun same => same ▸ first, first.eq⟩

theorem heldBy_of_build {profile : Profile α} (built : draft.build = .ok profile) :
    draft.HeldBy profile := by
  rcases draft.build_spec with ⟨other, outcome, _, held⟩ | ⟨error, outcome, _⟩
  · cases built.symm.trans outcome
    exact held
  · cases built.symm.trans outcome

/-- A draft holds one profile at most. -/
theorem HeldBy.eq {profile other : Profile α} (held : draft.HeldBy profile)
    (also : draft.HeldBy other) : profile = other := by
  obtain ⟨propertyId, status, carZones, zoneRanges, celsius, fahrenheit⟩ := profile
  obtain ⟨propertyId', status', carZones', zoneRanges', celsius', fahrenheit'⟩ := other
  have identified := Option.some.inj (held.propertyId.symm.trans also.propertyId)
  have known := Option.some.inj (held.status.symm.trans also.status)
  have zones := held.carZones.trans also.carZones.symm
  have ranged := held.zoneRanges.trans also.zoneRanges.symm
  have temperate scale := (held.temperatures scale).trans (also.temperatures scale).symm
  simp only at identified known zones ranged
  rw [identified, known, zones, ranged, show celsius = celsius' from temperate .celsius,
    show fahrenheit = fahrenheit' from temperate .fahrenheit]

theorem build_of_heldBy {profile : Profile α} (complete : draft.Complete)
    (held : draft.HeldBy profile) : draft.build = .ok profile := by
  obtain ⟨other, built⟩ := build_ok_iff_complete.mpr complete
  rw [built, (heldBy_of_build built).eq held]

end Draft

namespace Description

variable (description : Description α)

def draft : Draft α where
  propertyId := description.propertyId
  status := description.status
  carZones := description.carZones.getD [.whole]
  zoneRanges := description.zoneRanges.map fun ranges =>
    .ofList (ranges.map fun range => (range.zones, range.bounds))
  celsius := ⟨description.celsiusRange, description.celsiusIncrement⟩
  fahrenheit := ⟨description.fahrenheitRange, description.fahrenheitIncrement⟩

/-- What the asked changes say of a part. -/
theorem filterMap_changes {β : Type} (left : Change α → Option β) :
    description.changes.filterMap left =
      (description.propertyId.bind fun value => left (.propertyId value)).toList ++
        (description.status.bind fun value => left (.status value)).toList ++
        (description.carZones.bind fun groups => left (.carZones groups)).toList ++
        (description.zoneRanges.bind fun ranges =>
          left (.zoneRanges (ranges.map fun range => (range.zones, range.bounds)))).toList ++
        (description.celsiusRange.bind fun range => left (.range .celsius range)).toList ++
        (description.fahrenheitRange.bind fun range => left (.range .fahrenheit range)).toList ++
        (description.celsiusIncrement.bind fun value => left (.increment .celsius value)).toList ++
        (description.fahrenheitIncrement.bind fun value =>
          left (.increment .fahrenheit value)).toList := by
  rw [changes, filterMap_present]
  simp [Option.bind_map]

private theorem getD_map_some {β : Type} (held : Option β) : (held.map some).getD none = held := by
  cases held <;> rfl

variable {description}

/-- The asked changes speak of a part at most once, so their order does not matter. -/
theorem settled_changes {calls : List (Change α)} (same : calls.Perm description.changes) :
    settled calls = description.draft := by
  have spoken {β : Type} {left : Change α → Option β} {held : Option β}
      (kept : description.changes.filterMap left = held.toList) : lastLeft left calls = held :=
    lastLeft_of_perm left (kept ▸ same.filterMap left)
  have identified : lastLeft Change.propertyId? calls = description.draft.propertyId :=
    spoken (by simp [filterMap_changes, Change.propertyId?, draft])
  have known : lastLeft Change.status? calls = description.draft.status :=
    spoken (by simp [filterMap_changes, Change.status?, draft])
  have zones : lastLeft Change.carZones? calls = description.carZones :=
    spoken (by simp [filterMap_changes, Change.carZones?])
  have ranged : lastLeft Change.zoneRanges? calls = description.draft.zoneRanges.map some :=
    spoken (by simp [filterMap_changes, Change.zoneRanges?, draft, Option.map_eq_bind,
      Option.bind_assoc])
  have bounded (scale : Scale) : lastLeft (Change.range? scale) calls =
      (description.draft.temperatures scale).range.map some :=
    spoken (by cases scale <;> simp [filterMap_changes, Change.range?, draft, Draft.temperatures,
      Option.map_eq_bind])
  have stepped (scale : Scale) : lastLeft (Change.increment? scale) calls =
      (description.draft.temperatures scale).increment :=
    spoken (by cases scale <;> simp [filterMap_changes, Change.increment?, draft,
      Draft.temperatures])
  rw [settled, settledTemperatures, settledTemperatures, identified, known, zones, ranged, bounded,
    bounded, stepped, stepped, getD_map_some, getD_map_some, getD_map_some]
  rfl

/-- A description is built as the draft that holds what it says. -/
theorem build_eq (description : Description α) : description.build = description.draft.build := by
  rw [build, foldl_change_eq_settled, settled_changes (.refl _)]

end Description

namespace Profile

def changes (profile : Profile α) : List (Change α) :=
  [some (.propertyId profile.propertyId), some (.status profile.status),
    some (.carZones profile.carZones),
    profile.zoneRanges.map fun ranges => .zoneRanges ranges.entries,
    profile.celsius.range.map (.range .celsius),
    profile.fahrenheit.range.map (.range .fahrenheit),
    some (.increment .celsius profile.celsius.incrementOrSentinel),
    some (.increment .fahrenheit profile.fahrenheit.incrementOrSentinel)].filterMap id

def draft (profile : Profile α) : Draft α where
  propertyId := some profile.propertyId
  status := some profile.status
  carZones := profile.carZones
  zoneRanges := profile.zoneRanges
  celsius := ⟨profile.celsius.range, some profile.celsius.incrementOrSentinel⟩
  fahrenheit := ⟨profile.fahrenheit.range, some profile.fahrenheit.incrementOrSentinel⟩

def description (profile : Profile α) : Description α where
  propertyId := some profile.propertyId
  status := some profile.status
  carZones := some profile.carZones
  zoneRanges := profile.zoneRanges.map fun ranges =>
    ranges.entries.map fun entry => ⟨entry.1, entry.2⟩
  celsiusRange := profile.celsius.range
  fahrenheitRange := profile.fahrenheit.range
  celsiusIncrement := profile.celsius.increment
  fahrenheitIncrement := profile.fahrenheit.increment

theorem description_zoneRanges (profile : Profile α) :
    profile.description.draft.zoneRanges = profile.zoneRanges := by
  cases held : profile.zoneRanges with
  | none => simp [description, Description.draft, held]
  | some ranges =>
    have whole : .ofList ranges.entries = ranges :=
      SortedMap.ext (SortedMap.ofList_entries ranges.increasing)
    simp [description, Description.draft, held, whole, Function.comp_def]

/-- The changes are those of a description in which the sentinel stands for no increment. -/
theorem settled_changes {profile : Profile α} {calls : List (Change α)}
    (same : calls.Perm profile.changes) : settled calls = profile.draft := by
  let outright : Description α :=
    { profile.description with
      celsiusIncrement := some profile.celsius.incrementOrSentinel
      fahrenheitIncrement := some profile.fahrenheit.incrementOrSentinel }
  have asked : profile.changes = outright.changes := by
    simp [changes, Description.changes, outright, description, Function.comp_def]
  have ranged : outright.draft.zoneRanges = profile.zoneRanges := profile.description_zoneRanges
  rw [Description.settled_changes (asked ▸ same), Profile.draft, ← ranged]
  rfl

end Profile

namespace Temperatures

theorem incrementOrSentinel_eq_iff {temperatures : Temperatures}
    (sound : ∀ value, temperatures.increment = some value → value ≠ unspecifiedIncrement) :
    temperatures.incrementOrSentinel = unspecifiedIncrement ↔ temperatures.increment = none := by
  rw [incrementOrSentinel]
  cases given : temperatures.increment with
  | none => simp
  | some value => simpa using sound value given

/-- No increment goes out as the sentinel, and the sentinel comes back as none. -/
theorem filter_incrementOrSentinel {temperatures : Temperatures}
    (sound : ∀ value, temperatures.increment = some value → value ≠ unspecifiedIncrement) :
    (some temperatures.incrementOrSentinel).filter (· ≠ unspecifiedIncrement) =
      temperatures.increment := by
  rw [incrementOrSentinel]
  cases given : temperatures.increment with
  | none => simp [Option.filter]
  | some value => simp [Option.filter, sound value given]

end Temperatures

namespace Draft

variable {draft : Draft α}

theorem HeldBy.increments {profile : Profile α} (complete : draft.Complete)
    (held : draft.HeldBy profile) (scale : Scale) (value : Binary32)
    (given : (profile.temperatures scale).increment = some value) :
    value ≠ unspecifiedIncrement ∧ IsStep value := by
  rw [held.temperatures scale, Option.filter_eq_some_iff] at given
  obtain ⟨given, other⟩ := given
  have other : value ≠ unspecifiedIncrement := by simpa using other
  exact ⟨other, (complete.increments scale value given).resolve_left other⟩

/-- A profile that was built once is built from every draft that it is held by. -/
theorem HeldBy.build {profile : Profile α} (built : draft.build = .ok profile) {again : Draft α}
    (held : again.HeldBy profile) : again.build = .ok profile := by
  have complete := build_ok_iff_complete.mp ⟨profile, built⟩
  have first := heldBy_of_build built
  have zones : again.carZones = draft.carZones := held.carZones.symm.trans first.carZones
  have ranged : again.zoneRanges = draft.zoneRanges := held.zoneRanges.symm.trans first.zoneRanges
  refine build_of_heldBy ⟨?_, ?_, ?_, ?_, ?_, ?_⟩ held
  · simp [held.propertyId]
  · simp [held.status]
  · exact zones ▸ complete.carZones
  · exact zones ▸ complete.groups
  · exact ranged ▸ complete.ranges
  · intro scale value given
    by_cases sentinel : value = unspecifiedIncrement
    · exact .inl sentinel
    · have kept : (profile.temperatures scale).increment = some value := by
        rw [held.temperatures, given]
        simp [Option.filter, sentinel]
      exact .inr (first.increments complete scale value kept).2

theorem build_draft {profile : Profile α} (built : draft.build = .ok profile) :
    profile.draft.build = .ok profile := by
  have complete := build_ok_iff_complete.mp ⟨profile, built⟩
  have steps := (heldBy_of_build built).increments complete
  refine HeldBy.build built ⟨rfl, rfl, rfl, rfl, fun scale => ?_⟩
  have again : profile.draft.temperatures scale =
      ⟨(profile.temperatures scale).range, some (profile.temperatures scale).incrementOrSentinel⟩ := by
    cases scale <;> rfl
  rw [again, Temperatures.filter_incrementOrSentinel fun value given => (steps scale value given).1]

end Draft

/-- Whatever changes are made in whatever order, the draft is what the last change of each part
leaves, and it is built just if that is complete. A profile can be built again from its parts. -/
theorem build_of_changes (changes : List (Change α)) :
    let draft := settled changes
    let outcome := (changes.foldl Draft.change .empty).build
    ((∃ profile, outcome = .ok profile) ↔ draft.Complete) ∧
      (∀ profile, outcome = .ok profile →
        draft.HeldBy profile ∧
          (∀ scale, (profile.temperatures scale).incrementOrSentinel = unspecifiedIncrement ↔
            (profile.temperatures scale).increment = none) ∧
          ∀ calls : List (Change α), calls.Perm profile.changes →
            (calls.foldl Draft.change .empty).build = .ok profile) ∧
      ∀ error, outcome = .error error ↔ draft.First error := by
  intro draft outcome
  have judged : outcome = draft.build := congrArg Draft.build (foldl_change_eq_settled changes)
  rw [judged]
  refine ⟨Draft.build_ok_iff_complete, ?_, fun error => Draft.build_error_iff_first⟩
  intro profile built
  have complete := Draft.build_ok_iff_complete.mp ⟨profile, built⟩
  have held := Draft.heldBy_of_build built
  refine ⟨held, fun scale => ?_, fun calls same => ?_⟩
  · exact Temperatures.incrementOrSentinel_eq_iff fun value given =>
      (held.increments complete scale value given).1
  · rw [foldl_change_eq_settled, Profile.settled_changes same]
    exact Draft.build_draft built

/-- Of two identifiers the later stays, and the sentinel comes to none. -/
theorem build_of_changes_overwritten :
    let changes : List (Change Int32) :=
      [.propertyId 7, .zoneRanges [(.whole, ⟨1, 2⟩)], .status .success, .clearRange .celsius,
        .increment .celsius unspecifiedIncrement, .propertyId 8,
        .increment .fahrenheit (.ofInt 2)]
    ∃ profile, (changes.foldl Draft.change .empty).build = .ok profile ∧
      profile.propertyId = 8 ∧ profile.celsius.increment = none ∧
      profile.fahrenheit.increment = some (.ofInt 2) ∧
      (profile.changes.reverse.foldl Draft.change .empty).build = .ok profile := by
  intro changes
  refine ⟨_, rfl, rfl, rfl, rfl, ?_⟩
  exact ((build_of_changes changes).2.1 _ rfl).2.2 _ (List.reverse_perm _)

end StatsRelay.Cabin
