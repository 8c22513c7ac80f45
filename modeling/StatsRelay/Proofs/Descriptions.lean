import StatsRelay.Proofs.Drafts
import StatsRelay.Proofs.Written

/-! Profiles that are read back from their texts. A profile is written as the description of itself,
so what is left of it in a text is settled by its numbers alone: it comes back when each of them
does. -/
namespace StatsRelay

open StatsRelay.Decimal
open StatsRelay.Json (Value Number)

/-- The text of the number is read back as the number. -/
def Json.Number.ReadBack : Number → Prop
  | .integer _ => True
  | .single value => Codec.single.decode (.ofList (Number.single value).write) = .ok value
  | .double value => Codec.double.decode (.ofList (Number.double value).write) = .ok value

instance : DecidablePred Json.Number.ReadBack := fun number =>
  match number with
  | .integer _ => inferInstanceAs (Decidable True)
  | .single _ | .double _ => inferInstanceAs (Decidable (_ = _))

theorem Codec.single_of_readBack {value : Binary32} (back : (Number.single value).ReadBack) :
    Codec.single.Faithful .ofText value :=
  (Codec.decode_ok_iff.mp back).1

theorem Codec.double_of_readBack {value : Binary64} (back : (Number.double value).ReadBack) :
    Codec.double.Faithful .ofText value :=
  (Codec.decode_ok_iff.mp back).1

theorem isFinite_of_convert {value : Binary32} (finite : (value.convert .double).isFinite) :
    value.isFinite := by
  cases read : value.reading with
  | nan =>
    have other : (Binary.nan : Binary64).isFinite = false := by decide
    rw [Binary.convert, read] at finite
    exact absurd finite (by simp [other])
  | infinite negative =>
    have other : (Binary.infinite negative : Binary64).isFinite = false := by
      cases negative <;> decide
    rw [Binary.convert, read] at finite
    exact absurd finite (by simp [other])
  | finite negative significand exponent => exact Binary.isFinite_of_reading read

/-- No number of double precision is found as an integer. -/
theorem Json.Number.ReadBack.double {value : Binary64} (back : (Number.double value).ReadBack) :
    value.isFinite ∧ Document.ofNumberText (.double value) = .number (some (.double value)) := by
  have read := Codec.double_of_readBack back
  cases finite : value.isFinite with
  | false =>
    have unwritten : (Number.double value).write = ['n', 'u', 'l', 'l'] :=
      Json.writeBinary_not_finite finite
    have found : Document.ofNumberText (.double value) = .null := by
      rw [Document.ofNumberText, unwritten, Json.read_of_denotes .null]
    have read : Codec.double.read (.ofNumberText (.double value)) = .ok value := read
    rw [found] at read
    cases read
  | true =>
    refine ⟨rfl, ?_⟩
    obtain ⟨literal, parted, spelled⟩ : ∃ literal : Json.Literal, literal.Parted ∧
        literal.spell = Json.writeBinary Json.doubleLayout value :=
      Json.writeBinary_spells rfl finite
    have found : Document.ofNumberText (.double value) = .number (literal.double?.map .double) := by
      have denoted := Json.read_of_denotes (.number parted.toWellFormed)
      rw [Document.ofNumberText, Number.write, ← spelled, denoted, Json.Literal.number?,
        parted.integer?_eq_none]
    have read : Codec.double.read (.ofNumberText (.double value)) = .ok value := read
    rw [found] at read
    cases same : literal.double? with
    | none =>
      rw [same] at read
      cases read
    | some other =>
      rw [same] at read
      cases read
      rw [found, same]
      rfl

/-- A number of single precision that is written in double precision still is what it was. -/
theorem Codec.single_of_wide {value : Binary32}
    (back : (Number.double (value.convert .double)).ReadBack) :
    Codec.single.Faithful (fun value => .ofText value.normal) value := by
  obtain ⟨finite, found⟩ := back.double
  have read : Codec.single.read (.ofNumberText (.double (value.convert .double))) =
      .ok ((value.convert .double).convert .single) := by
    rw [found]
    rfl
  rw [Binary.convert_convert (isFinite_of_convert finite)] at read
  exact read

theorem Codec.double_of_wide {value : Binary64} (back : (Number.double value).ReadBack) :
    Codec.double.Faithful (fun value => .ofText value.normal) value :=
  Codec.double_of_readBack back

namespace Cabin

instance : LawfulLabelled SeatRow := ⟨by intro value; cases value <;> rfl⟩
instance : LawfulLabelled SeatColumn := ⟨by intro value; cases value <;> rfl⟩
instance : LawfulLabelled Status := ⟨by intro value; cases value <;> rfl⟩

section

variable {found : Value → Document} (rendering : Rendering found)
include rendering

theorem Zone.faithful (zone : Zone) : table.codec.Faithful found zone := by
  refine Table.Faithful.codec ⟨by decide, rfl, ?_⟩ rendering
  exact ⟨Codec.labels_faithful rendering zone.row, Codec.labels_faithful rendering zone.column,
    trivial⟩

/-- A group is read from any list of its zones. -/
theorem ZoneGroup.read_zones (zones : List Zone) :
    codec.read (found ((Codec.list Zone.table.codec).write zones)) = .ok (.ofList zones) :=
  Except.bind_eq_ok_iff.mpr
    ⟨zones, Codec.list_faithful rendering fun zone _ => Zone.faithful rendering zone, rfl⟩

theorem ZoneGroup.faithful (group : ZoneGroup) : codec.Faithful found group := by
  have read := read_zones rendering group.keys
  rwa [SortedSet.ofList_keys] at read

theorem Bounds.faithful {α : Type} {codec : Codec α} {bounds : Bounds α}
    (min : codec.Faithful found bounds.min) (max : codec.Faithful found bounds.max) :
    (table codec).codec.Faithful found bounds :=
  Table.Faithful.codec ⟨by simp [table], rfl, min, max, trivial⟩ rendering

theorem ZoneRange.faithful {α : Type} [Bound α] {range : ZoneRange α}
    (min : (Bound.codec : Codec α).Faithful found range.bounds.min)
    (max : (Bound.codec : Codec α).Faithful found range.bounds.max) :
    (table α).codec.Faithful found range :=
  Table.Faithful.codec
    ⟨by simp [table], rfl, ZoneGroup.faithful rendering range.zones, min, max, trivial⟩ rendering

end

def Bounds.numbers {α : Type} (number : α → Number) (bounds : Bounds α) : List Number :=
  [number bounds.min, number bounds.max]

def Temperatures.numbers (temperatures : Temperatures) : List Number :=
  (temperatures.range.map (Bounds.numbers .single)).getD [] ++
    (temperatures.increment.map .single).toList

namespace Profile

def numbers (profile : Profile Binary64) : List Number :=
  profile.celsius.numbers ++ profile.fahrenheit.numbers ++
    (profile.zoneRanges.map fun ranges =>
      ranges.entries.flatMap fun entry => entry.2.numbers .double).getD []

theorem temperatures_subset_numbers (profile : Profile Binary64) (scale : Scale) :
    (profile.temperatures scale).numbers ⊆ profile.numbers := by
  intro number number_mem
  cases scale with
  | celsius => exact List.mem_append_left _ (List.mem_append_left _ number_mem)
  | fahrenheit => exact List.mem_append_left _ (List.mem_append_right _ number_mem)

theorem ranges_subset_numbers {profile : Profile Binary64}
    {ranges : SortedMap ZoneGroup (Bounds Binary64)} (given : profile.zoneRanges = some ranges)
    {entry : ZoneGroup × Bounds Binary64}
    (entry_mem : entry ∈ ranges.entries) : entry.2.numbers .double ⊆ profile.numbers := by
  intro number listed
  refine List.mem_append_right _ ?_
  rw [given]
  exact List.mem_flatMap.mpr ⟨entry, entry_mem, listed⟩

theorem toValue_eq {α : Type} [Bound α] (profile : Profile α) :
    profile.toValue = (Description.table α).codec.write profile.description := by
  obtain ⟨propertyId, status, carZones, zoneRanges, celsius, fahrenheit⟩ := profile
  cases zoneRanges with
  | none => rfl
  | some ranges =>
    have same : (Codec.list (ZoneRange.table α).codec).write
        (ranges.entries.map fun entry => ⟨entry.1, entry.2⟩) =
          .array (ranges.entries.map rangeValue) := by
      simp only [Codec.list, List.map_map]
      rfl
    simp only [toValue]
    rw [← same]
    rfl

theorem faithful_of_numbers {found : Value → Document} (rendering : Rendering found)
    {profile : Profile Binary64}
    (singles : ∀ value, .single value ∈ profile.numbers → Codec.single.Faithful found value)
    (doubles : ∀ value, .double value ∈ profile.numbers → Codec.double.Faithful found value) :
    (Description.table Binary64).codec.Faithful found profile.description := by
  have range (scale : Scale) : (Codec.option (Bounds.table Codec.single).codec).Faithful found
      (profile.temperatures scale).range := by
    refine Codec.option_faithful rendering (by nofun) fun bounds held => ?_
    have listed : bounds.numbers .single ⊆ profile.numbers := by
      refine List.Subset.trans ?_ (profile.temperatures_subset_numbers scale)
      simp [Temperatures.numbers, held]
    exact Bounds.faithful rendering (singles _ (listed (by simp [Bounds.numbers])))
      (singles _ (listed (by simp [Bounds.numbers])))
  have increment (scale : Scale) : (Codec.option Codec.single).Faithful found
      (profile.temperatures scale).increment := by
    refine Codec.option_faithful rendering (by nofun) fun value held => singles value ?_
    apply profile.temperatures_subset_numbers scale
    simp [Temperatures.numbers, held]
  have ranges : (Codec.option (Codec.list (ZoneRange.table Binary64).codec)).Faithful found
      profile.description.zoneRanges := by
    refine Codec.option_faithful rendering (by nofun) fun ranges held => ?_
    refine Codec.list_faithful rendering fun range range_mem => ?_
    obtain ⟨map, given, rfl⟩ := Option.map_eq_some_iff.mp held
    obtain ⟨entry, listed, rfl⟩ := List.mem_map.mp range_mem
    have listed : entry.2.numbers .double ⊆ profile.numbers := ranges_subset_numbers given listed
    exact ZoneRange.faithful rendering (doubles _ (listed (by simp [Bounds.numbers])))
      (doubles _ (listed (by simp [Bounds.numbers])))
  refine Table.Faithful.codec ⟨by decide, rfl, ?_⟩ rendering
  refine ⟨?_, ?_, ?_, ranges, range .celsius, range .fahrenheit, increment .celsius,
    increment .fahrenheit, trivial⟩
  · exact Codec.option_faithful rendering (by nofun) fun value _ =>
      Codec.int32_faithful rendering value
  · exact Codec.option_faithful rendering (by nofun) fun value _ =>
      Codec.labels_faithful rendering value
  · refine Codec.option_faithful rendering (by nofun) fun groups _ => ?_
    exact Codec.list_faithful rendering fun group _ => ZoneGroup.faithful rendering group

end Profile

section

variable {room : Nat}

theorem Zone.write_within (zone : Zone) : (table.codec.write zone).Within (room + 1) := by
  apply Value.Nested.object
  simp only [table, Table.members, Row.members, if_true, List.forall_mem_cons]
  exact ⟨.string _, .string _, List.forall_mem_nil _⟩

theorem ZoneGroup.write_within (group : ZoneGroup) : (codec.write group).Within (room + 2) :=
  .array (List.forall_mem_map.mpr fun zone _ => zone.write_within)

theorem Bounds.write_within {α : Type} {codec : Codec α}
    (each : ∀ value, (codec.write value).Within room) (bounds : Bounds α) :
    ((table codec).codec.write bounds).Within (room + 1) := by
  apply Value.Nested.object
  simp only [table, Table.members, Row.members, if_true, List.forall_mem_cons]
  exact ⟨each bounds.min, each bounds.max, List.forall_mem_nil _⟩

theorem option_write_within {α : Type} {codec : Codec α}
    (each : ∀ value, (codec.write value).Within room) (value : Option α) :
    ((Codec.option codec).write value).Within room := by
  cases value with
  | none => exact .null
  | some value => exact each value

theorem Profile.rangeValue_within (entry : ZoneGroup × Bounds Binary64) :
    (rangeValue entry).Within (room + 3) := by
  apply Value.Nested.object
  simp only [Bounds.table, Table.members, Row.members, if_true, List.forall_mem_cons]
  exact ⟨entry.1.write_within, .number trivial, .number trivial, List.forall_mem_nil _⟩

theorem Profile.toValue_within (profile : Profile Binary64) :
    profile.toValue.Within (room + 5) := by
  have range (given : Option TemperatureRange) :
      ((Codec.option (Bounds.table Codec.single).codec).write given).Within (room + 4) :=
    option_write_within (Bounds.write_within fun _ => .number trivial) given
  have increment (given : Option Binary32) :
      ((Codec.option Codec.single).write given).Within (room + 4) :=
    option_write_within (fun _ => .number trivial) given
  apply Value.Nested.object
  simp only [List.forall_mem_cons]
  refine ⟨.number trivial, .string _,
    .array (List.forall_mem_map.mpr fun group _ => group.write_within), ?_,
    range _, range _, increment _, increment _, List.forall_mem_nil _⟩
  cases profile.zoneRanges with
  | none => exact .null
  | some ranges => exact .array (List.forall_mem_map.mpr fun entry _ => rangeValue_within entry)

end

theorem Profile.build_description {α : Type} {draft : Draft α} {profile : Profile α}
    (built : draft.build = .ok profile) : profile.description.build = .ok profile := by
  rw [Description.build_eq]
  have complete := Draft.build_ok_iff_complete.mp ⟨profile, built⟩
  have steps := (Draft.heldBy_of_build built).increments complete
  have kept (scale : Scale) : (profile.temperatures scale).increment.filter
      (· ≠ unspecifiedIncrement) = (profile.temperatures scale).increment := by
    cases given : (profile.temperatures scale).increment with
    | none => rfl
    | some value => simp [Option.filter, (steps scale value given).1]
  refine Draft.HeldBy.build built
    ⟨rfl, rfl, rfl, profile.description_zoneRanges.symm, fun scale => ?_⟩
  cases scale with
  | celsius => exact congrArg (Temperatures.mk _) (kept .celsius).symm
  | fahrenheit => exact congrArg (Temperatures.mk _) (kept .fahrenheit).symm

theorem Profile.ofText_of_read {found : Value → Document} {draft : Draft Binary64}
    {profile : Profile Binary64} (built : draft.build = .ok profile)
    (faithful : (Description.table Binary64).codec.Faithful found profile.description)
    {text : String} (read : Json.read text = ⟨found profile.toValue, true⟩) :
    Profile.ofText Binary64 text = .ok profile := by
  have decoded : (Description.table Binary64).codec.decode text = .ok profile.description := by
    refine Codec.decode_ok_iff.mpr ?_
    rw [read, toValue_eq]
    exact ⟨faithful, rfl⟩
  rw [ofText, decoded]
  exact congrArg (Except.mapError _) (build_description built)

/-- A profile that was built is read back from both of its texts, provided that each number in it is
read back from its own text. -/
theorem Profile.ofText_toValue {draft : Draft Binary64} {profile : Profile Binary64}
    (built : draft.build = .ok profile) :
    ((∀ number ∈ profile.numbers, number.ReadBack) →
        Profile.ofText Binary64 profile.toValue.compact = .ok profile) ∧
      ((∀ number ∈ profile.numbers, number.normal.ReadBack) →
        Profile.ofText Binary64 profile.toValue.normal.compact = .ok profile ∧
          Profile.ofText Binary64 profile.toValue.normal.pretty = .ok profile) := by
  have within : profile.toValue.Within Json.nestingLimit := profile.toValue_within
  constructor
  · intro back
    have faithful := faithful_of_numbers Json.rendering_ofText
      (fun value value_mem => Codec.single_of_readBack (back _ value_mem))
      (fun value value_mem => Codec.double_of_readBack (back _ value_mem))
    exact ofText_of_read built faithful (Json.read_compact within)
  · intro back
    have faithful := faithful_of_numbers Json.rendering_normal
      (fun value value_mem => Codec.single_of_wide (back _ value_mem))
      (fun value value_mem => Codec.double_of_wide (back _ value_mem))
    have pretty : Json.read profile.toValue.normal.pretty =
        ⟨.ofText profile.toValue.normal, true⟩ := by
      simpa using Json.read_of_denotes within.normal.denotes_pretty
    exact ⟨ofText_of_read built faithful (Json.read_compact within.normal),
      ofText_of_read built faithful pretty⟩

/-- A tenth is another number in single precision than in double precision. -/
theorem Profile.ofText_toValue_ranged :
    let profile : Profile Binary64 :=
      { propertyId := 7
        status := .success
        carZones := [.whole]
        zoneRanges := some (.ofList [(.whole, ⟨.ofInt 1, .ofRatio false 1 2⟩)])
        celsius := ⟨some ⟨.ofInt 16, .ofInt 28⟩, some (.ofRatio false 1 10)⟩
        fahrenheit := ⟨none, none⟩ }
    profile.draft.build = .ok profile ∧
      (∀ number ∈ profile.numbers, number.ReadBack) ∧
      (∀ number ∈ profile.numbers, number.normal.ReadBack) ∧
      Profile.ofText Binary64 profile.toValue.compact = .ok profile ∧
      Profile.ofText Binary64 profile.toValue.normal.compact = .ok profile := by
  intro profile
  have built : profile.draft.build = .ok profile := by decide +kernel
  have direct : ∀ number ∈ profile.numbers, number.ReadBack := by decide +kernel
  have wide : ∀ number ∈ profile.numbers, number.normal.ReadBack := by decide +kernel
  exact ⟨built, direct, wide, (Profile.ofText_toValue built).1 direct,
    ((Profile.ofText_toValue built).2 wide).1⟩

end Cabin

end StatsRelay
