import StatsRelay.Proofs.Layers
import StatsRelay.Proofs.ValidSettings

/-! What the check of the variables is worth. They are checked over what holds where nothing is set;
those that pass can be put over any valid settings. -/
namespace StatsRelay.Config

namespace Environment

variable {vars : Variables} {v : Variable} {environment : Environment} {given : Settings}

/-- Nothing is set to an empty list or to blanks. -/
structure Filled (environment : Environment) : Prop where
  backends : environment.backends ≠ some []
  sinkPath : ∀ path, environment.sinkPath = some path → ∃ c ∈ path.toList, Text.isBlank c = false

theorem value?_filled {value : String} (held : value? vars v = .ok (some value)) :
    ∃ c ∈ value.toList, Text.isBlank c = false := by
  unfold value? at held
  split at held
  · cases held
  · rename_i raw _
    split at held
    · cases held
    · rename_i nonempty
      cases held
      by_contra none
      have blank : ∀ c ∈ (Text.trim raw).toList, Text.isBlank c = true := by simpa using none
      exact nonempty (Text.trim_trim raw ▸ Text.trim_eq_empty_iff.mpr blank)

theorem readBackends_ne_nil {value : String} {backends : List Backend}
    (read : readBackends v value = .ok backends) : backends ≠ [] := by
  obtain ⟨nonempty, read⟩ := unless_ok_iff.mp read
  obtain ⟨_, read⟩ := unless_ok_iff.mp read
  obtain ⟨named, found, same⟩ := Except.bind_eq_ok_iff.mp read
  cases same
  rw [ne_eq, Settings.normalBackends_eq_nil_iff]
  rintro rfl
  -- Each entry names a backend, so no entry at all would have been listed.
  cases listed : Text.filledSegments ',' value with
  | nil => exact nonempty (by rw [listed]; rfl)
  | cons entry rest =>
    rw [listed, List.mapM_cons] at found
    obtain ⟨first, _, found⟩ := Except.bind_eq_ok_iff.mp found
    obtain ⟨others, _, same⟩ := Except.bind_eq_ok_iff.mp found
    cases same

theorem filled_of_read (read : Environment.read vars = .ok environment) : environment.Filled := by
  obtain ⟨listed, one, read⟩ := Except.bind_eq_ok_iff.mp read
  obtain ⟨backends, two, read⟩ := Except.bind_eq_ok_iff.mp read
  obtain ⟨named, _, read⟩ := Except.bind_eq_ok_iff.mp read
  obtain ⟨sink, _, read⟩ := Except.bind_eq_ok_iff.mp read
  obtain ⟨path, placed, same⟩ := Except.bind_eq_ok_iff.mp read
  cases same
  constructor
  · rintro rfl
    cases listed with
    | none => cases two
    | some value =>
      obtain ⟨backends, read, same⟩ := Except.bind_eq_ok_iff.mp two
      cases same
      exact readBackends_ne_nil read rfl
  · rintro text rfl
    exact value?_filled placed

/-- Variables keep valid settings valid, if a path comes with a file. -/
theorem valid_apply (filled : environment.Filled) (valid : given.Valid)
    (placed : environment.sink = some .file → environment.sinkPath ≠ none) :
    (environment.apply given).Valid where
  version := valid.version
  backends := by
    intro none
    cases held : environment.backends with
    | none => exact valid.backends (by simpa [apply, held] using none)
    | some backends => exact filled.backends (by simpa [apply, held] using none)
  path := by
    intro file
    cases held : environment.sinkPath with
    | some path => exact ⟨path, by simp [apply, held], filled.sinkPath path held⟩
    | none =>
      have unset : environment.sink ≠ some .file := fun same => placed same held
      cases set : environment.sink with
      | none => simpa [apply, held] using valid.path (by simpa [apply, set] using file)
      | some kind => exact absurd (by simpa [apply, set] using file) (set ▸ unset)
  few := valid.few
  names := valid.names

end Environment

theorem validated_isOk_iff {given : Settings} :
    (∃ settings, validated given = .ok settings) ↔ given.Valid :=
  (exists_congr fun _ => validated_ok_iff).trans Settings.validate_isOk_iff

/-- The check applies the variables to what holds where nothing is set. -/
theorem checkVariables_ok_iff {vars : Variables} :
    checkVariables vars = .ok () ↔ ∃ environment, Environment.read vars = .ok environment ∧
      (environment.apply .standard).Valid := by
  have discarded (outcome : Except ConfigError Settings) :
      discard outcome = .ok () ↔ ∃ settings, outcome = .ok settings := by
    cases outcome <;> simp [discard, Functor.mapConst, Except.map]
  refine Except.bind_eq_ok_iff.trans (exists_congr fun environment => ?_)
  rw [discarded, validated_isOk_iff]
  cases Environment.read vars <;> simp [Except.mapError]

/-- Variables pass the check just when they can be understood and put over any valid settings, which
they leave valid. -/
theorem checkVariables_sound {vars : Variables} :
    checkVariables vars = .ok () ↔ ∃ environment, Environment.read vars = .ok environment ∧
      ∀ given : Settings, (∃ settings, validated given = .ok settings) →
        ∃ settings, validated (environment.apply given) = .ok settings := by
  simp only [checkVariables_ok_iff, validated_isOk_iff]
  refine exists_congr fun environment => and_congr_right fun read => ⟨?_, ?_⟩
  · intro standard given valid
    refine Environment.valid_apply (Environment.filled_of_read read) valid fun file none => ?_
    obtain ⟨path, held, _⟩ := standard.path (by simp [Environment.apply, file])
    simp [Environment.apply, none, Settings.standard, SinkSettings.standard] at held
  · intro every
    exact every .standard (validated_isOk_iff.mp ⟨.standard, rfl⟩)

theorem checkVariables_sound_moved_sink :
    let vars : Variables :=
      .ofList [("OPSTATS_SINK", " FILE "), ("OPSTATS_SINK_PATH", " logs/out ")]
    let environment : Environment := ⟨none, some .file, some "logs/out"⟩
    let given : Settings := ⟨1, [.counting], ⟨.stdout, none⟩, .empty⟩
    checkVariables vars = .ok () ∧ Environment.read vars = .ok environment ∧
      ∃ settings, validated (environment.apply given) = .ok settings := by
  intro vars environment given
  have checked : checkVariables vars = .ok () := by rfl
  have set : Environment.read vars = .ok environment := by decide +kernel
  obtain ⟨read, same, sound⟩ := checkVariables_sound.mp checked
  cases set.symm.trans same
  exact ⟨checked, set, sound given ⟨_, rfl⟩⟩

end StatsRelay.Config
