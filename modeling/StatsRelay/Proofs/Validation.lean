import StatsRelay.Config.Settings
import StatsRelay.Proofs.Lines
import StatsRelay.Proofs.Rows

/-! What valid settings are. -/
namespace StatsRelay.Config

theorem unless_ok_iff {ε α β : Type} {condition : Prop} [Decidable condition] {error : ε}
    {after : β → Except ε α} {rest : Except ε α} {result : α} :
    (if condition then throw error >>= after else rest) = .ok result ↔
      ¬condition ∧ rest = .ok result := by
  by_cases holds : condition <;>
    simp [holds, throw, throwThe, MonadExceptOf.throw, bind, Except.bind]

namespace Settings

/-- Backends in normal form are those of the fixed list that are listed. -/
theorem normalBackends_eq (backends : List Backend) :
    normalBackends backends = Labelled.all.filter (· ∈ backends) := by
  have increasing : (Labelled.all : List Backend).Pairwise (compare · · = .lt) := by decide
  apply SortedSet.keys_ofList_eq (increasing.sublist List.filter_sublist)
  intro backend
  have listed : backend ∈ (Labelled.all : List Backend) := by cases backend <;> decide
  simp [listed]

/-- The settings that are valid, and their normal form. -/
theorem validate_ok_iff {given settings : Settings} :
    given.validate = .ok settings ↔
      given.version = supportedVersion ∧ normalBackends given.backends ≠ [] ∧
        given.baseFields.size ≤ fieldLimit ∧ (∀ name ∈ given.baseFields.keys, isFieldName name) ∧
          ∃ sink, normalSink given.sink = .ok sink ∧
            settings = ⟨given.version, normalBackends given.backends, sink, given.baseFields⟩ := by
  have legal : given.baseFields.keys.find? (!isFieldName ·) = none ↔
      ∀ name ∈ given.baseFields.keys, isFieldName name := by simp
  have nonempty : ¬(normalBackends given.backends).isEmpty ↔ normalBackends given.backends ≠ [] := by
    simp
  rw [← legal, ← nonempty]
  constructor
  · intro valid
    obtain ⟨version, valid⟩ := unless_ok_iff.mp valid
    obtain ⟨some, valid⟩ := unless_ok_iff.mp valid
    obtain ⟨sink, normal, valid⟩ := Except.bind_eq_ok_iff.mp valid
    obtain ⟨few, valid⟩ := unless_ok_iff.mp valid
    dsimp only at valid
    split at valid
    · cases valid
    · rename_i names
      cases valid
      refine ⟨Decidable.not_not.mp version, some, Nat.le_of_not_lt few, ?_, sink, normal, rfl⟩
      exact Option.eq_none_iff_forall_ne_some.mpr names
  · rintro ⟨version, some, few, names, sink, normal, rfl⟩
    refine unless_ok_iff.mpr ⟨not_not_intro version, unless_ok_iff.mpr ⟨some, ?_⟩⟩
    refine Except.bind_eq_ok_iff.mpr ⟨sink, normal, unless_ok_iff.mpr ⟨Nat.not_lt.mpr few, ?_⟩⟩
    simp only [names]
    rfl

theorem normalBackends_idem (backends : List Backend) :
    normalBackends (normalBackends backends) = normalBackends backends := by
  rw [normalBackends_eq, normalBackends_eq backends]
  apply List.filter_congr
  intro backend backend_mem
  simp [backend_mem]

theorem normalSink_file_iff {path : Option String} {sink : SinkSettings} :
    normalSink ⟨.file, path⟩ = .ok sink ↔
      ∃ given, path = some given ∧ Text.trim given ≠ "" ∧ sink = ⟨.file, some (Text.trim given)⟩ := by
  cases path with
  | none => simp [normalSink]
  | some given =>
    by_cases blank : Text.trim given = ""
    · simp [normalSink, Option.filter, blank]
    · have outcome : normalSink ⟨.file, some given⟩ = .ok ⟨.file, some (Text.trim given)⟩ := by
        simp [normalSink, Option.filter, blank]
      simp only [outcome, Except.ok.injEq, Option.some.injEq, exists_eq_left', ne_eq, blank,
        not_false_eq_true, true_and]
      exact eq_comm

theorem normalSink_stream {kind : SinkKind} (stream : kind ≠ .file) (path : Option String) :
    normalSink ⟨kind, path⟩ = .ok ⟨kind, none⟩ := by
  cases kind <;> first | rfl | exact absurd rfl stream

/-- A sink in normal form stays as it is. -/
theorem normalSink_idem {given sink : SinkSettings} (normal : normalSink given = .ok sink) :
    normalSink sink = .ok sink := by
  obtain ⟨kind, path⟩ := given
  by_cases file : kind = .file
  · subst file
    obtain ⟨text, _, nonempty, rfl⟩ := normalSink_file_iff.mp normal
    exact normalSink_file_iff.mpr ⟨_, rfl, by rwa [Text.trim_trim], by rw [Text.trim_trim]⟩
  · rw [normalSink_stream file] at normal
    cases normal
    exact normalSink_stream file none

/-- Settings in their normal form are valid, and the check leaves them as they are. -/
theorem validate_idem {given settings : Settings} (valid : given.validate = .ok settings) :
    settings.validate = .ok settings := by
  obtain ⟨version, some, few, names, sink, normal, rfl⟩ := validate_ok_iff.mp valid
  refine validate_ok_iff.mpr ⟨version, ?_, few, names, sink, normalSink_idem normal, ?_⟩
  · rwa [normalBackends_idem]
  · rw [normalBackends_idem]

end Settings

end StatsRelay.Config
