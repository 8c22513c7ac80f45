import Mathlib.Data.String.Basic
import StatsRelay.Proofs.Validation

/-! Which settings are valid, and what the check makes of them. Settings are valid when none of five
things is wrong with them; what is valid is brought into its normal form, and of all else the first
thing that is wrong is reported. -/
namespace StatsRelay.Config

def IsLetter (c : Char) : Prop := 'A' ≤ c ∧ c ≤ 'Z' ∨ 'a' ≤ c ∧ c ≤ 'z'

def IsDigit (c : Char) : Prop := '0' ≤ c ∧ c ≤ '9'

/-- The whole text matches `[A-Za-z][A-Za-z0-9_]*`. -/
def IsName (text : String) : Prop :=
  ∃ first rest, text.toList = first :: rest ∧ IsLetter first ∧
    ∀ c ∈ rest, IsLetter c ∨ IsDigit c ∨ c = '_'

theorem isLetter_iff {c : Char} : c.isAlpha = true ↔ IsLetter c := by
  have upper : c.isUpper = decide ('A' ≤ c ∧ c ≤ 'Z') := rfl
  have lower : c.isLower = (decide ('a' ≤ c) && decide (c ≤ 'z')) := rfl
  have letter : c.isAlpha = (c.isUpper || c.isLower) := rfl
  simp [letter, upper, lower, IsLetter]

theorem isDigit_iff {c : Char} : c.isDigit = true ↔ IsDigit c := by
  simp [Char.isDigit, IsDigit, Char.le_def]

theorem Settings.isFieldName_iff {name : String} : isFieldName name = true ↔ IsName name := by
  unfold isFieldName IsName
  cases name.toList with
  | nil => simp
  | cons first rest => simp [isLetter_iff, isDigit_iff, Char.isAlphanum, or_assoc]

def SinkSettings.Pathless (sink : SinkSettings) : Prop :=
  ∀ path, sink.path = some path → ∀ c ∈ path.toList, Text.isBlank c = true

namespace Settings

/-- What is wrong with settings if an error is reported. -/
def Violates (given : Settings) : SettingsError → Prop
  | .unsupportedVersion found => given.version ≠ 1 ∧ found = given.version
  | .noBackends => given.backends = []
  | .noSinkPath => given.sink.kind = .file ∧ given.sink.Pathless
  | .tooManyFields count => 32 < given.baseFields.size ∧ count = given.baseFields.size
  | .invalidFieldName name => name ∈ given.baseFields.keys ∧ ¬IsName name ∧
      ∀ other ∈ given.baseFields.keys, ¬IsName other → name ≤ other

structure Valid (given : Settings) : Prop where
  version : given.version = 1
  backends : given.backends ≠ []
  path : given.sink.kind = .file → ∃ path, given.sink.path = some path ∧
    ∃ c ∈ path.toList, Text.isBlank c = false
  few : given.baseFields.size ≤ 32
  names : ∀ name ∈ given.baseFields.keys, IsName name

/-- The same settings, written in the one way that the check leaves as it is. -/
structure NormalForm (given settings : Settings) : Prop where
  version : settings.version = given.version
  increasing : settings.backends.Pairwise (·.index < ·.index)
  backends : ∀ backend, backend ∈ settings.backends ↔ backend ∈ given.backends
  kind : settings.sink.kind = given.sink.kind
  path : settings.sink.path =
    if given.sink.kind = .file then given.sink.path.map Text.trim else none
  baseFields : settings.baseFields = given.baseFields

end Settings

@[grind]
def SettingsError.stage : SettingsError → Nat
  | unsupportedVersion _ => 0
  | noBackends => 1
  | noSinkPath => 2
  | tooManyFields _ => 3
  | invalidFieldName _ => 4

namespace Settings

variable {given settings : Settings}

def First (given : Settings) (error : SettingsError) : Prop :=
  given.Violates error ∧ ∀ other, given.Violates other → error.stage ≤ other.stage

attribute [grind] Violates First

theorem First.unique {error other : SettingsError} (first : given.First error)
    (also : given.First other) : error = other := by
  have same : error.stage = other.stage :=
    Nat.le_antisymm (first.2 other also.1) (also.2 error first.1)
  have one := first.1
  have two := also.1
  cases error with
  | invalidFieldName name =>
    cases other with
    | invalidFieldName name' =>
      exact congrArg _ (le_antisymm (one.2.2 name' two.1 two.2.1) (two.2.2 name one.1 one.2.1))
    | _ => cases same
  | _ => cases other <;> grind

theorem find?_invalid {name : String}
    (found : given.baseFields.keys.find? (!isFieldName ·) = some name) :
    given.Violates (.invalidFieldName name) := by
  obtain ⟨invalid, before, after, keys, sound⟩ := List.find?_eq_some_iff_append.mp found
  have increasing : (before ++ name :: after).Pairwise (compare · · = .lt) :=
    keys ▸ List.pairwise_map.mpr given.baseFields.increasing
  have later := (List.pairwise_cons.mp (List.pairwise_append.mp increasing).2.1).1
  refine ⟨keys ▸ by simp, ?_, fun other listed unnamed => ?_⟩
  · exact fun named => by simp [isFieldName_iff.mpr named] at invalid
  · rw [keys, List.mem_append, List.mem_cons] at listed
    rcases listed with earlier | rfl | behind
    · exact absurd (isFieldName_iff.mp (by simpa using sound other earlier)) unnamed
    · exact le_rfl
    · exact (compare_lt_iff_lt.mp (later other behind)).le

theorem normalBackends_eq_nil_iff {backends : List Backend} :
    normalBackends backends = [] ↔ backends = [] := by
  rw [List.eq_nil_iff_forall_not_mem, List.eq_nil_iff_forall_not_mem]
  exact forall_congr' fun backend => not_congr SortedSet.mem_keys_ofList

theorem normalBackends_increasing (backends : List Backend) :
    (normalBackends backends).Pairwise (·.index < ·.index) :=
  (List.pairwise_map.mpr (SortedSet.ofList backends).increasing).imp Nat.compare_eq_lt.mp

theorem normalSink_spec (sink : SinkSettings) :
    (normalSink sink = .ok ⟨sink.kind,
        if sink.kind = .file then sink.path.map Text.trim else none⟩ ∧
      (sink.kind = .file → ∃ path, sink.path = some path ∧
        ∃ c ∈ path.toList, Text.isBlank c = false)) ∨
      normalSink sink = .error .noSinkPath ∧ sink.kind = .file ∧ sink.Pathless := by
  obtain ⟨kind, path⟩ := sink
  by_cases file : kind = .file
  case neg =>
    refine .inl ⟨?_, fun same => absurd same file⟩
    rw [normalSink_stream file, if_neg file]
  subst file
  cases path with
  | none => exact .inr ⟨rfl, rfl, nofun⟩
  | some path =>
    by_cases blank : ∀ c ∈ path.toList, Text.isBlank c = true
    · refine .inr ⟨?_, rfl, fun _ same => Option.some.inj same ▸ blank⟩
      simp [normalSink, Option.filter, Text.trim_eq_empty_iff.mpr blank]
    · have nonempty : Text.trim path ≠ "" := fun empty => blank (Text.trim_eq_empty_iff.mp empty)
      refine .inl ⟨normalSink_file_iff.mpr ⟨path, rfl, nonempty, rfl⟩, fun _ => ⟨path, rfl, ?_⟩⟩
      simpa using blank

/-- What becomes of settings: their normal form, or the first error that fits. -/
def Judged (given : Settings) : Prop :=
  (∃ settings, given.validate = .ok settings ∧ given.Valid ∧ given.NormalForm settings) ∨
    ∃ error, given.validate = .error error ∧ given.First error

section

variable (version : given.version = 1) (listed : given.backends ≠ [])
include version listed

theorem validate_of_backends :
    given.validate = (normalSink given.sink).bind fun sink =>
      if 32 < given.baseFields.size then .error (.tooManyFields given.baseFields.size)
      else match given.baseFields.keys.find? (!isFieldName ·) with
        | some name => .error (.invalidFieldName name)
        | none => .ok ⟨given.version, normalBackends given.backends, sink, given.baseFields⟩ := by
  have understood : ¬given.version ≠ supportedVersion := not_not_intro version
  have nonempty : ¬(normalBackends given.backends).isEmpty := by
    simpa [normalBackends_eq_nil_iff] using listed
  rw [validate, if_neg understood, if_neg nonempty]
  refine congrArg _ (funext fun sink => ?_)
  by_cases many : 32 < given.baseFields.size
  · exact (if_pos many).trans (if_pos many).symm
  · refine (if_neg many).trans (Eq.trans ?_ (if_neg many).symm)
    cases given.baseFields.keys.find? (!isFieldName ·) <;> rfl

theorem judged_of_backends : given.Judged := by
  have understood := version
  have outcome := validate_of_backends version listed
  rcases normalSink_spec given.sink with ⟨normal, placed⟩ | ⟨refused, file, pathless⟩
  case inr =>
    rw [refused] at outcome
    exact .inr ⟨_, outcome, ⟨file, pathless⟩, by grind [cases SettingsError]⟩
  have reachable : ¬given.Violates .noSinkPath := by
    rintro ⟨file, pathless⟩
    obtain ⟨path, held, c, c_mem, other⟩ := placed file
    simp [pathless path held c c_mem] at other
  simp only [normal, Except.bind] at outcome
  by_cases many : 32 < given.baseFields.size
  case pos =>
    rw [if_pos many] at outcome
    exact .inr ⟨_, outcome, ⟨many, rfl⟩, by grind [cases SettingsError]⟩
  rw [if_neg many] at outcome
  cases found : given.baseFields.keys.find? (!isFieldName ·) with
  | some name =>
    simp only [found] at outcome
    exact .inr ⟨_, outcome, find?_invalid found, by grind [cases SettingsError]⟩
  | none =>
    simp only [found] at outcome
    refine .inl ⟨_, outcome, ⟨version, listed, placed, Nat.le_of_not_lt many, ?_⟩, ?_⟩
    · intro name name_mem
      exact isFieldName_iff.mp (by simpa using List.find?_eq_none.mp found name name_mem)
    · exact ⟨rfl, normalBackends_increasing _, fun _ => SortedSet.mem_keys_ofList, rfl, rfl, rfl⟩

end

theorem validate_spec (given : Settings) : given.Judged := by
  by_cases version : given.version = 1
  case neg =>
    have outcome : given.validate = .error (.unsupportedVersion given.version) := by
      have other : given.version ≠ supportedVersion := version
      rw [validate, if_pos other]
      rfl
    exact .inr ⟨_, outcome, ⟨version, rfl⟩, fun _ _ => Nat.zero_le _⟩
  by_cases listed : given.backends = []
  case pos =>
    have outcome : given.validate = .error .noBackends := by
      have understood : ¬given.version ≠ supportedVersion := not_not_intro version
      rw [validate, if_neg understood, listed]
      rfl
    exact .inr ⟨_, outcome, listed, by grind [cases SettingsError]⟩
  exact judged_of_backends version listed

theorem Valid.not_violates (valid : given.Valid) (error : SettingsError) :
    ¬given.Violates error := by
  cases error with
  | unsupportedVersion => exact fun violated => violated.1 valid.version
  | noBackends => exact valid.backends
  | noSinkPath =>
    rintro ⟨file, pathless⟩
    obtain ⟨path, held, c, c_mem, other⟩ := valid.path file
    simp [pathless path held c c_mem] at other
  | tooManyFields => exact fun violated => Nat.not_lt.mpr valid.few violated.1
  | invalidFieldName name => exact fun violated => violated.2.1 (valid.names name violated.1)

theorem validate_isOk_iff : (∃ settings, given.validate = .ok settings) ↔ given.Valid := by
  constructor
  · rintro ⟨settings, checked⟩
    rcases validate_spec given with ⟨_, _, valid, _⟩ | ⟨error, refused, _⟩
    · exact valid
    · cases checked.symm.trans refused
  · intro valid
    rcases validate_spec given with ⟨settings, checked, _⟩ | ⟨error, _, first⟩
    · exact ⟨settings, checked⟩
    · exact absurd first.1 (valid.not_violates error)

theorem validate_error_iff {error : SettingsError} :
    given.validate = .error error ↔ given.First error := by
  rcases validate_spec given with ⟨settings, checked, valid, _⟩ | ⟨reported, refused, first⟩
  · simp only [checked, reduceCtorEq, false_iff]
    exact fun first => valid.not_violates error first.1
  · simp only [refused, Except.error.injEq]
    exact ⟨fun same => same ▸ first, first.unique⟩

theorem normalForm_of_validate (checked : given.validate = .ok settings) :
    given.NormalForm settings := by
  rcases validate_spec given with ⟨_, same, _, normal⟩ | ⟨error, refused, _⟩
  · cases checked.symm.trans same
    exact normal
  · cases checked.symm.trans refused

/-- Settings pass the check just when they are valid. What comes of them is their normal form, which
the check leaves as it is; and what is reported is the first thing that is wrong with them. -/
theorem validate_accepts_valid (given : Settings) :
    ((∃ settings, given.validate = .ok settings) ↔ given.Valid) ∧
      (∀ settings, given.validate = .ok settings →
        given.NormalForm settings ∧ settings.validate = .ok settings) ∧
      ∀ error, given.validate = .error error ↔ given.First error :=
  ⟨validate_isOk_iff, fun _ checked => ⟨normalForm_of_validate checked, validate_idem checked⟩,
    fun _ => validate_error_iff⟩

theorem validate_accepts_valid_untidy :
    let fields : SortedMap String String := .ofList [("service", "search")]
    let given : Settings :=
      ⟨1, [.tracing, .counting, .tracing], ⟨.file, some " out.log\t"⟩, fields⟩
    let settings : Settings := ⟨1, [.counting, .tracing], ⟨.file, some "out.log"⟩, fields⟩
    given.validate = .ok settings ∧ given.NormalForm settings ∧
      settings.validate = .ok settings := by
  intro fields given settings
  have checked : given.validate = .ok settings := by decide +kernel
  exact ⟨checked, (validate_accepts_valid given).2.1 settings checked⟩

/-- Blanks and a hyphen are in no name, and the blank comes first. -/
example :
    let fields : SortedMap String String := .ofList [("z-9", ""), ("service", ""), ("a b", "")]
    (⟨1, [.noop], ⟨.stderr, none⟩, fields⟩ : Settings).validate =
      .error (.invalidFieldName "a b") := by
  decide +kernel

end Settings

end StatsRelay.Config
