import StatsRelay.Proofs.JsonOutput

/-! Exit codes. What failed decides between the codes: access to a file or a sink, input that is no
good, or else what nobody can help. A profile that cannot be built is bad input, and octets that are
no text are told as bad input too, but not by the exit code. -/
namespace StatsRelay

open StatsRelay.Text.Utf8 (Bytes)

/-- A fault of neither kind that blames what was given. -/
def SystemFault.Ordinary (fault : SystemFault) : Prop :=
  fault.kind ≠ .invalidData ∧ fault.kind ≠ .invalidInput

instance (fault : SystemFault) : Decidable fault.Ordinary := inferInstanceAs (Decidable (_ ∧ _))

theorem Cabin.Profile.ofText_blank {text : String} (nothing : Text.trim text = "") :
    ∃ error, Cabin.Profile.ofText Decimal.Binary64 text = .error error := by
  have decoded : (Cabin.Description.table Decimal.Binary64).codec.decode text =
      .error .malformed := by
    rw [Codec.decode, Json.read_of_blank (Text.isBlank_of_trim nothing)]
    rfl
  exact ⟨.unreadable .malformed, by rw [Cabin.Profile.ofText, decoded]⟩

namespace Command

namespace ExitCode

theorem ofFailure_ordinary {fault : SystemFault} (ordinary : fault.Ordinary) :
    ofFailure fault.failure = inaccessible := by
  obtain ⟨kind, text⟩ := fault
  cases kind with
  | invalidData => exact absurd rfl ordinary.1
  | invalidInput => exact absurd rfl ordinary.2
  | _ => rfl

theorem ofFailure_not_ordinary {fault : SystemFault} (blaming : ¬fault.Ordinary) :
    ofFailure fault.failure = internal := by
  obtain ⟨kind, text⟩ := fault
  cases kind with
  | invalidData | invalidInput => rfl
  | _ => exact absurd ⟨nofun, nofun⟩ blaming

theorem ofFailure_description (error : Cabin.DescriptionError) :
    ofFailure error.failure = invalidInput := by
  cases error with
  | unreadable fault => rfl
  | invalid error => cases error <;> rfl

end ExitCode

namespace Input

def octets (files : FileSystem) (stream : Log.Stream) (path : Option String) :
    Except SystemFault Bytes :=
  match filePath? path with
  | none => (Log.Source.ofStream stream).read
  | some path => files.readBytes path

def read (files : FileSystem) (stream : Log.Stream) : Input → Except SystemFault Bytes
  | standard => (Log.Source.ofStream stream).read
  | file place => match files.entry? place with
    | some entry => entry.read
    | none => .error .missing

/-- An input is found just when its octets can be asked for; what forbids that is reported. -/
theorem ofPath_spec (files : FileSystem) (stream : Log.Stream) (path : Option String) :
    (∃ input, ofPath files path = .ok input ∧ input.read files stream = octets files stream path) ∨
      ∃ fault given, ofPath files path = .error (fault.failure.withDetail "path" given) ∧
        octets files stream path = .error fault := by
  unfold ofPath octets
  cases filePath? path with
  | none => exact .inl ⟨.standard, rfl, rfl⟩
  | some given =>
    cases located : files.locate given with
    | error fault =>
      refine .inr ⟨fault, given, by simp [located, bind, Except.bind], ?_⟩
      simp [FileSystem.readBytes, FileSystem.openInput, located, bind, Except.bind]
    | ok place =>
      rcases FileSystem.openInput_located located with ⟨entry, held, opened⟩ | ⟨fault, opened, _⟩
      · refine .inl ⟨.file place, ?_, ?_⟩
        · simp [located, opened, bind, Except.bind, pure, Except.pure]
        · simp [FileSystem.readBytes, opened, read, held, bind, Except.bind]
      · refine .inr ⟨fault, given, by simp [located, opened, bind, Except.bind], ?_⟩
        simp [FileSystem.readBytes, opened, bind, Except.bind]

theorem readText_eq (surroundings : Surroundings) (input : Input) :
    input.readText surroundings =
      input.read surroundings.files surroundings.input >>= FileSystem.textOf := by
  cases input with
  | standard => rfl
  | file place =>
    simp only [readText, read]
    cases surroundings.files.entry? place <;> rfl

end Input

theorem exitCode_ofResult (mode : OutputMode) (failure : Failure) :
    (Report.ofResult mode (.error failure)).exitCode = ExitCode.ofFailure failure := by
  cases mode <;> rfl

section

variable {surroundings : Surroundings} {path : String} (mode : OutputMode)

def Surroundings.octets (surroundings : Surroundings) (path : String) : Except SystemFault Bytes :=
  Input.octets surroundings.files surroundings.input path

def profileCode (surroundings : Surroundings) (mode : OutputMode) (path : String) : ExitCode :=
  (Report.ofResult mode (profile surroundings mode path)).exitCode

theorem profileCode_of_fault {fault : SystemFault}
    (broken : surroundings.octets path = .error fault) :
    profileCode surroundings mode path = ExitCode.ofFailure fault.failure := by
  rcases Input.ofPath_spec surroundings.files surroundings.input path with
    ⟨input, found, same⟩ | ⟨fault', given, refused, same⟩
  · have read : input.readText surroundings = .error fault := by
      rw [Input.readText_eq, same.trans broken]
      rfl
    have failed : profile surroundings mode path = .error fault.failure := by
      simp [profile, found, read, bind, Except.bind, Except.mapError]
    rw [profileCode, failed, exitCode_ofResult]
  · cases same.symm.trans broken
    have failed : profile surroundings mode path =
        .error (fault.failure.withDetail "path" given) := by
      simp [profile, refused, bind, Except.bind]
    rw [profileCode, failed, exitCode_ofResult]
    rfl

section

variable {bytes : Bytes} (read : surroundings.octets path = .ok bytes)
include read

theorem exists_input_of_octets : ∃ input, Input.ofPath surroundings.files path = .ok input ∧
    input.readText surroundings = FileSystem.textOf bytes := by
  rcases Input.ofPath_spec surroundings.files surroundings.input path with
    ⟨input, found, same⟩ | ⟨fault, given, _, same⟩
  · refine ⟨input, found, ?_⟩
    rw [Input.readText_eq, same.trans read]
    rfl
  · cases same.symm.trans read

theorem profileCode_of_notText (garbled : Text.Utf8.decodeString? bytes = none) :
    profileCode surroundings mode path = .internal := by
  obtain ⟨input, found, text⟩ := exists_input_of_octets read
  have broken : input.readText surroundings = .error .notText := by
    rw [text, FileSystem.textOf, garbled]
  have failed : profile surroundings mode path = .error SystemFault.notText.failure := by
    simp [profile, found, broken, bind, Except.bind, Except.mapError]
  rw [profileCode, failed, exitCode_ofResult]
  rfl

variable {text : String} (legible : Text.Utf8.decodeString? bytes = some text)
include legible

theorem profileCode_of_error {error : Cabin.DescriptionError}
    (refused : Cabin.Profile.ofText Decimal.Binary64 text = .error error) :
    profileCode surroundings mode path = .invalidInput := by
  obtain ⟨input, found, given⟩ := exists_input_of_octets read
  rw [FileSystem.textOf, legible] at given
  by_cases blank : Text.trim text = ""
  · have failed : profile surroundings mode path = .error (emptyInput path) := by
      simp [profile, found, given, blank, bind, Except.bind, Except.mapError, throw, throwThe,
        MonadExceptOf.throw]
    rw [profileCode, failed, exitCode_ofResult]
    rfl
  · have failed : profile surroundings mode path = .error error.failure := by
      simp [profile, found, given, blank, refused, bind, Except.bind, Except.mapError]
    rw [profileCode, failed, exitCode_ofResult, ExitCode.ofFailure_description]

theorem profileCode_of_ok {built : Cabin.Profile Decimal.Binary64}
    (accepted : Cabin.Profile.ofText Decimal.Binary64 text = .ok built) :
    profileCode surroundings mode path = .done := by
  obtain ⟨input, found, given⟩ := exists_input_of_octets read
  rw [FileSystem.textOf, legible] at given
  -- A blank text would be refused before it is read, but it describes no profile anyway.
  have nonempty : Text.trim text ≠ "" := by
    intro blank
    obtain ⟨error, refused⟩ := Cabin.Profile.ofText_blank blank
    cases refused.symm.trans accepted
  have shown : profile surroundings mode path = .ok (ProfileText.text built mode) := by
    simp [profile, found, given, nonempty, accepted, bind, Except.bind, Except.mapError, pure,
      Except.pure]
  rw [profileCode, shown]
  rfl

end

end

def Surroundings.Gives (surroundings : Surroundings) (path text : String) : Prop :=
  ∃ bytes, surroundings.octets path = .ok bytes ∧ Text.Utf8.decodeString? bytes = some text

/-- A profile ends well if the text describes one, as bad input if the text does not, and without
access if the system says so. Octets that are no text are not counted as bad input. -/
theorem execute_profile (surroundings : Surroundings) {words : List String} {mode : OutputMode}
    {path : String} (asked : Invocation.parse? words = some (.perform mode (.profile path))) :
    ∃ outcome, execute surroundings words = some outcome ∧
      (outcome.report.exitCode = .done ↔ ∃ text profile, surroundings.Gives path text ∧
        Cabin.Profile.ofText Decimal.Binary64 text = .ok profile) ∧
      (outcome.report.exitCode = .invalidInput ↔ ∃ text error, surroundings.Gives path text ∧
        Cabin.Profile.ofText Decimal.Binary64 text = .error error) ∧
      (outcome.report.exitCode = .inaccessible ↔
        ∃ fault, surroundings.octets path = .error fault ∧ fault.Ordinary) ∧
      (outcome.report.exitCode = .internal ↔
        (∃ bytes, surroundings.octets path = .ok bytes ∧ Text.Utf8.decodeString? bytes = none) ∨
          ∃ fault, surroundings.octets path = .error fault ∧ ¬fault.Ordinary) := by
  let report := Report.ofResult mode (profile surroundings mode path)
  have told : report.exitCode = profileCode surroundings mode path := rfl
  refine ⟨⟨report, surroundings.files⟩, by rw [execute, asked]; rfl, ?_⟩
  simp only [told]
  cases read : surroundings.octets path with
  | error fault =>
    by_cases ordinary : fault.Ordinary
    · have code := profileCode_of_fault mode read
      rw [ExitCode.ofFailure_ordinary ordinary] at code
      simp [Surroundings.Gives, read, ordinary, code]
    · have code := profileCode_of_fault mode read
      rw [ExitCode.ofFailure_not_ordinary ordinary] at code
      simp [Surroundings.Gives, read, ordinary, code]
  | ok bytes =>
    cases legible : Text.Utf8.decodeString? bytes with
    | none => simp [Surroundings.Gives, read, legible, profileCode_of_notText mode read legible]
    | some text =>
      cases described : Cabin.Profile.ofText Decimal.Binary64 text with
      | error error =>
        have code := profileCode_of_error mode read legible described
        simp [Surroundings.Gives, read, legible, described, code]
      | ok profile =>
        have code := profileCode_of_ok mode read legible described
        simp [Surroundings.Gives, read, legible, described, code]

theorem execute_profile_missing :
    let surroundings : Surroundings := ⟨.empty, .empty, [], UInt64.ofNat, .none⟩
    let words := ["profile", "--input", "nowhere.json"]
    Invocation.parse? words = some (.perform .text (.profile "nowhere.json")) ∧
      surroundings.octets "nowhere.json" = .error .missing ∧
        ∃ outcome, execute surroundings words = some outcome ∧
          outcome.report.exitCode = .inaccessible := by
  intro surroundings words
  have asked : Invocation.parse? words = some (.perform .text (.profile "nowhere.json")) := by
    decide +kernel
  have missing : surroundings.octets "nowhere.json" = .error .missing := by decide +kernel
  obtain ⟨outcome, run, _, _, inaccessible, _⟩ := execute_profile surroundings asked
  exact ⟨asked, missing, outcome, run, inaccessible.mpr ⟨_, missing, by decide⟩⟩

/-- An octet that begins no character is told as bad input, but not by the exit code. -/
theorem execute_profile_garbled :
    let surroundings : Surroundings := ⟨.empty, .empty, [.ok 0xFF], UInt64.ofNat, .none⟩
    ∃ outcome, execute surroundings ["profile", "--input", "-"] = some outcome ∧
      surroundings.octets "-" = .ok [0xFF] ∧ Text.Utf8.decodeString? [0xFF] = none ∧
      outcome.report = ⟨.internal, "",
        "error: core:invalid_input: stream did not contain valid UTF-8\n"⟩ := by
  intro surroundings
  refine ⟨⟨_, _⟩, rfl, ?_, ?_, ?_⟩
  all_goals decide +kernel

end Command

end StatsRelay
