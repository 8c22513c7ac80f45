import StatsRelay.Command.Run
import StatsRelay.Proofs.Reloading
import StatsRelay.Proofs.Trace

/-! How the stack of a replay is opened. Settings that take effect were checked, so the only thing
left that can fail is to open the file that they name. -/
namespace StatsRelay

open StatsRelay.Config (Settings)
open StatsRelay.Text.Utf8 (Bytes)

namespace Config

theorem validate_of_applyLayers {given settings : Settings} {overrides : Option String}
    {environment : Environment}
    (applied : applyLayers given overrides environment = .ok settings) :
    ∃ given : Settings, given.validate = .ok settings := by
  obtain ⟨layer, same⟩ := exists_layer_of_applyLayers applied
  exact ⟨layer.apply given, validated_ok_iff.mp ((same given).symm.trans applied)⟩

theorem validate_of_loadFile {files : FileSystem} {path overrides : Option String}
    {environment : Environment} {settings : Settings}
    (loaded : loadFile files path overrides environment = .ok settings) :
    ∃ given : Settings, given.validate = .ok settings := by
  cases path with
  | none => exact validate_of_applyLayers loaded
  | some path =>
    obtain ⟨given, _, applied⟩ := Except.bind_eq_ok_iff.mp loaded
    exact validate_of_applyLayers applied

theorem validate_of_loadEffective {files : FileSystem} {vars : Variables}
    {path overrides : Option String} {settings : Settings}
    (loaded : loadEffective files vars path overrides = .ok settings) :
    ∃ given : Settings, given.validate = .ok settings := by
  obtain ⟨environment, _, loaded⟩ := Except.bind_eq_ok_iff.mp loaded
  exact validate_of_loadFile loaded

/-- Without a file of settings, no file is looked at. -/
theorem loadEffective_none (files : FileSystem) (vars : Variables) (overrides : Option String) :
    loadEffective files vars none overrides = loadEffective .empty vars none overrides := rfl

theorem Settings.path_of_validate {given settings : Settings}
    (valid : given.validate = .ok settings) (file : settings.sink.kind = .file) :
    ∃ path, settings.sink.path = some path := by
  obtain ⟨_, _, _, _, sink, normal, rfl⟩ := validate_ok_iff.mp valid
  generalize given.sink = spelled at normal
  obtain ⟨kind, path⟩ := spelled
  by_cases same : kind = .file
  · subst same
    obtain ⟨text, _, _, rfl⟩ := normalSink_file_iff.mp normal
    exact ⟨_, rfl⟩
  · rw [normalSink_stream same] at normal
    cases normal
    exact absurd file same

theorem Settings.needsSink_iff (settings : Settings) :
    settings.needsSink ↔ .json ∈ settings.backends ∨ .telemetry ∈ settings.backends := by
  rw [needsSink, List.any_eq_true]
  constructor
  · rintro ⟨backend, listed, uses⟩
    cases backend with
    | json => exact .inl listed
    | telemetry => exact .inr listed
    | counting | noop | tracing => cases uses
  · rintro (listed | listed)
    · exact ⟨.json, listed, rfl⟩
    · exact ⟨.telemetry, listed, rfl⟩

/-- The file that lines are appended to under some settings. -/
def Settings.appendsTo? (settings : Settings) : Option String :=
  if .json ∈ settings.backends ∨ .telemetry ∈ settings.backends then
    match settings.sink.kind with
    | .file => settings.sink.path
    | _ => none
  else none

end Config

namespace Log

variable {settings : Settings}

theorem Target.kind_of_ofSettings {files files' : FileSystem} {sink : Config.SinkSettings}
    (chosen : Target.ofSettings files sink = .ok (.stdout, files')) : sink.kind = .stdout := by
  obtain ⟨kind, path⟩ := sink
  cases kind with
  | stdout => rfl
  | stderr => cases chosen
  | file =>
    cases path with
    | none => cases chosen
    | some path =>
      simp only [ofSettings, openFile] at chosen
      split at chosen <;> cases chosen

theorem Stack.exists_build_of_open? {id : Nat} {journal journal' : Journal} {stack : Stack}
    (opened : Stack.open? id settings journal = .ok (stack, journal')) :
    ∃ target files, Stack.build id settings ⟨id, target⟩ { journal with files } =
        (stack, journal') ∧
      (target = .stdout → settings.needsSink ∧ settings.sink.kind = .stdout) := by
  by_cases needed : settings.needsSink
  · rw [open?, if_pos needed] at opened
    obtain ⟨⟨target, files⟩, chosen, built⟩ := Except.bind_eq_ok_iff.mp opened
    refine ⟨target, files, Except.ok.inj built, ?_⟩
    rintro rfl
    exact ⟨needed, Target.kind_of_ofSettings chosen⟩
  · rw [open?, if_neg needed] at opened
    exact ⟨.stderr, journal.files, Except.ok.inj opened, nofun⟩

theorem Stack.open?_ok {id : Nat} {journal journal' : Journal} {stack : Stack}
    (opened : Stack.open? id settings journal = .ok (stack, journal')) :
    stack.backends = settings.backends ∧
      (stack.sink.target = .stdout → settings.needsSink ∧ settings.sink.kind = .stdout) := by
  obtain ⟨target, files, built, out⟩ := Stack.exists_build_of_open? opened
  cases built
  exact ⟨rfl, out⟩

/-- A stack that writes to a file is opened over the files in which that is open. -/
theorem Stack.open?_of_file {path : String} (appends : settings.appendsTo? = some path)
    (id : Nat) (journal : Journal) :
    Stack.open? id settings journal = match journal.files.openAppend path with
      | .error fault => .error (SinkError.opening path fault).failure
      | .ok (files, place) =>
        .ok (Stack.build id settings ⟨id, .file path place⟩ { journal with files }) := by
  unfold Config.Settings.appendsTo? at appends
  split at appends
  case isFalse => cases appends
  rename_i needed
  split at appends
  case h_2 => cases appends
  rename_i kind
  rw [Stack.open?, if_pos (settings.needsSink_iff.mpr needed), Target.ofSettings, kind, appends]
  dsimp only
  unfold Target.openFile
  cases journal.files.openAppend path <;> rfl

/-- Any other stack is opened without a look at the files. -/
theorem Stack.open?_of_stream (valid : ∃ given : Settings, given.validate = .ok settings)
    (nowhere : settings.appendsTo? = none) :
    ∃ target : Target, target.isFile = false ∧ ∀ id journal,
      Stack.open? id settings journal = .ok (Stack.build id settings ⟨id, target⟩ journal) := by
  by_cases needed : .json ∈ settings.backends ∨ .telemetry ∈ settings.backends
  · have uses := settings.needsSink_iff.mpr needed
    rw [Config.Settings.appendsTo?, if_pos needed] at nowhere
    cases kind : settings.sink.kind with
    | stderr =>
      refine ⟨.stderr, rfl, fun id journal => ?_⟩
      rw [Stack.open?, if_pos uses, Target.ofSettings, kind]
      rfl
    | stdout =>
      refine ⟨.stdout, rfl, fun id journal => ?_⟩
      rw [Stack.open?, if_pos uses, Target.ofSettings, kind]
      rfl
    | file =>
      obtain ⟨given, valid⟩ := valid
      obtain ⟨path, held⟩ := Settings.path_of_validate valid kind
      simp [kind, held] at nowhere
  · have plain : ¬settings.needsSink := fun uses => needed (settings.needsSink_iff.mp uses)
    refine ⟨.stderr, rfl, fun id journal => ?_⟩
    rw [Stack.open?, if_neg plain]
    rfl

/-- A stack is opened over the files in which its own is open, unless that cannot be opened. -/
theorem Stack.open?_spec (valid : ∃ given : Settings, given.validate = .ok settings)
    (files : FileSystem) (streams : Refusals) :
    (∃ path fault, settings.appendsTo? = some path ∧ files.openAppend path = .error fault ∧
      Stack.open? 0 settings (.start files streams) =
        .error (SinkError.opening path fault).failure) ∨
    ∃ stack journal, Stack.open? 0 settings (.start files streams) = .ok (stack, journal) ∧
      stack.backends = settings.backends ∧
      match settings.appendsTo? with
      | none => journal.files = files ∧ stack.sink.target.isFile = false
      | some path => ∃ place, files.openAppend path = .ok (journal.files, place) ∧
          stack.sink.target = .file path place := by
  cases appends : settings.appendsTo? with
  | none =>
    obtain ⟨target, plain, opened⟩ := Stack.open?_of_stream valid appends
    exact .inr ⟨_, _, opened 0 (.start files streams), rfl, rfl, plain⟩
  | some path =>
    have opened := Stack.open?_of_file appends 0 (.start files streams)
    have start : (Journal.start files streams).files = files := rfl
    rw [start] at opened
    cases held : files.openAppend path with
    | error fault => exact .inl ⟨path, fault, rfl, held, by rw [opened, held]⟩
    | ok pair => exact .inr ⟨_, _, by rw [opened, held], rfl, pair.2, held, rfl⟩

end Log

namespace Command

variable {surroundings : Surroundings} {mode : OutputMode} {config overrides : Option String}
  {stack : Log.Stack} {journal : Log.Journal} {place : List String} {content : Bytes}

theorem openStack_loaded {settings : Settings}
    (loaded : Config.loadEffective surroundings.files surroundings.environment config overrides =
      .ok settings) (mode : OutputMode) :
    openStack surroundings mode config overrides =
      if mode = .json ∧ settings.needsSink ∧ settings.sink.kind = .stdout then .error streamConflict
      else Log.Stack.open? 0 settings (.start surroundings.files surroundings.streams) := by
  rw [openStack, loaded]
  by_cases mixed : mode = .json ∧ settings.needsSink ∧ settings.sink.kind = .stdout
  · rw [if_pos mixed]
    exact if_pos mixed
  · rw [if_neg mixed]
    exact if_neg mixed

/-- A stack that is opened is that of settings that were loaded. -/
theorem exists_settings_of_openStack
    (opened : openStack surroundings mode config overrides = .ok (stack, journal)) :
    ∃ settings, Config.loadEffective surroundings.files surroundings.environment config overrides =
        .ok settings ∧
      Log.Stack.open? 0 settings (.start surroundings.files surroundings.streams) =
        .ok (stack, journal) := by
  cases loaded : Config.loadEffective surroundings.files surroundings.environment config
      overrides with
  | error error =>
    rw [openStack, loaded] at opened
    cases opened
  | ok settings =>
    rw [openStack_loaded loaded] at opened
    split at opened
    · cases opened
    · exact ⟨settings, rfl, opened⟩

/-- The backends of an opened stack are in their fixed order. -/
theorem backends_of_openStack
    (opened : openStack surroundings mode config overrides = .ok (stack, journal)) :
    stack.backends = Labelled.all.filter (· ∈ stack.backends) := by
  obtain ⟨settings, loaded, built⟩ := exists_settings_of_openStack opened
  obtain ⟨given, valid⟩ := Config.validate_of_loadEffective loaded
  rw [(Log.Stack.open?_ok built).1]
  exact Log.backends_of_validate valid

theorem openStack_of_held {settings : Settings} {path : String}
    (loaded : Config.loadEffective surroundings.files surroundings.environment config overrides =
      .ok settings)
    (appends : settings.appendsTo? = some path) (kind : settings.sink.kind ≠ .stdout)
    (located : surroundings.files.locate path = .ok place)
    (held : surroundings.files.entry? place = some (.file content)) (mode : OutputMode) :
    openStack surroundings mode config overrides = .ok (Log.Stack.build 0 settings
      ⟨0, .file path place⟩ (.start surroundings.files surroundings.streams)) := by
  have created : surroundings.files.openAppend path = .ok (surroundings.files, place) := by
    simp [FileSystem.openAppend, FileSystem.locateAppended, located, held, Except.mapError, bind,
      Except.bind, pure, Except.pure]
  have start : (Log.Journal.start surroundings.files surroundings.streams).files =
      surroundings.files := rfl
  rw [openStack_loaded loaded, if_neg fun mixed => kind mixed.2.2, Log.Stack.open?_of_file appends,
    start, created]
  rfl

end Command

end StatsRelay
