import StatsRelay.Proofs.Environments
import StatsRelay.Proofs.Opening

/-! Stacks of settings that were loaded. All that opening one can come to is the stack or that its
file cannot be opened; the stack has a logger for each backend, and has dropped nothing yet. -/
namespace StatsRelay

namespace Config

/-- Settings that came through a check, in any of the ways to load them. -/
inductive Loaded : Settings → Prop
  | checked {given settings : Settings} (valid : given.validate = .ok settings) : Loaded settings
  | applied {environment : Environment} {given settings : Settings}
      (valid : validated (environment.apply given) = .ok settings) : Loaded settings
  | parsed {format : Format} {text : String} {settings : Settings}
      (read : parse format text = .ok settings) : Loaded settings
  | layered {file overrides : Option String} {environment : Environment} {settings : Settings}
      (read : load file overrides environment = .ok settings) : Loaded settings
  | fromFile {files : FileSystem} {path overrides : Option String} {environment : Environment}
      {settings : Settings} (read : loadFile files path overrides environment = .ok settings) :
      Loaded settings
  | effective {files : FileSystem} {vars : Variables} {path overrides : Option String}
      {settings : Settings} (read : loadEffective files vars path overrides = .ok settings) :
      Loaded settings

theorem Loaded.validated {settings : Settings} (loaded : Loaded settings) :
    ∃ given : Settings, given.validate = .ok settings := by
  cases loaded with
  | checked valid => exact ⟨_, valid⟩
  | applied valid => exact ⟨_, validated_ok_iff.mp valid⟩
  | parsed read =>
    obtain ⟨given, _, valid⟩ := Except.bind_eq_ok_iff.mp read
    exact ⟨given, validated_ok_iff.mp valid⟩
  | @layered file _ _ _ read =>
    cases file with
    | none => exact validate_of_applyLayers read
    | some text =>
      obtain ⟨given, _, applied⟩ := Except.bind_eq_ok_iff.mp read
      exact validate_of_applyLayers applied
  | fromFile read => exact validate_of_loadFile read
  | effective read => exact validate_of_loadEffective read

def Settings.AppendsToFile (settings : Settings) : Prop :=
  settings.sink.kind = .file ∧ (.json ∈ settings.backends ∨ .telemetry ∈ settings.backends)

theorem Settings.AppendsToFile.path {settings : Settings} (appends : settings.AppendsToFile) :
    settings.appendsTo? = settings.sink.path := by
  rw [appendsTo?, if_pos appends.2, appends.1]

theorem Settings.appendsTo?_eq_none {settings : Settings} (nowhere : ¬settings.AppendsToFile) :
    settings.appendsTo? = none := by
  unfold appendsTo?
  by_cases needed : .json ∈ settings.backends ∨ .telemetry ∈ settings.backends
  · have other : settings.sink.kind ≠ .file := fun file => nowhere ⟨file, needed⟩
    cases kind : settings.sink.kind with
    | file => exact absurd kind other
    | stderr | stdout => rw [if_pos needed]
  · rw [if_neg needed]

end Config

namespace Log

open StatsRelay.Config

def Logger.backend? : Logger → Option Backend
  | noop => some .noop
  | counting _ => some .counting
  | tracing => some .tracing
  | json _ _ _ => some .json
  | telemetry _ => some .telemetry
  | recording _ | fanout _ _ | exploding _ => none

/-- An entry that tells of an identity from `id` on, below `id + width`. -/
def Entry.TellsOf (id : Nat) : Entry → Prop
  | wrote (some writer) _ _ _ => id ≤ writer ∧ writer < id + Stack.width
  | panicked fanout => id ≤ fanout ∧ fanout < id + Stack.width
  | _ => False

variable {settings : Settings} {id : Nat} {journal : Journal}

theorem Stack.dropped_build (fresh : ∀ entry ∈ journal.past, ¬entry.TellsOf id)
    (target : Target) (files : FileSystem) :
    let built := Stack.build id settings ⟨id, target⟩ { journal with files }
    built.1.dropped built.2 = 0 := by
  intro built
  have refused (writer : Nat) (own : id ≤ writer ∧ writer < id + Stack.width) :
      built.2.dropped writer = 0 := by
    refine List.countP_eq_zero.mpr (List.forall_mem_cons.mpr ⟨by simp, fun entry entry_mem => ?_⟩)
    have apart := fresh entry entry_mem
    cases entry with
    | wrote other =>
      rintro counted
      obtain ⟨rfl, _⟩ : other = some writer ∧ _ := by simpa using counted
      exact apart own
    | _ => simp
  have calm : built.2.panics id = 0 := by
    refine List.countP_eq_zero.mpr (List.forall_mem_cons.mpr ⟨by simp, fun entry entry_mem => ?_⟩)
    have apart := fresh entry entry_mem
    cases entry with
    | panicked fanout =>
      rintro counted
      obtain rfl : fanout = id := by simpa using counted
      exact apart ⟨le_rfl, by simp [Stack.width]⟩
    | _ => simp
  have writer := refused built.1.writer (by simp [built, Stack.build, Stack.writer, Stack.width])
  have meter := refused built.1.meter (by simp [built, Stack.build, Stack.meter, Stack.width])
  have fanout : built.1.id = id := rfl
  rw [Stack.dropped, writer, meter, fanout, calm]

theorem Stack.backend?_children (stack : Stack) :
    stack.children.map Logger.backend? = stack.backends.map some := by
  rw [children, List.map_map]
  refine List.map_congr_left fun backend _ => ?_
  cases backend <;> rfl

/-- A stack that has a logger for each backend of some settings, in their order, and has dropped
nothing yet. -/
structure Stack.Starts (settings : Settings) (stack : Stack) (journal : Journal) : Prop where
  children : ∃ children, stack.logger = .fanout stack.id children ∧
    children.map Logger.backend? = settings.backends.map some
  counts : (stack.counts? journal).isSome ↔ .counting ∈ settings.backends
  dropped : stack.dropped journal = 0

theorem Stack.starts_build (fresh : ∀ entry ∈ journal.past, ¬entry.TellsOf id)
    (target : Target) (files : FileSystem) :
    let built := Stack.build id settings ⟨id, target⟩ { journal with files }
    built.1.Starts settings built.2 := by
  intro built
  refine ⟨⟨_, rfl, built.1.backend?_children⟩, ?_, dropped_build fresh target files⟩
  have backends : built.1.backends = settings.backends := rfl
  by_cases counts : .counting ∈ settings.backends <;> simp [counts?, backends, counts]

/-- To open the stack of settings that were loaded means to open their file, if a backend writes to
one, and nothing else; so nothing else can fail. What is opened has one logger for each backend, and
is only at its start. -/
theorem Stack.open?_loaded (loaded : Loaded settings)
    (fresh : ∀ entry ∈ journal.past, ¬entry.TellsOf id) :
    (settings.AppendsToFile → ∃ path, settings.sink.path = some path ∧
      match journal.files.openAppend path with
      | .error fault =>
        Stack.open? id settings journal = .error (SinkError.opening path fault).failure
      | .ok (files, place) => ∃ stack after, Stack.open? id settings journal = .ok (stack, after) ∧
          after.files = files ∧ stack.sink.target = .file path place) ∧
    (¬settings.AppendsToFile → ∃ stack past, stack.sink.target.isFile = false ∧
      ∀ files, Stack.open? id settings { journal with files } =
        .ok (stack, ⟨past, files, journal.streams⟩)) ∧
    (∀ failure, Stack.open? id settings journal = .error failure → settings.AppendsToFile ∧
      failure.code.text = "sink:open_failed" ∧ failure.origin ≠ .invariant) ∧
    ∀ stack after, Stack.open? id settings journal = .ok (stack, after) →
      stack.Starts settings after ∧ settings.backends.Pairwise (·.index < ·.index) := by
  obtain ⟨given, checked⟩ := loaded.validated
  have increasing := (Settings.normalForm_of_validate checked).increasing
  by_cases appends : settings.AppendsToFile
  · obtain ⟨path, held⟩ := Settings.path_of_validate checked appends.1
    have outcome := Stack.open?_of_file (appends.path.trans held) id journal
    cases opened : journal.files.openAppend path with
    | error fault =>
      rw [opened] at outcome
      refine ⟨fun _ => ⟨path, held, by rw [opened]; exact outcome⟩, fun nowhere => absurd appends
        nowhere, ?_, ?_⟩
      · intro error refused
        cases outcome.symm.trans refused
        exact ⟨appends, rfl, by simp [SinkError.failure, Failure.withDetail, Failure.unexpected]⟩
      · intro stack after built
        cases outcome.symm.trans built
    | ok pair =>
      rw [opened] at outcome
      refine ⟨fun _ => ⟨path, held, by rw [opened]; exact ⟨_, _, outcome, rfl, rfl⟩⟩,
        fun nowhere => absurd appends nowhere, ?_, ?_⟩
      · intro error refused
        cases outcome.symm.trans refused
      · intro stack after built
        cases outcome.symm.trans built
        exact ⟨Stack.starts_build fresh _ _, increasing⟩
  · obtain ⟨target, plain, opened⟩ :=
      Stack.open?_of_stream ⟨given, checked⟩ (Settings.appendsTo?_eq_none appends)
    let built := Stack.build id settings ⟨id, target⟩ journal
    refine ⟨fun needed => absurd needed appends, fun _ => ⟨built.1, built.2.past, plain, fun files =>
      opened id { journal with files }⟩, ?_, ?_⟩
    · intro error refused
      cases (opened id journal).symm.trans refused
    · intro stack after built
      cases (opened id journal).symm.trans built
      exact ⟨Stack.starts_build fresh target journal.files, increasing⟩

theorem Stack.open?_loaded_created :
    let given : Settings := ⟨1, [.json, .counting, .json], ⟨.file, some " out.log"⟩, .empty⟩
    let settings : Settings := ⟨1, [.counting, .json], ⟨.file, some "out.log"⟩, .empty⟩
    let journal : Journal := ⟨[.panicked 0], .empty, .none⟩
    given.validate = .ok settings ∧ (∀ entry ∈ journal.past, ¬entry.TellsOf 4) ∧
      ∃ stack after, Stack.open? 4 settings journal = .ok (stack, after) ∧
        after.files.entry? ["out.log"] = some (.file []) ∧ stack.Starts settings after := by
  intro given settings journal
  have checked : given.validate = .ok settings := by decide +kernel
  have fresh : ∀ entry ∈ journal.past, ¬entry.TellsOf 4 := by simp [journal, Entry.TellsOf]
  have appends : settings.AppendsToFile := ⟨rfl, .inl (by decide)⟩
  have created : journal.files.openAppend "out.log" =
      .ok (journal.files.put ["out.log"] (.file []), ["out.log"]) := by decide +kernel
  have outcome := Stack.open?_loaded (.checked checked) fresh
  obtain ⟨path, held, opened⟩ := outcome.1 appends
  cases held
  rw [created] at opened
  obtain ⟨stack, after, opened, files, _⟩ := opened
  refine ⟨checked, fresh, stack, after, opened, ?_, (outcome.2.2.2 stack after opened).1⟩
  rw [files]
  decide +kernel

end Log

end StatsRelay
