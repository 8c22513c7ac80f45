import StatsRelay.Proofs.ExitCodes

/-! The stages of a replay, and of settings that are to be shown. Each can fail in one way: some have
to do with access to a file or a sink, all others with what was given. The settings take effect, or
the first of their stages that fails is the one that is reported. -/
namespace StatsRelay

open StatsRelay.Config (ConfigError Environment Overrides Settings)

namespace Command

/-- What can fail, in the order in which it is found out. -/
inductive Stage
  | environment
  | format
  /-- The file of settings cannot be read as text. -/
  | fileText
  | fileSyntax
  | overrides
  | validation
  /-- The lines of the replay would go where its output goes. -/
  | conflict
  | sink
  | input
deriving DecidableEq

namespace Stage

def index : Stage → Nat
  | environment => 0
  | format => 1
  | fileText => 2
  | fileSyntax => 3
  | overrides => 4
  | validation => 5
  | conflict => 6
  | sink => 7
  | input => 8

def isAccess : Stage → Bool
  | fileText | sink | input => true
  | _ => false

def exitCode (stage : Stage) : ExitCode := if stage.isAccess then .inaccessible else .invalidInput

theorem index_lt (stage : Stage) : stage.index < 9 := by cases stage <;> decide

theorem index_injective {first second : Stage} (same : first.index = second.index) :
    first = second := by
  cases first <;> cases second <;> first | rfl | exact absurd same (by decide)

end Stage

section

variable (fails : Stage → Prop)

def Passes (index : Nat) : Prop := ∀ stage, fails stage → index ≤ stage.index

def First (stage : Stage) : Prop := fails stage ∧ Passes fails stage.index

variable {fails}

theorem Passes.next (stage : Stage) (passed : Passes fails stage.index) (sound : ¬fails stage) :
    Passes fails (stage.index + 1) := by
  intro other failed
  have apart : stage.index ≠ other.index := fun same => sound (Stage.index_injective same ▸ failed)
  have reached := passed other failed
  omega

/-- At most one stage is the first that fails. -/
theorem First.unique {first second : Stage} (one : First fails first)
    (other : First fails second) : first = second :=
  Stage.index_injective (Nat.le_antisymm (one.2 second other.1) (other.2 first one.1))

end

/-- Settings that are to be shown, or under which an input is to be replayed. -/
structure Request where
  mode : OutputMode
  config : Option String
  overrides : Option String
  /-- The path of the input, which may be left out. -/
  replayed : Option (Option String)

def Request.task (request : Request) : Task :=
  match request.replayed with
  | none => .showConfig request.config request.overrides
  | some input => .replay input request.config request.overrides

section

variable (surroundings : Surroundings) (request : Request)

def FileSays (settings : Settings) : Prop :=
  match request.config with
  | none => settings = .standard
  | some path => ∃ format text, Config.formatOf path = .ok format ∧
      surroundings.files.readText path = .ok text ∧
      Config.decode Settings.codec format text = .ok settings

def OverridesMake (given settings : Settings) : Prop :=
  match request.overrides with
  | none => settings = given
  | some text => ∃ overrides : Overrides,
      Config.decode Overrides.table.codec .json text = .ok overrides ∧
        settings = overrides.apply given

def Merges (settings : Settings) : Prop :=
  ∃ environment given overridden, Environment.read surroundings.environment = .ok environment ∧
    FileSays surroundings request given ∧ OverridesMake request given overridden ∧
    settings = environment.apply overridden

def InEffect (settings : Settings) : Prop :=
  ∃ merged, Merges surroundings request merged ∧ merged.validate = .ok settings

def Opens (settings : Settings) (files : FileSystem) : Prop :=
  match settings.appendsTo? with
  | none => files = surroundings.files
  | some path => ∃ place, surroundings.files.openAppend path = .ok (files, place)

end

end Command

def Config.ConfigError.stage : ConfigError → Command.Stage
  | environment _ => .environment
  | unsupportedFormat _ => .format
  | unreadableFile _ _ => .fileText
  | malformed .overrides _ _ => .overrides
  | malformed _ _ _ => .fileSyntax
  | invalid _ => .validation

namespace Command

namespace ExitCode

end ExitCode

section

variable {surroundings : Surroundings} {request : Request}

theorem FileSays.unique {first second : Settings} (one : FileSays surroundings request first)
    (other : FileSays surroundings request second) : first = second := by
  obtain ⟨mode, config, overrides, replayed⟩ := request
  cases config with
  | none => exact one.trans other.symm
  | some path =>
    obtain ⟨format, text, told, held, decoded⟩ := one
    obtain ⟨format', text', told', held', decoded'⟩ := other
    cases told.symm.trans told'
    cases held.symm.trans held'
    exact Except.ok.inj (decoded.symm.trans decoded')

theorem OverridesMake.unique {given first second : Settings}
    (one : OverridesMake request given first) (other : OverridesMake request given second) :
    first = second := by
  obtain ⟨mode, config, overrides, replayed⟩ := request
  cases overrides with
  | none => exact one.trans other.symm
  | some text =>
    obtain ⟨layer, decoded, rfl⟩ := one
    obtain ⟨layer', decoded', rfl⟩ := other
    cases decoded.symm.trans decoded'
    rfl

theorem Merges.unique {first second : Settings} (one : Merges surroundings request first)
    (other : Merges surroundings request second) : first = second := by
  obtain ⟨environment, given, above, read, file, made, rfl⟩ := one
  obtain ⟨environment', given', above', read', file', made', rfl⟩ := other
  cases read.symm.trans read'
  cases file.unique file'
  cases made.unique made'
  rfl

theorem InEffect.unique {first second : Settings} (one : InEffect surroundings request first)
    (other : InEffect surroundings request second) : first = second := by
  obtain ⟨merged, merges, valid⟩ := one
  obtain ⟨merged', merges', valid'⟩ := other
  cases merges.unique merges'
  exact Except.ok.inj (valid.symm.trans valid')

theorem Opens.unique {settings : Settings} {first second : FileSystem}
    (one : Opens surroundings settings first) (other : Opens surroundings settings second) :
    first = second := by
  unfold Opens at one other
  split at one
  · rename_i nowhere
    simp only [nowhere] at other
    exact one.trans other.symm
  · rename_i path appends
    simp only [appends] at other
    obtain ⟨place, opened⟩ := one
    obtain ⟨place', opened'⟩ := other
    cases opened.symm.trans opened'
    rfl

end

end Command

end StatsRelay
