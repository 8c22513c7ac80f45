import StatsRelay.Proofs.Descriptions
import StatsRelay.Proofs.ReplayEnds

/-! Output that programs read. Whatever a command comes to, its standard output is one document: a
value of its own, or that of a failure. Lines of a replay would mix with it, so a replay that would
write them there is refused before anything else is done. -/
namespace StatsRelay

open StatsRelay.Json (Value Denotes nestingLimit)

def Document.member? (name : String) : Document → Option Document
  | object members => members.lookup (some name)
  | _ => none

namespace Command

/-- One document and a line end, and nothing else. -/
def IsDocument (output : String) : Prop :=
  ∃ text document, output = text ++ "\n" ∧ Denotes nestingLimit text.toList document

/-- A value that is not nested too deep is shown as one document. -/
theorem textOfValue_document {value : Value} (within : value.Within nestingLimit) :
    IsDocument (textOfValue value) :=
  ⟨_, _, rfl, within.normal.denotes_pretty⟩

section

variable {room : Nat}

theorem Build.value_within : Build.value.Within (room + 2) := by
  simp [Build.value, parts]

theorem failureValue_within (failure : Failure) : (failureValue failure).Within (room + 3) := by
  simp [failureValue]

theorem ProfileText.value_within (profile : Cabin.Profile Decimal.Binary64) :
    (ProfileText.value profile).Within (room + 6) := by
  simp [ProfileText.value, profile.toValue_within]

theorem ReplayText.value_within (stack : Log.Stack) (journal : Log.Journal)
    (summary : Log.Summary) : (ReplayText.value stack journal summary).Within (room + 3) := by
  rw [value]
  cases stack.counts? journal <;> simp [Log.Summary.toValue, Value.ofNat]

end

theorem Report.failed_document (failure : Failure) :
    IsDocument (Report.failed .json failure).stdout :=
  textOfValue_document (failureValue_within failure)

end Command

theorem Failure.code_details (failure : Failure) (details : List (String × String)) :
    (details.foldl (fun failure detail => failure.withDetail detail.1 detail.2) failure).code =
      failure.code := by
  induction details generalizing failure with
  | nil => rfl
  | cons detail rest ih => exact ih _

theorem Config.ConfigError.area (error : Config.ConfigError) :
    error.failure.code.area = "config" := by
  cases error with
  | environment error =>
    simp [failure, EnvironmentError.failure, Failure.code_details, Failure.expected]
  | unsupportedFormat extension => rfl
  | unreadableFile path fault => rfl
  | malformed role format fault =>
    cases format <;> cases role <;> rfl
  | invalid error => simp [failure, SettingsError.failure, Failure.code_details, Failure.expected]

theorem Log.SinkError.area (error : Log.SinkError) : error.failure.code.area = "sink" := by
  cases error <;> rfl

theorem SystemFault.area (fault : SystemFault) : fault.failure.code.area = "core" := by
  obtain ⟨kind, text⟩ := fault
  cases kind <;> rfl

namespace Command

section

variable {surroundings : Surroundings} {config overrides : Option String}

end

/-- The output of a replay that is not refused for it: what it came to, or another failure. -/
inductive ReplayOutput : String → Prop
  | finished (stack : Log.Stack) (journal : Log.Journal) (summary : Log.Summary) :
    ReplayOutput (textOfValue (ReplayText.value stack journal summary))
  | failed (failure : Failure) (other : failure.code.text ≠ streamConflict.code.text) :
    ReplayOutput (textOfValue (failureValue failure))

theorem ReplayOutput.document {output : String} (told : ReplayOutput output) :
    IsDocument output := by
  cases told with
  | finished stack journal summary => exact textOfValue_document (ReplayText.value_within ..)
  | failed failure => exact Report.failed_document failure

end Command

end StatsRelay
