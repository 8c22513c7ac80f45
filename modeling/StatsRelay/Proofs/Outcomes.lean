import StatsRelay.Proofs.Stages
import StatsRelay.Proofs.Streams

/-! What a replay comes to, and settings that are to be shown. The first stage that fails decides the
exit code; neither what the replayed lines hold nor what is lost of the written ones decides anything.
A replay comes to an end, but for one that reads what it writes. -/
namespace StatsRelay

open StatsRelay.Config (Settings)

namespace FileSystem

def Ordinary (files : FileSystem) : Prop :=
  ∀ place entry fault, files.entry? place = some entry → entry.read = .error fault → fault.Ordinary

variable {files files' : FileSystem} {path : String} {place : List String} {fault : SystemFault}

theorem Ordinary.resolve (ordinary : files.Ordinary) {steps : List String}
    (refused : files.resolve place steps = .error fault) : fault.Ordinary := by
  induction steps generalizing place with
  | nil => cases refused
  | cons step rest ih =>
    rw [FileSystem.resolve] at refused
    cases held : files.entry? place with
    | none =>
      rw [held] at refused
      cases refused
      decide
    | some entry =>
      rw [held] at refused
      cases entry with
      | file | damaged =>
        cases refused
        decide
      | barred reading appending =>
        cases refused
        exact ordinary place _ _ held rfl
      | directory =>
        dsimp only at refused
        split at refused
        · exact ih refused
        · split at refused <;> exact ih refused

theorem Ordinary.locate (ordinary : files.Ordinary) (refused : files.locate path = .error fault) :
    fault.Ordinary := by
  rw [FileSystem.locate] at refused
  split at refused
  · cases refused
    decide
  · exact ordinary.resolve refused

theorem Ordinary.readBytes (ordinary : files.Ordinary)
    (refused : files.readBytes path = .error fault) : fault.Ordinary := by
  cases located : files.locate path with
  | error fault' =>
    simp [FileSystem.readBytes, openInput, located, bind, Except.bind] at refused
    exact refused ▸ ordinary.locate located
  | ok place =>
    rcases openInput_located located with ⟨entry, held, opened⟩ | ⟨fault', opened, sort⟩
    · simp only [FileSystem.readBytes, opened, bind, Except.bind] at refused
      exact ordinary place entry fault held refused
    · simp [FileSystem.readBytes, opened, bind, Except.bind] at refused
      subst refused
      rcases sort with rfl | ⟨appending, held⟩
      · decide
      · exact ordinary place _ fault' held rfl

/-- A file that is opened for appending brings no fault of its own. -/
theorem Ordinary.openAppend (ordinary : files.Ordinary)
    (opened : files.openAppend path = .ok (files', place)) : files'.Ordinary := by
  obtain ⟨place', _, opened⟩ := Except.bind_eq_ok_iff.mp opened
  split at opened
  · cases opened
  · cases opened
  · cases opened
    exact ordinary
  · cases opened
    exact ordinary
  · cases opened
    intro other entry fault held failed
    -- What is put at a place is an empty file, and everything else stays as it was.
    by_cases root : other = []
    · subst root
      cases held
      cases failed
      decide
    · rw [FileSystem.entry?_put root] at held
      split at held
      · cases held
        cases failed
      · exact ordinary other entry fault held failed

end FileSystem

namespace Command

section

variable (surroundings : Surroundings) {request : Request}

end

/-- No fault of the system blames what was given. -/
structure Surroundings.Ordinary (surroundings : Surroundings) : Prop where
  files : surroundings.files.Ordinary
  input : ∀ fault, (Log.Source.ofStream surroundings.input).read = .error fault → fault.Ordinary

section

variable {surroundings : Surroundings} (ordinary : surroundings.Ordinary) {request : Request}
include ordinary

theorem Surroundings.Ordinary.octets {settings : Settings} {files : FileSystem}
    (opens : Opens surroundings settings files) {input : Option String} {fault : SystemFault}
    (refused : Input.octets files surroundings.input input = .error fault) : fault.Ordinary := by
  have above : files.Ordinary := by
    unfold Opens at opens
    split at opens
    · exact opens ▸ ordinary.files
    · obtain ⟨place, opened⟩ := opens
      exact ordinary.files.openAppend opened
  unfold Input.octets at refused
  split at refused
  · exact ordinary.input fault refused
  · exact above.readBytes refused

end

end Command

end StatsRelay
