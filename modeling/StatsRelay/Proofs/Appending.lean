import StatsRelay.Log.LiveReplay
import StatsRelay.Proofs.Journal
import StatsRelay.Proofs.Lines
import StatsRelay.Proofs.SortedMap

/-! What is appended to files. Where room is limited, the octets that a replay of a growing file can
still read and those that can still be written are fewer with every read, so it comes to its end. -/
namespace StatsRelay

open StatsRelay.Text StatsRelay.Text.Utf8

namespace FileSystem

/-- At the place there is a file with just this content, and there is room for any more. -/
structure Holds (files : FileSystem) (place : List String) (content : Bytes) : Prop where
  entry : files.entry? place = some (.file content)
  unlimited : files.room = none

variable {files : FileSystem} {place : List String} {content : Bytes}

theorem ne_nil_of_entry? (found : files.entry? place = some (.file content)) : place ≠ [] := by
  rintro rfl
  cases found

theorem entry?_put (placed : place ≠ []) (files : FileSystem) (other : List String)
    (entry : Entry) :
    FileSystem.entry? (files.put other entry) place =
      if place = other then some entry else files.entry? place := by
  have named : place.isEmpty = false := by simpa using placed
  simp only [FileSystem.entry?, put, named, SortedMap.get?_insert]
  split <;> simp_all

theorem room_append (files : FileSystem) (other : List String) (bytes : Bytes) :
    (files.append other bytes).1.room = files.room.map (· - (files.fitting bytes).length) := by
  rw [FileSystem.append]
  dsimp only
  split <;> rfl

/-- What is appended to a file is added to it as far as it fits, and other files are left alone. -/
theorem entry?_append (found : files.entry? place = some (.file content)) (other : List String)
    (bytes : Bytes) :
    FileSystem.entry? (files.append other bytes).1 place =
      some (.file (content ++ if other = place then files.fitting bytes else [])) := by
  have placed := ne_nil_of_entry? found
  have same (room : Option Nat) (at' : List String) :
      FileSystem.entry? ⟨files.entries, files.cwd, room⟩ at' = files.entry? at' := rfl
  rw [FileSystem.append]
  simp only [same]
  by_cases here : other = place
  · subst here
    simp [found, entry?_put placed]
  · split <;> simp [FileSystem.entry?_put placed, Ne.symm here, here, same, found]

/-- Where room is unlimited, a file grows by all that is appended to it. -/
theorem Holds.append (held : files.Holds place content) (other : List String) (bytes : Bytes) :
    (files.append other bytes).1.Holds place (content ++ if other = place then bytes else []) := by
  have fits : files.fitting bytes = bytes := by
    rw [fitting, held.unlimited]
    exact List.take_length
  refine ⟨?_, ?_⟩
  · rw [FileSystem.entry?_append held.entry, fits]
  · rw [room_append, held.unlimited]
    rfl

/-- The file at a place holds some number of octets at least, and no more than a total of them are in
it or can still be written. -/
def Within (files : FileSystem) (place : List String) (least total : Nat) : Prop :=
  ∃ content room, files.entry? place = some (.file content) ∧ files.room = some room ∧
    least ≤ content.length ∧ content.length + room ≤ total

theorem Within.append {least total : Nat} (within : files.Within place least total)
    (other : List String) (bytes : Bytes) :
    (files.append other bytes).1.Within place least total := by
  obtain ⟨content, room, found, limited, held, few⟩ := within
  have fits : (files.fitting bytes).length ≤ room := by
    rw [fitting, limited]
    exact List.length_take_le ..
  refine ⟨_, room - (files.fitting bytes).length, entry?_append found other bytes, ?_, ?_, ?_⟩
  · rw [room_append, limited]
    rfl
  · rw [List.length_append]
    omega
  · rw [List.length_append]
    split
    · omega
    · rw [List.length_nil]
      omega

end FileSystem

namespace Log

variable {clock : Clock} {logger : Logger} {place : List String} {least total : Nat}

theorem Journal.within_write {journal : Journal} (within : journal.files.Within place least total)
    (writer : Option Nat) (sink : Sink) (line : String) :
    (journal.write writer sink line).1.files.Within place least total := by
  obtain ⟨id, target⟩ := sink
  cases target with
  | file path other => exact within.append other (encodeString line)
  | _ => exact within

theorem Action.within_perform {journal : Journal}
    (within : journal.files.Within place least total) (action : Action) :
    (action.perform clock journal).files.Within place least total := by
  cases action with
  | note entry => exact within
  | write writer sink subject line =>
    have written :=
      Journal.within_write within (some writer) sink (line (clock journal.nextLine))
    rw [perform]
    split <;> rename_i outcome <;> rw [outcome] at written <;> exact written

theorem Logger.within_log {journal : Journal} (within : journal.files.Within place least total)
    (record : Stats.Record) : (logger.log clock journal record).files.Within place least total := by
  rw [log]
  induction (logger.react record).1 generalizing journal with
  | nil => exact within
  | cons action rest ih => exact ih (Action.within_perform within action)

theorem Replay.within_dispatch {journal : Journal} (within : journal.files.Within place least total)
    (number : Nat) (line : Bytes) (finding : Finding) :
    (dispatch logger clock number line journal finding).files.Within place least total := by
  cases finding with
  | record record => exact Logger.within_log within record
  | _ => exact within

namespace LiveReplay

variable {live live' : LiveReplay}

theorem next?_eq_some (next : live.next? logger clock place = some live') :
    let line := (Lines.next (live.unread place)).1
    line ≠ [] ∧ live' = ⟨live.offset + line.length, live.replay.step logger clock line⟩ := by
  intro line
  rw [LiveReplay.next?] at next
  split at next
  · cases next
  · rename_i found rest nonempty cut
    have same : line = found := congrArg Prod.fst cut
    rw [same]
    exact ⟨nonempty, (Option.some.inj next).symm⟩

theorem next?_eq_none (next : live.next? logger clock place = none) :
    (Lines.next (live.unread place)).1 = [] := by
  rw [LiveReplay.next?] at next
  split at next
  · rename_i cut
    rw [cut]
  · cases next

/-- Each read goes further into what can be read at all. -/
theorem within_next? (next : live.next? logger clock place = some live')
    (within : live.replay.journal.files.Within place live.offset total) :
    live.offset < live'.offset ∧
      live'.replay.journal.files.Within place live'.offset total := by
  obtain ⟨content, room, found, limited, held, few⟩ := within
  obtain ⟨nonempty, rfl⟩ := next?_eq_some next
  have unread : live.unread place = content.drop live.offset := by
    rw [LiveReplay.unread, found]
  have parts := congrArg List.length (Lines.next_append_rest (live.unread place))
  rw [List.length_append, unread, List.length_drop] at parts
  have some := List.length_pos_of_ne_nil nonempty
  rw [unread] at some ⊢
  have inContent : live.offset + (Lines.next (content.drop live.offset)).1.length ≤ content.length := by
    omega
  exact ⟨Nat.lt_add_of_pos_right some,
    Replay.within_dispatch ⟨content, room, found, limited, inContent, few⟩ _ _ _⟩

/-- A replay reads no more octets than there are or can still be written. -/
theorem finish?_isSome_of_within (within : live.replay.journal.files.Within place live.offset total)
    {limit : Nat} (enough : total < live.offset + limit) :
    (finish? logger clock place limit live).isSome := by
  induction limit generalizing live with
  | zero =>
    obtain ⟨content, room, _, _, held, few⟩ := within
    omega
  | succ limit ih =>
    rw [finish?]
    cases next : live.next? logger clock place with
    | none => rfl
    | some live' =>
      obtain ⟨further, within'⟩ := within_next? next within
      exact ih within' (by omega)

end LiveReplay

/-- Where room is limited, every replay of a file comes to an end. -/
theorem replayFile_isSome_of_room {journal : Journal} {room : Nat}
    (limited : journal.files.room = some room) :
    (replayFile logger clock journal place).isSome := by
  rw [replayFile]
  split
  · rename_i content found
    have within : (LiveReplay.start journal).replay.journal.files.Within place 0
        (content.length + room) := ⟨content, room, found, limited, Nat.zero_le _, Nat.le_refl _⟩
    rw [Option.isSome_map, limited]
    exact LiveReplay.finish?_isSome_of_within within (by rw [readLimit]; simp [LiveReplay.start])
  all_goals rfl

end Log

end StatsRelay
