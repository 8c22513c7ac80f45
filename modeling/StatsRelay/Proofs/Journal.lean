import StatsRelay.Log.Stack

/-! What actions leave in a journal. Writes to a sink that refuses some of them by their number are
tried in their order whether or not others were refused. -/
namespace StatsRelay.Log

open StatsRelay.Stats

namespace Entry

def attempt? (sink : Nat) : Entry → Option (String × Option SinkError)
  | wrote _ s line error => if s = sink then some (line, error) else none
  | _ => none

def event? : Entry → Option Event
  | event noted => some noted
  | _ => none

end Entry

namespace Journal

theorem attempts_eq (journal : Journal) (sink : Nat) :
    journal.attempts sink = (journal.past.filterMap (Entry.attempt? sink)).reverse := by
  rw [← List.filterMap_reverse]
  rfl

theorem attempts_add (journal : Journal) (entry : Entry) (sink : Nat) :
    (journal.add entry).attempts sink = journal.attempts sink ++ (entry.attempt? sink).toList := by
  rw [attempts_eq, attempts_eq, add, List.filterMap_cons]
  cases entry.attempt? sink <;> simp

theorem attemptCount_eq (journal : Journal) (sink : Nat) :
    journal.attemptCount sink = (journal.attempts sink).length := by
  rw [attempts_eq, List.length_reverse, List.length_filterMap_eq_countP]
  apply List.countP_congr
  intro entry _
  cases entry <;> simp [Entry.attempt?]

theorem events_eq (journal : Journal) :
    journal.events = (journal.past.filterMap Entry.event?).reverse := by
  rw [← List.filterMap_reverse]
  rfl

theorem nextLine_add (journal : Journal) (entry : Entry) :
    (journal.add entry).nextLine = journal.nextLine +
      match entry with
      | .wrote _ _ _ _ => 1
      | _ => 0 := by
  cases entry <;> simp [nextLine, add]

/-- Where no line was written at all, none was written to a sink. -/
theorem attempts_of_fresh {journal : Journal} (fresh : journal.nextLine = 1) (sink : Nat) :
    journal.attempts sink = [] := by
  have none := List.countP_eq_zero.mp (Nat.succ.inj fresh)
  rw [attempts_eq, List.reverse_eq_nil_iff, List.filterMap_eq_nil_iff]
  intro entry entry_mem
  have unwritten := none entry entry_mem
  cases entry with
  | wrote => exact absurd rfl unwritten
  | _ => rfl

theorem past_write (journal : Journal) (writer : Option Nat) (sink : Sink) (line : String) :
    (journal.write writer sink line).1.past =
      .wrote writer sink.id line (journal.write writer sink line).2 :: journal.past := rfl

end Journal

namespace Action

variable (clock : Clock)

/-- A write leaves itself behind, and a warning if it was refused. -/
theorem past_perform_write (journal : Journal) (writer : Nat) (sink : Sink) (subject : Subject)
    (line : UInt64 → String) :
    ∃ error : Option SinkError, ((write writer sink subject line).perform clock journal).past =
      error.toList.map (fun error => .event (subject.dropped sink.target error)) ++
        .wrote (some writer) sink.id (line (clock journal.nextLine)) error :: journal.past := by
  have past := journal.past_write (some writer) sink (line (clock journal.nextLine))
  obtain ⟨⟨written, error⟩, outcome⟩ :
    ∃ outcome, journal.write (some writer) sink (line (clock journal.nextLine)) = outcome := ⟨_, rfl⟩
  rw [outcome] at past
  cases error with
  | none => exact ⟨none, by simpa [perform, outcome] using past⟩
  | some error => exact ⟨some error, by simpa [perform, outcome, Journal.add] using past⟩

def lines : Action → List (UInt64 → String)
  | note _ => []
  | write _ _ _ line => [line]

/-- Actions that write to one sink, and note nothing that only a write leaves behind. -/
def Into (sink : Sink) : Action → Prop
  | note (.wrote _ _ _ _) => False
  | note _ => True
  | write _ s _ _ => s = sink

theorem nextLine_perform (journal : Journal) {action : Action} {sink : Sink}
    (into : action.Into sink) :
    (action.perform clock journal).nextLine = journal.nextLine + action.lines.length := by
  cases action with
  | note entry =>
    cases entry with
    | wrote => exact into.elim
    | _ => exact Journal.nextLine_add journal _
  | write writer sink subject line =>
    obtain ⟨error, past⟩ := past_perform_write clock journal writer sink subject line
    rw [Journal.nextLine, past]
    cases error <;> simp [Journal.nextLine, lines]

theorem streams_perform (journal : Journal) (action : Action) :
    (action.perform clock journal).streams = journal.streams := by
  cases action with
  | note entry => rfl
  | write writer sink subject line =>
    rw [perform]
    split <;> rename_i outcome <;> exact congrArg (fun outcome => outcome.1.streams) outcome.symm

end Action

/-- A write to what is no file leaves all files as they are. -/
theorem Target.write_of_plain {target : Target} (plain : target.isFile = false)
    (streams : Refusals) (files : FileSystem) (number : Nat) (line : String) :
    target.write streams files number line = (files, target.refusal? streams number) := by
  cases target with
  | file path place => cases plain
  | _ => rfl

theorem Journal.write_of_plain {sink : Sink} (plain : sink.target.isFile = false)
    (journal : Journal) (writer : Option Nat) (line : String) :
    journal.write writer sink line =
      let error := sink.target.refusal? journal.streams ((journal.attempts sink.id).length + 1)
      (journal.add (.wrote writer sink.id line error), error) := by
  rw [write, Target.write_of_plain plain, attemptCount_eq]

theorem Action.files_perform_of_plain {clock : Clock} {sink : Sink}
    (plain : sink.target.isFile = false) (journal : Journal) {action : Action}
    (into : action.Into sink) : (action.perform clock journal).files = journal.files := by
  cases action with
  | note entry => rfl
  | write writer other subject line =>
    obtain rfl : other = sink := into
    rw [perform, Journal.write_of_plain plain]
    cases other.target.refusal? journal.streams ((journal.attempts other.id).length + 1) <;> rfl

namespace Action

variable {clock : Clock} {id : Nat} {target : Target} (plain : target.isFile = false)
include plain

/-- A line that is written is tried under the number that is next. -/
theorem attempts_perform (journal : Journal) {action : Action} (into : action.Into ⟨id, target⟩) :
    (action.perform clock journal).attempts id = journal.attempts id ++
      action.lines.map fun line => (line (clock journal.nextLine),
        target.refusal? journal.streams ((journal.attempts id).length + 1)) := by
  cases action with
  | note entry =>
    cases entry with
    | wrote => exact into.elim
    | _ => simp [perform, lines, Journal.attempts_add, Entry.attempt?]
  | write writer sink subject line =>
    obtain rfl : sink = ⟨id, target⟩ := into
    rw [perform, Journal.write_of_plain plain]
    cases target.refusal? journal.streams ((journal.attempts id).length + 1) <;>
      simp [lines, Journal.attempts_add, Entry.attempt?]

/-- Where nothing is written to another sink, the line of a number shows the time of this number, and
is refused or not by this number alone. -/
theorem attempts_foldl (actions : List Action) (journal : Journal)
    (into : ∀ action ∈ actions, action.Into ⟨id, target⟩)
    (alone : journal.nextLine = (journal.attempts id).length + 1) :
    (actions.foldl (perform clock) journal).attempts id = journal.attempts id ++
      ((actions.flatMap lines).zipIdx journal.nextLine).map fun (line, number) =>
        (line (clock number), target.refusal? journal.streams number) := by
  induction actions generalizing journal with
  | nil => simp
  | cons action rest ih =>
    obtain ⟨first, others⟩ := List.forall_mem_cons.mp into
    have attempts : (action.perform clock journal).attempts id = _ :=
      attempts_perform plain journal first
    have next := nextLine_perform clock journal first
    have alone' : (action.perform clock journal).nextLine =
        ((action.perform clock journal).attempts id).length + 1 := by
      rw [next, attempts, List.length_append, List.length_map]
      omega
    rw [List.foldl_cons, ih _ others alone', streams_perform, next, attempts, List.flatMap_cons,
      List.zipIdx_append, List.map_append, ← alone, List.append_assoc]
    cases action <;> simp [lines]

end Action

/-- Entries of a stack: writes by its writer and its meter to its sink, and no panics. -/
def Entry.Of (stack : Stack) : Entry → Prop
  | wrote writer sink _ _ =>
    (writer = some stack.writer ∨ writer = some stack.meter) ∧ sink = stack.sink.id
  | panicked fanout => fanout ≠ stack.id
  | _ => True

namespace Stack

theorem writer_ne_meter (stack : Stack) : stack.writer ≠ stack.meter := by
  unfold writer meter
  omega

/-- What a stack counts as dropped is what its sink refused. -/
theorem dropped_eq (stack : Stack) {journal : Journal}
    (own : ∀ entry ∈ journal.past, entry.Of stack) :
    stack.dropped journal = (journal.attempts stack.sink.id).countP (·.2.isSome) := by
  rw [Journal.attempts_eq, List.countP_reverse, dropped, Journal.dropped, Journal.dropped,
    Journal.panics]
  generalize journal.past = past at own
  induction past with
  | nil => rfl
  | cons entry past ih =>
    obtain ⟨first, others⟩ := List.forall_mem_cons.mp own
    have rest := ih others
    simp only [List.countP_cons, List.filterMap_cons]
    cases entry with
    | wrote writer sink line error =>
      -- Writer and meter differ, so a refused line counts for just one of them.
      obtain ⟨known, rfl⟩ := first
      have apart := stack.writer_ne_meter
      rcases known with rfl | rfl <;> cases error <;>
        simp [Entry.attempt?, apart, Ne.symm apart] <;> omega
    | panicked fanout =>
      have other : fanout ≠ stack.id := first
      simpa [Entry.attempt?, other] using rest
    | _ => simpa [Entry.attempt?] using rest

end Stack

end StatsRelay.Log
