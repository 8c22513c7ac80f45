import StatsRelay.Proofs.Appending
import StatsRelay.Proofs.ExitCodes
import StatsRelay.Proofs.Opening
import StatsRelay.Proofs.Streams

/-! What a replay shows on standard output where its stack writes there: the lines of its records, but
for those that are refused, and behind them what it reports. -/
namespace StatsRelay

open StatsRelay.Text
open StatsRelay.Text.Utf8 (Bytes)

namespace Log

open StatsRelay.Config

def Finding.actions (logger : Logger) (number : Nat) (line : Bytes) : Finding → List Action
  | .blank => []
  | .notText => [.note (.event (.lineNotText number line))]
  | .invalid fault => [.note (.event (.lineInvalid number fault))]
  | .record found => (logger.react found).1

namespace Replay

def actions (logger : Logger) (numbered : List (Bytes × Nat)) : List Action :=
  numbered.flatMap fun (line, number) => (Finding.ofLine line).actions logger number line

theorem dispatch_eq (logger : Logger) (clock : Clock) (number : Nat) (line : Bytes)
    (journal : Journal) (finding : Finding) :
    dispatch logger clock number line journal finding =
      (finding.actions logger number line).foldl (Action.perform clock) journal := by
  cases finding <;> rfl

/-- A replay is one sequence of actions. -/
theorem settle_eq (logger : Logger) (clock : Clock) (journal : Journal)
    (numbered : List (Bytes × Nat)) :
    settle logger clock journal numbered =
      (actions logger numbered).foldl (Action.perform clock) journal := by
  simp only [actions, List.foldl_flatMap, settle, dispatch_eq]

end Replay

namespace Stack

variable {stack : Stack}

theorem owns_finding (number : Nat) (line : Bytes) (finding : Finding) :
    ∀ action ∈ finding.actions stack.logger number line, stack.Owns action := by
  cases finding with
  | blank => exact List.forall_mem_nil _
  | notText => exact List.forall_mem_singleton.mpr trivial
  | invalid fault => exact List.forall_mem_singleton.mpr trivial
  | record record =>
    intro action action_mem
    rw [Finding.actions, react_logger] at action_mem
    obtain ⟨backend, _, action_mem⟩ := List.mem_flatMap.mp action_mem
    exact stack.owns_actions record backend action action_mem

theorem owns_actions_replay (numbered : List (Bytes × Nat)) :
    ∀ action ∈ Replay.actions stack.logger numbered, stack.Owns action := by
  intro action action_mem
  obtain ⟨⟨line, number⟩, _, action_mem⟩ := List.mem_flatMap.mp action_mem
  exact stack.owns_finding number line _ action action_mem

/-- Of some lines, only the records are written about. -/
theorem lines_actions_replay (numbered : List (Bytes × Nat)) :
    (Replay.actions stack.logger numbered).flatMap Action.lines =
      (numbered.filterMap fun (line, _) => recordOf? line).flatMap fun record =>
        (stack.backends.flatMap (stack.actions record)).flatMap Action.lines := by
  induction numbered with
  | nil => rfl
  | cons first rest ih =>
    obtain ⟨line, number⟩ := first
    rw [Replay.actions, List.flatMap_cons, List.flatMap_append, ← Replay.actions, ih]
    simp only [← record?_ofLine]
    cases found : Finding.ofLine line <;>
      simp [found, Finding.actions, Action.lines, Finding.record?, react_logger]

variable {journal : Journal} (plain : stack.sink.target.isFile = false)
include plain

section

variable (normal : stack.backends = Labelled.all.filter (· ∈ stack.backends)) (clock : Clock)
  (fresh : journal.nextLine = 1)
include normal fresh

/-- The lines that a replay tries to write are those of the dispatched records. -/
theorem attempts_replay (bytes : Bytes) :
    (replay stack.logger clock journal ⟨bytes, none⟩).2.attempts stack.sink.id =
      Written.attempts stack.baseFields (stack.sink.target.refusal? journal.streams)
        (Written.all stack.backends clock (dispatched bytes)) := by
  have about := stack.lines_actions_replay ((Lines.split bytes).zipIdx 1)
  simp only [← record?_ofLine, filterMap_numbered] at about
  rw [Replay.replay_eq, Replay.settle_eq]
  exact attempts_foldl rfl plain normal fresh _ (stack.owns_actions_replay _) about

/-- A sink that is no file keeps what it does not refuse of what is written about the records of a
text, and the rest of it is what the stack counts as dropped. -/
theorem replay_trace (own : ∀ entry ∈ journal.past, entry.Of stack) (bytes : Bytes) :
    let replayed := (replay stack.logger clock journal ⟨bytes, none⟩).2
    let refuses := stack.sink.target.refusal? journal.streams
    let written := Written.all stack.backends clock (dispatched bytes)
    replayed.kept stack.sink.id =
        (Written.kept refuses written).map (Written.line stack.baseFields) ∧
      stack.dropped replayed =
        (List.range' 1 written.length).countP fun number => (refuses number).isSome := by
  intro replayed refuses written
  have attempts : replayed.attempts stack.sink.id =
      Written.attempts stack.baseFields refuses written := attempts_replay plain normal clock fresh bytes
  have own' : ∀ entry ∈ replayed.past, entry.Of stack := by
    simp only [replayed, Replay.replay_eq, Replay.settle_eq]
    exact own_foldl own (stack.owns_actions_replay _)
  rw [Journal.kept, stack.dropped_eq own', attempts, Written.countP_attempts]
  exact ⟨Written.kept_attempts .., rfl⟩

end

/-- A stack that writes to no file leaves all files as they are. -/
theorem files_foldl_of_plain {clock : Clock} {actions : List Action}
    (owns : ∀ action ∈ actions, stack.Owns action) :
    (actions.foldl (Action.perform clock) journal).files = journal.files := by
  induction actions generalizing journal with
  | nil => rfl
  | cons action rest ih =>
    obtain ⟨first, others⟩ := List.forall_mem_cons.mp owns
    rw [List.foldl_cons, ih others]
    exact Action.files_perform_of_plain plain journal first.into

end Stack

namespace LiveReplay

variable {logger : Logger} {clock : Clock} {place : List String} {content : Bytes}
  (still : ∀ number line journal finding,
    (Replay.dispatch logger clock number line journal finding).files = journal.files)
include still

/-- Where replaying changes no file, the rest of a file is replayed as it stands. -/
theorem finish?_of_still {live : LiveReplay} {limit : Nat}
    (found : live.replay.journal.files.entry? place = some (.file content))
    (enough : (Lines.split (content.drop live.offset)).length < limit) :
    finish? logger clock place limit live =
      some ((Lines.split (content.drop live.offset)).foldl (Replay.step logger clock)
        live.replay) := by
  induction limit generalizing live with
  | zero => cases enough
  | succ limit ih =>
    have unread : live.unread place = content.drop live.offset := by
      rw [LiveReplay.unread, found]
    rw [finish?]
    cases next : live.next? logger clock place with
    | none =>
      have empty := next?_eq_none next
      rw [unread, Lines.next_eq_nil_iff] at empty
      rw [empty]
      rfl
    | some live' =>
      obtain ⟨nonempty, rfl⟩ := next?_eq_some next
      rw [unread] at nonempty ⊢
      have passed {line rest : Bytes} (cut : content.drop live.offset = line ++ rest) :
          content.drop (live.offset + line.length) = rest := by
        rw [← List.drop_drop, cut, List.drop_left]
      have behind := passed (Lines.next_append_rest (content.drop live.offset)).symm
      rw [Lines.split_next nonempty, List.length_cons] at enough
      rw [Lines.split_next nonempty, List.foldl_cons, ← behind]
      refine ih ?_ (by rw [behind]; omega)
      exact (congrArg (FileSystem.entry? · place) (still _ _ _ _)).trans found

end LiveReplay

theorem length_split_lt_readLimit (content : Bytes) (room : Option Nat) :
    (Lines.split content).length < readLimit content room := by
  cases room with
  | none =>
    rw [readLimit, linesPerRecord]
    omega
  | some room =>
    have few := Lines.length_split_le content
    rw [readLimit]
    omega

theorem Journal.kept_add_event (journal : Journal) (event : Event) (sink : Nat) :
    (journal.add (.event event)).kept sink = journal.kept sink := by
  rw [kept, kept, attempts_add]
  exact congrArg _ (List.append_nil _)

theorem Stack.dropped_add_event (stack : Stack) (journal : Journal) (event : Event) :
    stack.dropped (journal.add (.event event)) = stack.dropped journal := by
  simp [dropped, Journal.dropped, Journal.panics, Journal.add]

theorem Source.eq_of_read {source : Source} {bytes : Bytes} (read : source.read = .ok bytes) :
    source = ⟨bytes, none⟩ := by
  obtain ⟨octets, fault⟩ := source
  cases fault with
  | none =>
    cases read
    rfl
  | some fault => cases read

/-- Where replaying changes no file, it does not matter that a file is read while it goes on. -/
theorem replayFile_of_still {logger : Logger} {clock : Clock}
    (still : ∀ number line journal finding,
      (Replay.dispatch logger clock number line journal finding).files = journal.files)
    {journal : Journal} {place : List String} {content : Bytes}
    (found : journal.files.entry? place = some (.file content)) :
    replayFile logger clock journal place = some (replay logger clock journal ⟨content, none⟩) := by
  have finished : LiveReplay.finish? logger clock place _ (.start journal) = _ :=
    LiveReplay.finish?_of_still still found (length_split_lt_readLimit content journal.files.room)
  rw [replayFile, found]
  exact congrArg (Option.map _) finished

end Log

namespace Command

variable {surroundings : Surroundings} {mode : OutputMode} {input config overrides : Option String}
  {stack : Log.Stack} {journal : Log.Journal} {bytes : Bytes}

theorem past_of_openStack
    (opened : openStack surroundings mode config overrides = .ok (stack, journal)) :
    (∃ event, journal.past = [.event event]) ∧ journal.streams = surroundings.streams := by
  obtain ⟨settings, _, built⟩ := exists_settings_of_openStack opened
  obtain ⟨_, _, built, _⟩ := Log.Stack.exists_build_of_open? built
  cases built
  exact ⟨⟨_, rfl⟩, rfl⟩

theorem Input.entry?_of_read {files : FileSystem} {stream : Log.Stream} {place : List String}
    (read : (Input.file place).read files stream = .ok bytes) :
    files.entry? place = some (.file bytes) := by
  rw [Input.read] at read
  cases found : files.entry? place with
  | none =>
    rw [found] at read
    cases read
  | some entry =>
    rw [found] at read
    cases entry <;> cases read
    rfl

section

variable (opened : openStack surroundings mode config overrides = .ok (stack, journal))
  (plain : stack.sink.target.isFile = false)
  (read : Input.octets journal.files surroundings.input input = .ok bytes)
include opened plain read

/-- A stack that writes to no file replays the octets of the input, wherever they come from. -/
theorem replay_of_plain :
    replay surroundings mode input config overrides =
      let replayed := Log.replay stack.logger surroundings.clock journal ⟨bytes, none⟩
      some (replayOutcome surroundings mode stack replayed.2
        (replayed.1.mapError SystemFault.failure)) := by
  have still (number : Nat) (line : Bytes) (journal : Log.Journal) (finding : Log.Finding) :
      (Log.Replay.dispatch stack.logger surroundings.clock number line journal finding).files =
        journal.files := by
    rw [Log.Replay.dispatch_eq]
    exact Log.Stack.files_foldl_of_plain plain (stack.owns_finding number line finding)
  rw [replay, opened]
  dsimp only
  rcases Input.ofPath_spec journal.files surroundings.input input with ⟨source, found, same⟩ |
    ⟨fault, given, _, failed⟩
  · rw [found]
    rw [read] at same
    cases source with
    | standard =>
      have whole : Log.Source.ofStream surroundings.input = ⟨bytes, none⟩ :=
        Log.Source.eq_of_read same
      simp only [replayInput, Log.replayStream_eq, whole]
      rfl
    | file place =>
      have held : journal.files.entry? place = some (.file bytes) := Input.entry?_of_read same
      simp only [replayInput, Log.replayFile_of_still still held]
      rfl
  · rw [read] at failed
    cases failed

omit plain in
/-- A stack that writes to standard output shows there what its records are written as, but for the
lines that the stream refuses, which are counted as dropped. What the replay reports comes behind. -/
theorem replay_of_stdout (out : stack.sink.target = .stdout) :
    let written := Log.Written.all stack.backends surroundings.clock (Log.dispatched bytes)
    let refuses := Log.Target.stdout.refusal? surroundings.streams
    ∃ outcome final, replay surroundings mode input config overrides = some outcome ∧
      outcome.report.stdout =
        String.join ((Log.Written.kept refuses written).map (Log.Written.line stack.baseFields)) ++
          ReplayText.text stack final (Log.summaryOf bytes) mode ∧
      stack.dropped final =
        (List.range' 1 written.length).countP fun number => (refuses number).isSome := by
  intro written refuses
  obtain ⟨⟨built, past⟩, streams⟩ := past_of_openStack opened
  have plain : stack.sink.target.isFile = false := by rw [out]; rfl
  have fresh : journal.nextLine = 1 := by simp [Log.Journal.nextLine, past]
  have own : ∀ entry ∈ journal.past, entry.Of stack := by simp [past, Log.Entry.Of]
  obtain ⟨kept, dropped⟩ : _ ∧ _ := Log.Stack.replay_trace plain
    (backends_of_openStack opened) surroundings.clock fresh own bytes
  let finished : Log.Event :=
    .replayFinished (Log.summaryOf bytes).accepted (Log.summaryOf bytes).rejected
  obtain ⟨result, replayed, ended⟩ : ∃ result replayed,
    Log.replay stack.logger surroundings.clock journal ⟨bytes, none⟩ = (result, replayed) :=
      ⟨_, _, rfl⟩
  have told : result = .ok (Log.summaryOf bytes) := by
    rw [Log.replay_text] at ended
    exact (congrArg Prod.fst ended).symm
  rw [ended] at kept dropped
  refine ⟨_, replayed.add (.event finished), replay_of_plain opened plain read, ?_, ?_⟩
  · have shown := Log.Journal.kept_add_event replayed finished stack.sink.id
    rw [kept, out, streams] at shown
    simp only [ended, told, replayOutcome, ReplayText.stdout, out, Except.mapError]
    exact congrArg (String.join · ++ _) shown
  · rw [Log.Stack.dropped_add_event, dropped, out, streams]

end

end Command

end StatsRelay
