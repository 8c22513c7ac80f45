import StatsRelay.Proofs.Accounting

/-! Replaying a stream octet by octet. It comes to the same as cutting all octets that can be read
into lines first, and when the stream breaks off, to replaying the lines that ended before that. -/
namespace StatsRelay.Log

open StatsRelay.Text.Lines (newline)
open StatsRelay.Text.Utf8

namespace Source

theorem lines_line {body : Bytes} (noNewline : newline ∉ body) (rest : Bytes)
    (fault : Option SystemFault) :
    lines ⟨body ++ newline :: rest, fault⟩ = (body ++ [newline]) :: lines ⟨rest, fault⟩ := by
  cases fault with
  | none => exact Text.Lines.split_line noNewline rest
  | some fault =>
    simp only [lines]
    rw [Text.Lines.finished_line noNewline, Text.Lines.split_line noNewline]

theorem lines_body {body : Bytes} (noNewline : newline ∉ body) (fault : Option SystemFault) :
    lines ⟨body, fault⟩ = if body = [] ∨ fault.isSome then [] else [body] := by
  cases fault with
  | none => simp [lines, Text.Lines.split_body noNewline]
  | some fault => simp [lines, Text.Lines.finished_body noNewline, Text.Lines.split]

end Source

namespace Replay

def outcome (fault : Option SystemFault) (done : Replay) : Except SystemFault Summary × Journal :=
  (match fault with
    | none => .ok done.summary
    | some fault => .error fault, done.journal)

/-- Octet by octet a stream comes to what its source comes to line by line. -/
theorem follow_eq (logger : Logger) (clock : Clock) (stream : Stream) {unfinished : Bytes}
    (noNewline : newline ∉ unfinished) (replay : Replay) :
    replay.follow logger clock unfinished stream =
      outcome (Source.ofStream stream).fault
        ((Source.lines ⟨unfinished.reverse ++ (Source.ofStream stream).bytes,
          (Source.ofStream stream).fault⟩).foldl (step logger clock) replay) := by
  have noNewline' : newline ∉ unfinished.reverse := by simpa using noNewline
  induction stream generalizing unfinished replay with
  | nil =>
    rw [follow, Source.ofStream, List.append_nil, Source.lines_body noNewline']
    by_cases empty : unfinished = [] <;> simp [empty, outcome]
  | cons read rest ih =>
    cases read with
    | error fault =>
      by_cases interrupted : fault.kind = .interrupted
      · rw [follow, if_pos interrupted, Source.ofStream, if_pos interrupted]
        exact ih noNewline replay noNewline'
      · rw [follow, if_neg interrupted, Source.ofStream, if_neg interrupted, List.append_nil,
          Source.lines_body noNewline']
        simp [outcome]
    | ok octet =>
      by_cases ended : octet = newline
      · subst ended
        have next := ih List.not_mem_nil (replay.step logger clock (newline :: unfinished).reverse)
          List.not_mem_nil
        simp only [follow, if_true, Source.ofStream]
        rw [next, Source.lines_line noNewline', List.foldl_cons, List.reverse_cons, List.reverse_nil,
          List.nil_append]
      · have longer : newline ∉ octet :: unfinished := by simp [Ne.symm ended, noNewline]
        have next := ih longer replay (by simpa [and_comm] using longer)
        simp only [follow, if_neg ended, Source.ofStream]
        rw [next, List.reverse_cons, List.append_assoc, List.singleton_append]

end Replay

theorem replayStream_eq (logger : Logger) (clock : Clock) (journal : Journal) (stream : Stream) :
    replayStream logger clock journal stream = replay logger clock journal (.ofStream stream) :=
  Replay.follow_eq logger clock stream List.not_mem_nil (.start journal)

def Stream.octets (stream : Stream) : Bytes := stream.filterMap Except.toOption

theorem Source.ofStream_coe (bytes : Bytes) : ofStream bytes = ⟨bytes, none⟩ := by
  induction bytes with
  | nil => rfl
  | cons octet rest ih => rw [List.map_cons, ofStream, ih]

/-- A lasting fault ends a source; interruptions before it do not. -/
theorem Source.ofStream_fault {before : Stream}
    (passing : ∀ passed, .error passed ∈ before → passed.kind = .interrupted) {fault : SystemFault}
    (lasting : fault.kind ≠ .interrupted) (behind : Stream) :
    ofStream (before ++ .error fault :: behind) = ⟨before.octets, some fault⟩ := by
  induction before with
  | nil => exact if_neg lasting
  | cons read rest ih =>
    have others := ih fun passed passed_mem => passing passed (List.mem_cons_of_mem _ passed_mem)
    cases read with
    | error passed =>
      rw [List.cons_append, ofStream, if_pos (passing passed List.mem_cons_self), others]
      rfl
    | ok octet =>
      rw [List.cons_append, ofStream, others]
      rfl

/-- A stream that breaks off is replayed up to the last newline before that. What was read of the
line it broke off in is lost, even if it is a record. -/
theorem replayStream_breaks_off {before : Stream}
    (passing : ∀ passed, .error passed ∈ before → passed.kind = .interrupted) {fault : SystemFault}
    (lasting : fault.kind ≠ .interrupted) :
    ∃ kept : Bytes,
      kept <+: before.octets ∧ (kept = [] ∨ kept.getLast? = some newline) ∧
        (∀ other, other <+: before.octets → other.getLast? = some newline → other <+: kept) ∧
        ∀ (clock : Clock) (journal : Journal) (behind : Stream),
          (∀ logger,
            let failed := replayStream logger clock journal (before ++ .error fault :: behind)
            failed.1.mapError SystemFault.failure = .error fault.failure ∧
              replayStream logger clock journal kept = (.ok (summaryOf kept), failed.2)) ∧
          ∀ recorder, (replayStream (.recording recorder) clock journal
            (before ++ .error fault :: behind)).2.recorded recorder =
              journal.recorded recorder ++ dispatched kept := by
  obtain ⟨⟨tail, whole, _⟩, closed⟩ := Text.Lines.exists_unfinished before.octets
  have failed (logger : Logger) (clock : Clock) (journal : Journal) (behind : Stream) :
      replayStream logger clock journal (before ++ .error fault :: behind) =
        (.error fault,
          (replay logger clock journal ⟨Text.Lines.finished before.octets, none⟩).2) := by
    rw [replayStream_eq, Source.ofStream_fault passing lasting]
    rfl
  refine ⟨Text.Lines.finished before.octets, ⟨tail, whole⟩, closed, fun other first ended =>
    Text.Lines.finished_longest first ended, fun clock journal behind => ⟨fun logger => ?_,
    fun recorder => ?_⟩⟩
  · rw [failed, replayStream_eq, Source.ofStream_coe, replay_text]
    exact ⟨rfl, rfl⟩
  · rw [failed, recorded_replay]

/-- The line that is torn apart would already be a record. -/
theorem replayStream_breaks_off_torn :
    let line := encodeString "\x7b\"kind\":\"call\"\x7d\n"
    let torn := encodeString "\x7b\"kind\":\"remove\"\x7d"
    let before : Stream := line.map .ok ++ .error ⟨.interrupted, "again"⟩ :: torn.map .ok
    let failed := replayStream (.recording 0) UInt64.ofNat (.start .empty .none)
      (before ++ [.error ⟨.brokenPipe, "gone"⟩])
    failed.1.mapError SystemFault.failure = .error (.unexpected .system "gone" .retriable) ∧
      (failed.2.recorded 0).map Stats.Record.kind = [.call] := by
  intro line torn before failed
  have passing (passed : SystemFault) (passed_mem : .error passed ∈ before) :
      passed.kind = .interrupted := by
    obtain rfl : passed = ⟨.interrupted, "again"⟩ := by simpa [before] using passed_mem
    rfl
  have lasting : (⟨.brokenPipe, "gone"⟩ : SystemFault).kind ≠ .interrupted := by decide
  have octets : before.octets = line ++ torn := by
    simp [before, Stream.octets, List.filterMap_map, List.filterMap_cons, Function.comp_def,
      Except.toOption]
  have ended : line.getLast? = some newline := by decide +kernel
  have noNewline : newline ∉ torn := by decide +kernel
  have found : (dispatched line).map Stats.Record.kind = [.call] := by decide +kernel
  clear_value line torn
  obtain ⟨kept, first, closed, longest, breaks⟩ := replayStream_breaks_off passing lasting
  rw [octets] at first longest
  have within : kept <+: line := by
    rcases closed with rfl | closed
    · exact List.nil_prefix
    · exact Text.Lines.prefix_of_ended noNewline first closed
  have beyond := longest line (List.prefix_append line torn) ended
  obtain rfl : kept = line := within.eq_of_length_le beyond.length_le
  obtain ⟨replayed, recorded⟩ := breaks UInt64.ofNat (.start .empty .none) []
  refine ⟨(replayed (.recording 0)).1, ?_⟩
  rw [recorded 0, ← found]
  rfl

end StatsRelay.Log
