import StatsRelay.Proofs.Journal
import StatsRelay.Proofs.Replaying

/-! The accounts of a replay: which segments are dispatched and which are skipped, under which
numbers, and how the summary follows from that. -/
namespace StatsRelay.Log

open StatsRelay.Stats StatsRelay.Text.Utf8

def Event.skippedLine? (event : Event) : Option String :=
  if event.message = "skipping non-UTF-8 stats line" ∨
      event.message = "skipping invalid stats line" then
    (event.fields.lookup "line").map FieldValue.raw
  else none

def Journal.skippedLines (journal : Journal) : List String :=
  journal.events.filterMap Event.skippedLine?

def Action.Quiet : Action → Prop
  | note (.event event) => event.skippedLine? = none
  | _ => True

theorem Subject.skippedLine?_dropped (subject : Subject) (sink : Target) (error : SinkError) :
    (subject.dropped sink error).skippedLine? = none := by
  cases subject <;> rfl

section

variable {α : Type} {view : Event → Option α}

/-- What a view makes of the events of a journal, some of which it passes over. -/
def Journal.told (journal : Journal) (view : Event → Option α) : List α :=
  journal.events.filterMap view

/-- Views that pass over all events but those about lines that are skipped. -/
def Event.OfSkipped (view : Event → Option α) : Prop :=
  ∀ event, event.skippedLine? = none → view event = none

theorem Action.told_perform (ofSkipped : Event.OfSkipped view) (clock : Clock)
    (journal : Journal) {action : Action} (quiet : action.Quiet) :
    (action.perform clock journal).told view = journal.told view := by
  unfold Journal.told
  rw [Journal.events_eq, Journal.events_eq]
  cases action with
  | note entry =>
    cases entry with
    | event event =>
      have none : view event = none := ofSkipped event quiet
      simp [perform, Journal.add, Entry.event?, none]
    | _ => rfl
  | write writer sink subject line =>
    obtain ⟨error, past⟩ := past_perform_write clock journal writer sink subject line
    have none error := ofSkipped _ (subject.skippedLine?_dropped sink.target error)
    rw [past]
    cases error <;> simp [List.filterMap_cons, Entry.event?, none]

theorem Journal.told_event (journal : Journal) (event : Event) :
    (journal.add (.event event)).told view = journal.told view ++ (view event).toList := by
  unfold told
  rw [events_eq, events_eq]
  cases seen : view event <;> simp [add, Entry.event?, seen]

end

namespace Logger

mutual

theorem react_quiet (record : Record) :
    (logger : Logger) → ∀ action ∈ (logger.react record).1, action.Quiet
  | .noop => by simp [react]
  | .counting id => by simp [react, Action.Quiet]
  | .recording id => by simp [react, Action.Quiet]
  | .tracing => by
    simp only [react, List.mem_singleton, forall_eq, Action.Quiet]
    unfold Event.skippedLine? Event.ofRecord
    cases record.status.isOk <;> rfl
  | .json id sink fields => by simp [react, Action.Quiet]
  | .telemetry meter => by
    intro action action_mem
    rw [react] at action_mem
    obtain ⟨metric, _, rfl⟩ := List.mem_map.mp action_mem
    trivial
  | .fanout id children => by
    rw [react]
    exact reactAll_quiet record id 0 children
  | .exploding on => by simp [react]

theorem reactAll_quiet (record : Record) (id position : Nat) :
    (children : List Logger) → ∀ action ∈ reactAll record id position children, action.Quiet
  | [] => by simp [reactAll]
  | child :: rest => by
    have first := react_quiet record child
    have others := reactAll_quiet record id (position + 1) rest
    rw [reactAll]
    cases panics : (react record child).2 with
    | false => simpa [panics] using List.forall_mem_append.mpr ⟨first, others⟩
    | true =>
      -- What a child did before it panicked stays, and the panic is noted after it.
      have panicked : (Event.loggerPanicked record.kind position).skippedLine? = none := rfl
      simp only [panics, if_true, List.forall_mem_append, List.forall_mem_cons]
      exact ⟨⟨first, trivial, panicked, List.forall_mem_nil _⟩, others⟩

end

theorem told_log {α : Type} {view : Event → Option α} (ofSkipped : Event.OfSkipped view)
    (logger : Logger) (clock : Clock) (journal : Journal) (record : Record) :
    (logger.log clock journal record).told view = journal.told view := by
  have quiet := react_quiet record logger
  unfold log
  generalize (logger.react record).1 = actions at quiet
  induction actions generalizing journal with
  | nil => rfl
  | cons action rest ih =>
    obtain ⟨first, others⟩ := List.forall_mem_cons.mp quiet
    rw [List.foldl_cons, ih _ others, Action.told_perform ofSkipped clock _ first]

end Logger

theorem Event.skippedLine?_lineNotText (line : Nat) (octets : Bytes) :
    (lineNotText line octets).skippedLine? = some (toString line) := by
  simp [lineNotText, skippedLine?, FieldValue.raw]

theorem Event.skippedLine?_lineInvalid (line : Nat) (fault : Fault) :
    (lineInvalid line fault).skippedLine? = some (toString line) := by
  simp [lineInvalid, skippedLine?, FieldValue.raw]

theorem Journal.recorded_add_recorded (journal : Journal) (recorder : Nat) (record : Record) :
    (journal.add (.recorded recorder record)).recorded recorder =
      journal.recorded recorder ++ [record] := by
  simp [recorded, add, untaken]

theorem Journal.recorded_add_event (journal : Journal) (recorder : Nat) (event : Event) :
    (journal.add (.event event)).recorded recorder = journal.recorded recorder := rfl

def Finding.event? (number : Nat) (line : Bytes) : Finding → Option Event
  | notText => some (.lineNotText number line)
  | invalid fault => some (.lineInvalid number fault)
  | _ => none

namespace Replay

section

variable {α : Type} {view : Event → Option α} (logger : Logger) (clock : Clock)

theorem told_dispatch (ofSkipped : Event.OfSkipped view) (number : Nat) (line : Bytes)
    (journal : Journal) (finding : Finding) :
    (dispatch logger clock number line journal finding).told view =
      journal.told view ++ ((finding.event? number line).bind view).toList := by
  cases finding with
  | blank => simp [dispatch, Finding.event?]
  | notText => exact journal.told_event _
  | invalid fault => exact journal.told_event _
  | record record => simp [dispatch, Logger.told_log ofSkipped, Finding.event?]

theorem told_settle (ofSkipped : Event.OfSkipped view) (journal : Journal)
    (numbered : List (Bytes × Nat)) :
    (settle logger clock journal numbered).told view = journal.told view ++
      numbered.filterMap fun (line, number) =>
        ((Finding.ofLine line).event? number line).bind view := by
  rw [List.filterMap_eq_flatMap_toList]
  exact settle_observed (·.told view) _
    (fun journal line number => told_dispatch logger clock ofSkipped number line journal _) journal
    numbered

end

/-- What makes nothing of a blank line makes the same of all lines as of all segments. -/
theorem filterMap_split {α : Type} (view : Finding → Nat → Option α)
    (blank : ∀ number, view .blank number = none) (bytes : Bytes) :
    ((Text.Lines.split bytes).zipIdx 1).filterMap (fun (line, number) =>
      view (Finding.ofLine line) number) =
        ((findings bytes).zipIdx 1).filterMap fun (finding, number) => view finding number := by
  have lines : ((Text.Lines.split bytes).zipIdx 1).filterMap (fun (line, number) =>
      view (Finding.ofLine line) number) =
        (((Text.Lines.split bytes).map Finding.ofLine).zipIdx 1).filterMap
          fun (finding, number) => view finding number := by
    rw [List.zipIdx_map, List.filterMap_map]
    rfl
  rw [lines]
  rcases findings_split bytes with same | longer
  · rw [same]
  · rw [longer, List.zipIdx_append, List.filterMap_append]
    simp [blank]

/-- What a replay tells a view that goes by findings alone, whatever the lines are. -/
theorem told_replay {α : Type} {view : Event → Option α} (ofSkipped : Event.OfSkipped view)
    {told : Finding → Nat → Option α}
    (tells : ∀ finding number line, (finding.event? number line).bind view = told finding number)
    (logger : Logger) (clock : Clock) (journal : Journal) (bytes : Bytes) :
    (replay logger clock journal ⟨bytes, none⟩).2.told view = journal.told view ++
      ((findings bytes).zipIdx 1).filterMap fun (finding, number) => told finding number := by
  have blank (number : Nat) : told .blank number = none := (tells .blank number []).symm
  rw [replay_eq, told_settle logger clock ofSkipped, ← filterMap_split told blank]
  simp only [tells]

theorem recorded_dispatch (recorder : Nat) (clock : Clock) (number : Nat) (line : Bytes)
    (journal : Journal) (finding : Finding) :
    (dispatch (.recording recorder) clock number line journal finding).recorded recorder =
      journal.recorded recorder ++ finding.record?.toList := by
  cases finding with
  | record record => exact journal.recorded_add_recorded recorder record
  | _ => simp [dispatch, Journal.recorded_add_event, Finding.record?]

theorem recorded_settle (recorder : Nat) (clock : Clock) (journal : Journal)
    (numbered : List (Bytes × Nat)) :
    (settle (.recording recorder) clock journal numbered).recorded recorder =
      journal.recorded recorder ++ numbered.filterMap fun (line, _) =>
        (Finding.ofLine line).record? := by
  rw [List.filterMap_eq_flatMap_toList]
  exact settle_observed (·.recorded recorder) _
    (fun journal line number => recorded_dispatch recorder clock number line journal _) journal
    numbered

end Replay

def segments (bytes : Bytes) : List Bytes := bytes.splitOn Text.Lines.newline

def isFilled (segment : Bytes) : Bool :=
  match decodeString? segment with
  | none => true
  | some text => Text.trim text ≠ ""

/-- The record of a segment, if it is a text, not blank and accepted as a record. -/
def recordOf? (segment : Bytes) : Option Record :=
  match decodeString? segment with
  | none => none
  | some text =>
    if Text.trim text = "" then none else (Record.decodeLine (Text.trim text)).toOption

def handle (logger : Logger) (clock : Clock) (journal : Journal) (line : Bytes) (number : Nat) :
    Journal :=
  match decodeString? line with
  | none => journal.add (.event (.lineNotText number line))
  | some text =>
    if Text.trim text = "" then journal
    else match Record.decodeLine (Text.trim text) with
      | .ok record => logger.log clock journal record
      | .error fault => journal.add (.event (.lineInvalid number fault))

def dispatched (bytes : Bytes) : List Record := (segments bytes).filterMap recordOf?

/-- The positions of the segments that hold something, but no record; the first position is one. -/
def rejectedLines (bytes : Bytes) : List Nat :=
  (((segments bytes).zipIdx 1).filter fun (segment, _) =>
    isFilled segment && (recordOf? segment).isNone).map (·.2)

theorem record?_ofLine (segment : Bytes) :
    (Finding.ofLine segment).record? = recordOf? segment := by
  unfold recordOf?
  rcases Finding.ofLine_cases segment with ⟨decoded, found⟩ | ⟨text, decoded, ⟨blank, found⟩ |
    ⟨nonempty, ⟨record, read, found⟩ | ⟨fault, read, found⟩⟩⟩
  · simp [decoded, found, Finding.record?]
  · simp [decoded, blank, found, Finding.record?]
  · simp [decoded, nonempty, read, found, Finding.record?, Except.toOption]
  · simp [decoded, nonempty, read, found, Finding.record?, Except.toOption]

theorem isRejected_ofLine (segment : Bytes) :
    (Finding.ofLine segment).isRejected = (isFilled segment && (recordOf? segment).isNone) := by
  rw [← record?_ofLine, isFilled]
  rcases Finding.ofLine_cases segment with ⟨decoded, found⟩ | ⟨text, decoded, ⟨blank, found⟩ |
    ⟨nonempty, ⟨record, read, found⟩ | ⟨fault, read, found⟩⟩⟩
  · simp [decoded, found, Finding.record?, Finding.isRejected]
  · simp [decoded, blank, found, Finding.record?, Finding.isRejected]
  · simp [decoded, nonempty, found, Finding.record?, Finding.isRejected]
  · simp [decoded, nonempty, found, Finding.record?, Finding.isRejected]

theorem isFilled_of_recordOf? {segment : Bytes} {record : Record}
    (found : recordOf? segment = some record) : isFilled segment = true := by
  unfold recordOf? at found
  unfold isFilled
  cases decoded : decodeString? segment with
  | none => rfl
  | some text =>
    have nonempty : Text.trim text ≠ "" := by
      intro blank
      simp [decoded, blank] at found
    simpa using nonempty

theorem dispatch_ofLine (logger : Logger) (clock : Clock) (number : Nat) (journal : Journal)
    (line : Bytes) :
    Replay.dispatch logger clock number line journal (Finding.ofLine line) =
      handle logger clock journal line number := by
  unfold handle
  rcases Finding.ofLine_cases line with ⟨decoded, found⟩ | ⟨text, decoded, ⟨blank, found⟩ |
    ⟨nonempty, ⟨record, read, found⟩ | ⟨fault, read, found⟩⟩⟩
  · simp [decoded, found, Replay.dispatch]
  · simp [decoded, blank, found, Replay.dispatch]
  · simp [decoded, nonempty, read, found, Replay.dispatch]
  · simp [decoded, nonempty, read, found, Replay.dispatch]

theorem filterMap_findings (bytes : Bytes) :
    (findings bytes).filterMap Finding.record? = dispatched bytes := by
  rw [findings, List.filterMap_map]
  exact List.filterMap_congr fun segment _ => record?_ofLine segment

theorem filter_findings (bytes : Bytes) :
    (((findings bytes).zipIdx 1).filter (·.1.isRejected)).map (·.2) = rejectedLines bytes := by
  rw [findings, List.zipIdx_map, List.filter_map, List.map_map, rejectedLines, segments]
  simp only [Function.comp_def, Prod.map, isRejected_ofLine, id]

theorem countP_findings (bytes : Bytes) :
    (findings bytes).countP Finding.isRejected = (rejectedLines bytes).length := by
  have first : ((findings bytes).zipIdx 1).map (·.1) = findings bytes := List.zipIdx_map_fst 1 _
  rw [← filter_findings, List.length_map, ← List.countP_eq_length_filter, ← first,
    List.countP_map, first]
  rfl

def summaryOf (bytes : Bytes) : Summary := .of (dispatched bytes) (rejectedLines bytes).length

theorem replay_text (logger : Logger) (clock : Clock) (journal : Journal) (bytes : Bytes) :
    replay logger clock journal ⟨bytes, none⟩ =
      (.ok (summaryOf bytes), ((Text.Lines.closed Text.Lines.newline (segments bytes)).zipIdx 1).foldl
        (fun journal (line, number) => handle logger clock journal line number) journal) := by
  have start : Summary.empty = .of [] 0 := by rfl
  rw [Replay.replay_eq, start, Summary.foldl_add_of, filterMap_findings, countP_findings,
    List.nil_append, Nat.zero_add, Replay.settle, Text.Lines.split_eq_closed]
  simp only [dispatch_ofLine]
  rfl

theorem segments_append_newline (bytes rest : Bytes) :
    segments (bytes ++ Text.Lines.newline :: rest) = segments bytes ++ segments rest :=
  List.splitOn_append_cons_self bytes rest

/-- A text that ends in a newline has one empty segment behind it, where another text can follow. -/
theorem segments_cut {first : Bytes} (cut : first = [] ∨ first.getLast? = some Text.Lines.newline) :
    ∃ whole, segments first = whole ++ [[]] ∧
      ∀ second, segments (first ++ second) = whole ++ segments second := by
  rcases cut with rfl | ended
  · exact ⟨[], rfl, fun second => rfl⟩
  · obtain ⟨init, rfl⟩ := List.getLast?_eq_some_iff.mp ended
    refine ⟨segments init, segments_append_newline init [], fun second => ?_⟩
    rw [List.append_assoc, List.singleton_append, segments_append_newline]

theorem length_rejectedLines (bytes : Bytes) :
    (rejectedLines bytes).length =
      (segments bytes).countP fun segment => isFilled segment && (recordOf? segment).isNone := by
  rw [← countP_findings, findings, List.countP_map]
  exact List.countP_congr fun segment _ => by simp [isRejected_ofLine]

theorem dispatched_append {first : Bytes}
    (cut : first = [] ∨ first.getLast? = some Text.Lines.newline) (second : Bytes) :
    dispatched (first ++ second) = dispatched first ++ dispatched second := by
  obtain ⟨whole, parted, joined⟩ := segments_cut cut
  have empty : recordOf? [] = none := rfl
  simp [dispatched, parted, joined, empty]

theorem length_rejectedLines_append {first : Bytes}
    (cut : first = [] ∨ first.getLast? = some Text.Lines.newline) (second : Bytes) :
    (rejectedLines (first ++ second)).length =
      (rejectedLines first).length + (rejectedLines second).length := by
  obtain ⟨whole, parted, joined⟩ := segments_cut cut
  have empty : isFilled [] = false := rfl
  simp [length_rejectedLines, parted, joined, empty]

theorem length_dispatched_add_rejected (bytes : Bytes) :
    (dispatched bytes).length + (rejectedLines bytes).length =
      (segments bytes).countP isFilled := by
  rw [length_rejectedLines, dispatched, List.length_filterMap_eq_countP]
  induction segments bytes with
  | nil => rfl
  | cons segment rest ih =>
    simp only [List.countP_cons]
    cases found : recordOf? segment with
    | none => cases isFilled segment <;> simp <;> omega
    | some record => simp [isFilled_of_recordOf? found]; omega

/-- Lines are rejected in their order. -/
theorem rejectedLines_increasing (bytes : Bytes) : (rejectedLines bytes).Pairwise (· < ·) := by
  have positions : (((segments bytes).zipIdx 1).map (·.2)).Pairwise (· < ·) := by
    rw [List.zipIdx_map_snd]
    exact List.pairwise_lt_range' ..
  exact positions.sublist (List.filter_sublist.map _)

/-- The events of a replay name just the rejected lines. -/
theorem skippedLines_replay (logger : Logger) (clock : Clock) (journal : Journal) (bytes : Bytes) :
    (replay logger clock journal ⟨bytes, none⟩).2.skippedLines =
      journal.skippedLines ++ (rejectedLines bytes).map toString := by
  have tells (finding : Finding) (number : Nat) (line : Bytes) :
      (finding.event? number line).bind Event.skippedLine? =
        if finding.isRejected then some (toString number) else none := by
    cases finding <;> simp [Finding.event?, Finding.isRejected, Event.skippedLine?_lineNotText,
      Event.skippedLine?_lineInvalid]
  have told := Replay.told_replay (fun _ => id) tells logger clock journal bytes
  refine told.trans (congrArg (journal.skippedLines ++ ·) ?_)
  rw [← filter_findings, List.map_map, ← List.filterMap_eq_map, List.filterMap_filter]
  rfl

theorem filterMap_numbered (bytes : Bytes) :
    ((Text.Lines.split bytes).zipIdx 1).filterMap (fun (line, _) => (Finding.ofLine line).record?) =
      dispatched bytes := by
  have first : ((findings bytes).zipIdx 1).map (·.1) = findings bytes := List.zipIdx_map_fst 1 _
  have lines := Replay.filterMap_split (fun finding _ => finding.record?) (fun _ => rfl) bytes
  rw [← filterMap_findings, lines]
  calc ((findings bytes).zipIdx 1).filterMap (fun found => found.1.record?)
      = (((findings bytes).zipIdx 1).map (·.1)).filterMap Finding.record? := by
        rw [List.filterMap_map]
        rfl
    _ = (findings bytes).filterMap Finding.record? := by rw [first]

/-- A recorder is handed the dispatched records, in their order. -/
theorem recorded_replay (recorder : Nat) (clock : Clock) (journal : Journal) (bytes : Bytes) :
    (replay (.recording recorder) clock journal ⟨bytes, none⟩).2.recorded recorder =
      journal.recorded recorder ++ dispatched bytes := by
  rw [Replay.replay_eq, Replay.recorded_settle, filterMap_numbered]

/-- An event but for the reason why a line is no text, which tells how the line ends. -/
def Event.outline (event : Event) : Event :=
  if event.message = "skipping non-UTF-8 stats line" then
    { event with fields := event.fields.filter (·.1 ≠ "error") }
  else event

def Entry.outline : Entry → Entry
  | event noted => .event noted.outline
  | entry => entry

def Journal.outline (journal : Journal) : Journal :=
  { journal with past := journal.past.map Entry.outline }

def Action.outline : Action → Action
  | note entry => .note entry.outline
  | action => action

theorem Event.outline_lineNotText (number : Nat) (line other : Bytes) :
    (lineNotText number line).outline = (lineNotText number other).outline := rfl

theorem Subject.outline_dropped (subject : Subject) (sink : Target) (error : SinkError) :
    (subject.dropped sink error).outline = subject.dropped sink error := by
  cases subject <;> rfl

namespace Journal

theorem outline_add (journal : Journal) (entry : Entry) :
    (journal.add entry).outline = journal.outline.add entry.outline := rfl

theorem nextLine_outline (journal : Journal) : journal.outline.nextLine = journal.nextLine := by
  rw [nextLine, outline, List.countP_map, nextLine]
  exact congrArg (· + 1) (List.countP_congr fun entry _ => by cases entry <;> simp [Entry.outline])

theorem attemptCount_outline (journal : Journal) (sink : Nat) :
    journal.outline.attemptCount sink = journal.attemptCount sink := by
  rw [attemptCount, outline, List.countP_map, attemptCount]
  exact List.countP_congr fun entry _ => by cases entry <;> simp [Entry.outline]

theorem outline_write (journal : Journal) (writer : Option Nat) (sink : Sink) (line : String) :
    journal.outline.write writer sink line =
      ((journal.write writer sink line).1.outline, (journal.write writer sink line).2) := by
  rw [write, attemptCount_outline]
  rfl

end Journal

section

variable (clock : Clock)

/-- What a line ends in does not change what is done about the next ones. -/
theorem Action.outline_perform (journal : Journal) (action : Action) :
    (action.perform clock journal).outline = action.outline.perform clock journal.outline := by
  cases action with
  | note entry => rfl
  | write writer sink subject line =>
    simp only [outline, perform, Journal.nextLine_outline, Journal.outline_write]
    obtain ⟨written, error⟩ := journal.write (some writer) sink (line (clock journal.nextLine))
    cases error with
    | none => rfl
    | some error =>
      simp only [Journal.outline_add, Entry.outline, Subject.outline_dropped]

variable (logger : Logger)

theorem Logger.outline_log {journal other : Journal} (alike : journal.outline = other.outline)
    (record : Record) :
    (logger.log clock journal record).outline = (logger.log clock other record).outline := by
  unfold log
  generalize (logger.react record).1 = actions
  induction actions generalizing journal other with
  | nil => exact alike
  | cons action rest ih =>
    refine ih ?_
    rw [Action.outline_perform, alike, ← Action.outline_perform]

namespace Replay

theorem outline_dispatch {journal other : Journal} (alike : journal.outline = other.outline)
    (number : Nat) (line line' : Bytes) (finding : Finding) :
    (dispatch logger clock number line journal finding).outline =
      (dispatch logger clock number line' other finding).outline := by
  cases finding with
  | blank => exact alike
  | notText =>
    simp only [dispatch, Journal.outline_add, alike, Entry.outline,
      Event.outline_lineNotText number line line']
  | invalid fault => simp only [dispatch, Journal.outline_add, alike]
  | record record => exact logger.outline_log clock alike record

/-- Lines that hold the same leave the same behind, but for what may be wrong with their octets. -/
theorem outline_settle {journal other : Journal} (alike : journal.outline = other.outline)
    {lines others : List Bytes} (same : lines.map Finding.ofLine = others.map Finding.ofLine)
    (first : Nat) :
    (settle logger clock journal (lines.zipIdx first)).outline =
      (settle logger clock other (others.zipIdx first)).outline := by
  induction lines generalizing journal other others first with
  | nil =>
    obtain rfl := List.map_eq_nil_iff.mp same.symm
    exact alike
  | cons line rest ih =>
    cases others with
    | nil => cases same
    | cons line' rest' =>
      obtain ⟨here, behind⟩ := List.cons_eq_cons.mp same
      refine ih ?_ behind (first + 1)
      simp only [here]
      exact outline_dispatch clock logger alike first line line' _

theorem settle_blank (journal : Journal) (lines : List Bytes) (first : Nat) :
    settle logger clock journal ((lines ++ [[]]).zipIdx first) =
      settle logger clock journal (lines.zipIdx first) := by
  have blank : Finding.ofLine [] = .blank := rfl
  rw [List.zipIdx_append, settle, List.foldl_append]
  simp [settle, dispatch, blank]

/-- A replay sees its lines as segments, but for what may be wrong with their octets. -/
theorem outline_replay (journal : Journal) (bytes : Bytes) :
    (replay logger clock journal ⟨bytes, none⟩).2.outline =
      (settle logger clock journal ((segments bytes).zipIdx 1)).outline := by
  have blank : Finding.ofLine [] = .blank := rfl
  rw [replay_eq]
  rcases findings_split bytes with same | longer
  · exact outline_settle clock logger rfl same.symm 1
  · rw [← settle_blank]
    refine outline_settle clock logger rfl ?_ 1
    rw [List.map_append, List.map_singleton, blank]
    exact longer.symm

end Replay

/-- A text with other line ends: a carriage return before each newline, or a newline at the end. -/
def Reended (other bytes : Bytes) : Prop :=
  other = Text.Lines.withReturns bytes ∨ other = bytes ++ [Text.Lines.newline]

variable {bytes other : Bytes} (reended : Reended other bytes)
include reended

theorem Reended.findings :
    Log.findings other = Log.findings bytes ∨ Log.findings other = Log.findings bytes ++ [.blank] := by
  rcases reended with rfl | rfl
  · exact .inl (Text.Lines.map_splitOn_withReturns Finding.ofLine Finding.ofLine_return bytes)
  · have parted : segments (bytes ++ [Text.Lines.newline]) = segments bytes ++ [[]] :=
      segments_append_newline bytes []
    refine .inr ?_
    rw [Log.findings, ← segments, parted, List.map_append]
    rfl

theorem Reended.dispatched : Log.dispatched other = Log.dispatched bytes := by
  rw [← filterMap_findings, ← filterMap_findings]
  rcases reended.findings with same | longer
  · rw [same]
  · rw [longer, List.filterMap_append]
    simp [Finding.record?]

theorem Reended.rejectedLines : Log.rejectedLines other = Log.rejectedLines bytes := by
  rw [← filter_findings, ← filter_findings]
  rcases reended.findings with same | longer
  · rw [same]
  · rw [longer, List.zipIdx_append, List.filter_append]
    simp [Finding.isRejected]

theorem Reended.outline_replay (journal : Journal) :
    (replay logger clock journal ⟨other, none⟩).2.outline =
      (replay logger clock journal ⟨bytes, none⟩).2.outline := by
  rw [Replay.outline_replay, Replay.outline_replay]
  rcases reended.findings with same | longer
  · exact Replay.outline_settle clock logger rfl same 1
  · rw [← Replay.settle_blank clock logger journal (segments bytes)]
    refine Replay.outline_settle clock logger rfl ?_ 1
    rw [List.map_append]
    exact longer

end

/-- The accounts of a replay. A text is handled segment by segment, and its summary does not depend
on the logger; what is accepted, rejected and counted by kind is what the segments hold. Texts that
are cut behind a newline are handled one after the other, and other line ends change nothing but the
reason that is given for a line that is no text. -/
theorem replay_accounts :
    (∀ (bytes : Bytes) (logger : Logger) (clock : Clock) (journal : Journal),
      replay logger clock journal ⟨bytes, none⟩ =
          (.ok (summaryOf bytes),
            ((Text.Lines.closed Text.Lines.newline (segments bytes)).zipIdx 1).foldl
              (fun journal (line, number) => handle logger clock journal line number) journal) ∧
        (replay logger clock journal ⟨bytes, none⟩).2.skippedLines =
          journal.skippedLines ++ (rejectedLines bytes).map toString) ∧
    (∀ (bytes : Bytes) (recorder : Nat) (clock : Clock) (journal : Journal),
      (replay (.recording recorder) clock journal ⟨bytes, none⟩).2.recorded recorder =
        journal.recorded recorder ++ dispatched bytes) ∧
    (∀ bytes : Bytes,
      (summaryOf bytes).accepted = (dispatched bytes).length ∧
        ((summaryOf bytes).perKind.entries.map (·.2)).sum = (summaryOf bytes).accepted ∧
        (∀ kind, (summaryOf bytes).perKind.get? kind =
          if (dispatched bytes).countP (·.kind = kind) = 0 then none
          else some ((dispatched bytes).countP (·.kind = kind))) ∧
        (summaryOf bytes).accepted + (summaryOf bytes).rejected =
          (segments bytes).countP isFilled ∧
        (summaryOf bytes).rejected = (rejectedLines bytes).length ∧
        (rejectedLines bytes).Pairwise (· < ·)) ∧
    (∀ first second : Bytes, first = [] ∨ first.getLast? = some Text.Lines.newline →
      dispatched (first ++ second) = dispatched first ++ dispatched second ∧
        (summaryOf (first ++ second)).accepted =
          (summaryOf first).accepted + (summaryOf second).accepted ∧
        (summaryOf (first ++ second)).rejected =
          (summaryOf first).rejected + (summaryOf second).rejected ∧
        ∀ kind, ((summaryOf (first ++ second)).perKind.get? kind).getD 0 =
          ((summaryOf first).perKind.get? kind).getD 0 +
            ((summaryOf second).perKind.get? kind).getD 0) ∧
    ∀ bytes other : Bytes, Reended other bytes →
      dispatched other = dispatched bytes ∧ rejectedLines other = rejectedLines bytes ∧
        ∀ (logger : Logger) (clock : Clock) (journal : Journal),
          (replay logger clock journal ⟨other, none⟩).1 =
              (replay logger clock journal ⟨bytes, none⟩).1 ∧
            (replay logger clock journal ⟨other, none⟩).2.outline =
              (replay logger clock journal ⟨bytes, none⟩).2.outline := by
  have perKind (bytes : Bytes) (kind : Kind) : (summaryOf bytes).perKind.get? kind = _ :=
    Summary.get?_countByKind (dispatched bytes) kind
  have counts (bytes : Bytes) (kind : Kind) :
      ((summaryOf bytes).perKind.get? kind).getD 0 = (dispatched bytes).countP (·.kind = kind) := by
    by_cases none : (dispatched bytes).countP (·.kind = kind) = 0
    · rw [perKind, if_pos none, none]
      rfl
    · rw [perKind, if_neg none]
      rfl
  refine ⟨fun bytes logger clock journal => ⟨replay_text logger clock journal bytes,
    skippedLines_replay logger clock journal bytes⟩, fun bytes recorder clock journal =>
    recorded_replay recorder clock journal bytes, fun bytes => ?_, fun first second cut => ?_,
    fun bytes other reended => ⟨reended.dispatched, reended.rejectedLines,
      fun logger clock journal => ⟨?_, reended.outline_replay clock logger journal⟩⟩⟩
  · exact ⟨rfl, Summary.sum_countByKind (dispatched bytes), perKind bytes,
      length_dispatched_add_rejected bytes, rfl, rejectedLines_increasing bytes⟩
  · have joined := dispatched_append cut second
    refine ⟨joined, ?_, length_rejectedLines_append cut second, fun kind => ?_⟩
    · exact (congrArg List.length joined).trans List.length_append
    · rw [counts, counts, counts, joined, List.countP_append]
  · rw [replay_text, replay_text, summaryOf, reended.dispatched, reended.rejectedLines, ← summaryOf]

/-- A record and a blank line, and behind them octets that are no text and one more record. -/
theorem replay_accounts_mixed :
    let first := encodeString "\x7b\"kind\":\"call\"\x7d\n \n"
    let second := 255 :: Text.Lines.newline :: encodeString "\x7b\"kind\":\"remove\"\x7d"
    let summary := summaryOf (first ++ second)
    summary.accepted = 2 ∧ summary.rejected = 1 ∧ (summary.perKind.get? .remove).getD 0 = 1 ∧
      rejectedLines (first ++ second) = [3] ∧
        rejectedLines (Text.Lines.withReturns (first ++ second)) = [3] := by
  intro first second summary
  have cut : first.getLast? = some Text.Lines.newline := by decide +kernel
  have before : (summaryOf first).accepted = 1 ∧ (summaryOf first).rejected = 0 ∧
      ((summaryOf first).perKind.get? .remove).getD 0 = 0 := by decide +kernel
  have behind : (summaryOf second).accepted = 1 ∧ (summaryOf second).rejected = 1 ∧
      ((summaryOf second).perKind.get? .remove).getD 0 = 1 := by decide +kernel
  have skipped : rejectedLines (first ++ second) = [3] := by decide +kernel
  obtain ⟨_, accepted, rejected, perKind⟩ := replay_accounts.2.2.2.1 first second (.inr cut)
  obtain ⟨_, reended, _⟩ := replay_accounts.2.2.2.2 (first ++ second) _ (.inl rfl)
  refine ⟨?_, ?_, ?_, skipped, reended.trans skipped⟩
  · rw [accepted, before.1, behind.1]
  · rw [rejected, before.2.1, behind.2.1]
  · rw [perKind, before.2.2, behind.2.2]

end StatsRelay.Log
