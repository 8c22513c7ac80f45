import StatsRelay.Log.Filter
import StatsRelay.Proofs.Capture

/-! What the counters and the watchers of a stack are told in a replay. A counter keeps a cell for
each kind and the summary a map, and both say how many records of each kind were dispatched. -/
namespace StatsRelay.Log

open StatsRelay.Stats StatsRelay.Config StatsRelay.Text.Utf8

section

variable {α : Type} {view : Entry → Option α}

def Journal.seen (journal : Journal) (view : Entry → Option α) : List α :=
  journal.entries.filterMap view

/-- Views that pass over writes, and over all that is said about the working of the program. -/
def Entry.OfRecords (view : Entry → Option α) : Prop :=
  (∀ writer sink line error, view (.wrote writer sink line error) = none) ∧
    ∀ event, event.topic = .diagnostics → view (.event event) = none

def Action.seen (view : Entry → Option α) : Action → List α
  | note entry => (view entry).toList
  | write _ _ _ _ => []

theorem Subject.dropped_topic (subject : Subject) (sink : Target) (error : SinkError) :
    (subject.dropped sink error).topic = .diagnostics := by
  cases subject <;> rfl

theorem Journal.seen_add (journal : Journal) (entry : Entry) :
    (journal.add entry).seen view = journal.seen view ++ (view entry).toList := by
  rw [seen, entries_add, List.filterMap_append]
  cases found : view entry <;> simp [seen, found]

theorem Journal.seen_eq (journal : Journal) :
    journal.seen view = (journal.past.filterMap view).reverse :=
  List.filterMap_reverse

/-- A view that passes over writes is shown what the action notes. -/
theorem Action.seen_perform (ofRecords : Entry.OfRecords view) (clock : Clock) (journal : Journal)
    (action : Action) :
    (action.perform clock journal).seen view = journal.seen view ++ action.seen view := by
  cases action with
  | note entry => exact journal.seen_add entry
  | write writer sink subject line =>
    obtain ⟨error, past⟩ := past_perform_write clock journal writer sink subject line
    have wrote := ofRecords.1 (some writer) sink.id (line (clock journal.nextLine)) error
    have dropped error := ofRecords.2 _ (subject.dropped_topic sink.target error)
    rw [Journal.seen_eq, Journal.seen_eq, past]
    cases error <;> simp [wrote, dropped, Action.seen]

/-- Such a view is shown what the actions of a logger note, one after another. -/
theorem Logger.seen_log (ofRecords : Entry.OfRecords view) (logger : Logger) (clock : Clock)
    (journal : Journal) (record : Record) :
    (logger.log clock journal record).seen view =
      journal.seen view ++ (logger.react record).1.flatMap (Action.seen view) := by
  unfold log
  generalize (logger.react record).1 = actions
  induction actions generalizing journal with
  | nil => simp
  | cons action rest ih =>
    rw [List.foldl_cons, ih, Action.seen_perform ofRecords, List.flatMap_cons, List.append_assoc]

theorem Replay.seen_dispatch (ofRecords : Entry.OfRecords view) (logger : Logger) (clock : Clock)
    (number : Nat) (line : Bytes) (journal : Journal) (finding : Finding) :
    (dispatch logger clock number line journal finding).seen view = journal.seen view ++
      finding.record?.toList.flatMap fun record =>
        (logger.react record).1.flatMap (Action.seen view) := by
  cases finding with
  | blank => simp [dispatch, Finding.record?]
  | notText =>
    have passed := ofRecords.2 (.lineNotText number line) rfl
    simp [dispatch, Journal.seen_add, passed, Finding.record?]
  | invalid fault =>
    have passed := ofRecords.2 (.lineInvalid number fault) rfl
    simp [dispatch, Journal.seen_add, passed, Finding.record?]
  | record record => simp [dispatch, Logger.seen_log ofRecords, Finding.record?]

/-- A replay shows a view what the logger does with the dispatched records, one after another. -/
theorem seen_replay (ofRecords : Entry.OfRecords view) (logger : Logger) (clock : Clock)
    (journal : Journal) (bytes : Bytes) :
    (replay logger clock journal ⟨bytes, none⟩).2.seen view = journal.seen view ++
      (dispatched bytes).flatMap fun record =>
        (logger.react record).1.flatMap (Action.seen view) := by
  have settled := Replay.settle_observed (·.seen view)
    (fun numbered => (Finding.ofLine numbered.1).record?.toList.flatMap fun record =>
      (logger.react record).1.flatMap (Action.seen view))
    (fun journal line number => Replay.seen_dispatch ofRecords logger clock number line journal _)
    journal ((Text.Lines.split bytes).zipIdx 1)
  rw [Replay.replay_eq, settled, ← filterMap_numbered, List.filterMap_eq_flatMap_toList,
    List.flatMap_assoc]

end

namespace Cells

theorem cell_bump (cells : Vector UInt64 Kind.number) (kind other : Kind) (amount : UInt64) :
    cell (bump cells kind amount) other =
      if other = kind then cell cells kind + amount else cell cells other := by
  have apart (different : other ≠ kind) : kind.index ≠ other.index :=
    fun same => different (Ranked.rank_injective same).symm
  unfold bump cell
  by_cases same : other = kind
  · subst same
    simp
  · rw [if_neg same]
    exact Vector.getElem_set_ne kind.index_lt other.index_lt (apart same)

/-- A cell counts the records of its kind. -/
theorem counts_foldl (cells : Cells) (records : List Record) (kind : Kind) :
    cell (records.foldl add cells).counts kind =
      cell cells.counts kind + .ofNat (records.countP (·.kind = kind)) := by
  induction records generalizing cells with
  | nil => simp
  | cons record rest ih =>
    rw [List.foldl_cons, ih, add, cell_bump, List.countP_cons]
    by_cases same : kind = record.kind
    · subst same
      simp [UInt64.ofNat_add, UInt64.add_assoc, UInt64.add_comm 1]
    · simp [same, Ne.symm same]

/-- A cell adds up the latencies of its kind. -/
theorem latencies_foldl (cells : Cells) (records : List Record) (kind : Kind) :
    cell (records.foldl add cells).latencies kind = cell cells.latencies kind +
      .ofNat ((records.filter (·.kind = kind)).map (·.latency.toNat)).sum := by
  induction records generalizing cells with
  | nil => simp
  | cons record rest ih =>
    rw [List.foldl_cons, ih, add, cell_bump, List.filter_cons]
    by_cases same : kind = record.kind
    · subst same
      simp [UInt64.ofNat_add, UInt64.add_assoc]
    · simp [same, Ne.symm same]

theorem bump_bump (cells : Vector UInt64 Kind.number) (first second : Kind) (one other : UInt64) :
    bump (bump cells first one) second other = bump (bump cells second other) first one := by
  apply Vector.ext
  intro i bound
  simp only [bump, cell, Vector.getElem_set, Fin.getElem_fin]
  grind

/-- The order of the records does not matter to the cells. -/
theorem foldl_add_perm {records others : List Record} (same : records.Perm others)
    (cells : Cells) : records.foldl add cells = others.foldl add cells := by
  refine same.foldl_eq' (fun first _ second _ cells => ?_) cells
  unfold add
  rw [bump_bump, bump_bump cells.latencies]

theorem toList_eq (cells : Vector UInt64 Kind.number) :
    cells.toList = Kind.all.map (cell cells) := by
  obtain ⟨⟨list⟩, size⟩ := cells
  match list, size with
  | [_, _, _, _, _, _, _], _ => rfl

end Cells

namespace Counts

theorem cells_counts (records : List Record) (kind : Kind) :
    Cells.cell (Counts.mk records).cells.counts kind =
      .ofNat (records.countP (·.kind = kind)) := by
  have empty : Cells.cell Cells.empty.counts kind = 0 := by simp [Cells.empty, Cells.cell]
  rw [cells, Cells.counts_foldl, empty, UInt64.zero_add]

theorem count_eq (records : List Record) (kind : Kind) :
    (Counts.mk records).count kind = records.countP (·.kind = kind) % UInt64.size := by
  rw [count, cells_counts]
  exact UInt64.toNat_ofNat'

theorem latency_eq (records : List Record) (kind : Kind) :
    ((Counts.mk records).latency kind).toNat =
      ((records.filter (·.kind = kind)).map (·.latency.toNat)).sum % UInt64.size := by
  have empty : Cells.cell Cells.empty.latencies kind = 0 := by simp [Cells.empty, Cells.cell]
  rw [latency, cells, Cells.latencies_foldl, empty, UInt64.zero_add]
  exact UInt64.toNat_ofNat'

private theorem foldl_ofNat (amounts : List Nat) (start : Nat) :
    (amounts.map UInt64.ofNat).foldl (· + ·) (.ofNat start) = .ofNat (start + amounts.sum) := by
  induction amounts generalizing start with
  | nil => simp
  | cons amount rest ih =>
    rw [List.map_cons, List.foldl_cons, ← UInt64.ofNat_add, ih, List.sum_cons, Nat.add_assoc]

/-- The total is the number of all records, though cell by cell it was reduced before. -/
theorem total_eq (records : List Record) :
    (Counts.mk records).total = records.length % UInt64.size := by
  have each : (Counts.mk records).cells.counts.toList =
      (Kind.all.map fun kind => records.countP (·.kind = kind)).map UInt64.ofNat := by
    rw [Cells.toList_eq, List.map_map]
    exact List.map_congr_left fun kind _ => cells_counts records kind
  have sum := foldl_ofNat (Kind.all.map fun kind => records.countP (·.kind = kind)) 0
  rw [Nat.zero_add, Summary.sum_counts] at sum
  rw [total, ← Vector.foldl_toList, each]
  exact (congrArg UInt64.toNat sum).trans UInt64.toNat_ofNat'

end Counts

theorem Summary.of_perm {records others : List Record} (same : records.Perm others)
    (rejected : Nat) : of records rejected = of others rejected := by
  have perKind : countByKind records = countByKind others := by
    apply SortedMap.ext_get?
    intro kind
    rw [get?_countByKind, get?_countByKind, same.countP_eq]
  rw [of, of, perKind, same.length_eq]

def AreLines (lines : List Bytes) : Prop :=
  ∀ line ∈ lines, ∃ body, Text.Lines.newline ∉ body ∧ line = body ++ [Text.Lines.newline]

section

variable {lines others : List Bytes}

private theorem cut_of_line {line : Bytes} (ended : ∃ body, Text.Lines.newline ∉ body ∧
    line = body ++ [Text.Lines.newline]) :
    line = [] ∨ line.getLast? = some Text.Lines.newline := by
  obtain ⟨body, _, rfl⟩ := ended
  exact .inr List.getLast?_concat

/-- Whole lines are dispatched one by one. -/
theorem dispatched_lines (whole : AreLines lines) (tail : Bytes) :
    dispatched (lines.flatten ++ tail) = lines.flatMap dispatched ++ dispatched tail := by
  induction lines with
  | nil => rfl
  | cons line rest ih =>
    obtain ⟨first, others⟩ := List.forall_mem_cons.mp whole
    rw [List.flatten_cons, List.append_assoc, dispatched_append (cut_of_line first), ih others,
      List.flatMap_cons, List.append_assoc]

theorem length_rejected_lines (whole : AreLines lines) (tail : Bytes) :
    (rejectedLines (lines.flatten ++ tail)).length =
      (lines.map fun line => (rejectedLines line).length).sum + (rejectedLines tail).length := by
  induction lines with
  | nil => simp
  | cons line rest ih =>
    obtain ⟨first, others⟩ := List.forall_mem_cons.mp whole
    rw [List.flatten_cons, List.append_assoc, length_rejectedLines_append (cut_of_line first),
      ih others, List.map_cons, List.sum_cons, Nat.add_assoc]

theorem AreLines.perm (whole : AreLines lines) (same : lines.Perm others) : AreLines others :=
  fun line line_mem => whole line (same.mem_iff.mpr line_mem)

theorem dispatched_perm (whole : AreLines lines) (same : lines.Perm others) (tail : Bytes) :
    (dispatched (lines.flatten ++ tail)).Perm (dispatched (others.flatten ++ tail)) := by
  rw [dispatched_lines whole, dispatched_lines (whole.perm same)]
  exact (same.flatMap_right dispatched).append_right _

/-- The order of whole lines does not matter to the summary. -/
theorem summaryOf_perm (whole : AreLines lines) (same : lines.Perm others) (tail : Bytes) :
    summaryOf (lines.flatten ++ tail) = summaryOf (others.flatten ++ tail) := by
  have rejected : (rejectedLines (lines.flatten ++ tail)).length =
      (rejectedLines (others.flatten ++ tail)).length := by
    rw [length_rejected_lines whole, length_rejected_lines (whole.perm same),
      (same.map fun line => (rejectedLines line).length).sum_nat]
  rw [summaryOf, summaryOf, rejected]
  exact Summary.of_perm (dispatched_perm whole same tail) _

end

def Journal.recordEvents (journal : Journal) : List Event :=
  journal.events.filter (·.topic.target = "opstats::stats")

def Entry.countedBy? (counter : Nat) : Entry → Option Record
  | counted c record => if c = counter then some record else none
  | _ => none

def Entry.recordEvent? : Entry → Option Event
  | event noted => if noted.topic.target = "opstats::stats" then some noted else none
  | _ => none

theorem Entry.countedBy?_ofRecords (counter : Nat) : OfRecords (countedBy? counter) :=
  ⟨fun _ _ _ _ => rfl, fun _ _ => rfl⟩

theorem Entry.recordEvent?_ofRecords : OfRecords recordEvent? :=
  ⟨fun _ _ _ _ => rfl, fun event diagnostic => by simp [recordEvent?, diagnostic, Topic.target]⟩

theorem Journal.recordEvents_eq (journal : Journal) :
    journal.recordEvents = journal.seen Entry.recordEvent? := by
  unfold recordEvents events seen
  rw [List.filter_filterMap]
  apply List.filterMap_congr
  intro entry _
  cases entry <;> simp [Entry.recordEvent?, Option.filter]

namespace Stack

/-- What a stack with normal backends shows a view of records: the record as it is counted, and as
an event, as far as these backends are on. -/
theorem seen_react {α : Type} (view : Entry → Option α) (stack : Stack)
    (normal : stack.backends = Labelled.all.filter (· ∈ stack.backends))
    (record : Record) :
    (stack.logger.react record).1.flatMap (Action.seen view) =
      (if .counting ∈ stack.backends then (view (.counted stack.counter record)).toList else []) ++
        if .tracing ∈ stack.backends then (view (.event (.ofRecord record))).toList else [] := by
  have counting : (stack.actions record .counting).flatMap (Action.seen view) =
      (view (.counted stack.counter record)).toList := List.append_nil _
  have json : (stack.actions record .json).flatMap (Action.seen view) = [] := rfl
  have noop : (stack.actions record .noop).flatMap (Action.seen view) = [] := rfl
  have telemetry : (stack.actions record .telemetry).flatMap (Action.seen view) = [] := rfl
  have tracing : (stack.actions record .tracing).flatMap (Action.seen view) =
      (view (.event (.ofRecord record))).toList := List.append_nil _
  have split := flatMap_filter (· ∈ stack.backends) Labelled.all fun backend =>
    (stack.actions record backend).flatMap (Action.seen view)
  rw [← normal] at split
  rw [react_logger, List.flatMap_assoc, split]
  simp only [Labelled.all, List.flatMap_cons, List.flatMap_nil, counting, json, noop, telemetry,
    tracing, ite_self, List.nil_append, List.append_nil]

variable {stack : Stack} {journal : Journal}
  (normal : stack.backends = Labelled.all.filter (· ∈ stack.backends)) (clock : Clock) (bytes : Bytes)

include normal

/-- A fresh counter has seen just the dispatched records. -/
theorem counts?_replay (counting : .counting ∈ stack.backends)
    (fresh : journal.counted stack.counter = []) :
    stack.counts? (replay stack.logger clock journal ⟨bytes, none⟩).2 =
      some ⟨dispatched bytes⟩ := by
  have told (record : Record) := stack.seen_react (Entry.countedBy? stack.counter) normal record
  have seen := seen_replay (Entry.countedBy?_ofRecords stack.counter) stack.logger clock journal bytes
  have once (record : Record) : Entry.countedBy? stack.counter (.counted stack.counter record) =
    some record := if_pos rfl
  have never (event : Event) : Entry.countedBy? stack.counter (.event event) = none := rfl
  have start : journal.seen (Entry.countedBy? stack.counter) = [] := fresh
  simp only [told, counting, if_true, once, never, Option.toList, ite_self, List.append_nil,
    start, List.nil_append] at seen
  rw [counts?, if_pos counting]
  exact congrArg (some ∘ Counts.mk) (seen.trans (List.flatMap_singleton' _))

/-- The events of records are those of the dispatched ones, if there are any. -/
theorem recordEvents_replay (fresh : journal.recordEvents = []) :
    (replay stack.logger clock journal ⟨bytes, none⟩).2.recordEvents =
      if .tracing ∈ stack.backends then (dispatched bytes).map Event.ofRecord else [] := by
  have told (record : Record) := stack.seen_react Entry.recordEvent? normal record
  have shown (record : Record) : Entry.recordEvent? (.event (.ofRecord record)) =
    some (.ofRecord record) := rfl
  have never (record : Record) : Entry.recordEvent? (.counted stack.counter record) = none := rfl
  rw [Journal.recordEvents_eq] at fresh ⊢
  rw [seen_replay Entry.recordEvent?_ofRecords, fresh, List.nil_append]
  simp only [told, shown, never, Option.toList, ite_self, List.nil_append]
  by_cases traced : .tracing ∈ stack.backends
  · simp only [if_pos traced]
    exact List.flatMap_pure_eq_map ..
  · simp [if_neg traced]

end Stack

theorem Event.level_ofRecord (record : Record) :
    ((ofRecord record).level = .warn ↔ record.status ≠ .ok) ∧
      ((ofRecord record).level = .info ↔ record.status = .ok) := by
  unfold ofRecord ResultCode.isOk
  by_cases ok : record.status = .ok <;> simp [ok]

/-- A replay into a fresh stack that counts: the counters agree with the summary, kind by kind and
all together, as long as the cells can hold the number of records, and their order does not count.
A stack that traces shows one event for each record, and nothing else on their target. -/
theorem replay_counts {given settings : Settings} (valid : given.validate = .ok settings)
    (counting : .counting ∈ settings.backends) (id : Nat) (sink : Sink) (files : FileSystem)
    (streams : Refusals) (clock : Clock) :
    let built := Stack.build id settings sink (.start files streams)
    let run (bytes : Bytes) := replay built.1.logger clock built.2 ⟨bytes, none⟩
    (∀ bytes, (dispatched bytes).length < UInt64.size → ∃ summary counts,
      (run bytes).1 = .ok summary ∧ built.1.counts? (run bytes).2 = some counts ∧
        (∀ kind, counts.count kind = (summary.perKind.get? kind).getD 0) ∧
        summary.accepted = (dispatched bytes).length ∧ counts.total = summary.accepted ∧
        (Kind.all.map counts.count).sum = summary.accepted ∧
        ∀ kind, (counts.latency kind).toNat =
          (((dispatched bytes).filter (·.kind = kind)).map (·.latency.toNat)).sum % UInt64.size) ∧
    (∀ bytes, (run bytes).2.recordEvents =
      if .tracing ∈ settings.backends then (dispatched bytes).map Event.ofRecord else []) ∧
    (∀ record, ((Event.ofRecord record).level = .warn ↔ record.status ≠ .ok) ∧
      ((Event.ofRecord record).level = .info ↔ record.status = .ok)) ∧
    ∀ lines others tail, AreLines lines → lines.Perm others → ∃ counts counts',
      (run (lines.flatten ++ tail)).1 = (run (others.flatten ++ tail)).1 ∧
        built.1.counts? (run (lines.flatten ++ tail)).2 = some counts ∧
        built.1.counts? (run (others.flatten ++ tail)).2 = some counts' ∧
        counts.cells = counts'.cells := by
  intro built run
  have normal := backends_of_validate valid
  have counted (bytes : Bytes) : built.1.counts? (run bytes).2 = some ⟨dispatched bytes⟩ :=
    Stack.counts?_replay normal clock bytes counting rfl
  have summed (bytes : Bytes) : (run bytes).1 = .ok (summaryOf bytes) :=
    congrArg Prod.fst (replay_text built.1.logger clock built.2 bytes)
  refine ⟨fun bytes few => ⟨_, _, summed bytes, counted bytes, ?_⟩,
    fun bytes => Stack.recordEvents_replay normal clock bytes rfl, Event.level_ofRecord, ?_⟩
  · have each (kind : Kind) :
        (Counts.mk (dispatched bytes)).count kind = (dispatched bytes).countP (·.kind = kind) := by
      rw [Counts.count_eq]
      exact Nat.mod_eq_of_lt (Nat.lt_of_le_of_lt List.countP_le_length few)
    refine ⟨fun kind => ?_, rfl, ?_, ?_, Counts.latency_eq (dispatched bytes)⟩
    · have held : (summaryOf bytes).perKind.get? kind = _ :=
        Summary.get?_countByKind (dispatched bytes) kind
      rw [each, held]
      by_cases none : (dispatched bytes).countP (·.kind = kind) = 0 <;> simp [none]
    · rw [Counts.total_eq]
      exact Nat.mod_eq_of_lt few
    · rw [funext each]
      exact Summary.sum_counts (dispatched bytes)
  · intro lines others tail whole same
    refine ⟨_, _, ?_, counted _, counted _, ?_⟩
    · rw [summed, summed, summaryOf_perm whole same]
    · exact Cells.foldl_add_perm (dispatched_perm whole same tail) .empty

def failedSearch : Record :=
  ⟨.search, ({ (default : SearchStats) with
    statusCode := .ioError, totalLatencyMillis := 7 } : SearchStats)⟩

/-- The lines of two records, replayed into a stack whose sink refuses the second. -/
theorem replay_counts_second_refused :
    let bytes := [Written.record 3 default, .record 4 failedSearch].flatMap (Written.encoded .empty)
    let built := Stack.build 0 ⟨1, [.counting, .json, .tracing], .standard, .empty⟩
      ⟨7, .custom refusesSecond⟩ (.start .empty .none)
    let run := replay built.1.logger UInt64.ofNat built.2 ⟨bytes, none⟩
    (∃ counts, built.1.counts? run.2 = some counts ∧ counts.total = 2 ∧
      (counts.latency .search).toNat = 7) ∧
      run.2.recordEvents.map (·.level) = [.info, .warn] := by
  intro bytes built run
  have valid : Settings.validate ⟨1, [.tracing, .json, .counting], .standard, .empty⟩ =
      .ok ⟨1, [.counting, .json, .tracing], .standard, .empty⟩ := by rfl
  have read : dispatched bytes = [default, failedSearch] := Written.dispatched_encoded .empty _
  have agree := replay_counts valid (by decide) 0 ⟨7, .custom refusesSecond⟩ .empty .none UInt64.ofNat
  obtain ⟨summary, counts, _, found, _, accepted, total, _, latency⟩ :=
    agree.1 bytes (by rw [read]; decide)
  refine ⟨⟨counts, found, ?_, ?_⟩, ?_⟩
  · rw [total, accepted, read]
    rfl
  · rw [latency, read]
    rfl
  · rw [agree.2.1 bytes, read]
    rfl

end StatsRelay.Log
