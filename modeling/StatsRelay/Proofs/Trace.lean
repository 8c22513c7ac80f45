import StatsRelay.Proofs.Journal
import StatsRelay.Proofs.OutputLines
import StatsRelay.Proofs.Validation

/-! What a stack writes to its sink, in which order, and what it counts as dropped when the sink
refuses some of it. -/
namespace StatsRelay.Log

open StatsRelay.Stats StatsRelay.Config

namespace Stack

def actions (stack : Stack) (record : Record) : Backend → List Action
  | .counting => [.note (.counted stack.counter record)]
  | .json => [.write stack.writer stack.sink (.record record.kind) fun now =>
      recordLine now stack.fields record]
  | .noop => []
  | .telemetry => Telemetry.react ⟨stack.meter, stack.sink, stack.baseFields⟩ record
  | .tracing => [.note (.event (.ofRecord record))]

theorem react_backendLogger (stack : Stack) (record : Record) (backend : Backend) :
    (stack.backendLogger backend).react record = (stack.actions record backend, false) := by
  cases backend <;> simp [backendLogger, actions, Logger.react]

theorem reactAll_backends (stack : Stack) (record : Record) (id position : Nat)
    (backends : List Backend) :
    Logger.reactAll record id position (backends.map stack.backendLogger) =
      backends.flatMap (stack.actions record) := by
  induction backends generalizing position with
  | nil => simp [Logger.reactAll]
  | cons backend rest ih =>
    rw [List.map_cons, Logger.reactAll, react_backendLogger, ih]
    simp

/-- The actions of a stack are those of its backends in turn. -/
theorem react_logger (stack : Stack) (record : Record) :
    (stack.logger.react record).1 = stack.backends.flatMap (stack.actions record) := by
  rw [logger, Logger.react, children, reactAll_backends]

def Owns (stack : Stack) : Action → Prop
  | .note (.wrote _ _ _ _) => False
  | .note entry => entry.Of stack
  | .write writer sink _ _ => (writer = stack.writer ∨ writer = stack.meter) ∧ sink = stack.sink

theorem owns_actions (stack : Stack) (record : Record) (backend : Backend) :
    ∀ action ∈ stack.actions record backend, stack.Owns action := by
  cases backend with
  | telemetry =>
    intro action action_mem
    obtain ⟨metric, _, rfl⟩ := List.mem_map.mp action_mem
    exact ⟨.inr rfl, rfl⟩
  | _ => simp [actions, Owns, Entry.Of]

theorem Owns.into {stack : Stack} {action : Action} (owns : stack.Owns action) :
    action.Into stack.sink := by
  cases action with
  | note entry => cases entry <;> first | exact owns.elim | trivial
  | write => exact owns.2

theorem own_perform {clock : Clock} {stack : Stack} {journal : Journal} {action : Action}
    (own : ∀ entry ∈ journal.past, entry.Of stack) (owns : stack.Owns action) :
    ∀ entry ∈ (action.perform clock journal).past, entry.Of stack := by
  cases action with
  | note entry =>
    have first : entry.Of stack := by
      cases entry <;> first | exact owns.elim | exact owns
    exact List.forall_mem_cons.mpr ⟨first, own⟩
  | write writer sink subject line =>
    obtain ⟨known, rfl⟩ := owns
    obtain ⟨error, past⟩ := Action.past_perform_write clock journal writer stack.sink subject line
    rw [past]
    refine List.forall_mem_append.mpr ⟨by simp [Entry.Of], ?_⟩
    refine List.forall_mem_cons.mpr ⟨⟨?_, rfl⟩, own⟩
    simpa using known

end Stack

theorem flatMap_filter {α β : Type} (chosen : α → Prop) [DecidablePred chosen]
    (all : List α) (lines : α → List β) :
    (all.filter chosen).flatMap lines =
      all.flatMap fun item => if chosen item then lines item else [] := by
  induction all with
  | nil => rfl
  | cons item rest ih =>
    by_cases kept : chosen item <;> simp [kept, ih]

theorem backends_of_validate {given settings : Settings} (valid : given.validate = .ok settings) :
    settings.backends = Labelled.all.filter (· ∈ settings.backends) := by
  obtain ⟨_, _, _, _, sink, _, rfl⟩ := Settings.validate_ok_iff.mp valid
  simp only [Settings.normalBackends_eq]
  apply List.filter_congr
  intro backend backend_mem
  simp [backend_mem]

/-- What is written about a record: its line, and then its metrics. Each shows its own time. -/
def Written.ofRecord (backends : List Backend) (record : Record) : List (UInt64 → Written) :=
  (if .json ∈ backends then [fun now => .record now record] else []) ++
    if .telemetry ∈ backends then [fun now => .metric now record .count,
      fun now => .metric now record .latency, fun now => .metric now record .success] else []

namespace Stack

def metricLines (stack : Stack) (record : Record) : List (UInt64 → String) :=
  (Metric.ofRecord record).map fun (name, metric) now =>
    metric.line now name (stack.baseFields.merge (Metric.recordTags record))

theorem lines_backends (stack : Stack) (record : Record)
    (normal : stack.backends = Labelled.all.filter (· ∈ stack.backends)) :
    (stack.backends.flatMap (stack.actions record)).flatMap Action.lines =
      (if .json ∈ stack.backends then [fun now => recordLine now stack.fields record] else []) ++
        if .telemetry ∈ stack.backends then stack.metricLines record else [] := by
  have counting : (stack.actions record .counting).flatMap Action.lines = [] := rfl
  have json : (stack.actions record .json).flatMap Action.lines =
      [fun now => recordLine now stack.fields record] := rfl
  have noop : (stack.actions record .noop).flatMap Action.lines = [] := rfl
  have telemetry : (stack.actions record .telemetry).flatMap Action.lines =
      stack.metricLines record := rfl
  have tracing : (stack.actions record .tracing).flatMap Action.lines = [] := rfl
  -- Backends in normal form are a part of the list of all, which fixes their order.
  have split := flatMap_filter (· ∈ stack.backends) Labelled.all fun backend =>
    (stack.actions record backend).flatMap Action.lines
  rw [← normal] at split
  rw [List.flatMap_assoc, split]
  simp only [Labelled.all, List.flatMap_cons, List.flatMap_nil, counting, json, noop, telemetry,
    tracing, ite_self, List.nil_append, List.append_nil]

theorem metricLines_written (stack : Stack) (record : Record) :
    stack.metricLines record = [.count, .latency, .success].map fun measure now =>
      Written.line stack.baseFields (.metric now record measure) := by
  have each (now : UInt64) := metricLines_eq stack now record
  simp only [Metric.ofRecord, List.map_cons, List.map_nil, List.cons.injEq] at each
  simp only [metricLines, Metric.ofRecord, List.map_cons, List.map_nil, List.cons.injEq]
  exact ⟨funext fun now => (each now).1, funext fun now => (each now).2.1,
    funext fun now => (each now).2.2.1, trivial⟩

/-- What the actions for a record write, as lines with their contents. -/
theorem lines_actions (stack : Stack) (record : Record)
    (normal : stack.backends = Labelled.all.filter (· ∈ stack.backends)) :
    (stack.backends.flatMap (stack.actions record)).flatMap Action.lines =
      (Written.ofRecord stack.backends record).map fun written now =>
        (written now).line stack.baseFields := by
  rw [lines_backends stack _ normal, metricLines_written, Written.ofRecord, List.map_append]
  simp only [recordLine_eq]
  by_cases writes : .json ∈ stack.backends <;> by_cases measures : .telemetry ∈ stack.backends <;>
    simp [writes, measures]

def logAll (stack : Stack) (clock : Clock) (journal : Journal) (records : List Record) : Journal :=
  records.foldl (stack.logger.log clock) journal

theorem logAll_eq (stack : Stack) (clock : Clock) (journal : Journal) (records : List Record) :
    stack.logAll clock journal records =
      (records.flatMap fun record => stack.backends.flatMap (stack.actions record)).foldl
        (Action.perform clock) journal := by
  rw [List.foldl_flatMap, logAll]
  congr 1
  funext journal record
  rw [Logger.log, react_logger]

theorem owns_all (stack : Stack) (records : List Record) :
    ∀ action ∈ records.flatMap fun record => stack.backends.flatMap (stack.actions record),
      stack.Owns action := by
  intro action action_mem
  obtain ⟨record, _, action_mem⟩ := List.mem_flatMap.mp action_mem
  obtain ⟨backend, _, action_mem⟩ := List.mem_flatMap.mp action_mem
  exact stack.owns_actions _ backend action action_mem

/-- A journal that a stack has for itself stays its own. -/
theorem own_foldl {clock : Clock} {stack : Stack} {journal : Journal} {actions : List Action}
    (own : ∀ entry ∈ journal.past, entry.Of stack) (owns : ∀ action ∈ actions, stack.Owns action) :
    ∀ entry ∈ (actions.foldl (Action.perform clock) journal).past, entry.Of stack := by
  induction actions generalizing journal with
  | nil => exact own
  | cons action rest ih =>
    obtain ⟨first, others⟩ := List.forall_mem_cons.mp owns
    exact ih (own_perform own first) others

end Stack

/-- What is written about records in turn, with the times that the clock shows line by line. -/
def Written.all (backends : List Backend) (clock : Clock) (records : List Record) : List Written :=
  ((records.flatMap (ofRecord backends)).zipIdx 1).map fun (written, number) =>
    written (clock number)

def Written.attempts (baseFields : SortedMap String String) (refuses : Nat → Option SinkError)
    (written : List Written) : List (String × Option SinkError) :=
  (written.zipIdx 1).map fun (written, number) => (written.line baseFields, refuses number)

def Written.kept (refuses : Nat → Option SinkError) (written : List Written) : List Written :=
  ((written.zipIdx 1).filter fun (_, number) => (refuses number).isNone).map (·.1)

namespace Written

variable (baseFields : SortedMap String String) (refuses : Nat → Option SinkError)
  (written : List Written)

theorem kept_attempts :
    ((attempts baseFields refuses written).filterMap fun (line, error) =>
        if error.isNone then some line else none) =
      (kept refuses written).map (line baseFields) := by
  rw [attempts, kept, List.map_map, List.filterMap_map, ← List.filterMap_eq_filter,
    List.map_filterMap]
  apply List.filterMap_congr
  intro numbered _
  cases refuses numbered.2 <;> simp [Option.guard]

/-- Refused lines are counted by their numbers. -/
theorem countP_attempts :
    (attempts baseFields refuses written).countP (·.2.isSome) =
      (List.range' 1 written.length).countP fun number => (refuses number).isSome := by
  rw [attempts, List.countP_map, ← List.zipIdx_map_snd 1 written, List.countP_map]
  rfl

end Written

theorem Written.kept_sublist (refuses : Nat → Option SinkError) (written : List Written) :
    (kept refuses written).Sublist written := by
  have sublist : ((written.zipIdx 1).filter fun (_, number) => (refuses number).isNone).Sublist
      (written.zipIdx 1) := List.filter_sublist
  have parts := sublist.map Prod.fst
  rwa [List.zipIdx_map_fst] at parts

namespace Stack

variable {stack : Stack} {clock : Clock} {journal : Journal} {sinkId : Nat} {target : Target}
  (sink : stack.sink = ⟨sinkId, target⟩) (plain : target.isFile = false)
  (normal : stack.backends = Labelled.all.filter (· ∈ stack.backends))
  (fresh : journal.nextLine = 1) (records : List Record)

include sink plain normal fresh

/-- Whatever a stack does about some records, it tries all their writes, in their order, whichever of
them its sink refuses. -/
theorem attempts_foldl {actions : List Action} (owns : ∀ action ∈ actions, stack.Owns action)
    (about : actions.flatMap Action.lines = records.flatMap fun record =>
      (stack.backends.flatMap (stack.actions record)).flatMap Action.lines) :
    (actions.foldl (Action.perform clock) journal).attempts sinkId =
      Written.attempts stack.baseFields (target.refusal? journal.streams)
        (Written.all stack.backends clock records) := by
  have into := fun action action_mem => sink ▸ (owns action action_mem).into
  have empty : journal.attempts sinkId = [] := journal.attempts_of_fresh fresh sinkId
  have lines : (records.flatMap fun record =>
      (stack.backends.flatMap (stack.actions record)).flatMap Action.lines) =
        (records.flatMap (Written.ofRecord stack.backends)).map fun written now =>
          (written now).line stack.baseFields := by
    simp only [lines_actions _ _ normal, List.map_flatMap]
  rw [Action.attempts_foldl plain _ _ into (by rw [fresh, empty]; rfl), empty, fresh, about, lines]
  apply List.ext_getElem <;> simp [Written.attempts, Written.all]

theorem attempts_logAll :
    (stack.logAll clock journal records).attempts sinkId =
      Written.attempts stack.baseFields (target.refusal? journal.streams)
        (Written.all stack.backends clock records) := by
  rw [logAll_eq]
  exact attempts_foldl sink plain normal fresh records (stack.owns_all records) List.flatMap_assoc

theorem kept_logAll :
    (stack.logAll clock journal records).kept sinkId =
      (Written.kept (target.refusal? journal.streams)
        (Written.all stack.backends clock records)).map (Written.line stack.baseFields) := by
  rw [Journal.kept, attempts_logAll sink plain normal fresh records]
  exact Written.kept_attempts ..

omit sink plain normal fresh in
theorem dropped_logAll (own : ∀ entry ∈ journal.past, entry.Of stack) :
    stack.dropped (stack.logAll clock journal records) =
      ((stack.logAll clock journal records).attempts stack.sink.id).countP (·.2.isSome) := by
  apply stack.dropped_eq
  rw [logAll_eq]
  exact own_foldl own (stack.owns_all records)

end Stack

/-- Records that are logged into a fresh stack are written in turn, each as its line and then its
metrics, as far as these backends are on; every line shows the time at which it is written. What the
sink refuses changes nothing else: it keeps all other lines, and the stack counts the refused ones as
dropped. -/
theorem sink_trace {given settings : Settings} (valid : given.validate = .ok settings)
    (id sinkId : Nat) (refuses : Nat → Option SinkError) (files : FileSystem) (streams : Refusals)
    (clock : Clock) (records : List Record) :
    let built := Stack.build id settings ⟨sinkId, .custom refuses⟩ (.start files streams)
    let journal := built.1.logAll clock built.2 records
    let written := Written.all settings.backends clock records
    journal.attempts sinkId = Written.attempts settings.baseFields refuses written ∧
      journal.kept sinkId = (Written.kept refuses written).map (Written.line settings.baseFields) ∧
      (built.1.dropped journal =
        (List.range' 1 written.length).countP fun number => (refuses number).isSome) ∧
      ∀ record key, (tagsOf settings.baseFields record).get? key =
        if key = "kind" then some (label record.kind)
        else if key = "status" then some (label record.status)
        else settings.baseFields.get? key := by
  intro built journal written
  have own : ∀ entry ∈ built.2.past, entry.Of built.1 := by
    simp [built, Stack.build, Journal.start, Journal.add, Entry.Of]
  have normal := backends_of_validate valid
  have trace : journal.attempts sinkId = Written.attempts settings.baseFields refuses written :=
    Stack.attempts_logAll rfl rfl normal rfl records
  refine ⟨trace, Stack.kept_logAll rfl rfl normal rfl records, ?_, get?_tagsOf settings.baseFields⟩
  rw [← Written.countP_attempts settings.baseFields, ← trace]
  exact Stack.dropped_logAll records own

def refusesSecond (number : Nat) : Option SinkError :=
  if number = 2 then some (.writing "custom" ⟨.brokenPipe, "closed"⟩) else none

def secondRefused (baseFields : SortedMap String String) : Stack × Journal :=
  Stack.build 0 ⟨1, [.json, .telemetry], .standard, baseFields⟩ ⟨7, .custom refusesSecond⟩
    (.start .empty .none)

theorem sink_trace_second_refused :
    (secondRefused .empty).1.dropped
      ((secondRefused .empty).1.logAll UInt64.ofNat (secondRefused .empty).2 [default]) = 1 := by
  have valid : Settings.validate ⟨1, [.telemetry, .json], .standard, .empty⟩ =
      .ok ⟨1, [.json, .telemetry], .standard, .empty⟩ := by rfl
  exact (sink_trace valid 0 7 refusesSecond .empty .none UInt64.ofNat [default]).2.2.1

end StatsRelay.Log
