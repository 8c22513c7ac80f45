import StatsRelay.Proofs.Counting

/-! What trees of fan-outs do with records. A panic is caught by the fan-out right above the logger
that panics, so each logger below the fan-outs does what it does by itself, place by place. -/
namespace StatsRelay.Log

open StatsRelay.Stats

def Action.isPanicNote : Action → Bool
  | note (.panicked _) => true
  | note (.event event) => event.message = "stats logger panicked"
  | _ => false

/-- A logger that keeps records, by its identity. -/
inductive Keeper
  | counter (id : Nat)
  | recorder (id : Nat)
deriving DecidableEq

def Journal.heldBy (journal : Journal) : Keeper → List Record
  | .counter id => journal.counted id
  | .recorder id => journal.recorded id

def Entry.keptBy? (keeper : Keeper) : Entry → Option Record
  | counted id record => if .counter id = keeper then some record else none
  | recorded id record => if .recorder id = keeper then some record else none
  | _ => none

def Entry.panicOf? (fanout : Nat) : Entry → Option Unit
  | panicked f => if f = fanout then some () else none
  | _ => none

namespace Logger

mutual

/-- The loggers below all fan-outs, one for each place in the tree. -/
def leaves : Logger → List Logger
  | fanout _ children => leavesAll children
  | leaf => [leaf]

def leavesAll : List Logger → List Logger
  | [] => []
  | child :: rest => leaves child ++ leavesAll rest

end

mutual

/-- The fan-outs with their children, one for each place in the tree. -/
def fanouts : Logger → List (Nat × List Logger)
  | fanout id children => (id, children) :: fanoutsAll children
  | _ => []

def fanoutsAll : List Logger → List (Nat × List Logger)
  | [] => []
  | child :: rest => fanouts child ++ fanoutsAll rest

end

def isFanout : Logger → Bool
  | fanout _ _ => true
  | _ => false

def keeper? : Logger → Option Keeper
  | counting id => some (.counter id)
  | recording id => some (.recorder id)
  | _ => none

section

variable (record : Record)

theorem react_fanout_calm (id : Nat) (children : List Logger) :
    ((fanout id children).react record).2 = false := by
  rw [react]

theorem message_ofRecord : (Event.ofRecord record).message ≠ "stats logger panicked" := by
  rw [Event.ofRecord]
  cases record.status.isOk <;> simp

mutual

theorem react_leaves : (tree : Logger) →
    (tree.react record).1.filter (!·.isPanicNote) =
      tree.leaves.flatMap fun leaf => (leaf.react record).1
  | noop => by simp [react, leaves]
  | counting id => by simp [react, leaves, Action.isPanicNote]
  | recording id => by simp [react, leaves, Action.isPanicNote]
  | tracing => by simp [react, leaves, Action.isPanicNote, message_ofRecord]
  | json id sink fields => by simp [react, leaves, Action.isPanicNote]
  | telemetry meter => by
    have kept : ∀ action ∈ meter.react record, (!action.isPanicNote) = true := by
      intro action action_mem
      obtain ⟨metric, _, rfl⟩ := List.mem_map.mp action_mem
      rfl
    simp [react, leaves, List.filter_eq_self.mpr kept]
  | fanout id children => by
    rw [react, leaves]
    exact reactAll_leaves id 0 children
  | exploding on => by simp [react, leaves]

theorem reactAll_leaves (id position : Nat) : (children : List Logger) →
    (reactAll record id position children).filter (!·.isPanicNote) =
      (leavesAll children).flatMap fun leaf => (leaf.react record).1
  | [] => by simp [reactAll, leavesAll]
  | child :: rest => by
    have first := react_leaves child
    have others := reactAll_leaves id (position + 1) rest
    have noted : Action.isPanicNote (.note (.event (.loggerPanicked record.kind position))) := by
      simp [Action.isPanicNote, Event.loggerPanicked]
    have caught : Action.isPanicNote (.note (.panicked id)) := rfl
    rw [reactAll, leavesAll, List.flatMap_append, ← first, ← others, List.filter_append,
      List.filter_append]
    -- Panicking or not, what the child leaves behind besides its own actions are notes.
    split <;> simp [noted, caught]

end

mutual

theorem leaves_plain : (tree : Logger) → ∀ leaf ∈ tree.leaves, leaf.isFanout = false
  | noop => by simp [leaves, isFanout]
  | counting id => by simp [leaves, isFanout]
  | recording id => by simp [leaves, isFanout]
  | tracing => by simp [leaves, isFanout]
  | json id sink fields => by simp [leaves, isFanout]
  | telemetry meter => by simp [leaves, isFanout]
  | fanout id children => by
    rw [leaves]
    exact leavesAll_plain children
  | exploding on => by simp [leaves, isFanout]

theorem leavesAll_plain :
    (children : List Logger) → ∀ leaf ∈ leavesAll children, leaf.isFanout = false
  | [] => by simp [leavesAll]
  | child :: rest => by
    rw [leavesAll]
    exact List.forall_mem_append.mpr ⟨leaves_plain child, leavesAll_plain rest⟩

end

/-- Where a note of a panic says nothing, a tree shows what its leaves show. -/
theorem flatMap_react {α : Type} {show? : Action → List α}
    (silent : ∀ action, action.isPanicNote = true → show? action = []) (tree : Logger) :
    (tree.react record).1.flatMap show? =
      tree.leaves.flatMap fun leaf => (leaf.react record).1.flatMap show? := by
  rw [← List.flatMap_assoc, ← react_leaves]
  generalize (tree.react record).1 = actions
  induction actions with
  | nil => rfl
  | cons action rest ih =>
    cases note : action.isPanicNote with
    | true => simp [silent action note, note, ih]
    | false => simp [note, ih]

mutual

/-- A fan-out notes each of its own children that panics, and leaves the rest to those below it. -/
theorem panics_react (node : Nat) : (tree : Logger) →
    ((tree.react record).1.flatMap (Action.seen (Entry.panicOf? node))).length =
      ((tree.fanouts.filter (·.1 = node)).map fun fan =>
        fan.2.countP fun child => (child.react record).2).sum
  | noop => by simp [react, fanouts]
  | counting id => by simp [react, fanouts, Action.seen, Entry.panicOf?]
  | recording id => by simp [react, fanouts, Action.seen, Entry.panicOf?]
  | tracing => by simp [react, fanouts, Action.seen, Entry.panicOf?]
  | json id sink fields => by simp [react, fanouts, Action.seen]
  | telemetry meter => by
    simp [react, fanouts, Telemetry.react, Telemetry.write, Action.seen, Function.comp_def]
  | fanout id children => by
    have below := panics_reactAll node id 0 children
    rw [react, below, fanouts, List.filter_cons]
    by_cases same : id = node <;> simp [same]
  | exploding on => by simp [react, fanouts]

theorem panics_reactAll (node id position : Nat) : (children : List Logger) →
    ((reactAll record id position children).flatMap
        (Action.seen (Entry.panicOf? node))).length =
      (if id = node then children.countP fun child => (child.react record).2 else 0) +
        (((fanoutsAll children).filter (·.1 = node)).map fun fan =>
          fan.2.countP fun child => (child.react record).2).sum
  | [] => by simp [reactAll, fanoutsAll]
  | child :: rest => by
    have first := panics_react node child
    have others := panics_reactAll node id (position + 1) rest
    have noted (panicked : Bool) : ((if panicked then [Action.note (.panicked id),
        .note (.event (.loggerPanicked record.kind position))] else []).flatMap
          (Action.seen (Entry.panicOf? node))).length =
        if id = node then panicked.toNat else 0 := by
      cases panicked <;> by_cases same : id = node <;> simp [same, Action.seen, Entry.panicOf?]
    rw [reactAll, fanoutsAll, List.filter_append, List.map_append, List.sum_append, ← first,
      List.countP_cons, List.flatMap_append, List.flatMap_append, List.length_append,
      List.length_append, others, noted]
    split
    · cases (react record child).2 <;> simp <;> omega
    · omega

end

/-- No logger takes away what a recorder holds. -/
theorem react_keeps (recorder : Nat) (tree : Logger) :
    ∀ action ∈ (tree.react record).1, action ≠ .note (.taken recorder) := by
  rintro action action_mem rfl
  have kept : Action.note (.taken recorder) ∈
      (tree.react record).1.filter (!·.isPanicNote) := List.mem_filter.mpr ⟨action_mem, rfl⟩
  rw [react_leaves] at kept
  obtain ⟨leaf, listed, action_mem⟩ := List.mem_flatMap.mp kept
  have plain := leaves_plain tree leaf listed
  cases leaf with
  | fanout => exact absurd plain (by simp [isFanout])
  | telemetry meter => simp [react, Telemetry.react, Telemetry.write] at action_mem
  | _ => simp [react] at action_mem

theorem seen_leaf (keeper : Keeper) {leaf : Logger} (plain : leaf.isFanout = false) :
    (leaf.react record).1.flatMap (Action.seen (Entry.keptBy? keeper)) =
      if leaf.keeper? = some keeper then [record] else [] := by
  cases leaf with
  | fanout => exact absurd plain (by simp [isFanout])
  | telemetry meter =>
    apply List.flatMap_eq_nil_iff.mpr
    intro action action_mem
    obtain ⟨metric, _, rfl⟩ := List.mem_map.mp action_mem
    rfl
  | counting id =>
    by_cases same : .counter id = keeper <;>
      simp [react, Action.seen, Entry.keptBy?, keeper?, same]
  | recording id =>
    by_cases same : .recorder id = keeper <;>
      simp [react, Action.seen, Entry.keptBy?, keeper?, same]
  | _ => simp [react, Action.seen, Entry.keptBy?, keeper?]

/-- A logger that keeps records is handed a record once for each of its places in the tree. -/
theorem seen_react (keeper : Keeper) (tree : Logger) :
    (tree.react record).1.flatMap (Action.seen (Entry.keptBy? keeper)) =
      List.replicate (tree.leaves.countP (·.keeper? = some keeper)) record := by
  have silent (action : Action) (note : action.isPanicNote = true) :
      action.seen (Entry.keptBy? keeper) = [] := by
    unfold Action.isPanicNote at note
    split at note
    · rfl
    · rfl
    · cases note
  have each : ∀ leaf ∈ tree.leaves,
      (leaf.react record).1.flatMap (Action.seen (Entry.keptBy? keeper)) =
        if leaf.keeper? = some keeper then [record] else [] :=
    fun leaf listed => seen_leaf record keeper (leaves_plain tree leaf listed)
  rw [flatMap_react record silent, List.flatMap_congr each, ← flatMap_filter,
    ← List.map_eq_flatMap, List.map_const', List.countP_eq_length_filter]

end

end Logger

namespace Journal

theorem heldBy_add (journal : Journal) (keeper : Keeper) {entry : Entry}
    (kept : ∀ recorder, entry ≠ .taken recorder) :
    (journal.add entry).heldBy keeper = journal.heldBy keeper ++ (entry.keptBy? keeper).toList := by
  cases keeper with
  | counter id =>
    have counted : (journal.add entry).counted id =
        journal.counted id ++ (Entry.countedBy? id entry).toList := journal.seen_add entry
    rw [heldBy, counted, heldBy]
    cases entry <;> simp [Entry.countedBy?, Entry.keptBy?]
  | recorder id =>
    unfold heldBy recorded add
    cases entry with
    | taken recorder => exact absurd rfl (kept recorder)
    | recorded recorder record =>
      by_cases same : recorder = id <;> simp [untaken, Entry.keptBy?, same]
    | _ => simp [untaken, Entry.keptBy?]

theorem heldBy_of_past {first second : Journal} (same : first.past = second.past)
    (keeper : Keeper) : first.heldBy keeper = second.heldBy keeper := by
  cases keeper <;> simp only [heldBy, counted, recorded, entries, same]

theorem heldBy_perform (clock : Clock) (journal : Journal) (keeper : Keeper)
    {action : Action} (kept : ∀ recorder, action ≠ .note (.taken recorder)) :
    (action.perform clock journal).heldBy keeper =
      journal.heldBy keeper ++ action.seen (Entry.keptBy? keeper) := by
  cases action with
  | note entry =>
    exact journal.heldBy_add keeper fun recorder same => kept recorder (congrArg Action.note same)
  | write writer sink subject line =>
    obtain ⟨error, past⟩ := Action.past_perform_write clock journal writer sink subject line
    generalize line (clock journal.nextLine) = shown at past
    have untaken : ∀ recorder, Entry.wrote (some writer) sink.id shown error ≠ .taken recorder := by
      simp
    have wrote := journal.heldBy_add keeper untaken
    cases error with
    | none =>
      have same : ((Action.write writer sink subject line).perform clock journal).past =
          (journal.add (.wrote (some writer) sink.id shown none)).past := past
      rw [heldBy_of_past same, wrote]
      rfl
    | some error =>
      have same : ((Action.write writer sink subject line).perform clock journal).past =
          ((journal.add (.wrote (some writer) sink.id shown (some error))).add
            (.event (subject.dropped sink.target error))).past := past
      rw [heldBy_of_past same, heldBy_add _ keeper (by simp), wrote]
      simp [Entry.keptBy?, Action.seen]

theorem panics_eq (journal : Journal) (node : Nat) :
    journal.panics node = (journal.seen (Entry.panicOf? node)).length := by
  rw [seen_eq, List.length_reverse, List.length_filterMap_eq_countP, panics]
  apply List.countP_congr
  intro entry _
  cases entry <;> simp [Entry.panicOf?]

end Journal

theorem Entry.panicOf?_ofRecords (node : Nat) : OfRecords (panicOf? node) :=
  ⟨fun _ _ _ _ => rfl, fun _ _ => rfl⟩

namespace Logger

def logAll (logger : Logger) (clock : Clock) (journal : Journal) (records : List Record) :
    Journal :=
  records.foldl (logger.log clock) journal

section

variable (clock : Clock)

theorem heldBy_log (logger : Logger) (journal : Journal) (record : Record) (keeper : Keeper) :
    (logger.log clock journal record).heldBy keeper = journal.heldBy keeper ++
      List.replicate (logger.leaves.countP (·.keeper? = some keeper)) record := by
  have keeps := fun recorder => react_keeps record recorder logger
  rw [← seen_react record keeper logger, log]
  generalize (logger.react record).1 = actions at keeps
  induction actions generalizing journal with
  | nil => simp
  | cons action rest ih =>
    have first recorder := (List.forall_mem_cons.mp (keeps recorder)).1
    have others recorder := (List.forall_mem_cons.mp (keeps recorder)).2
    rw [List.foldl_cons, ih _ others, Journal.heldBy_perform clock journal keeper first,
      List.flatMap_cons, List.append_assoc]

theorem heldBy_logAll (logger : Logger) (journal : Journal) (records : List Record)
    (keeper : Keeper) : (logger.logAll clock journal records).heldBy keeper =
      journal.heldBy keeper ++ records.flatMap
        (List.replicate (logger.leaves.countP (·.keeper? = some keeper))) := by
  induction records generalizing journal with
  | nil => simp [logAll]
  | cons record rest ih =>
    change (logger.logAll clock (logger.log clock journal record) rest).heldBy keeper = _
    rw [ih, heldBy_log, List.flatMap_cons, List.append_assoc]

/-- The calls that a fan-out makes: in each of its places it hands every record to every child. -/
def calls (tree : Logger) (node : Nat) (records : List Record) : List (Record × Logger) :=
  records.flatMap fun record => (tree.fanouts.filter (·.1 = node)).flatMap fun fan =>
    fan.2.map fun child => (record, child)

theorem panics_log (tree : Logger) (journal : Journal) (record : Record) (node : Nat) :
    (tree.log clock journal record).panics node = journal.panics node +
      (tree.calls node [record]).countP fun call => (call.2.react call.1).2 := by
  have seen := seen_log (Entry.panicOf?_ofRecords node) tree clock journal record
  rw [Journal.panics_eq, seen, List.length_append, panics_react, ← Journal.panics_eq, calls,
    List.flatMap_singleton, List.countP_flatMap]
  simp [Function.comp_def, List.countP_map]

theorem panics_logAll (tree : Logger) (journal : Journal) (records : List Record) (node : Nat) :
    (tree.logAll clock journal records).panics node = journal.panics node +
      (tree.calls node records).countP fun call => (call.2.react call.1).2 := by
  induction records generalizing journal with
  | nil => simp [logAll, calls]
  | cons record rest ih =>
    have split : tree.calls node (record :: rest) =
        tree.calls node [record] ++ tree.calls node rest := by simp [calls]
    change (tree.logAll clock (tree.log clock journal record) rest).panics node = _
    rw [ih, panics_log, split, List.countP_append, Nat.add_assoc]

end

end Logger

/-- No panic leaves a fan-out. Every logger below the fan-outs gets every record once for each of
its places, in order, and each fan-out counts the calls of its own children that panicked. -/
theorem tree_isolates_panics (id : Nat) (children : List Logger) (clock : Clock) (journal : Journal)
    (records : List Record) :
    let tree := Logger.fanout id children
    let after := tree.logAll clock journal records
    (∀ fan ∈ tree.fanouts, ∀ record, ((Logger.fanout fan.1 fan.2).react record).2 = false) ∧
    (∀ record, (tree.react record).1.filter (!·.isPanicNote) =
      tree.leaves.flatMap fun leaf => (leaf.react record).1) ∧
    (∀ keeper, after.heldBy keeper = journal.heldBy keeper ++ records.flatMap
      (List.replicate (tree.leaves.countP (·.keeper? = some keeper)))) ∧
    ∀ node, after.panics node = journal.panics node +
      (tree.calls node records).countP fun call => (call.2.react call.1).2 := by
  intro tree after
  refine ⟨fun fan _ record => Logger.react_fanout_calm record fan.1 fan.2, ?_, ?_, ?_⟩
  · exact fun record => Logger.react_leaves record tree
  · exact tree.heldBy_logAll clock journal records
  · exact tree.panics_logAll clock journal records

example :
    let tree := Logger.fanout 0 [.exploding fun _ => true,
      .fanout 1 [.recording 5, .exploding (· = .search)], .recording 5]
    let after := tree.logAll UInt64.ofNat (.start .empty .none) [default, failedSearch]
    after.heldBy (.recorder 5) = [default, default, failedSearch, failedSearch] ∧
      after.panics 0 = 2 ∧ after.panics 1 = 1 := ⟨rfl, rfl, rfl⟩

end StatsRelay.Log
