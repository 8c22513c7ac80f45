import StatsRelay.Proofs.Capture

/-! Lines as frames. Whatever loggers and telemetries are told, each line they hand to a sink is one
object and a newline, with no other newline in it, so lines that are strung together can be cut
apart again. -/
namespace StatsRelay.Json.Value

theorem Nested.mono {Good : Number → Prop} {room room' : Nat} {value : Value}
    (nested : value.Nested Good room) (less : room ≤ room') : value.Nested Good room' := by
  induction less with
  | refl => exact nested
  | step _ ih => exact ih.deeper

/-- Values that each have room enough have room enough together. -/
theorem exists_common {α : Type} {write : α → Value} {entries : List α}
    (each : ∀ entry ∈ entries, ∃ room, (write entry).Within room) :
    ∃ room, ∀ entry ∈ entries, (write entry).Within room := by
  induction entries with
  | nil => exact ⟨0, List.forall_mem_nil _⟩
  | cons entry rest ih =>
    obtain ⟨⟨room, first⟩, others⟩ := List.forall_mem_cons.mp each
    obtain ⟨room', others⟩ := ih others
    refine ⟨max room room', List.forall_mem_cons.mpr
      ⟨first.mono (Nat.le_max_left ..), fun entry entry_mem => ?_⟩⟩
    exact (others entry entry_mem).mono (Nat.le_max_right ..)

mutual

theorem exists_within : (value : Value) → ∃ room, value.Within room
  | .null => ⟨0, .null⟩
  | .bool value => ⟨0, .bool value⟩
  | .number _ => ⟨0, .number trivial⟩
  | .string text => ⟨0, .string text⟩
  | .array items => by
    obtain ⟨room, each⟩ := exists_common (exists_withinItems items)
    exact ⟨room + 1, .array each⟩
  | .object members => by
    obtain ⟨room, each⟩ := exists_common (exists_withinMembers members)
    exact ⟨room + 1, .object each⟩

theorem exists_withinItems : (items : List Value) → ∀ item ∈ items, ∃ room, item.Within room
  | [] => List.forall_mem_nil _
  | item :: rest => List.forall_mem_cons.mpr ⟨exists_within item, exists_withinItems rest⟩

theorem exists_withinMembers : (members : List (String × Value)) →
    ∀ member ∈ members, ∃ room, member.2.Within room
  | [] => List.forall_mem_nil _
  | (_, value) :: rest => List.forall_mem_cons.mpr ⟨exists_within value, exists_withinMembers rest⟩

end

end StatsRelay.Json.Value

namespace StatsRelay.Log

open StatsRelay.Json StatsRelay.Stats StatsRelay.Text
open StatsRelay.Text.Lines (newline)
open StatsRelay.Text.Utf8

/-- A line is the text of one object, which a reader with enough room reads to its end, and a
newline. -/
structure Framed (line : String) : Prop where
  object : ∃ text, line = text ++ "\n" ∧ ∃ room members,
    Denotes room text.toList (.object members) ∧
      readNested room text.toList = (.object members, some [])
  ended : ∃ body, newline ∉ body ∧ encodeString line = body ++ [newline]

theorem framed_lineOf (members : List (String × Value)) : Framed (lineOf (.object members)) := by
  obtain ⟨room, within⟩ := Value.exists_within (.object members)
  have denotes : Denotes room (Value.object members).compact.toList
      (.object (Document.ofMemberTexts members)) := by
    rw [Value.compact, String.toList_ofList]
    exact within.denotes_write mirrors_ofText fun n _ => n.denotes
  have read := denotes.read Literal.ends_nil
  rw [List.append_nil] at read
  exact ⟨⟨_, rfl, room, _, denotes, read⟩, _, newline_not_mem_compact _, encode_lineOf _⟩

theorem recordLine_framed (now : UInt64) (fields : Fields) (record : Record) :
    Framed (recordLine now fields record) := by
  rw [recordLine, Value.normal]
  exact framed_lineOf _

theorem Metric.line_framed (now : UInt64) (name : String) (metric : Metric) (tags : Tags) :
    Framed (metric.line now name tags) :=
  framed_lineOf _

def FramedAlways (line : UInt64 → String) : Prop := ∀ now, Framed (line now)

theorem Telemetry.write_framed (telemetry : Telemetry) (tags : Metric.Tags) (name : String)
    (metric : Metric) : ∀ line ∈ (telemetry.write tags name metric).lines, FramedAlways line :=
  List.forall_mem_singleton.mpr fun now => metric.line_framed now name _

namespace Logger

variable (record : Record)

mutual

theorem react_framed : (logger : Logger) →
    ∀ line ∈ (logger.react record).1.flatMap Action.lines, FramedAlways line
  | noop => List.forall_mem_nil _
  | counting _ => List.forall_mem_nil _
  | recording _ => List.forall_mem_nil _
  | tracing => List.forall_mem_nil _
  | json _ _ fields => List.forall_mem_singleton.mpr fun now => recordLine_framed now fields record
  | telemetry t => by
    intro line line_mem
    obtain ⟨action, listed, line_mem⟩ := List.mem_flatMap.mp line_mem
    obtain ⟨⟨name, metric⟩, _, rfl⟩ := List.mem_map.mp listed
    exact t.write_framed _ name metric line line_mem
  | fanout id children => reactAll_framed id 0 children
  | exploding _ => List.forall_mem_nil _

theorem reactAll_framed (id position : Nat) : (children : List Logger) →
    ∀ line ∈ (reactAll record id position children).flatMap Action.lines, FramedAlways line
  | [] => List.forall_mem_nil _
  | child :: rest => by
    have first := react_framed child
    have others := reactAll_framed id (position + 1) rest
    rw [reactAll]
    generalize child.react record = reaction at first ⊢
    obtain ⟨actions, panicked⟩ := reaction
    have notes : (if panicked then [Action.note (.panicked id),
        .note (.event (.loggerPanicked record.kind position))] else []).flatMap Action.lines = [] := by
      cases panicked <;> rfl
    simp only [List.flatMap_append, notes, List.append_nil, List.forall_mem_append]
    exact ⟨first, others⟩

end

end Logger

/-- What a logger or a telemetry is told. -/
inductive Call
  | log (logger : Logger) (record : Record)
  | emit (telemetry : Telemetry) (tags : Metric.Tags) (name : String) (metric : Metric)

namespace Call

def actions : Call → List Action
  | log logger record => (logger.react record).1
  | emit telemetry tags name metric => [telemetry.write tags name metric]

def lines (clock : Clock) (calls : List Call) : List String :=
  ((calls.flatMap fun call => call.actions.flatMap Action.lines).zipIdx 1).map
    fun (line, number) => line (clock number)

theorem actions_framed (call : Call) :
    ∀ line ∈ call.actions.flatMap Action.lines, FramedAlways line := by
  cases call with
  | log logger record => exact logger.react_framed record
  | emit telemetry tags name metric =>
    rw [actions, List.flatMap_singleton]
    exact telemetry.write_framed tags name metric

theorem lines_framed (clock : Clock) (calls : List Call) :
    ∀ line ∈ lines clock calls, Framed line := by
  intro line line_mem
  obtain ⟨⟨shown, number⟩, numbered, rfl⟩ := List.mem_map.mp line_mem
  obtain ⟨call, _, listed⟩ := List.mem_flatMap.mp (List.fst_mem_of_mem_zipIdx numbered)
  exact call.actions_framed shown listed _

end Call

/-- A logger of lines hands one line to its sink for each record, and a telemetry one for each
metric. Both are framed at any time, as is the line that stands in place of a metric without a text,
so all lines are found again in what any calls hand to sinks. -/
theorem lines_are_frames :
    (∀ (id : Nat) (sink : Sink) (fields : Fields) (record : Record), ∃ line,
      FramedAlways line ∧ (Logger.json id sink fields).react record =
        ([.write id sink (.record record.kind) line], false)) ∧
    (∀ (telemetry : Telemetry) (tags : Metric.Tags) (name : String) (metric : Metric),
      ∃ line, FramedAlways line ∧ telemetry.write tags name metric =
        .write telemetry.id telemetry.sink (.metric name) line) ∧
    Framed (Metric.encode none) ∧
    ∀ (clock : Clock) (calls : List Call),
      Lines.split ((Call.lines clock calls).flatMap encodeString) =
        (Call.lines clock calls).map encodeString := by
  refine ⟨fun id sink fields record =>
      ⟨_, fun now => recordLine_framed now fields record, rfl⟩,
    fun telemetry tags name metric => ⟨_, fun now => metric.line_framed now name _, rfl⟩,
    framed_lineOf _, fun clock calls => ?_⟩
  rw [List.flatMap_def]
  refine Lines.split_flatten fun line line_mem => ?_
  obtain ⟨text, written, rfl⟩ := List.mem_map.mp line_mem
  exact (Call.lines_framed clock calls text written).ended

end StatsRelay.Log
