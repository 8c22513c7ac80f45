import StatsRelay.Proofs.Accounting
import StatsRelay.Proofs.RecordLines
import StatsRelay.Proofs.Trace

/-! Records that are logged as lines, and the lines replayed. A replay finds each record whose line
was kept, and rejects the lines of metrics. -/
namespace StatsRelay.Json.Value

theorem writeMembers_closed (members : List (String × Value)) :
    ∃ middle, writeMembers members = middle ++ ['\x7d'] := by
  induction members with
  | nil => exact ⟨[], rfl⟩
  | cons member rest ih =>
    obtain ⟨middle, closed⟩ := ih
    refine ⟨',' :: writeString member.1 ++ ':' :: member.2.write ++ middle, ?_⟩
    simp [writeMembers, closed]

theorem write_object (members : List (String × Value)) :
    ∃ middle, (object members).write = '\x7b' :: middle ++ ['\x7d'] := by
  cases members with
  | nil => exact ⟨[], rfl⟩
  | cons member rest =>
    obtain ⟨middle, closed⟩ := writeMembers_closed rest
    refine ⟨writeString member.1 ++ ':' :: member.2.write ++ middle, ?_⟩
    simp [write, closed]

theorem newline_not_mem_write (value : Value) : '\n' ∉ value.write := by
  intro newline_mem
  have printable := write_printable value '\n' newline_mem
  revert printable
  decide

end StatsRelay.Json.Value

namespace StatsRelay.Log

open StatsRelay.Config StatsRelay.Json StatsRelay.Stats StatsRelay.Text.Utf8

theorem encode_lineOf (value : Value) :
    encodeString (lineOf value) = encodeString value.compact ++ [Text.Lines.newline] := by
  simp [encodeString, lineOf, encode, String.utf8EncodeChar, Text.Lines.newline]

theorem newline_not_mem_compact (value : Value) :
    Text.Lines.newline ∉ encodeString value.compact := by
  rw [encodeString, newline_mem_encode, Value.compact, String.toList_ofList]
  exact value.newline_not_mem_write

/-- The line of an object is neither blank nor trimmed. -/
theorem Finding.ofLine_object (members : List (String × Value)) :
    ofLine (encodeString (lineOf (.object members))) =
      match Record.decodeLine (Value.object members).compact with
      | .ok found => .record found
      | .error fault => .invalid fault := by
  obtain ⟨middle, written⟩ := Value.write_object members
  have decoded := decodeString?_encodeString (Value.object members).compact
  have trimmed : Text.trim (Value.object members).compact = (Value.object members).compact := by
    rw [Value.compact, written]
    exact Text.trim_eq_self (by decide) (by decide)
  have nonempty : (Value.object members).compact ≠ "" := by
    rw [Value.compact, written]
    simp
  rw [encode_lineOf, ofLine_newline]
  cases read : Record.decodeLine (Value.object members).compact <;>
    simp [ofLine, decoded, trimmed, nonempty, read]

namespace Written

def record? : Written → Option Record
  | record _ held => some held
  | metric _ _ _ => none

def isMetric : Written → Bool
  | record _ _ => false
  | metric _ _ _ => true

def encoded (baseFields : SortedMap String String) (written : Written) : Bytes :=
  encodeString (written.line baseFields)

theorem ofLine_record (baseFields : SortedMap String String) (now : UInt64) (held : Record) :
    Finding.ofLine ((record now held).encoded baseFields) = .record held := by
  have read := decodeLine_record baseFields now held
  apply (Finding.ofLine_object _).trans
  rw [value] at read
  rw [read]

theorem ofLine_metric (baseFields : SortedMap String String) (now : UInt64) (held : Record)
    (measure : Measure) :
    ∃ fault, Finding.ofLine ((metric now held measure).encoded baseFields) = .invalid fault := by
  obtain ⟨fault, read⟩ := decodeLine_metric baseFields now held measure
  refine ⟨fault, (Finding.ofLine_object _).trans ?_⟩
  rw [value] at read
  rw [read]

variable (baseFields : SortedMap String String)

theorem record?_ofLine (written : Written) :
    (Finding.ofLine (written.encoded baseFields)).record? = written.record? := by
  cases written with
  | record now held =>
    rw [ofLine_record]
    rfl
  | metric now held measure =>
    obtain ⟨fault, found⟩ := ofLine_metric baseFields now held measure
    rw [found]
    rfl

theorem isRejected_ofLine (written : Written) :
    (Finding.ofLine (written.encoded baseFields)).isRejected = written.isMetric := by
  cases written with
  | record now held =>
    rw [ofLine_record]
    rfl
  | metric now held measure =>
    obtain ⟨fault, found⟩ := ofLine_metric baseFields now held measure
    rw [found]
    rfl

theorem encoded_line (written : Written) :
    ∃ body, Text.Lines.newline ∉ body ∧ written.encoded baseFields = body ++ [Text.Lines.newline] :=
  ⟨_, newline_not_mem_compact _, encode_lineOf _⟩

/-- What lines hold one by one is found in them together, perhaps with a blank end. -/
theorem findings_encoded (all : List Written) :
    let lines := all.map fun written => Finding.ofLine (written.encoded baseFields)
    findings (all.flatMap (encoded baseFields)) = lines ∨
      findings (all.flatMap (encoded baseFields)) = lines ++ [.blank] := by
  intro lines
  have ended : ∀ line ∈ all.map (encoded baseFields),
      ∃ body, Text.Lines.newline ∉ body ∧ line = body ++ [Text.Lines.newline] := by
    intro line line_mem
    obtain ⟨written, _, rfl⟩ := List.mem_map.mp line_mem
    exact written.encoded_line baseFields
  have split := Text.Lines.split_flatten ended
  have found := Text.Lines.map_splitOn Finding.ofLine Finding.ofLine_newline
    (all.flatMap (encoded baseFields))
  rw [List.flatMap_def, split, List.map_map, ← List.flatMap_def] at found
  exact found

theorem dispatched_encoded (all : List Written) :
    dispatched (all.flatMap (encoded baseFields)) = all.filterMap record? := by
  have found : (all.map fun written => Finding.ofLine (written.encoded baseFields)).filterMap
      Finding.record? = all.filterMap record? := by
    rw [List.filterMap_map]
    exact List.filterMap_congr fun written _ => written.record?_ofLine baseFields
  rw [← filterMap_findings]
  rcases findings_encoded baseFields all with same | longer
  · rw [same, found]
  · rw [longer, List.filterMap_append, found]
    simp [Finding.record?]

theorem length_rejectedLines_encoded (all : List Written) :
    (rejectedLines (all.flatMap (encoded baseFields))).length = all.countP isMetric := by
  have found : (all.map fun written => Finding.ofLine (written.encoded baseFields)).countP
      Finding.isRejected = all.countP isMetric := by
    rw [List.countP_map]
    exact List.countP_congr fun written _ => by simp [written.isRejected_ofLine baseFields]
  rw [← countP_findings]
  rcases findings_encoded baseFields all with same | longer
  · rw [same, found]
  · rw [longer, List.countP_append, found]
    simp [Finding.isRejected]

/-- Of which record a line is does not depend on the time that it shows. -/
theorem record?_ofRecord {backends : List Backend} {record : Record} {written : UInt64 → Written}
    (listed : written ∈ ofRecord backends record) (now : UInt64) :
    (written now).record? = (written 0).record? := by
  rcases List.mem_append.mp listed with line | metrics
  · obtain ⟨_, rfl⟩ : .json ∈ backends ∧ written = fun now => .record now record := by
      simpa using line
    rfl
  · obtain ⟨_, measure, rfl⟩ : .telemetry ∈ backends ∧
        ∃ measure, written = fun now => .metric now record measure := by
      by_cases measures : .telemetry ∈ backends
      · rw [if_pos measures] at metrics
        refine ⟨measures, ?_⟩
        rcases List.mem_cons.mp metrics with rfl | others
        · exact ⟨_, rfl⟩
        · rcases List.mem_pair.mp others with rfl | rfl <;> exact ⟨_, rfl⟩
      · simp [measures] at metrics
    rfl

/-- Every record has a line of its own, if such lines are written at all. -/
theorem filterMap_all {backends : List Backend} (json : .json ∈ backends) (clock : Clock)
    (records : List Record) : (all backends clock records).filterMap record? = records := by
  have each (record : Record) :
      (ofRecord backends record).filterMap (fun written => (written 0).record?) = [record] := by
    by_cases measures : .telemetry ∈ backends <;> simp [ofRecord, json, measures, record?]
  have timeless : (all backends clock records).filterMap record? =
      (records.flatMap (ofRecord backends)).filterMap fun written => (written 0).record? := by
    rw [all, List.filterMap_map, ← List.zipIdx_map_fst 1 (records.flatMap (ofRecord backends)),
      List.filterMap_map, List.zipIdx_map_fst]
    refine List.filterMap_congr ?_
    rintro ⟨written, number⟩ timed_mem
    obtain ⟨record, _, listed⟩ := List.mem_flatMap.mp (List.fst_mem_of_mem_zipIdx timed_mem)
    exact record?_ofRecord listed _
  rw [timeless, List.filterMap_flatMap]
  simp only [each]
  exact List.flatMap_singleton' records

theorem isMetric_all {backends : List Backend} (silent : .telemetry ∉ backends) (clock : Clock)
    (records : List Record) : ∀ written ∈ all backends clock records, written.isMetric = false := by
  intro written written_mem
  obtain ⟨⟨timed, number⟩, numbered, rfl⟩ := List.mem_map.mp written_mem
  obtain ⟨record, _, listed⟩ := List.mem_flatMap.mp (List.fst_mem_of_mem_zipIdx numbered)
  by_cases json : .json ∈ backends
  · obtain rfl : timed = fun now => .record now record := by
      simpa [ofRecord, json, silent] using listed
    rfl
  · simp [ofRecord, json, silent] at listed

end Written

/-- What a fresh recorder is told of the lines that a sink has kept. -/
def recapture (journal : Journal) (sinkId recorder : Nat) (clock : Clock) (files : FileSystem)
    (streams : Refusals) : Except SystemFault Summary × Journal :=
  replay (.recording recorder) clock (.start files streams)
    ⟨(journal.kept sinkId).flatMap encodeString, none⟩

/-- Records that are logged into a fresh stack with a backend that writes them are read back from
what its sink has kept. They are those whose lines were kept, and all else that was kept is
rejected: the lines of metrics. -/
theorem capture_replay {given settings : Settings} (valid : given.validate = .ok settings)
    (json : .json ∈ settings.backends) (id sinkId : Nat) (refuses : Nat → Option SinkError)
    (files : FileSystem) (streams : Refusals) (clock : Clock) (records : List Record)
    (recorder : Nat) (later : Clock) (others : FileSystem) (others' : Refusals) :
    let built := Stack.build id settings ⟨sinkId, .custom refuses⟩ (.start files streams)
    let journal := built.1.logAll clock built.2 records
    let kept := Written.kept refuses (Written.all settings.backends clock records)
    let captured := kept.filterMap Written.record?
    let replayed := recapture journal sinkId recorder later others others'
    journal.kept sinkId = kept.map (Written.line settings.baseFields) ∧
      replayed.2.recorded recorder = captured ∧
      captured.Sublist records ∧
      ∃ summary, replayed.1 = .ok summary ∧
        summary.accepted = captured.length ∧
        (∀ kind, summary.perKind.get? kind =
          if captured.countP (·.kind = kind) = 0 then none
          else some (captured.countP (·.kind = kind))) ∧
        summary.rejected = kept.countP Written.isMetric ∧
        (.telemetry ∉ settings.backends → summary.rejected = 0) := by
  intro built journal kept captured replayed
  have written : journal.kept sinkId = kept.map (Written.line settings.baseFields) :=
    Stack.kept_logAll rfl rfl (backends_of_validate valid) rfl records
  have bytes : (journal.kept sinkId).flatMap encodeString =
      kept.flatMap (Written.encoded settings.baseFields) := by
    rw [written, List.flatMap_map]
    rfl
  have found : dispatched ((journal.kept sinkId).flatMap encodeString) = captured := by
    rw [bytes, Written.dispatched_encoded]
  have rejected : (rejectedLines ((journal.kept sinkId).flatMap encodeString)).length =
      kept.countP Written.isMetric := by
    rw [bytes, Written.length_rejectedLines_encoded]
  have part : kept.Sublist (Written.all settings.backends clock records) := Written.kept_sublist ..
  have summary : replayed.1 = .ok (.of captured (kept.countP Written.isMetric)) := by
    rw [← found, ← rejected]
    exact congrArg Prod.fst (replay_text (.recording recorder) later (.start others others') _)
  refine ⟨written, ?_, ?_, _, summary, rfl, Summary.get?_countByKind captured, rfl, fun silent => ?_⟩
  · rw [← found]
    exact recorded_replay recorder later (.start others others') _
  · rw [← Written.filterMap_all json clock records]
    exact part.filterMap Written.record?
  · apply List.countP_eq_zero.mpr
    intro written written_mem
    simp [Written.isMetric_all silent clock records written (part.subset written_mem)]

def kindField : SortedMap String String := ⟨[("kind", "search")], by simp⟩

/-- One metric of a record is lost, and the record is not. -/
theorem capture_replay_second_refused :
    (recapture ((secondRefused kindField).1.logAll UInt64.ofNat (secondRefused kindField).2 [default])
      7 9 UInt64.ofNat .empty .none).2.recorded 9 = [default] := by
  have valid : Settings.validate ⟨1, [.telemetry, .json], .standard, kindField⟩ =
      .ok ⟨1, [.json, .telemetry], .standard, kindField⟩ := by rfl
  exact (capture_replay valid (by decide) 0 7 refusesSecond .empty .none UInt64.ofNat [default] 9
    UInt64.ofNat .empty .none).2.1

end StatsRelay.Log
