import StatsRelay.Proofs.Framing
import StatsRelay.Proofs.Joined
import StatsRelay.Proofs.LiveReplaying

/-! Replays of the file that the stack itself writes to. -/
namespace StatsRelay.Log

open StatsRelay.Config StatsRelay.Json StatsRelay.Stats StatsRelay.Text
open StatsRelay.Text.Utf8

/-- A line with one object, whose first name starts with a letter that is written as it stands. -/
structure Lettered (line : Bytes) : Prop where
  spelled : ∃ members, line = encodeString (lineOf (.object members)) ∧
    ∃ c tail, Opens (Value.object members).write c tail

theorem Lettered.ended {line : Bytes} (lettered : Lettered line) :
    ∃ body, Lines.newline ∉ body ∧ line = body ++ [Lines.newline] := by
  obtain ⟨members, rfl, _⟩ := lettered.spelled
  exact ⟨_, newline_not_mem_compact _, encode_lineOf _⟩

theorem isBlank_of_filled {c : Char} (notBlank : Text.isBlank c = false) :
    Json.isBlank c = false := by
  rw [← Bool.not_eq_true]
  intro blank
  simp only [Json.isBlank, Bool.or_eq_true, decide_eq_true_eq] at blank
  rcases blank with ((rfl | rfl) | rfl) | rfl <;> exact absurd notBlank (by decide)

theorem whole_object (members : List (String × Value)) :
    Whole (Value.object members).write := by
  obtain ⟨room, within⟩ := Value.exists_within (.object members)
  exact whole_of_denotes (within.denotes_write mirrors_ofText fun n _ => n.denotes)

theorem decodeString?_append {bytes : Bytes} {first : String}
    (decoded : decodeString? bytes = some first) (text : String) :
    decodeString? (bytes ++ encodeString text) = some (first ++ text) := by
  obtain ⟨chars, plain, rfl⟩ := Option.map_eq_some_iff.mp decoded
  have joined : bytes ++ encodeString text = encode (chars ++ text.toList) := by
    rw [decode?_eq_some_iff.mp plain, encodeString, encode, encode, encode, List.flatMap_append]
  rw [joined, decodeString?, decode?_encode, Option.map_some, String.ofList_append,
    String.ofList_toList]

/-- A text that is not blank is cut before its first character that is not. -/
theorem exists_filled {text : String} (nonempty : trim text ≠ "") :
    ∃ blanks first more, text = .ofList blanks ++ .ofList (first :: more) ∧
      (∀ c ∈ blanks, Text.isBlank c = true) ∧ Text.isBlank first = false := by
  cases rest : text.toList.dropWhile Text.isBlank with
  | nil => exact absurd (trim_eq_empty_iff.mpr (List.dropWhile_eq_nil_iff.mp rest)) nonempty
  | cons first more =>
    have head := List.head_dropWhile_not Text.isBlank (l := text.toList) (by simp [rest])
    refine ⟨text.toList.takeWhile Text.isBlank, first, more, ?_, ?_, by simpa [rest] using head⟩
    · rw [← String.ofList_append, ← rest, List.takeWhile_append_dropWhile, String.ofList_toList]
    · exact List.all_eq_true.mp List.all_takeWhile

namespace Finding

theorem ofLine_blank_append {tail : Bytes} (blank : ofLine tail = .blank) (text : String) :
    ofLine (tail ++ encodeString text) = ofLine (encodeString text) := by
  rcases ofLine_cases tail with ⟨_, found⟩ | ⟨first, decoded, ⟨nothing, _⟩ |
    ⟨_, ⟨record, _, found⟩ | ⟨fault, _, found⟩⟩⟩
  · rw [blank] at found
    cases found
  · unfold ofLine
    rw [decodeString?_append decoded, decodeString?_encodeString]
    dsimp only
    rw [trim_blank_append (isBlank_of_trim nothing)]
  · rw [blank] at found
    cases found
  · rw [blank] at found
    cases found

/-- Something that stands before such an object on its line is no record together with it. -/
theorem ofLine_joined {tail line : Bytes} (notBlank : ofLine tail ≠ .blank)
    (lettered : Lettered line) (record : Record) : ofLine (tail ++ line) ≠ .record record := by
  obtain ⟨members, rfl, c, others, opens⟩ := lettered.spelled
  obtain ⟨middle, written⟩ := Value.write_object members
  rcases ofLine_cases tail with ⟨undecoded, _⟩ | ⟨text, decoded, ⟨_, blank⟩ | ⟨something, _⟩⟩
  · have starts : encodeString (lineOf (.object members)) =
        0x7B :: encode (middle ++ ['\x7d', '\n']) := by
      rw [encodeString, lineOf, Value.compact, written, String.toList_append, String.toList_ofList,
        encode, encode]
      simp [String.utf8EncodeChar]
    have undecoded' : decodeString? (tail ++ encodeString (lineOf (.object members))) = none := by
      rw [decodeString?, Option.map_eq_none_iff] at undecoded ⊢
      rw [starts, decode?_append_ascii tail _ (by decide), undecoded]
      rfl
    intro found
    unfold ofLine at found
    rw [undecoded'] at found
    cases found
  · exact absurd blank notBlank
  · obtain ⟨blanks, first, more, rfl, blank, apart⟩ := exists_filled something
    have joined : trim (.ofList blanks ++ .ofList (first :: more) ++ lineOf (.object members)) =
        .ofList (first :: more ++ (Value.object members).write) := by
      have cut : .ofList blanks ++ .ofList (first :: more) ++ lineOf (.object members) =
          String.ofList blanks ++
            (.ofList (first :: more ++ (Value.object members).write) ++ "\n") := by
        simp [lineOf, Value.compact, String.append_assoc]
      have ended : ∀ c ∈ "\n".toList, Text.isBlank c = true := List.all_eq_true.mp rfl
      rw [cut, trim_blank_append (by simpa using blank), trim_append_blanks ended, written]
      have kept : trim (.ofList (first :: (more ++ '\x7b' :: middle) ++ ['\x7d'])) = _ :=
        trim_eq_self apart (by decide)
      simpa using kept
    have none := parse?_joined opens (whole_object members) (isBlank_of_filled apart) more
    intro found
    unfold ofLine at found
    rw [decodeString?_append decoded] at found
    dsimp only at found
    rw [joined, Record.decodeLine, none] at found
    split at found <;> cases found

end Finding

theorem recordOf?_eq_some_iff {line : Bytes} {record : Record} :
    recordOf? line = some record ↔ Finding.ofLine line = .record record := by
  rw [← record?_ofLine]
  cases Finding.ofLine line <;> simp [Finding.record?]

theorem recordOf?_eq_none_iff {line : Bytes} :
    recordOf? line = none ↔ ∀ record, Finding.ofLine line ≠ .record record := by
  rw [← record?_ofLine]
  cases Finding.ofLine line <;> simp [Finding.record?]

theorem isFilled_iff {line : Bytes} : isFilled line = true ↔ Finding.ofLine line ≠ .blank := by
  rcases Finding.ofLine_cases line with ⟨decoded, found⟩ | ⟨text, decoded, ⟨nothing, found⟩ |
    ⟨something, ⟨record, _, found⟩ | ⟨fault, _, found⟩⟩⟩
  · simp [isFilled, decoded, found]
  · simp [isFilled, decoded, found, nothing]
  · simp [isFilled, decoded, found, something]
  · simp [isFilled, decoded, found, something]

theorem recordOf?_blank_append {tail line : Bytes} (lettered : Lettered line)
    (blank : isFilled tail ≠ true) : recordOf? (tail ++ line) = recordOf? line := by
  obtain ⟨members, rfl, _⟩ := lettered.spelled
  rw [← record?_ofLine, Finding.ofLine_blank_append (not_not.mp fun notBlank =>
    blank (isFilled_iff.mpr notBlank)), record?_ofLine]

/-- A line that is joined with something holds no record, unless that is blank and the line by
itself holds one. -/
theorem recordOf?_joined {tail line : Bytes} (lettered : Lettered line)
    (barren : isFilled tail = true ∨ recordOf? line = none) : recordOf? (tail ++ line) = none := by
  by_cases tailFilled : isFilled tail = true
  · exact recordOf?_eq_none_iff.mpr (Finding.ofLine_joined (isFilled_iff.mp tailFilled) lettered)
  · rw [recordOf?_blank_append lettered tailFilled]
    exact barren.resolve_left tailFilled

theorem flatMap_dispatched {lines : List Bytes} (whole : AreLines lines) :
    lines.flatMap dispatched = lines.filterMap recordOf? := by
  rw [List.filterMap_eq_flatMap_toList]
  apply List.flatMap_congr
  intro line line_mem
  obtain ⟨body, noNewline, rfl⟩ := whole line line_mem
  have same : recordOf? (body ++ [Lines.newline]) = recordOf? body := by
    rw [← record?_ofLine, Finding.ofLine_newline, record?_ofLine]
  have empty : recordOf? [] = none := rfl
  rw [same, dispatched, segments_append_newline, segments, List.splitOn_eq_singleton noNewline]
  cases found : recordOf? body <;> simp [segments, found, empty]

theorem dispatched_flatten {lines : List Bytes} (whole : AreLines lines) {tail : Bytes}
    (noNewline : Lines.newline ∉ tail) :
    dispatched (lines.flatten ++ tail) =
      lines.filterMap recordOf? ++ (recordOf? tail).toList := by
  have last : dispatched tail = (recordOf? tail).toList := by
    rw [dispatched, segments, List.splitOn_eq_singleton noNewline]
    cases found : recordOf? tail <;> simp [found]
  rw [dispatched_lines whole, last, flatMap_dispatched whole]

theorem dispatched_of_areLines {lines : List Bytes} (whole : AreLines lines) :
    dispatched lines.flatten = lines.filterMap recordOf? := by
  have held : dispatched (lines.flatten ++ []) = _ := dispatched_flatten whole List.not_mem_nil
  have empty : recordOf? [] = none := rfl
  rwa [empty, List.append_nil, Option.toList_none, List.append_nil] at held

namespace LiveReplay

section

variable {kind : Record → List Bytes → Prop} {goal : Bytes → Prop}

/-- Whatever lines of a kind are added for each record that is read, what is left to be read comes to
a goal, and the records are those that are read on the way. -/
inductive Leads (kind : Record → List Bytes → Prop) (goal : Bytes → Prop) :
    Bytes → List Record → Prop
  | here {unread : Bytes} (reached : goal unread) : Leads kind goal unread []
  | passed {unread : Bytes} {records : List Record} (nonempty : (Lines.next unread).1 ≠ [])
    (found : recordOf? (Lines.next unread).1 = none)
    (rest : Leads kind goal (Lines.next unread).2 records) : Leads kind goal unread records
  | echoed {unread : Bytes} {record : Record} {records : List Record}
    (nonempty : (Lines.next unread).1 ≠ [])
    (found : recordOf? (Lines.next unread).1 = some record)
    (rest : ∀ fresh, kind record fresh →
      Leads kind goal ((Lines.next unread).2 ++ fresh.flatten) records) :
    Leads kind goal unread (record :: records)

/-- Lines that are added for records one after another. -/
inductive Added (kind : Record → List Bytes → Prop) : List Record → List Bytes → Prop
  | nil : Added kind [] []
  | cons {record : Record} {records : List Record} {fresh more : List Bytes}
    (first : kind record fresh) (others : Added kind records more) :
    Added kind (record :: records) (fresh ++ more)

theorem Added.forall_mem {good : Bytes → Prop}
    (each : ∀ record fresh, kind record fresh → ∀ line ∈ fresh, good line) {records : List Record}
    {fresh : List Bytes} (added : Added kind records fresh) : ∀ line ∈ fresh, good line := by
  induction added with
  | nil => exact List.forall_mem_nil _
  | cons first _ ih => exact List.forall_mem_append.mpr ⟨each _ _ first, ih⟩

/-- Whole lines are read one after another, and what is added for them comes behind all that follows
them. -/
theorem leads_lines {lines : List Bytes} (whole : AreLines lines) {behind : Bytes}
    {records : List Record}
    (rest : ∀ fresh, Added kind (lines.filterMap recordOf?) fresh →
      Leads kind goal (behind ++ fresh.flatten) records) :
    Leads kind goal (lines.flatten ++ behind) (lines.filterMap recordOf? ++ records) := by
  induction lines generalizing behind with
  | nil => simpa using rest [] .nil
  | cons line others ih =>
    obtain ⟨⟨body, noNewline, rfl⟩, whole'⟩ := List.forall_mem_cons.mp whole
    have cut : Lines.next (((body ++ [Lines.newline]) :: others).flatten ++ behind) =
        (body ++ [Lines.newline], others.flatten ++ behind) := by
      rw [List.flatten_cons, List.append_assoc, List.append_assoc, List.singleton_append,
        Lines.next_line noNewline]
    have nonempty : (Lines.next (((body ++ [Lines.newline]) :: others).flatten ++ behind)).1 ≠ [] := by
      rw [cut]
      simp
    cases found : recordOf? (body ++ [Lines.newline]) with
    | none =>
      rw [List.filterMap_cons_none found] at rest ⊢
      refine .passed nonempty (by rw [cut]; exact found) ?_
      rw [cut]
      exact ih whole' rest
    | some record =>
      rw [List.filterMap_cons_some found] at rest ⊢
      refine .echoed nonempty (by rw [cut]; exact found) fun fresh first => ?_
      rw [cut, List.append_assoc]
      refine ih whole' fun more added => ?_
      have both := rest _ (.cons first added)
      rwa [List.flatten_append, ← List.append_assoc] at both

/-- Lines without records lead to nothing but the end. -/
theorem leads_recordless {lines : List Bytes} (whole : AreLines lines)
    (recordless : lines.filterMap recordOf? = []) : Leads kind (· = []) lines.flatten [] := by
  have read : Leads kind (· = []) (lines.flatten ++ []) (lines.filterMap recordOf? ++ []) :=
    leads_lines whole fun fresh added => by
      rw [recordless] at added
      cases added
      exact .here rfl
  rwa [recordless, List.append_nil] at read

variable {logger : Logger} {clock : Clock} {place : List String} {live live' : LiveReplay}
  {unread : Bytes}

theorem Stands.unread_eq (stands : Stands place (· = unread) live) :
    live.unread place = unread := by
  obtain ⟨content, held, _, same⟩ := stands
  rw [LiveReplay.unread, held.entry]
  exact same

theorem next?_of_filled (nonempty : (Lines.next (live.unread place)).1 ≠ []) :
    let line := (Lines.next (live.unread place)).1
    live.next? logger clock place =
      some ⟨live.offset + line.length, live.replay.step logger clock line⟩ := by
  intro line
  cases next : live.next? logger clock place with
  | none => exact absurd (next?_eq_none next) nonempty
  | some live' => rw [(next?_eq_some next).2]

/-- A run that leads to a goal comes to it, having replayed the lines with the records on the way; how
it goes on from there is how it goes on from the start. -/
theorem Leads.run (adds : logger.Adds clock place kind) {records : List Record}
    (leads : Leads kind goal unread records) (stands : Stands place (· = unread) live) :
    ∃ (lines : List Bytes) (live' : LiveReplay), lines.filterMap recordOf? = records ∧
      live'.replay = lines.foldl (Replay.step logger clock) live.replay ∧
      Stands place goal live' ∧ ∀ limit, finish? logger clock place (lines.length + limit) live =
        finish? logger clock place limit live' := by
  induction leads generalizing live with
  | here reached =>
    obtain ⟨content, held, inContent, rfl⟩ := stands
    exact ⟨[], live, rfl, rfl, ⟨content, held, inContent, reached⟩, fun limit => by simp⟩
  | @passed unread records nonempty found _ ih =>
    have next : live.next? logger clock place = _ :=
      next?_of_filled (by rwa [stands.unread_eq])
    rw [stands.unread_eq] at next
    have stands' : Stands place (· = (Lines.next unread).2) _ := stands.next? adds next
      (by rintro _ rfl _ _; rfl)
      (by
        rintro _ rfl _ record read
        rw [recordOf?_eq_some_iff.mpr read] at found
        cases found)
    obtain ⟨lines, live', same, replayed, reached, goes⟩ := ih stands'
    refine ⟨(Lines.next unread).1 :: lines, live', ?_, replayed, reached, fun limit => ?_⟩
    · rw [List.filterMap_cons_none found, same]
    · rw [List.length_cons, Nat.succ_add, finish?, next]
      exact goes limit
  | @echoed unread record records nonempty found _ ih =>
    have next : live.next? logger clock place = _ :=
      next?_of_filled (by rwa [stands.unread_eq])
    rw [stands.unread_eq] at next
    have stands' : Stands place (fun left => ∃ fresh, kind record fresh ∧
        left = (Lines.next unread).2 ++ List.flatten fresh) _ := stands.next? adds next
      (by
        rintro _ rfl _ barren
        exact absurd (recordOf?_eq_some_iff.mp found) (barren record))
      (by
        rintro _ rfl _ record' read fresh added
        rw [recordOf?_eq_some_iff.mpr read] at found
        cases found
        exact ⟨fresh, added, rfl⟩)
    obtain ⟨content, held, inContent, fresh, added, left⟩ := stands'
    obtain ⟨lines, live', same, replayed, reached, goes⟩ :=
      ih fresh added ⟨content, held, inContent, left⟩
    refine ⟨(Lines.next unread).1 :: lines, live', ?_, replayed, reached, fun limit => ?_⟩
    · rw [List.filterMap_cons_some found, same]
    · rw [List.length_cons, Nat.succ_add, finish?, next]
      exact goes limit

/-- What has come to an end within a limit has come to the same within any greater one. -/
theorem finish?_mono {limit : Nat} {done : Replay}
    (finished : finish? logger clock place limit live = some done) (more : Nat) :
    finish? logger clock place (limit + more) live = some done := by
  induction limit generalizing live with
  | zero => cases finished
  | succ limit ih =>
    rw [finish?] at finished
    rw [Nat.succ_add, finish?]
    cases next : live.next? logger clock place with
    | none =>
      rw [next] at finished
      exact finished
    | some live' =>
      rw [next] at finished
      exact ih finished

theorem finish?_unique {limit limit' : Nat} {done done' : Replay}
    (finished : finish? logger clock place limit live = some done)
    (finished' : finish? logger clock place limit' live = some done') : done = done' := by
  have one := finish?_mono finished limit'
  have other := finish?_mono finished' limit
  rw [Nat.add_comm] at other
  exact Option.some.inj (one.symm.trans other)

theorem stands_start {journal : Journal} {content : Bytes}
    (held : journal.files.Holds place content) : Stands place (· = content) (.start journal) :=
  ⟨content, held, Nat.zero_le _, rfl⟩

/-- A run that leads to the end ends within some limit. -/
theorem Leads.finish? (adds : logger.Adds clock place kind) {records : List Record}
    (leads : Leads kind (· = []) unread records) (stands : Stands place (· = unread) live) :
    ∃ lines : List Bytes, lines.filterMap recordOf? = records ∧
      LiveReplay.finish? logger clock place (lines.length + 1) live =
        some (lines.foldl (Replay.step logger clock) live.replay) := by
  obtain ⟨lines, live', same, replayed, reached, goes⟩ := leads.run adds stands
  refine ⟨lines, same, ?_⟩
  have empty : (Lines.next (live'.unread place)).1 = [] := by
    rw [reached.unread_eq]
    rfl
  rw [goes, LiveReplay.finish?]
  cases next : live'.next? logger clock place with
  | none => rw [replayed]
  | some more => exact absurd empty (next?_eq_some next).1

/-- A run that leads to a record on a line of its own has no end. -/
theorem Leads.endless (adds : logger.Adds clock place kind)
    (echoing : ∀ record fresh, kind record fresh → Echoing fresh) {records : List Record}
    (leads : Leads kind Fertile unread records) (stands : Stands place (· = unread) live)
    (limit : Nat) : LiveReplay.finish? logger clock place limit live = none := by
  obtain ⟨lines, live', _, _, fertile, goes⟩ := leads.run adds stands
  have never := finish?_of_fertile (adds.mono echoing) fertile
  rw [Option.eq_none_iff_forall_ne_some]
  intro done finished
  have later := finish?_mono finished lines.length
  rw [Nat.add_comm, goes, never] at later
  cases later

end

end LiveReplay

/-- What a replay comes to within any limit is what it comes to. -/
theorem replayFile_of_finish? {logger : Logger} {clock : Clock} {place : List String}
    {journal : Journal} {content : Bytes} (held : journal.files.Holds place content) {limit : Nat}
    {done : Replay}
    (finished : LiveReplay.finish? logger clock place limit (.start journal) = some done)
    (ends : (replayFile logger clock journal place).isSome) :
    replayFile logger clock journal place = some (.ok done.summary, done.journal) := by
  rw [replayFile, held.entry] at ends ⊢
  dsimp only at ends ⊢
  rw [Option.isSome_map, Option.isSome_iff_exists] at ends
  obtain ⟨last, within⟩ := ends
  rw [within, LiveReplay.finish?_unique within finished]
  rfl

namespace Stack

variable {stack : Stack} {place : List String} {fresh : List Bytes}

def Writes (stack : Stack) (place : List String) : Prop :=
  (.json ∈ stack.backends ∨ .telemetry ∈ stack.backends) ∧ stack.sink.target.isAt place

theorem echo_eq_nil_iff (record : Record) :
    stack.echo place record = [] ↔ ¬stack.Writes place := by
  rw [echo, Writes]
  by_cases here : stack.sink.target.isAt place = true
  · by_cases json : .json ∈ stack.backends <;> by_cases meters : .telemetry ∈ stack.backends <;>
      simp [here, json, meters, metricLines, Metric.ofRecord]
  · simp [here]

theorem recordLine_lettered (now : UInt64) (record : Record) :
    Lettered (encodeString (recordLine now stack.fields record)) := by
  rw [recordLine_eq, Written.line, Written.value]
  refine ⟨_, rfl, ?_⟩
  cases stack.baseFields.isEmpty with
  | false =>
    exact ⟨'f', opens_object (by decide) (by decide) (by decide) (by decide) _ _⟩
  | true =>
    exact ⟨'k', opens_object (by decide) (by decide) (by decide) (by decide) _ _⟩

theorem metric_lettered (now : UInt64) (name : String) (metric : Metric) (tags : Metric.Tags) :
    Lettered (encodeString (metric.line now name tags)) :=
  ⟨_, rfl, 't', opens_object (by decide) (by decide) (by decide) (by decide) _ _⟩

theorem echo_lettered {record : Record} (shown : Action.Shown (stack.echo place record) fresh) :
    ∀ line ∈ fresh, Lettered line := by
  refine shown.forall_mem fun line line_mem now => ?_
  rw [echo] at line_mem
  split at line_mem
  · rcases List.mem_append.mp line_mem with listed | listed
    · split at listed
      · rw [List.mem_singleton.mp listed]
        exact recordLine_lettered now record
      · cases listed
    · split at listed
      · obtain ⟨⟨name, metric⟩, _, rfl⟩ := List.mem_map.mp listed
        exact metric_lettered now name metric _
      · cases listed
  · cases line_mem

end Stack

end StatsRelay.Log
