import StatsRelay.Proofs.Paths
import StatsRelay.Proofs.SelfReplaying

/-! Which replays of a file that the stack writes to come to an end, and what they have replayed by
then. -/
namespace StatsRelay

open StatsRelay.Text
open StatsRelay.Text.Utf8 (Bytes)

namespace Log

open StatsRelay.Stats (Record)

namespace LiveReplay

/-- The first of the lines that are added ends the unfinished one. -/
theorem fertile_joined {tail line : Bytes} {others : List Bytes} (noNewline : Lines.newline ∉ tail)
    (whole : AreLines (line :: others))
    (found : ∃ line' ∈ (tail ++ line) :: others, ∃ record,
      Finding.ofLine line' = .record record) :
    Fertile (tail ++ (line :: others).flatten) := by
  obtain ⟨⟨body, noNewline', rfl⟩, ended⟩ := List.forall_mem_cons.mp whole
  have joined : AreLines ((tail ++ (body ++ [Lines.newline])) :: others) :=
    List.forall_mem_cons.mpr ⟨⟨tail ++ body, by simp [noNewline, noNewline'], by simp⟩, ended⟩
  exact ⟨_, by simp, joined, found⟩

end LiveReplay

namespace Stack

variable {stack : Stack} {place : List String} {content : Bytes}

instance : Decidable (stack.Writes place) := inferInstanceAs (Decidable (_ ∧ _))

/-- The replay of a file with some content comes to an end: the stack does not add records to it, or
finds none in it, or finds just one and loses its own behind something unfinished. -/
def Stops (stack : Stack) (place : List String) (content : Bytes) : Prop :=
  stack.Records place → dispatched content = [] ∨
    (dispatched (Lines.finished content)).length = 1 ∧ isFilled (Lines.unfinished content) = true

/-- The records that such a replay has dispatched at its end: all that the file held, but for one on
an unfinished line behind which the stack has added something. -/
def reached (stack : Stack) (place : List String) (content : Bytes) : List Record :=
  if stack.Writes place ∧ dispatched (Lines.finished content) ≠ [] then
    dispatched (Lines.finished content)
  else dispatched content

theorem Records.writes (records : stack.Records place) : stack.Writes place :=
  ⟨.inl records.1, records.2⟩

def Adds (stack : Stack) (place : List String) : List Record → List Bytes → Prop :=
  LiveReplay.Added fun record => Action.Shown (stack.echo place record)

section

variable {records : List Record} {fresh : List Bytes} (added : stack.Adds place records fresh)
include added

theorem Adds.lettered : ∀ line ∈ fresh, Lettered line :=
  LiveReplay.Added.forall_mem (fun _ _ shown => echo_lettered shown) added

theorem Adds.areLines : AreLines fresh := fun line line_mem => (added.lettered line line_mem).ended

theorem Adds.recordless (foreign : ¬stack.Records place) : fresh.filterMap recordOf? = [] := by
  refine List.filterMap_eq_nil_iff.mpr (LiveReplay.Added.forall_mem (fun _ _ shown => ?_) added)
  exact fun line line_mem =>
    recordOf?_eq_none_iff.mpr ((echo_settling foreign shown).barren line line_mem).recordless

theorem Adds.eq_nil (silent : records = [] ∨ ¬stack.Writes place) : fresh = [] := by
  rcases silent with rfl | silent
  · cases added
    rfl
  · induction added with
    | nil => rfl
    | cons shown _ ih =>
      rw [(echo_eq_nil_iff _).mpr silent] at shown
      rw [List.forall₂_nil_left_iff.mp shown, ih, List.nil_append]

theorem Adds.ne_nil (writes : stack.Writes place) (some : records ≠ []) : fresh ≠ [] := by
  cases added with
  | nil => exact absurd rfl some
  | @cons record _ _ _ shown _ =>
    refine List.append_ne_nil_of_left_ne_nil ?_ _
    rintro rfl
    exact (echo_eq_nil_iff record).mp (List.forall₂_nil_right_iff.mp shown) writes

/-- What is added for the records of the lines before it ends an unfinished line so that it holds no
record. -/
theorem Adds.exists_joined {tail : Bytes} (writes : stack.Writes place) (some : records ≠ [])
    (single : stack.Records place → records.length = 1 ∧ isFilled tail = true) :
    ∃ line others, fresh = line :: others ∧ recordOf? (tail ++ line) = none ∧
      others.filterMap recordOf? = [] := by
  by_cases here : stack.Records place
  · obtain ⟨one, nonempty⟩ := single here
    obtain ⟨record, rfl⟩ := List.length_eq_one_iff.mp one
    obtain - | ⟨shown, nothing⟩ := added
    cases nothing
    obtain ⟨line, others, rfl, _, _, _, barren⟩ := echo_of_records here shown
    have lettered := echo_lettered shown line List.mem_cons_self
    refine ⟨line, others, by simp, recordOf?_joined lettered (.inl nonempty), ?_⟩
    exact List.filterMap_eq_nil_iff.mpr fun other other_mem =>
      recordOf?_eq_none_iff.mpr (barren other other_mem).recordless
  · obtain ⟨line, others, rfl⟩ := List.exists_cons_of_ne_nil (added.ne_nil writes some)
    have lettered := added.lettered line List.mem_cons_self
    have none := List.filterMap_eq_nil_iff.mp (added.recordless here)
    obtain ⟨first, none⟩ := List.forall_mem_cons.mp none
    exact ⟨line, others, rfl, recordOf?_joined lettered (.inr first),
      List.filterMap_eq_nil_iff.mpr none⟩

end

section

variable {lines : List Bytes} {tail : Bytes} (whole : AreLines lines) (noNewline : Lines.newline ∉ tail)
include whole noNewline

theorem stops_flatten_iff : stack.Stops place (lines.flatten ++ tail) ↔
    (stack.Records place →
      (lines.filterMap recordOf? = [] ∧ recordOf? tail = none) ∨
        (lines.filterMap recordOf?).length = 1 ∧ isFilled tail = true) := by
  rw [Stops, Lines.finished_flatten whole noNewline, Lines.unfinished_flatten whole noNewline,
    dispatched_flatten whole noNewline, dispatched_of_areLines whole, List.append_eq_nil_iff,
    Option.toList_eq_nil_iff]

theorem reached_flatten : stack.reached place (lines.flatten ++ tail) =
    if stack.Writes place ∧ lines.filterMap recordOf? ≠ [] then lines.filterMap recordOf?
    else lines.filterMap recordOf? ++ (recordOf? tail).toList := by
  rw [reached, Lines.finished_flatten whole noNewline, dispatched_flatten whole noNewline,
    dispatched_of_areLines whole]

theorem leads_of_stops (stops : stack.Stops place (lines.flatten ++ tail)) :
    LiveReplay.Leads (fun record => Action.Shown (stack.echo place record)) (· = [])
      (lines.flatten ++ tail) (stack.reached place (lines.flatten ++ tail)) := by
  rw [stops_flatten_iff whole noNewline] at stops
  rw [reached_flatten whole noNewline]
  by_cases behind : stack.Writes place ∧ lines.filterMap recordOf? ≠ []
  · rw [if_pos behind, ← List.append_nil (lines.filterMap recordOf?)]
    refine LiveReplay.leads_lines whole fun fresh (added : stack.Adds place _ fresh) => ?_
    -- The first line that is added ends the unfinished one, and neither holds a record then.
    obtain ⟨line, others, rfl, joined, recordless⟩ := added.exists_joined behind.1 behind.2
      fun records => (stops records).resolve_left fun none => behind.2 none.1
    obtain ⟨⟨body, noNewline', rfl⟩, ended⟩ := List.forall_mem_cons.mp added.areLines
    have whole' : AreLines ((tail ++ (body ++ [Lines.newline])) :: others) :=
      List.forall_mem_cons.mpr ⟨⟨tail ++ body, by simp [noNewline, noNewline'], by simp⟩, ended⟩
    have none : ((tail ++ (body ++ [Lines.newline])) :: others).filterMap recordOf? = [] := by
      rw [List.filterMap_cons_none joined, recordless]
    have read : LiveReplay.Leads (fun record => Action.Shown (stack.echo place record)) _ _ _ :=
      LiveReplay.leads_recordless whole' none
    rwa [List.flatten_cons, List.append_assoc] at read
  · rw [if_neg behind]
    refine LiveReplay.leads_lines whole fun fresh (added : stack.Adds place _ fresh) => ?_
    -- Where nothing was added before it, the unfinished line is read as it stands.
    have nothing : fresh = [] := added.eq_nil (by
      by_cases writes : stack.Writes place
      · exact .inl (not_not.mp fun some => behind ⟨writes, some⟩)
      · exact .inr writes)
    rw [nothing, List.flatten_nil, List.append_nil]
    have cut := Lines.next_body noNewline
    by_cases empty : tail = []
    · subst empty
      exact .here rfl
    have nonempty : (Lines.next tail).1 ≠ [] := by rwa [cut]
    cases found : recordOf? tail with
    | none => exact .passed nonempty (by rwa [cut]) (by rw [cut]; exact .here rfl)
    | some record =>
      have foreign : ¬stack.Records place := by
        intro records
        rcases stops records with ⟨_, none⟩ | ⟨one, _⟩
        · simp [found] at none
        · exact behind ⟨records.writes, fun none => by simp [none] at one⟩
      refine .echoed nonempty (by rwa [cut]) fun more shown => ?_
      have added' : stack.Adds place [record] (more ++ []) := .cons shown .nil
      rw [List.append_nil] at added'
      rw [cut, List.nil_append]
      exact LiveReplay.leads_recordless added'.areLines (added'.recordless foreign)

theorem leads_of_not_stops (endless : ¬stack.Stops place (lines.flatten ++ tail)) :
    ∃ records, LiveReplay.Leads (fun record => Action.Shown (stack.echo place record))
      LiveReplay.Fertile (lines.flatten ++ tail) records := by
  rw [stops_flatten_iff whole noNewline, Classical.not_imp, not_or] at endless
  obtain ⟨records, some, several⟩ := endless
  cases listed : lines.filterMap recordOf? with
  | nil =>
    -- Nothing stands between the record of the unfinished line and the line that is added for it.
    obtain ⟨record, found⟩ := Option.ne_none_iff_exists'.mp fun none => some ⟨listed, none⟩
    refine ⟨lines.filterMap recordOf? ++ [record], LiveReplay.leads_lines whole
      fun fresh (added : stack.Adds place _ fresh) => ?_⟩
    rw [added.eq_nil (.inl listed), List.flatten_nil, List.append_nil]
    have cut := Lines.next_body noNewline
    have nonempty : (Lines.next tail).1 ≠ [] := by
      rw [cut]
      rintro rfl
      cases found
    refine .echoed nonempty (by rwa [cut]) fun more shown => .here ?_
    rw [cut]
    exact (echo_echoing records shown).fertile (List.forall_mem_nil _)
  | cons record others =>
    refine ⟨lines.filterMap recordOf? ++ [], LiveReplay.leads_lines whole
      fun fresh (added : stack.Adds place _ fresh) => .here ?_⟩
    have ended := added.areLines
    rw [listed] at added
    obtain - | ⟨shown, more⟩ := added
    obtain ⟨line, behind, rfl, _, found, _, _⟩ := echo_of_records records shown
    have lettered := echo_lettered shown line List.mem_cons_self
    apply LiveReplay.fertile_joined noNewline ended
    by_cases tailFilled : isFilled tail = true
    · cases others with
      | nil => exact absurd ⟨by rw [listed]; rfl, tailFilled⟩ several
      | cons record' others =>
        obtain - | ⟨shown', _⟩ := more
        obtain ⟨line', _, rfl, _, found', _, _⟩ := echo_of_records records shown'
        exact ⟨line', by simp, record', found'⟩
    · refine ⟨tail ++ line, List.mem_cons_self, record, ?_⟩
      rw [← recordOf?_eq_some_iff, recordOf?_blank_append lettered tailFilled]
      exact recordOf?_eq_some_iff.mpr found

end

end Stack

theorem Summary.accepted_of (records : List Record) (rejected : Nat) :
    (Summary.of records rejected).accepted = records.length := rfl

theorem Replay.run_summary (logger : Logger) (clock : Clock) (journal : Journal) (lines : List Bytes) :
    (Replay.run logger clock journal lines).summary =
      .of (lines.filterMap recordOf?)
        (lines.countP fun line => isFilled line && (recordOf? line).isNone) := by
  have start : Summary.empty = .of [] 0 := rfl
  have found : (lines.map Finding.ofLine).filterMap Finding.record? =
      lines.filterMap recordOf? := by
    rw [List.filterMap_map]
    exact List.filterMap_congr fun line _ => record?_ofLine line
  have lost : (lines.map Finding.ofLine).countP Finding.isRejected =
      lines.countP fun line => isFilled line && (recordOf? line).isNone := by
    rw [List.countP_map]
    exact List.countP_congr fun line _ => by simp [isRejected_ofLine]
  rw [Replay.run, Replay.foldl_step]
  change (lines.map Finding.ofLine).foldl Summary.add .empty = _
  rw [start, Summary.foldl_add_of, found, lost, List.nil_append, Nat.zero_add]

section

variable {stack : Stack} (normal : stack.backends = Labelled.all.filter (· ∈ stack.backends))
  (clock : Clock) {journal : Journal} {place : List String} {content : Bytes}
  (held : journal.files.Holds place content)
include normal held

/-- A replay that comes to an end reads some lines, and dispatches the records that it reaches. -/
theorem replayFile_of_stops (stops : stack.Stops place content) :
    ∃ lines, let done := Replay.run stack.logger clock journal lines
      replayFile stack.logger clock journal place = some (.ok done.summary, done.journal) ∧
        lines.filterMap recordOf? = stack.reached place content := by
  obtain ⟨kept, tail, rfl, whole, noNewline, _⟩ := Lines.exists_lines content
  obtain ⟨lines, found, finished⟩ := (Stack.leads_of_stops whole noNewline stops).finish?
    (stack.adds_echo normal clock) (LiveReplay.stands_start held)
  have ends : (replayFile stack.logger clock journal place).isSome := by
    by_cases records : stack.Records place
    · rw [← Option.ne_none_iff_isSome]
      intro endless
      rw [finish?_of_replayFile (Stack.echoes normal clock records) endless] at finished
      cases finished
    · exact replayFile_isSome (Stack.settles normal clock records) journal
  exact ⟨lines, replayFile_of_finish? held finished ends, found⟩

/-- A replay that does not stop has no outcome, and no limit of reads is enough for it. -/
theorem replayFile_of_not_stops (endless : ¬stack.Stops place content) :
    replayFile stack.logger clock journal place = none ∧
      ∀ limit, LiveReplay.finish? stack.logger clock place limit (.start journal) = none := by
  have records : stack.Records place := (Classical.not_imp.mp endless).1
  obtain ⟨kept, tail, rfl, whole, noNewline, _⟩ := Lines.exists_lines content
  obtain ⟨_, leads⟩ := Stack.leads_of_not_stops whole noNewline endless
  have never := leads.endless (stack.adds_echo normal clock)
    (fun _ _ shown => Stack.echo_echoing records shown) (LiveReplay.stands_start held)
  refine ⟨?_, never⟩
  rw [replayFile, held.entry]
  exact Option.map_eq_none_iff.mpr (never _)

end

end Log

namespace Command

variable {surroundings : Surroundings} {mode : OutputMode} {input config overrides : Option String}
  {stack : Log.Stack} {journal : Log.Journal} {place : List String} {content : Bytes}

theorem replay_file
    (opened : openStack surroundings mode config overrides = .ok (stack, journal))
    (located : Input.ofPath journal.files input = .ok (.file place)) :
    replay surroundings mode input config overrides =
      (Log.replayFile stack.logger surroundings.clock journal place).map fun (result, journal) =>
        replayOutcome surroundings mode stack journal (result.mapError (·.failure)) := by
  rw [replay, opened]
  dsimp only
  rw [located]
  rfl

section

variable (opened : openStack surroundings mode config overrides = .ok (stack, journal))
  (located : Input.ofPath journal.files input = .ok (.file place))
  (held : journal.files.Holds place content)
include opened located held

theorem replay_of_stops (stops : stack.Stops place content) :
    ∃ lines, let done := Log.Replay.run stack.logger surroundings.clock journal lines
      replay surroundings mode input config overrides =
          some (replayOutcome surroundings mode stack done.journal (.ok done.summary)) ∧
        lines.filterMap Log.recordOf? = stack.reached place content ∧
        ∃ rejected, done.summary = .of (stack.reached place content) rejected := by
  obtain ⟨lines, done, found⟩ :=
    Log.replayFile_of_stops (backends_of_openStack opened) surroundings.clock held stops
  refine ⟨lines, by rw [replay_file opened located, done]; rfl, found, ?_⟩
  rw [Log.Replay.run_summary, found]
  exact ⟨_, rfl⟩

theorem replay_of_not_stops (endless : ¬stack.Stops place content) :
    replay surroundings mode input config overrides = none ∧
      ∀ limit, Log.LiveReplay.finish? stack.logger surroundings.clock place limit
        (.start journal) = none := by
  obtain ⟨none, never⟩ :=
    Log.replayFile_of_not_stops (backends_of_openStack opened) surroundings.clock held endless
  exact ⟨by rw [replay_file opened located, none]; rfl, never⟩

/-- What a file holds when its stack is opened decides whether the replay of it ends, and with which
records. The times that lines show decide nothing. -/
theorem replay_of_file :
    (stack.Stops place content → ∃ lines,
        let done := Log.Replay.run stack.logger surroundings.clock journal lines
        replay surroundings mode input config overrides =
            some (replayOutcome surroundings mode stack done.journal (.ok done.summary)) ∧
          lines.filterMap Log.recordOf? = stack.reached place content ∧
          ∃ rejected, done.summary = .of (stack.reached place content) rejected) ∧
      (¬stack.Stops place content →
        replay surroundings mode input config overrides = none ∧
          ∀ limit, Log.LiveReplay.finish? stack.logger surroundings.clock place limit
            (.start journal) = none) :=
  ⟨replay_of_stops opened located held, replay_of_not_stops opened located held⟩

end

/-- Two records whose metrics are written behind them, under another name of the file. -/
theorem replay_of_file_metered :
    let overrides :=
      "\x7b\"backends\":[\"telemetry\"],\"sink\":\x7b\"kind\":\"file\",\"path\":\"log\"\x7d\x7d"
    let content := Utf8.encodeString "\x7b\"kind\":\"call\"\x7d\n\x7b\"kind\":\"remove\"\x7d\n"
    let files : FileSystem :=
      ⟨.ofList [(["tmp"], .directory), (["tmp", "log"], .file content)], ["tmp"], none⟩
    let surroundings : Surroundings := ⟨.empty, files, [], UInt64.ofNat, .none⟩
    ∃ stack journal,
      openStack surroundings .text none (some overrides) = .ok (stack, journal) ∧
      Input.ofPath journal.files (some "/tmp/./log") = .ok (.file ["tmp", "log"]) ∧
      journal.files.Holds ["tmp", "log"] content ∧
      stack.Writes ["tmp", "log"] ∧ stack.Stops ["tmp", "log"] content ∧
      ∃ journal' summary, replay surroundings .text (some "/tmp/./log") none (some overrides) =
          some (replayOutcome surroundings .text stack journal' (.ok summary)) ∧
        summary.accepted = 2 := by
  intro overrides content files surroundings
  let settings : Config.Settings := ⟨1, [.telemetry], ⟨.file, some "log"⟩, .empty⟩
  let stack : Log.Stack := ⟨0, [.telemetry], ⟨0, .file "log" ["tmp", "log"]⟩, .empty⟩
  have bare : Config.loadEffective .empty .empty none (some overrides) = .ok settings :=
    Config.ok_of_toOption (by decide +kernel)
  have loaded : Config.loadEffective surroundings.files surroundings.environment none
      (some overrides) = .ok settings := (Config.loadEffective_none files .empty _).trans bare
  have held : surroundings.files.entry? ["tmp", "log"] = some (.file content) := rfl
  have named : surroundings.files.locate "log" = .ok ["tmp", "log"] := rfl
  have named' : surroundings.files.locate "/tmp/./log" = .ok ["tmp", "log"] := by
    have parted : FileSystem.steps "/tmp/./log" = ["tmp", ".", "log"] := by decide +kernel
    have origin : files.origin "/tmp/./log" = [] := if_pos (by decide +kernel)
    rw [FileSystem.locate, if_neg (by decide), parted, origin]
    rfl
  have opened := openStack_of_held loaded rfl (by decide) named held .text
  have found := Input.ofPath_of_held (by decide +kernel) named' held
  have stops : stack.Stops ["tmp", "log"] content := fun records => absurd records.1 (by decide)
  have two : (stack.reached ["tmp", "log"] content).length = 2 := by decide +kernel
  obtain ⟨lines, done, _, rejected, counted⟩ :=
    (replay_of_file opened found ⟨held, rfl⟩).1 stops
  refine ⟨_, _, opened, found, ⟨held, rfl⟩, by decide, stops, _, _, done, ?_⟩
  rw [counted, Log.Summary.accepted_of]
  exact two

def logOverrides : String :=
  "\x7b\"backends\":[\"json\"],\"sink\":\x7b\"kind\":\"file\",\"path\":\"log\"\x7d\x7d"

def logOnly (text : String) : Surroundings :=
  ⟨.empty, ⟨.ofList [(["log"], .file (Utf8.encodeString text))], [], none⟩, [], UInt64.ofNat, .none⟩

section

variable (text : String) (mode : OutputMode)

theorem held_logOnly :
    FileSystem.entry? (logOnly text).files ["log"] = some (.file (Utf8.encodeString text)) := rfl

theorem located_logOnly : (logOnly text).files.locate "log" = .ok ["log"] := rfl

theorem openStack_logOnly : openStack (logOnly text) mode none (some logOverrides) =
    .ok (Log.Stack.build 0 ⟨1, [.json], ⟨.file, some "log"⟩, .empty⟩ ⟨0, .file "log" ["log"]⟩
      (.start (logOnly text).files .none)) := by
  have bare : Config.loadEffective .empty .empty none (some logOverrides) =
      .ok ⟨1, [.json], ⟨.file, some "log"⟩, .empty⟩ := Config.ok_of_toOption (by decide +kernel)
  exact openStack_of_held ((Config.loadEffective_none (logOnly text).files .empty _).trans bare) rfl
    (by decide) (located_logOnly text) (held_logOnly text) mode

theorem ofPath_logOnly : Input.ofPath (logOnly text).files (some "log") = .ok (.file ["log"]) :=
  Input.ofPath_of_held (by decide +kernel) (located_logOnly text) (held_logOnly text)

end

/-- The file that is replayed is the one that records are written to. One on a finished line comes
again and again, and one on an unfinished line is lost. -/
theorem replay_of_own_records :
    let finished := "\x7b\"kind\":\"call\"\x7d\n"
    let unfinished := "\x7b\"kind\":\"call\"\x7d\n\x7b\"kind\":\"remove\"\x7d"
    let replayed (text : String) := replay (logOnly text) .text (some "log") none (some logOverrides)
    (replayed finished = none ∧ ∃ stack journal,
        openStack (logOnly finished) .text none (some logOverrides) = .ok (stack, journal) ∧
          ∀ limit, Log.LiveReplay.finish? stack.logger UInt64.ofNat ["log"] limit (.start journal) =
            none) ∧
      (Log.dispatched (Utf8.encodeString unfinished)).length = 2 ∧
        ∃ stack journal summary, replayed unfinished =
            some (replayOutcome (logOnly unfinished) .text stack journal (.ok summary)) ∧
          summary.accepted = 1 := by
  intro finished unfinished replayed
  let stack : Log.Stack := ⟨0, [.json], ⟨0, .file "log" ["log"]⟩, .empty⟩
  have endless : ¬stack.Stops ["log"] (Utf8.encodeString finished) := by
    intro stops
    rcases stops ⟨by decide, by decide⟩ with none | ⟨_, nonempty⟩
    · exact absurd none (by decide +kernel)
    · exact absurd nonempty (by decide +kernel)
  have stops : stack.Stops ["log"] (Utf8.encodeString unfinished) :=
    fun _ => .inr (by decide +kernel)
  have one : (stack.reached ["log"] (Utf8.encodeString unfinished)).length = 1 := by
    decide +kernel
  have opened := openStack_logOnly finished .text
  obtain ⟨without, never⟩ := replay_of_not_stops opened (ofPath_logOnly finished)
    ⟨held_logOnly finished, rfl⟩ endless
  obtain ⟨lines, done, _, rejected, counted⟩ :=
    replay_of_stops (openStack_logOnly unfinished .text) (ofPath_logOnly unfinished)
      ⟨held_logOnly unfinished, rfl⟩ stops
  refine ⟨⟨without, _, _, opened, never⟩, by decide +kernel, _, _, _, done, ?_⟩
  rw [counted, Log.Summary.accepted_of]
  exact one

end Command

end StatsRelay
