import StatsRelay.Proofs.Appending
import StatsRelay.Proofs.Counting

/-! Replays of files that grow meanwhile. For every record that is read, a stack adds no more than
the lines of its metrics, which hold no record themselves; so each line that is read brings the end
nearer. A stack that writes the records back into the file goes on for ever once it has written one
on a line of its own, and that happens within the lines that are counted, unless the end comes. -/
namespace StatsRelay

open StatsRelay.Text StatsRelay.Text.Utf8

namespace Log

open StatsRelay.Config StatsRelay.Json StatsRelay.Stats

/-- A line that leads to no other. -/
structure Barren (line : Bytes) : Prop where
  ended : ∃ body, Lines.newline ∉ body ∧ line = body ++ [Lines.newline]
  recordless : ∀ record, Finding.ofLine line ≠ .record record

theorem barren_object {members : List (String × Value)}
    (within : (Value.object members).Within nestingLimit) (distinct : (members.map (·.1)).Nodup)
    (flat : Record.payloadName ∉ members.map (·.1))
    (unlabelled : Record.kindName ∉ members.map (·.1)) :
    Barren (encodeString (lineOf (.object members))) := by
  refine ⟨⟨_, newline_not_mem_compact _, encode_lineOf _⟩, fun record found => ?_⟩
  obtain ⟨fault, read⟩ := Written.decodeLine_unlabelled within distinct flat unlabelled
  rw [Finding.ofLine_object, read] at found
  cases found

/-- The line of a metric is no record, whatever its tags are. -/
theorem Metric.line_barren (now : UInt64) (name : String) (metric : Metric) (tags : Tags) :
    Barren (encodeString (metric.line now name tags)) := by
  have tagged : (tagsValue tags).Within 126 :=
    .object (List.forall_mem_map.mpr fun tag _ => .string tag.2)
  apply barren_object
  · refine .object ?_
    cases metric <;> cases tags.isEmpty <;>
      simp [unit?, Value.ofNat, tagged]
  · cases metric <;> cases tags.isEmpty <;> simp [unit?]
  · cases metric <;> cases tags.isEmpty <;> simp [unit?, Record.payloadName]
  · cases metric <;> cases tags.isEmpty <;> simp [unit?, Record.kindName]

namespace LiveReplay

/-- What is left to be read are lines that may hold records and then barren ones, all of them
together worth no more than a weight. -/
def Remaining (weight : Nat) (unread : Bytes) : Prop :=
  ∃ old fresh, unread = old ++ List.flatten fresh ∧
    (Lines.split old).length * linesPerRecord + fresh.length ≤ weight ∧ ∀ line ∈ fresh, Barren line

theorem Remaining.mono {weight weight' : Nat} {unread : Bytes} (remaining : Remaining weight unread)
    (less : weight ≤ weight') : Remaining weight' unread := by
  obtain ⟨old, fresh, same, few, barren⟩ := remaining
  exact ⟨old, fresh, same, Nat.le_trans few less, barren⟩

theorem Remaining.append {weight : Nat} {unread : Bytes} (remaining : Remaining weight unread)
    {fresh : List Bytes} (barren : ∀ line ∈ fresh, Barren line) :
    Remaining (weight + fresh.length) (unread ++ fresh.flatten) := by
  obtain ⟨old, earlier, rfl, few, barren'⟩ := remaining
  refine ⟨old, earlier ++ fresh, by simp, ?_, List.forall_mem_append.mpr ⟨barren', barren⟩⟩
  rw [List.length_append]
  omega

/-- The next line takes its weight away. -/
theorem Remaining.next {weight : Nat} {unread : Bytes} (remaining : Remaining weight unread)
    (nonempty : (Lines.next unread).1 ≠ []) :
    (linesPerRecord ≤ weight ∧ Remaining (weight - linesPerRecord) (Lines.next unread).2) ∨
      0 < weight ∧ Remaining (weight - 1) (Lines.next unread).2 ∧ Barren (Lines.next unread).1 := by
  obtain ⟨old, fresh, rfl, few, barren⟩ := remaining
  induction old using Lines.lineInduction with
  | line body rest noNewline _ =>
    rw [Lines.split_line noNewline, List.length_cons, Nat.succ_mul] at few
    rw [List.append_assoc, List.cons_append, Lines.next_line noNewline]
    exact .inl ⟨by omega, rest, fresh, rfl, by omega, barren⟩
  | last body noNewline =>
    rw [Lines.split_body noNewline] at few
    cases fresh with
    | nil =>
      rw [List.flatten_nil, List.append_nil, Lines.next_body noNewline] at nonempty ⊢
      rw [if_neg nonempty, List.length_singleton, Nat.one_mul] at few
      exact .inl ⟨by omega, [], [], rfl, by simp [Lines.split], List.forall_mem_nil _⟩
    | cons line fresh =>
      obtain ⟨first, others⟩ := List.forall_mem_cons.mp barren
      obtain ⟨tail, ended, rfl⟩ := first.ended
      rw [List.length_cons] at few
      have joined : body ++ ((tail ++ [Lines.newline]) :: fresh).flatten =
          (body ++ tail) ++ Lines.newline :: fresh.flatten := by simp
      rw [joined, Lines.next_line (by simp [noNewline, ended])]
      -- An unfinished line goes on with the first barren one, and has a weight of its own.
      by_cases whole : body = []
      · subst whole
        rw [if_pos rfl, List.length_nil, Nat.zero_mul] at few
        exact .inr ⟨by omega, ⟨[], fresh, rfl, by simp [Lines.split]; omega, others⟩, first⟩
      · rw [if_neg whole, List.length_singleton, Nat.one_mul] at few
        exact .inl ⟨by omega, [], fresh, rfl, by simp [Lines.split]; omega, others⟩

theorem Remaining.quiet {weight : Nat} {unread : Bytes} (remaining : Remaining weight unread)
    (nonempty : (Lines.next unread).1 ≠ []) :
    0 < weight ∧ Remaining (weight - 1) (Lines.next unread).2 := by
  have fewer := remaining.next nonempty
  rw [linesPerRecord] at fewer
  rcases fewer with ⟨enough, rest⟩ | ⟨some, rest, _⟩
  · exact ⟨by omega, rest.mono (by omega)⟩
  · exact ⟨some, rest⟩

/-- A few lines, if any, that lead to no others. -/
structure Settling (fresh : List Bytes) : Prop where
  few : fresh.length < linesPerRecord
  barren : ∀ line ∈ fresh, Barren line

/-- Where a record was read, its metrics are added behind, and the weight still goes down. -/
theorem Remaining.settled {weight : Nat} {unread : Bytes} (remaining : Remaining weight unread)
    (nonempty : (Lines.next unread).1 ≠ []) {record : Record}
    (found : Finding.ofLine (Lines.next unread).1 = .record record) {fresh : List Bytes}
    (settling : Settling fresh) :
    0 < weight ∧ Remaining (weight - 1) ((Lines.next unread).2 ++ fresh.flatten) := by
  obtain ⟨few, barren⟩ := settling
  have fewer := remaining.next nonempty
  rw [linesPerRecord] at few fewer
  rcases fewer with ⟨enough, rest⟩ | ⟨_, _, nothing⟩
  · exact ⟨by omega, (rest.append barren).mono (by omega)⟩
  · exact absurd found (nothing.recordless record)

/-- A few lines, one of them with a record. -/
structure Echoing (fresh : List Bytes) : Prop where
  few : fresh.length ≤ linesPerRecord
  ended : AreLines fresh
  echoed : ∃ line ∈ fresh, ∃ record, Finding.ofLine line = .record record

theorem next_flatten {line : Bytes} {others : List Bytes} (whole : AreLines (line :: others)) :
    Lines.next (line :: others).flatten = (line, others.flatten) := by
  obtain ⟨body, noNewline, rfl⟩ := whole line List.mem_cons_self
  rw [List.flatten_cons, List.append_assoc, List.singleton_append, Lines.next_line noNewline]

/-- A record is to come, and nothing but whole lines. -/
def Fertile (unread : Bytes) : Prop :=
  ∃ lines, unread = List.flatten lines ∧ AreLines lines ∧
    ∃ line ∈ lines, ∃ record, Finding.ofLine line = .record record

theorem Fertile.filled {unread : Bytes} (fertile : Fertile unread) :
    (Lines.next unread).1 ≠ [] := by
  obtain ⟨lines, rfl, whole, line, listed, _⟩ := fertile
  cases lines with
  | nil => cases listed
  | cons first others =>
    obtain ⟨body, _, ended⟩ := whole first List.mem_cons_self
    rw [next_flatten whole, ended]
    simp

theorem Fertile.quiet {unread : Bytes} (fertile : Fertile unread)
    (barren : ∀ record, Finding.ofLine (Lines.next unread).1 ≠ .record record) :
    Fertile (Lines.next unread).2 := by
  obtain ⟨lines, rfl, whole, line, listed, record, found⟩ := fertile
  cases lines with
  | nil => cases listed
  | cons first others =>
    rw [next_flatten whole] at barren ⊢
    rcases List.mem_cons.mp listed with rfl | later
    · exact absurd found (barren record)
    · exact ⟨others, rfl, (List.forall_mem_cons.mp whole).2, line, later, record, found⟩

theorem Echoing.fertile {fresh lines : List Bytes} (echoing : Echoing fresh)
    (whole : AreLines lines) : Fertile (lines.flatten ++ fresh.flatten) := by
  obtain ⟨_, ended, line, listed, found⟩ := echoing
  exact ⟨lines ++ fresh, by simp, List.forall_mem_append.mpr ⟨whole, ended⟩, line,
    List.mem_append_right _ listed, found⟩

/-- A record that is written back keeps a record to come. -/
theorem Fertile.echoed {unread : Bytes} (fertile : Fertile unread) {fresh : List Bytes}
    (echoing : Echoing fresh) : Fertile ((Lines.next unread).2 ++ fresh.flatten) := by
  obtain ⟨lines, rfl, whole, line, listed, _⟩ := fertile
  cases lines with
  | nil => cases listed
  | cons first others =>
    rw [next_flatten whole]
    exact echoing.fertile (List.forall_mem_cons.mp whole).2

/-- What is left to be read while no record was written on a line of its own: what was there from
the start, or nothing but whole lines. -/
def Pending (weight : Nat) (unread : Bytes) : Prop :=
  (Lines.split unread).length * linesPerRecord ≤ weight ∨
    ∃ lines, unread = List.flatten lines ∧ AreLines lines ∧ lines.length ≤ weight

theorem Pending.quiet {weight : Nat} {unread : Bytes} (pending : Pending weight unread)
    (nonempty : (Lines.next unread).1 ≠ []) :
    0 < weight ∧ Pending (weight - 1) (Lines.next unread).2 := by
  rcases pending with old | ⟨lines, rfl, whole, less⟩
  · rw [Lines.split_next nonempty, List.length_cons, linesPerRecord] at old
    exact ⟨by omega, .inl (by rw [linesPerRecord]; omega)⟩
  · cases lines with
    | nil => exact absurd rfl nonempty
    | cons first others =>
      rw [next_flatten whole]
      rw [List.length_cons] at less
      exact ⟨by omega, .inr ⟨others, rfl, (List.forall_mem_cons.mp whole).2, by omega⟩⟩

theorem Pending.echoed {weight : Nat} {unread : Bytes} (pending : Pending weight unread)
    (nonempty : (Lines.next unread).1 ≠ []) {fresh : List Bytes} (echoing : Echoing fresh) :
    0 < weight ∧ Pending (weight - 1) ((Lines.next unread).2 ++ fresh.flatten) ∨
      Fertile ((Lines.next unread).2 ++ fresh.flatten) := by
  rcases pending with old | ⟨lines, rfl, whole, _⟩
  · rw [Lines.split_next nonempty, List.length_cons] at old
    obtain ⟨lines, tail, cut, whole, noNewline, count⟩ := Lines.exists_lines (Lines.next unread).2
    rw [count] at old
    rw [cut]
    -- The first line that is added ends what was unfinished, perhaps with a record that is lost so.
    by_cases finished : tail = []
    · rw [finished, List.append_nil]
      exact .inr (echoing.fertile whole)
    · obtain ⟨few, ended, _, listed, _⟩ := echoing
      rw [if_neg finished] at old
      rw [linesPerRecord] at old few
      cases fresh with
      | nil => cases listed
      | cons first others =>
        obtain ⟨⟨body, noNewline', rfl⟩, others_ended⟩ := List.forall_mem_cons.mp ended
        rw [List.length_cons] at few
        refine .inl ⟨by omega, .inr ⟨lines ++ (tail ++ body ++ [Lines.newline]) :: others, by simp,
          List.forall_mem_append.mpr ⟨whole, List.forall_mem_cons.mpr ⟨?_, others_ended⟩⟩, ?_⟩⟩
        · exact ⟨tail ++ body, by simp [noNewline, noNewline'], rfl⟩
        · rw [List.length_append, List.length_cons]
          omega
  · cases lines with
    | nil => exact absurd rfl nonempty
    | cons first others =>
      rw [next_flatten whole]
      exact .inr (echoing.fertile (List.forall_mem_cons.mp whole).2)

end LiveReplay

/-- For each record a logger adds lines of some kind to the file at a place. -/
def Logger.Adds (logger : Logger) (clock : Clock) (place : List String)
    (kind : Record → List Bytes → Prop) : Prop :=
  ∀ (journal : Journal) (record : Record) (content : Bytes), journal.files.Holds place content →
    ∃ fresh, kind record fresh ∧
      (logger.log clock journal record).files.Holds place (content ++ fresh.flatten)

theorem Logger.Adds.mono {logger : Logger} {clock : Clock} {place : List String}
    {kind kind' : Record → List Bytes → Prop} (adds : logger.Adds clock place kind)
    (fits : ∀ record fresh, kind record fresh → kind' record fresh) :
    logger.Adds clock place kind' := by
  intro journal record content held
  obtain ⟨fresh, added, grown⟩ := adds journal record content held
  exact ⟨fresh, fits record fresh added, grown⟩

namespace LiveReplay

/-- How what is left of a file stands when a live replay has come so far. -/
def Stands (place : List String) (left : Bytes → Prop) (live : LiveReplay) : Prop :=
  ∃ content, live.replay.journal.files.Holds place content ∧
    live.offset ≤ content.length ∧ left (content.drop live.offset)

variable {logger : Logger} {clock : Clock} {place : List String} {live live' : LiveReplay}

theorem dispatch_adds {kind : Record → List Bytes → Prop}
    (adds : logger.Adds clock place kind) (line : Bytes) (number : Nat) (journal : Journal)
    {content : Bytes} (held : journal.files.Holds place content) :
    ∃ fresh,
      (Replay.dispatch logger clock number line journal (Finding.ofLine line)).files.Holds place
        (content ++ List.flatten fresh) ∧
      (fresh = [] ∧ (∀ record, Finding.ofLine line ≠ .record record) ∨
        ∃ record, Finding.ofLine line = .record record ∧ kind record fresh) := by
  cases found : Finding.ofLine line with
  | record record =>
    obtain ⟨fresh, fits, grown⟩ := adds journal record content held
    exact ⟨fresh, grown, .inr ⟨record, rfl, fits⟩⟩
  | blank | notText | invalid =>
    refine ⟨[], by simpa [Replay.dispatch, Journal.add] using held, .inl ⟨rfl, ?_⟩⟩
    rintro record ⟨⟩

/-- One more read takes a line from what is left, and adds to its end for a record. -/
theorem Stands.next? {kind : Record → List Bytes → Prop} (adds : logger.Adds clock place kind)
    {left left' : Bytes → Prop} (stands : Stands place left live)
    (next : live.next? logger clock place = some live')
    (passedOver : ∀ unread, left unread → (Lines.next unread).1 ≠ [] →
      (∀ record, Finding.ofLine (Lines.next unread).1 ≠ .record record) →
        left' (Lines.next unread).2)
    (led : ∀ unread, left unread → (Lines.next unread).1 ≠ [] →
      ∀ record, Finding.ofLine (Lines.next unread).1 = .record record →
        ∀ fresh, kind record fresh → left' ((Lines.next unread).2 ++ fresh.flatten)) :
    Stands place left' live' := by
  obtain ⟨content, held, inContent, remaining⟩ := stands
  have unread : live.unread place = content.drop live.offset := by rw [LiveReplay.unread, held.entry]
  obtain ⟨nonempty, rfl⟩ := next?_eq_some next
  rw [unread] at nonempty ⊢
  obtain ⟨fresh, grown, led'⟩ := dispatch_adds adds (Lines.next (content.drop live.offset)).1
    (live.replay.lines + 1) live.replay.journal held
  have remaining' : left' ((Lines.next (content.drop live.offset)).2 ++ fresh.flatten) := by
    rcases led' with ⟨rfl, barren⟩ | ⟨record, found, fits⟩
    · rw [List.flatten_nil, List.append_nil]
      exact passedOver _ remaining nonempty barren
    · exact led _ remaining nonempty record found fresh fits
  have parts := Lines.next_append_rest (content.drop live.offset)
  generalize (Lines.next (content.drop live.offset)).1 = line at *
  generalize (Lines.next (content.drop live.offset)).2 = rest at *
  have within : live.offset + line.length ≤ content.length := by
    have counted := congrArg List.length parts
    rw [List.length_append, List.length_drop] at counted
    omega
  have behind : (content ++ fresh.flatten).drop (live.offset + line.length) =
      rest ++ fresh.flatten := by
    rw [List.drop_append_of_le_length within, ← List.drop_drop, ← parts, List.drop_left]
  exact ⟨_, grown, Nat.le_trans within (by simp), behind ▸ remaining'⟩

theorem Stands.settled (settles : logger.Adds clock place fun _ => Settling) {weight : Nat}
    (stands : Stands place (Remaining weight) live)
    (next : live.next? logger clock place = some live') :
    0 < weight ∧ Stands place (Remaining (weight - 1)) live' := by
  have stands' : Stands place (fun unread => 0 < weight ∧ Remaining (weight - 1) unread) live' :=
    stands.next? settles next (fun _ remaining nonempty _ => remaining.quiet nonempty)
      fun _ remaining nonempty _ found _ settling => remaining.settled nonempty found settling
  obtain ⟨content, held, inContent, some, remaining⟩ := stands'
  exact ⟨some, content, held, inContent, remaining⟩

/-- Each read takes something of the weight, so a limit above it is enough. -/
theorem finish?_isSome (settles : logger.Adds clock place fun _ => Settling) {weight limit : Nat}
    (stands : Stands place (Remaining weight) live) (enough : weight < limit) :
    (finish? logger clock place limit live).isSome := by
  induction limit generalizing weight live with
  | zero => omega
  | succ limit ih =>
    rw [finish?]
    cases next : live.next? logger clock place with
    | none => rfl
    | some live' =>
      obtain ⟨some, stands'⟩ := stands.settled settles next
      exact ih stands' (by omega)

theorem Stands.fertile (echoes : logger.Adds clock place fun _ => Echoing)
    (stands : Stands place Fertile live) (next : live.next? logger clock place = some live') :
    Stands place Fertile live' :=
  stands.next? echoes next (fun _ fertile _ barren => fertile.quiet barren)
    fun _ fertile _ _ _ _ echoing => fertile.echoed echoing

/-- While a record is to come, no limit is enough. -/
theorem finish?_of_fertile (echoes : logger.Adds clock place fun _ => Echoing)
    (stands : Stands place Fertile live) (limit : Nat) :
    finish? logger clock place limit live = none := by
  induction limit generalizing live with
  | zero => rfl
  | succ limit ih =>
    rw [finish?]
    cases next : live.next? logger clock place with
    | some live' => exact ih (stands.fertile echoes next)
    | none =>
      obtain ⟨content, held, _, fertile⟩ := stands
      have unread : live.unread place = content.drop live.offset := by
        rw [LiveReplay.unread, held.entry]
      have empty := next?_eq_none next
      rw [unread] at empty
      exact absurd empty fertile.filled

theorem Stands.pending (echoes : logger.Adds clock place fun _ => Echoing) {weight : Nat}
    (stands : Stands place (Pending weight) live)
    (next : live.next? logger clock place = some live') :
    0 < weight ∧ Stands place (Pending (weight - 1)) live' ∨ Stands place Fertile live' := by
  have stands' : Stands place
      (fun unread => 0 < weight ∧ Pending (weight - 1) unread ∨ Fertile unread) live' :=
    stands.next? echoes next (fun _ pending nonempty _ => .inl (pending.quiet nonempty))
      fun _ pending nonempty _ _ _ echoing => pending.echoed nonempty echoing
  obtain ⟨content, held, inContent, ⟨some, pending⟩ | fertile⟩ := stands'
  · exact .inl ⟨some, content, held, inContent, pending⟩
  · exact .inr ⟨content, held, inContent, fertile⟩

/-- A replay that goes beyond the weight of what was there reads its own records. -/
theorem finish?_eq_none (echoes : logger.Adds clock place fun _ => Echoing) {weight limit : Nat}
    (stands : Stands place (Pending weight) live) (enough : weight < limit)
    (endless : finish? logger clock place limit live = none) (more : Nat) :
    finish? logger clock place more live = none := by
  -- Each read lowers the weight until a record stands on a line of its own, so the run within the
  -- limit has come to such a record or to the end.
  induction limit generalizing weight more live with
  | zero => omega
  | succ limit ih =>
    rw [finish?] at endless
    cases next : live.next? logger clock place with
    | none =>
      rw [next] at endless
      cases endless
    | some live' =>
      rw [next] at endless
      cases more with
      | zero => rfl
      | succ more =>
        rw [finish?, next]
        rcases stands.pending echoes next with ⟨some, stands'⟩ | fertile
        · exact ih stands' (by omega) endless more
        · exact finish?_of_fertile echoes fertile more

end LiveReplay

def Target.isAt (place : List String) : Target → Bool
  | file _ other => other = place
  | _ => false

namespace Action

variable (clock : Clock) {place : List String}

def adds (place : List String) (now : UInt64) : Action → Bytes
  | note _ => []
  | write _ sink _ line => if sink.target.isAt place then encodeString (line now) else []

/-- An action appends to the file at a place what goes there, and nothing else. -/
theorem files_perform {journal : Journal} {content : Bytes}
    (held : journal.files.Holds place content) (action : Action) :
    (action.perform clock journal).files.Holds place
      (content ++ action.adds place (clock journal.nextLine)) := by
  cases action with
  | note entry => simpa [perform, Journal.add, adds] using held
  | write writer sink subject line =>
    obtain ⟨id, target⟩ := sink
    have written : (journal.write (some writer) ⟨id, target⟩
        (line (clock journal.nextLine))).1.files.Holds place (content ++
          (write writer ⟨id, target⟩ subject line).adds place (clock journal.nextLine)) := by
      cases target with
      | file path other =>
        simpa [adds, Target.isAt, Journal.write, Target.write, Journal.add] using
          held.append other (encodeString (line (clock journal.nextLine)))
      | _ => simpa [adds, Target.isAt, Journal.write, Target.write, Journal.add] using held
    rw [perform]
    split <;> rename_i outcome <;> rw [outcome] at written <;> exact written

/-- Lines in octets, each as it is at some time. -/
def Shown (lines : List (UInt64 → String)) (fresh : List Bytes) : Prop :=
  List.Forall₂ (fun line bytes => ∃ now, bytes = encodeString (line now)) lines fresh

theorem Shown.forall_mem {lines : List (UInt64 → String)} {fresh : List Bytes}
    (shown : Shown lines fresh) {good : Bytes → Prop}
    (each : ∀ line ∈ lines, ∀ now, good (encodeString (line now))) : ∀ bytes ∈ fresh, good bytes := by
  induction shown with
  | nil => exact List.forall_mem_nil _
  | cons first _ ih =>
    obtain ⟨now, rfl⟩ := first
    obtain ⟨here, others⟩ := List.forall_mem_cons.mp each
    exact List.forall_mem_cons.mpr ⟨here now, ih others⟩

/-- Actions that write to the file at a place append all their lines to it, in their order. -/
theorem files_foldl {sink : Sink} (here : sink.target.isAt place = true) {actions : List Action}
    (into : ∀ action ∈ actions, action.Into sink) {journal : Journal} {content : Bytes}
    (held : journal.files.Holds place content) :
    ∃ fresh, Shown (actions.flatMap lines) fresh ∧
      (actions.foldl (perform clock) journal).files.Holds place (content ++ fresh.flatten) := by
  induction actions generalizing journal content with
  | nil => exact ⟨[], .nil, by simpa using held⟩
  | cons action rest ih =>
    obtain ⟨first, others⟩ := List.forall_mem_cons.mp into
    obtain ⟨fresh, shown, grown⟩ := ih others (files_perform clock held action)
    cases action with
    | note entry => exact ⟨fresh, shown, by simpa [adds] using grown⟩
    | write writer other subject line =>
      obtain rfl : other = sink := first
      refine ⟨_, .cons ⟨clock journal.nextLine, rfl⟩ shown, ?_⟩
      simpa [adds, here] using grown

theorem files_foldl_elsewhere {sink : Sink} (elsewhere : sink.target.isAt place = false)
    {actions : List Action} (into : ∀ action ∈ actions, action.Into sink) {journal : Journal}
    {content : Bytes} (held : journal.files.Holds place content) :
    (actions.foldl (perform clock) journal).files.Holds place content := by
  induction actions generalizing journal with
  | nil => exact held
  | cons action rest ih =>
    obtain ⟨first, others⟩ := List.forall_mem_cons.mp into
    refine ih others ?_
    have grown := files_perform clock held action
    cases action with
    | note entry => exact held
    | write writer other subject line =>
      obtain rfl : other = sink := first
      simpa [adds, elsewhere] using grown

end Action

namespace Stack

def Records (stack : Stack) (place : List String) : Prop :=
  .json ∈ stack.backends ∧ stack.sink.target.isAt place

variable {stack : Stack} {place : List String} {fresh : List Bytes}

def echo (stack : Stack) (place : List String) (record : Record) : List (UInt64 → String) :=
  if stack.sink.target.isAt place then
    (if .json ∈ stack.backends then [fun now => recordLine now stack.fields record] else []) ++
      if .telemetry ∈ stack.backends then stack.metricLines record else []
  else []

/-- What a stack adds for a record are the lines that it writes about it. -/
theorem adds_echo (normal : stack.backends = Labelled.all.filter (· ∈ stack.backends))
    (clock : Clock) :
    stack.logger.Adds clock place fun record => Action.Shown (stack.echo place record) := by
  intro journal record content held
  have into : ∀ action ∈ stack.backends.flatMap (stack.actions record),
      action.Into stack.sink := by
    intro action action_mem
    obtain ⟨backend, _, listed⟩ := List.mem_flatMap.mp action_mem
    exact (stack.owns_actions record backend action listed).into
  rw [Logger.log, react_logger]
  dsimp only
  cases here : stack.sink.target.isAt place with
  | false =>
    have nothing : stack.echo place record = [] := if_neg (by simp [here])
    rw [nothing]
    refine ⟨[], .nil, ?_⟩
    simpa using Action.files_foldl_elsewhere clock here into held
  | true =>
    have written : stack.echo place record =
        (stack.backends.flatMap (stack.actions record)).flatMap Action.lines :=
      (if_pos here).trans (stack.lines_backends record normal).symm
    rw [written]
    exact Action.files_foldl clock here into held

theorem metricLines_barren (record : Record) :
    ∀ line ∈ stack.metricLines record, ∀ now, Barren (encodeString (line now)) := by
  intro line line_mem now
  obtain ⟨⟨name, metric⟩, _, rfl⟩ := List.mem_map.mp line_mem
  exact metric.line_barren now name _

theorem length_metricLines (record : Record) : (stack.metricLines record).length = 3 := rfl

/-- A stack that does not write its records to a file adds no record to it. -/
theorem echo_settling (foreign : ¬stack.Records place) {record : Record}
    (shown : Action.Shown (stack.echo place record) fresh) : LiveReplay.Settling fresh := by
  rw [echo] at shown
  cases here : stack.sink.target.isAt place with
  | false =>
    rw [here, if_neg Bool.false_ne_true] at shown
    obtain rfl := List.forall₂_nil_left_iff.mp shown
    exact ⟨by simp [linesPerRecord], List.forall_mem_nil _⟩
  | true =>
    have silent : .json ∉ stack.backends := fun json => foreign ⟨json, here⟩
    rw [here, if_pos rfl, if_neg silent, List.nil_append] at shown
    refine ⟨?_, shown.forall_mem fun line line_mem => ?_⟩
    · rw [← shown.length_eq]
      split <;> simp [length_metricLines, linesPerRecord]
    · split at line_mem
      · exact metricLines_barren record line line_mem
      · cases line_mem

/-- The line of the record comes first, and nothing behind it holds one. -/
theorem echo_of_records (records : stack.Records place) {record : Record}
    (shown : Action.Shown (stack.echo place record) fresh) :
    ∃ line others, fresh = line :: others ∧
      (∃ body, Lines.newline ∉ body ∧ line = body ++ [Lines.newline]) ∧
      Finding.ofLine line = .record record ∧ others.length < linesPerRecord ∧
      ∀ other ∈ others, Barren other := by
  rw [echo, if_pos records.2, if_pos records.1, List.singleton_append] at shown
  obtain ⟨line, others, ⟨now, rfl⟩, behind, rfl⟩ := List.forall₂_cons_left_iff.mp shown
  have written : encodeString (recordLine now stack.fields record) =
      (Written.record now record).encoded stack.baseFields :=
    congrArg encodeString (recordLine_eq stack now record)
  refine ⟨_, _, rfl, ?_, ?_, ?_, ?_⟩
  · exact written ▸ Written.encoded_line stack.baseFields _
  · exact written ▸ Written.ofLine_record stack.baseFields now record
  · rw [← behind.length_eq]
    split <;> simp [length_metricLines, linesPerRecord]
  · refine Action.Shown.forall_mem behind fun line line_mem => ?_
    split at line_mem
    · exact metricLines_barren record line line_mem
    · cases line_mem

theorem echo_echoing (records : stack.Records place) {record : Record}
    (shown : Action.Shown (stack.echo place record) fresh) : LiveReplay.Echoing fresh := by
  obtain ⟨line, others, rfl, ended, found, few, barren⟩ := echo_of_records records shown
  refine ⟨few, List.forall_mem_cons.mpr ⟨ended, fun other other_mem => (barren other other_mem).ended⟩,
    line, List.mem_cons_self, record, found⟩

variable (normal : stack.backends = Labelled.all.filter (· ∈ stack.backends)) (clock : Clock)
include normal

theorem settles (foreign : ¬stack.Records place) :
    stack.logger.Adds clock place fun _ => LiveReplay.Settling :=
  (adds_echo normal clock).mono fun _ _ shown => echo_settling foreign shown

theorem echoes (records : stack.Records place) :
    stack.logger.Adds clock place fun _ => LiveReplay.Echoing :=
  (adds_echo normal clock).mono fun _ _ shown => echo_echoing records shown

end Stack

section

variable {logger : Logger} {clock : Clock} {place : List String}

/-- A replay to which no record is added comes to an end. -/
theorem replayFile_isSome (settles : logger.Adds clock place fun _ => LiveReplay.Settling)
    (journal : Journal) : (replayFile logger clock journal place).isSome := by
  cases limited : journal.files.room with
  | some room => exact replayFile_isSome_of_room limited
  | none =>
    rw [replayFile]
    split
    · rename_i content found
      have stands : LiveReplay.Stands place
          (LiveReplay.Remaining ((Lines.split content).length * linesPerRecord)) (.start journal) :=
        ⟨content, ⟨found, limited⟩, Nat.zero_le _, content, [], by simp [LiveReplay.start],
          Nat.le_refl _, List.forall_mem_nil _⟩
      rw [Option.isSome_map, limited]
      exact LiveReplay.finish?_isSome settles stands (Nat.lt_succ_self _)
    all_goals rfl

/-- What does not end within the limit has no end. -/
theorem finish?_of_replayFile (echoes : logger.Adds clock place fun _ => LiveReplay.Echoing)
    {journal : Journal} (endless : replayFile logger clock journal place = none) (limit : Nat) :
    LiveReplay.finish? logger clock place limit (.start journal) = none := by
  have unlimited : journal.files.room = none := by
    cases limited : journal.files.room with
    | none => rfl
    | some room =>
      have ends : (replayFile logger clock journal place).isSome := replayFile_isSome_of_room limited
      rw [endless] at ends
      cases ends
  rw [replayFile] at endless
  split at endless
  · rename_i content found
    have stands : LiveReplay.Stands place
        (LiveReplay.Pending ((Lines.split content).length * linesPerRecord)) (.start journal) :=
      ⟨content, ⟨found, unlimited⟩, Nat.zero_le _, .inl (Nat.le_refl _)⟩
    rw [unlimited] at endless
    exact LiveReplay.finish?_eq_none echoes stands (Nat.lt_succ_self _)
      (Option.map_eq_none_iff.mp endless) limit
  all_goals cases endless

end

end Log

end StatsRelay
