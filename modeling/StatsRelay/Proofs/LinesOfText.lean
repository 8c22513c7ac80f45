import StatsRelay.Proofs.Streams

/-! Texts line by line. A replay cuts octets into lines before it decodes them, and that comes to the
same as decoding first and cutting the text: no sequence of octets goes on beyond a newline, or hides
one. So a line is skipped for its encoding only where the whole is no text. -/
namespace StatsRelay.Log

open StatsRelay.Text
open StatsRelay.Text.Lines (newline)
open StatsRelay.Text.Utf8

/-- Octets are a text just if every line is. -/
theorem isSome_decode?_split (bytes : Bytes) :
    (decode? bytes).isSome ↔ ∀ line ∈ Lines.split bytes, (decode? line).isSome := by
  induction bytes using Lines.lineInduction with
  | last body noNewline =>
    rw [Lines.split_body noNewline]
    by_cases empty : body = []
    · subst empty
      simp [decode?]
    · rw [if_neg empty, List.forall_mem_singleton]
  | line body rest noNewline ih =>
    rw [Lines.split_line noNewline, List.forall_mem_cons, ← ih, decode?_line, decode?_closed]
    cases decode? body <;> cases decode? rest <;> simp

section

variable {bytes : Bytes} {text : List Char}

theorem map_decode?_splitOn (decoded : decode? bytes = some text) :
    (bytes.splitOn newline).map decode? = (text.splitOn '\n').map some := by
  induction bytes using Lines.lineInduction generalizing text with
  | last body noNewline =>
    have noNewline' : '\n' ∉ text := by
      rwa [decode?_eq_some_iff.mp decoded, newline_mem_encode] at noNewline
    rw [List.splitOn_eq_singleton noNewline, List.splitOn_eq_singleton noNewline',
      List.map_singleton, decoded]
    rfl
  | line body rest noNewline ih =>
    rw [decode?_line, Option.bind_eq_some_iff] at decoded
    obtain ⟨first, decoded, behind⟩ := decoded
    obtain ⟨others, decoded', rfl⟩ := Option.map_eq_some_iff.mp behind
    have noNewline' : '\n' ∉ first := by
      rwa [decode?_eq_some_iff.mp decoded, newline_mem_encode] at noNewline
    rw [List.splitOn_append_cons_self_of_not_mem noNewline,
      List.splitOn_append_cons_self_of_not_mem noNewline', List.map_cons, List.map_cons, decoded,
      ih decoded']

/-- Segments that are decoded one by one are decoded to the same with their newlines. -/
theorem map_decode?_closed {segments : List Bytes} {texts : List (List Char)}
    (decoded : segments.map decode? = texts.map some) :
    (Lines.closed newline segments).map decode? = (Lines.closed '\n' texts).map some := by
  induction segments generalizing texts with
  | nil =>
    obtain rfl := List.map_eq_nil_iff.mp decoded.symm
    rfl
  | cons segment rest ih =>
    cases texts with
    | nil => cases decoded
    | cons text texts =>
      obtain ⟨first, others⟩ := List.cons_eq_cons.mp decoded
      by_cases last : rest = []
      · subst last
        obtain rfl := List.map_eq_nil_iff.mp others.symm
        have empty : segment = [] ↔ text = [] := by
          rw [decode?_eq_some_iff.mp first]
          cases text <;> simp [encode]
        by_cases none : text = []
        · simp [Lines.closed, none, empty.mpr none]
        · simp [Lines.closed, none, empty.not.mpr none, first]
      · have more : texts ≠ [] := by
          rintro rfl
          exact last (List.map_eq_nil_iff.mp others)
        rw [Lines.closed_cons newline segment last, Lines.closed_cons '\n' text more,
          List.map_cons, List.map_cons, decode?_closed, first, ih others]
        rfl

end

def Event.notTextLine? (event : Event) : Option String :=
  if event.message = "skipping non-UTF-8 stats line" then event.skippedLine? else none

def Journal.notTextLines (journal : Journal) : List String := journal.told Event.notTextLine?

def Finding.isNotText : Finding → Bool
  | notText => true
  | _ => false

/-- The positions of the segments that are no text; the first position is one. -/
def notTextLines (bytes : Bytes) : List Nat :=
  (((segments bytes).zipIdx 1).filter fun (segment, _) => (decode? segment).isNone).map (·.2)

theorem isNotText_ofLine (segment : Bytes) :
    (Finding.ofLine segment).isNotText = (decode? segment).isNone := by
  have plain : (decode? segment).isNone = (decodeString? segment).isNone := by
    rw [decodeString?, Option.isNone_map]
  rw [plain]
  rcases Finding.ofLine_cases segment with ⟨decoded, found⟩ | ⟨text, decoded, ⟨_, found⟩ |
    ⟨_, ⟨record, _, found⟩ | ⟨fault, _, found⟩⟩⟩
  all_goals simp [found, decoded, Finding.isNotText]

/-- The events of a replay name just the lines that are no text. -/
theorem notTextLines_replay (logger : Logger) (clock : Clock) (journal : Journal) (bytes : Bytes) :
    (replay logger clock journal ⟨bytes, none⟩).2.notTextLines =
      journal.notTextLines ++ (notTextLines bytes).map toString := by
  have ofSkipped : Event.OfSkipped Event.notTextLine? := fun event skipped => by
    rw [Event.notTextLine?, skipped, ite_self]
  have tells (finding : Finding) (number : Nat) (line : Bytes) :
      (finding.event? number line).bind Event.notTextLine? =
        if finding.isNotText then some (toString number) else none := by
    cases finding with
    | notText => exact Event.skippedLine?_lineNotText number line
    | _ => rfl
  have told := Replay.told_replay ofSkipped tells logger clock journal bytes
  rw [Journal.notTextLines, told, findings, List.zipIdx_map, List.filterMap_map, notTextLines,
    segments, List.map_map, ← List.filterMap_eq_map, List.filterMap_filter]
  refine congrArg (journal.notTextLines ++ ·) (List.filterMap_congr ?_)
  rintro ⟨segment, number⟩ _
  simp [isNotText_ofLine]

theorem notTextLines_sublist (bytes : Bytes) :
    (notTextLines bytes).Sublist (rejectedLines bytes) := by
  refine List.Sublist.map _ (List.monotone_filter_right _ ?_)
  rintro ⟨segment, number⟩ undecoded
  have none : decodeString? segment = none := by
    simpa [decodeString?] using undecoded
  simp [isFilled, recordOf?, none]

theorem isSome_decode?_segments (bytes : Bytes) :
    (decode? bytes).isSome ↔ ∀ segment ∈ segments bytes, (decode? segment).isSome := by
  have empty : (decode? []).isSome = true := rfl
  have ends (segment : Bytes) :
      (decode? (segment ++ [newline])).isSome = (decode? segment).isSome := by
    rw [decode?_closed, Option.isSome_map]
  rw [isSome_decode?_split]
  rcases Lines.map_splitOn (fun line => (decode? line).isSome) ends bytes with equal | longer
  · simpa [segments] using congrArg (∀ decoded ∈ ·, decoded = true) equal.symm
  · simpa [segments, empty, or_imp, forall_and] using
      congrArg (∀ decoded ∈ ·, decoded = true) longer.symm

theorem notTextLines_eq_nil_iff (bytes : Bytes) :
    notTextLines bytes = [] ↔ (decode? bytes).isSome := by
  have first : ((segments bytes).zipIdx 1).map (·.1) = segments bytes := List.zipIdx_map_fst 1 _
  rw [isSome_decode?_segments, ← first, List.forall_mem_map, notTextLines, List.map_eq_nil_iff,
    List.filter_eq_nil_iff]
  simp only [Option.isNone_iff_eq_none, ← Option.isSome_iff_ne_none]

/-- Octets are a text just if each line that is cut from them is one, and then their segments are
decoded to the segments of the text. The lines that are skipped for their encoding are those whose
segments are no text, and there are none just if the whole is a text. -/
theorem lines_are_texts :
    (∀ bytes : Bytes,
      (bytes.toByteArray.IsValidUTF8 ↔
        ∀ line ∈ Lines.split bytes, line.toByteArray.IsValidUTF8) ∧
      (bytes.toByteArray.IsValidUTF8 ↔ (notTextLines bytes).length = 0) ∧
      (notTextLines bytes).Sublist (rejectedLines bytes) ∧
      ∀ (logger : Logger) (clock : Clock) (journal : Journal),
        (replayStream logger clock journal bytes).2.notTextLines =
          journal.notTextLines ++ (notTextLines bytes).map toString) ∧
    ∀ text : List Char,
      (segments (encode text)).map decode? = (text.splitOn '\n').map some ∧
        (Lines.split (encode text)).map decode? =
          (Lines.closed '\n' (text.splitOn '\n')).map some := by
  refine ⟨fun bytes => ⟨?_, ?_, notTextLines_sublist bytes, fun logger clock journal => ?_⟩,
    fun text => ?_⟩
  · simpa only [isSome_decode?_iff] using isSome_decode?_split bytes
  · rw [List.length_eq_zero_iff, notTextLines_eq_nil_iff, isSome_decode?_iff]
  · rw [replayStream_eq, Source.ofStream_coe, notTextLines_replay]
  · have decoded := map_decode?_splitOn (decode?_encode text)
    refine ⟨decoded, ?_⟩
    rw [Lines.split_eq_closed]
    exact map_decode?_closed decoded

/-- Two octets of one character are torn apart by a newline, which makes two lines of them, and
neither is a text. -/
theorem lines_are_texts_torn :
    ¬ [0xC3, newline, 0xA9].toByteArray.IsValidUTF8 ∧
      (replayStream .noop UInt64.ofNat (.start .empty .none)
        ([0xC3, newline, 0xA9] : Bytes)).2.notTextLines =
        ["1", "2"] := by
  obtain ⟨_, whole, _, noted⟩ := lines_are_texts.1 [0xC3, newline, 0xA9]
  have torn : notTextLines [0xC3, newline, 0xA9] = [1, 2] := by decide
  refine ⟨fun valid => absurd (whole.mp valid) (by rw [torn]; decide), ?_⟩
  rw [noted, torn]
  rfl

end StatsRelay.Log
