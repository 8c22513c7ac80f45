import Mathlib.Data.List.Sort
import Mathlib.Logic.Relation
import StatsRelay.Proofs.Codecs
import StatsRelay.Proofs.Environments

/-! Lists of backends in one variable. What a list says is the set of labels among its pieces, so it
can be spelled in many ways; a list that is refused is empty, too long, or has a first piece that is
no label. -/
namespace StatsRelay

namespace Text

theorem segments_eq_splitOn (separator : Char) (text : List Char) :
    segments separator text = text.splitOn separator := by
  induction text with
  | nil => rfl
  | cons c rest ih =>
    obtain ⟨first, others, parts⟩ := List.exists_cons_of_ne_nil (List.splitOn_ne_nil separator rest)
    rw [segments, ih, parts]
    rw [List.splitOn] at parts ⊢
    by_cases same : c = separator <;>
      simp [List.splitOnP_cons_eq_if_modifyHead, same, parts]

section

variable {separator c : Char}

theorem exists_splitOn_concat (other : c ≠ separator) (text : List Char) :
    ∃ init last, text.splitOn separator = init ++ [last] ∧
      (text ++ [c]).splitOn separator = init ++ [last ++ [c]] := by
  induction text with
  | nil => exact ⟨[], [], rfl, by simp [List.splitOn_eq_singleton, Ne.symm other]⟩
  | cons x rest ih =>
    obtain ⟨init, last, parts, longer⟩ := ih
    simp only [List.splitOn, List.cons_append, List.splitOnP_cons_eq_if_modifyHead] at parts longer ⊢
    rw [parts, longer]
    by_cases same : x = separator
    · exact ⟨[] :: init, last, by simp [same], by simp [same]⟩
    · cases init with
      | nil => exact ⟨[], x :: last, by simp [same], by simp [same]⟩
      | cons first init => exact ⟨(x :: first) :: init, last, by simp [same], by simp [same]⟩

def trimmed (separator : Char) (text : List Char) : List String :=
  (text.splitOn separator).map fun segment => trim (.ofList segment)

/-- Blanks around a list are blanks around its first and last entry. -/
theorem trimmed_cons (other : c ≠ separator) (blank : isBlank c = true) (text : List Char) :
    trimmed separator (c :: text) = trimmed separator text := by
  obtain ⟨first, others, parts⟩ := List.exists_cons_of_ne_nil (List.splitOn_ne_nil separator text)
  have same : trim (String.singleton c ++ .ofList first) = trim (.ofList first) :=
    trim_blank_append (by simpa using blank) _
  rw [List.splitOn] at parts
  simp [trimmed, List.splitOn, List.splitOnP_cons_eq_if_modifyHead, other, parts, same]

theorem trimmed_concat (other : c ≠ separator) (blank : isBlank c = true) (text : List Char) :
    trimmed separator (text ++ [c]) = trimmed separator text := by
  obtain ⟨init, last, parts, longer⟩ := exists_splitOn_concat other text
  have same : trim (.ofList (last ++ [c])) = trim (.ofList last) := by
    rw [String.ofList_append]
    exact trim_append_blanks (by simpa using blank) _
  rw [trimmed, trimmed, parts, longer, List.map_append, List.map_append]
  simp only [List.map_cons, List.map_nil, same]

/-- The blanks around a text are around its segments. -/
theorem filledSegments_trim (notBlank : isBlank separator = false) (text : String) :
    filledSegments separator (trim text) = filledSegments separator text := by
  have other {c : Char} (blank : isBlank c = true) : c ≠ separator := by
    rintro rfl
    simp [notBlank] at blank
  have front (chars : List Char) : trimmed separator (trimStart chars) = trimmed separator chars := by
    induction chars with
    | nil => rfl
    | cons c rest ih =>
      by_cases blank : isBlank c = true
      · rw [trimmed_cons (other blank) blank, ← ih]
        simp [trimStart, blank]
      · rw [trimStart_of_head (by simpa using blank)]
  have back (chars : List Char) : trimmed separator (trimEnd chars) = trimmed separator chars := by
    induction chars using List.reverseRecOn with
    | nil => rfl
    | append_singleton init c ih =>
      by_cases blank : isBlank c = true
      · rw [trimmed_concat (other blank) blank, ← ih]
        simp [trimEnd, blank]
      · simp [trimEnd, blank]
  have same : trimmed separator (trim text).toList = trimmed separator text.toList := by
    rw [trim, String.toList_ofList, back, front]
  unfold trimmed at same
  rw [filledSegments, filledSegments, segments_eq_splitOn, segments_eq_splitOn, same]

end

end Text

namespace Config

theorem Backend.parse?_eq_some_iff {entry : String} {backend : Backend} :
    Backend.parse? entry = some backend ↔ Text.lower (Text.trim entry) = label backend :=
  Labelled.ofLabel?_eq_some_iff

theorem Settings.mem_normalBackends {backends : List Backend} {backend : Backend} :
    backend ∈ normalBackends backends ↔ backend ∈ backends := SortedSet.mem_keys_ofList

namespace BackendList

def pieces (value : String) : List String := (value.toList.splitOn ',').map String.ofList

def entries (pieces : List String) : List String := (pieces.map Text.trim).filter (· ≠ "")

def Names (entry : String) (backend : Backend) : Prop := Text.lower entry = label backend

def IsLabel (entry : String) : Prop := ∃ backend, Names entry backend

/-- The entries that are accepted. -/
structure Sound (entries : List String) : Prop where
  filled : 1 ≤ entries.length
  few : entries.length ≤ 16
  labels : ∀ entry ∈ entries, IsLabel entry

/-- What is reported about the entries that are not. -/
inductive Refused (entries : List String) : EnvironmentError → Prop
  | empty (none : entries = []) : Refused entries (.empty .backends)
  | tooMany (many : 16 < entries.length) : Refused entries (.tooMany .backends entries.length)
  | unsupported {before after : List String} {entry : String} (few : entries.length ≤ 16)
      (parts : entries = before ++ entry :: after) (sound : ∀ other ∈ before, IsLabel other)
      (other : ¬IsLabel entry) : Refused entries (.unsupported .backends entry)

/-- The backends that entries name, each once and in their fixed order. -/
structure Chosen (entries : List String) (backends : List Backend) : Prop where
  increasing : backends.Pairwise (·.index < ·.index)
  named : ∀ backend, backend ∈ backends ↔ ∃ entry ∈ entries, Names entry backend

variable {listed : List String}

/-- A list is not both sound and refused. -/
theorem Sound.not_refused (sound : Sound listed) (error : EnvironmentError) :
    ¬Refused listed error := by
  rintro (none | many | ⟨few, rfl, _, other⟩)
  · simpa [none] using sound.filled
  · exact Nat.not_lt.mpr sound.few many
  · exact other (sound.labels _ (by simp))

/-- At most one error fits a list. -/
theorem Refused.unique {error error' : EnvironmentError} (one : Refused listed error)
    (also : Refused listed error') : error = error' := by
  classical
  have first {before after : List String} {entry : String} (parts : listed = before ++ entry :: after)
      (sound : ∀ other ∈ before, IsLabel other) (other : ¬IsLabel entry) :
      listed.find? (¬IsLabel ·) = some entry :=
    List.find?_eq_some_iff_append.mpr
      ⟨by simpa using other, before, after, parts, by simpa using sound⟩
  cases one with
  | empty none =>
    cases also with
    | empty => rfl
    | tooMany many => simp [none] at many
    | unsupported few parts => simp [none] at parts
  | tooMany many =>
    cases also with
    | empty none => simp [none] at many
    | tooMany => rfl
    | unsupported few => exact absurd many (Nat.not_lt.mpr few)
  | unsupported few parts sound other =>
    cases also with
    | empty none => simp [none] at parts
    | tooMany many => exact absurd many (Nat.not_lt.mpr few)
    | unsupported _ parts' sound' other' =>
      rw [Option.some.inj ((first parts sound other).symm.trans (first parts' sound' other'))]

theorem Chosen.unique {backends backends' : List Backend} (one : Chosen listed backends)
    (also : Chosen listed backends') : backends = backends' := by
  have irreflexive : Std.Irrefl fun a b : Backend => a.index < b.index := ⟨fun _ => Nat.lt_irrefl _⟩
  have antisymmetric : Std.Antisymm fun a b : Backend => a.index < b.index :=
    ⟨fun _ _ before after => absurd before (Nat.lt_asymm after)⟩
  refine one.increasing.eq_of_mem_iff also.increasing fun backend => ?_
  exact (one.named backend).trans (also.named backend).symm

/-- Entries are the pieces between commas that are not blank. -/
theorem entries_pieces (value : String) :
    entries (pieces value) = Text.filledSegments ',' value := by
  rw [entries, pieces, List.map_map, Text.filledSegments, Text.segments_eq_splitOn]
  rfl

theorem trim_of_mem_entries {pieces : List String} {entry : String}
    (entry_mem : entry ∈ entries pieces) : Text.trim entry = entry := by
  obtain ⟨piece, _, rfl⟩ := List.mem_map.mp (List.mem_of_mem_filter entry_mem)
  exact Text.trim_trim piece

theorem parse?_of_mem_entries {pieces : List String} {entry : String}
    (entry_mem : entry ∈ entries pieces) {backend : Backend} :
    Backend.parse? entry = some backend ↔ Names entry backend := by
  rw [Backend.parse?_eq_some_iff, trim_of_mem_entries entry_mem, Names]

def readEntry (entry : String) : Except EnvironmentError Backend :=
  match Backend.parse? entry with
  | some backend => .ok backend
  | none => .error (.unsupported .backends entry)

theorem readEntry_spec (entry : String) :
    (∃ backend, readEntry entry = .ok backend ∧ Backend.parse? entry = some backend) ∨
      readEntry entry = .error (.unsupported .backends entry) ∧ Backend.parse? entry = none := by
  unfold readEntry
  cases Backend.parse? entry with
  | some backend => exact .inl ⟨backend, rfl, rfl⟩
  | none => exact .inr ⟨rfl, rfl⟩

theorem readBackends_eq (value : String) :
    Environment.readBackends .backends value =
      if entries (pieces value) = [] then .error (.empty .backends)
      else if 16 < (entries (pieces value)).length then
        .error (.tooMany .backends (entries (pieces value)).length)
      else ((entries (pieces value)).mapM readEntry).map Settings.normalBackends := by
  rw [Environment.readBackends, ← entries_pieces]
  cases listed : entries (pieces value) with
  | nil => rfl
  | cons entry rest =>
    rw [if_neg (List.cons_ne_nil _ _), if_neg (by simp)]
    by_cases many : 16 < (entry :: rest).length
    · rw [if_pos many]
      exact if_pos many
    · rw [if_neg many]
      have same {read : String → Except EnvironmentError Backend} (equal : read = readEntry) :
          (do return Settings.normalBackends (← (entry :: rest).mapM read)) =
            ((entry :: rest).mapM readEntry).map Settings.normalBackends := by
        rw [equal]
        cases (entry :: rest).mapM readEntry <;> rfl
      refine (if_neg many).trans (same ?_)
      funext entry
      unfold readEntry
      cases Backend.parse? entry <;> rfl

/-- A list is sound and its backends are chosen, or it is refused with the error that fits. -/
theorem readBackends_spec (value : String) :
    (∃ backends, Environment.readBackends .backends value = .ok backends ∧
      Sound (entries (pieces value)) ∧ Chosen (entries (pieces value)) backends) ∨
    ∃ error, Environment.readBackends .backends value = .error error ∧
      Refused (entries (pieces value)) error := by
  rw [readBackends_eq]
  have named {entry : String} (entry_mem : entry ∈ entries (pieces value)) {backend : Backend} :
      readEntry entry = .ok backend ↔ Names entry backend := by
    rw [← parse?_of_mem_entries entry_mem]
    rcases readEntry_spec entry with ⟨found, read, same⟩ | ⟨read, same⟩ <;> simp [read, same]
  generalize entries (pieces value) = listed at named
  by_cases none : listed = []
  · exact .inr ⟨_, if_pos none, .empty none⟩
  rw [if_neg none]
  by_cases many : 16 < listed.length
  · exact .inr ⟨_, if_pos many, .tooMany many⟩
  rw [if_neg many]
  have few : listed.length ≤ 16 := Nat.le_of_not_lt many
  rcases Except.mapM_spec readEntry listed with
    ⟨backends, outcome, each, held⟩ | ⟨before, entry, after, error, parts, sound, refused, outcome⟩
  · refine .inl ⟨_, by rw [outcome]; rfl, ⟨List.length_pos_of_ne_nil none, few, ?_⟩,
      Settings.normalBackends_increasing _, fun backend => ?_⟩
    · intro entry entry_mem
      obtain ⟨backend, read⟩ := each entry entry_mem
      exact ⟨backend, (named entry_mem).mp read⟩
    · rw [Settings.mem_normalBackends, held]
      exact exists_congr fun entry => and_congr_right fun entry_mem => named entry_mem
  · have entry_mem : entry ∈ listed := by simp [parts]
    rcases readEntry_spec entry with ⟨_, read, _⟩ | ⟨read, _⟩
    · cases refused.symm.trans read
    cases refused.symm.trans read
    refine .inr ⟨_, by rw [outcome]; rfl, .unsupported few parts ?_ ?_⟩
    · intro other before
      obtain ⟨backend, read⟩ := sound other before
      exact ⟨backend, (named (by simp [parts, before])).mp read⟩
    · rintro ⟨backend, names⟩
      cases ((named entry_mem).mpr names).symm.trans read

theorem entries_trim (value : String) :
    entries (pieces (Text.trim value)) = entries (pieces value) := by
  rw [entries_pieces, entries_pieces, Text.filledSegments_trim (by decide)]

/-- Of the variables that are read, only that of the backends is set. -/
structure Lists (vars : Variables) (value : String) : Prop where
  backends : vars.get? Variable.backends.name = some value
  sink : vars.get? Variable.sink.name = none
  sinkPath : vars.get? Variable.sinkPath.name = none

variable {vars vars' : Variables} {value value' : String}

theorem read_of_lists (lists : Lists vars value) (nonempty : Text.trim value ≠ "") :
    Environment.read vars =
      (Environment.readBackends .backends (Text.trim value)).map fun backends =>
        ⟨some backends, none, none⟩ := by
  rw [Environment.read, Environment.value?, Environment.value?, Environment.value?, lists.backends,
    lists.sink, lists.sinkPath]
  simp only [if_neg nonempty, bind, Except.bind, Option.mapM_some, Option.mapM_none]
  cases Environment.readBackends .backends (Text.trim value) <;> rfl

/-- What a list in the environment comes to, where no other variable is set. -/
theorem read_spec (lists : Lists vars value) :
    (∃ backends, Environment.read vars = .ok ⟨some backends, none, none⟩ ∧
      Sound (entries (pieces value)) ∧ Chosen (entries (pieces value)) backends) ∨
    ∃ error, Environment.read vars = .error error ∧ Refused (entries (pieces value)) error := by
  by_cases blank : Text.trim value = ""
  · have none : entries (pieces value) = [] := by
      rw [← entries_trim, blank]
      rfl
    refine .inr ⟨.empty .backends, ?_, .empty none⟩
    rw [Environment.read, Environment.value?, lists.backends]
    simp only [if_pos blank]
    rfl
  · rw [read_of_lists lists blank, ← entries_trim]
    rcases readBackends_spec (Text.trim value) with
      ⟨backends, outcome, sound, chosen⟩ | ⟨error, outcome, refused⟩
    · exact .inl ⟨backends, by rw [outcome]; rfl, sound, chosen⟩
    · exact .inr ⟨error, by rw [outcome]; rfl, refused⟩

/-- One change of spelling that changes no label: an order, a case, blanks around a piece, a blank
piece, or a piece that was there before. -/
inductive Respells : List String → List String → Prop
  | reorder {pieces pieces' : List String} (same : pieces.Perm pieces') : Respells pieces pieces'
  | recase {piece piece' : String} (before after : List String)
      (same : Text.lower piece = Text.lower piece') :
      Respells (before ++ piece :: after) (before ++ piece' :: after)
  | pad {front back : String} (piece : String) (before after : List String)
      (leading : ∀ c ∈ front.toList, Text.isBlank c = true)
      (trailing : ∀ c ∈ back.toList, Text.isBlank c = true) :
      Respells (before ++ piece :: after) (before ++ (front ++ piece ++ back) :: after)
  | blank {gap : String} (before after : List String)
      (blank : ∀ c ∈ gap.toList, Text.isBlank c = true) :
      Respells (before ++ after) (before ++ gap :: after)
  | again {piece : String} {before after : List String} (held : piece ∈ before ++ after) :
      Respells (before ++ after) (before ++ piece :: after)

def words (pieces : List String) : List String := (entries pieces).map Text.lower

theorem lower_eq_empty_iff {text : String} : Text.lower text = "" ↔ text = "" := by
  rw [← String.toList_inj, ← String.toList_inj]
  simp [Text.lower]

theorem mem_words_iff {pieces : List String} {word : String} :
    word ∈ words pieces ↔ word ≠ "" ∧ ∃ piece ∈ pieces, Text.lower (Text.trim piece) = word := by
  have nonempty {piece : String} : Text.trim piece ≠ "" ↔ Text.lower (Text.trim piece) ≠ "" :=
    not_congr lower_eq_empty_iff.symm
  simp only [words, entries, List.mem_map, List.mem_filter, decide_eq_true_eq]
  grind

theorem Respells.words {pieces pieces' : List String} (respells : Respells pieces pieces')
    (word : String) : word ∈ words pieces ↔ word ∈ words pieces' := by
  rw [mem_words_iff, mem_words_iff]
  refine and_congr_right fun nonempty => ?_
  cases respells with
  | reorder same => simp only [same.mem_iff]
  | recase before after same =>
    simp only [← Text.trim_lower, List.mem_append, List.mem_cons, or_and_right, exists_or,
      exists_eq_left, same]
  | @pad front back piece before after leading trailing =>
    have same : Text.trim (front ++ piece ++ back) = Text.trim piece := by
      rw [Text.trim_append_blanks trailing, Text.trim_blank_append leading]
    simp only [List.mem_append, List.mem_cons, or_and_right, exists_or, exists_eq_left, same]
  | @blank gap before after blank =>
    have nothing : Text.lower (Text.trim gap) = "" := by
      rw [Text.trim_eq_empty_iff.mpr blank]
      rfl
    have other : Text.lower (Text.trim gap) ≠ word := nothing ▸ Ne.symm nonempty
    simp only [List.mem_append, List.mem_cons, or_and_right, exists_or, exists_eq_left, other,
      false_or]
  | again held =>
    constructor
    · rintro ⟨piece, piece_mem, said⟩
      exact ⟨piece, by grind, said⟩
    · rintro ⟨piece, piece_mem, said⟩
      exact ⟨piece, by grind, said⟩

/-- However a list is spelled, it has the same words. -/
theorem words_of_respells {pieces pieces' : List String}
    (respelled : Relation.EqvGen Respells pieces pieces') (word : String) :
    word ∈ words pieces ↔ word ∈ words pieces' := by
  induction respelled with
  | rel _ _ respells => exact respells.words word
  | refl => exact Iff.rfl
  | symm _ _ _ ih => exact ih.symm
  | trans _ _ _ _ _ ih ih' => exact ih.trans ih'

theorem names_iff_words {pieces : List String} {backend : Backend} :
    (∃ entry ∈ entries pieces, Names entry backend) ↔ label backend ∈ words pieces := by
  rw [words, List.mem_map]
  rfl

/-- What a list that is accepted comes to depends on its words alone. -/
theorem read_of_words (lists : Lists vars value) (lists' : Lists vars' value')
    (same : ∀ word, word ∈ words (pieces value) ↔ word ∈ words (pieces value'))
    (few : (entries (pieces value')).length ≤ 16) {environment : Environment}
    (read : Environment.read vars = .ok environment) :
    Environment.read vars' = .ok environment := by
  rcases read_spec lists with ⟨backends, outcome, sound, chosen⟩ | ⟨error, outcome, _⟩
  case inr => cases read.symm.trans outcome
  cases read.symm.trans outcome
  have sound' : Sound (entries (pieces value')) := by
    refine ⟨?_, few, fun entry' entry_mem' => ?_⟩
    · obtain ⟨entry, entry_mem⟩ := List.exists_mem_of_length_pos sound.filled
      have word := (same (Text.lower entry)).mp (List.mem_map_of_mem entry_mem)
      obtain ⟨entry', entry_mem', _⟩ := List.mem_map.mp word
      exact List.length_pos_of_mem entry_mem'
    · have word := (same (Text.lower entry')).mpr (List.mem_map_of_mem entry_mem')
      obtain ⟨entry, entry_mem, lowered⟩ := List.mem_map.mp word
      obtain ⟨backend, names⟩ := sound.labels entry entry_mem
      exact ⟨backend, lowered.symm.trans names⟩
  rcases read_spec lists' with ⟨backends', outcome', _, chosen'⟩ | ⟨error, _, refused⟩
  · have equal : backends' = backends := by
      refine chosen'.unique ⟨chosen.increasing, fun backend => ?_⟩
      rw [chosen.named, names_iff_words, names_iff_words, same]
    rw [outcome', equal]
  · exact absurd refused (sound'.not_refused error)

/-- Labels that are joined by commas are parted there again. -/
theorem pieces_join {backends : List Backend} (listed : backends ≠ []) :
    pieces (",".intercalate (backends.map label)) = backends.map label := by
  have single : ",".toList = [','] := rfl
  have apart : ∀ text ∈ (backends.map label).map String.toList, ',' ∉ text := by
    simp only [List.map_map, List.mem_map, Function.comp_apply]
    rintro _ ⟨backend, _, rfl⟩
    cases backend <;> decide
  rw [pieces, String.toList_intercalate, single, List.splitOn_intercalate ',' apart (by simpa),
    List.map_map]
  simp [Function.comp_def]

theorem trim_label (backend : Backend) : Text.trim (label backend) = label backend := by
  cases backend <;> rfl

theorem names_label_iff {backend other : Backend} :
    Names (label backend) other ↔ other = backend := by
  have lowered : Text.lower (label backend) = label backend := by cases backend <;> rfl
  rw [Names, lowered]
  exact ⟨fun same => (Labelled.label_injective same).symm, fun same => same ▸ rfl⟩

theorem entries_labels (backends : List Backend) :
    entries (backends.map label) = backends.map label := by
  have nonempty (backend : Backend) : label backend ≠ "" := by cases backend <;> decide
  simp [entries, Function.comp_def, trim_label, nonempty]

theorem sound_labels {backends : List Backend} (listed : backends ≠ []) (distinct : backends.Nodup) :
    Sound (backends.map label) := by
  have all : backends ⊆ Labelled.all := fun backend _ => by cases backend <;> decide
  refine ⟨?_, ?_, ?_⟩
  · rw [List.length_map]
    exact List.length_pos_of_ne_nil listed
  · have few : backends.length ≤ 5 := (List.subperm_of_subset distinct all).length_le
    simpa using few.trans (by decide)
  · rintro _ label_mem
    obtain ⟨backend, _, rfl⟩ := List.mem_map.mp label_mem
    exact ⟨backend, names_label_iff.mpr rfl⟩

end BackendList

open BackendList

/-- A list is accepted just when it has some entries, not too many, and each is a label; it then comes
to the backends that are named. Of all else one fault is reported. Other spellings of a list that is
accepted come to the same, and labels with commas between them come to the backends they belong to. -/
theorem read_listed {vars : Variables} {value : String} (lists : Lists vars value) :
    let listed := entries (pieces value)
    ((∃ backends, Environment.read vars = .ok ⟨some backends, none, none⟩) ↔ Sound listed) ∧
      (∀ environment, Environment.read vars = .ok environment →
        ∃ backends, environment = ⟨some backends, none, none⟩ ∧ Chosen listed backends) ∧
      (∀ error, Environment.read vars = .error error ↔ Refused listed error) ∧
      (∀ environment vars' value', Environment.read vars = .ok environment → Lists vars' value' →
        Relation.EqvGen Respells (pieces value) (pieces value') →
        (entries (pieces value')).length ≤ 16 → Environment.read vars' = .ok environment) ∧
      ∀ backends : List Backend, backends ≠ [] → backends.Nodup →
        value = ",".intercalate (backends.map label) →
        ∃ read, Environment.read vars = .ok ⟨some read, none, none⟩ ∧
          ∀ backend, backend ∈ read ↔ backend ∈ backends := by
  intro listed
  have outcome := read_spec lists
  refine ⟨⟨?_, ?_⟩, ?_, ?_, ?_, ?_⟩
  · rintro ⟨backends, read⟩
    rcases outcome with ⟨_, _, sound, _⟩ | ⟨error, refused, _⟩
    · exact sound
    · cases read.symm.trans refused
  · intro sound
    rcases outcome with ⟨backends, read, _⟩ | ⟨error, _, refused⟩
    · exact ⟨backends, read⟩
    · exact absurd refused (sound.not_refused error)
  · intro environment read
    rcases outcome with ⟨backends, same, _, chosen⟩ | ⟨error, refused, _⟩
    · cases read.symm.trans same
      exact ⟨backends, rfl, chosen⟩
    · cases read.symm.trans refused
  · intro error
    rcases outcome with ⟨backends, read, sound, _⟩ | ⟨reported, read, refused⟩
    · have accepted : ¬Refused listed error := sound.not_refused error
      simp [read, accepted]
    · rw [read, Except.error.injEq]
      exact ⟨fun same => same ▸ refused, refused.unique⟩
  · intro environment vars' value' read lists' respelled few
    exact read_of_words lists lists' (words_of_respells respelled) few read
  · rintro backends nonempty distinct rfl
    have same : listed = backends.map label :=
      (congrArg entries (pieces_join nonempty)).trans (entries_labels backends)
    rcases outcome with ⟨read, outcome, _, chosen⟩ | ⟨error, _, refused⟩
    · refine ⟨read, outcome, fun backend => ?_⟩
      have named := chosen.named backend
      change backend ∈ read ↔ ∃ entry ∈ listed, Names entry backend at named
      simpa [same, names_label_iff] using named
    · change Refused listed error at refused
      exact absurd (same ▸ refused) ((sound_labels nonempty distinct).not_refused error)

theorem read_listed_respelled :
    let vars : Variables := .ofList [("OPSTATS_BACKENDS", "tracing,json"), ("PATH", "/bin")]
    let vars' : Variables := .ofList [("OPSTATS_BACKENDS", " json ,TRACING")]
    Lists vars "tracing,json" ∧ Lists vars' " json ,TRACING" ∧
      Environment.read vars = .ok ⟨some [.json, .tracing], none, none⟩ ∧
      Environment.read vars' = .ok ⟨some [.json, .tracing], none, none⟩ := by
  intro vars vars'
  have lists : Lists vars "tracing,json" := ⟨rfl, rfl, rfl⟩
  have lists' : Lists vars' " json ,TRACING" := ⟨rfl, rfl, rfl⟩
  have read : Environment.read vars = .ok ⟨some [.json, .tracing], none, none⟩ := by decide +kernel
  have before : pieces "tracing,json" = ["tracing", "json"] := by decide +kernel
  have after : pieces " json ,TRACING" = [" json ", "TRACING"] := by decide +kernel
  have respelled : Relation.EqvGen Respells (pieces "tracing,json") (pieces " json ,TRACING") := by
    rw [before, after]
    have swapped : Respells ["tracing", "json"] ["json", "tracing"] := .reorder (.swap ..)
    have blank : ∀ c ∈ " ".toList, Text.isBlank c = true := by
      have space : " ".toList = [' '] := rfl
      rw [space, List.forall_mem_singleton]
      rfl
    have padded : Respells ["json", "tracing"] [" json ", "tracing"] :=
      .pad "json" [] ["tracing"] blank blank
    have raised : Respells [" json ", "tracing"] [" json ", "TRACING"] :=
      .recase [" json "] [] (by decide +kernel)
    exact .trans _ _ _ (.rel _ _ swapped) (.trans _ _ _ (.rel _ _ padded) (.rel _ _ raised))
  refine ⟨lists, lists', read, ?_⟩
  exact (read_listed lists).2.2.2.1 _ vars' _ read lists' respelled (by decide +kernel)

end Config

end StatsRelay
