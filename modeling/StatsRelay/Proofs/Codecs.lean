import StatsRelay.Config.Settings
import StatsRelay.Proofs.Documents
import StatsRelay.Proofs.Fields

/-! Codecs that read back what they have written, from the document in which it is found. A table
does so if its columns do, also when the members of the object stand in another order. -/
namespace StatsRelay

open StatsRelay.Json (Value)

/-- Ways in which a written value is found: integers that fit sixty-four bits and all that is no
number are as they were, and only members may be in another order. -/
structure Rendering (found : Value → Document) : Prop where
  null : found .null = .null
  string (text : String) : found (.string text) = .string (some text)
  integer {n : Int} (low : -9223372036854775808 ≤ n) (high : n < 18446744073709551616) :
    found (.number (.integer n)) = .number (some (.integer n))
  array (items : List Value) : found (.array items) = .array (items.map found)
  object {members : List (String × Value)} (distinct : (members.map (·.1)).Nodup) :
    ∃ others : Members, found (.object members) = .object others ∧
      others.Perm (members.map fun member => (some member.1, found member.2))

theorem rendering_ofValue : Rendering Document.ofValue where
  null := rfl
  string _ := rfl
  integer _ _ := rfl
  array items := by rw [Document.ofValue, Document.ofItems_eq_map]
  object {members} _ := by
    rw [Document.ofValue, Document.ofMembers_eq_map]
    exact ⟨_, rfl, .refl _⟩

variable {found : Value → Document}

namespace Codec

variable {α : Type} {codec : Codec α}

/-- A text is decoded just if its document is read and nothing follows it. -/
theorem decode_ok_iff {text : String} {value : α} :
    codec.decode text = .ok value ↔
      codec.read (Json.read text).document = .ok value ∧ (Json.read text).complete = true := by
  refine Except.bind_eq_ok_iff.trans ⟨?_, ?_⟩
  · rintro ⟨value', read, ended⟩
    split at ended
    · rename_i complete
      cases ended
      exact ⟨read, complete⟩
    · cases ended
  · rintro ⟨read, complete⟩
    exact ⟨value, read, if_pos complete⟩

def Faithful (codec : Codec α) (found : Value → Document) (value : α) : Prop :=
  codec.read (found (codec.write value)) = .ok value

theorem text_faithful (rendering : Rendering found) (value : String) : text.Faithful found value := by
  rw [Faithful, text, rendering.string]

theorem uint32_faithful (rendering : Rendering found) (value : UInt32) :
    uint32.Faithful found value := by
  have bound := value.toNat_lt
  have inRange : (0 : Int) ≤ value.toNat ∧ (value.toNat : Int) ≤ 4294967295 := by omega
  have read : readInteger 0 4294967295 (found (.ofNat value.toNat)) = .ok value.toNat := by
    rw [Value.ofNat, rendering.integer (by omega) (by omega)]
    exact if_pos inRange
  refine Except.bind_eq_ok_iff.mpr ⟨_, read, ?_⟩
  exact congrArg Except.ok UInt32.ofNat_toNat

theorem int32_faithful (rendering : Rendering found) (value : Int32) :
    int32.Faithful found value := by
  have low := value.le_toInt
  have high := value.toInt_lt
  have inRange : -2147483648 ≤ value.toInt ∧ value.toInt ≤ 2147483647 := by omega
  have read : readInteger (-2147483648) 2147483647 (found (.number (.integer value.toInt))) =
      .ok value.toInt := by
    rw [rendering.integer (by omega) (by omega)]
    exact if_pos inRange
  refine Except.bind_eq_ok_iff.mpr ⟨_, read, ?_⟩
  exact congrArg Except.ok (Int32.ofInt_toInt value)

theorem labels_faithful (rendering : Rendering found) [Labelled α] [LawfulLabelled α] (value : α) :
    (Labelled.codec : Codec α).Faithful found value := by
  rw [Faithful, Labelled.codec, rendering.string]
  exact Labelled.read_ok_iff.mpr rfl

theorem list_faithful (rendering : Rendering found) {values : List α}
    (each : ∀ value ∈ values, codec.Faithful found value) : (list codec).Faithful found values := by
  rw [Faithful, list, rendering.array]
  change readList codec ((values.map codec.write).map found) = .ok values
  induction values with
  | nil => rfl
  | cons value rest ih =>
    obtain ⟨first, others⟩ := List.forall_mem_cons.mp each
    refine Except.bind_eq_ok_iff.mpr ⟨value, first, ?_⟩
    exact Except.bind_eq_ok_iff.mpr ⟨rest, ih others, rfl⟩

/-- Where null is no value of the codec, it can stand for none. -/
theorem option_faithful (rendering : Rendering found)
    (refusesNull : ∀ value, codec.read .null ≠ .ok value)
    {value : Option α} (held : ∀ inner, value = some inner → codec.Faithful found inner) :
    (option codec).Faithful found value := by
  cases value with
  | none => rw [Faithful, option, rendering.null]
  | some inner =>
    have read : codec.read (found (codec.write inner)) = .ok inner := held inner rfl
    have apart : found (codec.write inner) ≠ .null := fun none => refusesNull inner (none ▸ read)
    unfold Faithful option
    simp only [read]
    rfl

theorem map_faithful {map : SortedMap String α}
    (each : ∀ entry ∈ map.entries, codec.Faithful .ofValue entry.2) :
    (Codec.map codec).Faithful .ofValue map := by
  have entries : readEntries codec (Document.ofMembers
      (map.entries.map fun entry => (entry.1, codec.write entry.2))) = .ok map.entries := by
    generalize map.entries = entries at each
    induction entries with
    | nil => rfl
    | cons entry rest ih =>
      obtain ⟨first, others⟩ := List.forall_mem_cons.mp each
      refine Except.bind_eq_ok_iff.mpr ⟨entry.2, first, ?_⟩
      exact Except.bind_eq_ok_iff.mpr ⟨rest, ih others, rfl⟩
  have same : SortedMap.ofList map.entries = map :=
    SortedMap.ext (SortedMap.ofList_entries map.increasing)
  change SortedMap.ofList <$> readEntries codec _ = .ok map
  rw [entries]
  exact congrArg Except.ok same

end Codec

/-- A value that is shown is read back, and one that is not is what the column has by default. -/
def Column.Faithful (column : Column) (found : Value → Document) (value : column.Carrier) : Prop :=
  if column.shown value then column.codec.Faithful found value else column.absent = some value

namespace Row

def Faithful (found : Value → Document) : (columns : List Column) → Row columns → Prop
  | [], _ => True
  | column :: rest, (value, row) => column.Faithful found value ∧ Faithful found rest row

theorem names_members (columns : List Column) (row : Row columns) :
    ((members columns row).map (·.1)).Sublist (columns.map Column.name) := by
  induction columns with
  | nil => exact .slnil
  | cons column rest ih =>
    obtain ⟨value, row⟩ := row
    rw [members]
    split
    · exact (ih row).cons_cons _
    · exact (ih row).cons _

def rendered (found : Value → Document) (columns : List Column) (row : Row columns) : Members :=
  (members columns row).map fun member => (some member.1, found member.2)

theorem rendered_cons {column : Column} {rest : List Column} {value : column.Carrier}
    {row : Row rest} : rendered found (column :: rest) (value, row) =
      if column.shown value then
        (some column.name, found (column.codec.write value)) :: rendered found rest row
      else rendered found rest row := by
  unfold rendered
  rw [members]
  split <;> rfl

theorem names_rendered (columns : List Column) (row : Row columns) :
    (rendered found columns row).map (·.1) = ((members columns row).map (·.1)).map some := by
  simp [rendered, Function.comp_def]

/-- A row whose values are read back is read back from the members it is written as. -/
theorem reads_members {columns : List Column} (distinct : (columns.map Column.name).Nodup)
    {row : Row columns} (faithful : Faithful found columns row) :
    Reads (Row.rendered found columns row) columns row := by
  induction columns with
  | nil => trivial
  | cons column rest ih =>
    obtain ⟨value, row⟩ := row
    obtain ⟨here, there⟩ := faithful
    obtain ⟨absent, others⟩ := List.nodup_cons.mp distinct
    have later := ih others there
    unfold Column.Faithful at here
    rw [rendered_cons]
    split
    · rename_i shown
      rw [if_pos shown] at here
      refine ⟨?_, (reads_cons absent _ row).mpr later⟩
      simpa [Column.Reads, Codec.Faithful] using here
    · rename_i hidden
      rw [if_neg hidden] at here
      have unlisted : some column.name ∉ (Row.rendered found rest row).map (·.1) := by
        rw [names_rendered]
        intro listed
        obtain ⟨name, name_mem, same⟩ := List.mem_map.mp listed
        exact absent (Option.some.inj same ▸ (names_members rest row).subset name_mem)
      refine ⟨?_, later⟩
      rw [Column.Reads, lookup_eq_none_iff_not_mem.mpr unlisted]
      exact here

end Row

namespace Table

variable {α : Type} {table : Table α} {value : α}

/-- Where a table can tell its columns apart, shows what it reads, and loses nothing in its rows. -/
structure Faithful (table : Table α) (found : Value → Document) (value : α) : Prop where
  distinct : (table.columns.map Column.name).Nodup
  lossless : table.ofRow (table.toRow value) = value
  row : Row.Faithful found table.columns (table.toRow value)

theorem Faithful.names_nodup (faithful : table.Faithful found value) :
    ((table.members value).map (·.1)).Nodup :=
  faithful.distinct.sublist (Row.names_members table.columns (table.toRow value))

/-- The order of the members does not matter. -/
theorem Faithful.read_of_perm (faithful : table.Faithful found value) {members : Members}
    (same : members.Perm (Row.rendered found table.columns (table.toRow value))) :
    table.codec.read (.object members) = .ok value := by
  have named := Row.names_members table.columns (table.toRow value)
  have distinct : ((Row.rendered found table.columns (table.toRow value)).map (·.1)).Nodup := by
    rw [Row.names_rendered]
    exact faithful.names_nodup.map fun _ _ same => Option.some.inj same
  have distinct' : (members.map (·.1)).Nodup := (same.map (·.1)).nodup_iff.mpr distinct
  have known : ∀ member ∈ members, ∃ column ∈ table.columns, member.1 = some column.name := by
    intro member member_mem
    have listed := List.mem_map_of_mem (f := (·.1)) (same.mem_iff.mp member_mem)
    rw [Row.names_rendered] at listed
    obtain ⟨name, held, equal⟩ := List.mem_map.mp listed
    obtain ⟨column, member_mem', rfl⟩ := List.mem_map.mp (named.subset held)
    exact ⟨column, member_mem', equal.symm⟩
  have row : Row.ofMembers table.strict table.columns members = .ok (table.toRow value) := by
    refine Row.ofMembers_of_reads _ faithful.distinct distinct' known ?_
    refine (Row.reads_congr (fun column _ => ?_) _).mpr
      (Row.reads_members faithful.distinct faithful.row)
    apply Option.ext
    intro document
    rw [lookup_eq_some_iff_mem distinct', same.mem_iff]
    exact (lookup_eq_some_iff_mem distinct).symm
  change table.ofRow <$> Row.ofMembers table.strict table.columns members = .ok value
  rw [row]
  exact congrArg Except.ok faithful.lossless

/-- What each column gives back, the whole table gives back. -/
theorem Faithful.codec (faithful : table.Faithful found value) (rendering : Rendering found) :
    table.codec.Faithful found value := by
  obtain ⟨others, same, perm⟩ := rendering.object faithful.names_nodup
  have read := faithful.read_of_perm perm
  rw [← same] at read
  exact read

end Table

namespace Config

instance : LawfulLabelled Backend := ⟨by intro value; cases value <;> rfl⟩
instance : LawfulLabelled SinkKind := ⟨by intro value; cases value <;> rfl⟩

theorem SinkSettings.faithful (sink : SinkSettings) : table.Faithful .ofValue sink where
  distinct := by decide
  lossless := rfl
  row := by
    refine ⟨Codec.labels_faithful rendering_ofValue sink.kind, ?_, trivial⟩
    obtain ⟨kind, path⟩ := sink
    cases path <;> rfl

/-- Settings of any version, valid or not, are read back. -/
theorem Settings.faithful (settings : Settings) : table.Faithful .ofValue settings where
  distinct := by decide
  lossless := rfl
  row := ⟨Codec.uint32_faithful rendering_ofValue settings.version,
    Codec.list_faithful rendering_ofValue fun backend _ =>
      Codec.labels_faithful rendering_ofValue backend,
    settings.sink.faithful.codec rendering_ofValue,
    Codec.map_faithful fun entry _ => Codec.text_faithful rendering_ofValue entry.2, trivial⟩

end Config

end StatsRelay
