import StatsRelay.Proofs.Layers

/-! Settings as overrides. Every column of the settings has one among the overrides that reads
whatever it reads, so a text of settings is a text of overrides too; and over what holds where
nothing is set, both say the same. -/
namespace StatsRelay

/-- A codec that reads every document that another reads, if perhaps as something else. -/
def Codec.Covers {α β : Type} (wide : Codec α) (narrow : Codec β) : Prop :=
  ∀ {document value}, narrow.read document = .ok value → ∃ other, wide.read document = .ok other

theorem Codec.covers_refl {α : Type} (codec : Codec α) : codec.Covers codec := fun read => ⟨_, read⟩

/-- A wider codec stays wider where values may be left out. -/
theorem Codec.option_covers {α β : Type} {wide : Codec α} {narrow : Codec β}
    (covers : wide.Covers narrow) : wide.option.Covers narrow := by
  intro document value read
  obtain ⟨other, found⟩ := covers read
  cases document with
  | null => exact ⟨none, rfl⟩
  | _ => exact ⟨some other, by simp [option, found]⟩

/-- A column of the same name, which can be left out. -/
structure Column.Covers (wide narrow : Column) : Prop where
  name : wide.name = narrow.name
  codec : wide.codec.Covers narrow.codec
  absent : ∃ value, wide.absent = some value

theorem Column.Covers.reads {wide narrow : Column} (covers : wide.Covers narrow)
    {members : Members} {value : narrow.Carrier} (reads : narrow.Reads members value) :
    ∃ other, wide.Reads members other := by
  unfold Column.Reads at reads ⊢
  rw [covers.name]
  cases found : members.lookup (some narrow.name) with
  | none => exact covers.absent
  | some document =>
    simp only [found] at reads
    exact covers.codec reads

namespace Row

variable {wide narrow : List Column} (covers : List.Forall₂ Column.Covers wide narrow)
include covers

theorem names_covers : wide.map Column.name = narrow.map Column.name := by
  induction covers with
  | nil => rfl
  | cons first _ ih => rw [List.map_cons, List.map_cons, first.name, ih]

/-- Wider columns read whatever narrower columns read. -/
theorem reads_covers {members : Members} {row : Row narrow} (reads : Reads members narrow row) :
    ∃ other, Reads members wide other := by
  induction covers with
  | nil => exact ⟨(), trivial⟩
  | cons first _ ih =>
    obtain ⟨value, here⟩ := first.reads reads.1
    obtain ⟨rest, there⟩ := ih reads.2
    exact ⟨(value, rest), here, there⟩

theorem ofMembers_covers (distinct : (narrow.map Column.name).Nodup) {members : Members}
    {row : Row narrow} (read : ofMembers true narrow members = .ok row) :
    ∃ other, ofMembers true wide members = .ok other := by
  have names := names_covers covers
  obtain ⟨slots, filledAll, _⟩ := Except.bind_eq_ok_iff.mp read
  have apart : (members.map (·.1)).Nodup :=
    Slots.nodup_of_fillAll_ok distinct [] .nil (Slots.holds_empty narrow) filledAll
  obtain ⟨known, reads⟩ := (ofMembers_ok_iff distinct apart row).mp read
  obtain ⟨other, reads⟩ := reads_covers covers reads
  refine ⟨other, (ofMembers_ok_iff (names ▸ distinct) apart other).mpr ⟨?_, reads⟩⟩
  intro member member_mem
  obtain ⟨column, listed, named⟩ := known member member_mem
  have listed : column.name ∈ wide.map Column.name := names ▸ List.mem_map_of_mem listed
  obtain ⟨partner, ours, same⟩ := List.mem_map.mp listed
  exact ⟨partner, ours, same ▸ named⟩

theorem ofItems_covers {items : List Document} {row : Row narrow}
    (read : ofItems narrow items = .ok row) : ∃ other, ofItems wide items = .ok other := by
  induction covers generalizing items with
  | nil => exact ⟨row, read⟩
  | @cons column partner _ _ first _ ih =>
    cases items with
    | nil =>
      rw [ofItems] at read
      split at read
      · obtain ⟨rest, later, _⟩ := Except.bind_eq_ok_iff.mp read
        obtain ⟨value, absent⟩ := first.absent
        obtain ⟨other, later⟩ := ih later
        refine ⟨(value, other), ?_⟩
        rw [ofItems, absent]
        exact Except.bind_eq_ok_iff.mpr ⟨other, later, rfl⟩
      · cases read
    | cons item items =>
      obtain ⟨value, here, read⟩ := Except.bind_eq_ok_iff.mp read
      obtain ⟨rest, later, _⟩ := Except.bind_eq_ok_iff.mp read
      obtain ⟨value, here⟩ := first.codec here
      obtain ⟨other, later⟩ := ih later
      refine ⟨(value, other), Except.bind_eq_ok_iff.mpr ⟨value, here, ?_⟩⟩
      exact Except.bind_eq_ok_iff.mpr ⟨other, later, rfl⟩

end Row

theorem Table.codec_covers {α β : Type} {wide : Table α} {narrow : Table β}
    (strict : wide.strict = true ∧ narrow.strict = true)
    (distinct : (narrow.columns.map Column.name).Nodup)
    (covers : List.Forall₂ Column.Covers wide.columns narrow.columns) :
    wide.codec.Covers narrow.codec := by
  have ofMembers {members : Members} {value : β} (read : narrow.ofMembers members = .ok value) :
      ∃ other, wide.ofMembers members = .ok other := by
    rw [Table.ofMembers, strict.2] at read
    obtain ⟨row, read, _⟩ := Except.bind_eq_ok_iff.mp read
    obtain ⟨other, found⟩ := Row.ofMembers_covers covers distinct read
    exact ⟨wide.ofRow other, by rw [Table.ofMembers, strict.1, found]; rfl⟩
  intro document value read
  cases document with
  | array items =>
    obtain ⟨row, read, _⟩ := Except.bind_eq_ok_iff.mp read
    obtain ⟨other, found⟩ := Row.ofItems_covers covers read
    exact ⟨wide.ofRow other, by simp [codec, Table.ofItems, found]⟩
  | object members => exact ofMembers read
  | moment => exact ofMembers read
  | _ => cases read

namespace Config

theorem Overrides.Sink.codec_covers : Sink.table.codec.Covers SinkSettings.table.codec := by
  apply Table.codec_covers ⟨rfl, rfl⟩ (by decide)
  refine .cons ⟨rfl, Codec.option_covers (Codec.covers_refl _), _, rfl⟩ (.cons ?_ .nil)
  exact ⟨rfl, Codec.covers_refl _, _, rfl⟩

/-- Whatever is read as settings is read as overrides. -/
theorem Overrides.codec_covers : table.codec.Covers Settings.codec := by
  apply Table.codec_covers ⟨rfl, rfl⟩ (by decide)
  refine .cons ⟨rfl, Codec.option_covers (Codec.covers_refl _), _, rfl⟩ (.cons ?_ (.cons ?_ ?_))
  · exact ⟨rfl, Codec.option_covers (Codec.covers_refl _), _, rfl⟩
  · exact ⟨rfl, Sink.codec_covers, _, rfl⟩
  · exact .cons ⟨rfl, Codec.option_covers (Codec.covers_refl _), _, rfl⟩ .nil

/-- A text of settings does as overrides what it does as the file. -/
theorem load_as_overrides {text : String} {settings : Settings}
    (decoded : decode Settings.codec .json text = .ok settings) :
    (∃ overrides, decode Overrides.table.codec .json text = .ok overrides) ∧
      ∀ environment, load (some text) none environment = load none (some text) environment := by
  obtain ⟨read, complete⟩ := Codec.decode_ok_iff.mp decoded
  obtain ⟨overrides, found⟩ := Overrides.codec_covers read
  have decoded' : decode Overrides.table.codec .json text = .ok overrides :=
    Codec.decode_ok_iff.mpr ⟨found, complete⟩
  refine ⟨⟨overrides, decoded'⟩, fun environment => ?_⟩
  have same : settings = overrides.apply .standard := by
    rw [Overrides.eq_ofDocument found]
    exact Settings.eq_ofDocument read
  have above : applyLayers .standard (some text) environment =
      validated (environment.apply (overrides.apply .standard)) := by
    rw [applyLayers, decodeLayer_ok decoded']
    rfl
  calc load (some text) none environment
      = validated (environment.apply settings) := by
        rw [load, decodeLayer_ok decoded]
        rfl
    _ = validated (environment.apply (overrides.apply .standard)) := by rw [same]
    _ = load none (some text) environment := above.symm

/-- An array with blanks around its path, under an environment that adds a backend. -/
theorem load_as_overrides_array :
    let text := "[1,[\"json\"],[\"file\",\" out.jsonl \"],\x7b\"team\":\"a\"\x7d]"
    let environment : Environment := ⟨some [.tracing, .json], none, none⟩
    let given : Settings := ⟨1, [.json], ⟨.file, some " out.jsonl "⟩, .ofList [("team", "a")]⟩
    let settings : Settings :=
      ⟨1, [.json, .tracing], ⟨.file, some "out.jsonl"⟩, .ofList [("team", "a")]⟩
    decode Settings.codec .json text = .ok given ∧
      load (some text) none environment = .ok settings ∧
        load none (some text) environment = .ok settings := by
  intro text environment given settings
  have decoded : decode Settings.codec .json text = .ok given := ok_of_toOption (by decide +kernel)
  have loaded : load (some text) none environment = .ok settings :=
    ok_of_toOption (by decide +kernel)
  exact ⟨decoded, loaded, ((load_as_overrides decoded).2 environment).symm.trans loaded⟩

end Config

end StatsRelay
