import StatsRelay.Config.Layers
import StatsRelay.Proofs.Codecs
import StatsRelay.Proofs.Utf8
import StatsRelay.Proofs.Validation

/-! Where each setting comes from when several layers are loaded: from the first that has it. A
layer has what its text has a member for, or an item at the place of the column, and null is as
good as no member. -/
namespace StatsRelay

def Members.says? {α : Type} (members : Members) (name : String) (codec : Codec α) : Option α :=
  match members.lookup (some name) with
  | none | some .null => none
  | some document => (codec.read document).toOption

def Document.membersFor (names : List String) : Document → Members
  | .array items => (names.map some).zip items
  | document => document.members?.getD []

namespace Column

variable {α : Type} {members : Members} {name : String} {codec : Codec α}

theorem says?_withDefault (refusesNull : codec.read .null = .error .malformed) {absent value : α}
    (reads : Column.Reads members (.withDefault name codec absent) value) :
    (members.says? name codec).getD absent = value := by
  unfold Column.Reads at reads
  unfold Members.says?
  cases found : members.lookup (some name) with
  | none =>
    simp only [found] at reads
    exact Option.some.inj reads
  | some document =>
    simp only [found] at reads
    cases document with
    | null => simp [refusesNull] at reads
    | _ => simp [reads, Except.toOption]

theorem says?_optional {value : Option α}
    (reads : Column.Reads members (.optional name codec) value) :
    members.says? name codec = value := by
  unfold Column.Reads at reads
  unfold Members.says?
  have given {document : Document} (read : some <$> codec.read document = .ok value) :
      (codec.read document).toOption = value := by
    obtain ⟨held, first, same⟩ := Except.bind_eq_ok_iff.mp read
    cases same
    rw [first]
    rfl
  cases found : members.lookup (some name) with
  | none =>
    simp only [found] at reads
    exact Option.some.inj reads
  | some document =>
    simp only [found] at reads
    cases document with
    | null => exact Except.ok.inj reads
    | _ => exact given reads

end Column

namespace Table

variable {α : Type} (table : Table α) {value : α}

theorem reads_of_read (strict : table.strict = true)
    (distinct : (table.columns.map Column.name).Nodup) {document : Document}
    (read : table.codec.read document = .ok value) :
    ∃ row, table.ofRow row = value ∧
      Row.Reads (document.membersFor (table.columns.map Column.name)) table.columns row := by
  have ofMembers {members : Members} (read : table.ofMembers members = .ok value) :
      ∃ row, table.ofRow row = value ∧ Row.Reads members table.columns row := by
    rw [Table.ofMembers, strict] at read
    obtain ⟨row, read, same⟩ := Except.bind_eq_ok_iff.mp read
    exact ⟨row, Except.ok.inj same, Row.reads_of_ofMembers distinct read⟩
  cases document with
  | array items =>
    obtain ⟨row, read, same⟩ := Except.bind_eq_ok_iff.mp read
    exact ⟨row, Except.ok.inj same, Row.reads_of_ofItems distinct read⟩
  | object members => exact ofMembers read
  | moment => exact ofMembers read
  | _ => cases read

theorem reads_of_withDefault (strict : table.strict = true)
    (distinct : (table.columns.map Column.name).Nodup) {members : Members} {name : String}
    {absent : α} (nothing : ∃ row, table.ofRow row = absent ∧ Row.Reads [] table.columns row)
    (reads : Column.Reads members (.withDefault name table.codec absent) value) :
    ∃ row, table.ofRow row = value ∧
      Row.Reads (((members.lookup (some name)).getD .null).membersFor
        (table.columns.map Column.name)) table.columns row := by
  unfold Column.Reads at reads
  cases found : members.lookup (some name) with
  | none =>
    simp only [found] at reads
    exact Option.some.inj reads ▸ nothing
  | some document =>
    simp only [found] at reads
    exact reads_of_read table strict distinct reads

end Table

namespace Config

namespace Overrides

def empty : Overrides := ⟨none, none, none, none, none⟩

def ofDocument (document : Document) : Overrides :=
  let members := document.membersFor ["version", "backends", "sink", "baseFields"]
  let sink := ((members.lookup (some "sink")).getD .null).membersFor ["kind", "path"]
  { version := members.says? "version" .uint32
    backends := members.says? "backends" (.list Labelled.codec)
    sinkKind := sink.says? "kind" Labelled.codec
    sinkPath := sink.says? "path" .text
    baseFields := members.says? "baseFields" (.map .text) }

def ofText : Option String → Overrides
  | none => empty
  | some text => ofDocument (Json.read text).document

/-- Overrides are what the members of their document say. -/
theorem eq_ofDocument {document : Document} {overrides : Overrides}
    (read : table.codec.read document = .ok overrides) : overrides = ofDocument document := by
  obtain ⟨⟨version, backends, sink, baseFields, _⟩, rfl, version', backends', sink', baseFields', _⟩
    := table.reads_of_read rfl (by decide) read
  obtain ⟨⟨kind, path, _⟩, rfl, kind', path', _⟩ :=
    Sink.table.reads_of_withDefault rfl (by decide) ⟨(none, none, ()), rfl, rfl, rfl, trivial⟩ sink'
  cases Column.says?_optional version'
  cases Column.says?_optional backends'
  cases Column.says?_optional kind'
  cases Column.says?_optional path'
  cases Column.says?_optional baseFields'
  rfl

/-- What one layer says, where this one has nothing to say. -/
def above (first second : Overrides) : Overrides where
  version := first.version.or second.version
  backends := first.backends.or second.backends
  sinkKind := first.sinkKind.or second.sinkKind
  sinkPath := first.sinkPath.or second.sinkPath
  baseFields := some ((second.baseFields.getD .empty).merge (first.baseFields.getD .empty))

/-- Two layers are one layer, in which the first has the say. -/
theorem apply_apply (first second : Overrides) (settings : Settings) :
    first.apply (second.apply settings) = (first.above second).apply settings := by
  have fields (base other top : SortedMap String String) :
      (base.merge other).merge top = base.merge (other.merge top) := by
    apply SortedMap.ext_get?
    intro key
    simp only [SortedMap.get?_merge, Option.or_assoc]
  have choice {α : Type} (first second : Option α) (last : α) :
      first.getD (second.getD last) = (first.or second).getD last := by
    cases first <;> rfl
  simp only [apply, above, choice, fields, Option.or_assoc, Option.getD_some]

end Overrides

/-- What the variables set comes before all else, by the same rules. -/
def Environment.layer (environment : Environment) : Overrides :=
  ⟨none, environment.backends, environment.sink, environment.sinkPath, none⟩

theorem Environment.apply_eq (environment : Environment) (settings : Settings) :
    environment.apply settings = environment.layer.apply settings := rfl

def Settings.layer (settings : Settings) : Overrides :=
  ⟨some settings.version, some settings.backends, some settings.sink.kind, settings.sink.path,
    some settings.baseFields⟩

/-- Settings are overrides above what holds where nothing is set. -/
theorem Settings.eq_ofDocument {document : Document} {settings : Settings}
    (read : codec.read document = .ok settings) :
    settings = (Overrides.ofDocument document).apply .standard := by
  obtain ⟨⟨version, backends, sink, baseFields, _⟩, rfl, version', backends', sink', baseFields', _⟩
    := table.reads_of_read rfl (by decide) read
  obtain ⟨⟨kind, path, _⟩, rfl, kind', path', _⟩ :=
    SinkSettings.table.reads_of_withDefault rfl (by decide)
      ⟨(.stderr, none, ()), rfl, rfl, rfl, trivial⟩ sink'
  cases Column.says?_withDefault rfl version'
  cases Column.says?_withDefault rfl backends'
  cases Column.says?_withDefault rfl kind'
  cases Column.says?_optional path'
  cases Column.says?_withDefault rfl baseFields'
  have merged (fields : SortedMap String String) : SortedMap.empty.merge fields = fields :=
    SortedMap.ext (SortedMap.ofList_entries fields.increasing)
  simp only [Overrides.apply, Settings.standard, SinkSettings.standard, merged, Option.or_none]
  rfl

/-- Each setting comes from the first layer that has it, and so does what stands under each key of
the base fields. -/
structure Merged (layers : List Overrides) (settings : Settings) : Prop where
  version : layers.findSome? (·.version) = some settings.version
  backends : layers.findSome? (·.backends) = some settings.backends
  sinkKind : layers.findSome? (·.sinkKind) = some settings.sink.kind
  sinkPath : layers.findSome? (·.sinkPath) = settings.sink.path
  baseFields : ∀ key, layers.findSome? (·.baseFields.bind (·.get? key)) =
    settings.baseFields.get? key

namespace Merged

variable {layers : List Overrides} {settings : Settings}

/-- Layers merge to one result. -/
theorem unique {other : Settings} (one : Merged layers settings) (second : Merged layers other) :
    settings = other := by
  obtain ⟨version, backends, ⟨kind, path⟩, fields⟩ := settings
  obtain ⟨version', backends', ⟨kind', path'⟩, fields'⟩ := other
  cases Option.some.inj (one.version.symm.trans second.version)
  cases Option.some.inj (one.backends.symm.trans second.backends)
  cases Option.some.inj (one.sinkKind.symm.trans second.sinkKind)
  cases one.sinkPath.symm.trans second.sinkPath
  cases SortedMap.ext_get? fun key => (one.baseFields key).symm.trans (second.baseFields key)
  rfl

theorem last (settings : Settings) : Merged [settings.layer] settings where
  version := rfl
  backends := rfl
  sinkKind := rfl
  sinkPath := by cases held : settings.sink.path <;> simp [Settings.layer, held]
  baseFields key := by
    cases held : settings.baseFields.get? key <;> simp [Settings.layer, held]

/-- One more layer on top. -/
theorem cons (layer : Overrides) (merged : Merged layers settings) :
    Merged (layer :: layers) (layer.apply settings) where
  version := by
    rw [List.findSome?_cons, merged.version]
    cases held : layer.version <;> simp [Overrides.apply, held]
  backends := by
    rw [List.findSome?_cons, merged.backends]
    cases held : layer.backends <;> simp [Overrides.apply, held]
  sinkKind := by
    rw [List.findSome?_cons, merged.sinkKind]
    cases held : layer.sinkKind <;> simp [Overrides.apply, held]
  sinkPath := by
    rw [List.findSome?_cons, merged.sinkPath]
    cases held : layer.sinkPath <;> simp [Overrides.apply, held]
  baseFields key := by
    rw [List.findSome?_cons, merged.baseFields, Overrides.apply, SortedMap.get?_merge]
    cases held : layer.baseFields with
    | none => simp [SortedMap.get?, SortedMap.empty]
    | some fields => cases found : fields.get? key <;> simp [found]

end Merged

def layersOf (file overrides : Option String) (environment : Environment) : List Overrides :=
  [environment.layer, .ofText overrides, .ofText file, Settings.standard.layer]

def Parses {α : Type} (codec : Codec α) (given : Option String) : Prop :=
  ∀ text ∈ given, ∃ value, decode codec .json text = .ok value

theorem decodeLayer_ok {α : Type} {codec : Codec α} {role : Role} {format : Format} {text : String}
    {value : α} (decoded : decode codec format text = .ok value) :
    decodeLayer codec role format text = .ok value := by
  rw [decodeLayer, decoded]
  rfl

theorem validated_ok_iff {given settings : Settings} :
    validated given = .ok settings ↔ given.validate = .ok settings := by
  unfold validated
  cases given.validate <;> simp [Except.mapError]

theorem applyLayers_eq {overrides : Option String}
    (parses : Parses Overrides.table.codec overrides) (settings : Settings)
    (environment : Environment) :
    applyLayers settings overrides environment =
      validated (environment.layer.apply ((Overrides.ofText overrides).apply settings)) := by
  rw [← environment.apply_eq]
  cases overrides with
  | none => rfl
  | some text =>
    obtain ⟨given, decoded⟩ := parses text rfl
    have layer : given = .ofText (some text) :=
      Overrides.eq_ofDocument (Codec.decode_ok_iff.mp decoded).1
    rw [applyLayers, decodeLayer_ok decoded, ← layer]
    rfl

theorem load_eq {file : Option String} (parses : Parses Settings.codec file)
    (overrides : Option String) (environment : Environment) :
    load file overrides environment = applyLayers ((Overrides.ofText file).apply .standard)
      overrides environment := by
  cases file with
  | none => rfl
  | some text =>
    obtain ⟨given, decoded⟩ := parses text rfl
    have layer : given = (Overrides.ofText (some text)).apply .standard :=
      Settings.eq_ofDocument (Codec.decode_ok_iff.mp decoded).1
    rw [load, decodeLayer_ok decoded, layer]
    rfl

theorem readFile_eq {files : FileSystem} {path text : String} {format : Format}
    (told : formatOf path = .ok format)
    (held : files.readBytes path = .ok (Text.Utf8.encodeString text)) :
    readFile files path = decodeLayer Settings.codec .file format text := by
  have read : files.readText path = .ok text := by
    rw [FileSystem.readText, held]
    simp [bind, Except.bind, FileSystem.textOf, Text.Utf8.decodeString?_encodeString]
  rw [readFile, told, read]
  rfl

/-- A load is the check of the one merge of its layers, whatever the layers are worth by
themselves, and a file is as good as its text. -/
theorem load_precedence (file overrides : Option String) (environment : Environment) :
    (Parses Settings.codec file → Parses Overrides.table.codec overrides → ∃ merged,
      Merged (layersOf file overrides environment) merged ∧
        (∀ other, Merged (layersOf file overrides environment) other → other = merged) ∧
        load file overrides environment = merged.validate.mapError .invalid ∧
        ∀ settings, load file overrides environment = .ok settings ↔
          merged.validate = .ok settings) ∧
    ∀ files path text, formatOf path = .ok .json →
      files.readBytes path = .ok (Text.Utf8.encodeString text) →
        loadFile files (some path) overrides environment =
          load (some text) overrides environment := by
  constructor
  · intro fileParses overridesParse
    have merged : Merged (layersOf file overrides environment) _ :=
      ((Merged.last .standard).cons (.ofText file)).cons (.ofText overrides) |>.cons
        environment.layer
    have loaded : load file overrides environment = validated _ :=
      (load_eq fileParses overrides environment).trans (applyLayers_eq overridesParse _ environment)
    exact ⟨_, merged, fun other also => also.unique merged, loaded,
      fun settings => loaded ▸ validated_ok_iff⟩
  · intro files path text format held
    rw [loadFile, readFile_eq format held]
    rfl

theorem ok_of_toOption {ε α : Type} {outcome : Except ε α} {value : α}
    (held : outcome.toOption = some value) : outcome = .ok value := by
  cases outcome with
  | ok found => exact congrArg Except.ok (Option.some.inj held)
  | error error => cases held

theorem parses_some {α : Type} {codec : Codec α} {text : String}
    (decodes : (decode codec .json text).toOption.isSome) : Parses codec (some text) := by
  rintro _ ⟨⟩
  obtain ⟨value, decoded⟩ := Option.isSome_iff_exists.mp decodes
  exact ⟨value, ok_of_toOption decoded⟩

/-- A file without a path for its lines, overrides that give one, and other backends from the
environment. -/
theorem load_precedence_mended_path :
    let file := "\x7b\"sink\":\x7b\"kind\":\"file\"\x7d," ++
      "\"baseFields\":\x7b\"team\":\"a\",\"zone\":\"b\"\x7d\x7d"
    let overrides := "[null,null,[null,\" out.jsonl \"],\x7b\"team\":\"c\"\x7d]"
    let environment : Environment := ⟨some [.telemetry, .json], none, none⟩
    let settings : Settings := ⟨1, [.json, .telemetry], ⟨.file, some "out.jsonl"⟩,
      .ofList [("team", "c"), ("zone", "b")]⟩
    let files : FileSystem :=
      ⟨.ofList [(["stats.json"], .file (Text.Utf8.encodeString file))], [], none⟩
    (∃ merged, Merged (layersOf file overrides environment) merged ∧
      merged.validate = .ok settings) ∧
        loadFile files (some "stats.json") (some overrides) environment = .ok settings := by
  intro file overrides environment settings files
  have fileParses : Parses Settings.codec (some file) := parses_some (by decide +kernel)
  have overridesParse : Parses Overrides.table.codec (some overrides) :=
    parses_some (by decide +kernel)
  have loaded : load file overrides environment = .ok settings :=
    ok_of_toOption (by decide +kernel)
  have precedence := load_precedence file overrides environment
  obtain ⟨merged, first, _, _, accepted⟩ := precedence.1 fileParses overridesParse
  refine ⟨⟨merged, first, (accepted settings).mp loaded⟩, ?_⟩
  rw [precedence.2 files "stats.json" file rfl rfl]
  exact loaded

end Config

end StatsRelay
