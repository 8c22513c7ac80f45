import StatsRelay.Config.Writer
import StatsRelay.Proofs.Layers
import StatsRelay.Proofs.Codecs
import StatsRelay.Proofs.Statements
import StatsRelay.Proofs.Tables

/-! Settings as a text of TOML. Each line of the text is a statement that is read as it was meant,
and the tables that they make are the members of the settings in another order. -/
namespace StatsRelay.Config.Settings

open StatsRelay.Json (Value)
open StatsRelay.Toml

def plainMembers (settings : Settings) : List (String × Value) :=
  [("version", Codec.uint32.write settings.version),
    ("backends", (Codec.list Labelled.codec).write settings.backends)]

def fieldMembers (settings : Settings) : List (String × Value) :=
  settings.baseFields.entries.map fun field => (field.1, .string field.2)

def statements (settings : Settings) : List Statement :=
  pairs settings.plainMembers ++
    (.table [] "sink" :: pairs (SinkSettings.table.members settings.sink) ++
      .table [] "baseFields" :: pairs settings.fieldMembers)

theorem bare_of_isFieldName {name : String} (legal : isFieldName name = true) :
    Bare name.toList := by
  unfold isFieldName at legal
  split at legal
  · cases legal
  · rename_i first rest held
    obtain ⟨letter, others⟩ := Bool.and_eq_true_iff.mp legal
    rw [held]
    refine ⟨by simp, List.forall_mem_cons.mpr ⟨?_, fun c c_mem => ?_⟩⟩
    · simp [isKeyChar, Char.isAlphanum, letter]
    · have allowed := List.all_eq_true.mp others c c_mem
      rw [isKeyChar, allowed, Bool.true_or]

section Lines

variable {text : List Char} {later : List Statement}

theorem lines_pairLine {name value : String} {found : Document} (bare : Bare name.toList)
    (shown : Shown value.toList)
    (read : readValue (value.toList ++ '\n' :: text) = some (found, '\n' :: text))
    (lines : Lines text later) :
    Lines ((pairLine name value).toList ++ text) (.pair [] name found :: later) := by
  have pair := Lines.pair bare shown read lines
  simpa [pairLine] using pair

theorem lines_quoted {name : String} (bare : Bare name.toList) (value : String)
    (lines : Lines text later) :
    Lines ((pairLine name (quoted value)).toList ++ text)
      (.pair [] name (.ofValue (.string value)) :: later) := by
  have written : (quoted value).toList = writeString value.toList := String.toList_ofList
  have read : readValue (writeString value.toList ++ '\n' :: text) = _ :=
    readNested_writeString nestingLimit value.toList (by simp [Unquoted])
  rw [stringOf, String.ofList_toList] at read
  apply lines_pairLine bare
  · rw [written]
    exact writeString_shown value.toList
  · rw [written]
    exact read
  · exact lines

/-- The base fields, one on each line. -/
theorem lines_fields {fields : List (String × String)}
    (bare : ∀ field ∈ fields, Bare field.1.toList) (lines : Lines text later) :
    Lines ((String.join (fields.map fun field => pairLine field.1 (quoted field.2))).toList ++ text)
      (pairs (fields.map fun field => (field.1, .string field.2)) ++ later) := by
  induction fields with
  | nil => exact lines
  | cons field rest ih =>
    obtain ⟨first, others⟩ := List.forall_mem_cons.mp bare
    have line := lines_quoted first field.2 (ih others)
    simpa [pairs, String.toList_join] using line

theorem toList_listText (entries : List String) :
    (listText entries).toList = writeList (entries.map String.toList) := by
  have line (entry : String) :
      ("    " ++ quoted entry ++ ",\n").toList = itemLine entry.toList := by
    simp [quoted, itemLine]
  have lines (entries : List String) :
      (String.join (entries.map fun entry => "    " ++ quoted entry ++ ",\n")).toList =
        (entries.map String.toList).flatMap itemLine := by
    simp only [String.toList_join, List.flatMap_map, line]
  obtain _ | ⟨entry, _ | ⟨second, entries⟩⟩ := entries
  · rfl
  · simp [listText, quoted, writeList]
  · have inner := lines (entry :: second :: entries)
    have written : listText (entry :: second :: entries) =
        "[\n" ++ String.join ((entry :: second :: entries).map fun entry =>
          "    " ++ quoted entry ++ ",\n") ++ "]" := rfl
    rw [written, String.toList_append, String.toList_append, inner]
    simp [writeList]

theorem shown_writeList (texts : List (List Char)) : Shown (writeList texts) := by
  obtain _ | ⟨text, _ | ⟨second, texts⟩⟩ := texts
  · exact ⟨'[', _, rfl, by decide⟩
  · exact ⟨'[', _, rfl, by decide⟩
  · exact ⟨'[', _, rfl, by decide⟩

theorem strings_of_labels (backends : List Backend) :
    ((backends.map label).map String.toList).map stringOf =
      Document.ofItems (backends.map (Labelled.codec : Codec Backend).write) := by
  induction backends with
  | nil => rfl
  | cons backend rest ih =>
    rw [List.map_cons, List.map_cons, List.map_cons, ih, List.map_cons, stringOf,
      String.ofList_toList]
    rfl

theorem lines_backends (backends : List Backend) (lines : Lines text later) :
    Lines ((pairLine "backends" (listText (backends.map label))).toList ++ text)
      (.pair [] "backends" (.ofValue ((Codec.list Labelled.codec).write backends)) :: later) := by
  have read := readValue_writeList ((backends.map label).map String.toList) ('\n' :: text)
  rw [strings_of_labels, ← toList_listText] at read
  apply lines_pairLine (bare_of_isFieldName rfl)
  · rw [toList_listText]
    exact shown_writeList _
  · exact read
  · exact lines

theorem lines_version {version : UInt32} (supported : version = supportedVersion)
    (lines : Lines text later) :
    Lines ((pairLine "version" (toString version.toNat)).toList ++ text)
      (.pair [] "version" (.ofValue (Codec.uint32.write version)) :: later) := by
  subst supported
  have shown : Shown (toString supportedVersion.toNat).toList := ⟨'1', [], rfl, by decide⟩
  have read : readValue ((toString supportedVersion.toNat).toList ++ '\n' :: text) =
      some (.ofValue (Codec.uint32.write supportedVersion), '\n' :: text) := rfl
  exact lines_pairLine (bare_of_isFieldName rfl) shown read lines

theorem lines_header {header : String} (name : String) (line : header = "\n[" ++ name ++ "]\n")
    (bare : Bare name.toList) (lines : Lines text later) :
    Lines (header.toList ++ text) (.table [] name :: later) := by
  have table := Lines.empty (Lines.table bare lines)
  subst line
  simpa using table

theorem lines_sink (sink : SinkSettings) (lines : Lines text later) :
    Lines ((pairLine "kind" (quoted (label sink.kind))).toList ++ ((match sink.path with
        | some path => pairLine "path" (quoted path)
        | none => "").toList ++ text))
      (pairs (SinkSettings.table.members sink) ++ later) := by
  obtain ⟨kind, path⟩ := sink
  cases path with
  | none => exact lines_quoted (bare_of_isFieldName rfl) (label kind) lines
  | some path =>
    have bare : Bare "path".toList := bare_of_isFieldName rfl
    have line := lines_quoted bare path lines
    exact lines_quoted (bare_of_isFieldName rfl) (label kind) line

/-- The text of settings is made of statements that are each read back. -/
theorem lines_toToml {settings : Settings} (version : settings.version = supportedVersion)
    (names : ∀ name ∈ settings.baseFields.keys, isFieldName name) :
    Lines settings.toToml.toList settings.statements := by
  have bare : ∀ field ∈ settings.baseFields.entries, Bare field.1.toList := fun field field_mem =>
    bare_of_isFieldName (names field.1 (List.mem_map_of_mem field_mem))
  have fields := lines_fields bare (.empty .nil)
  rw [List.append_nil] at fields
  have baseFields : Lines ("\n[baseFields]\n".toList ++ _) _ :=
    lines_header "baseFields" rfl (bare_of_isFieldName rfl) fields
  have sink : Lines ("\n[sink]\n".toList ++ _) _ :=
    lines_header "sink" rfl (bare_of_isFieldName rfl) (lines_sink settings.sink baseFields)
  have backends := lines_backends settings.backends sink
  have text := lines_version version backends
  simp only [toToml, String.toList_append, List.append_assoc]
  exact text

end Lines

theorem sinkMembers_increasing (sink : SinkSettings) :
    (SinkSettings.table.members sink).Pairwise fun first second =>
      compare first.1 second.1 = .lt := by
  have order : compare "kind" "path" = .lt := by decide
  obtain ⟨kind, path⟩ := sink
  cases path with
  | none => exact List.pairwise_singleton _ _
  | some path => exact List.pairwise_pair.mpr order

theorem fieldMembers_increasing (settings : Settings) :
    settings.fieldMembers.Pairwise fun first second => compare first.1 second.1 = .lt :=
  List.pairwise_map.mpr settings.baseFields.increasing

def entries (settings : Settings) : Entries :=
  leaves settings.plainMembers ++
    [("sink", .table .header (leaves (SinkSettings.table.members settings.sink)))] ++
    [("baseFields", .table .header (leaves settings.fieldMembers))]

/-- What the statements build up: the members of the settings, and the table they end in. -/
theorem foldlM_statements (settings : Settings) :
    settings.statements.foldlM Progress.add ⟨[], []⟩ = some ⟨settings.entries, ["baseFields"]⟩ := by
  have plainNames : (settings.plainMembers.map (·.1)).Nodup :=
    (by decide : (["version", "backends"] : List String).Nodup)
  have sinkNames : ((SinkSettings.table.members settings.sink).map (·.1)).Nodup :=
    SortedMap.keys_nodup ⟨_, sinkMembers_increasing settings.sink⟩
  have fieldNames : (settings.fieldMembers.map (·.1)).Nodup :=
    SortedMap.keys_nodup ⟨_, settings.fieldMembers_increasing⟩
  have sinkFresh : "sink" ∉ (leaves settings.plainMembers).map (·.1) :=
    (by decide : "sink" ∉ ["version", "backends"])
  have fieldsFresh : "baseFields" ∉ (leaves settings.plainMembers ++
      [("sink", Node.table .header (leaves (SinkSettings.table.members settings.sink)))]).map
        (·.1) :=
    (by decide : "baseFields" ∉ ["version", "backends", "sink"])
  rw [statements, List.foldlM_append, foldlM_top plainNames, Option.bind_eq_bind,
    Option.bind_some, List.foldlM_append, foldlM_section sinkFresh sinkNames, Option.bind_eq_bind,
    Option.bind_some, foldlM_section fieldsFresh fieldNames]
  rfl

theorem entryDocuments_entries (settings : Settings) :
    entryDocuments settings.entries =
      (table.members settings).map fun member => (member.1, .ofValue member.2) := by
  have header {name : String} {members : List (String × Value)}
      (increasing : members.Pairwise fun first second => compare first.1 second.1 = .lt) :
      entryDocuments [(name, .table .header (leaves members))] =
        [(name, .ofValue (.object members))] := by
    rw [entryDocuments, Node.document, entryDocuments_leaves, sortNames_increasing increasing]
    rfl
  rw [entries, entryDocuments_append, entryDocuments_append, entryDocuments_leaves,
    header (sinkMembers_increasing settings.sink), header settings.fieldMembers_increasing]
  rfl

theorem read?_toToml {settings : Settings} (version : settings.version = supportedVersion)
    (names : ∀ name ∈ settings.baseFields.keys, isFieldName name) :
    ∃ members, Toml.read? settings.toToml = some (.object members) ∧
      members.Perm (Document.ofMembers (table.members settings)) := by
  have lines := lines_toToml version names
  have unmarked : skipMark settings.toToml.toList = settings.toToml.toList := by
    obtain ⟨rest, written⟩ : ∃ rest, settings.toToml.toList = 'v' :: rest := by
      simp [toToml, pairLine]
    rw [written]
    rfl
  have stated := lines.readStatements (Nat.lt_succ_of_le lines.length_le)
  have distinct : ((entryDocuments settings.entries).map (·.1)).Nodup := by
    rw [entryDocuments_entries]
    exact (by decide : (["version", "backends", "sink", "baseFields"] : List String).Nodup)
  refine ⟨sortNames (entryDocuments settings.entries), ?_, ?_⟩
  · rw [Toml.read?, unmarked, stated]
    simp only [Option.bind_eq_bind, Option.bind_some, settings.foldlM_statements]
    rfl
  · refine (sortNames_perm distinct).trans (.of_eq ?_)
    rw [entryDocuments_entries, Document.ofMembers_eq_map, List.map_map]
    rfl

/-- Settings whose base fields have bare names are read back from their text. -/
theorem decode_toToml {settings : Settings} (version : settings.version = supportedVersion)
    (names : ∀ name ∈ settings.baseFields.keys, isFieldName name) :
    decode codec .toml settings.toToml = .ok settings := by
  obtain ⟨members, read, same⟩ := read?_toToml version names
  rw [decode, read]
  exact settings.faithful.read_of_perm (same.trans (.of_eq (Document.ofMembers_eq_map _)))

/-- Settings that are valid are read back from their text, in their normal form, and likewise from a
file with this text where nothing else is set. -/
theorem parse_toToml {given settings : Settings} (valid : given.validate = .ok settings) :
    ∀ written ∈ [given, settings],
      parse .toml written.toToml = .ok settings ∧
        ∀ files path, formatOf path = .ok .toml →
          files.readBytes path = .ok (Text.Utf8.encodeString written.toToml) →
            loadFile files (some path) none .empty = .ok settings := by
  have each {written : Settings} (valid : written.validate = .ok settings) :
      parse .toml written.toToml = .ok settings ∧
        ∀ files path, formatOf path = .ok .toml →
          files.readBytes path = .ok (Text.Utf8.encodeString written.toToml) →
            loadFile files (some path) none .empty = .ok settings := by
    obtain ⟨version, _, _, names, _⟩ := validate_ok_iff.mp valid
    have decoded := decode_toToml version names
    constructor
    · rw [parse, decodeLayer_ok decoded]
      exact validated_ok_iff.mpr valid
    · intro files path format held
      rw [loadFile, readFile_eq format held, decodeLayer_ok decoded]
      exact validated_ok_iff.mpr valid
  exact List.forall_mem_cons.mpr ⟨each valid, List.forall_mem_singleton.mpr
    (each (validate_idem valid))⟩

/-- A path and base fields that need each form of a string. -/
theorem parse_toToml_quotes :
    let fields : SortedMap String String := .ofList [("a", "it's"), ("b", "say \"it's\""),
      ("c", "C:\\temp"), ("d", "\n'''\n\"\"\"\n"), ("e", "'''''\"\"\"\"\"\"\\\x0d\n\x01\x7f")]
    let given : Settings := ⟨1, [.tracing, .json, .json], ⟨.file, some "\n\"\"\"'''\\\t"⟩, fields⟩
    let settings : Settings := ⟨1, [.json, .tracing], ⟨.file, some "\"\"\"'''\\"⟩, fields⟩
    let files : FileSystem :=
      ⟨.ofList [(["opstats.toml"], .file (Text.Utf8.encodeString given.toToml))], [], none⟩
    parse .toml given.toToml = .ok settings ∧ parse .toml settings.toToml = .ok settings ∧
      loadFile files (some "opstats.toml") none .empty = .ok settings := by
  intro fields given settings files
  have valid : given.validate = .ok settings := by rfl
  have round := parse_toToml valid
  obtain ⟨parsed, loaded⟩ := round given List.mem_cons_self
  obtain ⟨again, _⟩ := round settings (List.mem_cons_of_mem _ List.mem_cons_self)
  exact ⟨parsed, again, loaded files "opstats.toml" rfl rfl⟩

end StatsRelay.Config.Settings
