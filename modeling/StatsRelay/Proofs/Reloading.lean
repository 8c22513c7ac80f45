import StatsRelay.Config.Writer
import StatsRelay.Proofs.Indented
import StatsRelay.Proofs.Layers

/-! Settings that were loaded once, written down and loaded again. In the normal form every setting
is what its layers say or what the check made of it, so the same layers find nothing to change. -/
namespace StatsRelay.Config

namespace Settings

open StatsRelay.Json (Value)

theorem legible (settings : Settings) : (codec.write settings).Legible Json.nestingLimit := by
  have version : (Json.Number.integer settings.version.toNat).Legible := by
    have bound := settings.version.toNat_lt
    exact Json.Number.integer_legible (by omega) (by omega)
  have backends : (Value.array (settings.backends.map fun backend => .string (label backend))).Legible
      126 := by
    apply Value.Legible.array
    intro item item_mem
    obtain ⟨backend, _, rfl⟩ := List.mem_map.mp item_mem
    exact .string (label backend)
  have sink : (SinkSettings.table.codec.write settings.sink).Legible 126 := by
    obtain ⟨kind, path⟩ := settings.sink
    apply Value.Legible.object
    cases path with
    | none => exact List.forall_mem_cons.mpr ⟨.string (label kind), List.forall_mem_nil _⟩
    | some path =>
      exact List.forall_mem_cons.mpr ⟨.string (label kind),
        List.forall_mem_cons.mpr ⟨.string path, List.forall_mem_nil _⟩⟩
  have baseFields : ((Codec.map .text).write settings.baseFields).Legible 126 :=
    .entries fun entry _ => .string entry.2
  apply Value.Legible.object
  refine List.forall_mem_cons.mpr ⟨.number version, List.forall_mem_cons.mpr ⟨backends, ?_⟩⟩
  exact List.forall_mem_cons.mpr ⟨sink,
    List.forall_mem_cons.mpr ⟨baseFields, List.forall_mem_nil _⟩⟩

theorem decode_toJson (settings : Settings) :
    decode codec .json settings.toJson = .ok settings :=
  Json.decode_pretty (settings.faithful.codec rendering_ofValue) settings.legible

/-- A path that a layer sets is trimmed again, and one that it does not set is trimmed already. -/
theorem normalSink_again {kind : Option SinkKind} {path : Option String} {given sink : SinkSettings}
    (normal : normalSink ⟨kind.getD given.kind, path.or given.path⟩ = .ok sink) :
    normalSink ⟨kind.getD sink.kind, path.or sink.path⟩ = .ok sink := by
  have kept {chosen : SinkKind} (same : kind.getD given.kind = chosen) :
      kind.getD chosen = chosen := by
    cases kind with
    | none => rfl
    | some kind => exact same
  generalize chosen : kind.getD given.kind = next at normal
  by_cases file : next = .file
  · subst file
    obtain ⟨text, found, nonempty, rfl⟩ := normalSink_file_iff.mp normal
    rw [kept chosen]
    apply normalSink_file_iff.mpr
    cases path with
    | none => exact ⟨_, rfl, by rwa [Text.trim_trim], by rw [Text.trim_trim]⟩
    | some path =>
      cases Option.some.inj found
      exact ⟨_, rfl, nonempty, rfl⟩
  · rw [normalSink_stream file] at normal
    cases normal
    rw [kept chosen]
    exact normalSink_stream file _

theorem validate_apply {layer : Overrides} {given settings : Settings}
    (valid : (layer.apply given).validate = .ok settings) :
    (layer.apply settings).validate = .ok settings := by
  obtain ⟨version, some, few, names, sink, normal, rfl⟩ := validate_ok_iff.mp valid
  have backends : normalBackends (layer.backends.getD (normalBackends (layer.apply given).backends))
      = normalBackends (layer.apply given).backends := by
    rw [Overrides.apply]
    cases layer.backends with
    | none => exact normalBackends_idem given.backends
    | some listed => rfl
  have baseFields : (layer.apply given).baseFields.merge (layer.baseFields.getD .empty) =
      (layer.apply given).baseFields := by
    apply SortedMap.ext_get?
    intro key
    rw [Overrides.apply]
    simp only [SortedMap.get?_merge, ← Option.or_assoc, Option.or_self]
  have version' : layer.version.getD (layer.apply given).version = (layer.apply given).version := by
    rw [Overrides.apply]
    cases layer.version <;> rfl
  apply validate_ok_iff.mpr
  rw [Overrides.apply]
  dsimp only
  rw [version', backends, baseFields]
  exact ⟨version, some, few, names, sink, normalSink_again normal, rfl⟩

end Settings

/-- The overrides and the environment are one layer over the settings, once the overrides parse. -/
theorem exists_layer_of_applyLayers {given settings : Settings} {overrides : Option String}
    {environment : Environment} (applied : applyLayers given overrides environment = .ok settings) :
    ∃ layer : Overrides, ∀ base,
      applyLayers base overrides environment = validated (layer.apply base) := by
  -- Overrides that do not parse would have stopped the load, so they say the same over any base.
  cases overrides with
  | none => exact ⟨environment.layer, fun base => rfl⟩
  | some text =>
    obtain ⟨upper, decoded, _⟩ := Except.bind_eq_ok_iff.mp applied
    refine ⟨environment.layer.above upper, fun base => ?_⟩
    rw [← Overrides.apply_apply, applyLayers, decoded]
    rfl

/-- What is in effect, written down and loaded as the file under the same layers, is in effect
again. -/
theorem load_toJson {file overrides : Option String} {environment : Environment}
    {settings : Settings} (loaded : load file overrides environment = .ok settings) :
    parse .json settings.toJson = .ok settings ∧
      load (some settings.toJson) overrides environment = .ok settings := by
  have below : ∃ given, applyLayers given overrides environment = .ok settings := by
    cases file with
    | none => exact ⟨.standard, loaded⟩
    | some text =>
      obtain ⟨given, _, applied⟩ := Except.bind_eq_ok_iff.mp loaded
      exact ⟨given, applied⟩
  obtain ⟨given, applied⟩ := below
  obtain ⟨layer, same⟩ := exists_layer_of_applyLayers applied
  have valid : (layer.apply given).validate = .ok settings :=
    validated_ok_iff.mp ((same given).symm.trans applied)
  constructor
  · rw [parse, decodeLayer_ok settings.decode_toJson]
    exact validated_ok_iff.mpr (Settings.validate_idem valid)
  · rw [load, decodeLayer_ok settings.decode_toJson]
    exact (same settings).trans (validated_ok_iff.mpr (Settings.validate_apply valid))

/-- The path has blanks around it, the backends are out of order, and a base field is no plain
text. -/
theorem load_toJson_untidy :
    let overrides :=
      "\x7b\"backends\":[\"tracing\",\"json\",\"json\"],\"sink\":[\"file\"]," ++
        "\"baseFields\":\x7b\"note\":\"\\\"a\\\"\\n\"\x7d\x7d"
    let environment : Environment := ⟨none, none, some " out.jsonl\n"⟩
    let settings : Settings := ⟨1, [.json, .tracing], ⟨.file, some "out.jsonl"⟩,
      .ofList [("note", "\"a\"\n")]⟩
    load none (some overrides) environment = .ok settings ∧
      parse .json settings.toJson = .ok settings ∧
        load (some settings.toJson) (some overrides) environment = .ok settings := by
  intro overrides environment settings
  have loaded : load none (some overrides) environment = .ok settings :=
    ok_of_toOption (by decide +kernel)
  exact ⟨loaded, load_toJson loaded⟩

end StatsRelay.Config
