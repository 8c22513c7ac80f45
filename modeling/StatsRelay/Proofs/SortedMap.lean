import Mathlib.Data.List.Induction
import Mathlib.Data.List.Nodup
import StatsRelay.Json.Value

/-! What is found in a sorted map after entries were added. A map is settled by what is found under
its keys, and of entries under distinct keys it holds each. -/
namespace StatsRelay

theorem lookup_eq_some_iff_mem {κ ν : Type} [BEq κ] [LawfulBEq κ] {entries : List (κ × ν)}
    (distinct : (entries.map (·.1)).Nodup) {key : κ} {value : ν} :
    entries.lookup key = some value ↔ (key, value) ∈ entries := by
  induction entries with
  | nil => simp
  | cons entry rest ih =>
    obtain ⟨name, held⟩ := entry
    obtain ⟨absent, others⟩ := List.nodup_cons.mp distinct
    rw [List.lookup_cons]
    by_cases same : key = name
    · subst same
      have apart : (key, value) ∉ rest :=
        fun member => absent (List.mem_map.mpr ⟨(key, value), member, rfl⟩)
      simp [apart, eq_comm]
    · have test : (key == name) = false := beq_eq_false_iff_ne.mpr same
      simp [test, same, ih others]

theorem eq_of_mem_of_nodup {κ ν : Type} {entries : List (κ × ν)}
    (distinct : (entries.map (·.1)).Nodup) {key : κ} {first second : ν}
    (one : (key, first) ∈ entries) (other : (key, second) ∈ entries) : first = second :=
  congrArg Prod.snd (List.inj_on_of_nodup_map distinct one other rfl)

theorem lookup_eq_none_iff_not_mem {κ ν : Type} [BEq κ] [LawfulBEq κ] {entries : List (κ × ν)}
    {key : κ} : entries.lookup key = none ↔ key ∉ entries.map (·.1) := by
  rw [List.lookup_eq_none_iff]
  constructor
  · intro apart member
    obtain ⟨entry, entry_mem, same⟩ := List.mem_map.mp member
    simpa [same] using apart entry entry_mem
  · intro absent entry entry_mem
    have different : key ≠ entry.1 := fun same => absent (same ▸ List.mem_map_of_mem entry_mem)
    simpa using different

namespace SortedMap

variable {κ ν : Type} [Ord κ]

@[simp] theorem get?_empty (key : κ) : (empty : SortedMap κ ν).get? key = none := rfl

variable [Std.LawfulEqOrd κ]

private theorem ne_of_compare {a b : κ} (different : compare a b ≠ .eq) : a ≠ b := by
  rintro rfl
  exact different Std.ReflCmp.compare_self

theorem keys_nodup (map : SortedMap κ ν) : (map.entries.map (·.1)).Nodup :=
  List.pairwise_map.mpr (map.increasing.imp fun before => ne_of_compare (by simp [before]))

theorem get?_eq_some_iff (map : SortedMap κ ν) {key : κ} {value : ν} :
    map.get? key = some value ↔ (key, value) ∈ map.entries := by
  unfold get?
  rw [Option.map_eq_some_iff]
  constructor
  · rintro ⟨entry, found, rfl⟩
    have same : key = entry.1 := by simpa using List.find?_some found
    exact same ▸ List.mem_of_find?_eq_some found
  · intro member
    have present : (map.entries.find? fun entry => compare key entry.1 == .eq).isSome :=
      List.find?_isSome.mpr ⟨(key, value), member, by simp⟩
    obtain ⟨entry, found⟩ := Option.isSome_iff_exists.mp present
    have same : key = entry.1 := by simpa using List.find?_some found
    have equal := List.inj_on_of_nodup_map map.keys_nodup
      (List.mem_of_find?_eq_some found) member same.symm
    exact ⟨entry, found, congrArg Prod.snd equal⟩

theorem get?_eq_none_iff (map : SortedMap κ ν) {key : κ} :
    map.get? key = none ↔ key ∉ map.keys := by
  rw [Option.eq_none_iff_forall_ne_some]
  constructor
  · intro absent member
    obtain ⟨entry, entry_mem, rfl⟩ := List.mem_map.mp member
    exact absent entry.2 (map.get?_eq_some_iff.mpr entry_mem)
  · intro absent value found
    exact absent (List.mem_map_of_mem (map.get?_eq_some_iff.mp found))

theorem mem_keys_iff (map : SortedMap κ ν) {key : κ} : key ∈ map.keys ↔ (map.get? key).isSome := by
  rw [← Option.ne_none_iff_isSome, ne_eq, get?_eq_none_iff, Classical.not_not]

theorem lookup_entries [BEq κ] [LawfulBEq κ] (map : SortedMap κ ν) (key : κ) :
    map.entries.lookup key = map.get? key := by
  apply Option.ext
  intro value
  rw [lookup_eq_some_iff_mem map.keys_nodup, map.get?_eq_some_iff]

variable [Std.TransOrd κ]

theorem eq_of_mem_iff {a b : SortedMap κ ν}
    (same : ∀ entry, entry ∈ a.entries ↔ entry ∈ b.entries) : a = b := by
  refine ext (List.Perm.eq_of_pairwise ?_ a.increasing b.increasing ?_)
  · intro x y _ _ before after
    exact absurd (Std.OrientedCmp.gt_of_lt before) (by simp [after])
  · exact (List.perm_ext_iff_of_nodup a.keys_nodup.of_map b.keys_nodup.of_map).mpr same

theorem ext_get? {a b : SortedMap κ ν} (same : ∀ key, a.get? key = b.get? key) : a = b := by
  apply eq_of_mem_iff
  intro entry
  rw [← a.get?_eq_some_iff, ← b.get?_eq_some_iff, same]

theorem mem_insertEntry_iff {key : κ} {value : ν} {entry : κ × ν} {entries : List (κ × ν)}
    (increasing : entries.Pairwise fun a b => compare a.1 b.1 = .lt) :
    entry ∈ insertEntry key value entries ↔
      entry = (key, value) ∨ (entry.1 ≠ key ∧ entry ∈ entries) := by
  induction entries with
  | nil => simp [insertEntry]
  | cons first rest ih =>
    obtain ⟨below, ordered⟩ := List.pairwise_cons.mp increasing
    have apart (before : compare key first.1 ≠ .gt) (member : entry ∈ rest) : entry.1 ≠ key := by
      intro same
      have after := Std.OrientedCmp.gt_of_lt (below entry member)
      exact before (same ▸ after)
    unfold insertEntry
    split
    · rename_i before
      have different : first.1 ≠ key := (ne_of_compare (by simp [before])).symm
      have others := apart (by simp [before])
      rw [List.mem_cons, List.mem_cons]
      constructor
      · rintro (here | rfl | later)
        · exact .inl here
        · exact .inr ⟨different, .inl rfl⟩
        · exact .inr ⟨others later, .inr later⟩
      · rintro (here | ⟨_, there⟩)
        · exact .inl here
        · exact .inr there
    · rename_i same
      have others := apart (by simp [same])
      have same := Std.LawfulEqCmp.eq_of_compare same
      rw [List.mem_cons, List.mem_cons]
      constructor
      · rintro (here | later)
        · exact .inl here
        · exact .inr ⟨others later, .inr later⟩
      · rintro (here | ⟨different, rfl | later⟩)
        · exact .inl here
        · exact absurd same.symm different
        · exact .inr later
    · rename_i after
      have different : first.1 ≠ key := (ne_of_compare (by simp [after])).symm
      rw [List.mem_cons, ih ordered, List.mem_cons]
      constructor
      · rintro (rfl | here | ⟨other, later⟩)
        · exact .inr ⟨different, .inl rfl⟩
        · exact .inl here
        · exact .inr ⟨other, .inr later⟩
      · rintro (here | ⟨other, rfl | later⟩)
        · exact .inr (.inl here)
        · exact .inl rfl
        · exact .inr (.inr ⟨other, later⟩)

theorem get?_insert [DecidableEq κ] (map : SortedMap κ ν) (key other : κ) (value : ν) :
    (map.insert key value).get? other = if other = key then some value else map.get? other := by
  apply Option.ext
  intro held
  rw [get?_eq_some_iff, insert, mem_insertEntry_iff map.increasing]
  by_cases same : other = key
  · simp [same, eq_comm]
  · simp [same, get?_eq_some_iff]

theorem get?_addAll [DecidableEq κ] (map : SortedMap κ ν) {entries : List (κ × ν)}
    (distinct : (entries.map (·.1)).Nodup) (key : κ) :
    (map.addAll entries).get? key = (entries.lookup key).or (map.get? key) := by
  induction entries generalizing map with
  | nil => simp [addAll]
  | cons entry rest ih =>
    obtain ⟨absent, others⟩ := List.nodup_cons.mp distinct
    change ((map.insert entry.1 entry.2).addAll rest).get? key = _
    rw [ih _ others, get?_insert, List.lookup_cons]
    by_cases same : key = entry.1
    · subst same
      have missing : rest.lookup entry.1 = none := lookup_eq_none_iff_not_mem.mpr absent
      simp [missing]
    · have test : (key == entry.1) = false := beq_eq_false_iff_ne.mpr same
      simp [test, same]

theorem get?_merge [DecidableEq κ] (base other : SortedMap κ ν) (key : κ) :
    (base.merge other).get? key = (other.get? key).or (base.get? key) := by
  rw [merge, get?_addAll base other.keys_nodup, lookup_entries]

theorem ofList_concat (entries : List (κ × ν)) (key : κ) (value : ν) :
    ofList (entries ++ [(key, value)]) = (ofList entries).insert key value := by
  simp [ofList, addAll, List.foldl_append]

theorem get?_ofList [DecidableEq κ] {entries : List (κ × ν)}
    (distinct : (entries.map (·.1)).Nodup) (key : κ) :
    (ofList entries).get? key = entries.lookup key := by
  rw [ofList, get?_addAll _ distinct]
  simp

/-- Entries under distinct keys are brought into order, and nothing else is done to them. -/
theorem ofList_entries_perm [DecidableEq κ] {entries : List (κ × ν)}
    (distinct : (entries.map (·.1)).Nodup) : (ofList entries).entries.Perm entries := by
  apply (List.perm_ext_iff_of_nodup (keys_nodup _).of_map distinct.of_map).mpr
  intro entry
  rw [← get?_eq_some_iff, get?_ofList distinct, lookup_eq_some_iff_mem distinct]

theorem ofList_entries [DecidableEq κ] {entries : List (κ × ν)}
    (increasing : entries.Pairwise fun a b => compare a.1 b.1 = .lt) :
    (ofList entries).entries = entries := by
  have distinct := keys_nodup ⟨entries, increasing⟩
  have same : ofList entries = ⟨entries, increasing⟩ :=
    eq_of_mem_iff fun _ => (ofList_entries_perm distinct).mem_iff
  rw [same]

theorem ofList_eq_of_perm [DecidableEq κ] {first second : List (κ × ν)}
    (distinct : (first.map (·.1)).Nodup) (same : first.Perm second) :
    ofList first = ofList second := by
  have others : (second.map (·.1)).Nodup := (same.map (·.1)).nodup_iff.mp distinct
  apply eq_of_mem_iff
  intro entry
  rw [(ofList_entries_perm distinct).mem_iff, (ofList_entries_perm others).mem_iff, same.mem_iff]

theorem ofList_entries_of_perm [DecidableEq κ] {entries sorted : List (κ × ν)}
    (increasing : sorted.Pairwise fun a b => compare a.1 b.1 = .lt) (same : entries.Perm sorted) :
    (ofList entries).entries = sorted := by
  have distinct := (same.map (·.1)).nodup_iff.mpr (keys_nodup ⟨sorted, increasing⟩)
  rw [ofList_eq_of_perm distinct same, ofList_entries increasing]

theorem mem_keys_insert [DecidableEq κ] (map : SortedMap κ ν) {key other : κ} {value : ν} :
    other ∈ (map.insert key value).keys ↔ other = key ∨ other ∈ map.keys := by
  rw [mem_keys_iff, mem_keys_iff, get?_insert]
  by_cases same : other = key <;> simp [same]

theorem mem_keys_addAll [DecidableEq κ] (map : SortedMap κ ν) {entries : List (κ × ν)} {key : κ} :
    key ∈ (map.addAll entries).keys ↔ key ∈ entries.map (·.1) ∨ key ∈ map.keys := by
  induction entries generalizing map with
  | nil => simp [addAll]
  | cons entry rest ih =>
    change key ∈ ((map.insert entry.1 entry.2).addAll rest).keys ↔ _
    rw [ih, mem_keys_insert, List.map_cons, List.mem_cons]
    grind

theorem mem_of_mem_addAll {map : SortedMap κ ν} {entries : List (κ × ν)} {entry : κ × ν}
    (held : entry ∈ (map.addAll entries).entries) : entry ∈ entries ∨ entry ∈ map.entries := by
  induction entries generalizing map with
  | nil => exact .inr held
  | cons first rest ih =>
    have held : entry ∈ ((map.insert first.1 first.2).addAll rest).entries := held
    rcases ih held with later | before
    · exact .inl (List.mem_cons_of_mem _ later)
    · exact (mem_insertEntry before).imp_left fun same => List.mem_cons.mpr (.inl same)

theorem mem_of_mem_ofList {entries : List (κ × ν)} {entry : κ × ν}
    (held : entry ∈ (ofList entries).entries) : entry ∈ entries :=
  (mem_of_mem_addAll held).resolve_right (List.not_mem_nil)

theorem mem_keys_ofList [DecidableEq κ] {entries : List (κ × ν)} {key : κ} :
    key ∈ (ofList entries).keys ↔ key ∈ entries.map (·.1) := by
  rw [ofList, mem_keys_addAll]
  exact or_iff_left List.not_mem_nil

/-- Of several entries under one key the last is found. -/
theorem get?_ofList_last [DecidableEq κ] (entries : List (κ × ν)) (key : κ) :
    (ofList entries).get? key = (entries.reverse.find? (·.1 = key)).map (·.2) := by
  induction entries using List.reverseRecOn with
  | nil => rfl
  | append_singleton earlier last ih =>
    obtain ⟨name, value⟩ := last
    rw [ofList_concat, get?_insert, List.reverse_concat, List.find?_cons, ih]
    by_cases same : name = key
    · simp [same]
    · simp [same, Ne.symm same]

end SortedMap

namespace SortedSet

variable {κ : Type} [Ord κ] [Std.TransOrd κ] [Std.LawfulEqOrd κ] [DecidableEq κ]

theorem mem_keys_ofList {members : List κ} {key : κ} :
    key ∈ (ofList members).keys ↔ key ∈ members := by
  rw [ofList, SortedMap.mem_keys_ofList]
  simp [Function.comp_def]

/-- A set is kept as the one increasing list of its members. -/
theorem keys_ofList_eq {members keys : List κ} (increasing : keys.Pairwise (compare · · = .lt))
    (same : ∀ key, key ∈ keys ↔ key ∈ members) : (ofList members).keys = keys := by
  have ordered : (ofList members).keys.Pairwise (compare · · = .lt) :=
    List.pairwise_map.mpr (ofList members).increasing
  have distinct : keys.Nodup :=
    increasing.imp fun before equal => by simp [equal] at before
  refine List.Perm.eq_of_pairwise ?_ ordered increasing ?_
  · intro x y _ _ before after
    exact absurd (Std.OrientedCmp.gt_of_lt before) (by simp [after])
  · apply (List.perm_ext_iff_of_nodup (SortedMap.keys_nodup _) distinct).mpr
    intro key
    rw [same]
    exact mem_keys_ofList

theorem ofList_keys (set : SortedSet κ) : ofList set.keys = set :=
  ext_keys (keys_ofList_eq (List.pairwise_map.mpr set.increasing) fun _ => Iff.rfl)

theorem ofList_eq_iff {members others : List κ} :
    ofList members = ofList others ↔ ∀ key, key ∈ members ↔ key ∈ others := by
  constructor
  · intro same key
    rw [← mem_keys_ofList, same, mem_keys_ofList]
  · intro same
    refine ext_keys (keys_ofList_eq (List.pairwise_map.mpr (ofList others).increasing) fun key => ?_)
    rw [mem_keys_ofList, same]

end SortedSet

end StatsRelay
