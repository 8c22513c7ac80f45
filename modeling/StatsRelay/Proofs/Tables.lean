import StatsRelay.Proofs.Documents
import StatsRelay.Proofs.SortedMap
import StatsRelay.Toml.Reader

/-! Tables of TOML from statements that say nothing twice: each pair becomes an entry of the table
that is open, and each header opens a table after those before it. -/
namespace StatsRelay.Toml

open StatsRelay.Json (Value)

namespace Entries

variable {name : String} {node : Node} {entries : Entries}

theorem set_fresh (fresh : name ∉ entries.map (·.1)) :
    entries.set name node = entries ++ [(name, node)] := by
  induction entries with
  | nil => rfl
  | cons entry rest ih =>
    obtain ⟨other, fresh⟩ : ¬name = entry.1 ∧ name ∉ rest.map (·.1) := by simpa using fresh
    rw [set, if_neg (Ne.symm other), ih fresh]
    rfl

theorem set_last (fresh : name ∉ entries.map (·.1)) (old : Node) :
    set name node (entries ++ [(name, old)]) = entries ++ [(name, node)] := by
  induction entries with
  | nil => simp [set]
  | cons entry rest ih =>
    obtain ⟨other, fresh⟩ : ¬name = entry.1 ∧ name ∉ rest.map (·.1) := by simpa using fresh
    rw [List.cons_append, set, if_neg (Ne.symm other), ih fresh]
    rfl

theorem lookup_last (fresh : name ∉ entries.map (·.1)) :
    (entries ++ [(name, node)]).lookup name = some node := by
  have missing : entries.lookup name = none := lookup_eq_none_iff_not_mem.mpr fresh
  simp [List.lookup_append, missing]

theorem define_fresh (fresh : name ∉ entries.map (·.1)) (value : Document) :
    define [] name value entries = some (entries ++ [(name, .leaf value)]) := by
  have missing : entries.lookup name = none := lookup_eq_none_iff_not_mem.mpr fresh
  rw [define, missing]
  exact congrArg some (set_fresh fresh)

theorem descend_table (fresh : name ∉ entries.map (·.1)) (origin : Origin) (inner : Entries)
    (f : Entries → Option Entries) :
    descend f [name] (entries ++ [(name, .table origin inner)]) =
      (f inner).map fun next => entries ++ [(name, .table origin next)] := by
  rw [descend, lookup_last fresh]
  cases changed : f inner with
  | none => simp [descend, changed]
  | some next => simp [descend, changed, set_last fresh]

theorem openTable_fresh (fresh : name ∉ entries.map (·.1)) :
    openTable name entries = some (entries ++ [(name, .table .header [])]) := by
  have missing : entries.lookup name = none := lookup_eq_none_iff_not_mem.mpr fresh
  rw [openTable, missing]
  exact congrArg some (set_fresh fresh)

end Entries

def pairs (members : List (String × Value)) : List Statement :=
  members.map fun member => .pair [] member.1 (.ofValue member.2)

def leaves (members : List (String × Value)) : Entries :=
  members.map fun member => (member.1, .leaf (.ofValue member.2))

/-- Pairs go to the table that is open, wherever that is. -/
theorem foldlM_pairs {current : List String} (around : Entries → Entries)
    (reached : ∀ f inner, (around inner).descend f current = (f inner).map around)
    (inner : Entries) {members : List (String × Value)}
    (distinct : (inner.map (·.1) ++ members.map (·.1)).Nodup) :
    (pairs members).foldlM Progress.add ⟨around inner, current⟩ =
      some ⟨around (inner ++ leaves members), current⟩ := by
  induction members generalizing inner with
  | nil => simp [pairs, leaves]
  | cons member rest ih =>
    have fresh : member.1 ∉ inner.map (·.1) := by
      intro held
      exact (List.nodup_append.mp distinct).2.2 _ held _ List.mem_cons_self rfl
    have step : Progress.add ⟨around inner, current⟩ (.pair [] member.1 (.ofValue member.2)) =
        some ⟨around (inner ++ [(member.1, .leaf (.ofValue member.2))]), current⟩ := by
      rw [Progress.add, reached, Entries.define_fresh fresh]
      rfl
    have others := ih (inner ++ [(member.1, .leaf (.ofValue member.2))]) (by simpa using distinct)
    rw [pairs, List.map_cons, List.foldlM_cons, step]
    refine others.trans ?_
    simp [leaves]

theorem foldlM_top {members : List (String × Value)} (distinct : (members.map (·.1)).Nodup) :
    (pairs members).foldlM Progress.add ⟨[], []⟩ = some ⟨leaves members, []⟩ := by
  have top (f : Entries → Option Entries) (inner : Entries) :
      (id inner).descend f [] = (f inner).map id := by simp [Entries.descend]
  exact foldlM_pairs id top [] distinct

theorem foldlM_section {root : Entries} {current : List String} {name : String}
    (fresh : name ∉ root.map (·.1)) {members : List (String × Value)}
    (distinct : (members.map (·.1)).Nodup) :
    (.table [] name :: pairs members).foldlM Progress.add ⟨root, current⟩ =
      some ⟨root ++ [(name, .table .header (leaves members))], [name]⟩ := by
  have opened : Progress.add ⟨root, current⟩ (.table [] name) =
      some ⟨root ++ [(name, .table .header [])], [name]⟩ := by
    rw [Progress.add, Entries.descend, Entries.openTable_fresh fresh]
    rfl
  rw [List.foldlM_cons, opened]
  exact foldlM_pairs (fun inner => root ++ [(name, .table .header inner)])
    (fun f inner => Entries.descend_table fresh .header inner f) [] distinct

theorem entryDocuments_append (first second : Entries) :
    entryDocuments (first ++ second) = entryDocuments first ++ entryDocuments second := by
  induction first with
  | nil => rfl
  | cons entry rest ih => rw [List.cons_append, entryDocuments, entryDocuments, ih, List.cons_append]

theorem entryDocuments_leaves (members : List (String × Value)) :
    entryDocuments (leaves members) = members.map fun member => (member.1, .ofValue member.2) := by
  induction members with
  | nil => rfl
  | cons member rest ih =>
    change (member.1, (Node.leaf (.ofValue member.2)).document) :: entryDocuments (leaves rest) = _
    rw [ih, Node.document, List.map_cons]

theorem sortNames_perm {members : List (String × Document)} (distinct : (members.map (·.1)).Nodup) :
    (sortNames members).Perm (members.map fun member => (some member.1, member.2)) :=
  (SortedMap.ofList_entries_perm distinct).map _

theorem sortNames_increasing {members : List (String × Value)}
    (increasing : members.Pairwise fun first second => compare first.1 second.1 = .lt) :
    sortNames (members.map fun member => (member.1, Document.ofValue member.2)) =
      Document.ofMembers members := by
  have ordered : (members.map fun member => (member.1, Document.ofValue member.2)).Pairwise
      fun first second => compare first.1 second.1 = .lt := List.pairwise_map.mpr increasing
  rw [sortNames, Json.sortMembers, SortedMap.ofList_entries ordered, Document.ofMembers_eq_map]
  simp [Function.comp_def]

end StatsRelay.Toml
