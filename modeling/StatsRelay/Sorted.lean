/-! Maps kept as lists of entries whose keys strictly increase. Each map has one such list, so two
maps are equal exactly when their entries are, and whatever is written from a map has one order. -/
namespace StatsRelay

/-- Types with a number for each value; they are ordered by it. -/
class Ranked (α : Type) where
  rank : α → Nat
  rank_injective : ∀ {a b : α}, rank a = rank b → a = b

namespace Ranked

variable {α : Type} [Ranked α]

instance : Ord α := ⟨fun a b => compare (rank a) (rank b)⟩

theorem compare_eq (a b : α) : compare a b = compare (rank a) (rank b) := rfl

instance : Std.TransOrd α where
  eq_swap := by
    intro a b
    simp only [compare_eq]
    exact Std.OrientedCmp.eq_swap
  isLE_trans := by
    intro a b c first second
    rw [compare_eq] at first second ⊢
    exact Std.TransCmp.isLE_trans first second

instance : Std.LawfulEqOrd α where
  compare_self := by
    intro a
    rw [compare_eq]
    exact Std.ReflCmp.compare_self
  eq_of_compare := by
    intro a b same
    rw [compare_eq] at same
    exact rank_injective (Std.LawfulEqCmp.eq_of_compare same)

end Ranked

structure SortedMap (κ ν : Type) [Ord κ] where
  entries : List (κ × ν)
  increasing : entries.Pairwise fun a b => compare a.1 b.1 = .lt

namespace SortedMap

variable {κ ν : Type} [Ord κ]

instance [DecidableEq κ] [DecidableEq ν] : DecidableEq (SortedMap κ ν) := fun a b =>
  if same : a.entries = b.entries then
    isTrue (by cases a; cases b; cases same; rfl)
  else isFalse fun equal => same (congrArg entries equal)

theorem ext {a b : SortedMap κ ν} (same : a.entries = b.entries) : a = b := by
  cases a; cases b; cases same; rfl

def empty : SortedMap κ ν := ⟨[], .nil⟩

instance : Inhabited (SortedMap κ ν) := ⟨empty⟩

def keys (map : SortedMap κ ν) : List κ := map.entries.map (·.1)
def size (map : SortedMap κ ν) : Nat := map.entries.length
def isEmpty (map : SortedMap κ ν) : Bool := map.entries.isEmpty

def get? (map : SortedMap κ ν) (key : κ) : Option ν :=
  (map.entries.find? fun entry => compare key entry.1 == .eq).map (·.2)

def contains (map : SortedMap κ ν) (key : κ) : Bool := (map.get? key).isSome

/-- The value under a key that the list already holds is replaced. -/
def insertEntry (key : κ) (value : ν) : List (κ × ν) → List (κ × ν)
  | [] => [(key, value)]
  | entry :: rest =>
    match compare key entry.1 with
    | .lt => (key, value) :: entry :: rest
    | .eq => (key, value) :: rest
    | .gt => entry :: insertEntry key value rest

theorem mem_insertEntry {key : κ} {value : ν} {entry : κ × ν} {entries : List (κ × ν)}
    (member : entry ∈ insertEntry key value entries) : entry = (key, value) ∨ entry ∈ entries := by
  induction entries with
  | nil => simpa [insertEntry] using member
  | cons first rest ih =>
    unfold insertEntry at member
    split at member
    · simpa using member
    · exact (List.mem_cons.mp member).imp_right (List.mem_cons_of_mem _)
    · rcases List.mem_cons.mp member with same | later
      · exact .inr (same ▸ List.mem_cons_self)
      · exact (ih later).imp_right (List.mem_cons_of_mem _)

theorem insertEntry_increasing [Std.TransOrd κ] [Std.LawfulEqOrd κ] (key : κ) (value : ν)
    {entries : List (κ × ν)} (increasing : entries.Pairwise fun a b => compare a.1 b.1 = .lt) :
    (insertEntry key value entries).Pairwise fun a b => compare a.1 b.1 = .lt := by
  induction entries with
  | nil => simp [insertEntry]
  | cons first rest ih =>
    have ⟨below, ordered⟩ := List.pairwise_cons.mp increasing
    unfold insertEntry
    split
    · rename_i before
      refine List.pairwise_cons.mpr ⟨fun entry member => ?_, increasing⟩
      rcases List.mem_cons.mp member with same | later
      · exact same ▸ before
      · exact Std.TransCmp.lt_trans before (below _ later)
    · rename_i same
      have same := Std.LawfulEqCmp.eq_of_compare same
      exact List.pairwise_cons.mpr ⟨fun entry member => same ▸ below _ member, ordered⟩
    · rename_i after
      refine List.pairwise_cons.mpr ⟨fun entry member => ?_, ih ordered⟩
      rcases mem_insertEntry member with same | later
      · exact same ▸ Std.OrientedCmp.lt_of_gt after
      · exact below _ later

variable [Std.TransOrd κ] [Std.LawfulEqOrd κ]

def insert (map : SortedMap κ ν) (key : κ) (value : ν) : SortedMap κ ν :=
  ⟨insertEntry key value map.entries, insertEntry_increasing key value map.increasing⟩

def addAll (map : SortedMap κ ν) (entries : List (κ × ν)) : SortedMap κ ν :=
  entries.foldl (fun map entry => map.insert entry.1 entry.2) map

def ofList (entries : List (κ × ν)) : SortedMap κ ν := empty.addAll entries

/-- The entries of the second map win. -/
def merge (base other : SortedMap κ ν) : SortedMap κ ν := base.addAll other.entries

end SortedMap

abbrev SortedSet (κ : Type) [Ord κ] := SortedMap κ Unit

namespace SortedSet

variable {κ : Type} [Ord κ] [Std.TransOrd κ] [Std.LawfulEqOrd κ]

def ofList (members : List κ) : SortedSet κ := SortedMap.ofList (members.map (·, ()))

omit [Std.TransOrd κ] [Std.LawfulEqOrd κ] in
theorem ext_keys {a b : SortedSet κ} (same : a.keys = b.keys) : a = b :=
  SortedMap.ext ((List.map_inj_right fun _ _ key => Prod.ext key rfl).mp same)

/-- Sets are compared as the lists of their members. -/
instance : Ord (SortedSet κ) := ⟨fun a b => compare a.keys b.keys⟩

omit [Std.TransOrd κ] [Std.LawfulEqOrd κ] in
theorem compare_eq (a b : SortedSet κ) : compare a b = compare a.keys b.keys := rfl

instance : Std.TransOrd (SortedSet κ) where
  eq_swap := by
    intro a b
    simp only [compare_eq]
    exact Std.OrientedCmp.eq_swap
  isLE_trans := by
    intro a b c first second
    rw [compare_eq] at first second ⊢
    exact Std.TransCmp.isLE_trans first second

instance : Std.LawfulEqOrd (SortedSet κ) where
  compare_self := by
    intro a
    rw [compare_eq]
    exact Std.ReflCmp.compare_self
  eq_of_compare := by
    intro a b same
    rw [compare_eq] at same
    exact ext_keys (Std.LawfulEqCmp.eq_of_compare same)

end SortedSet

end StatsRelay
