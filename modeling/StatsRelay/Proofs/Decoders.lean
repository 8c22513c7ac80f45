import StatsRelay.Proofs.Accepted
import StatsRelay.Proofs.Codecs

/-! The two ways to read a record. A text is read as it stands, or taken to the normal form of its
value first, as lines are. Sorting members and settling those of one name change nothing about a
record that was read without them; and what is read after them is read without them too, unless some
object repeats a name or the text is a line of output. -/
namespace StatsRelay

open StatsRelay.Json (Value)

namespace Document

theorem mem_ofMembers_iff {members : List (String × Value)} {name : String} {document : Document} :
    (some name, document) ∈ ofMembers members ↔
      ∃ value, (name, value) ∈ members ∧ ofValue value = document := by
  simp [ofMembers_eq_map]

theorem itemValues?_of_all {items : List Document} (sound : items.all (·.value?.isSome) = true) :
    ∃ values, itemValues? items = some values := by
  induction items with
  | nil => exact ⟨[], rfl⟩
  | cons item rest ih =>
    obtain ⟨here, there⟩ := Bool.and_eq_true_iff.mp sound
    obtain ⟨value, here⟩ := Option.isSome_iff_exists.mp here
    obtain ⟨values, there⟩ := ih there
    exact ⟨value :: values, by simp [itemValues?, here, there]⟩

end Document

namespace Json.Value

def Distinct : Value → Prop
  | object members => (members.map (·.1)).Nodup
  | _ => True

mutual

def Unrepeated : Value → Prop
  | array items => UnrepeatedItems items
  | object members => (members.map (·.1)).Nodup ∧ UnrepeatedMembers members
  | _ => True

def UnrepeatedItems : List Value → Prop
  | [] => True
  | item :: rest => item.Unrepeated ∧ UnrepeatedItems rest

def UnrepeatedMembers : List (String × Value) → Prop
  | [] => True
  | (_, value) :: rest => value.Unrepeated ∧ UnrepeatedMembers rest

end

theorem Unrepeated.distinct {value : Value} (unrepeated : value.Unrepeated) : value.Distinct := by
  cases value with
  | object members => exact unrepeated.1
  | _ => trivial

theorem UnrepeatedItems.distinct {items : List Value} (unrepeated : UnrepeatedItems items) :
    ∀ item ∈ items, item.Distinct := by
  induction items with
  | nil => exact List.forall_mem_nil _
  | cons item rest ih => exact List.forall_mem_cons.mpr ⟨unrepeated.1.distinct, ih unrepeated.2⟩

theorem UnrepeatedMembers.distinct {members : List (String × Value)}
    (unrepeated : UnrepeatedMembers members) : ∀ member ∈ members, member.2.Distinct := by
  induction members with
  | nil => exact List.forall_mem_nil _
  | cons member rest ih => exact List.forall_mem_cons.mpr ⟨unrepeated.1.distinct, ih unrepeated.2⟩

/-- No object repeats a name, down to the items or the values of the members. -/
def Orderly : Value → Prop
  | array items => ∀ item ∈ items, item.Distinct
  | object members => (members.map (·.1)).Nodup ∧ ∀ member ∈ members, member.2.Distinct
  | _ => True

theorem Unrepeated.orderly {value : Value} (unrepeated : value.Unrepeated) : value.Orderly := by
  cases value with
  | array items => exact UnrepeatedItems.distinct unrepeated
  | object members => exact ⟨unrepeated.1, UnrepeatedMembers.distinct unrepeated.2⟩
  | _ => trivial

end Json.Value

/-- A column that reads a value and its normal form alike, and no object that repeats a name. -/
structure Column.Settled (column : Column) : Prop where
  normal {value : Value} (distinct : value.Distinct) :
    column.codec.read (.ofValue value.normal) = column.codec.read (.ofValue value)
  distinct {value : Value} {held : column.Carrier}
    (read : column.codec.read (.ofValue value) = .ok held) : value.Distinct

/-- A column that does not see the order of members reads the same from a value in normal form. -/
theorem Column.Settled.reads_iff {column : Column} (settled : column.Settled)
    {members others : List (String × Value)} (distinct : (members.map (·.1)).Nodup)
    (inner : ∀ member ∈ members, member.2.Distinct)
    (normal : others.Perm (Value.normalMembers members)) {held : column.Carrier} :
    column.Reads (Document.ofMembers others) held ↔
      column.Reads (Document.ofMembers members) held := by
  have names : (others.map (·.1)).Perm (members.map (·.1)) :=
    Stats.names_normalMembers members ▸ normal.map _
  have distinct' := names.nodup_iff.mpr distinct
  rw [Column.reads_iff_mem (Document.names_nodup distinct'),
    Column.reads_iff_mem (Document.names_nodup distinct), Document.names_ofMembers,
    Document.names_ofMembers, (names.map some).mem_iff]
  refine and_congr_left fun _ => ?_
  -- Each member of this name is asked on either side, and is read alike in normal form.
  simp only [Document.mem_ofMembers_iff, normal.mem_iff, Json.Value.normalMembers_eq_map]
  constructor
  · rintro each _ ⟨value, member_mem, rfl⟩
    rw [← each _ ⟨_, List.mem_map.mpr ⟨_, member_mem, rfl⟩, rfl⟩]
    exact (settled.normal (inner _ member_mem)).symm
  · rintro each _ ⟨_, listed, rfl⟩
    obtain ⟨⟨name, value⟩, member_mem, same⟩ := List.mem_map.mp listed
    cases same
    rw [← each _ ⟨_, member_mem, rfl⟩]
    exact settled.normal (inner _ member_mem)

namespace Row

variable {columns : List Column}

theorem Reads.of_mem {members : Members} {row : Row columns} (reads : Reads members columns row)
    {column : Column} (listed : column ∈ columns) : ∃ held, column.Reads members held := by
  induction columns with
  | nil => cases listed
  | cons first rest ih =>
    rcases List.mem_cons.mp listed with rfl | later
    · exact ⟨row.1, reads.1⟩
    · exact ih reads.2 later

variable (settled : ∀ column ∈ columns, column.Settled)
include settled

/-- What is read column by column does not see the order of members either. -/
theorem reads_normal_iff {members others : List (String × Value)}
    (distinct : (members.map (·.1)).Nodup) (inner : ∀ member ∈ members, member.2.Distinct)
    (normal : others.Perm (Value.normalMembers members)) (row : Row columns) :
    Reads (Document.ofMembers others) columns row ↔
      Reads (Document.ofMembers members) columns row := by
  induction columns with
  | nil => exact Iff.rfl
  | cons column rest ih =>
    obtain ⟨here, there⟩ := List.forall_mem_cons.mp settled
    exact and_congr (here.reads_iff distinct inner normal) (ih there row.2)

theorem ofMembers_normal_iff (columnsDistinct : (columns.map Column.name).Nodup)
    {members others : List (String × Value)} (distinct : (members.map (·.1)).Nodup)
    (inner : ∀ member ∈ members, member.2.Distinct)
    (normal : others.Perm (Value.normalMembers members)) (row : Row columns) :
    ofMembers true columns (Document.ofMembers others) = .ok row ↔
      ofMembers true columns (Document.ofMembers members) = .ok row := by
  have names : (others.map (·.1)).Perm (members.map (·.1)) :=
    Stats.names_normalMembers members ▸ normal.map _
  have known (given : Members) :
      (∀ member ∈ given, ∃ column ∈ columns, member.1 = some column.name) ↔
        ∀ name ∈ given.map (·.1), ∃ column ∈ columns, name = some column.name := by
    rw [List.forall_mem_map]
  rw [ofMembers_ok_iff columnsDistinct (Document.names_nodup (names.nodup_iff.mpr distinct)),
    ofMembers_ok_iff columnsDistinct (Document.names_nodup distinct),
    reads_normal_iff settled distinct inner normal, known, known, Document.names_ofMembers,
    Document.names_ofMembers]
  simp only [(names.map some).mem_iff]

theorem ofItems_normal {items : List Value} (distinct : ∀ item ∈ items, item.Distinct) :
    ofItems columns (Document.ofItems (Value.normalItems items)) =
      ofItems columns (Document.ofItems items) := by
  induction columns generalizing items with
  | nil => cases items <;> rfl
  | cons column rest ih =>
    obtain ⟨here, there⟩ := List.forall_mem_cons.mp settled
    cases items with
    | nil => rfl
    | cons item items =>
      obtain ⟨first, others⟩ := List.forall_mem_cons.mp distinct
      rw [Value.normalItems, Document.ofItems, Document.ofItems, ofItems, ofItems,
        here.normal first, ih there others]

/-- An array that is read has no object with a repeated name among its items. -/
theorem distinct_of_ofItems {items : List Value} {row : Row columns}
    (read : ofItems columns (Document.ofItems items) = .ok row) :
    ∀ item ∈ items, item.Distinct := by
  induction columns generalizing items with
  | nil =>
    cases items with
    | nil => exact List.forall_mem_nil _
    | cons item rest => cases read
  | cons column rest ih =>
    obtain ⟨here, there⟩ := List.forall_mem_cons.mp settled
    cases items with
    | nil => exact List.forall_mem_nil _
    | cons item items =>
      obtain ⟨held, first, read⟩ := Except.bind_eq_ok_iff.mp read
      obtain ⟨row', others, _⟩ := Except.bind_eq_ok_iff.mp read
      exact List.forall_mem_cons.mpr ⟨here.distinct first, ih there others⟩

end Row

namespace Labelled

variable {α : Type} [Labelled α]

theorem read_object {members : Members} (other : members.length ≠ 1) :
    (wholeCodec : Codec α).read (.object members) = .error .malformed := by
  match members with
  | [] => rfl
  | [_] => exact absurd rfl other
  | _ :: _ :: _ => simp [wholeCodec]

theorem length_of_read {members : Members} {held : α}
    (read : (wholeCodec : Codec α).read (.object members) = .ok held) : members.length = 1 := by
  by_contra other
  rw [read_object other] at read
  cases read

end Labelled

namespace Stats

theorem length_sorted {members : List (String × Value)} (distinct : (members.map (·.1)).Nodup) :
    (sorted members).length = members.length := by
  rw [(sorted_perm distinct).length_eq, Json.Value.normalMembers_eq_map, List.length_map]

theorem sorted_ne_nil (member : String × Value) (rest : List (String × Value)) :
    sorted (member :: rest) ≠ [] := by
  intro nothing
  have listed : member.1 ∈ (SortedMap.ofList (Value.normalMembers (member :: rest))).keys :=
    (SortedMap.mem_keys_addAll _).mpr (.inl List.mem_cons_self)
  have empty : (SortedMap.ofList (Value.normalMembers (member :: rest))).keys = [] :=
    congrArg (List.map Prod.fst) nothing
  exact List.not_mem_nil (empty ▸ listed)

namespace FieldSort

variable {α : Type} (sort : FieldSort α) {value : Value}

theorem read_code_normal [Labelled α] {members : List (String × Value)}
    (distinct : (members.map (·.1)).Nodup) :
    (Labelled.wholeCodec : Codec α).read (.object (Document.ofMembers (sorted members))) =
      Labelled.wholeCodec.read (.object (Document.ofMembers members)) := by
  match members with
  | [(name, inner)] =>
    change Labelled.wholeCodec.read (.object [(some name, Document.ofValue inner.normal)]) =
      Labelled.wholeCodec.read (.object [(some name, Document.ofValue inner)])
    -- The one member has to hold null or an empty object, and sorting empties no object.
    cases inner with
    | object held =>
      cases held with
      | nil => rfl
      | cons first rest =>
        obtain ⟨least, others, kept⟩ := List.exists_cons_of_ne_nil (sorted_ne_nil first rest)
        have normal : (Value.object (first :: rest)).normal = .object (least :: others) :=
          congrArg Value.object kept
        rw [normal]
        rfl
    | _ => rfl
  | [] => rfl
  | first :: second :: rest =>
    rw [Labelled.read_object, Labelled.read_object]
    · simp [Document.ofMembers_eq_map]
    · simp [Document.ofMembers_eq_map, length_sorted distinct]

theorem read_normal (distinct : value.Distinct) :
    sort.codec.read (.ofValue value.normal) = sort.codec.read (.ofValue value) := by
  cases sort with
  | code zero =>
    cases value with
    | object members => exact read_code_normal distinct
    | _ => rfl
  | _ =>
    cases value with
    | number number => cases number <;> rfl
    | _ => rfl

theorem distinct_of_read {held : α} (read : sort.codec.read (.ofValue value) = .ok held) :
    value.Distinct := by
  cases value with
  | object members =>
    cases sort with
    | code zero =>
      have single := Labelled.length_of_read read
      rw [Document.ofMembers_eq_map, List.length_map] at single
      obtain ⟨member, rfl⟩ := List.length_eq_one_iff.mp single
      exact List.nodup_singleton _
    | _ => cases read
  | _ => trivial

end FieldSort

/-- All columns of all kinds are of this sort. -/
theorem Kind.settled (kind : Kind) : ∀ column ∈ kind.table.columns, column.Settled := by
  rw [kind.columns_eq]
  intro column listed
  obtain ⟨field, _, rfl⟩ := List.mem_map.mp listed
  exact ⟨field.sort.read_normal, field.sort.distinct_of_read⟩

namespace Record

variable {record : Record}

section

variable {members : Members}

theorem exists_text_of_readKind {document : Document} {kind : Kind}
    (read : readKind document = .ok kind) : ∃ text, document = .string (some text) := by
  unfold readKind at read
  split at read
  · exact ⟨_, rfl⟩
  · cases read

theorem memberValues?_of_takeKind {found : Option Kind} {result : Kind × Members}
    (taken : takeKind found members = .ok result) :
    ∃ values, Document.memberValues? members = some values := by
  have listed {name : String} {document : Document} {rest : Members}
      (here : ∃ value, document.value? = some value)
      (there : ∃ values, Document.memberValues? rest = some values) :
      ∃ values, Document.memberValues? ((some name, document) :: rest) = some values := by
    obtain ⟨value, here⟩ := here
    obtain ⟨values, there⟩ := there
    exact ⟨(name, value) :: values, by simp [Document.memberValues?, here, there]⟩
  induction members generalizing found result with
  | nil => exact ⟨[], rfl⟩
  | cons member rest ih =>
    obtain ⟨name?, document⟩ := member
    cases name? with
    | none => simp [takeKind] at taken
    | some name =>
      rw [takeKind] at taken
      split at taken
      · split at taken
        · cases taken
        · obtain ⟨kind, read, later⟩ := Except.bind_eq_ok_iff.mp taken
          obtain ⟨text, rfl⟩ := exists_text_of_readKind read
          exact listed ⟨.string text, rfl⟩ (ih later)
      · split at taken
        · rename_i sound
          obtain ⟨pair, later, _⟩ := Except.bind_eq_ok_iff.mp taken
          exact listed (Option.isSome_iff_exists.mp sound) (ih later)
        · cases taken

theorem of_takeKind_found {found : Kind} {result : Kind × Members}
    (taken : takeKind (some found) members = .ok result) :
    result = (found, members) ∧ some kindName ∉ members.map (·.1) := by
  induction members generalizing result with
  | nil =>
    cases taken
    exact ⟨rfl, List.not_mem_nil⟩
  | cons member rest ih =>
    obtain ⟨name?, document⟩ := member
    cases name? with
    | none => simp [takeKind] at taken
    | some name =>
      rw [takeKind] at taken
      split at taken
      · cases taken
      · rename_i apart
        split at taken
        · obtain ⟨pair, later, same⟩ := Except.bind_eq_ok_iff.mp taken
          obtain ⟨rfl, others⟩ := ih later
          cases same
          refine ⟨rfl, fun listed => ?_⟩
          rcases List.mem_cons.mp listed with same | member_mem
          · exact apart (Option.some.inj same).symm
          · exact others member_mem
        · cases taken

/-- The kind is taken out, and the names of the others stay. -/
theorem names_of_takeKind {kind : Kind} {others : Members}
    (taken : takeKind none members = .ok (kind, others)) :
    (members.map (·.1)).Perm (some kindName :: others.map (·.1)) ∧
      some kindName ∉ others.map (·.1) := by
  induction members generalizing others with
  | nil => cases taken
  | cons member rest ih =>
    obtain ⟨name?, document⟩ := member
    cases name? with
    | none => simp [takeKind] at taken
    | some name =>
      rw [takeKind] at taken
      split at taken
      · rename_i same
        obtain ⟨found, _, later⟩ := Except.bind_eq_ok_iff.mp taken
        obtain ⟨same', absent⟩ := of_takeKind_found later
        cases same'
        exact ⟨same ▸ .refl _, absent⟩
      · rename_i apart
        split at taken
        · obtain ⟨⟨kind', others'⟩, later, same⟩ := Except.bind_eq_ok_iff.mp taken
          cases same
          obtain ⟨names, absent⟩ := ih later
          refine ⟨(names.cons _).trans (.swap _ _ _), fun listed => ?_⟩
          rcases List.mem_cons.mp listed with same | member_mem
          · exact apart (Option.some.inj same).symm
          · exact absent member_mem
        · cases taken

theorem ofItems_ok_iff {first : Document} {rest : List Document} :
    ofItems (first :: rest) = .ok record ↔
      readKind first = .ok record.kind ∧ rest.all (·.value?.isSome) = true ∧
        Row.ofItems record.kind.table.columns rest =
          .ok (record.kind.table.toRow record.payload) := by
  rw [← Kind.map_ofRow_ok_iff]
  refine Except.bind_eq_ok_iff.trans ⟨?_, ?_⟩
  · rintro ⟨kind, named, read⟩
    cases sound : rest.all (·.value?.isSome) with
    | false => simp [sound, throw, throwThe, MonadExceptOf.throw, bind, Except.bind] at read
    | true =>
      simp only [sound, Bool.not_true, Bool.false_eq_true, if_false] at read
      obtain ⟨payload, decoded, equal⟩ := Except.bind_eq_ok_iff.mp read
      cases equal
      exact ⟨named, rfl, decoded⟩
  · rintro ⟨named, sound, decoded⟩
    refine ⟨record.kind, named, ?_⟩
    simp only [sound, Bool.not_true, Bool.false_eq_true, if_false]
    exact Except.bind_eq_ok_iff.mpr ⟨record.payload, decoded, rfl⟩

theorem value?_of_ofDocument {document : Document} (read : ofDocument document = .ok record) :
    ∃ value, document.value? = some value := by
  cases document with
  | object members =>
    obtain ⟨pair, taken, _⟩ := Except.bind_eq_ok_iff.mp read
    obtain ⟨values, held⟩ := memberValues?_of_takeKind taken
    exact ⟨.object values, congrArg (Option.map Value.object) held⟩
  | array items =>
    cases items with
    | nil => cases read
    | cons first rest =>
      obtain ⟨named, sound, _⟩ := ofItems_ok_iff.mp read
      obtain ⟨text, rfl⟩ := exists_text_of_readKind named
      obtain ⟨values, held⟩ := Document.itemValues?_of_all sound
      exact ⟨.array (.string text :: values), by
        simp [Document.value?, Document.itemValues?, held]⟩
  | _ => cases read

theorem nodup_of_ofMembers (read : ofMembers members = .ok record) : (members.map (·.1)).Nodup := by
  obtain ⟨⟨kind, others⟩, taken, read⟩ := Except.bind_eq_ok_iff.mp read
  obtain ⟨payload, decoded, _⟩ := Except.bind_eq_ok_iff.mp read
  obtain ⟨slots, filledAll, _⟩ := Except.bind_eq_ok_iff.mp (kind.ofMembers_ok_iff_row.mp decoded)
  have distinct : (others.map (·.1)).Nodup :=
    Slots.nodup_of_fillAll_ok kind.names_distinct [] .nil (Slots.holds_empty _) filledAll
  obtain ⟨names, absent⟩ := names_of_takeKind taken
  exact names.nodup_iff.mpr (List.nodup_cons.mpr ⟨absent, distinct⟩)

end

theorem ofMembers_ok_iff_row {members : List (String × Value)}
    (distinct : (members.map (·.1)).Nodup) :
    ofMembers (Document.ofMembers members) = .ok record ↔
      (kindName, .string (label record.kind)) ∈ members ∧
        Row.ofMembers true record.kind.table.columns
          (Document.ofMembers (members.filter (·.1 ≠ kindName))) =
            .ok (record.kind.table.toRow record.payload) := by
  rw [← Kind.ofMembers_ok_iff_row]
  refine Except.bind_eq_ok_iff.trans ⟨?_, ?_⟩
  · rintro ⟨⟨kind, others⟩, taken, read⟩
    obtain ⟨listed, rfl⟩ := (takeKind_ok_iff distinct).mp taken
    obtain ⟨payload, decoded, equal⟩ := Except.bind_eq_ok_iff.mp read
    cases equal
    exact ⟨listed, decoded⟩
  · rintro ⟨listed, decoded⟩
    exact ⟨_, (takeKind_ok_iff distinct).mpr ⟨listed, rfl⟩,
      Except.bind_eq_ok_iff.mpr ⟨_, decoded, rfl⟩⟩

theorem ofItems_ok_iff_row {first : Value} {rest : List Value} :
    ofItems (Document.ofItems (first :: rest)) = .ok record ↔
      first = .string (label record.kind) ∧
        Row.ofItems record.kind.table.columns (Document.ofItems rest) =
          .ok (record.kind.table.toRow record.payload) := by
  have sound : (Document.ofItems rest).all (·.value?.isSome) = true := by
    simp [Document.ofItems_eq_map, Document.value?_ofValue]
  rw [Document.ofItems, ofItems_ok_iff, readKind_ok_iff, sound]
  simp

theorem ofItems_normal_iff {items : List Value} (distinct : ∀ item ∈ items, item.Distinct) :
    ofItems (Document.ofItems (Value.normalItems items)) = .ok record ↔
      ofItems (Document.ofItems items) = .ok record := by
  cases items with
  | nil => rfl
  | cons first rest =>
    obtain ⟨_, others⟩ := List.forall_mem_cons.mp distinct
    have same : first.normal = .string (label record.kind) ↔ first = .string (label record.kind) :=
      FieldSort.text.normal_eq_spelling_iff
    rw [Value.normalItems, ofItems_ok_iff_row, ofItems_ok_iff_row, same,
      Row.ofItems_normal record.kind.settled others]

theorem ofMembers_normal_iff {members : List (String × Value)}
    (distinct : (members.map (·.1)).Nodup) (inner : ∀ member ∈ members, member.2.Distinct) :
    ofMembers (Document.ofMembers (sorted members)) = .ok record ↔
      ofMembers (Document.ofMembers members) = .ok record := by
  have kept : ((members.filter (·.1 ≠ kindName)).map (·.1)).Nodup :=
    distinct.sublist (List.filter_sublist.map _)
  -- Sorting permutes the members of the payload too, once the kind is taken out.
  have normal : ((sorted members).filter (·.1 ≠ kindName)).Perm
      (Value.normalMembers (members.filter (·.1 ≠ kindName))) := by
    have filtered := (sorted_perm distinct).filter (·.1 ≠ kindName)
    rw [Json.Value.normalMembers_eq_map, List.filter_map] at filtered
    rwa [Json.Value.normalMembers_eq_map]
  have inner' : ∀ member ∈ members.filter (·.1 ≠ kindName), member.2.Distinct :=
    fun member member_mem => inner member (List.mem_of_mem_filter member_mem)
  rw [ofMembers_ok_iff_row distinct, ofMembers_ok_iff_row (names_sorted_nodup members),
    labelled_sorted_iff distinct,
    Row.ofMembers_normal_iff record.kind.settled record.kind.names_distinct kept inner' normal]

/-- Every member of a record is the kind, or is read into a column. -/
theorem known_of_ofMembers {members : List (String × Value)}
    (read : ofMembers (Document.ofMembers members) = .ok record) :
    (members.map (·.1)).Nodup ∧ (kindName, .string (label record.kind)) ∈ members ∧
      ∀ name value, (name, value) ∈ members → name ≠ kindName →
        ∃ column ∈ record.kind.table.columns, column.name = name ∧
          ∃ held, column.codec.read (.ofValue value) = .ok held := by
  have distinct : (members.map (·.1)).Nodup := by
    have names := nodup_of_ofMembers read
    rw [Document.names_ofMembers] at names
    exact names.of_map
  obtain ⟨listed, decoded⟩ := (ofMembers_ok_iff_row distinct).mp read
  refine ⟨distinct, listed, fun name value member_mem apart => ?_⟩
  have kept : ((members.filter (·.1 ≠ kindName)).map (·.1)).Nodup :=
    distinct.sublist (List.filter_sublist.map _)
  obtain ⟨known, reads⟩ := (Row.ofMembers_ok_iff record.kind.names_distinct
    (Document.names_nodup kept) _).mp decoded
  have other : (name, value) ∈ members.filter (·.1 ≠ kindName) :=
    List.mem_filter.mpr ⟨member_mem, by simpa using apart⟩
  have given := Document.mem_ofMembers_iff.mpr ⟨value, other, rfl⟩
  obtain ⟨column, ours, named⟩ := known _ given
  obtain ⟨held, read⟩ := reads.of_mem ours
  rw [Column.reads_iff_mem (Document.names_nodup kept)] at read
  exact ⟨column, ours, (Option.some.inj named).symm, held, read.1 _ (named ▸ given)⟩

theorem orderly_of_ofDocument {value : Value} (read : ofDocument (.ofValue value) = .ok record) :
    value.Orderly := by
  cases value with
  | array items =>
    cases items with
    | nil => exact List.forall_mem_nil _
    | cons first rest =>
      obtain ⟨rfl, decoded⟩ := ofItems_ok_iff_row.mp read
      exact List.forall_mem_cons.mpr
        ⟨trivial, Row.distinct_of_ofItems record.kind.settled decoded⟩
  | object members =>
    obtain ⟨distinct, listed, known⟩ := known_of_ofMembers read
    refine ⟨distinct, fun (name, value) member_mem => ?_⟩
    by_cases same : name = kindName
    · have named : value = .string (label record.kind) :=
        eq_of_mem_of_nodup distinct member_mem (same ▸ listed)
      exact named ▸ trivial
    · obtain ⟨column, ours, _, held, read⟩ := known name value member_mem same
      exact (record.kind.settled column ours).distinct read
  | _ => trivial

/-- A value whose objects do not repeat names is the record that its normal form is. -/
theorem ofDocument_normal_iff {value : Value} (orderly : value.Orderly) :
    ofDocument (.ofValue value.normal) = .ok record ↔
      ofDocument (.ofValue value) = .ok record := by
  cases value with
  | array items => exact ofItems_normal_iff orderly
  | object members => exact ofMembers_normal_iff orderly.1 orderly.2
  | _ => exact Iff.rfl

def Unwrapped (value : Value) : Prop :=
  ∀ members payload, value = .object members → (payloadName, .object payload) ∉ members

theorem Unwrapped.unwrap_eq {value : Value} (unwrapped : Unwrapped value) :
    unwrap value = value := by
  cases value with
  | object members =>
    simp only [unwrap]
    split
    · rename_i payload found
      obtain ⟨before, after, rfl, _⟩ := List.lookup_eq_some_iff.mp found
      exact absurd (List.mem_append_right _ List.mem_cons_self) (unwrapped _ payload rfl)
    · rfl
  | _ => rfl

theorem Unwrapped.normal {value : Value} (unwrapped : Unwrapped value)
    (orderly : value.Orderly) : Unwrapped value.normal := by
  intro others payload same listed
  cases value with
  | object members =>
    cases same
    obtain ⟨given, member_mem, normal⟩ := (mem_sorted_iff orderly.1).mp listed
    cases given with
    | object held => exact unwrapped members held rfl member_mem
    | _ => cases normal
  | _ => cases same

/-- No kind has the payload among its fields. -/
theorem payloadName_not_mem {members : List (String × Value)}
    (read : ofMembers (Document.ofMembers members) = .ok record) :
    payloadName ∉ members.map (·.1) := by
  intro listed
  obtain ⟨⟨name, value⟩, member_mem, rfl⟩ := List.mem_map.mp listed
  obtain ⟨_, _, known⟩ := known_of_ofMembers read
  obtain ⟨column, ours, named, _⟩ := known payloadName value member_mem (by decide)
  have absent : payloadName ∉ record.kind.table.columns.map Column.name := by
    cases record.kind <;> decide
  exact absent (List.mem_map.mpr ⟨column, ours, named⟩)

/-- What is read as a record has no payload to be unwrapped. -/
theorem unwrapped_of_ofDocument {value : Value} (read : ofDocument (.ofValue value) = .ok record) :
    Unwrapped value := by
  rintro members payload rfl listed
  exact payloadName_not_mem read (List.mem_map.mpr ⟨_, listed, rfl⟩)

/-- A text decodes just if it is a value that does. -/
theorem decode_ok_iff {text : String} :
    decode text = .ok record ↔
      ∃ value, Value.parse? text = some value ∧ ofDocument (.ofValue value) = .ok record := by
  unfold decode Value.parse?
  rw [Codec.decode_ok_iff]
  constructor
  · rintro ⟨read, complete⟩
    obtain ⟨value, held⟩ := value?_of_ofDocument read
    refine ⟨value, by simp [complete, held], ?_⟩
    rw [← Document.eq_ofValue _ held]
    exact read
  · rintro ⟨value, parsed, read⟩
    dsimp only at parsed
    split at parsed
    · rename_i complete
      rw [← Document.eq_ofValue _ parsed] at read
      exact ⟨read, complete⟩
    · cases parsed

/-- A line decodes just if it is a value that does in normal form. -/
theorem decodeLine_ok_iff_normal {text : String} :
    decodeLine text = .ok record ↔
      ∃ value, Value.parse? text = some value ∧
        ofDocument (.ofValue (unwrap value.normal)) = .ok record := by
  unfold decodeLine
  cases Value.parse? text <;> simp

/-- A text that is read as a record is a line of this record. A line of a record is read as this
record as it stands, unless an object in it repeats a name or it has an object as its payload. -/
theorem decodeLine_agrees (text : String) :
    (∀ record, decode text = .ok record → decodeLine text = .ok record) ∧
      ((∀ value, Value.parse? text = some value → value.Unrepeated ∧ Unwrapped value) →
        ∀ record, decodeLine text = .ok record → decode text = .ok record) := by
  constructor
  · intro record read
    obtain ⟨value, parsed, read⟩ := decode_ok_iff.mp read
    have normal := (ofDocument_normal_iff (orderly_of_ofDocument read)).mpr read
    refine decodeLine_ok_iff_normal.mpr ⟨value, parsed, ?_⟩
    rw [(unwrapped_of_ofDocument normal).unwrap_eq]
    exact normal
  · intro plain record read
    obtain ⟨value, parsed, read⟩ := decodeLine_ok_iff_normal.mp read
    obtain ⟨unrepeated, unwrapped⟩ := plain value parsed
    rw [(unwrapped.normal unrepeated.orderly).unwrap_eq] at read
    exact decode_ok_iff.mpr
      ⟨value, parsed, (ofDocument_normal_iff unrepeated.orderly).mp read⟩

def misspelled : Value :=
  .object [("statusCode", .object [("not_found", .null)]), ("kind", .string "optimize")]

theorem decodeLine_agrees_misspelled :
    let text := "\x7b\"statusCode\":\x7b\"not_found\":null\x7d,\"kind\":\"optimize\"\x7d"
    let record : Record :=
      ⟨.optimize, ({ (default : OptimizeStats) with statusCode := .notFound } : OptimizeStats)⟩
    decode text = .ok record ∧ decodeLine text = .ok record := by
  intro text record
  have written : misspelled.compact = text := by decide +kernel
  have legible : misspelled.Legible Json.nestingLimit := by
    refine .object (List.forall_mem_cons.mpr ⟨?_, List.forall_mem_cons.mpr ⟨?_, ?_⟩⟩)
    · exact .object (List.forall_mem_cons.mpr ⟨.null, List.forall_mem_nil _⟩)
    · exact .string "optimize"
    · exact List.forall_mem_nil _
  have parsed := Json.parse?_compact legible
  rw [written] at parsed
  have plain : ∀ value, Value.parse? text = some value → value.Unrepeated ∧ Unwrapped value := by
    intro value same
    obtain rfl := Option.some.inj (parsed.symm.trans same)
    refine ⟨⟨by decide, ⟨List.nodup_singleton _, trivial, trivial⟩, trivial, trivial⟩, ?_⟩
    intro members payload same listed
    cases same
    simp [payloadName] at listed
  have line : decodeLine text = .ok record := by decide +kernel
  have read : decode text = .ok record := (decodeLine_agrees text).2 plain record line
  exact ⟨read, (decodeLine_agrees text).1 record read⟩

end Record

end Stats

end StatsRelay
