import StatsRelay.Proofs.SortedMap
import StatsRelay.Schema.Table

/-! Which rows a strict reading of members yields. Under distinct names the order of the members
counts for nothing: a reading succeeds just when every name is that of a column and every value can
be read there, and the row then has these values and, elsewhere, what its columns have by
default. -/
namespace StatsRelay

abbrev Members := List (Option String × Document)

theorem Except.bind_eq_ok_iff {ε α β : Type} {first : Except ε α} {next : α → Except ε β}
    {result : β} :
    (first >>= next) = .ok result ↔ ∃ value, first = .ok value ∧ next value = .ok result := by
  cases first with
  | error fault => simp [bind, Except.bind]
  | ok value => simp [bind, Except.bind]

/-- Reading a list comes to the values of all items, or to the first error. -/
theorem Except.mapM_spec {ε α β : Type} (read : α → Except ε β) (items : List α) :
    (∃ values, items.mapM read = .ok values ∧ (∀ item ∈ items, ∃ value, read item = .ok value) ∧
      ∀ value, value ∈ values ↔ ∃ item ∈ items, read item = .ok value) ∨
    ∃ before item after error, items = before ++ item :: after ∧
      (∀ other ∈ before, ∃ value, read other = .ok value) ∧ read item = .error error ∧
      items.mapM read = .error error := by
  induction items with
  | nil => exact .inl ⟨[], rfl, by simp, by simp⟩
  | cons item rest ih =>
    simp only [List.mapM_cons]
    cases here : read item with
    | error error => exact .inr ⟨[], item, rest, error, rfl, by simp, here, rfl⟩
    | ok value =>
      rcases ih with
        ⟨values, outcome, each, held⟩ | ⟨before, other, after, error, parts, sound, refused, outcome⟩
      · refine .inl ⟨value :: values, by rw [outcome]; rfl, ?_, fun other => ?_⟩
        · exact List.forall_mem_cons.mpr ⟨⟨value, here⟩, each⟩
        · simp [held, here, eq_comm]
      · refine .inr ⟨item :: before, other, after, error, by simp [parts], ?_, refused, ?_⟩
        · exact List.forall_mem_cons.mpr ⟨⟨value, here⟩, sound⟩
        · rw [outcome]
          rfl

private theorem lookup_snoc (members : Members) (name other : String) (document : Document) :
    (members ++ [(some name, document)]).lookup (some other) =
      (members.lookup (some other)).or (if other = name then some document else none) := by
  rw [List.lookup_append, List.lookup_cons]
  by_cases same : other = name
  · simp [same]
  · have test : (some other == some name) = false := by simpa using same
    simp [test, same]

/-- The place of a column holds what the member of its name says, and nothing if there is none. -/
def Column.Holds (members : Members) (column : Column) (slot : Option column.Carrier) : Prop :=
  match members.lookup (some column.name) with
  | some document => ∃ value, column.codec.read document = .ok value ∧ slot = some value
  | none => slot = none

theorem Column.holds_unique {members : Members} {column : Column}
    {first second : Option column.Carrier} (one : column.Holds members first)
    (other : column.Holds members second) : first = second := by
  unfold Holds at one other
  cases found : members.lookup (some column.name) with
  | none =>
    simp only [found] at one other
    exact one.trans other.symm
  | some document =>
    simp only [found] at one other
    obtain ⟨value, read, rfl⟩ := one
    obtain ⟨value', read', rfl⟩ := other
    exact congrArg some (Except.ok.inj (read.symm.trans read'))

namespace Slots

def Holds (members : Members) : (columns : List Column) → Slots columns → Prop
  | [], _ => True
  | column :: rest, (slot, slots) => column.Holds members slot ∧ Holds members rest slots

theorem holds_empty (columns : List Column) : Holds [] columns (empty columns) := by
  induction columns with
  | nil => trivial
  | cons column rest ih => exact ⟨rfl, ih⟩

theorem holds_unique {members : Members} {columns : List Column} {first second : Slots columns}
    (one : Holds members columns first) (other : Holds members columns second) :
    first = second := by
  induction columns with
  | nil => rfl
  | cons column rest ih =>
    obtain ⟨here, there⟩ := one
    obtain ⟨here', there'⟩ := other
    exact Prod.ext (Column.holds_unique here here') (ih there there')

theorem holds_snoc_of_ne {members : Members} {name : String} {document : Document}
    {columns : List Column} (other : name ∉ columns.map Column.name) (slots : Slots columns) :
    Holds (members ++ [(some name, document)]) columns slots ↔ Holds members columns slots := by
  induction columns with
  | nil => exact Iff.rfl
  | cons column rest ih =>
    obtain ⟨slot, slots⟩ := slots
    obtain ⟨apart, others⟩ : name ≠ column.name ∧ name ∉ rest.map Column.name := by
      simpa using other
    have same : column.Holds (members ++ [(some name, document)]) slot ↔
        column.Holds members slot := by simp [Column.Holds, lookup_snoc, Ne.symm apart]
    exact and_congr same (ih others slots)

theorem holds_prefix {members others : Members} {columns : List Column} {slots : Slots columns}
    (holds : Holds (members ++ others) columns slots) : ∃ next, Holds members columns next := by
  induction columns with
  | nil => exact ⟨(), trivial⟩
  | cons column rest ih =>
    obtain ⟨here, there⟩ := holds
    obtain ⟨next, later⟩ := ih there
    unfold Column.Holds at here
    rw [List.lookup_append] at here
    cases found : members.lookup (some column.name) with
    | none => exact ⟨(none, next), by simp [Column.Holds, found], later⟩
    | some document =>
      simp only [found, Option.some_or] at here
      exact ⟨(slots.1, next), by simpa [Column.Holds, found] using here, later⟩

theorem not_mem_of_fill?_eq_none {name : String} {document : Document} {columns : List Column}
    {slots : Slots columns} (other : fill? name document columns slots = none) :
    name ∉ columns.map Column.name := by
  induction columns with
  | nil => simp
  | cons column rest ih =>
    obtain ⟨slot, slots⟩ := slots
    rw [fill?] at other
    split at other
    · cases other
    · rename_i apart
      have others := ih (Option.map_eq_none_iff.mp other)
      simpa [apart] using others

theorem fill?_eq_none {name : String} {document : Document} {columns : List Column}
    (other : name ∉ columns.map Column.name) (slots : Slots columns) :
    fill? name document columns slots = none := by
  induction columns with
  | nil => rfl
  | cons column rest ih =>
    obtain ⟨slot, slots⟩ := slots
    obtain ⟨apart, others⟩ : name ≠ column.name ∧ name ∉ rest.map Column.name := by
      simpa using other
    rw [fill?, if_neg apart, ih others]
    rfl

/-- How members of other names are treated counts for nothing where there are none. -/
theorem fillAll_known (strict : Bool) {columns : List Column} {members : Members}
    (known : ∀ member ∈ members, ∃ column ∈ columns, member.1 = some column.name)
    (slots : Slots columns) : fillAll strict slots members = fillAll true slots members := by
  induction members generalizing slots with
  | nil => rfl
  | cons member rest ih =>
    obtain ⟨name?, document⟩ := member
    obtain ⟨⟨column, column_mem, named⟩, others⟩ := List.forall_mem_cons.mp known
    obtain rfl : name? = some column.name := named
    have listed : column.name ∈ columns.map Column.name := List.mem_map_of_mem column_mem
    cases filledAll : fill? column.name document columns slots with
    | none => exact absurd listed (not_mem_of_fill?_eq_none filledAll)
    | some next => simp only [fillAll, filledAll, ih others]

theorem fill?_holds {members : Members} {name : String} {document : Document}
    {columns : List Column} (columnsDistinct : (columns.map Column.name).Nodup)
    (known : name ∈ columns.map Column.name) (fresh : members.lookup (some name) = none)
    {slots : Slots columns} (holds : Holds members columns slots) :
    ∃ filledAll, fill? name document columns slots = some filledAll ∧
      ∀ next, filledAll = .ok next ↔ Holds (members ++ [(some name, document)]) columns next := by
  induction columns with
  | nil => simp at known
  | cons column rest ih =>
    obtain ⟨slot, slots⟩ := slots
    obtain ⟨here, there⟩ := holds
    obtain ⟨absent, restDistinct⟩ := List.nodup_cons.mp columnsDistinct
    by_cases same : name = column.name
    · subst same
      have nothing : slot = none := by simpa [Column.Holds, fresh] using here
      subst nothing
      have placed (slot' : Option column.Carrier) :
          column.Holds (members ++ [(some column.name, document)]) slot' ↔
            ∃ value, column.codec.read document = .ok value ∧ slot' = some value := by
        simp [Column.Holds, lookup_snoc, fresh]
      refine ⟨do return (some (← column.codec.read document), slots), ?_, ?_⟩
      · rw [fill?, if_pos rfl]
        rfl
      rintro ⟨slot', slots'⟩
      refine Except.bind_eq_ok_iff.trans ⟨?_, ?_⟩
      · rintro ⟨value, read, equal⟩
        cases equal
        exact ⟨(placed _).mpr ⟨value, read, rfl⟩, (holds_snoc_of_ne absent slots).mpr there⟩
      · rintro ⟨first, later⟩
        obtain ⟨value, read, rfl⟩ := (placed _).mp first
        refine ⟨value, read, ?_⟩
        rw [holds_unique there ((holds_snoc_of_ne absent slots').mp later)]
        rfl
    · have known : name ∈ rest.map Column.name := by simpa [same] using known
      obtain ⟨filledAll, found, ok⟩ := ih restDistinct known there
      have skipped (slot' : Option column.Carrier) :
          column.Holds (members ++ [(some name, document)]) slot' ↔ column.Holds members slot' := by
        simp [Column.Holds, lookup_snoc, Ne.symm same]
      refine ⟨do return (slot, ← filledAll), ?_, ?_⟩
      · rw [fill?, if_neg same, found]
        rfl
      rintro ⟨slot', slots'⟩
      refine Except.bind_eq_ok_iff.trans ⟨?_, ?_⟩
      · rintro ⟨next, read, equal⟩
        cases equal
        exact ⟨(skipped _).mpr here, (ok _).mp read⟩
      · rintro ⟨first, later⟩
        refine ⟨slots', (ok slots').mpr later, ?_⟩
        rw [Column.holds_unique here ((skipped _).mp first)]
        rfl

theorem fill?_duplicate {members : Members} {name : String} {known document : Document}
    {columns : List Column} (listed : name ∈ columns.map Column.name)
    (held : members.lookup (some name) = some known) {slots : Slots columns}
    (holds : Holds members columns slots) :
    fill? name document columns slots = some (.error (.duplicateField name)) := by
  induction columns with
  | nil => simp at listed
  | cons column rest ih =>
    obtain ⟨slot, slots⟩ := slots
    obtain ⟨here, there⟩ := holds
    by_cases same : name = column.name
    · subst same
      unfold Column.Holds at here
      simp only [held] at here
      obtain ⟨value, _, rfl⟩ := here
      rw [fill?, if_pos rfl]
      rfl
    · have later : name ∈ rest.map Column.name := by simpa [same] using listed
      rw [fill?, if_neg same, ih later there]
      rfl

/-- Members that are read one after another have names of their own. -/
theorem nodup_of_fillAll_ok {columns : List Column}
    (columnsDistinct : (columns.map Column.name).Nodup) (before : Members) {members : Members}
    (distinct : (before.map (·.1)).Nodup) {slots : Slots columns}
    (holds : Holds before columns slots) {result : Slots columns}
    (read : fillAll true slots members = .ok result) : ((before ++ members).map (·.1)).Nodup := by
  -- As for the result: each step moves one member over to those before.
  induction members generalizing before slots with
  | nil => simpa using distinct
  | cons member rest ih =>
    obtain ⟨name?, document⟩ := member
    cases name? with
    | none => simp [fillAll] at read
    | some name =>
      rw [fillAll] at read
      by_cases known : name ∈ columns.map Column.name
      · cases held : before.lookup (some name) with
        | some value =>
          rw [fill?_duplicate known held holds] at read
          simp [bind, Except.bind] at read
        | none =>
          obtain ⟨filledAll, found, ok⟩ := fill?_holds columnsDistinct known held holds
          rw [found] at read
          obtain ⟨next, first, others⟩ := Except.bind_eq_ok_iff.mp read
          have moved : before ++ (some name, document) :: rest =
              (before ++ [(some name, document)]) ++ rest := by simp
          have absent := lookup_eq_none_iff_not_mem.mp held
          have longer : ((before ++ [(some name, document)]).map (·.1)).Nodup := by
            rw [List.map_append]
            exact List.nodup_append.mpr ⟨distinct, by simp, by
              intro other other_mem last same
              exact fun equal => absent (by simp_all)⟩
          rw [moved]
          exact ih _ longer ((ok next).mp first) others
      · rw [fill?_eq_none known] at read
        simp at read

/-- Members of names that are new to each other and to those read before are read one after another
just when each has a column that can read it. -/
theorem fillAll_ok_iff {columns : List Column} (columnsDistinct : (columns.map Column.name).Nodup)
    (before : Members) {members : Members} (distinct : ((before ++ members).map (·.1)).Nodup)
    {slots : Slots columns} (holds : Holds before columns slots) (result : Slots columns) :
    fillAll true slots members = .ok result ↔
      (∀ member ∈ members, ∃ column ∈ columns, member.1 = some column.name) ∧
        Holds (before ++ members) columns result := by
  -- The places hold what the members before say; each step moves one member over to them.
  induction members generalizing before slots with
  | nil =>
    simp only [fillAll, Except.ok.injEq, List.append_nil, List.not_mem_nil, false_imp_iff,
      implies_true, true_and]
    constructor
    · rintro rfl
      exact holds
    · exact holds_unique holds
  | cons member rest ih =>
    obtain ⟨name?, document⟩ := member
    cases name? with
    | none => simp [fillAll]
    | some name =>
      rw [fillAll]
      by_cases known : name ∈ columns.map Column.name
      · have fresh : before.lookup (some name) = none := by
          apply lookup_eq_none_iff_not_mem.mpr
          intro member
          rw [List.map_append, List.nodup_append] at distinct
          exact distinct.2.2 _ member _ (by simp) rfl
        obtain ⟨filledAll, found, ok⟩ := fill?_holds columnsDistinct known fresh holds
        obtain ⟨column, column_mem, named⟩ := List.mem_map.mp known
        have first : ∃ column ∈ columns, some name = some column.name :=
          ⟨column, column_mem, congrArg some named.symm⟩
        have moved : before ++ (some name, document) :: rest =
            (before ++ [(some name, document)]) ++ rest := by simp
        rw [found]
        simp only [List.forall_mem_cons, first, true_and]
        rw [moved] at distinct ⊢
        refine Except.bind_eq_ok_iff.trans ⟨?_, ?_⟩
        · rintro ⟨next, read, done⟩
          exact (ih _ distinct ((ok next).mp read)).mp done
        · rintro ⟨others, last⟩
          obtain ⟨next, read⟩ := holds_prefix last
          exact ⟨next, (ok next).mpr read, (ih _ distinct read).mpr ⟨others, last⟩⟩
      · rw [fill?_eq_none known]
        simp only [if_true, reduceCtorEq, false_iff, not_and]
        intro each
        obtain ⟨column, column_mem, named⟩ := each _ List.mem_cons_self
        exact absurd (List.mem_map.mpr ⟨column, column_mem, (Option.some.inj named).symm⟩) known

end Slots

/-- A column has the value of its member, or what it has by default if there is none. -/
def Column.Reads (members : Members) (column : Column) (value : column.Carrier) : Prop :=
  match members.lookup (some column.name) with
  | some document => column.codec.read document = .ok value
  | none => column.absent = some value

theorem Column.reads_iff_mem {members : Members} (distinct : (members.map (·.1)).Nodup)
    {column : Column} {value : column.Carrier} :
    column.Reads members value ↔
      (∀ document, (some column.name, document) ∈ members →
        column.codec.read document = .ok value) ∧
        (some column.name ∉ members.map (·.1) → column.absent = some value) := by
  unfold Reads
  cases found : members.lookup (some column.name) with
  | none =>
    have absent := lookup_eq_none_iff_not_mem.mp found
    constructor
    · intro default
      refine ⟨fun document document_mem => ?_, fun _ => default⟩
      exact absurd (List.mem_map.mpr ⟨_, document_mem, rfl⟩) absent
    · rintro ⟨_, default⟩
      exact default absent
  | some document =>
    have document_mem := (lookup_eq_some_iff_mem distinct).mp found
    constructor
    · intro read
      refine ⟨fun other also => ?_,
        fun absent => absurd (List.mem_map.mpr ⟨_, document_mem, rfl⟩) absent⟩
      rw [← lookup_eq_some_iff_mem distinct, found] at also
      exact Option.some.inj also ▸ read
    · rintro ⟨read, _⟩
      exact read document document_mem

namespace Row

def Reads (members : Members) : (columns : List Column) → Row columns → Prop
  | [], _ => True
  | column :: rest, (value, row) => column.Reads members value ∧ Reads members rest row

theorem reads_congr {first second : Members} {columns : List Column}
    (same : ∀ column ∈ columns, first.lookup (some column.name) = second.lookup (some column.name))
    (row : Row columns) : Reads first columns row ↔ Reads second columns row := by
  induction columns with
  | nil => exact Iff.rfl
  | cons column rest ih =>
    obtain ⟨here, there⟩ := List.forall_mem_cons.mp same
    exact and_congr (by rw [Column.Reads, Column.Reads, here]) (ih there row.2)

/-- A member counts for nothing where no column has its name. -/
theorem reads_cons {name : String} {columns : List Column} (absent : name ∉ columns.map Column.name)
    {members : Members} (document : Document) (row : Row columns) :
    Reads ((some name, document) :: members) columns row ↔ Reads members columns row := by
  apply reads_congr
  intro other other_mem
  have apart : other.name ≠ name := fun same => absent (same ▸ List.mem_map_of_mem other_mem)
  have test : (some other.name == some name) = false := by simpa using apart
  rw [List.lookup_cons, test]

theorem exists_reads {members : Members} {columns : List Column}
    (each : ∀ column ∈ columns, ∃ value, column.Reads members value) :
    ∃ row, Reads members columns row := by
  induction columns with
  | nil => exact ⟨(), trivial⟩
  | cons column rest ih =>
    obtain ⟨value, here⟩ := each column List.mem_cons_self
    obtain ⟨row, there⟩ := ih fun other other_mem => each other (List.mem_cons_of_mem _ other_mem)
    exact ⟨(value, row), here, there⟩

private theorem finish_cons_ok_iff {column : Column} {rest : List Column}
    {slot : Option column.Carrier} {slots : Slots rest} {value : column.Carrier} {row : Row rest} :
    Slots.finish (column :: rest) (slot, slots) = .ok (value, row) ↔
      slot.or column.absent = some value ∧ Slots.finish rest slots = .ok row := by
  rw [Slots.finish]
  cases held : slot.or column.absent with
  | none => simp [bind, Except.bind]
  | some kept =>
    refine Except.bind_eq_ok_iff.trans ⟨?_, ?_⟩
    · rintro ⟨first, same, done⟩
      cases same
      obtain ⟨last, later, equal⟩ := Except.bind_eq_ok_iff.mp done
      cases equal
      exact ⟨rfl, later⟩
    · rintro ⟨same, later⟩
      cases same
      exact ⟨_, rfl, Except.bind_eq_ok_iff.mpr ⟨row, later, rfl⟩⟩

theorem finish_ok_iff {members : Members} {columns : List Column} {slots : Slots columns}
    (holds : Slots.Holds members columns slots) (row : Row columns) :
    Slots.finish columns slots = .ok row ↔ Reads members columns row := by
  induction columns with
  | nil => exact ⟨fun _ => trivial, fun _ => rfl⟩
  | cons column rest ih =>
    obtain ⟨slot, slots⟩ := slots
    obtain ⟨value, row⟩ := row
    obtain ⟨here, there⟩ := holds
    refine finish_cons_ok_iff.trans (and_congr ?_ (ih there row))
    unfold Column.Holds at here
    unfold Column.Reads
    cases found : members.lookup (some column.name) with
    | none =>
      simp only [found] at here
      rw [here, Option.none_or]
    | some document =>
      simp only [found] at here
      obtain ⟨kept, read, rfl⟩ := here
      simp [read]

theorem exists_holds {members : Members} {columns : List Column} {row : Row columns}
    (reads : Reads members columns row) : ∃ slots, Slots.Holds members columns slots := by
  induction columns with
  | nil => exact ⟨(), trivial⟩
  | cons column rest ih =>
    obtain ⟨here, there⟩ := reads
    obtain ⟨slots, later⟩ := ih there
    unfold Column.Reads at here
    cases found : members.lookup (some column.name) with
    | none => exact ⟨(none, slots), by simp [Column.Holds, found], later⟩
    | some document =>
      simp only [found] at here
      exact ⟨(some row.1, slots), by simp [Column.Holds, found, here], later⟩

theorem ofMembers_ok_iff {columns : List Column} (columnsDistinct : (columns.map Column.name).Nodup)
    {members : Members} (distinct : (members.map (·.1)).Nodup) (row : Row columns) :
    ofMembers true columns members = .ok row ↔
      (∀ member ∈ members, ∃ column ∈ columns, member.1 = some column.name) ∧
        Reads members columns row := by
  have filledAll := Slots.fillAll_ok_iff columnsDistinct [] distinct (Slots.holds_empty columns)
  refine Except.bind_eq_ok_iff.trans ⟨?_, ?_⟩
  · rintro ⟨slots, read, done⟩
    obtain ⟨named, holds⟩ := (filledAll slots).mp read
    exact ⟨named, (finish_ok_iff holds row).mp done⟩
  · rintro ⟨named, reads⟩
    obtain ⟨slots, holds⟩ := exists_holds reads
    exact ⟨slots, (filledAll slots).mpr ⟨named, holds⟩, (finish_ok_iff holds row).mpr reads⟩

theorem ofMembers_of_reads (strict : Bool) {columns : List Column}
    (columnsDistinct : (columns.map Column.name).Nodup) {members : Members}
    (distinct : (members.map (·.1)).Nodup) {row : Row columns}
    (known : ∀ member ∈ members, ∃ column ∈ columns, member.1 = some column.name)
    (reads : Reads members columns row) : ofMembers strict columns members = .ok row := by
  rw [ofMembers, Slots.fillAll_known strict known]
  exact (ofMembers_ok_iff columnsDistinct distinct row).mpr ⟨known, reads⟩

theorem reads_of_ofMembers {columns : List Column}
    (columnsDistinct : (columns.map Column.name).Nodup) {members : Members} {row : Row columns}
    (read : ofMembers true columns members = .ok row) : Reads members columns row := by
  obtain ⟨slots, filledAll, _⟩ := Except.bind_eq_ok_iff.mp read
  have distinct : (members.map (·.1)).Nodup :=
    Slots.nodup_of_fillAll_ok columnsDistinct [] .nil (Slots.holds_empty columns) filledAll
  exact ((ofMembers_ok_iff columnsDistinct distinct row).mp read).2

/-- An array of values is read like an object that has them under the names of the columns. -/
theorem reads_of_ofItems {columns : List Column}
    (columnsDistinct : (columns.map Column.name).Nodup) {items : List Document}
    {row : Row columns} (read : ofItems columns items = .ok row) :
    Reads (((columns.map Column.name).map some).zip items) columns row := by
  induction columns generalizing items with
  | nil => trivial
  | cons column rest ih =>
    obtain ⟨value, row⟩ := row
    obtain ⟨absent, others⟩ := List.nodup_cons.mp columnsDistinct
    cases items with
    | nil =>
      rw [ofItems] at read
      split at read
      · rename_i held
        obtain ⟨row', later, same⟩ := Except.bind_eq_ok_iff.mp read
        cases same
        have further := ih others later
        rw [List.zip_nil_right] at further
        exact ⟨held, further⟩
      · cases read
    | cons item items =>
      obtain ⟨value', first, read⟩ := Except.bind_eq_ok_iff.mp read
      obtain ⟨row', later, same⟩ := Except.bind_eq_ok_iff.mp read
      cases same
      refine ⟨?_, (reads_cons absent item row).mpr (ih others later)⟩
      simpa [Column.Reads] using first

end Row

end StatsRelay
