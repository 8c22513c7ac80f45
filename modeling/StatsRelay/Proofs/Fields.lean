import StatsRelay.Proofs.Rows
import StatsRelay.Stats.Record

/-! The fields of the payloads: the name of each, the type of its values and where a payload keeps
it. The tables by which payloads are read and written have these fields as their columns. -/
namespace StatsRelay

/-- Types whose labels tell all their values apart. -/
class LawfulLabelled (α : Type) [Labelled α] : Prop where
  ofLabel?_label : ∀ value : α, Labelled.ofLabel? (label value) = some value

theorem Labelled.label_of_ofLabel? {α : Type} [Labelled α] {text : String} {value : α}
    (found : ofLabel? text = some value) : label value = text := by
  simpa using List.find?_some found

/-- A value has one label, and no other value has it. -/
theorem Labelled.ofLabel?_eq_some_iff {α : Type} [Labelled α] [LawfulLabelled α] {text : String}
    {value : α} : ofLabel? text = some value ↔ text = label value := by
  constructor
  · intro found
    exact (label_of_ofLabel? found).symm
  · rintro rfl
    exact LawfulLabelled.ofLabel?_label value

theorem Labelled.label_injective {α : Type} [Labelled α] [LawfulLabelled α] {first second : α}
    (same : label first = label second) : first = second := by
  have found := LawfulLabelled.ofLabel?_label second
  rw [← same, LawfulLabelled.ofLabel?_label] at found
  exact Option.some.inj found

theorem Labelled.read_ok_iff {α : Type} [Labelled α] [LawfulLabelled α] {text : String}
    {value : α} : read text = (.ok value : Except Fault α) ↔ text = label value := by
  rw [← ofLabel?_eq_some_iff]
  unfold read
  cases (ofLabel? text : Option α) <;> simp

namespace Stats

open StatsRelay.Json (Value)

instance : LawfulLabelled Kind := ⟨by intro value; cases value <;> rfl⟩
instance : LawfulLabelled ResultCode := ⟨by intro value; cases value <;> rfl⟩
instance : LawfulLabelled CallType := ⟨by intro value; cases value <;> rfl⟩
instance : LawfulLabelled RecoveryCause := ⟨by intro value; cases value <;> rfl⟩
instance : LawfulLabelled DataStatus := ⟨by intro value; cases value <;> rfl⟩
instance : LawfulLabelled VisibilityScope := ⟨by intro value; cases value <;> rfl⟩
instance : LawfulLabelled RankingStrategy := ⟨by intro value; cases value <;> rfl⟩
instance : LawfulLabelled DeleteType := ⟨by intro value; cases value <;> rfl⟩

/-- The five types of fields. A code comes with the one that stands for no report. -/
inductive FieldSort : Type → Type 1
  | text : FieldSort String
  | flag : FieldSort Bool
  | count : FieldSort UInt32
  | amount : FieldSort UInt64
  | code {α : Type} [Labelled α] [LawfulLabelled α] (zero : α) : FieldSort α

namespace FieldSort

variable {α : Type}

def spelling : FieldSort α → α → Value
  | text, held => .string held
  | flag, held => .bool held
  | count, held => .number (.integer held.toNat)
  | amount, held => .number (.integer held.toNat)
  | code _, held => .string (label held)

def zero : FieldSort α → α
  | text => ""
  | flag => false
  | count => 0
  | amount => 0
  | code zero => zero

def IsCode : FieldSort α → Prop
  | code _ => True
  | _ => False

def codec : FieldSort α → Codec α
  | text => .text
  | flag => .bool
  | count => .uint32
  | amount => .uint64
  | code _ => Labelled.wholeCodec

end FieldSort

structure Field (payload : Type) where
  name : String
  Carrier : Type
  sort : FieldSort Carrier
  get : payload → Carrier

abbrev field {payload α : Type} (name : String) (sort : FieldSort α) (get : payload → α) :
    Field payload := ⟨name, α, sort, get⟩

def CallStats.fields : List (Field CallStats) :=
  [field "packageName" .text (·.packageName), field "database" .text (·.database),
    field "statusCode" (.code ResultCode.ok) (·.statusCode),
    field "totalLatencyMillis" .amount (·.totalLatencyMillis),
    field "callType" (.code CallType.unknown) (·.callType),
    field "estimatedBinderLatencyMillis" .amount (·.estimatedBinderLatencyMillis),
    field "numOperationsSucceeded" .count (·.numOperationsSucceeded),
    field "numOperationsFailed" .count (·.numOperationsFailed)]

def PutDocumentStats.fields : List (Field PutDocumentStats) :=
  [field "packageName" .text (·.packageName), field "database" .text (·.database),
    field "statusCode" (.code ResultCode.ok) (·.statusCode),
    field "totalLatencyMillis" .amount (·.totalLatencyMillis),
    field "generateDocumentProtoLatencyMillis" .amount (·.generateDocumentProtoLatencyMillis),
    field "rewriteDocumentTypesLatencyMillis" .amount (·.rewriteDocumentTypesLatencyMillis),
    field "nativeLatencyMillis" .amount (·.nativeLatencyMillis),
    field "nativeDocumentStoreLatencyMillis" .amount (·.nativeDocumentStoreLatencyMillis),
    field "nativeIndexLatencyMillis" .amount (·.nativeIndexLatencyMillis),
    field "nativeIndexMergeLatencyMillis" .amount (·.nativeIndexMergeLatencyMillis),
    field "nativeDocumentSizeBytes" .amount (·.nativeDocumentSizeBytes),
    field "nativeNumTokensIndexed" .count (·.nativeNumTokensIndexed),
    field "nativeExceededMaxNumTokens" .flag (·.nativeExceededMaxNumTokens)]

def InitializationStats.fields : List (Field InitializationStats) :=
  [field "statusCode" (.code ResultCode.ok) (·.statusCode),
    field "totalLatencyMillis" .amount (·.totalLatencyMillis),
    field "hasDeSync" .flag (·.hasDeSync),
    field "prepareSchemaAndNamespacesLatencyMillis" .amount
      (·.prepareSchemaAndNamespacesLatencyMillis),
    field "prepareVisibilityStoreLatencyMillis" .amount (·.prepareVisibilityStoreLatencyMillis),
    field "nativeLatencyMillis" .amount (·.nativeLatencyMillis),
    field "documentStoreRecoveryCause" (.code RecoveryCause.none) (·.documentStoreRecoveryCause),
    field "indexRestorationCause" (.code RecoveryCause.none) (·.indexRestorationCause),
    field "schemaStoreRecoveryCause" (.code RecoveryCause.none) (·.schemaStoreRecoveryCause),
    field "documentStoreRecoveryLatencyMillis" .amount (·.documentStoreRecoveryLatencyMillis),
    field "indexRestorationLatencyMillis" .amount (·.indexRestorationLatencyMillis),
    field "schemaStoreRecoveryLatencyMillis" .amount (·.schemaStoreRecoveryLatencyMillis),
    field "documentStoreDataStatus" (.code DataStatus.noLoss) (·.documentStoreDataStatus),
    field "numDocuments" .count (·.numDocuments), field "numSchemaTypes" .count (·.numSchemaTypes),
    field "hasReset" .flag (·.hasReset),
    field "resetStatusCode" (.code ResultCode.ok) (·.resetStatusCode)]

def SearchStats.fields : List (Field SearchStats) :=
  [field "packageName" .text (·.packageName), field "database" .text (·.database),
    field "statusCode" (.code ResultCode.ok) (·.statusCode),
    field "totalLatencyMillis" .amount (·.totalLatencyMillis),
    field "visibilityScope" (.code VisibilityScope.unknown) (·.visibilityScope),
    field "nativeLatencyMillis" .amount (·.nativeLatencyMillis),
    field "termCount" .count (·.termCount), field "queryLength" .count (·.queryLength),
    field "filteredNamespaceCount" .count (·.filteredNamespaceCount),
    field "filteredSchemaTypeCount" .count (·.filteredSchemaTypeCount),
    field "requestedPageSize" .count (·.requestedPageSize),
    field "currentPageReturnedResultCount" .count (·.currentPageReturnedResultCount),
    field "isFirstPage" .flag (·.isFirstPage),
    field "rankingStrategy" (.code RankingStrategy.none) (·.rankingStrategy),
    field "scoredDocumentCount" .count (·.scoredDocumentCount),
    field "scoringLatencyMillis" .amount (·.scoringLatencyMillis),
    field "rankingLatencyMillis" .amount (·.rankingLatencyMillis),
    field "documentRetrievingLatencyMillis" .amount (·.documentRetrievingLatencyMillis),
    field "resultWithSnippetsCount" .count (·.resultWithSnippetsCount)]

def RemoveStats.fields : List (Field RemoveStats) :=
  [field "packageName" .text (·.packageName), field "database" .text (·.database),
    field "statusCode" (.code ResultCode.ok) (·.statusCode),
    field "totalLatencyMillis" .amount (·.totalLatencyMillis),
    field "nativeLatencyMillis" .amount (·.nativeLatencyMillis),
    field "deleteType" (.code DeleteType.unknown) (·.deleteType),
    field "deletedDocumentCount" .count (·.deletedDocumentCount)]

def OptimizeStats.fields : List (Field OptimizeStats) :=
  [field "statusCode" (.code ResultCode.ok) (·.statusCode),
    field "totalLatencyMillis" .amount (·.totalLatencyMillis),
    field "nativeLatencyMillis" .amount (·.nativeLatencyMillis),
    field "documentStoreOptimizeLatencyMillis" .amount (·.documentStoreOptimizeLatencyMillis),
    field "indexRestorationLatencyMillis" .amount (·.indexRestorationLatencyMillis),
    field "originalDocumentCount" .count (·.originalDocumentCount),
    field "deletedDocumentCount" .count (·.deletedDocumentCount),
    field "expiredDocumentCount" .count (·.expiredDocumentCount),
    field "storageSizeBeforeBytes" .amount (·.storageSizeBeforeBytes),
    field "storageSizeAfterBytes" .amount (·.storageSizeAfterBytes),
    field "timeSinceLastOptimizeMillis" .amount (·.timeSinceLastOptimizeMillis)]

def SetSchemaStats.fields : List (Field SetSchemaStats) :=
  [field "packageName" .text (·.packageName), field "database" .text (·.database),
    field "statusCode" (.code ResultCode.ok) (·.statusCode),
    field "totalLatencyMillis" .amount (·.totalLatencyMillis),
    field "newTypeCount" .count (·.newTypeCount),
    field "compatibleTypeChangeCount" .count (·.compatibleTypeChangeCount),
    field "indexIncompatibleTypeChangeCount" .count (·.indexIncompatibleTypeChangeCount),
    field "backwardsIncompatibleTypeChangeCount" .count (·.backwardsIncompatibleTypeChangeCount),
    field "deletedTypeCount" .count (·.deletedTypeCount),
    field "migratedDocumentCount" .count (·.migratedDocumentCount)]

def Kind.fields : (kind : Kind) → List (Field kind.Payload)
  | call => CallStats.fields
  | putDocument => PutDocumentStats.fields
  | initialization => InitializationStats.fields
  | search => SearchStats.fields
  | remove => RemoveStats.fields
  | optimize => OptimizeStats.fields
  | setSchema => SetSchemaStats.fields

namespace Field

variable {payload : Type}

abbrev column (field : Field payload) : Column :=
  .withDefault field.name field.sort.codec field.sort.zero

def row (held : payload) : (fields : List (Field payload)) → Row (fields.map column)
  | [] => ()
  | field :: rest => (field.get held, row held rest)

theorem reads_row (members : Members) (held : payload) (fields : List (Field payload)) :
    Row.Reads members (fields.map column) (row held fields) ↔
      ∀ field ∈ fields, field.column.Reads members (field.get held) := by
  induction fields with
  | nil => exact ⟨fun _ => List.forall_mem_nil _, fun _ => trivial⟩
  | cons field rest ih =>
    rw [List.forall_mem_cons, ← ih]
    exact Iff.rfl

end Field

namespace Kind

/-- The columns of a kind are those of its fields, which is what all that follows relies on. -/
theorem columns_eq (kind : Kind) : kind.table.columns = kind.fields.map Field.column := by
  cases kind <;> rfl

theorem strict (kind : Kind) : kind.table.strict = true := by cases kind <;> rfl

theorem names_distinct (kind : Kind) : (kind.table.columns.map Column.name).Nodup := by
  cases kind <;> decide

theorem fields_distinct (kind : Kind) : (kind.fields.map Field.name).Nodup := by
  cases kind <;> decide

theorem kindName_not_mem (kind : Kind) : Record.kindName ∉ kind.table.columns.map Column.name := by
  cases kind <;> decide

theorem toRow_ofRow (kind : Kind) (row : Row kind.table.columns) :
    kind.table.toRow (kind.table.ofRow row) = row := by
  cases kind <;> rfl

theorem ofRow_toRow (kind : Kind) (payload : kind.Payload) :
    kind.table.ofRow (kind.table.toRow payload) = payload := by
  cases kind <;> rfl

/-- Members say a payload just if they say each of its fields. -/
theorem reads_iff (kind : Kind) (members : Members) (payload : kind.Payload) :
    Row.Reads members kind.table.columns (kind.table.toRow payload) ↔
      ∀ field ∈ kind.fields, field.column.Reads members (field.get payload) := by
  cases kind with
  | call => exact Field.reads_row members payload CallStats.fields
  | putDocument => exact Field.reads_row members payload PutDocumentStats.fields
  | initialization => exact Field.reads_row members payload InitializationStats.fields
  | search => exact Field.reads_row members payload SearchStats.fields
  | remove => exact Field.reads_row members payload RemoveStats.fields
  | optimize => exact Field.reads_row members payload OptimizeStats.fields
  | setSchema => exact Field.reads_row members payload SetSchemaStats.fields

end Kind

end Stats

end StatsRelay
