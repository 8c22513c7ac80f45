import StatsRelay.Schema.Label
import StatsRelay.Schema.Table
import StatsRelay.Stats.Code

/-! The payloads of stats records. Every field may be left out and is then zero, false, empty or the
first of its codes; a member that is no field is refused. Times are in milliseconds. -/
namespace StatsRelay.Stats

/-- The types of fields. -/
class FieldType (α : Type) where
  codec : Codec α
  /-- The value of a field that is left out. -/
  zero : α

instance : FieldType String := ⟨.text, ""⟩
instance : FieldType Bool := ⟨.bool, false⟩
instance : FieldType UInt32 := ⟨.uint32, 0⟩
instance : FieldType UInt64 := ⟨.uint64, 0⟩
instance {α : Type} [Labelled α] [Inhabited α] : FieldType α := ⟨Labelled.wholeCodec, default⟩

abbrev FieldType.column (name : String) (α : Type) [FieldType α] : Column :=
  .withDefault name (FieldType.codec : Codec α) FieldType.zero

open FieldType (column)

/-- A single call, measured at the boundary of the interface. -/
structure CallStats where
  packageName : String
  database : String
  statusCode : ResultCode
  totalLatencyMillis : UInt64
  callType : CallType
  estimatedBinderLatencyMillis : UInt64
  numOperationsSucceeded : UInt32
  numOperationsFailed : UInt32
deriving DecidableEq, Inhabited, Repr

def CallStats.table : Table CallStats where
  columns := [column "packageName" String, column "database" String,
    column "statusCode" ResultCode, column "totalLatencyMillis" UInt64, column "callType" CallType,
    column "estimatedBinderLatencyMillis" UInt64, column "numOperationsSucceeded" UInt32,
    column "numOperationsFailed" UInt32]
  strict := true
  ofRow
    | (packageName, database, statusCode, totalLatencyMillis, callType,
      estimatedBinderLatencyMillis, numOperationsSucceeded, numOperationsFailed, ()) =>
      { packageName, database, statusCode, totalLatencyMillis, callType,
        estimatedBinderLatencyMillis, numOperationsSucceeded, numOperationsFailed }
  toRow stats := (stats.packageName, stats.database, stats.statusCode, stats.totalLatencyMillis,
    stats.callType, stats.estimatedBinderLatencyMillis, stats.numOperationsSucceeded,
    stats.numOperationsFailed, ())

/-- Storing one document. -/
structure PutDocumentStats where
  packageName : String
  database : String
  statusCode : ResultCode
  totalLatencyMillis : UInt64
  generateDocumentProtoLatencyMillis : UInt64
  rewriteDocumentTypesLatencyMillis : UInt64
  nativeLatencyMillis : UInt64
  nativeDocumentStoreLatencyMillis : UInt64
  nativeIndexLatencyMillis : UInt64
  nativeIndexMergeLatencyMillis : UInt64
  nativeDocumentSizeBytes : UInt64
  nativeNumTokensIndexed : UInt32
  nativeExceededMaxNumTokens : Bool
deriving DecidableEq, Inhabited, Repr

def PutDocumentStats.table : Table PutDocumentStats where
  columns := [column "packageName" String, column "database" String,
    column "statusCode" ResultCode, column "totalLatencyMillis" UInt64,
    column "generateDocumentProtoLatencyMillis" UInt64,
    column "rewriteDocumentTypesLatencyMillis" UInt64, column "nativeLatencyMillis" UInt64,
    column "nativeDocumentStoreLatencyMillis" UInt64, column "nativeIndexLatencyMillis" UInt64,
    column "nativeIndexMergeLatencyMillis" UInt64, column "nativeDocumentSizeBytes" UInt64,
    column "nativeNumTokensIndexed" UInt32, column "nativeExceededMaxNumTokens" Bool]
  strict := true
  ofRow
    | (packageName, database, statusCode, totalLatencyMillis, generateDocumentProtoLatencyMillis,
      rewriteDocumentTypesLatencyMillis, nativeLatencyMillis, nativeDocumentStoreLatencyMillis,
      nativeIndexLatencyMillis, nativeIndexMergeLatencyMillis, nativeDocumentSizeBytes,
      nativeNumTokensIndexed, nativeExceededMaxNumTokens, ()) =>
      { packageName, database, statusCode, totalLatencyMillis, generateDocumentProtoLatencyMillis,
        rewriteDocumentTypesLatencyMillis, nativeLatencyMillis, nativeDocumentStoreLatencyMillis,
        nativeIndexLatencyMillis, nativeIndexMergeLatencyMillis, nativeDocumentSizeBytes,
        nativeNumTokensIndexed, nativeExceededMaxNumTokens }
  toRow stats := (stats.packageName, stats.database, stats.statusCode, stats.totalLatencyMillis,
    stats.generateDocumentProtoLatencyMillis, stats.rewriteDocumentTypesLatencyMillis,
    stats.nativeLatencyMillis, stats.nativeDocumentStoreLatencyMillis,
    stats.nativeIndexLatencyMillis, stats.nativeIndexMergeLatencyMillis,
    stats.nativeDocumentSizeBytes, stats.nativeNumTokensIndexed, stats.nativeExceededMaxNumTokens,
    ())

/-- Preparing the storage for use. -/
structure InitializationStats where
  statusCode : ResultCode
  totalLatencyMillis : UInt64
  hasDeSync : Bool
  prepareSchemaAndNamespacesLatencyMillis : UInt64
  prepareVisibilityStoreLatencyMillis : UInt64
  nativeLatencyMillis : UInt64
  documentStoreRecoveryCause : RecoveryCause
  indexRestorationCause : RecoveryCause
  schemaStoreRecoveryCause : RecoveryCause
  documentStoreRecoveryLatencyMillis : UInt64
  indexRestorationLatencyMillis : UInt64
  schemaStoreRecoveryLatencyMillis : UInt64
  documentStoreDataStatus : DataStatus
  numDocuments : UInt32
  numSchemaTypes : UInt32
  hasReset : Bool
  resetStatusCode : ResultCode
deriving DecidableEq, Inhabited, Repr

def InitializationStats.table : Table InitializationStats where
  columns := [column "statusCode" ResultCode, column "totalLatencyMillis" UInt64,
    column "hasDeSync" Bool, column "prepareSchemaAndNamespacesLatencyMillis" UInt64,
    column "prepareVisibilityStoreLatencyMillis" UInt64, column "nativeLatencyMillis" UInt64,
    column "documentStoreRecoveryCause" RecoveryCause,
    column "indexRestorationCause" RecoveryCause, column "schemaStoreRecoveryCause" RecoveryCause,
    column "documentStoreRecoveryLatencyMillis" UInt64,
    column "indexRestorationLatencyMillis" UInt64,
    column "schemaStoreRecoveryLatencyMillis" UInt64, column "documentStoreDataStatus" DataStatus,
    column "numDocuments" UInt32, column "numSchemaTypes" UInt32, column "hasReset" Bool,
    column "resetStatusCode" ResultCode]
  strict := true
  ofRow
    | (statusCode, totalLatencyMillis, hasDeSync, prepareSchemaAndNamespacesLatencyMillis,
      prepareVisibilityStoreLatencyMillis, nativeLatencyMillis, documentStoreRecoveryCause,
      indexRestorationCause, schemaStoreRecoveryCause, documentStoreRecoveryLatencyMillis,
      indexRestorationLatencyMillis, schemaStoreRecoveryLatencyMillis, documentStoreDataStatus,
      numDocuments, numSchemaTypes, hasReset, resetStatusCode, ()) =>
      { statusCode, totalLatencyMillis, hasDeSync, prepareSchemaAndNamespacesLatencyMillis,
        prepareVisibilityStoreLatencyMillis, nativeLatencyMillis, documentStoreRecoveryCause,
        indexRestorationCause, schemaStoreRecoveryCause, documentStoreRecoveryLatencyMillis,
        indexRestorationLatencyMillis, schemaStoreRecoveryLatencyMillis, documentStoreDataStatus,
        numDocuments, numSchemaTypes, hasReset, resetStatusCode }
  toRow stats := (stats.statusCode, stats.totalLatencyMillis, stats.hasDeSync,
    stats.prepareSchemaAndNamespacesLatencyMillis, stats.prepareVisibilityStoreLatencyMillis,
    stats.nativeLatencyMillis, stats.documentStoreRecoveryCause, stats.indexRestorationCause,
    stats.schemaStoreRecoveryCause, stats.documentStoreRecoveryLatencyMillis,
    stats.indexRestorationLatencyMillis, stats.schemaStoreRecoveryLatencyMillis,
    stats.documentStoreDataStatus, stats.numDocuments, stats.numSchemaTypes, stats.hasReset,
    stats.resetStatusCode, ())

/-- Answering a query. -/
structure SearchStats where
  packageName : String
  database : String
  statusCode : ResultCode
  totalLatencyMillis : UInt64
  visibilityScope : VisibilityScope
  nativeLatencyMillis : UInt64
  termCount : UInt32
  queryLength : UInt32
  filteredNamespaceCount : UInt32
  filteredSchemaTypeCount : UInt32
  requestedPageSize : UInt32
  currentPageReturnedResultCount : UInt32
  isFirstPage : Bool
  rankingStrategy : RankingStrategy
  scoredDocumentCount : UInt32
  scoringLatencyMillis : UInt64
  rankingLatencyMillis : UInt64
  documentRetrievingLatencyMillis : UInt64
  resultWithSnippetsCount : UInt32
deriving DecidableEq, Inhabited, Repr

def SearchStats.table : Table SearchStats where
  columns := [column "packageName" String, column "database" String,
    column "statusCode" ResultCode, column "totalLatencyMillis" UInt64,
    column "visibilityScope" VisibilityScope, column "nativeLatencyMillis" UInt64,
    column "termCount" UInt32, column "queryLength" UInt32, column "filteredNamespaceCount" UInt32,
    column "filteredSchemaTypeCount" UInt32, column "requestedPageSize" UInt32,
    column "currentPageReturnedResultCount" UInt32, column "isFirstPage" Bool,
    column "rankingStrategy" RankingStrategy, column "scoredDocumentCount" UInt32,
    column "scoringLatencyMillis" UInt64, column "rankingLatencyMillis" UInt64,
    column "documentRetrievingLatencyMillis" UInt64, column "resultWithSnippetsCount" UInt32]
  strict := true
  ofRow
    | (packageName, database, statusCode, totalLatencyMillis, visibilityScope, nativeLatencyMillis,
      termCount, queryLength, filteredNamespaceCount, filteredSchemaTypeCount, requestedPageSize,
      currentPageReturnedResultCount, isFirstPage, rankingStrategy, scoredDocumentCount,
      scoringLatencyMillis, rankingLatencyMillis, documentRetrievingLatencyMillis,
      resultWithSnippetsCount, ()) =>
      { packageName, database, statusCode, totalLatencyMillis, visibilityScope,
        nativeLatencyMillis, termCount, queryLength, filteredNamespaceCount,
        filteredSchemaTypeCount, requestedPageSize, currentPageReturnedResultCount, isFirstPage,
        rankingStrategy, scoredDocumentCount, scoringLatencyMillis, rankingLatencyMillis,
        documentRetrievingLatencyMillis, resultWithSnippetsCount }
  toRow stats := (stats.packageName, stats.database, stats.statusCode, stats.totalLatencyMillis,
    stats.visibilityScope, stats.nativeLatencyMillis, stats.termCount, stats.queryLength,
    stats.filteredNamespaceCount, stats.filteredSchemaTypeCount, stats.requestedPageSize,
    stats.currentPageReturnedResultCount, stats.isFirstPage, stats.rankingStrategy,
    stats.scoredDocumentCount, stats.scoringLatencyMillis, stats.rankingLatencyMillis,
    stats.documentRetrievingLatencyMillis, stats.resultWithSnippetsCount, ())

/-- Removing documents. -/
structure RemoveStats where
  packageName : String
  database : String
  statusCode : ResultCode
  totalLatencyMillis : UInt64
  nativeLatencyMillis : UInt64
  deleteType : DeleteType
  deletedDocumentCount : UInt32
deriving DecidableEq, Inhabited, Repr

def RemoveStats.table : Table RemoveStats where
  columns := [column "packageName" String, column "database" String,
    column "statusCode" ResultCode, column "totalLatencyMillis" UInt64,
    column "nativeLatencyMillis" UInt64, column "deleteType" DeleteType,
    column "deletedDocumentCount" UInt32]
  strict := true
  ofRow
    | (packageName, database, statusCode, totalLatencyMillis, nativeLatencyMillis, deleteType,
      deletedDocumentCount, ()) =>
      { packageName, database, statusCode, totalLatencyMillis, nativeLatencyMillis, deleteType,
        deletedDocumentCount }
  toRow stats := (stats.packageName, stats.database, stats.statusCode, stats.totalLatencyMillis,
    stats.nativeLatencyMillis, stats.deleteType, stats.deletedDocumentCount, ())

/-- Compacting the storage. -/
structure OptimizeStats where
  statusCode : ResultCode
  totalLatencyMillis : UInt64
  nativeLatencyMillis : UInt64
  documentStoreOptimizeLatencyMillis : UInt64
  indexRestorationLatencyMillis : UInt64
  originalDocumentCount : UInt32
  deletedDocumentCount : UInt32
  expiredDocumentCount : UInt32
  storageSizeBeforeBytes : UInt64
  storageSizeAfterBytes : UInt64
  timeSinceLastOptimizeMillis : UInt64
deriving DecidableEq, Inhabited, Repr

def OptimizeStats.table : Table OptimizeStats where
  columns := [column "statusCode" ResultCode, column "totalLatencyMillis" UInt64,
    column "nativeLatencyMillis" UInt64, column "documentStoreOptimizeLatencyMillis" UInt64,
    column "indexRestorationLatencyMillis" UInt64, column "originalDocumentCount" UInt32,
    column "deletedDocumentCount" UInt32, column "expiredDocumentCount" UInt32,
    column "storageSizeBeforeBytes" UInt64, column "storageSizeAfterBytes" UInt64,
    column "timeSinceLastOptimizeMillis" UInt64]
  strict := true
  ofRow
    | (statusCode, totalLatencyMillis, nativeLatencyMillis, documentStoreOptimizeLatencyMillis,
      indexRestorationLatencyMillis, originalDocumentCount, deletedDocumentCount,
      expiredDocumentCount, storageSizeBeforeBytes, storageSizeAfterBytes,
      timeSinceLastOptimizeMillis, ()) =>
      { statusCode, totalLatencyMillis, nativeLatencyMillis, documentStoreOptimizeLatencyMillis,
        indexRestorationLatencyMillis, originalDocumentCount, deletedDocumentCount,
        expiredDocumentCount, storageSizeBeforeBytes, storageSizeAfterBytes,
        timeSinceLastOptimizeMillis }
  toRow stats := (stats.statusCode, stats.totalLatencyMillis, stats.nativeLatencyMillis,
    stats.documentStoreOptimizeLatencyMillis, stats.indexRestorationLatencyMillis,
    stats.originalDocumentCount, stats.deletedDocumentCount, stats.expiredDocumentCount,
    stats.storageSizeBeforeBytes, stats.storageSizeAfterBytes, stats.timeSinceLastOptimizeMillis,
    ())

/-- Changing the schema. -/
structure SetSchemaStats where
  packageName : String
  database : String
  statusCode : ResultCode
  totalLatencyMillis : UInt64
  newTypeCount : UInt32
  compatibleTypeChangeCount : UInt32
  indexIncompatibleTypeChangeCount : UInt32
  backwardsIncompatibleTypeChangeCount : UInt32
  deletedTypeCount : UInt32
  migratedDocumentCount : UInt32
deriving DecidableEq, Inhabited, Repr

def SetSchemaStats.table : Table SetSchemaStats where
  columns := [column "packageName" String, column "database" String,
    column "statusCode" ResultCode, column "totalLatencyMillis" UInt64,
    column "newTypeCount" UInt32, column "compatibleTypeChangeCount" UInt32,
    column "indexIncompatibleTypeChangeCount" UInt32,
    column "backwardsIncompatibleTypeChangeCount" UInt32, column "deletedTypeCount" UInt32,
    column "migratedDocumentCount" UInt32]
  strict := true
  ofRow
    | (packageName, database, statusCode, totalLatencyMillis, newTypeCount,
      compatibleTypeChangeCount, indexIncompatibleTypeChangeCount,
      backwardsIncompatibleTypeChangeCount, deletedTypeCount, migratedDocumentCount, ()) =>
      { packageName, database, statusCode, totalLatencyMillis, newTypeCount,
        compatibleTypeChangeCount, indexIncompatibleTypeChangeCount,
        backwardsIncompatibleTypeChangeCount, deletedTypeCount, migratedDocumentCount }
  toRow stats := (stats.packageName, stats.database, stats.statusCode, stats.totalLatencyMillis,
    stats.newTypeCount, stats.compatibleTypeChangeCount, stats.indexIncompatibleTypeChangeCount,
    stats.backwardsIncompatibleTypeChangeCount, stats.deletedTypeCount,
    stats.migratedDocumentCount, ())

end StatsRelay.Stats
