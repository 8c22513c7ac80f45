import StatsRelay.Schema.Label

/-! The codes that stats records report, each type with its labels. The first value of a type stands
for a code that is not reported. -/
namespace StatsRelay.Stats

/-- How a measured operation ended. -/
inductive ResultCode
  | ok
  | unknownError
  | internalError
  | invalidArgument
  | ioError
  | outOfSpace
  | notFound
  | invalidSchema
  | securityError
deriving DecidableEq, Inhabited, Repr

instance : Labelled ResultCode where
  all := [.ok, .unknownError, .internalError, .invalidArgument, .ioError, .outOfSpace, .notFound,
    .invalidSchema, .securityError]
  label
    | .ok => "ok"
    | .unknownError => "unknown_error"
    | .internalError => "internal_error"
    | .invalidArgument => "invalid_argument"
    | .ioError => "io_error"
    | .outOfSpace => "out_of_space"
    | .notFound => "not_found"
    | .invalidSchema => "invalid_schema"
    | .securityError => "security_error"

/-- The call that was measured. -/
inductive CallType
  | unknown
  | initialization
  | setSchema
  | putDocuments
  | getDocuments
  | removeDocumentsById
  | putDocument
  | getDocument
  | removeDocumentById
  | search
  | optimize
  | flush
  | globalSearch
  | removeDocumentsBySearch
deriving DecidableEq, Inhabited, Repr

instance : Labelled CallType where
  all := [.unknown, .initialization, .setSchema, .putDocuments, .getDocuments,
    .removeDocumentsById, .putDocument, .getDocument, .removeDocumentById, .search, .optimize,
    .flush, .globalSearch, .removeDocumentsBySearch]
  label
    | .unknown => "unknown"
    | .initialization => "initialize"
    | .setSchema => "set_schema"
    | .putDocuments => "put_documents"
    | .getDocuments => "get_documents"
    | .removeDocumentsById => "remove_documents_by_id"
    | .putDocument => "put_document"
    | .getDocument => "get_document"
    | .removeDocumentById => "remove_document_by_id"
    | .search => "search"
    | .optimize => "optimize"
    | .flush => "flush"
    | .globalSearch => "global_search"
    | .removeDocumentsBySearch => "remove_documents_by_search"

/-- Why a part of the storage had to be recovered. -/
inductive RecoveryCause
  | none
  | dataLoss
  | inconsistentWithGroundTruth
  | totalChecksumMismatch
  | ioError
  | schemaChangesOutOfSync
deriving DecidableEq, Inhabited, Repr

instance : Labelled RecoveryCause where
  all := [.none, .dataLoss, .inconsistentWithGroundTruth, .totalChecksumMismatch, .ioError,
    .schemaChangesOutOfSync]
  label
    | .none => "none"
    | .dataLoss => "data_loss"
    | .inconsistentWithGroundTruth => "inconsistent_with_ground_truth"
    | .totalChecksumMismatch => "total_checksum_mismatch"
    | .ioError => "io_error"
    | .schemaChangesOutOfSync => "schema_changes_out_of_sync"

/-- How much of the document store was lost. -/
inductive DataStatus
  | noLoss
  | partialLoss
  | completeLoss
deriving DecidableEq, Inhabited, Repr

instance : Labelled DataStatus where
  all := [.noLoss, .partialLoss, .completeLoss]
  label
    | .noLoss => "no_data_loss"
    | .partialLoss => "partial_loss"
    | .completeLoss => "complete_loss"

/-- The databases that a query can see. -/
inductive VisibilityScope
  | unknown
  | own
  | everywhere
deriving DecidableEq, Inhabited, Repr

instance : Labelled VisibilityScope where
  all := [.unknown, .own, .everywhere]
  label
    | .unknown => "unknown"
    | .own => "local"
    | .everywhere => "global"

/-- What a query orders its results by. -/
inductive RankingStrategy
  | none
  | documentScore
  | creationTimestamp
  | relevanceScore
  | usageCount
  | usageLastUsedTimestamp
deriving DecidableEq, Inhabited, Repr

instance : Labelled RankingStrategy where
  all := [.none, .documentScore, .creationTimestamp, .relevanceScore, .usageCount,
    .usageLastUsedTimestamp]
  label
    | .none => "none"
    | .documentScore => "document_score"
    | .creationTimestamp => "creation_timestamp"
    | .relevanceScore => "relevance_score"
    | .usageCount => "usage_count"
    | .usageLastUsedTimestamp => "usage_last_used_timestamp"

/-- How the documents to remove were chosen. -/
inductive DeleteType
  | unknown
  | byId
  | byQuery
  | wholeNamespace
  | schemaType
deriving DecidableEq, Inhabited, Repr

instance : Labelled DeleteType where
  all := [.unknown, .byId, .byQuery, .wholeNamespace, .schemaType]
  label
    | .unknown => "unknown"
    | .byId => "id"
    | .byQuery => "query"
    | .wholeNamespace => "namespace"
    | .schemaType => "schema_type"

def ResultCode.isOk (code : ResultCode) : Bool := code = .ok

end StatsRelay.Stats
