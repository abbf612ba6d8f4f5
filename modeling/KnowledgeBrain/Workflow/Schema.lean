import KnowledgeBrain.Foundation.Table

/-!
# The document workflow tables

The rows a document owns in PostgreSQL: its own row, its outbox of durable
jobs, the receipts of finished jobs and the processing spans.  The last three
tables all have the document id as the first column of their primary key, so
the model keeps them together in one `DocumentRecord` per document and
keys each by the rest of its primary key.  Chunks, embeddings and graph rows
have keys of their own and stay global.
-/

namespace KnowledgeBrain
namespace Workflow

open Foundation

abbrev Uuid := Nat

/-- Seconds of the database clock. -/
abbrev Time := Nat

/-!
# Enumerations
-/

inductive ParseStatus where
  | pending
  | processing
  | finalizing
  | completed
  | failed
  | cancelled
  | deleting
  | deleted
deriving DecidableEq

namespace ParseStatus

/-- The statuses `lock_current` accepts. -/
def isWorking : ParseStatus -> Bool
  | pending | processing | finalizing => true
  | _ => false

/-- The statuses `update_status`, `fail_job` and the conversion check accept. -/
def isOpen : ParseStatus -> Bool
  | pending | processing | finalizing | failed => true
  | _ => false

/-- The statuses `record_document_change` calls terminal. -/
def isTerminal : ParseStatus -> Bool
  | cancelled | deleting | deleted => true
  | _ => false

/-- The tombstone statuses. -/
def isTombstone : ParseStatus -> Bool
  | deleting | deleted => true
  | _ => false

end ParseStatus

inductive SummaryStatus where
  | none
  | pending
  | processing
  | completed
  | failed
deriving DecidableEq

/-- The summary states that keep a document from being published. -/
def SummaryStatus.isUnsettled : SummaryStatus -> Bool
  | pending | processing | failed => true
  | _ => false

inductive EnableStatus where
  | disabled
  | enabled
deriving DecidableEq

inductive DocumentKind where
  | file
  | url
  | passage
  | manual
deriving DecidableEq

inductive OutboxState where
  | pending
  | published
  | complete
  | failed
deriving DecidableEq

/-- Rows that are still to be delivered. -/
def OutboxState.isLive : OutboxState -> Bool
  | pending | published => true
  | _ => false

inductive SpanStatus where
  | pending
  | running
  | done
  | failed
  | skipped
  | cancelled
deriving DecidableEq

/-!
# Jobs
-/

inductive Work where
  | convert (passages : List String) (manual : Bool)
  | postprocess (cloneKeep : Bool)
  | summary
  | datatable
  | questions (chunkIds : List Uuid) (prevIds nextIds : List (Option Uuid))
      (batch : Nat)
  | extract (chunkId : Uuid)
  | image (imageKey imageSourceType : String)
  | wiki
  | reconcile
deriving DecidableEq

/-- The job keys, one constructor for each shape of the key text. -/
inductive JobKey where
  | convert
  | postprocess
  | summary
  | datatable
  | questions (batch : Nat)
  | extract (chunkId : Uuid)
  | image (imageKey : String)
  | wiki
  | reconcile
  | other (text : String)
deriving DecidableEq

namespace JobKey

/-- The key starts with `image:`. -/
def isImage : JobKey -> Bool
  | image _ => true
  | _ => false

end JobKey

namespace Work

def key : Work -> JobKey
  | convert _ _ => .convert
  | postprocess _ => .postprocess
  | summary => .summary
  | datatable => .datatable
  | questions _ _ _ batch => .questions batch
  | extract chunkId => .extract chunkId
  | image imageKey _ => .image imageKey
  | wiki => .wiki
  | reconcile => .reconcile

def derived : Work -> Bool
  | summary | datatable | questions _ _ _ _ | extract _ | wiki => true
  | _ => false

/-- The payload's `kind` is `image`. -/
def isImage : Work -> Bool
  | image _ _ => true
  | _ => false

end Work

/-!
# Rows
-/

structure Document where
  productVersionId : Uuid
  documentKind : DocumentKind
  parseStatus : ParseStatus
  pendingSubtasksCount : Nat
  summaryStatus : SummaryStatus
  enableStatus : EnableStatus
  indexReady : Bool
  description : String
  attempt : Nat
  activeGeneration : Nat
  sourcePassages : Option (List String)
  errorMessage : Option String
  updatedAt : Time
  deletedAt : Option Time
deriving DecidableEq

structure OutboxRow where
  productVersionId : Uuid
  payload : Work
  isDerived : Bool
  state : OutboxState
  deliveries : Nat
  revision : Nat
  nextDeliveryAt : Time
  lastError : Option String
deriving DecidableEq

/-- The values a span carries in its `input` and `output` columns. -/
inductive SpanValue where
  | number (n : Nat)
  | text (s : String)
deriving DecidableEq

structure Span where
  spanId : Uuid
  parentSpanId : Option Uuid
  kind : String
  status : SpanStatus
  input : Option (List (String × SpanValue))
  output : Option (List (String × SpanValue))
  errorMessage : Option String
  startedAt : Option Time
  finishedAt : Option Time
  durationMs : Option Nat
deriving DecidableEq

structure Chunk where
  productVersionId : Uuid
  documentId : Uuid
  generation : Nat
  chunkType : String
  content : String
  contextHeader : String
  startOffset : Nat
  endOffset : Nat
  parentChunkId : Option Uuid
  generatedQuestions : List String
  sourceLocator : Option String
deriving DecidableEq

structure ChunkEmbedding where
  productVersionId : Uuid
  documentId : Uuid
  embedding : String
  content : String
deriving DecidableEq

structure NodeKey where
  productVersionId : Uuid
  documentId : Uuid
  name : String
  generation : Nat
deriving DecidableEq

structure RelationKey where
  productVersionId : Uuid
  documentId : Uuid
  sourceNodeName : String
  targetNodeName : String
  relationType : String
  generation : Nat
deriving DecidableEq

inductive WikiStatus where
  | draft
  | published
  | archived
deriving DecidableEq

structure WikiPage where
  status : WikiStatus
  sourceRefs : List Uuid
  updatedAt : Time
deriving DecidableEq

/-- Everything the database keeps under one document id. -/
structure DocumentRecord where
  document : Document
  outbox : Table (Nat × JobKey) OutboxRow
  receipts : List (Nat × JobKey)
  spans : Table (Nat × String) Span

structure Database where
  documents : Table Uuid DocumentRecord
  chunks : Table Uuid Chunk
  embeddings : Table Uuid ChunkEmbedding
  graphNodes : Table NodeKey (List Uuid)
  graphRelations : Table RelationKey Unit
  wikiPages : Table (Uuid × String) WikiPage

namespace Database

def empty : Database where
  documents := Table.empty
  chunks := Table.empty
  embeddings := Table.empty
  graphNodes := Table.empty
  graphRelations := Table.empty
  wikiPages := Table.empty

def find (db : Database) (id : Uuid) : Option DocumentRecord :=
  db.documents.lookup id

end Database

end Workflow
end KnowledgeBrain
