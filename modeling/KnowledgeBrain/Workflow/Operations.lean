import KnowledgeBrain.Workflow.Transactions
import Mathlib.Data.List.Dedup
import Mathlib.Data.List.Sort

/-!
# Chunks, embeddings and graph rows

The index tables are keyed by generation.  A chunk is always written with the
attempt its document has at that moment; deleting a chunk deletes its
embedding and clears the parent link of the chunks below it, as the foreign
keys of the schema demand.
-/

namespace KnowledgeBrain
namespace Workflow

open Foundation

/-- What a worker computed in memory before it commits. -/
structure DocJob where
  documentId : Uuid
  summaryStatus : SummaryStatus
  description : String
  chunks : List (Uuid × Chunk)
  embeddings : List (Uuid × ChunkEmbedding)
  graph : List (NodeKey × List Uuid)
  relations : List RelationKey

/-- A summary job commits only once its summary reached a terminal state. -/
def DocJob.summarySettled (job : DocJob) (key : JobKey) : Bool :=
  key != .summary || job.summaryStatus == .completed || job.summaryStatus == .failed

def wikiPageType : String := "wiki_page"

namespace Database

/-!
# Deleting
-/

def selects (p : Uuid -> Chunk -> Bool) (db : Database) (id : Uuid) : Bool :=
  match db.chunks.lookup id with
  | none => false
  | some c => p id c

def clearParent (deleted : Uuid -> Bool) (c : Chunk) : Chunk :=
  match c.parentChunkId with
  | none => c
  | some parent => if deleted parent then { c with parentChunkId := none } else c

def deleteChunks (p : Uuid -> Chunk -> Bool) (db : Database) : Database :=
  { db with
    chunks := (db.chunks.filter fun id c => !p id c).mapRows fun _ c =>
      clearParent (selects p db) c
    embeddings := db.embeddings.filter fun id _ => !selects p db id }

/-- A non-wiki chunk of one generation of a document. -/
def ofGeneration (documentId : Uuid) (generation : Nat) (_ : Uuid) (c : Chunk) :
    Bool :=
  c.documentId == documentId && c.generation == generation &&
    c.chunkType != wikiPageType

/-!
# Appending
-/

/-- Insert a chunk, or replace the content of the one with the same id. -/
def appendChunk (entry : Uuid × Chunk) (db : Database) : Except String Database :=
  match db.chunks.lookup entry.1 with
  | some _ =>
      .ok { db with
        chunks := db.chunks.modify entry.1 fun old =>
          { old with
            content := entry.2.content
            generatedQuestions := entry.2.generatedQuestions
            sourceLocator := entry.2.sourceLocator } }
  | none =>
      match db.find entry.2.documentId with
      | none => .error "chunk without a document"
      | some r =>
          if r.document.productVersionId = entry.2.productVersionId then
            .ok { db with
              chunks := db.chunks.insertNew entry.1
                { entry.2 with generation := r.document.attempt } }
          else .error "chunk of another version"

def appendEmbedding (entry : Uuid × ChunkEmbedding) (db : Database) :
    Except String Database :=
  match db.embeddings.lookup entry.1, db.chunks.lookup entry.1 with
  | some _, _ =>
      .ok { db with
        embeddings := db.embeddings.modify entry.1 fun old =>
          { old with embedding := entry.2.embedding, content := entry.2.content } }
  | none, some c =>
      if c.productVersionId = entry.2.productVersionId ∧
          c.documentId = entry.2.documentId then
        .ok { db with embeddings := db.embeddings.insertNew entry.1 entry.2 }
      else .error "embedding of another document"
  | none, none => .error "embedding without a chunk"

def appendDocumentChunksTx (chunks : List (Uuid × Chunk))
    (embeddings : List (Uuid × ChunkEmbedding)) (db : Database) :
    Except String Database := do
  let db <- chunks.foldlM (fun db entry => db.appendChunk entry) db
  embeddings.foldlM (fun db entry => db.appendEmbedding entry) db

/-!
# Graph rows
-/

def persistNode (entry : NodeKey × List Uuid) (db : Database) : Database :=
  match db.find entry.1.documentId with
  | none => db
  | some r =>
      { db with
        graphNodes := db.graphNodes.upsert
          { entry.1 with generation := r.document.attempt } entry.2
          fun old => (old ++ entry.2).dedup }

def persistRelation (key : RelationKey) (db : Database) : Database :=
  match db.find key.documentId with
  | none => db
  | some r =>
      { db with
        graphRelations := db.graphRelations.insertNew
          { key with generation := r.document.attempt } () }

def persistGraphMapsTx (job : DocJob) (db : Database) : Database :=
  let nodes := job.graph.filter fun entry => entry.1.documentId == job.documentId
  let relations := job.relations.filter fun key => key.documentId == job.documentId
  relations.foldl (fun db key => db.persistRelation key)
    (nodes.foldl (fun db entry => db.persistNode entry) db)

/-!
# Wiki pages of a document

`record_document_change` deletes the wiki chunks built from the document, or
from no document at all, and sends their pages back to draft.
-/

def pageConcerns (documentId : Uuid) (page : WikiPage) : Bool :=
  page.sourceRefs.contains documentId || page.sourceRefs.isEmpty

def wikiChunkConcerns (db : Database) (versionId documentId : Uuid) (_ : Uuid)
    (c : Chunk) : Bool :=
  c.productVersionId == versionId && c.chunkType == wikiPageType &&
    match db.wikiPages.lookup (versionId, c.contextHeader) with
    | none => false
    | some page => pageConcerns documentId page

def invalidateWiki (now : Time) (versionId documentId : Uuid) (db : Database) :
    Database :=
  let db1 := db.deleteChunks (db.wikiChunkConcerns versionId documentId)
  { db1 with
    wikiPages := db1.wikiPages.mapRows fun key page =>
      if key.1 = versionId ∧ pageConcerns documentId page then
        { page with status := .draft, updatedAt := now }
      else page }

/-!
# One document transaction
-/

def setRecord (id : Uuid) (r : DocumentRecord) (db : Database) : Database :=
  { db with documents := db.documents.modify id fun _ => r }

def applyChange (now : Time) (id : Uuid) (c : Change) (db : Database) : Database :=
  let db1 := db.setRecord id c.record
  if c.wikiStale then
    db1.invalidateWiki now c.record.document.productVersionId id
  else db1

/-- Run a transaction on a document; a missing document matches no row. -/
def transact (now : Time) (id : Uuid) (f : DocumentRecord -> Change)
    (db : Database) : Database :=
  match db.find id with
  | none => db
  | some r => db.applyChange now id (f r)

end Database

/-!
# Transactions across tables

Inserting and cloning documents, and the commits that write chunks, graph rows
or whole generations together with the rows of their document.  A transaction
that fails returns an error and leaves the database as it was.
-/

/-- A new row of `knowledge_documents`, with the column defaults. -/
def Document.inserted (now : Time) (versionId : Uuid) (kind : DocumentKind)
    (passages : Option (List String)) (status : ParseStatus)
    (enable : EnableStatus) (description : String) (summary : SummaryStatus) :
    Document where
  productVersionId := versionId
  documentKind := kind
  parseStatus := status
  pendingSubtasksCount := 0
  summaryStatus := summary
  enableStatus := enable
  indexReady := false
  description := description
  attempt := 1
  activeGeneration := 1
  sourcePassages := passages
  errorMessage := none
  updatedAt := now
  deletedAt := none

def DocumentRecord.bare (d : Document) : DocumentRecord where
  document := d
  outbox := Table.empty
  receipts := []
  spans := Table.empty

namespace Database

/-!
# Inserting and cloning documents
-/

def insertRecord (id : Uuid) (r : DocumentRecord) (db : Database) :
    Except String Database :=
  if db.documents.contains id then .error "duplicate document id"
  else .ok { db with documents := db.documents.insertNew id r }

/-- The rows a freshly inserted document owns. -/
def insertedRecord (now : Time) (versionId : Uuid) (kind : DocumentKind)
    (passages : List String) : DocumentRecord :=
  ((DocumentRecord.bare
    (Document.inserted now versionId kind
      (if passages.isEmpty then none else some passages) .pending .disabled ""
      .none)).recordDocumentChange now none).record

def insertDocument (now : Time) (id versionId : Uuid) (kind : DocumentKind)
    (passages : List String) (db : Database) : Except String Database :=
  db.insertRecord id (insertedRecord now versionId kind passages)

/-- The chunks a clone copies: the published generation, wiki chunks left out. -/
def sourceChunks (sourceId : Uuid) (generation : Nat) (db : Database) :
    List (Uuid × Chunk) :=
  db.chunks.rows.filter fun row => ofGeneration sourceId generation row.1 row.2

def copyChunk (rename : Uuid -> Uuid) (copied : List Uuid)
    (targetId targetVersionId targetGeneration : Nat) (row : Uuid × Chunk)
    (db : Database) : Except String Database :=
  if db.chunks.contains (rename row.1) then .error "duplicate chunk id"
  else
    .ok { db with
      chunks := db.chunks.insertNew (rename row.1)
        { row.2 with
          productVersionId := targetVersionId
          documentId := targetId
          generation := targetGeneration
          parentChunkId :=
            (row.2.parentChunkId.filter fun parent => copied.contains parent).map
              rename } }

def copyEmbedding (rename : Uuid -> Uuid) (targetId targetVersionId : Uuid)
    (id : Uuid) (db : Database) : Database :=
  match db.embeddings.lookup id with
  | none => db
  | some e =>
      { db with
        embeddings := db.embeddings.insertNew (rename id)
          { e with productVersionId := targetVersionId, documentId := targetId } }

def copyNode (rename : Uuid -> Uuid) (copied : List Uuid)
    (targetId targetVersionId targetGeneration : Nat)
    (row : NodeKey × List Uuid) (db : Database) : Database :=
  let remapped := (row.2.filter copied.contains).map rename
  if remapped.isEmpty then db
  else
    { db with
      graphNodes := db.graphNodes.insertNew
        { productVersionId := targetVersionId
          documentId := targetId
          name := row.1.name
          generation := targetGeneration } remapped }

def copyRelation (names : List String) (targetId targetVersionId targetGeneration : Nat)
    (key : RelationKey) (db : Database) : Database :=
  if names.contains key.sourceNodeName && names.contains key.targetNodeName then
    { db with
      graphRelations := db.graphRelations.insertNew
        { key with
          productVersionId := targetVersionId
          documentId := targetId
          generation := targetGeneration } () }
  else db

def copyDocumentIndexTx (rename : Uuid -> Uuid) (sourceId targetId targetVersionId : Uuid)
    (db : Database) : Except String Database :=
  match db.find sourceId, db.find targetId with
  | some source, some target => do
      if source.document.deletedAt.isSome || source.document.parseStatus.isTerminal then
        return db
      let generation := source.document.activeGeneration
      let targetGeneration := target.document.attempt
      let rows := db.sourceChunks sourceId generation
      let copied := rows.map Prod.fst
      let db1 <- rows.foldlM
        (fun db row => db.copyChunk rename copied targetId targetVersionId targetGeneration row) db
      let db2 := copied.foldl
        (fun db id => db.copyEmbedding rename targetId targetVersionId id) db1
      let nodes := db.graphNodes.rows.filter fun row =>
        row.1.productVersionId == source.document.productVersionId &&
          row.1.documentId == sourceId && row.1.generation == generation
      let db3 := nodes.foldl
        (fun db row => db.copyNode rename copied targetId targetVersionId targetGeneration row) db2
      let names := (nodes.filter fun row => !(row.2.filter copied.contains).isEmpty).map
        fun row => row.1.name
      let relations := (db.graphRelations.rows.map Prod.fst).filter fun key =>
        key.productVersionId == source.document.productVersionId &&
          key.documentId == sourceId && key.generation == generation
      return relations.foldl
        (fun db key => db.copyRelation names targetId targetVersionId targetGeneration key) db3
  | none, _ => .ok db
  | _, none => .error "clone target missing"

/-- The rows of a clone: a kept copy starts at post-processing, a reparse at
conversion. -/
def clonedRecord (now : Time) (versionId : Uuid) (copyKeep sourceHadWiki : Bool)
    (source : Document) : DocumentRecord :=
  let d := Document.inserted now versionId source.documentKind source.sourcePassages
    (if copyKeep then .processing else .pending)
    (if copyKeep then .enabled else .disabled)
    (if copyKeep then source.description else "")
    (if copyKeep then source.summaryStatus else .none)
  let r := ((DocumentRecord.bare d).recordDocumentChange now none).record
  if copyKeep then
    let r1 := r.putTx now versionId 1 (.postprocess true)
    if sourceHadWiki then r1.putTx now versionId 1 .wiki else r1
  else r

/-- One document of `run_clone`. -/
def cloneDocument (now : Time) (sourceId targetId versionId : Uuid)
    (copyKeep sourceHadWiki : Bool) (rename : Uuid -> Uuid) (db : Database) :
    Except String Database :=
  match db.find sourceId with
  | none => .ok db
  | some source =>
      if source.document.deletedAt.isSome || source.document.parseStatus.isTerminal then
        .ok db
      else do
        let db1 <- db.insertRecord targetId
          (clonedRecord now versionId copyKeep sourceHadWiki source.document)
        if copyKeep then db1.copyDocumentIndexTx rename sourceId targetId versionId
        else return db1

/-!
# Committing chunks, graphs and staged generations
-/

def jobSelects (job : DocJob) (types : List String) (imageKey : Option String)
    (parentIds : List Uuid) (c : Chunk) : Bool :=
  c.documentId == job.documentId && types.contains c.chunkType &&
    imageKey.all (fun k => c.contextHeader == k) &&
    (parentIds.isEmpty || c.parentChunkId.any parentIds.contains)

/-- The chunks `commit_chunks` deletes before it appends the new ones. -/
def commitDeletes (documentId : Uuid) (attempt : Nat) (types : List String)
    (imageKey : Option String) (parentIds : List Uuid) (_ : Uuid) (c : Chunk) : Bool :=
  c.documentId == documentId && c.generation == attempt && types.contains c.chunkType &&
    imageKey.all (fun k => c.contextHeader == k) &&
    (parentIds.isEmpty || c.parentChunkId.any parentIds.contains)

def setQuestions (job : DocJob) (attempt : Nat) (parent : Uuid) (db : Database) :
    Database :=
  match job.chunks.lookup parent with
  | none => db
  | some ch =>
      { db with
        chunks := db.chunks.modify parent fun c =>
          if c.generation = attempt then
            { c with generatedQuestions := ch.generatedQuestions }
          else c }

def commitChunks (now : Time) (job : DocJob) (attempt : Nat) (key : JobKey)
    (types : List String) (imageKey : Option String) (parentIds : List Uuid)
    (finish : Bool) (db : Database) : Except String (Database × Bool) :=
  match db.find job.documentId with
  | none => .ok (db, false)
  | some r =>
      if !r.lockCurrent attempt then .ok (db, false)
      else if r.hasReceipt attempt key then .ok (db, false)
      else do
        let chunks := job.chunks.filter fun entry =>
          jobSelects job types imageKey parentIds entry.2
        let embeddings := job.embeddings.filter fun entry =>
          (chunks.map Prod.fst).contains entry.1
        let db1 := db.deleteChunks
          (commitDeletes job.documentId attempt types imageKey parentIds)
        let db2 <- db1.appendDocumentChunksTx chunks embeddings
        if !job.summarySettled key then
          throw "summary did not reach a terminal state"
        let db3 := parentIds.foldl (fun db parent => db.setQuestions job attempt parent) db2
        return (db3.applyChange now job.documentId
          (r.commitChunksRecord now attempt key job.summaryStatus job.description finish),
          true)

def commitGraph (now : Time) (job : DocJob) (attempt : Nat) (key : JobKey)
    (db : Database) : Database × Bool :=
  match db.find job.documentId with
  | none => (db, false)
  | some r =>
      match r.complete now attempt key with
      | (_, false) => (db, false)
      | (c, true) => ((db.applyChange now job.documentId c).persistGraphMapsTx job, true)

def stageIndex (documentId : Uuid) (attempt : Nat) (chunks : List (Uuid × Chunk))
    (embeddings : List (Uuid × ChunkEmbedding)) (replaceChunks : Bool)
    (db : Database) : Except String (Database × Bool) :=
  match db.find documentId with
  | none => .ok (db, false)
  | some r =>
      if !r.lockCurrent attempt then .ok (db, false)
      else do
        let db1 :=
          if replaceChunks then db.deleteChunks (ofGeneration documentId attempt)
          else
            { db with
              embeddings := db.embeddings.filter fun id _ =>
                !selects (fun _ c => c.documentId == documentId && c.generation == attempt)
                  db id }
        let db2 <- db1.appendDocumentChunksTx (if replaceChunks then chunks else []) embeddings
        return (db2, true)

/-!
# Deleting generations
-/

/-- Old document-wide delete envelopes can never purge a live generation. -/
def deletableGeneration (attempt : Nat) (d : Document) : Bool :=
  (decide (attempt < d.attempt) && attempt != d.activeGeneration) ||
    (attempt == d.attempt && d.parseStatus.isTombstone)

def deleteGeneration (documentId : Uuid) (attempt : Nat) (db : Database) : Database :=
  match db.find documentId with
  | none => db
  | some r =>
      if deletableGeneration attempt r.document then
        db.deleteChunks (ofGeneration documentId attempt)
      else db

/-- Tombstone-only cleanup. -/
def purgeDocumentIndex (documentId : Uuid) (db : Database) : Database :=
  match db.find documentId with
  | none => db
  | some r =>
      if r.document.parseStatus.isTombstone then
        let db1 :=
          { db with
            graphRelations := db.graphRelations.filter fun key _ =>
              key.documentId != documentId
            graphNodes := db.graphNodes.filter fun key _ => key.documentId != documentId }
        let db2 := db1.deleteChunks fun _ c =>
          c.documentId == documentId && c.chunkType != wikiPageType
        { db2 with
          wikiPages := db2.wikiPages.filter fun _ page =>
            !page.sourceRefs.contains documentId }
      else db

end Database

/-!
# Dispatch

`dispatch` first gives stale conversions a fresh attempt, in one transaction.
It then reads the rows that are due and handles them one after the other, each
in transactions of its own: between the read and the write for a row, any
other transaction may run.  The write is guarded by the revision that was
read.
-/

/-!
## Recovery and other passes over all documents
-/

namespace Database

def idsWhere (p : DocumentRecord -> Bool) (db : Database) : List Uuid :=
  (db.documents.rows.filter fun row => p row.2).map Prod.fst

/-- One transaction over every selected document, in turn. -/
def transactWhere (now : Time) (p : DocumentRecord -> Bool)
    (f : DocumentRecord -> Change) (db : Database) : Database :=
  (db.idsWhere p).foldl (fun db id => db.transact now id f) db

def recoverStale (now : Time) (db : Database) : Database :=
  db.transactWhere now (fun r => r.staleConversion now) fun r => r.recoverStale now

def cancelActiveDocsForVersions (now : Time) (versionIds : List Uuid)
    (db : Database) : Database :=
  db.transactWhere now
    (fun r => versionIds.contains r.document.productVersionId &&
      r.document.parseStatus.isWorking && r.document.deletedAt.isNone)
    fun r => r.cancelActive now

def housekeepDocuments (now staleSecs : Nat) (db : Database) : Database :=
  db.transactWhere now (fun r => r.stuck now staleSecs) fun r => r.housekeep now staleSecs

end Database

/-!
## Reading the rows that are due
-/

/-- A row as `dispatch` read it. -/
structure Delivery where
  documentId : Uuid
  productVersionId : Uuid
  attempt : Nat
  jobKey : JobKey
  payload : Work
  deliveries : Nat
  revision : Nat
deriving DecidableEq

namespace DocumentRecord

/-- The row filter of `dispatch`: reconcile rows always, the others only for
the current attempt of a live document that is working, and conversions also
after a failure. -/
def deliverable (now : Time) (key : Nat × JobKey) (row : OutboxRow)
    (r : DocumentRecord) : Bool :=
  row.state.isLive && decide (row.nextDeliveryAt ≤ now) &&
    (key.2 == .reconcile ||
      (r.document.attempt == key.1 && r.document.deletedAt.isNone &&
        (r.document.parseStatus.isWorking ||
          (r.document.parseStatus == .failed && key.2 == .convert))))

end DocumentRecord

namespace Database

def dueRows (now : Time) (db : Database) : List (Time × Delivery) :=
  db.documents.rows.flatMap fun entry =>
    (entry.2.outbox.rows.filter fun row => entry.2.deliverable now row.1 row.2).map
      fun row =>
        (row.2.nextDeliveryAt,
          { documentId := entry.1
            productVersionId := row.2.productVersionId
            attempt := row.1.1
            jobKey := row.1.2
            payload := row.2.payload
            deliveries := row.2.deliveries
            revision := row.2.revision })

def deliveryBatch : Nat := 100

def selectDeliveries (now : Time) (db : Database) : List Delivery :=
  (((db.dueRows now).insertionSort fun a b => a.1 ≤ b.1).take deliveryBatch).map Prod.snd

end Database

/-!
## Handling a row
-/

/-- Answers of `prepare_semantic_index_intent_v2`. -/
inductive Preparation where
  | enqueue
  | pendingDerived
  | ready
  | unbound
  | superseded
  | terminal
deriving DecidableEq

/-- The write `dispatch` performs for a row it has read. -/
inductive Settlement where
  | exhaust
  | acknowledge
  | giveUp (message : String)
  | postpone
  | offered (error : Option String)
deriving DecidableEq

def exhaustedMessage : String :=
  "outbox delivery retries exhausted; retry the document generation"

def semanticExhausted : String := "semantic delivery retries exhausted"

def semanticAttention : String := "semantic index needs attention"

def waitingForDerived : String := "waiting for derived work"

/-- What `dispatch` decides for a row: `versionLive` and `preparation` are read
for reconcile rows only, `queueError` is the result of the enqueue. -/
def settlement (maxAttempts : Nat) (delivery : Delivery) (versionLive : Bool)
    (preparation : Preparation) (queueError : Option String) : Settlement :=
  if delivery.payload == .reconcile then
    if !versionLive then .acknowledge
    else
      match preparation with
      | .enqueue =>
          if maxAttempts ≤ delivery.deliveries then .giveUp semanticExhausted
          else .offered queueError
      | .pendingDerived => .postpone
      | .ready | .unbound | .superseded => .acknowledge
      | .terminal => .giveUp semanticAttention
  else if maxAttempts ≤ delivery.deliveries then .exhaust
  else .offered queueError

/-- The row written under the revision guard. -/
def Settlement.settleRow (now : Time) (revision : Nat) (s : Settlement)
    (row : OutboxRow) : OutboxRow :=
  if row.revision != revision then row
  else
    match s with
    | .exhaust => row
    | .acknowledge => { row with state := .complete }
    | .giveUp message => { row with state := .failed, lastError := some message }
    | .postpone =>
        if row.state.isLive then
          { row with lastError := some waitingForDerived, nextDeliveryAt := now + 60 }
        else row
    | .offered error =>
        if row.state.isLive then
          { row with
            state := if error.isNone then .published else .pending
            deliveries := row.deliveries + 1
            lastError := error
            nextDeliveryAt := now + (if error.isNone then 15 * 60 else 60) }
        else row

/-- The transaction `dispatch` runs for a row it has read. -/
def DocumentRecord.settleDelivery (now : Time) (attempt : Nat) (key : JobKey)
    (revision : Nat) (s : Settlement) (r : DocumentRecord) : Change :=
  match s with
  | .exhaust => r.failJob now attempt key exhaustedMessage
  | _ =>
      Change.unchanged
        { r with outbox := r.outbox.modify (attempt, key) (s.settleRow now revision) }

/-!
## The operations of the workflow

Every transaction of the workflow is an event on the rows of one document, a
change of the index tables, or both.  `DocumentOp` lists the events,
`Operation` the transactions, and `find_step` says once what a transaction can
do to the rows of any one document.  Every invariant about documents is proved
about `DocumentOp.apply` and carried over by that theorem.
-/

/-- What can happen to the rows of one document. -/
inductive DocumentOp where
  | claim (attempt : Nat)
  | afterIndexFanout (versionId : Uuid) (attempt textCount : Nat)
      (images : List String) (fileName : String)
  | put (versionId : Uuid) (attempt : Nat) (work : Work)
  | complete (attempt : Nat) (key : JobKey)
  | beginPostprocess (versionId : Uuid) (attempt : Nat) (work : List Work)
  | commitChunks (attempt : Nat) (key : JobKey) (status : SummaryStatus)
      (description : String) (finish : Bool)
  | updateStatus (attempt : Nat) (status : ParseStatus) (error : String)
  | publishEmpty (attempt : Nat)
  | failJob (attempt : Nat) (key : JobKey) (error : String)
  | settleDelivery (attempt : Nat) (key : JobKey) (revision : Nat) (s : Settlement)
  | recoverStale
  | bumpDocumentAttempt
  | markReparseQueued
  | setParseStatus (status : ParseStatus) (error : String)
  | cancelActive (versionIds : List Uuid)
  | finishDelete (released : Bool)
  | housekeep (staleSecs : Nat)
  | setIndexReady (ready : Bool)
  | setSummaryStatus (status : SummaryStatus)
  | setDocumentProgress (status : ParseStatus) (count : Nat)
  | setFinalizing (count : Nat)
  | trySetProcessing
  | startSpan (spanId : Uuid) (attempt : Nat) (name : String)
      (parentName : Option String) (input : Option (List (String × SpanValue)))
  | finishSpan (spanId : Uuid) (attempt : Nat) (name : String)
      (status : SpanStatus) (output : Option (List (String × SpanValue)))
  | skipSpan (spanId : Uuid) (attempt : Nat) (name reason : String)
  | markSkipped (attempt : Nat) (name reason : String)
  | cancelDependentStages (attempt : Nat) (failedStage : String)
  | openStages (attempt : Nat) (spanIds : String -> Uuid)

namespace DocumentOp

def apply (now : Time) : DocumentOp -> DocumentRecord -> Change
  | claim attempt, r => (r.claim now attempt).1
  | afterIndexFanout versionId attempt textCount images fileName, r =>
      r.afterIndexFanout now versionId attempt textCount images fileName
  | put versionId attempt work, r => r.put now versionId attempt work
  | complete attempt key, r => (r.complete now attempt key).1
  | beginPostprocess versionId attempt work, r =>
      (r.beginPostprocess now versionId attempt work).1
  | commitChunks attempt key status description finish, r =>
      if !r.lockCurrent attempt || r.hasReceipt attempt key then Change.unchanged r
      else r.commitChunksRecord now attempt key status description finish
  | updateStatus attempt status error, r => r.updateStatus now attempt status error
  | publishEmpty attempt, r => r.publishEmpty now attempt
  | failJob attempt key error, r => r.failJob now attempt key error
  | settleDelivery attempt key revision s, r =>
      r.settleDelivery now attempt key revision s
  | recoverStale, r =>
      if r.staleConversion now then r.recoverStale now else Change.unchanged r
  | bumpDocumentAttempt, r => (r.bumpDocumentAttempt now).getD (Change.unchanged r)
  | markReparseQueued, r => (r.markReparseQueued now).getD (Change.unchanged r)
  | setParseStatus status error, r => r.setParseStatus now status error
  | cancelActive versionIds, r =>
      if versionIds.contains r.document.productVersionId &&
          r.document.parseStatus.isWorking && r.document.deletedAt.isNone then
        r.cancelActive now
      else Change.unchanged r
  | finishDelete released, r => r.finishDelete now released
  | housekeep staleSecs, r =>
      if r.stuck now staleSecs then r.housekeep now staleSecs else Change.unchanged r
  | setIndexReady ready, r => r.setIndexReady now ready
  | setSummaryStatus status, r => r.setSummaryStatus now status
  | setDocumentProgress status count, r => r.setDocumentProgress now status count
  | setFinalizing count, r => r.setFinalizing now count
  | trySetProcessing, r => r.trySetProcessing now
  | startSpan spanId attempt name parentName input, r =>
      Change.unchanged (r.startSpan now spanId attempt name parentName input)
  | finishSpan spanId attempt name status output, r =>
      Change.unchanged (r.finishSpan now spanId attempt name status output)
  | skipSpan spanId attempt name reason, r =>
      Change.unchanged (r.skipSpan now spanId attempt name reason)
  | markSkipped attempt name reason, r =>
      Change.unchanged (r.markSkipped now attempt name reason)
  | cancelDependentStages attempt failedStage, r =>
      Change.unchanged (r.cancelDependentStages now attempt failedStage)
  | openStages attempt spanIds, r => Change.unchanged (r.openStages attempt spanIds)

end DocumentOp

/-- The transactions of the workflow. -/
inductive Operation where
  | insertDocument (id versionId : Uuid) (kind : DocumentKind) (passages : List String)
  | cloneDocument (sourceId targetId versionId : Uuid) (copyKeep sourceHadWiki : Bool)
      (rename : Uuid -> Uuid)
  | document (id : Uuid) (op : DocumentOp)
  | commitChunks (job : DocJob) (attempt : Nat) (key : JobKey) (types : List String)
      (imageKey : Option String) (parentIds : List Uuid) (finish : Bool)
  | commitGraph (job : DocJob) (attempt : Nat) (key : JobKey)
  | stageIndex (id : Uuid) (attempt : Nat) (chunks : List (Uuid × Chunk))
      (embeddings : List (Uuid × ChunkEmbedding)) (replaceChunks : Bool)
  | deleteGeneration (id : Uuid) (attempt : Nat)
  | purgeDocumentIndex (id : Uuid)
  | recoverStale
  | cancelActiveDocs (versionIds : List Uuid)
  | housekeepDocuments (staleSecs : Nat)

namespace Operation

/-- Run a transaction; an error rolls everything back. -/
def run (now : Time) : Operation -> Database -> Except String Database
  | insertDocument id versionId kind passages, db =>
      db.insertDocument now id versionId kind passages
  | cloneDocument sourceId targetId versionId copyKeep sourceHadWiki rename, db =>
      db.cloneDocument now sourceId targetId versionId copyKeep sourceHadWiki rename
  | document id op, db => .ok (db.transact now id (op.apply now))
  | commitChunks job attempt key types imageKey parentIds finish, db =>
      (db.commitChunks now job attempt key types imageKey parentIds finish).map Prod.fst
  | commitGraph job attempt key, db => .ok (db.commitGraph now job attempt key).1
  | stageIndex id attempt chunks embeddings replaceChunks, db =>
      (db.stageIndex id attempt chunks embeddings replaceChunks).map Prod.fst
  | deleteGeneration id attempt, db => .ok (db.deleteGeneration id attempt)
  | purgeDocumentIndex id, db => .ok (db.purgeDocumentIndex id)
  | recoverStale, db => .ok (db.recoverStale now)
  | cancelActiveDocs versionIds, db => .ok (db.cancelActiveDocsForVersions now versionIds)
  | housekeepDocuments staleSecs, db => .ok (db.housekeepDocuments now staleSecs)

/-- A transaction at a moment of the database clock. -/
structure Timed where
  now : Time
  operation : Operation

/-- The database after a transaction, committed or rolled back. -/
def step (t : Timed) (db : Database) : Database :=
  match t.operation.run t.now db with
  | .ok db' => db'
  | .error _ => db

/-- The event a transaction is for the rows of the document `id`. -/
def event (id : Uuid) : Operation -> Option DocumentOp
  | document id' op => if id' = id then some op else none
  | commitChunks job attempt key _ _ _ finish =>
      if job.documentId = id ∧ job.summarySettled key then
        some (.commitChunks attempt key job.summaryStatus job.description finish)
      else none
  | commitGraph job attempt key =>
      if job.documentId = id then some (.complete attempt key) else none
  | recoverStale => some .recoverStale
  | cancelActiveDocs versionIds => some (.cancelActive versionIds)
  | housekeepDocuments staleSecs => some (.housekeep staleSecs)
  | _ => none

end Operation

end Workflow
end KnowledgeBrain
