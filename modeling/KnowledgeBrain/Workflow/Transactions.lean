import KnowledgeBrain.Workflow.Schema

/-!
# Document state changes and their obligations

Every transaction that changes a document captures its state first and calls
`record_document_change` before it commits.  That call owns the follow-up
rows: it asks for a reconciliation of the semantic index, retires the jobs of
abandoned attempts, opens the conversion of a fresh attempt and decides
whether wiki pages built from the document are stale.
-/

namespace KnowledgeBrain
namespace Workflow

open Foundation

/-- The columns whose change must reach the semantic index. -/
structure SourceState where
  deletedAt : Option Time
  enableStatus : EnableStatus
  indexReady : Bool
  parseStatus : ParseStatus
  summaryStatus : SummaryStatus
  activeGeneration : Nat
deriving DecidableEq

structure DocumentState where
  attempt : Nat
  parseStatus : ParseStatus
  sourceState : SourceState
deriving DecidableEq

def Document.sourceState (d : Document) : SourceState where
  deletedAt := d.deletedAt
  enableStatus := d.enableStatus
  indexReady := d.indexReady
  parseStatus := d.parseStatus
  summaryStatus := d.summaryStatus
  activeGeneration := d.activeGeneration

def captureDocumentState (r : DocumentRecord) : DocumentState where
  attempt := r.document.attempt
  parseStatus := r.document.parseStatus
  sourceState := r.document.sourceState

/-- A freshly inserted outbox row, with the column defaults of the schema. -/
def OutboxRow.fresh (now : Time) (versionId : Uuid) (work : Work) : OutboxRow where
  productVersionId := versionId
  payload := work
  isDerived := work.derived
  state := .pending
  deliveries := 0
  revision := 1
  nextDeliveryAt := now
  lastError := none

/-- Rows left by a transaction, and whether it has to clean up the wiki. -/
structure Change where
  record : DocumentRecord
  wikiStale : Bool

namespace Change

def unchanged (r : DocumentRecord) : Change where
  record := r
  wikiStale := false

def andThen (c : Change) (f : DocumentRecord -> Change) : Change where
  record := (f c.record).record
  wikiStale := c.wikiStale || (f c.record).wikiStale

end Change

namespace DocumentRecord

/-!
# The parts of `record_document_change`
-/

/-- The conflict branch of the reconcile upsert. -/
def reopenReconcile (now : Time) (row : OutboxRow) : OutboxRow :=
  { row with
    state := .pending
    deliveries := 0
    revision := row.revision + 1
    nextDeliveryAt := now
    lastError := none }

def requestReconcile (now : Time) (r : DocumentRecord) : DocumentRecord :=
  { r with
    outbox := r.outbox.upsert (r.document.attempt, .reconcile)
      (OutboxRow.fresh now r.document.productVersionId .reconcile)
      (reopenReconcile now) }

def retiresRow (d : Document) (key : Nat × JobKey) : Bool :=
  key.2 != .reconcile && (key.1 != d.attempt || d.parseStatus.isTerminal)

def retireRows (r : DocumentRecord) : DocumentRecord :=
  { r with
    outbox := r.outbox.mapRows fun key row =>
      if retiresRow r.document key then { row with state := .complete } else row }

def openConversion (now : Time) (r : DocumentRecord) : DocumentRecord :=
  { r with
    outbox := r.outbox.insertNew (r.document.attempt, .convert)
      (OutboxRow.fresh now r.document.productVersionId
        (.convert (r.document.sourcePassages.getD [])
          (r.document.documentKind == .manual))) }

def attemptChanged (before : Option DocumentState) (r : DocumentRecord) : Bool :=
  match before with
  | none => false
  | some old => old.attempt != r.document.attempt

def sourceChanged (before : Option DocumentState) (r : DocumentRecord) : Bool :=
  match before with
  | none => false
  | some old => old.sourceState != r.document.sourceState

def statusChanged (before : Option DocumentState) (r : DocumentRecord) : Bool :=
  match before with
  | none => false
  | some old => old.parseStatus != r.document.parseStatus

def recordDocumentChange (now : Time) (before : Option DocumentState)
    (r : DocumentRecord) : Change :=
  let r1 := if sourceChanged before r then r.requestReconcile now else r
  let r2 :=
    if attemptChanged before r || r.document.parseStatus.isTerminal then
      r1.retireRows
    else r1
  let r3 :=
    if r.document.parseStatus == .pending &&
        (before.isNone || attemptChanged before r) then
      r2.openConversion now
    else r2
  { record := r3
    wikiStale := attemptChanged before r ||
      (r.document.parseStatus.isTerminal && statusChanged before r) }

/-- Change the document row and record the change in the same transaction. -/
def updateDocument (now : Time) (f : Document -> Document) (r : DocumentRecord) :
    Change :=
  recordDocumentChange now (some (captureDocumentState r))
    { r with document := f r.document }

/-!
# Locks and outbox rows
-/

/-- `current` and `lock_current`: the attempt owns the live document. -/
def lockCurrent (attempt : Nat) (r : DocumentRecord) : Bool :=
  r.document.attempt == attempt && r.document.deletedAt.isNone &&
    r.document.parseStatus.isWorking

/-- The lock of `fail_job` and the row filter of `update_status`. -/
def lockOpen (attempt : Nat) (r : DocumentRecord) : Bool :=
  r.document.attempt == attempt && r.document.deletedAt.isNone &&
    r.document.parseStatus.isOpen

def putTx (now : Time) (versionId : Uuid) (attempt : Nat) (work : Work)
    (r : DocumentRecord) : DocumentRecord :=
  { r with
    outbox := r.outbox.insertNew (attempt, work.key)
      (OutboxRow.fresh now versionId work) }

def put (now : Time) (versionId : Uuid) (attempt : Nat) (work : Work)
    (r : DocumentRecord) : Change :=
  if r.lockCurrent attempt then
    Change.unchanged (r.putTx now versionId attempt work)
  else
    Change.unchanged r

def hasLiveRow (attempt : Nat) (key : JobKey) (r : DocumentRecord) : Bool :=
  match r.outbox.lookup (attempt, key) with
  | none => false
  | some row => row.state.isLive

def hasReceipt (attempt : Nat) (key : JobKey) (r : DocumentRecord) : Bool :=
  r.receipts.contains (attempt, key)

end DocumentRecord

/-!
# Processing spans

Spans are bookkeeping rows about the stages of an attempt.  Their writers take
the document lock with a condition of their own: the attempt must be current,
the document live and not cancelled or deleted.
-/

def rootName : String := "document_processing"

def stageNames : List String :=
  ["docreader", "chunking", "embedding", "multimodal", "postprocess"]

def spanKind (name : String) : String :=
  if name = rootName then "root"
  else if name ∈ stageNames then "stage"
  else "subspan"

/-- The stages that cannot run once a stage has failed. -/
def dependentStages (failedStage : String) : List String :=
  if failedStage = "docreader" then
    ["chunking", "embedding", "multimodal", "postprocess"]
  else if failedStage = "chunking" then
    ["embedding", "multimodal", "postprocess"]
  else if failedStage = "embedding" ∨ failedStage = "multimodal" then
    ["postprocess"]
  else []

/-- The `error` member of a span output, when it is a text. -/
def outputError (output : Option (List (String × SpanValue))) : Option String :=
  match (output.getD []).lookup "error" with
  | some (.text message) => some message
  | _ => none

namespace DocumentRecord

def lockSpanDocument (attempt : Nat) (r : DocumentRecord) : Bool :=
  r.document.attempt == attempt && r.document.deletedAt.isNone &&
    !r.document.parseStatus.isTerminal

def lookupSpanId (attempt : Nat) (name : String) (r : DocumentRecord) :
    Option Uuid :=
  (r.spans.lookup (attempt, name)).map Span.spanId

/-- Span writers leave their time on the document row. -/
def touch (now : Time) (r : DocumentRecord) : DocumentRecord :=
  { r with document := { r.document with updatedAt := now } }

def startSpan (now : Time) (spanId : Uuid) (attempt : Nat) (name : String)
    (parentName : Option String) (input : Option (List (String × SpanValue)))
    (r : DocumentRecord) : DocumentRecord :=
  let parent := parentName.or (if name = rootName then none else some rootName)
  let parentId := parent.bind fun p => r.lookupSpanId attempt p
  if !r.lockSpanDocument attempt then r
  else
    let r1 :=
      { r with
        spans := r.spans.upsert (attempt, name)
          { spanId := spanId
            parentSpanId := parentId
            kind := spanKind name
            status := .running
            input := input
            output := none
            errorMessage := none
            startedAt := some now
            finishedAt := none
            durationMs := none }
          fun old =>
            { old with
              status := .running
              input := input.or old.input
              parentSpanId := parentId.or old.parentSpanId
              kind := spanKind name
              startedAt := some now
              finishedAt := none
              durationMs := none
              errorMessage := none } }
    r1.touch now

def upsertSpanInTx (now : Time) (spanId : Uuid) (attempt : Nat) (name : String)
    (status : SpanStatus) (output : Option (List (String × SpanValue)))
    (r : DocumentRecord) : DocumentRecord :=
  let finished := if status = .running then none else some now
  { r with
    spans := r.spans.upsert (attempt, name)
      { spanId := spanId
        parentSpanId := none
        kind := name
        status := status
        input := none
        output := output
        errorMessage := none
        startedAt := some now
        finishedAt := finished
        durationMs := none }
      fun old =>
        { old with
          status := status
          output := output
          finishedAt := finished
          durationMs :=
            if status = .running then none
            else old.startedAt.map fun started => (now - started) * 1000 } }

def finishSpan (now : Time) (spanId : Uuid) (attempt : Nat) (name : String)
    (status : SpanStatus) (output : Option (List (String × SpanValue)))
    (r : DocumentRecord) : DocumentRecord :=
  let error := if status = .failed then outputError output else none
  if !r.lockSpanDocument attempt then r
  else
    let r1 :=
      if r.spans.contains (attempt, name) then
        { r with
          spans := r.spans.modify (attempt, name) fun old =>
            { old with
              status := status
              output := output
              errorMessage := error
              finishedAt := some now
              durationMs := some ((now - old.startedAt.getD now) * 1000) } }
      else r.upsertSpanInTx now spanId attempt name status output
    r1.touch now

/-- The second transaction of `skip_span`. -/
def markSkipped (now : Time) (attempt : Nat) (name reason : String)
    (r : DocumentRecord) : DocumentRecord :=
  if !r.lockSpanDocument attempt then r
  else
    { r with
      spans := r.spans.modify (attempt, name) fun old =>
        { old with
          status := .skipped
          errorMessage := some reason
          finishedAt := some now
          durationMs := some 0 } }

def skipSpan (now : Time) (spanId : Uuid) (attempt : Nat) (name reason : String)
    (r : DocumentRecord) : DocumentRecord :=
  (r.startSpan now spanId attempt name (some rootName) none).markSkipped
    now attempt name reason

def cancelDependentStages (now : Time) (attempt : Nat) (failedStage : String)
    (r : DocumentRecord) : DocumentRecord :=
  if (dependentStages failedStage).isEmpty then r
  else if !r.lockSpanDocument attempt then r
  else
    { r with
      spans := r.spans.mapRows fun key span =>
        if key.1 = attempt ∧ key.2 ∈ dependentStages failedStage ∧
            (span.status = .pending ∨ span.status = .running) then
          { span with
            status := .cancelled
            errorMessage := some ("upstream " ++ failedStage ++ " failed")
            finishedAt := some now }
        else span }

/-- The stage rows `open_attempt` inserts after the root span. -/
def openStages (attempt : Nat) (spanIds : String -> Uuid) (r : DocumentRecord) :
    DocumentRecord :=
  let root := r.lookupSpanId attempt rootName
  if !r.lockSpanDocument attempt then r
  else
    { r with
      spans := stageNames.foldl
        (fun spans name =>
          spans.insertNew (attempt, name)
            { spanId := spanIds name
              parentSpanId := root
              kind := "stage"
              status := .pending
              input := none
              output := none
              errorMessage := none
              startedAt := none
              finishedAt := none
              durationMs := none })
        r.spans }

end DocumentRecord

/-!
# Transactions on one document

The functions of the workflow that write the rows of one document.  Each is
one database transaction holding the document lock from its first statement
to its commit.
-/

namespace DocumentRecord

/-!
## Completing a job
-/

/-- The receipt is inserted and the outbox row, if there is one, is closed. -/
def addReceipt (attempt : Nat) (key : JobKey) (r : DocumentRecord) :
    DocumentRecord :=
  { r with
    receipts := (attempt, key) :: r.receipts
    outbox := r.outbox.modify (attempt, key) fun row =>
      { row with state := .complete, lastError := none } }

/-- Some image job of the attempt has not completed. -/
def imageWaiting (attempt : Nat) (r : DocumentRecord) : Bool :=
  r.outbox.any fun key row =>
    key.1 == attempt && row.payload.isImage && row.state != .complete

def finishMultimodal (now : Time) (attempt : Nat) (r : DocumentRecord) :
    DocumentRecord :=
  { r with
    spans := r.spans.modify (attempt, "multimodal") fun span =>
      { span with
        status := .done
        finishedAt := some now
        durationMs := some ((now - span.startedAt.getD now) * 1000) } }

/-- The last image of an attempt closes the stage and opens post-processing. -/
def closeImageStage (now : Time) (attempt : Nat) (r : DocumentRecord) :
    DocumentRecord :=
  if r.imageWaiting attempt then r
  else
    let r1 := r.finishMultimodal now attempt
    if r1.document.attempt == attempt then
      r1.putTx now r1.document.productVersionId attempt (.postprocess false)
    else r1

/-- Derived jobs of the attempt that have not completed. -/
def unfinishedDerived (attempt : Nat) (r : DocumentRecord) : Nat :=
  r.outbox.count fun key row =>
    key.1 == attempt && row.isDerived && row.state != .complete

/-- The counter is derived from durable obligations, never decremented. -/
def refreshSubtasks (now : Time) (attempt : Nat) (r : DocumentRecord) :
    DocumentRecord :=
  if r.document.attempt == attempt then
    { r with
      document :=
        { r.document with
          pendingSubtasksCount := r.unfinishedDerived attempt
          updatedAt := now } }
  else r

/-- The columns every publication of a generation sets. -/
def publishAttempt (now : Time) (attempt : Nat) (d : Document) : Document :=
  { d with
    parseStatus := .completed
    activeGeneration := attempt
    indexReady := true
    enableStatus := .enabled
    updatedAt := now }

/-- The condition of the last statement of `complete_tx`. -/
def drained (attempt : Nat) (d : Document) : Bool :=
  d.attempt == attempt && d.parseStatus == .finalizing &&
    d.pendingSubtasksCount == 0 && !d.summaryStatus.isUnsettled &&
    d.errorMessage.getD "" == ""

def publishDrained (now : Time) (attempt : Nat) (r : DocumentRecord) :
    DocumentRecord :=
  if drained attempt r.document then
    { r with document := publishAttempt now attempt r.document }
  else r

/-- `complete_tx`; the flag says whether the receipt is fresh. -/
def completeTx (now : Time) (attempt : Nat) (key : JobKey) (r : DocumentRecord) :
    Change × Bool :=
  if r.hasReceipt attempt key then (Change.unchanged r, false)
  else
    let r1 := r.addReceipt attempt key
    let r2 := if key.isImage then r1.closeImageStage now attempt else r1
    let r3 := (r2.refreshSubtasks now attempt).publishDrained now attempt
    (recordDocumentChange now (some (captureDocumentState r)) r3, true)

def complete (now : Time) (attempt : Nat) (key : JobKey) (r : DocumentRecord) :
    Change × Bool :=
  if r.lockCurrent attempt then r.completeTx now attempt key
  else (Change.unchanged r, false)

/-!
## Post-processing
-/

def putAll (now : Time) (versionId : Uuid) (attempt : Nat) (work : List Work)
    (r : DocumentRecord) : DocumentRecord :=
  work.foldl (fun r w => r.putTx now versionId attempt w) r

/-- The document columns `begin_postprocess` sets. -/
def enterFinalizing (now : Time) (work : List Work) (d : Document) : Document :=
  { d with
    parseStatus := .finalizing
    pendingSubtasksCount := work.countP Work.derived
    summaryStatus := if work.contains .summary then .pending else .none
    updatedAt := now }

def beginPostprocess (now : Time) (versionId : Uuid) (attempt : Nat)
    (work : List Work) (r : DocumentRecord) : Change × Bool :=
  if !r.lockCurrent attempt then (Change.unchanged r, false)
  else if r.document.parseStatus != .processing then (Change.unchanged r, false)
  else
    let r1 := r.putAll now versionId attempt work
    let r2 := { r1 with document := enterFinalizing now work r1.document }
    let c := (r2.completeTx now attempt .postprocess).1
    (c.andThen (recordDocumentChange now (some (captureDocumentState r))), true)

/-!
## Committing generated chunks

The rows of the chunk table are committed in the same transaction; this part
writes the document, its outbox and its receipts.
-/

def summaryFailure : String := "summary generation failed; retry required"

/-- The `summary` key stores the generated description and its outcome. -/
def storeSummary (key : JobKey) (status : SummaryStatus) (description : String)
    (d : Document) : Document :=
  if key == .summary then
    { d with description := description, summaryStatus := status }
  else d

def failSummary (key : JobKey) (status : SummaryStatus) (d : Document) : Document :=
  if key == .summary && status == .failed then
    { d with parseStatus := .failed, errorMessage := some summaryFailure }
  else d

def commitChunksRecord (now : Time) (attempt : Nat) (key : JobKey)
    (status : SummaryStatus) (description : String) (finish : Bool)
    (r : DocumentRecord) : Change :=
  let r1 := { r with document := storeSummary key status description r.document }
  let c :=
    if finish then (r1.completeTx now attempt key).1 else Change.unchanged r1
  let r2 := { c.record with document := failSummary key status c.record.document }
  Change.andThen { record := r2, wikiStale := c.wikiStale }
    (recordDocumentChange now (some (captureDocumentState r)))

/-!
## Failures and status changes
-/

def failRow (error : String) (row : OutboxRow) : OutboxRow :=
  if row.state.isLive then
    { row with state := .failed, lastError := some error }
  else row

def failSummaryStatus : SummaryStatus -> SummaryStatus
  | .pending | .processing => .failed
  | status => status

def failDocument (now : Time) (error : String) (d : Document) : Document :=
  { d with
    parseStatus := .failed
    errorMessage := some error
    summaryStatus := failSummaryStatus d.summaryStatus
    indexReady := false
    updatedAt := now }

def failJob (now : Time) (attempt : Nat) (key : JobKey) (error : String)
    (r : DocumentRecord) : Change :=
  if !r.lockOpen attempt then Change.unchanged r
  else
    let r1 := { r with outbox := r.outbox.modify (attempt, key) (failRow error) }
    let r2 :=
      if r.hasLiveRow attempt key then
        { r1 with document := failDocument now error r1.document }
      else r1
    recordDocumentChange now (some (captureDocumentState r)) r2

def updateStatus (now : Time) (attempt : Nat) (status : ParseStatus)
    (error : String) (r : DocumentRecord) : Change :=
  r.updateDocument now fun d =>
    if r.lockOpen attempt then
      { d with parseStatus := status, errorMessage := some error, updatedAt := now }
    else d

def publishEmpty (now : Time) (attempt : Nat) (r : DocumentRecord) : Change :=
  r.updateDocument now fun d =>
    if d.attempt == attempt && d.parseStatus == .processing && d.deletedAt.isNone then
      publishAttempt now attempt d
    else d

/-!
## Conversion
-/

/-- The obligation check at the start of `run_convert`. -/
def convertRequested (attempt : Nat) (r : DocumentRecord) : Bool :=
  r.lockOpen attempt && r.hasLiveRow attempt .convert &&
    !r.hasReceipt attempt .convert

/-- The row filter of the claim. -/
def claimable (attempt : Nat) (d : Document) : Bool :=
  d.attempt == attempt && d.deletedAt.isNone &&
    (d.parseStatus == .pending || d.parseStatus == .failed)

def claim (now : Time) (attempt : Nat) (r : DocumentRecord) : Change × Bool :=
  (r.updateDocument now fun d =>
      if claimable attempt d then
        { d with parseStatus := .processing, errorMessage := some "", updatedAt := now }
      else d,
    claimable attempt r.document)

/-- The committing transaction of `after_index_fanout`, images present. -/
def fanoutImages (now : Time) (versionId : Uuid) (attempt : Nat)
    (images : List String) (fileName : String) (r : DocumentRecord) : Change :=
  if !r.lockCurrent attempt then Change.unchanged r
  else
    let r1 := r.putAll now versionId attempt (images.map fun k => .image k fileName)
    (r1.completeTx now attempt .convert).1

/-- The committing transaction of `after_index_fanout`, no images. -/
def fanoutText (now : Time) (versionId : Uuid) (attempt textCount : Nat)
    (r : DocumentRecord) : Change :=
  if !r.lockCurrent attempt then Change.unchanged r
  else
    let r1 :=
      if 0 < textCount then r.putTx now versionId attempt (.postprocess false) else r
    let c := r1.updateDocument now fun d =>
      if textCount = 0 then publishAttempt now attempt d else d
    c.andThen fun r2 => (r2.completeTx now attempt .convert).1

def afterIndexFanout (now : Time) (versionId : Uuid) (attempt textCount : Nat)
    (images : List String) (fileName : String) (r : DocumentRecord) : Change :=
  if images.isEmpty then r.fanoutText now versionId attempt textCount
  else r.fanoutImages now versionId attempt images fileName

/-!
## Fresh attempts and recovery
-/

def housekeepStaleSecs : Nat := 2 * 60 * 60 + 10 * 60

/-- A conversion lease that has expired. -/
def staleConversion (now : Time) (r : DocumentRecord) : Bool :=
  r.document.parseStatus == .processing && r.document.deletedAt.isNone &&
    decide (r.document.updatedAt + housekeepStaleSecs < now) &&
    r.hasLiveRow r.document.attempt .convert

/-- The columns that start a fresh attempt, but for the summary. -/
def freshAttempt (now : Time) (attempt : Nat) (d : Document) : Document :=
  { d with
    attempt := attempt
    parseStatus := .pending
    enableStatus := .disabled
    indexReady := false
    pendingSubtasksCount := 0
    errorMessage := some ""
    updatedAt := now }

/-- The recovery step of `dispatch` for one stale document. -/
def recoverStale (now : Time) (r : DocumentRecord) : Change :=
  r.updateDocument now fun d =>
    { freshAttempt now (d.attempt + 1) d with summaryStatus := .none }

/-- Documents `bump_document_attempt` and `mark_reparse_queued` accept. -/
def reopenable (d : Document) : Bool :=
  d.deletedAt.isNone && !d.parseStatus.isTombstone

def bumpDocumentAttempt (now : Time) (r : DocumentRecord) : Option Change :=
  if reopenable r.document then
    some (r.updateDocument now fun d => freshAttempt now (d.attempt + 1) d)
  else none

def markReparseQueued (now : Time) (r : DocumentRecord) : Option Change :=
  if reopenable r.document then
    some (r.updateDocument now fun d =>
      freshAttempt now
        (if d.parseStatus == .pending && d.enableStatus == .disabled then d.attempt
          else d.attempt + 1) d)
  else none

/-!
## Cancellation, deletion and housekeeping
-/

def setParseStatus (now : Time) (status : ParseStatus) (error : String)
    (r : DocumentRecord) : Change :=
  r.updateDocument now fun d =>
    { d with parseStatus := status, errorMessage := some error, updatedAt := now }

def cancelActive (now : Time) (r : DocumentRecord) : Change :=
  r.updateDocument now fun d => { d with parseStatus := .cancelled, updatedAt := now }

/-- The document columns of the last transaction of a deletion; `released` says
whether the object registry marked the document deleted in it. -/
def tombstone (now : Time) (released : Bool) (d : Document) : Document :=
  let d :=
    if released then
      { d with deletedAt := some (d.deletedAt.getD now), updatedAt := now }
    else d
  if d.parseStatus == .deleting then
    { d with
      deletedAt := some (d.deletedAt.getD now)
      parseStatus := .deleted
      updatedAt := now }
  else d

def finishDelete (now : Time) (released : Bool) (r : DocumentRecord) : Change :=
  r.updateDocument now (tombstone now released)

/-- No job of the current attempt is left to be delivered. -/
def idle (r : DocumentRecord) : Bool :=
  !r.outbox.any fun key row => key.1 == r.document.attempt && row.state.isLive

def maxTime (a b : Option Time) : Option Time :=
  match a, b with
  | none, b => b
  | a, none => a
  | some s, some t => some (max s t)

/-- The latest moment a span of the document finished or started. -/
def heartbeat (r : DocumentRecord) : Option Time :=
  r.spans.rows.foldl
    (fun latest row => maxTime latest (row.2.finishedAt.or row.2.startedAt)) none

/-- The documents `housekeep_documents` gives up on. -/
def stuck (now staleSecs : Nat) (r : DocumentRecord) : Bool :=
  (r.document.parseStatus == .processing || r.document.parseStatus == .finalizing) &&
    r.idle && decide (r.heartbeat.getD r.document.updatedAt + staleSecs < now)

def failSpan (now : Time) (span : Span) : Span :=
  if span.status == .running || span.status == .pending then
    { span with
      status := .failed
      finishedAt := some (span.finishedAt.getD now)
      durationMs := some (span.durationMs.getD 0) }
  else span

def housekeepMessage (staleSecs : Nat) : String :=
  "task stuck in processing > " ++ toString staleSecs ++
    "s, recovered by housekeeping"

def housekeep (now staleSecs : Nat) (r : DocumentRecord) : Change :=
  let c := r.updateDocument now fun d =>
    { d with
      parseStatus := .failed
      errorMessage := some (housekeepMessage staleSecs)
      pendingSubtasksCount := 0
      updatedAt := now }
  { c with
    record :=
      { c.record with
        spans := c.record.spans.mapRows fun key span =>
          if key.1 == c.record.document.attempt then failSpan now span else span } }

/-!
## Single-column setters of the catalog

The catalog exports these next to `set_parse_status`; each captures and
records the change like every other writer.
-/

def setIndexReady (now : Time) (ready : Bool) (r : DocumentRecord) : Change :=
  r.updateDocument now fun d => { d with indexReady := ready, updatedAt := now }

def setSummaryStatus (now : Time) (status : SummaryStatus) (r : DocumentRecord) :
    Change :=
  r.updateDocument now fun d => { d with summaryStatus := status, updatedAt := now }

def setDocumentProgress (now : Time) (status : ParseStatus) (count : Nat)
    (r : DocumentRecord) : Change :=
  r.updateDocument now fun d =>
    { d with parseStatus := status, pendingSubtasksCount := count, updatedAt := now }

def setFinalizing (now : Time) (count : Nat) (r : DocumentRecord) : Change :=
  r.updateDocument now fun d =>
    if d.parseStatus == .processing then
      { d with
        parseStatus := .finalizing, pendingSubtasksCount := count, updatedAt := now }
    else d

def trySetProcessing (now : Time) (r : DocumentRecord) : Change :=
  r.updateDocument now fun d =>
    if d.parseStatus == .pending || d.parseStatus == .failed then
      { d with parseStatus := .processing, errorMessage := some "", updatedAt := now }
    else d

end DocumentRecord

end Workflow
end KnowledgeBrain
