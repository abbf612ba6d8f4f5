import KnowledgeBrain.Tender.Commands

/-!
# Retrying, confirming, cancelling and revising

The requests of a user.  Each is identified by a key, so that a repeated one
finds what the first did and changes nothing.  All that replace the work of a
run raise its epoch, which makes every lease of it stale.
-/

namespace KnowledgeBrain
namespace Tender

open Foundation

namespace Store

def cancelReceipt (reason : String) : Receipt where
  status := .cancelled
  phase := none
  epoch := none
  reason := some reason
  humanIssueIds := []

def cancelCommand (now : Time) (reason : String) (c : Command) : Command :=
  { c with
    status := .cancelled
    completedAt := some now
    receipt := some (cancelReceipt reason) }

/-- `_cancel_commands`: cancel every live command of the run. -/
def cancelCommands (s : Store) (runId reason : String) : Store :=
  { s with
    commands := s.commands.mapRows fun _ c =>
      if (c.runId == runId && c.status.isLive) = true then cancelCommand s.now reason c else c }

/-- `_abandon_requests`. -/
def abandonRequests (s : Store) (runId : String) : Store :=
  { s with
    requests := s.requests.mapRows fun _ q =>
      if (q.runId == runId && isOpenRequest q) = true then loseRequest s.now runInvalidated q
      else q }

/-!
# Retry
-/

def hexDigit (c : Char) : Bool :=
  c.isDigit || decide ('a' ≤ c ∧ c ≤ 'f')

/-- Sixty-four lower-case hexadecimal digits. -/
def isSha256 (digest : String) : Bool :=
  digest.length == 64 && digest.toList.all hexDigit

def hasLogicalDigest (q : ModelRequest) : Bool :=
  q.metadata.logicalRequestDigest.any isSha256

def ofRevision (key : RevisionKey) (q : ModelRequest) : Bool :=
  q.runId == key.runId && q.sourceVersion == key.sourceVersion &&
    q.domainRevision == key.domainRevision

def settleRequest (now : Time) (q : ModelRequest) : ModelRequest :=
  { q with
    status := .uncertain
    finishedAt := some now
    error := some (q.error.getD executorLost) }

/-- A finished executor may have left sends without their final audit. -/
def settleSends (s : Store) (key : RevisionKey) : Store :=
  { s with
    requests := s.requests.mapRows fun _ q =>
      if (ofRevision key q && q.status == .sent && hasLogicalDigest q) = true then
        settleRequest s.now q
      else q }

/-- A send that no later attempt could account for. -/
def unresolvedSend (s : Store) (key : RevisionKey) : Option (String × ModelRequest) :=
  (sortBy (fun a b => (compare a.2.createdAt b.2.createdAt).then (compare a.1 b.1))
    (s.requests.rows.filter fun row =>
      ofRevision key row.2 && (row.2.status == .sent ||
        row.2.status == .uncertain && !hasLogicalDigest row.2))).head?

/-- The commands of a revision, the latest first. -/
def latestCommand (s : Store) (key : RevisionKey) : Option (String × Command) :=
  (sortBy (fun a b => (compare b.2.createdAt a.2.createdAt).then (compare b.1 a.1))
    (s.commands.rows.filter fun row =>
      row.2.runId == key.runId && row.2.sourceVersion == key.sourceVersion &&
        row.2.domainRevision == key.domainRevision)).head?

def retriedBy (s : Store) (runId requestKey : String) : Option (String × Command) :=
  s.commands.rows.find? fun row =>
    row.2.runId == runId && row.2.payload.retry.any fun audit => audit.requestKey == requestKey

/-- The command was the last one, and failed. -/
def isFailedCommand (failedCommandId : String) (row : String × Command) : Bool :=
  row.1 == failedCommandId && row.2.status == .completed &&
    row.2.receipt.any fun receipt => receipt.status == .failed

/-- Put a new command into a run that has none. -/
def reopenRun (s : Store) (commandId : String) (key : RevisionKey) (kind : CommandKind)
    (payload : Payload) : Except StoreFault Store := do
  let (_, s1) ← s.command commandId key kind payload
  return s1.setRun key.runId fun r => { r with status := .pending }

/-- `not text.strip()`. -/
def isBlank (text : String) : Bool :=
  text.toList.all isSpace

def retry (commandId runId : String) (sourceVersion domainRevision : Nat)
    (failedCommandId requestKey reason : String) (s : Store) :
    Except StoreFault (String × Store) := do
  reject
    (isBlank requestKey = true ∨ isBlank reason = true ∨ sourceVersion < 1 ∨ domainRevision < 1)
    (.valueError "retry requires a request key, reason, and positive source/domain versions")
  let audit : RetryAudit := ⟨failedCommandId, requestKey, reason⟩
  let key : RevisionKey := ⟨runId, sourceVersion, domainRevision⟩
  let r ← s.run runId
  reject
    (r.sourceVersion ≠ sourceVersion ∨ r.domainRevision ≠ domainRevision ∨
      r.cancelRequested = true)
    (.conflict "retry baseline is stale or the run is cancelled")
  s.assertAnalysisRevision runId r
  match s.retriedBy runId requestKey with
  | some (prior, c) =>
      reject
        (c.sourceVersion ≠ sourceVersion ∨ c.domainRevision ≠ domainRevision ∨
          c.payload.retry ≠ some audit)
        (.conflict "request_key already identifies a different retry")
      return (prior, s)
  | none =>
      reject (r.status ≠ .failed ∨ s.leaseLive r = true)
        (.conflict "only a failed run without an active lease can be retried")
      match s.latestCommand key with
      | none => throw (.conflict "retry must identify the current latest failed command")
      | some (latest, failed) =>
          reject (isFailedCommand failedCommandId (latest, failed) = false)
            (.conflict "retry must identify the current latest failed command")
          let s1 := s.settleSends key
          match s1.unresolvedSend key with
          | some (requestId, q) => throw (.requestReplayBlocked requestId q.status)
          | none =>
              let s2 ← s1.reopenRun commandId key failed.kind
                { failed.payload with retry := some audit }
              return (commandId, s2)

/-!
# Confirmation
-/

/-- `validate_issue_resolutions`: one verdict for each pending issue. -/
def validateIssueResolutions (pendingIssueIds : List String)
    (submitted : Option (List IssueResolution)) :
    Except StoreFault (Option (List IssueResolution)) :=
  match submitted with
  | none =>
      if pendingIssueIds = [] then return none
      else throw (.valueError "pending semantic issues require human resolutions")
  | some resolutions =>
      let identities := resolutions.map IssueResolution.issueId
      if identities.Nodup ∧ (identities.all fun id => pendingIssueIds.contains id) = true ∧
          (pendingIssueIds.all fun id => identities.contains id) = true then
        return if identities = [] then none
          else some (sortBy (fun a b => compare a.issueId b.issueId) resolutions)
      else throw (.valueError "resolutions must cover exactly the pending semantic issues")

def pendingIssueIds (s : Store) (key : RevisionKey) : List String :=
  let waiting := sortBy
    (fun a b => (compare (b.2.completedAt.getD 0) (a.2.completedAt.getD 0)).then
      (compare b.1 a.1))
    (s.commands.rows.filter fun row =>
      row.2.runId == key.runId && row.2.sourceVersion == key.sourceVersion &&
        row.2.domainRevision == key.domainRevision && row.2.status == .completed &&
        row.2.receipt.any fun receipt => receipt.status == .waitingConfirmation)
  match waiting.head? with
  | none => []
  | some row => row.2.receipt.elim [] Receipt.humanIssueIds

/-- The confirmations that a new one must agree with. -/
def priorConfirmations (s : Store) (key : RevisionKey) (requestKey : String) :
    List (RevisionKey × Confirmation) :=
  s.confirmations.rows.filter fun row =>
    row.1.runId == key.runId && (row.1 == key || row.2.requestKey == requestKey)

def confirmedAlike (key : RevisionKey) (checklistDigest : String)
    (resolutions : Option (List IssueResolution)) (row : RevisionKey × Confirmation) : Bool :=
  row.1 == key && row.2.checklistDigest == checklistDigest &&
    row.2.issueResolutions == resolutions

def insertConfirmation (s : Store) (key : RevisionKey) (confirmation : Confirmation) : Store :=
  { s with confirmations := s.confirmations.insertNew key confirmation }

def confirm (commandId runId : String) (sourceVersion : Nat)
    (checklistDigest idempotencyKey : String) (domainRevision : Option Nat)
    (issueResolutions : Option (List IssueResolution)) (s : Store) :
    Except StoreFault (String × Store) := do
  reject (idempotencyKey = "") (.valueError "idempotency_key is required")
  let r ← s.run runId
  let revision := domainRevision.getD r.domainRevision
  let key : RevisionKey := ⟨runId, sourceVersion, revision⟩
  reject
    (r.sourceVersion ≠ sourceVersion ∨ revision ≠ r.domainRevision ∨ r.cancelRequested = true)
    (.invalidConfirmation
      "confirmation refers to a cancelled or replaced source/domain revision")
  s.assertAnalysisRevision runId r
  match validateIssueResolutions (s.pendingIssueIds key) issueResolutions with
  | .error _ => throw (.invalidConfirmation
      "confirmation must resolve exactly the pending semantic issues")
  | .ok resolutions =>
      let prior := s.priorConfirmations key idempotencyKey
      reject ((prior.all (confirmedAlike key checklistDigest resolutions)) = false)
        (.invalidConfirmation "confirmation key or checklist is stale")
      match prior.head? with
      | some row => return (row.2.commandId, s)
      | none =>
          reject (r.status ≠ .waitingConfirmation ∨ r.checklistDigest ≠ some checklistDigest)
            (.invalidConfirmation "run is not waiting for this checklist")
          let s1 := s.insertConfirmation key
            ⟨checklistDigest, idempotencyKey, commandId, resolutions⟩
          let s2 ← s1.reopenRun commandId key .resume
            ⟨some ⟨sourceVersion, revision, checklistDigest, resolutions⟩, none⟩
          return (commandId, s2)

/-!
# Cancellation and revision
-/

/-- What a request that replaces the work of a run does to its row. -/
def replaceRun (status : RunStatus) (sourceVersion domainRevision : Nat)
    (cancelRequested : Bool) (r : Run) : Run :=
  { r with
    sourceVersion := sourceVersion
    domainRevision := domainRevision
    status := status
    epoch := r.epoch + 1
    leaseUntil := none
    leaseCommandId := none
    cancelRequested := cancelRequested
    checklistDigest := none }

/-- Cancel what is under way. -/
def invalidate (s : Store) (runId reason : String) (f : Run -> Run) : Store :=
  ((s.setRun runId f).cancelCommands runId reason).abandonRequests runId

def cancel (runId : String) (s : Store) : Except StoreFault (Run × Store) := do
  let r ← s.run runId
  if r.cancelRequested = true then return (r, s)
  else
    let s1 := s.invalidate runId "cancel_requested"
      (replaceRun .cancelled r.sourceVersion r.domainRevision true)
    let r1 ← s1.run runId
    return (r1, s1)

/-- The source version a request key names. -/
def sourceOf (s : Store) (runId requestKey : String) : Option (Nat × SourceVersion) :=
  (s.sourceVersions.rows.find? fun row =>
    row.1.1 == runId && row.2.requestKey == requestKey).map fun row => (row.1.2, row.2)

/-- The revision a request key names. -/
def revisionOf (s : Store) (runId requestKey : String) : Option (RevisionKey × Revision) :=
  s.revisions.rows.find? fun row => row.1.runId == runId && row.2.requestKey == requestKey

/-- The source and domain revision a request was answered with. -/
structure Submitted where
  sourceVersion : Nat
  domainRevision : Nat
deriving DecidableEq

def revise (commandId runId : String) (manifestRef : Json) (requestKey : String) (s : Store) :
    Except StoreFault (Submitted × Store) := do
  reject (requestKey = "") (.valueError "request_key is required")
  let r ← s.run runId
  s.assertAnalysisRevision runId r
  match s.sourceOf runId requestKey with
  | some (sourceVersion, prior) =>
      reject (prior.manifestRef ≠ manifestRef)
        (.conflict "request_key already identifies a different source revision")
      return (⟨sourceVersion, 1⟩, s)
  | none =>
      match s.sourceVersions.lookup (runId, r.sourceVersion) with
      | none => throw .missingRow
      | some current =>
          reject (current.manifestRef = manifestRef)
            (.conflict ("source revision requires a changed manifest; " ++
              "use correct for requirement corrections"))
          let sourceVersion := r.sourceVersion + 1
          reject ((s.revisionOf runId requestKey).isSome = true)
            (.conflict "request_key already identifies a domain correction")
          let s1 := s.invalidate runId "source_revised"
            (replaceRun .pending sourceVersion 1 false)
          let s2 ← s1.insertSource runId sourceVersion requestKey manifestRef
          let (_, s3) ← s2.command commandId ⟨runId, sourceVersion, 1⟩ .start ⟨none, none⟩
          return (⟨sourceVersion, 1⟩, s3)

def artifactOf (s : Store) (key : RevisionKey) (stage scope : String) : Option Artifact :=
  s.artifacts.lookup ⟨key.runId, key.sourceVersion, key.domainRevision, stage, scope⟩

/-- Move the run to the next domain revision of its source. -/
def advance (s : Store) (commandId : String) (key : RevisionKey) (revision : Revision)
    (reason : String) : Except StoreFault (Submitted × Store) := do
  let next : RevisionKey := { key with domainRevision := key.domainRevision + 1 }
  reject (s.revisions.contains next = true) (.constraint "tender_analysis_revisions_pkey")
  let s1 := { s with revisions := s.revisions.insertNew next revision }
  let s2 := s1.invalidate key.runId reason
    (replaceRun .pending key.sourceVersion next.domainRevision false)
  let (_, s3) ← s2.command commandId next .start ⟨none, none⟩
  return (⟨next.sourceVersion, next.domainRevision⟩, s3)

/-- The run is at the revision a request was made for. -/
def atBaseline (r : Run) (key : RevisionKey) : Bool :=
  r.sourceVersion == key.sourceVersion && r.domainRevision == key.domainRevision &&
    !r.cancelRequested

def correct (commandId runId : String) (sourceVersion expectedRevision : Nat)
    (baseItemsDigest : String) (correctedItemsRef : Json) (requestKey reason : String)
    (s : Store) : Except StoreFault (Submitted × Store) := do
  reject (requestKey = "" ∨ isBlank reason = true ∨ expectedRevision < 1)
    (.valueError "correction requires a request key, reason, and positive expected revision")
  let key : RevisionKey := ⟨runId, sourceVersion, expectedRevision⟩
  let r ← s.run runId
  s.assertAnalysisRevision runId r
  match s.revisionOf runId requestKey with
  | some (priorKey, prior) =>
      reject
        (priorKey.sourceVersion ≠ sourceVersion ∨
          priorKey.domainRevision ≠ expectedRevision + 1 ∨
          prior.upstreamDigest ≠ baseItemsDigest ∨
          prior.correctedItemsRef ≠ some correctedItemsRef ∨ prior.reason ≠ reason)
        (.conflict "request_key already identifies a different correction")
      return (⟨sourceVersion, priorKey.domainRevision⟩, s)
  | none =>
      reject (atBaseline r key = false)
        (.conflict "correction baseline is stale or the run is cancelled")
      match s.artifactOf { key with domainRevision := 0 } "freeze" "",
        s.artifactOf key "extract" "" with
      | some _, some extracted =>
          reject (extracted.artifactRef.sha256 ≠ baseItemsDigest)
            (.conflict "items baseline digest does not match")
          match s.revisions.lookup key with
          | none => throw .missingRow
          | some previous =>
              s.advance commandId key
                ⟨requestKey, some correctedItemsRef, previous.scopeDecisionsRef,
                  baseItemsDigest, reason, none⟩ "domain_corrected"
      | _, _ => throw (.conflict
          "sources must be frozen and requirements extracted before correction")

def emptyObject : Json :=
  "\x7b\x7d"

def reviewScope (commandId runId : String) (sourceVersion expectedRevision : Nat)
    (basePlanDigest : String) (scopeDecisionsRef : Json) (requestKey reason : String)
    (s : Store) : Except StoreFault (Submitted × Store) := do
  reject
    (requestKey = "" ∨ isBlank reason = true ∨ expectedRevision < 1 ∨
      scopeDecisionsRef = emptyObject)
    (.valueError ("scope review requires decisions, a request key, reason, " ++
      "and positive expected revision"))
  let key : RevisionKey := ⟨runId, sourceVersion, expectedRevision⟩
  let r ← s.run runId
  s.assertAnalysisRevision runId r
  match s.revisionOf runId requestKey with
  | some (priorKey, prior) =>
      reject
        (priorKey.sourceVersion ≠ sourceVersion ∨
          priorKey.domainRevision ≠ expectedRevision + 1 ∨
          prior.upstreamDigest ≠ basePlanDigest ∨
          prior.scopeDecisionsRef ≠ some scopeDecisionsRef ∨
          prior.correctedItemsRef ≠ none ∨ prior.reason ≠ reason)
        (.conflict "request_key already identifies a different scope review")
      return (⟨sourceVersion, priorKey.domainRevision⟩, s)
  | none =>
      reject (atBaseline r key = false)
        (.conflict "scope review baseline is stale or the run is cancelled")
      match s.artifactOf { key with domainRevision := 0 } "freeze" "",
        s.artifactOf key "pack-plan" "" with
      | some _, some plan =>
          reject (basePlanDigest = "" ∨ plan.metadata.planDigest ≠ some basePlanDigest)
            (.conflict "pack plan baseline digest does not match")
          s.advance commandId key
            ⟨requestKey, none, some scopeDecisionsRef, basePlanDigest, reason, none⟩
            "scope_reviewed"
      | _, _ => throw (.conflict ("native sources must be frozen and the current pack plan " ++
          "committed before scope review"))

/-- `pin_execution_spec`: a revision is executed under one specification. -/
def pinExecutionSpec (lease : Lease) (spec : ExecutionSpec) (s : Store) :
    Except StoreFault Store := do
  reject (spec.hasCredentials = true)
    (.valueError "execution specification must not contain credentials")
  let _ ← s.assertFence lease
  match s.revisions.lookup lease.revisionKey with
  | none => throw .missingRow
  | some revision =>
      match revision.executionSpec with
      | some pinned =>
          reject (pinned ≠ spec)
            (.conflict "execution configuration changed within a domain revision")
          return s
      | none =>
          return { s with
            revisions := s.revisions.modify lease.revisionKey fun revision =>
              { revision with executionSpec := some spec } }

end Store

end Tender
end KnowledgeBrain
