import KnowledgeBrain.Foundation.Runs
import KnowledgeBrain.Tender.Revisions

/-!
# Artifacts and model requests

An artifact is committed once under its stage and scope.  A model request is
prepared before it is sent, and is sent at most once; the same digest is never
paid for twice in one revision.
-/

namespace KnowledgeBrain
namespace Tender

open Foundation

namespace Store

/-!
# Artifacts
-/

def sourceStages : List String :=
  ["register", "freeze", "freeze-document", "ocr", "source-spec"]

/-- Source stages are shared by all domain revisions. -/
def artifactKey (lease : Lease) (stage scope : String) : ArtifactKey :=
  ⟨lease.runId, lease.sourceVersion,
    if sourceStages.contains stage then 0 else lease.domainRevision, stage, scope⟩

def receipt (lease : Lease) (stage scope inputDigest : String) (s : Store) :
    Except StoreFault (Option Artifact) := do
  let _ ← s.assertFence lease
  let row := s.artifacts.lookup (artifactKey lease stage scope)
  reject ((row.any fun row => row.inputDigest != inputDigest) = true)
    (.conflict "artifact inputs changed within an immutable stage identity")
  return row

def insertArtifact (s : Store) (key : ArtifactKey) (artifactRef : ArtifactRef)
    (inputDigest : String) (metadata : ArtifactMetadata) (epoch : Nat) : Store :=
  { s with
    artifacts := s.artifacts.insertNew key ⟨artifactRef, inputDigest, metadata, epoch, s.now⟩ }

def commitArtifact (lease : Lease) (stage scope : String) (artifactRef : ArtifactRef)
    (inputDigest : String) (metadata : ArtifactMetadata) (s : Store) :
    Except StoreFault Store := do
  let _ ← s.assertFence lease
  let key := artifactKey lease stage scope
  match s.artifacts.lookup key with
  | some prior =>
      reject (prior.artifactRef ≠ artifactRef ∨ prior.inputDigest ≠ inputDigest)
        (.conflict "stage already committed different immutable content or inputs")
      return s
  | none => return s.insertArtifact key artifactRef inputDigest metadata lease.epoch

/-!
# Group attempts
-/

def inRevision (key : RevisionKey) (artifact : ArtifactKey) : Bool :=
  artifact.runId == key.runId && artifact.sourceVersion == key.sourceVersion &&
    artifact.domainRevision == key.domainRevision

def compareReceipts (a b : ArtifactKey × Artifact) : Ordering :=
  (compare a.2.committedAt b.2.committedAt).then
    ((compare a.1.stage b.1.stage).then (compare a.1.scope b.1.scope))

/-- `group_receipts`: the journal of one basis in the order of its commits. -/
def groupReceipts (lease : Lease) (basisDigest : String) (s : Store) :
    Except StoreFault (List (ArtifactKey × Artifact)) := do
  let _ ← s.assertFence lease
  return sortBy compareReceipts (s.artifacts.rows.filter fun row =>
    inRevision lease.revisionKey row.1 && row.2.metadata.groupBasisDigest == some basisDigest &&
      "model-group-".toList.isPrefixOf row.1.stage.toList)

def overlaps (keys keys' : List String) : Bool :=
  keys.any fun key => keys'.contains key

/-- The attempts of a revision. -/
def attemptsOf (s : Store) (key : RevisionKey) : List (ArtifactKey × Artifact) :=
  s.artifacts.rows.filter fun row =>
    inRevision key row.1 && row.1.stage == "model-group-attempt"

def hasOutcome (s : Store) (key : RevisionKey) (attemptId : String) : Bool :=
  (s.artifactOf key "model-group-outcome" attemptId).isSome

/-- The keys of an attempt; a row without them is an error. -/
def attemptKeys (row : ArtifactKey × Artifact) : List String :=
  row.2.metadata.groupWorkUnitKeys.getD []

def isMalformedAttempt (row : ArtifactKey × Artifact) : Bool :=
  row.2.metadata.groupWorkUnitKeys.isNone || row.2.metadata.commandId.isNone

/-- An attempt for one of the targets that has no outcome yet. -/
def openAttempt (s : Store) (key : RevisionKey) (workUnitKeys : List String) :
    Option (ArtifactKey × Artifact) :=
  (s.attemptsOf key).find? fun row =>
    overlaps workUnitKeys (attemptKeys row) && !s.hasOutcome key row.1.scope

/-- The attempts a command has made for one target. -/
def attemptCount (s : Store) (key : RevisionKey) (commandId workUnitKey : String) : Nat :=
  (s.attemptsOf key).countP fun row =>
    row.2.metadata.commandId == some commandId && (attemptKeys row).contains workUnitKey

/-- A sent request for one of the targets. -/
def activeSend (s : Store) (key : RevisionKey) (workUnitKeys : List String) :
    Option (String × ModelRequest) :=
  s.requests.rows.find? fun row =>
    ofRevision key row.2 && row.2.status == .sent &&
      row.2.metadata.groupWorkUnitKeys.any (overlaps workUnitKeys)

def attemptMetadata (basisDigest commandId : String) (workUnitKeys : List String) :
    ArtifactMetadata where
  planDigest := none
  groupBasisDigest := some basisDigest
  groupWorkUnitKeys := some workUnitKeys
  commandId := some commandId
  workUnitId := none
  groupAttemptId := none

def reserveGroupAttempt (lease : Lease) (attemptId : String) (artifactRef : ArtifactRef)
    (basisDigest : String) (workUnitKeys : List String) (s : Store) :
    Except StoreFault Store := do
  reject (workUnitKeys = [] ∨ ¬ workUnitKeys.Nodup)
    (.valueError "group attempt requires distinct logical targets")
  let _ ← s.assertFence lease
  let key := lease.revisionKey
  match s.artifactOf key "model-group-attempt" attemptId with
  | some prior =>
      reject (prior.artifactRef ≠ artifactRef ∨ prior.inputDigest ≠ basisDigest)
        (.conflict "group attempt already reserves different immutable inputs")
      return s
  | none =>
      reject ((s.attemptsOf key).any isMalformedAttempt = true) .missingRow
      match s.openAttempt key workUnitKeys with
      | some row => throw (.requestReplayBlocked row.1.scope .prepared)
      | none =>
          reject
            ((workUnitKeys.any fun k => 4 ≤ s.attemptCount key lease.commandId k) = true)
            (.modelWorkUnitExhausted .verify)
          match s.activeSend key workUnitKeys with
          | some (requestId, q) => throw (.requestReplayBlocked requestId q.status)
          | none =>
              return s.insertArtifact
                ⟨key.runId, key.sourceVersion, key.domainRevision, "model-group-attempt",
                  attemptId⟩ artifactRef basisDigest
                (attemptMetadata basisDigest lease.commandId workUnitKeys) lease.epoch

/-!
# Model requests
-/

/-- An empty attempt id counts as absent. -/
def groupAttemptOf (metadata : RequestMetadata) : Option String :=
  metadata.groupAttemptId.filter fun id => id != ""

def compareRequests (a b : String × ModelRequest) : Ordering :=
  (compare a.2.createdAt b.2.createdAt).then (compare a.1 b.1)

/-- `_matching_model_requests`: the requests of one digest that reached the provider. -/
def matchingModelRequests (s : Store) (key : RevisionKey) (task : Task) (digest : String) :
    List (String × ModelRequest) :=
  sortBy compareRequests (s.requests.rows.filter fun row =>
    ofRevision key row.2 && row.2.task == task && row.2.metadata.requestDigest == digest &&
      (row.2.status == .sent || row.2.status == .uncertain || row.2.status == .succeeded))

/-- `_reusable_source_requests`. -/
def reusableSourceRequests (s : Store) (runId : String) (sourceVersion : Nat) (task : Task)
    (digest : String) : List (String × ModelRequest) :=
  sortBy compareRequests (s.requests.rows.filter fun row =>
    row.2.runId == runId && row.2.sourceVersion == sourceVersion && row.2.task == task &&
      row.2.metadata.requestDigest == digest && row.2.status == .succeeded &&
      row.2.responseRef.isSome)

/-- An uncertain send of the same logical request may be tried again. -/
def retryable (logicalDigest : Option String) (row : String × ModelRequest) : Bool :=
  logicalDigest.isSome && row.2.status == .uncertain &&
    row.2.metadata.logicalRequestDigest == logicalDigest

/-- A group attempt's own request. -/
def groupRequest (s : Store) (key : RevisionKey) (attemptId : String) :
    Option (String × ModelRequest) :=
  (sortBy (fun a b => compare a.2.createdAt b.2.createdAt)
    (s.requests.rows.filter fun row =>
      ofRevision key row.2 && row.2.metadata.groupAttemptId == some attemptId)).head?

def newRequest (s : Store) (lease : Lease) (model : String) (task : Task)
    (metadata : RequestMetadata) : ModelRequest where
  runId := lease.runId
  sourceVersion := lease.sourceVersion
  domainRevision := lease.domainRevision
  epoch := lease.epoch
  model := model
  task := task
  status := .prepared
  metadata := metadata
  responseRef := none
  error := none
  createdAt := s.now
  sentAt := none
  finishedAt := none

def insertRequest (s : Store) (lease : Lease) (requestId model : String) (task : Task)
    (metadata : RequestMetadata) : Except StoreFault ((String × ModelRequest) × Store) := do
  reject (s.requests.contains requestId = true)
    (.constraint "tender_analysis_model_requests_pkey")
  let q := s.newRequest lease model task metadata
  return ((requestId, q), { s with requests := s.requests.insertNew requestId q })

/-- The request was sent and has no answer that could be reused. -/
def isUnanswered (row : String × ModelRequest) : Bool :=
  row.2.status == .sent || row.2.status == .uncertain || row.2.responseRef.isNone

/-- The part of `begin_request` that does not depend on a group attempt. -/
def prepareRequest (s : Store) (lease : Lease) (requestId model : String) (task : Task)
    (metadata : RequestMetadata) : Except StoreFault ((String × ModelRequest) × Store) := do
  let prior := s.matchingModelRequests lease.revisionKey task metadata.requestDigest
  let cached := prior.find? fun row => row.2.status == .succeeded && row.2.responseRef.isSome
  match metadata.logicalRequestDigest.isSome, cached with
  | true, some row => return (row, s)
  | _, _ =>
      let prior := prior.filter fun row => !retryable metadata.logicalRequestDigest row
      match prior.find? isUnanswered with
      | some (id, q) => throw (.requestReplayBlocked id q.status)
      | none =>
          match prior.head?.or
            (s.reusableSourceRequests lease.runId lease.sourceVersion task
              metadata.requestDigest).head? with
          | some row => return (row, s)
          | none => s.insertRequest lease requestId model task metadata

def beginRequest (lease : Lease) (requestId model : String) (task : Task)
    (given : RequestMetadata) (s : Store) :
    Except StoreFault ((String × ModelRequest) × Store) := do
  let metadata := { given with commandId := lease.commandId }
  reject (isSha256 metadata.requestDigest = false)
    (.valueError "model audit requires a lowercase SHA-256 request_digest")
  reject ((metadata.logicalRequestDigest.any fun digest => !isSha256 digest) = true)
    (.valueError "model audit requires a lowercase SHA-256 logical_request_digest")
  let _ ← s.assertFence lease
  match groupAttemptOf metadata with
  | none => s.prepareRequest lease requestId model task metadata
  | some attemptId =>
      match s.artifactOf lease.revisionKey "model-group-attempt" attemptId with
      | none => throw (.conflict "group request has no matching reserved attempt")
      | some attempt =>
          reject (attempt.metadata.groupWorkUnitKeys = none) .missingRow
          reject (attempt.metadata.groupWorkUnitKeys ≠ metadata.groupWorkUnitKeys)
            (.conflict "group request has no matching reserved attempt")
          match s.groupRequest lease.revisionKey attemptId with
          | some (id, previous) =>
              reject (previous.metadata.requestDigest ≠ metadata.requestDigest)
                (.conflict "a reserved group attempt cannot change its physical request")
              return ((id, previous), s)
          | none => s.prepareRequest lease requestId model task metadata

/-- The sends of one logical request that count against a command. -/
def logicalAttempts (s : Store) (q : ModelRequest) (logicalDigest : String) :
    List (String × ModelRequest) :=
  sortBy compareRequests (s.requests.rows.filter fun row =>
    ofRevision ⟨q.runId, q.sourceVersion, q.domainRevision⟩ row.2 && row.2.task == q.task &&
      row.2.metadata.logicalRequestDigest == some logicalDigest &&
      (row.2.sentAt.isSome || row.2.status == .sent || row.2.status == .uncertain))

/-- The limits on one logical request, whatever its digest. -/
def checkLogicalAttempts (s : Store) (q : ModelRequest) : Except StoreFault Unit := do
  match q.metadata.logicalRequestDigest, groupAttemptOf q.metadata with
  | some logicalDigest, none =>
      let attempts := s.logicalAttempts q logicalDigest
      match attempts.find? fun row => row.2.status == .sent with
      | some (id, attempt) => throw (.requestReplayBlocked id attempt.status)
      | none =>
          reject
            (4 ≤ attempts.countP fun row => row.2.metadata.commandId == q.metadata.commandId)
            (.modelWorkUnitExhausted q.task)
  | _, _ => return ()

/-- What must hold of a request that is about to be sent. -/
def checkSend (s : Store) (requestId : String) (q : ModelRequest) : Except StoreFault Unit := do
  let key : RevisionKey := ⟨q.runId, q.sourceVersion, q.domainRevision⟩
  let r ← s.run q.runId
  reject (r.cancelRequested = true) (.cancelled "run cancellation requested before model send")
  reject
    (r.sourceVersion ≠ q.sourceVersion ∨ r.domainRevision ≠ q.domainRevision ∨
      r.epoch ≠ q.epoch ∨ s.leaseLive r = false)
    (.staleExecution "model request belongs to a stale executor")
  reject (q.status ≠ .prepared) (.requestReplayBlocked requestId q.status)
  match s.activeSend key (q.metadata.groupWorkUnitKeys.getD []) with
  | some (id, active) => throw (.requestReplayBlocked id active.status)
  | none =>
      let prior := (s.matchingModelRequests key q.task q.metadata.requestDigest).filter
        fun row => !retryable q.metadata.logicalRequestDigest row
      match prior.head? with
      | some (id, row) => throw (.requestReplayBlocked id row.status)
      | none => s.checkLogicalAttempts q

/-- Only a send is checked against the other requests. -/
def checkTransition (s : Store) (requestId : String) (q : ModelRequest) (status : RequestStatus) :
    Except StoreFault Unit :=
  if status = .sent then s.checkSend requestId q else return ()

def finishRow (now : Time) (status : RequestStatus) (error : Option Json)
    (responseRef : Option ArtifactRef) (q : ModelRequest) : ModelRequest :=
  { q with
    status := status
    error := error
    responseRef := responseRef.or q.responseRef
    sentAt := if status = .sent then some (q.sentAt.getD now) else q.sentAt
    finishedAt := if status ≠ .sent then some now else q.finishedAt }

def attachResponse (responseRef : Option ArtifactRef) (q : ModelRequest) : ModelRequest :=
  { q with responseRef := q.responseRef.or responseRef }

def setRequest (s : Store) (requestId : String) (f : ModelRequest -> ModelRequest) : Store :=
  { s with requests := s.requests.modify requestId f }

def finishRequest (requestId : String) (status : RequestStatus) (error : Option Json)
    (responseRef : Option ArtifactRef) (s : Store) : Except StoreFault Store := do
  reject (status = .prepared) (.valueError "invalid model request status")
  match s.requests.lookup requestId with
  | none => throw (.storeError "model request not registered")
  | some q =>
      s.checkTransition requestId q status
      reject
        ((responseRef.any fun given => q.responseRef.any fun known => known != given) = true)
        (.conflict "model request already identifies a different immutable response")
      if q.status = .succeeded ∨ q.status = .failed then
        reject (q.status ≠ status) (.conflict "model request already finished")
        return s.setRequest requestId (attachResponse responseRef)
      else return s.setRequest requestId (finishRow s.now status error responseRef)

end Store

/-!
# The store as a state machine

Every method is one atomic step, at whatever time and from whatever caller: a
publisher that lost its claim, a worker whose lease is gone, a message
delivered twice.  Failure limits have their defaults.
-/

inductive Event where
  | tick (seconds : Nat)
  | submit (runId commandId : String) (manifestRef : Json) (requestKey : String)
  | claimCommands (limit claimSeconds redeliverSeconds : Nat) (tokens : String -> String)
  | markPublished (commandId claimToken : String)
  | publishFailed (commandId claimToken : String) (error : Option Json) (retryable : Bool)
  | acquire (runId commandId : String) (sourceVersion leaseSeconds : Nat)
  | heartbeat (lease : Lease) (leaseSeconds : Nat)
  | release (lease : Lease) (result : Release) (checklistDigest : Option String)
      (error : Option Json) (metadata : ReleaseMetadata)
  | retry (commandId runId : String) (sourceVersion domainRevision : Nat)
      (failedCommandId requestKey reason : String)
  | confirm (commandId runId : String) (sourceVersion : Nat)
      (checklistDigest idempotencyKey : String) (domainRevision : Option Nat)
      (issueResolutions : Option (List IssueResolution))
  | cancel (runId : String)
  | revise (commandId runId : String) (manifestRef : Json) (requestKey : String)
  | correct (commandId runId : String) (sourceVersion expectedRevision : Nat)
      (baseItemsDigest : String) (correctedItemsRef : Json) (requestKey reason : String)
  | reviewScope (commandId runId : String) (sourceVersion expectedRevision : Nat)
      (basePlanDigest : String) (scopeDecisionsRef : Json) (requestKey reason : String)
  | pinExecutionSpec (lease : Lease) (spec : ExecutionSpec)
  | commitArtifact (lease : Lease) (stage scope : String) (artifactRef : ArtifactRef)
      (inputDigest : String) (metadata : ArtifactMetadata)
  | reserveGroupAttempt (lease : Lease) (attemptId : String) (artifactRef : ArtifactRef)
      (basisDigest : String) (workUnitKeys : List String)
  | beginRequest (lease : Lease) (requestId model : String) (task : Task)
      (metadata : RequestMetadata)
  | finishRequest (requestId : String) (status : RequestStatus) (error : Option Json)
      (responseRef : Option ArtifactRef)

/-- Commit a transaction; a failed one is rolled back. -/
def commit (s : Store) (result : Except StoreFault Store) : Store :=
  match result with
  | .ok s' => s'
  | .error _ => s

section

variable {P : Store -> Prop} {s : Store}

theorem commit_cases {result : Except StoreFault Store} (hsame : P s)
    (h : forall s', result = .ok s' -> P s') : P (commit s result) := by
  cases result with
  | error e => exact hsame
  | ok s' => exact h s' rfl

theorem commit_snd_cases {A : Type} {result : Except StoreFault (A × Store)} (hsame : P s)
    (h : forall a s', result = .ok (a, s') -> P s') : P (commit s (result.map Prod.snd)) := by
  cases result with
  | error e => exact hsame
  | ok value => exact h value.1 value.2 rfl

end

/-- The default of `max_infrastructure_failures`. -/
def defaultFailureLimit : Nat := 4

def step : Event -> Store -> Store
  | .tick seconds, s => { s with now := s.now + seconds }
  | .submit runId commandId manifestRef requestKey, s =>
      commit s ((s.submit runId commandId manifestRef requestKey).map Prod.snd)
  | .claimCommands limit claimSeconds redeliverSeconds tokens, s =>
      commit s ((s.claimCommands limit claimSeconds redeliverSeconds tokens).map Prod.snd)
  | .markPublished commandId claimToken, s => (s.markPublished commandId claimToken).2
  | .publishFailed commandId claimToken error retryable, s =>
      commit s ((s.publishFailed defaultFailureLimit commandId claimToken error
        retryable).map Prod.snd)
  | .acquire runId commandId sourceVersion leaseSeconds, s =>
      commit s ((s.acquire runId commandId sourceVersion leaseSeconds).map Prod.snd)
  | .heartbeat lease leaseSeconds, s => commit s (s.heartbeat lease leaseSeconds)
  | .release lease result checklistDigest error metadata, s =>
      commit s (s.release defaultFailureLimit lease result checklistDigest error metadata)
  | .retry commandId runId sourceVersion domainRevision failedCommandId requestKey reason, s =>
      commit s ((s.retry commandId runId sourceVersion domainRevision failedCommandId requestKey
        reason).map Prod.snd)
  | .confirm commandId runId sourceVersion checklistDigest idempotencyKey domainRevision
      issueResolutions, s =>
      commit s ((s.confirm commandId runId sourceVersion checklistDigest idempotencyKey
        domainRevision issueResolutions).map Prod.snd)
  | .cancel runId, s => commit s ((s.cancel runId).map Prod.snd)
  | .revise commandId runId manifestRef requestKey, s =>
      commit s ((s.revise commandId runId manifestRef requestKey).map Prod.snd)
  | .correct commandId runId sourceVersion expectedRevision baseItemsDigest correctedItemsRef
      requestKey reason, s =>
      commit s ((s.correct commandId runId sourceVersion expectedRevision baseItemsDigest
        correctedItemsRef requestKey reason).map Prod.snd)
  | .reviewScope commandId runId sourceVersion expectedRevision basePlanDigest
      scopeDecisionsRef requestKey reason, s =>
      commit s ((s.reviewScope commandId runId sourceVersion expectedRevision basePlanDigest
        scopeDecisionsRef requestKey reason).map Prod.snd)
  | .pinExecutionSpec lease spec, s => commit s (s.pinExecutionSpec lease spec)
  | .commitArtifact lease stage scope artifactRef inputDigest metadata, s =>
      commit s (s.commitArtifact lease stage scope artifactRef inputDigest metadata)
  | .reserveGroupAttempt lease attemptId artifactRef basisDigest workUnitKeys, s =>
      commit s (s.reserveGroupAttempt lease attemptId artifactRef basisDigest workUnitKeys)
  | .beginRequest lease requestId model task metadata, s =>
      commit s ((s.beginRequest lease requestId model task metadata).map Prod.snd)
  | .finishRequest requestId status error responseRef, s =>
      commit s (s.finishRequest requestId status error responseRef)

/-- Any method may be called in any state. -/
def Anytime : Event -> Store -> Prop :=
  fun _ _ => True

/-- A store without runs. -/
structure Store.Fresh (s : Store) : Prop where
  runs : s.runs = Table.empty
  sourceVersions : s.sourceVersions = Table.empty
  revisions : s.revisions = Table.empty
  commands : s.commands = Table.empty
  artifacts : s.artifacts = Table.empty
  confirmations : s.confirmations = Table.empty
  requests : s.requests = Table.empty

end Tender
end KnowledgeBrain
