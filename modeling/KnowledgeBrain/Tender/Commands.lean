import KnowledgeBrain.Foundation.Sorting
import KnowledgeBrain.Foundation.Searching

/-!
# The tables of a tender analysis

A run is a row that serialises everything done for it: a worker holds it by a
lease, and every write of the worker first checks the lease against the row.
Commands are what workers are asked to do; revisions are what they do it for.
JSON values that are only stored and compared are kept as their text.
-/

namespace KnowledgeBrain
namespace Tender

open Foundation

abbrev Time := Nat

/-- The text of a JSON value with sorted keys. -/
abbrev Json := String

inductive RunStatus where
  | pending
  | running
  | waitingConfirmation
  | analysisReady
  | responsePlanReady
  | blocked
  | failed
  | cancelled
deriving DecidableEq

inductive CommandStatus where
  | pending
  | claimed
  | published
  | running
  | completed
  | failed
  | cancelled
deriving DecidableEq

inductive RequestStatus where
  | prepared
  | sent
  | succeeded
  | failed
  | uncertain
deriving DecidableEq

inductive Task where
  | extract
  | verify
  | plan
  | ocr
deriving DecidableEq

inductive CommandKind where
  | start
  | resume
deriving DecidableEq

/-- The errors of the store's methods. -/
inductive StoreFault where
  | valueError (message : String)
  | storeError (message : String)
  | conflict (message : String)
  | invalidConfirmation (message : String)
  | staleExecution (message : String)
  | cancelled (message : String)
  | requestReplayBlocked (requestId : String) (status : RequestStatus)
  | modelWorkUnitExhausted (task : Task)
  | constraint (name : String)
  /-- A row that a query was expected to find. -/
  | missingRow
deriving DecidableEq

/-!
# Rows
-/

structure Run where
  requestKey : String
  sourceVersion : Nat
  domainRevision : Nat
  status : RunStatus
  epoch : Nat
  leaseUntil : Option Time
  leaseCommandId : Option String
  cancelRequested : Bool
  checklistDigest : Option String
deriving DecidableEq

structure SourceVersion where
  requestKey : String
  manifestRef : Json
deriving DecidableEq

/-- The part of an execution specification that the store looks into. -/
structure ExecutionSpec where
  workflowProtocol : Option Json
  settings : Json
  /-- A credential field occurs in it. -/
  hasCredentials : Bool
deriving DecidableEq

structure Revision where
  requestKey : String
  correctedItemsRef : Option Json
  scopeDecisionsRef : Option Json
  upstreamDigest : String
  reason : String
  executionSpec : Option ExecutionSpec
deriving DecidableEq

structure IssueResolution where
  issueId : String
  verdict : Json
deriving DecidableEq

structure RetryAudit where
  failedCommandId : String
  requestKey : String
  reason : String
deriving DecidableEq

structure ResumePayload where
  sourceVersion : Nat
  domainRevision : Nat
  checklistDigest : String
  issueResolutions : Option (List IssueResolution)
deriving DecidableEq

structure Payload where
  resume : Option ResumePayload
  retry : Option RetryAudit
deriving DecidableEq

/-- The outcome a finished command records. -/
structure Receipt where
  status : RunStatus
  phase : Option String
  epoch : Option Nat
  reason : Option String
  humanIssueIds : List String
deriving DecidableEq

structure Command where
  runId : String
  sourceVersion : Nat
  domainRevision : Nat
  kind : CommandKind
  payload : Payload
  status : CommandStatus
  claimToken : Option String
  claimUntil : Option Time
  publishedAt : Option Time
  completedAt : Option Time
  receipt : Option Receipt
  lastError : Option Json
  deliveryCount : Nat
  executionCount : Nat
  infrastructureFailures : Nat
  createdAt : Time
deriving DecidableEq

/-- A reference into the content-addressed artifact store. -/
structure ArtifactRef where
  sha256 : String
  rest : Json
deriving DecidableEq

/-- The metadata fields that a query reads. -/
structure ArtifactMetadata where
  planDigest : Option String
  groupBasisDigest : Option String
  groupWorkUnitKeys : Option (List String)
  commandId : Option String
  workUnitId : Option String
  groupAttemptId : Option String
deriving DecidableEq

structure ArtifactKey where
  runId : String
  sourceVersion : Nat
  domainRevision : Nat
  stage : String
  scope : String
deriving DecidableEq

structure Artifact where
  artifactRef : ArtifactRef
  inputDigest : String
  metadata : ArtifactMetadata
  epoch : Nat
  committedAt : Time
deriving DecidableEq

structure Confirmation where
  checklistDigest : String
  requestKey : String
  commandId : String
  issueResolutions : Option (List IssueResolution)
deriving DecidableEq

/-- The metadata fields of a model request that a query reads. -/
structure RequestMetadata where
  requestDigest : String
  logicalRequestDigest : Option String
  groupAttemptId : Option String
  groupWorkUnitKeys : Option (List String)
  commandId : String
deriving DecidableEq

structure ModelRequest where
  runId : String
  sourceVersion : Nat
  domainRevision : Nat
  epoch : Nat
  model : String
  task : Task
  status : RequestStatus
  metadata : RequestMetadata
  responseRef : Option ArtifactRef
  error : Option Json
  createdAt : Time
  sentAt : Option Time
  finishedAt : Option Time
deriving DecidableEq

structure RevisionKey where
  runId : String
  sourceVersion : Nat
  domainRevision : Nat
deriving DecidableEq

structure Store where
  now : Time
  runs : Table String Run
  sourceVersions : Table (String × Nat) SourceVersion
  revisions : Table RevisionKey Revision
  commands : Table String Command
  artifacts : Table ArtifactKey Artifact
  confirmations : Table RevisionKey Confirmation
  requests : Table String ModelRequest

/-- What a worker holds while it executes a command. -/
structure Lease where
  runId : String
  sourceVersion : Nat
  epoch : Nat
  commandId : String
  domainRevision : Nat
deriving DecidableEq

/-- The result a worker releases its lease with. -/
inductive Release where
  | retry
  | done (status : RunStatus)
deriving DecidableEq

structure ReleaseMetadata where
  blockingIssues : Nat
  humanIssueIds : List String
  reason : Option String
deriving DecidableEq

def Release.isResult : Release -> Bool
  | .retry => true
  | .done .waitingConfirmation => true
  | .done .analysisReady => true
  | .done .responsePlanReady => true
  | .done .blocked => true
  | .done .failed => true
  | .done _ => false

/-!
# Reading rows
-/

/-- The command is still to be finished. -/
def CommandStatus.isLive : CommandStatus -> Bool
  | .completed => false
  | .cancelled => false
  | _ => true

def RunStatus.isBusy : RunStatus -> Bool
  | .pending => true
  | .running => true
  | _ => false

/-- The revision a run is at. -/
def Run.revisionKey (r : Run) (runId : String) : RevisionKey :=
  ⟨runId, r.sourceVersion, r.domainRevision⟩

def Lease.revisionKey (lease : Lease) : RevisionKey :=
  ⟨lease.runId, lease.sourceVersion, lease.domainRevision⟩

def workflowProtocol : Json :=
  "\x7b\"normalization_version\":12,\"schema_version\":2," ++
    "\"stages\":[\"register\",\"freeze\",\"extract\",\"verify\",\"confirm\"]\x7d"

namespace Store

/-- `lease_until > clock_timestamp()`. -/
def leaseLive (s : Store) (r : Run) : Bool :=
  r.leaseUntil.any fun leaseUntil => s.now < leaseUntil

def run (s : Store) (runId : String) : Except StoreFault Run :=
  match s.runs.lookup runId with
  | none => throw (.storeError "run not found")
  | some r => return r

def setRun (s : Store) (runId : String) (f : Run -> Run) : Store :=
  { s with runs := s.runs.modify runId f }

def setCommand (s : Store) (commandId : String) (f : Command -> Command) : Store :=
  { s with commands := s.commands.modify commandId f }

def newCommand (s : Store) (key : RevisionKey) (kind : CommandKind) (payload : Payload) :
    Command where
  runId := key.runId
  sourceVersion := key.sourceVersion
  domainRevision := key.domainRevision
  kind := kind
  payload := payload
  status := .pending
  claimToken := none
  claimUntil := none
  publishedAt := none
  completedAt := none
  receipt := none
  lastError := none
  deliveryCount := 0
  executionCount := 0
  infrastructureFailures := 0
  createdAt := s.now

/-- `_command`: insert a pending command under a fresh id. -/
def command (s : Store) (commandId : String) (key : RevisionKey) (kind : CommandKind)
    (payload : Payload) : Except StoreFault (Command × Store) := do
  reject (s.commands.contains commandId = true) (.constraint "tender_analysis_commands_pkey")
  let command := s.newCommand key kind payload
  return (command, { s with commands := s.commands.insertNew commandId command })

/-!
# The protocol of a revision
-/

def speaksProtocol (spec : Option ExecutionSpec) : Bool :=
  spec.any fun spec => spec.workflowProtocol == some workflowProtocol

def hasSourceSpec (s : Store) (runId : String) (sourceVersion : Nat) : Bool :=
  s.artifacts.any fun key _ =>
    key.runId == runId && key.sourceVersion == sourceVersion && key.stage == "source-spec"

/-- Some revision of the source was pinned to the current protocol. -/
def sourceSpeaksProtocol (s : Store) (runId : String) (sourceVersion : Nat) : Bool :=
  s.revisions.any fun key revision =>
    key.runId == runId && key.sourceVersion == sourceVersion &&
      speaksProtocol revision.executionSpec

def legacyMessage : String :=
  "legacy six-stage revisions are read-only; submit a new analysis run"

/-- `_assert_analysis_revision`. -/
def assertAnalysisRevision (s : Store) (runId : String) (r : Run) : Except StoreFault Unit := do
  match s.revisions.lookup (r.revisionKey runId) with
  | none => throw .missingRow
  | some revision =>
      match revision.executionSpec with
      | some spec =>
          reject (spec.workflowProtocol ≠ some workflowProtocol) (.conflict legacyMessage)
      | none =>
          reject
            (s.hasSourceSpec runId r.sourceVersion = true ∧
              s.sourceSpeaksProtocol runId r.sourceVersion = false)
            (.conflict legacyMessage)

/-- `assert_fence`: the lease is the one the run is held by. -/
def assertFence (s : Store) (lease : Lease) : Except StoreFault Run := do
  let r ← s.run lease.runId
  reject (r.cancelRequested = true) (.cancelled "run cancellation requested")
  reject
    (r.sourceVersion ≠ lease.sourceVersion ∨ r.domainRevision ≠ lease.domainRevision ∨
      r.epoch ≠ lease.epoch ∨ r.leaseCommandId ≠ some lease.commandId ∨ s.leaseLive r = false)
    (.staleExecution "execution lease expired or was replaced")
  return r

end Store

/-!
# Submitting, dispatching and executing commands

Publication to the queue is separate from execution: a dispatcher claims a
command, publishes it and records the acknowledgement, while a worker acquires
the run whenever it gets hold of the message.  Any of them may be late.
-/

namespace Store

/-!
## Submission
-/

def newRun (requestKey : String) : Run where
  requestKey := requestKey
  sourceVersion := 1
  domainRevision := 1
  status := .pending
  epoch := 0
  leaseUntil := none
  leaseCommandId := none
  cancelRequested := false
  checklistDigest := none

def newRevision (requestKey : String) : Revision where
  requestKey := requestKey
  correctedItemsRef := none
  scopeDecisionsRef := none
  upstreamDigest := ""
  reason := ""
  executionSpec := none

/-- Insert the first revision of a source version. -/
def insertSource (s : Store) (runId : String) (sourceVersion : Nat) (requestKey : String)
    (manifestRef : Json) : Except StoreFault Store := do
  reject (s.sourceVersions.contains (runId, sourceVersion) = true)
    (.constraint "tender_analysis_source_versions_pkey")
  reject (s.revisions.contains ⟨runId, sourceVersion, 1⟩ = true)
    (.constraint "tender_analysis_revisions_pkey")
  return { s with
    sourceVersions := s.sourceVersions.insertNew (runId, sourceVersion) ⟨requestKey, manifestRef⟩
    revisions := s.revisions.insertNew ⟨runId, sourceVersion, 1⟩ (newRevision requestKey) }

/-- The run a request key names. -/
def runOf (s : Store) (requestKey : String) : Option (String × Run) :=
  s.runs.rows.find? fun row => row.2.requestKey == requestKey

def submit (runId commandId : String) (manifestRef : Json) (requestKey : String) (s : Store) :
    Except StoreFault (String × Store) := do
  reject (requestKey = "") (.valueError "request_key is required")
  match s.runOf requestKey with
  | some (existing, _) =>
      match s.sourceVersions.lookup (existing, 1) with
      | none => throw .missingRow
      | some source =>
          reject (source.manifestRef ≠ manifestRef)
            (.conflict "request_key already identifies a different submission")
          return (existing, s)
  | none =>
      reject (s.runs.contains runId = true) (.constraint "tender_analysis_runs_pkey")
      let s1 := { s with runs := s.runs.insertNew runId (newRun requestKey) }
      let s2 ← s1.insertSource runId 1 requestKey manifestRef
      let (_, s3) ← s2.command commandId ⟨runId, 1, 1⟩ .start ⟨none, none⟩
      return (runId, s3)

/-!
## Dispatch
-/

/-- The revision may be dispatched: it speaks the protocol, or may still be pinned to it. -/
def dispatchable (s : Store) (runId : String) (r : Run) (revision : Revision) : Bool :=
  speaksProtocol revision.executionSpec ||
    revision.executionSpec == none &&
      (!s.hasSourceSpec runId r.sourceVersion || s.sourceSpeaksProtocol runId r.sourceVersion)

/-- The command waits for a publisher, or its last one was lost. -/
def due (s : Store) (redeliverSeconds : Nat) (c : Command) : Bool :=
  match c.status with
  | .pending => true
  | .claimed => c.claimUntil.any fun claimUntil => claimUntil ≤ s.now
  | .published => c.publishedAt.any fun publishedAt => publishedAt + redeliverSeconds ≤ s.now
  | .running => true
  | _ => false

def claimable (s : Store) (redeliverSeconds : Nat) (c : Command) : Bool :=
  (s.runs.lookup c.runId).any fun r =>
    (s.revisions.lookup (r.revisionKey c.runId)).any fun revision =>
      c.sourceVersion == r.sourceVersion && c.domainRevision == r.domainRevision &&
        !r.cancelRequested && s.dispatchable c.runId r revision && !s.leaseLive r &&
        s.due redeliverSeconds c

def claimCommand (token : String) (claimUntil : Time) (c : Command) : Command :=
  { c with
    status := .claimed
    claimToken := some token
    claimUntil := some claimUntil
    deliveryCount := c.deliveryCount + 1 }

/-- `claim_commands`; `tokens` gives the fresh token of every claim. -/
def claimCommands (limit claimSeconds redeliverSeconds : Nat) (tokens : String -> String)
    (s : Store) : Except StoreFault (List String × Store) := do
  reject (limit < 1 ∨ claimSeconds = 0 ∨ redeliverSeconds = 0)
    (.valueError "dispatch limits and intervals must be positive")
  let rows := (sortBy (fun a b => compare a.2.createdAt b.2.createdAt)
    (s.commands.rows.filter fun row => s.claimable redeliverSeconds row.2)).take limit
  let claimed := rows.foldl
    (fun s row => s.setCommand row.1 (claimCommand (tokens row.1) (s.now + claimSeconds))) s
  return (rows.map Prod.fst, claimed)

def publishCommand (now : Time) (c : Command) : Command :=
  if c.status = .claimed ∧ (c.claimUntil.any fun claimUntil => now < claimUntil) = true then
    { c with status := .published, publishedAt := some now }
  else c

def markPublished (commandId claimToken : String) (s : Store) : Bool × Store :=
  match s.commands.lookup commandId with
  | none => (false, s)
  | some c =>
      if c.claimToken ≠ some claimToken then (false, s)
      else if c.status = .published ∨ c.status = .running ∨ c.status = .completed then (true, s)
      else
        ((publishCommand s.now c).status == .published,
          s.setCommand commandId (publishCommand s.now))

def publishReceipt (retryable : Bool) : Receipt where
  status := .failed
  phase := some "publish"
  epoch := none
  reason := some (if retryable then "infrastructure_retries_exhausted" else "publish_rejected")
  humanIssueIds := []

/-- The command after a failed publication. -/
def failPublication (now : Time) (error : Option Json) (retryable terminal : Bool)
    (failures : Nat) (c : Command) : Command :=
  { c with
    status := if terminal then .completed else .pending
    claimToken := none
    claimUntil := none
    lastError := error
    infrastructureFailures := failures
    receipt := if terminal then some (publishReceipt retryable) else none
    completedAt := if terminal then some now else none }

/-- A rejected publication does not count as a failure of the infrastructure. -/
def publicationFailures (retryable : Bool) (c : Command) : Nat :=
  c.infrastructureFailures + if retryable then 1 else 0

def publishFailed (maxInfrastructureFailures : Nat) (commandId claimToken : String)
    (error : Option Json) (retryable : Bool) (s : Store) : Except StoreFault (Bool × Store) := do
  reject (maxInfrastructureFailures < 1)
    (.valueError "max_infrastructure_failures must be positive")
  match s.commands.lookup commandId with
  | none => return (false, s)
  | some c =>
      let _ ← s.run c.runId
      if c.status ≠ .claimed ∨ c.claimToken ≠ some claimToken then return (false, s)
      else
        let failures := publicationFailures retryable c
        let terminal := !retryable || decide (maxInfrastructureFailures ≤ failures)
        let s1 := s.setCommand commandId (failPublication s.now error retryable terminal failures)
        if terminal then
          return (true, s1.setRun c.runId fun r => { r with status := .failed })
        else return (true, s1)

/-!
## Execution
-/

/-- A lost executor's requests: a sent one may have been billed. -/
def loseRequest (now : Time) (error : Json) (q : ModelRequest) : ModelRequest :=
  { q with
    status := if q.status = .sent then .uncertain else .failed
    finishedAt := some now
    error := some error }

def executorLost : Json :=
  "\x7b\"type\":\"executor_lost\"\x7d"

def runInvalidated : Json :=
  "\x7b\"type\":\"run_invalidated\"\x7d"

def isOpenRequest (q : ModelRequest) : Bool :=
  q.status == .prepared || q.status == .sent

/-- Give up the open requests of earlier executors of a source version. -/
def loseRequests (s : Store) (runId : String) (sourceVersion epoch : Nat) : Store :=
  { s with
    requests := s.requests.mapRows fun _ q =>
      if (q.runId == runId && q.sourceVersion == sourceVersion && decide (q.epoch < epoch) &&
          isOpenRequest q) = true then loseRequest s.now executorLost q
      else q }

def exhaustedReceipt (epoch : Nat) : Receipt where
  status := .failed
  phase := none
  epoch := some epoch
  reason := some "infrastructure_retries_exhausted"
  humanIssueIds := []

/-- The run without its lease, in a new status. -/
def settleRun (status : RunStatus) (r : Run) : Run :=
  { r with status := status, leaseUntil := none, leaseCommandId := none }

def exhaustCommand (now : Time) (epoch failures : Nat) (c : Command) : Command :=
  { c with
    infrastructureFailures := failures
    lastError := some executorLost
    status := .completed
    completedAt := some now
    receipt := some (exhaustedReceipt epoch) }

def countLoss (failures : Nat) (c : Command) : Command :=
  { c with infrastructureFailures := failures, lastError := some executorLost }

def startCommand (c : Command) : Command :=
  { c with status := .running, executionCount := c.executionCount + 1 }

def leaseRun (commandId : String) (leaseUntil : Time) (r : Run) : Run :=
  { r with
    status := .running
    epoch := r.epoch + 1
    leaseCommandId := some commandId
    leaseUntil := some leaseUntil }

/-- Take the lease of a run. -/
def grantLease (s : Store) (runId commandId : String) (leaseSeconds : Nat) : Store :=
  (s.setRun runId (leaseRun commandId (s.now + leaseSeconds))).setCommand commandId startCommand

def acquire (runId commandId : String) (sourceVersion leaseSeconds : Nat) (s : Store) :
    Except StoreFault (Option Lease × Store) := do
  reject (leaseSeconds = 0) (.valueError "lease_seconds must be positive")
  let r ← s.run runId
  if r.sourceVersion ≠ sourceVersion ∨ r.cancelRequested = true ∨ s.leaseLive r = true then
    return (none, s)
  else
    match s.commands.lookup commandId with
    | none => return (none, s)
    | some c =>
        if c.runId ≠ runId ∨ c.sourceVersion ≠ sourceVersion ∨
            c.domainRevision ≠ r.domainRevision ∨ c.status.isLive = false then
          return (none, s)
        else
          s.assertAnalysisRevision runId r
          let epoch := r.epoch + 1
          let lease : Lease := ⟨runId, sourceVersion, epoch, commandId, c.domainRevision⟩
          let s1 := s.loseRequests runId sourceVersion epoch
          -- The expired lease names the executor that was lost, whatever the status says.
          if r.leaseCommandId = some commandId then
            let failures := max (c.infrastructureFailures + 1) c.executionCount
            if 4 ≤ failures then
              return (none, (s1.setCommand commandId (exhaustCommand s.now r.epoch failures)).setRun
                runId (settleRun .failed))
            else
              return (some lease,
                (s1.setCommand commandId (countLoss failures)).grantLease runId commandId
                  leaseSeconds)
          else return (some lease, s1.grantLease runId commandId leaseSeconds)

def heartbeat (lease : Lease) (leaseSeconds : Nat) (s : Store) : Except StoreFault Store := do
  reject (leaseSeconds = 0) (.valueError "lease_seconds must be positive")
  let _ ← s.assertFence lease
  return s.setRun lease.runId fun r => { r with leaseUntil := some (s.now + leaseSeconds) }

def releaseReceipt (status : RunStatus) (epoch : Nat) (metadata : ReleaseMetadata) : Receipt where
  status := status
  phase := none
  epoch := some epoch
  reason := metadata.reason
  humanIssueIds := metadata.humanIssueIds

def completeCommand (now : Time) (receipt : Receipt) (error : Option Json) (c : Command) :
    Command :=
  { c with
    status := .completed
    completedAt := some now
    receipt := some receipt
    lastError := error }

def reopenCommand (error : Option Json) (c : Command) : Command :=
  { c with
    status := .pending
    claimToken := none
    claimUntil := none
    publishedAt := none
    lastError := error }

def countFailure (c : Command) : Command :=
  { c with infrastructureFailures := c.infrastructureFailures + 1 }

/-- The run after its worker let go of it. -/
def releaseRun (status : RunStatus) (checklistDigest : Option String) (r : Run) : Run :=
  { settleRun status r with checklistDigest := checklistDigest.or r.checklistDigest }

/-- Record a result and let go of the run. -/
def finishExecution (s : Store) (lease : Lease) (status : RunStatus)
    (checklistDigest : Option String) (error : Option Json) (metadata : ReleaseMetadata) : Store :=
  (s.setCommand lease.commandId
      (completeCommand s.now (releaseReceipt status lease.epoch metadata) error)).setRun
    lease.runId (releaseRun status checklistDigest)

def release (maxInfrastructureFailures : Nat) (lease : Lease) (result : Release)
    (checklistDigest : Option String) (error : Option Json) (metadata : ReleaseMetadata)
    (s : Store) : Except StoreFault Store := do
  reject (result.isResult = false) (.valueError "invalid execution result")
  reject (maxInfrastructureFailures < 1)
    (.valueError "max_infrastructure_failures must be positive")
  reject
    (result = .done .waitingConfirmation ∧
      (checklistDigest = none ∨ checklistDigest = some "" ∨ metadata.blockingIssues ≠ 0))
    (.invalidConfirmation "only an unblocked checklist may wait for confirmation")
  let _ ← s.assertFence lease
  match result with
  | .done status => return s.finishExecution lease status checklistDigest error metadata
  | .retry =>
      match s.commands.lookup lease.commandId with
      | none => throw .missingRow
      | some c =>
          let s1 := s.setCommand lease.commandId countFailure
          if maxInfrastructureFailures ≤ c.infrastructureFailures + 1 then
            return s1.finishExecution lease .failed checklistDigest error
              { metadata with reason := some "infrastructure_retries_exhausted" }
          else
            return (s1.setCommand lease.commandId (reopenCommand error)).setRun lease.runId
              (releaseRun .pending checklistDigest)

end Store

end Tender
end KnowledgeBrain
