import KnowledgeBrain.Tender.Machine

/-!
# The authoring store

Authoring has its own executions, leases and model requests beside those of
the analysis it starts from.  An execution is one row; its receipts are a list
in that row.  The only row of the analysis that is read is the run an
execution was submitted for, and the clock is that of the one database.
-/

namespace KnowledgeBrain
namespace Authoring

open Foundation
open Tender (Json Time ArtifactRef RequestStatus)

inductive ExecutionStatus where
  | pending
  | running
  | succeeded
  | failed
  | cancelled
deriving DecidableEq

/-- `AUTHORING_MODEL_TASKS`. -/
inductive Task where
  | outline
  | authoringBasis
  | authoringWrite
  | authoringReview
  | authoringStructure
deriving DecidableEq

inductive Fault where
  | valueError (message : String)
  | storeError (message : String)
  | conflict (message : String)
  | staleExecution (message : String)
  | cancelled (message : String)
  | requestReplayBlocked (requestId : String) (status : RequestStatus)
  | modelWorkUnitExhausted (task : Task)
  | constraint (name : String)
deriving DecidableEq

/-!
# Rows
-/

/-- A validated `AuthoringInput`; only the run is looked at. -/
structure AuthoringInput where
  runId : String
  rest : Json
deriving DecidableEq

structure ExecutionSpec where
  settings : Json
  /-- A credential field occurs in it. -/
  hasCredentials : Bool
deriving DecidableEq

structure Receipt where
  stage : String
  scope : String
  inputDigest : String
  artifactRef : ArtifactRef
  epoch : Nat
  metadata : Json
deriving DecidableEq

structure Execution where
  authoringInput : AuthoringInput
  executionSpec : ExecutionSpec
  status : ExecutionStatus
  epoch : Nat
  leaseUntil : Option Time
  cancelRequested : Bool
  resultRef : Option ArtifactRef
  receipts : List Receipt
  error : Option Json
deriving DecidableEq

structure RequestMetadata where
  requestDigest : String
  logicalRequestDigest : String
  rest : Json
deriving DecidableEq

structure ModelRequest where
  executionId : String
  epoch : Nat
  model : String
  task : Task
  status : RequestStatus
  metadata : RequestMetadata
  usage : Option Json
  responseRef : Option ArtifactRef
  error : Option Json
  createdAt : Time
  sentAt : Option Time
  finishedAt : Option Time
deriving DecidableEq

structure Lease where
  executionId : String
  epoch : Nat
deriving DecidableEq

structure Store where
  executions : Table String Execution
  requests : Table String ModelRequest
  /-- The analysis store in the same database. -/
  analysis : Tender.Store

namespace Store

def now (s : Store) : Time :=
  s.analysis.now

/-- `lease_until > clock_timestamp()`. -/
def leaseLive (s : Store) (x : Execution) : Bool :=
  x.leaseUntil.any fun leaseUntil => s.now < leaseUntil

/-- `_execution`. -/
def execution (s : Store) (executionId : String) : Except Fault Execution :=
  match s.executions.lookup executionId with
  | none => throw (.storeError "authoring execution not found")
  | some x => return x

def setExecution (s : Store) (executionId : String) (f : Execution -> Execution) : Store :=
  { s with executions := s.executions.modify executionId f }

def setRequest (s : Store) (requestId : String) (f : ModelRequest -> ModelRequest) : Store :=
  { s with requests := s.requests.modify requestId f }

/-!
# Executions
-/

def newExecution (authoringInput : AuthoringInput) (executionSpec : ExecutionSpec) :
    Execution where
  authoringInput := authoringInput
  executionSpec := executionSpec
  status := .pending
  epoch := 0
  leaseUntil := none
  cancelRequested := false
  resultRef := none
  receipts := []
  error := none

def submit (executionId : String) (authoringInput : AuthoringInput)
    (executionSpec : ExecutionSpec) (s : Store) : Except Fault (Execution × Store) := do
  reject (executionId.toList.all isSpace = true) (.valueError "authoring execution_id is required")
  reject (executionSpec.hasCredentials = true)
    (.valueError "authoring execution specification must contain only non-secret configuration")
  let s1 := { s with executions :=
    s.executions.insertNew executionId (newExecution authoringInput executionSpec) }
  let x ← s1.execution executionId
  reject (x.authoringInput ≠ authoringInput ∨ x.executionSpec ≠ executionSpec)
    (.conflict "execution_id already identifies different authoring input or configuration")
  return (x, s1)

/-- `_abandon` for one row. -/
def abandonRequest (now : Time) (errorType : Json) (q : ModelRequest) : ModelRequest :=
  { q with
    status := if q.status = .sent then .uncertain else .failed
    finishedAt := some now
    error := some errorType }

/-- `_abandon`. -/
def abandon (s : Store) (executionId : String) (errorType : Json) (beforeEpoch : Option Nat) :
    Store :=
  { s with requests := s.requests.mapRows fun _ q =>
      if q.executionId = executionId ∧ (q.status = .prepared ∨ q.status = .sent) ∧
          (beforeEpoch.all fun epoch => q.epoch < epoch) = true then
        abandonRequest s.now errorType q
      else q }

def leaseExecution (epoch : Nat) (leaseUntil : Time) (x : Execution) : Execution :=
  { x with status := .running, epoch := epoch, leaseUntil := some leaseUntil }

def durationMessage : String :=
  "authoring lease duration must be finite and positive"

def acquire (executionId : String) (leaseSeconds : Nat) (s : Store) :
    Except Fault (Option Lease × Store) := do
  reject (leaseSeconds = 0) (.valueError durationMessage)
  let x ← s.execution executionId
  if x.cancelRequested = true ∨ x.status = .succeeded ∨ x.status = .cancelled ∨
      s.leaseLive x = true then
    return (none, s)
  else
    let epoch := x.epoch + 1
    let s1 := s.abandon executionId "\x7b\"type\":\"executor_lost\"\x7d" (some epoch)
    return (some ⟨executionId, epoch⟩,
      s1.setExecution executionId (leaseExecution epoch (s.now + leaseSeconds)))

def assertFence (s : Store) (lease : Lease) : Except Fault Execution := do
  let x ← s.execution lease.executionId
  reject (x.cancelRequested = true) (.cancelled "authoring cancellation requested")
  reject (x.epoch ≠ lease.epoch ∨ x.status ≠ .running ∨ s.leaseLive x = false)
    (.staleExecution "authoring execution lease expired or was replaced")
  return x

def heartbeat (lease : Lease) (leaseSeconds : Nat) (s : Store) : Except Fault Store := do
  reject (leaseSeconds = 0) (.valueError durationMessage)
  let _ ← s.assertFence lease
  return s.setExecution lease.executionId fun x =>
    { x with leaseUntil := some (s.now + leaseSeconds) }

/-- A result is only accepted while the analysis it is for is still wanted. -/
def checkParent (s : Store) (x : Execution) : Except Fault Unit :=
  match s.analysis.runs.lookup x.authoringInput.runId with
  | none => throw (.storeError "authoring parent analysis not found")
  | some parent =>
      reject (parent.cancelRequested = true ∨ parent.status = .cancelled)
        (.cancelled "parent analysis cancellation requested")

/-- Only a success asks for the analysis. -/
def checkResult (s : Store) (x : Execution) (status : ExecutionStatus) : Except Fault Unit :=
  if status = .succeeded then s.checkParent x else return ()

def finishExecution (status : ExecutionStatus) (resultRef : Option ArtifactRef)
    (error : Option Json) (x : Execution) : Execution :=
  { x with status := status, resultRef := resultRef, error := error, leaseUntil := none }

/-- `release`; a success carries its result. -/
def release (lease : Lease) (status : ExecutionStatus) (resultRef : Option ArtifactRef)
    (error : Option Json) (s : Store) : Except Fault Store := do
  reject (status ≠ .succeeded ∧ status ≠ .failed)
    (.valueError "invalid authoring execution result")
  reject (status = .succeeded ∧ resultRef = none) (.valueError "ArtifactRef")
  let x ← s.assertFence lease
  s.checkResult x status
  let s1 := s.abandon lease.executionId "\x7b\"type\":\"execution_finished\"\x7d" none
  return s1.setExecution lease.executionId
    (finishExecution status (if status = .succeeded then resultRef else none) error)

def cancelExecution (x : Execution) : Execution :=
  { x with status := .cancelled, cancelRequested := true, leaseUntil := none }

def cancel (executionId : String) (s : Store) : Except Fault Store := do
  let x ← s.execution executionId
  if x.status = .succeeded then return s
  else
    return (s.setExecution executionId cancelExecution).abandon executionId
      "\x7b\"type\":\"execution_cancelled\"\x7d" none

/-!
# Receipts
-/

def findReceipt (x : Execution) (stage scope : String) : Option Receipt :=
  x.receipts.find? fun r => r.stage == stage && r.scope == scope

def commitArtifact (lease : Lease) (stage scope : String) (artifactRef : ArtifactRef)
    (inputDigest : String) (metadata : Json) (s : Store) : Except Fault Store := do
  let x ← s.assertFence lease
  match findReceipt x stage scope with
  | some prior =>
      reject (prior.artifactRef ≠ artifactRef ∨ prior.inputDigest ≠ inputDigest)
        (.conflict "authoring artifact already committed different content or inputs")
      return s
  | none =>
      let receipt : Receipt := ⟨stage, scope, inputDigest, artifactRef, lease.epoch, metadata⟩
      return s.setExecution lease.executionId fun x =>
        { x with receipts := x.receipts ++ [receipt] }

/-!
# Model requests
-/

def compareRequests (a b : String × ModelRequest) : Ordering :=
  (compare a.2.createdAt b.2.createdAt).then (compare a.1 b.1)

/-- The requests of one logical request. -/
def matchingRequests (s : Store) (executionId : String) (task : Task) (logicalDigest : String) :
    List (String × ModelRequest) :=
  sortBy compareRequests (s.requests.rows.filter fun row =>
    row.2.executionId == executionId && row.2.task == task &&
      row.2.metadata.logicalRequestDigest == logicalDigest)

def newRequest (s : Store) (lease : Lease) (model : String) (task : Task)
    (metadata : RequestMetadata) : ModelRequest where
  executionId := lease.executionId
  epoch := lease.epoch
  model := model
  task := task
  status := .prepared
  metadata := metadata
  usage := none
  responseRef := none
  error := none
  createdAt := s.now
  sentAt := none
  finishedAt := none

def isSuccess (digest : String) (row : String × ModelRequest) : Bool :=
  row.2.status == .succeeded && row.2.metadata.requestDigest == digest

def beginRequest (lease : Lease) (requestId model : String) (task : Task)
    (metadata : RequestMetadata) (s : Store) :
    Except Fault ((String × ModelRequest) × Store) := do
  reject (Tender.Store.isSha256 metadata.requestDigest = false)
    (.valueError "authoring model audit requires a lowercase SHA-256 request_digest")
  reject (Tender.Store.isSha256 metadata.logicalRequestDigest = false)
    (.valueError "authoring model audit requires a lowercase SHA-256 logical_request_digest")
  let _ ← s.assertFence lease
  let matching := s.matchingRequests lease.executionId task metadata.logicalRequestDigest
  match matching.find? (isSuccess metadata.requestDigest) with
  | some cached => return (cached, s)
  | none =>
      match matching.find? fun row => row.2.status == .sent with
      | some (id, active) => throw (.requestReplayBlocked id active.status)
      | none =>
          reject (4 ≤ matching.countP fun row => row.2.sentAt.isSome)
            (.modelWorkUnitExhausted task)
          reject (s.requests.contains requestId = true)
            (.constraint "tender_authoring_model_requests_pkey")
          let q := s.newRequest lease model task metadata
          return ((requestId, q), { s with requests := s.requests.insertNew requestId q })

/-- What must hold of a request that is about to be sent. -/
def checkSend (s : Store) (requestId : String) (q : ModelRequest) : Except Fault Unit := do
  let _ ← s.assertFence ⟨q.executionId, q.epoch⟩
  reject (q.status ≠ .prepared) (.requestReplayBlocked requestId q.status)
  let matching := (s.matchingRequests q.executionId q.task
    q.metadata.logicalRequestDigest).filter fun row => row.2.sentAt.isSome
  match matching.find? fun row => row.2.status == .sent with
  | some (id, active) => throw (.requestReplayBlocked id active.status)
  | none =>
      match matching.find? (isSuccess q.metadata.requestDigest) with
      | some (id, cached) => throw (.requestReplayBlocked id cached.status)
      | none => reject (4 ≤ matching.length) (.modelWorkUnitExhausted q.task)

/-- Only a send is checked. -/
def checkTransition (s : Store) (requestId : String) (q : ModelRequest) (status : RequestStatus) :
    Except Fault Unit :=
  if status = .sent then s.checkSend requestId q else return ()

def isFinal (q : ModelRequest) : Bool :=
  q.status == .succeeded || q.status == .failed

/-- A report; what a final row says stays. -/
def report (now : Time) (status : RequestStatus) (usage error : Option Json)
    (responseRef : Option ArtifactRef) (q : ModelRequest) : ModelRequest :=
  { q with
    status := if isFinal q = true then q.status else status
    usage := q.usage.or usage
    responseRef := q.responseRef.or responseRef
    error := if isFinal q = true then q.error else error
    sentAt := if status = .sent then some (q.sentAt.getD now) else q.sentAt
    finishedAt := if status ≠ .sent then some (q.finishedAt.getD now) else q.finishedAt }

def finishRequest (requestId : String) (status : RequestStatus) (usage error : Option Json)
    (responseRef : Option ArtifactRef) (s : Store) : Except Fault Store := do
  reject (status = .prepared) (.valueError "invalid authoring model request status")
  match s.requests.lookup requestId with
  | none => throw (.storeError "authoring model request not registered")
  | some q =>
      let _ ← s.execution q.executionId
      s.checkTransition requestId q status
      reject
        ((q.responseRef.any fun known => responseRef.any fun given => known != given) = true)
        (.conflict "authoring model response cannot replace immutable received content")
      return s.setRequest requestId (report s.now status usage error responseRef)

end Store

/-!
# The store as a state machine
-/

inductive Event where
  /-- Time passes, or the analysis store is used. -/
  | analysis (event : Tender.Event)
  | submit (executionId : String) (authoringInput : AuthoringInput)
      (executionSpec : ExecutionSpec)
  | acquire (executionId : String) (leaseSeconds : Nat)
  | heartbeat (lease : Lease) (leaseSeconds : Nat)
  | release (lease : Lease) (status : ExecutionStatus) (resultRef : Option ArtifactRef)
      (error : Option Json)
  | cancel (executionId : String)
  | commitArtifact (lease : Lease) (stage scope : String) (artifactRef : ArtifactRef)
      (inputDigest : String) (metadata : Json)
  | beginRequest (lease : Lease) (requestId model : String) (task : Task)
      (metadata : RequestMetadata)
  | finishRequest (requestId : String) (status : RequestStatus) (usage error : Option Json)
      (responseRef : Option ArtifactRef)

/-- Commit a transaction; a failed one is rolled back. -/
def commit (s : Store) (result : Except Fault Store) : Store :=
  match result with
  | .ok s' => s'
  | .error _ => s

def step : Event -> Store -> Store
  | .analysis event, s => { s with analysis := Tender.step event s.analysis }
  | .submit executionId authoringInput executionSpec, s =>
      commit s ((s.submit executionId authoringInput executionSpec).map Prod.snd)
  | .acquire executionId leaseSeconds, s =>
      commit s ((s.acquire executionId leaseSeconds).map Prod.snd)
  | .heartbeat lease leaseSeconds, s => commit s (s.heartbeat lease leaseSeconds)
  | .release lease status resultRef error, s =>
      commit s (s.release lease status resultRef error)
  | .cancel executionId, s => commit s (s.cancel executionId)
  | .commitArtifact lease stage scope artifactRef inputDigest metadata, s =>
      commit s (s.commitArtifact lease stage scope artifactRef inputDigest metadata)
  | .beginRequest lease requestId model task metadata, s =>
      commit s ((s.beginRequest lease requestId model task metadata).map Prod.snd)
  | .finishRequest requestId status usage error responseRef, s =>
      commit s (s.finishRequest requestId status usage error responseRef)

/-- Any method may be called in any state, by whoever holds or has lost a lease. -/
def Anytime : Event -> Store -> Prop :=
  fun _ _ => True

/-- Nothing was submitted yet. -/
structure Store.Fresh (s : Store) : Prop where
  executions : s.executions = Table.empty
  requests : s.requests = Table.empty

end Authoring
end KnowledgeBrain
