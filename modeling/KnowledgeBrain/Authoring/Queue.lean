import KnowledgeBrain.Authoring.Accounting

/-!
# The queue of authoring jobs

A job is the row the service queues for one execution.  Messages carry its
identity to workers; each worker reads the row, runs the execution under a
lease of the authoring store and writes the outcome back.  Every transaction
is one step, and between the steps of one worker anything may happen: other
deliveries, commands, expiry of the lease, a crash.
-/

namespace KnowledgeBrain
namespace Authoring

open Foundation
open Tender (Json Time ArtifactRef)

inductive JobStatus where
  | pending
  | published
  | succeeded
  | failed
  | cancelled
deriving DecidableEq

/-- A row of `tender_authoring_jobs`. -/
structure Job where
  status : JobStatus
  claimUntil : Option Time
  resumeKeys : List String
  error : Option Json
deriving DecidableEq

/-- The row that `start_authoring` inserts. -/
def newJob : Job :=
  ⟨.pending, none, [], none⟩

/-- Where a delivery is in `execute_authoring_job`. -/
inductive Phase where
  | started
  | submitted
  /-- `acquire` returned no lease. -/
  | refused
  /-- The execution of another worker has succeeded. -/
  | found
  | working
  /-- The owner of a lease has failed and releases it. -/
  | failing
  /-- The work was given up because the job is cancelled. -/
  | leaving
  /-- An exception has arrived in the worker. -/
  | raised
  /-- No sibling was seen at work. -/
  | reporting
  | returned
  | ended
deriving DecidableEq

/-- `wait_for_cancellation`. -/
inductive Watch where
  | watching
  | seen
  | done
deriving DecidableEq

structure Worker where
  /-- The row as it was delivered. -/
  job : Job
  lease : Option Lease
  phase : Phase
  watch : Watch
  error : Option Json
deriving DecidableEq

def newWorker (job : Job) : Worker :=
  ⟨job, none, .started, .watching, none⟩

/-- A call of `update_job`, with the execution it has read. -/
inductive Command where
  | cancelling (execution : Option Execution)
  /-- The execution is cancelled, the job is not yet. -/
  | stored
  | resuming (key : String) (execution : Option Execution)
  | answered

structure Queue where
  store : Store
  job : Option Job
  projectOpen : Bool
  workers : Table Nat Worker
  commands : Table Nat Command
  /-- Batches of the dispatcher whose message is not sent yet. -/
  claimed : Nat
  /-- Batches whose message could not be sent. -/
  unsent : Nat
  messages : Nat

namespace Queue

variable (executionId : String)

def execution (s : Queue) : Option Execution :=
  s.store.executions.lookup executionId

def change (s : Queue) (event : Authoring.Event) : Queue :=
  { s with store := Authoring.step event s.store }

def setJob (s : Queue) (f : Job -> Job) : Queue :=
  { s with job := s.job.map f }

def setWorker (s : Queue) (w : Nat) (f : Worker -> Worker) : Queue :=
  { s with workers := s.workers.modify w f }

def setPhase (s : Queue) (w : Nat) (phase : Phase) : Queue :=
  s.setWorker w fun worker => { worker with phase := phase }

def setCommand (s : Queue) (c : Nat) (command : Command) : Queue :=
  { s with commands := s.commands.modify c fun _ => command }

/-!
# Commands
-/

/-- The last transaction of `start_authoring`; a row that exists stays. -/
def start (s : Queue) : Queue :=
  if s.projectOpen = true then { s with job := some (s.job.getD newJob) } else s

/-- `update_job` has read the job and its execution. -/
def readForCancel (c : Nat) (s : Queue) : Queue :=
  match s.job with
  | none => s
  | some _ =>
      { s with commands := s.commands.insertNew c (.cancelling (s.execution executionId)) }

def readForResume (c : Nat) (key : String) (s : Queue) : Queue :=
  match s.job with
  | none => s
  | some _ =>
      { s with commands := s.commands.insertNew c (.resuming key (s.execution executionId)) }

/-- An execution that was read as succeeded ends the command. -/
def storeCancel (c : Nat) (s : Queue) : Queue :=
  match s.commands.lookup c with
  | some (.cancelling (some x)) =>
      (s.change (.cancel executionId)).setCommand c
        (if x.status = ExecutionStatus.succeeded then .answered else .stored)
  | _ => s

/-- `WHERE status<>'succeeded'`. -/
def cancelJob (job : Job) : Job :=
  if job.status ≠ .succeeded then { job with status := .cancelled } else job

def markCancelled (c : Nat) (s : Queue) : Queue :=
  match s.commands.lookup c with
  | some (.cancelling none) => (s.setJob cancelJob).setCommand c .answered
  | some .stored => (s.setJob cancelJob).setCommand c .answered
  | _ => s

/-- What a resume makes of the row; `Conflict` leaves it. -/
def resumeJob (key : String) (execution : Option Execution) (current : Job) : Job :=
  if key ∈ current.resumeKeys then current
  else if current.status = .cancelled ∨ (execution.any Execution.cancelRequested) = true then
    current
  else if current.status = .succeeded then current
  else ⟨.pending, none, current.resumeKeys ++ [key], none⟩

def resume (c : Nat) (s : Queue) : Queue :=
  match s.commands.lookup c with
  | some (.resuming key execution) =>
      if s.projectOpen = true then
        (s.setJob (resumeJob key execution)).setCommand c .answered
      else s.setCommand c .answered
  | _ => s

/-!
# The dispatcher
-/

/-- The row is in the batch of `dispatch_authoring`. -/
def isDue (s : Queue) (job : Job) : Bool :=
  (job.status == .pending ||
    (job.status == .published && job.claimUntil.any fun claimUntil => claimUntil < s.store.now)) &&
  (s.execution executionId).all fun x =>
    x.status != .succeeded && x.status != .cancelled &&
      x.leaseUntil.all fun leaseUntil => leaseUntil < s.store.now

def publish (redeliverSeconds : Nat) (s : Queue) : Queue :=
  match s.job with
  | none => s
  | some job =>
      if s.isDue executionId job = true then
        { s with
          job := some { job with
            status := .published
            claimUntil := some (s.store.now + redeliverSeconds) }
          claimed := s.claimed + 1 }
      else s

def send (s : Queue) : Queue :=
  if s.claimed = 0 then s
  else { s with claimed := s.claimed - 1, messages := s.messages + 1 }

/-- A send may fail although its message arrived. -/
def sendFails (arrived : Bool) (s : Queue) : Queue :=
  if s.claimed = 0 then s
  else
    { s with
      claimed := s.claimed - 1
      unsent := s.unsent + 1
      messages := if arrived = true then s.messages + 1 else s.messages }

/-- `WHERE status='published'`. -/
def unpublishJob (job : Job) : Job :=
  if job.status = .published then { job with status := .pending, claimUntil := none } else job

def unpublish (s : Queue) : Queue :=
  if s.unsent = 0 then s else { s.setJob unpublishJob with unsent := s.unsent - 1 }

/-!
# Workers
-/

/-- A message may be delivered any number of times. -/
def deliver (w : Nat) (s : Queue) : Queue :=
  match s.job with
  | none => s
  | some job =>
      if s.messages = 0 ∨ job.status = .succeeded ∨ job.status = .cancelled then s
      else { s with workers := s.workers.insertNew w (newWorker job) }

/-- The worker is in one of the phases. -/
def during (w : Nat) (phases : List Phase) (f : Worker -> Queue) (s : Queue) : Queue :=
  match s.workers.lookup w with
  | none => s
  | some worker => if worker.phase ∈ phases then f worker else s

/-- An exception anywhere before the outcome is written. -/
def raise (w : Nat) (error : Json) (s : Queue) : Queue :=
  s.during w [.started, .submitted, .refused, .found, .working, .returned] fun worker =>
    s.setWorker w fun worker' => { worker' with
      phase := if worker.phase = .working then .failing else .raised
      error := some error }

def submit (w : Nat) (authoringInput : AuthoringInput) (executionSpec : ExecutionSpec)
    (s : Queue) : Queue :=
  s.during w [.started] fun _ =>
    match s.store.submit executionId authoringInput executionSpec with
    | .error _ => s
    | .ok (_, store) => { s with store := store }.setPhase w .submitted

def acquire (w : Nat) (leaseSeconds : Nat) (s : Queue) : Queue :=
  s.during w [.submitted] fun _ =>
    match s.store.acquire executionId leaseSeconds with
    | .error _ => s
    | .ok (none, _) => s.setPhase w .refused
    | .ok (some lease, store) =>
        { s with store := store }.setWorker w fun worker =>
          { worker with lease := some lease, phase := .working }

/-- What a worker without a lease makes of the execution. -/
def lookup (w : Nat) (s : Queue) : Queue :=
  s.during w [.refused] fun _ =>
    match s.execution executionId with
    | none => s
    | some saved =>
        if saved.cancelRequested = true then
          s.setWorker w fun worker =>
            { worker with phase := .raised, error := some "\x7b\"type\":\"Cancelled\"\x7d" }
        else if saved.status ≠ .succeeded then
          s.setWorker w fun worker =>
            { worker with phase := .raised, error := some "\x7b\"type\":\"Conflict\"\x7d" }
        else s.setPhase w .found

/-- The stored result was read and belongs to the input. -/
def returnSaved (w : Nat) (s : Queue) : Queue :=
  s.during w [.found] fun _ => s.setPhase w .returned

def release (w : Nat) (resultRef : ArtifactRef) (s : Queue) : Queue :=
  s.during w [.working] fun worker =>
    match worker.lease with
    | none => s
    | some lease =>
        match s.store.release lease .succeeded (some resultRef) none with
        | .error _ => s
        | .ok store => { s with store := store }.setPhase w .returned

/-- What the release of a failure says is suppressed. -/
def releaseFailed (w : Nat) (s : Queue) : Queue :=
  s.during w [.failing, .leaving] fun worker =>
    match worker.lease with
    | none => s
    | some lease =>
        (s.change (.release lease .failed none worker.error)).setPhase w
          (if worker.phase = .failing then Phase.raised else .ended)

/-- A sibling that is at work keeps the outcome to itself. -/
def check (w : Nat) (s : Queue) : Queue :=
  s.during w [.raised] fun _ =>
    match s.execution executionId with
    | none => s.setPhase w .reporting
    | some x =>
        if x.status = .running ∧ s.store.leaseLive x = true then s.setPhase w .ended
        else s.setPhase w .reporting

/-- `WHERE status<>'cancelled'`. -/
def failJob (error : Option Json) (job : Job) : Job :=
  if job.status ≠ .cancelled then
    { job with status := .failed, error := error, claimUntil := none }
  else job

def report (w : Nat) (s : Queue) : Queue :=
  s.during w [.reporting] fun worker =>
    (s.setJob (failJob worker.error)).setPhase w .ended

/-- `WHERE status<>'cancelled'`. -/
def succeedJob (job : Job) : Job :=
  if job.status ≠ .cancelled then
    { job with status := .succeeded, error := none, claimUntil := none }
  else job

def succeed (w : Nat) (s : Queue) : Queue :=
  s.during w [.returned] fun _ => (s.setJob succeedJob).setPhase w .ended

/-- The phases in which the work and its watch run beside each other. -/
def beside : List Phase :=
  [.started, .submitted, .refused, .found, .working, .failing, .returned]

def watch (w : Nat) (s : Queue) : Queue :=
  s.during w beside fun worker =>
    if worker.watch = .watching ∧ (s.job.any fun job => job.status == .cancelled) = true then
      s.setWorker w fun worker => { worker with watch := .seen }
    else s

def watchCancel (w : Nat) (s : Queue) : Queue :=
  s.during w beside fun worker =>
    if worker.watch = .seen then
      (s.change (.cancel executionId)).setWorker w fun worker => { worker with watch := .done }
    else s

def withdraw (w : Nat) (s : Queue) : Queue :=
  s.during w beside fun worker =>
    if worker.watch = .done then
      s.setPhase w (if worker.lease.isSome = true then .leaving else .ended)
    else s

def crash (w : Nat) (s : Queue) : Queue :=
  s.setPhase w .ended

/-!
# The queue as a state machine
-/

/-- The execution of the job is only driven by the job's own workers and commands. -/
def drives : Authoring.Event -> Bool
  | .submit id _ _ => id == executionId
  | .acquire id _ => id == executionId
  | .release lease _ _ _ => lease.executionId == executionId
  | .cancel id => id == executionId
  | _ => false

inductive Event where
  /-- Heartbeats, receipts, requests, time, other executions. -/
  | store (event : Authoring.Event)
  | start
  | endProject
  | readForCancel (c : Nat)
  | storeCancel (c : Nat)
  | markCancelled (c : Nat)
  | readForResume (c : Nat) (key : String)
  | resume (c : Nat)
  | publish (redeliverSeconds : Nat)
  | send
  | sendFails (arrived : Bool)
  | unpublish
  | deliver (w : Nat)
  | raise (w : Nat) (error : Json)
  | submit (w : Nat) (authoringInput : AuthoringInput) (executionSpec : ExecutionSpec)
  | acquire (w : Nat) (leaseSeconds : Nat)
  | lookup (w : Nat)
  | returnSaved (w : Nat)
  | release (w : Nat) (resultRef : ArtifactRef)
  | releaseFailed (w : Nat)
  | check (w : Nat)
  | report (w : Nat)
  | succeed (w : Nat)
  | watch (w : Nat)
  | watchCancel (w : Nat)
  | withdraw (w : Nat)
  | crash (w : Nat)

def step : Event -> Queue -> Queue
  | .store event, s =>
      if drives executionId event = true then s
      else s.change event
  | .start, s => s.start
  | .endProject, s => { s with projectOpen := false }
  | .readForCancel c, s => s.readForCancel executionId c
  | .storeCancel c, s => s.storeCancel executionId c
  | .markCancelled c, s => s.markCancelled c
  | .readForResume c key, s => s.readForResume executionId c key
  | .resume c, s => s.resume c
  | .publish redeliverSeconds, s => s.publish executionId redeliverSeconds
  | .send, s => s.send
  | .sendFails arrived, s => s.sendFails arrived
  | .unpublish, s => s.unpublish
  | .deliver w, s => s.deliver w
  | .raise w error, s => s.raise w error
  | .submit w authoringInput executionSpec, s =>
      s.submit executionId w authoringInput executionSpec
  | .acquire w leaseSeconds, s => s.acquire executionId w leaseSeconds
  | .lookup w, s => s.lookup executionId w
  | .returnSaved w, s => s.returnSaved w
  | .release w resultRef, s => s.release w resultRef
  | .releaseFailed w, s => s.releaseFailed w
  | .check w, s => s.check executionId w
  | .report w, s => s.report w
  | .succeed w, s => s.succeed w
  | .watch w, s => s.watch w
  | .watchCancel w, s => s.watchCancel executionId w
  | .withdraw w, s => s.withdraw w
  | .crash w, s => s.crash w

/-- The job was not started and nothing is under way for it. -/
structure Fresh (s : Queue) : Prop where
  job : s.job = none
  execution : s.execution executionId = none
  workers : s.workers = Table.empty
  commands : s.commands = Table.empty

end Queue
end Authoring
end KnowledgeBrain
