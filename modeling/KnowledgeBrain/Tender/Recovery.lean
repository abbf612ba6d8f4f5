import KnowledgeBrain.Tender.Groups
import KnowledgeBrain.Tender.Ledger

/-!
# Workers of one group call

Any number of workers execute the same group call, each under the lease it was
given.  They may be overtaken, stop between any two writes, and be started
again; meanwhile the rest of the system uses the store as it likes, except
that nobody else writes into the journal of the group.
-/

namespace KnowledgeBrain
namespace Tender

open Foundation

/-!
# The system
-/

inductive Ended where
  | returned (result : GroupResult)
  | raised (error : Raised)
  /-- A method of the store refused the worker. -/
  | refused (fault : StoreFault)
deriving DecidableEq

inductive Phase where
  /-- The journal is read next. -/
  | reading
  | writing (write : Write) (rest : List Write) (ending : Ending)
  | ended (ended : Ended)
deriving DecidableEq

def Phase.isRunning : Phase -> Bool
  | .ended _ => false
  | _ => true

/-- One execution of the group call. -/
structure Execution where
  lease : Lease
  spec : SpecOutcome
  phase : Phase
deriving DecidableEq

structure World where
  store : Store
  workers : Table Nat Execution

def World.set (w : World) (worker : Nat) (x : Execution) : World :=
  { w with workers := w.workers.upsert worker x fun _ => x }

/-- Where the rest of a script leaves a worker. -/
def phaseOf (writes : List Write) (ending : Ending) : Phase :=
  match writes with
  | write :: rest => .writing write rest ending
  | [] =>
      match ending with
      | .again => .reading
      | .returned result => .ended (.returned result)
      | .raised error => .ended (.raised error)

/-- Perform a write whose value is stored under the reference. -/
def Write.run (lease : Lease) (basisDigest : String) (ref : ArtifactRef) (s : Store) :
    Write -> Except StoreFault Store
  | .commit stage scope _ metadata =>
      s.commitArtifact lease stage scope ref basisDigest metadata
  | .reserve attemptId manifest =>
      s.reserveGroupAttempt lease attemptId ref basisDigest manifest.groupWorkUnitKeys

inductive GroupEvent where
  /-- Something else happens in the store. -/
  | other (event : Event)
  | start (worker : Nat) (lease : Lease) (spec : SpecOutcome)
  | look (worker : Nat) (choice : Choice)
  | write (worker : Nat) (ref : ArtifactRef)
  /-- The worker is lost with all it knew. -/
  | crash (worker : Nat)

section Step

variable (host : Host) (call : GroupCall)

/-- A group call before its first await. -/
def startPhase : SpecOutcome -> Phase
  | .failed .stop =>
      if call.valid then .ended (.raised .stop) else .ended (.raised (.other "ValueError"))
  | _ => if call.valid then .reading else .ended (.raised (.other "ValueError"))

/-- The worker reads the journal and decides what to do. -/
def lookPhase (s : Store) (x : Execution) (choice : Choice) : Phase :=
  match s.groupReceipts x.lease (call.basisDigest host x.spec) with
  | .error fault => .ended (.refused fault)
  | .ok rows =>
      let script := pass host call rows x.spec choice
      phaseOf script.writes script.ending

def look (w : World) (worker : Nat) (choice : Choice) : World :=
  match w.workers.lookup worker with
  | none => w
  | some x =>
      match x.phase with
      | .reading => w.set worker { x with phase := lookPhase host call w.store x choice }
      | _ => w

/-- The worker performs its next write. -/
def write (w : World) (worker : Nat) (ref : ArtifactRef) : World :=
  match w.workers.lookup worker with
  | none => w
  | some x =>
      match x.phase with
      | .writing write rest ending =>
          match write.run x.lease (call.basisDigest host x.spec) ref w.store with
          | .error fault => w.set worker { x with phase := .ended (.refused fault) }
          | .ok s => { w with store := s }.set worker { x with phase := phaseOf rest ending }
      | _ => w

def stepGroup : GroupEvent -> World -> World
  | .other event, w => { w with store := step event w.store }
  | .start worker lease spec, w => w.set worker ⟨lease, spec, startPhase call spec⟩
  | .look worker choice, w => look host call w worker choice
  | .write worker ref, w => write host call w worker ref
  | .crash worker, w => { w with workers := w.workers.filter fun id _ => id != worker }

end Step

/-!
# What may happen
-/

def isGroupStage (stage : String) : Bool :=
  "model-group-".toList.isPrefixOf stage.toList

/-- The event writes nothing into the journal of a group. -/
def keepsJournal : Event -> Bool
  | .commitArtifact _ stage _ _ _ _ => !isGroupStage stage
  | .reserveGroupAttempt _ _ _ _ _ => false
  | _ => true

/-- A worker that is still running holds the lease. -/
def World.isHeld (w : World) (lease : Lease) : Bool :=
  w.workers.any fun _ x =>
    x.phase.isRunning && x.lease.runId == lease.runId && x.lease.epoch == lease.epoch

/-- The reference is that of the value the worker is about to write. -/
def World.puts (w : World) (host : Host) (worker : Nat) (ref : ArtifactRef) : Bool :=
  (w.workers.lookup worker).all fun x =>
    match x.phase with
    | .writing write _ _ => host.read ref == some write.content
    | _ => true

/-- Leases are those that `acquire` has given out, each to one worker at a
time; attempt ids are fresh; what is put into the artifact store is read back.
`usable` says which outcomes of `execution_spec` occur. -/
def Admissible (host : Host) (usable : SpecOutcome -> Prop) : GroupEvent -> World -> Prop
  | .other event, _ => keepsJournal event = true
  | .start worker lease spec, w =>
      w.workers.contains worker = false ∧ w.isHeld lease = false ∧
        lease.epoch ≤ w.store.epochOf lease.runId ∧ usable spec
  | .look _ choice, w =>
      (w.store.artifacts.any fun key _ => key.scope == choice.attemptId) = false
  | .write worker ref, w => w.puts host worker ref = true
  | .crash _, _ => True

/-- Nobody has started yet. -/
structure World.Fresh (w : World) : Prop where
  store : w.store.Fresh
  workers : w.workers = Table.empty

/-!
# Reading the workers
-/

variable {w : World} {worker other : Nat} {x y : Execution}

theorem World.lookup_set (w : World) (worker other : Nat) (x : Execution) :
    (w.set worker x).workers.lookup other =
      if other = worker then some x else w.workers.lookup other := by
  change (w.workers.upsert worker x fun _ => x).lookup other = _
  rw [Table.lookup_upsert]
  cases w.workers.lookup worker with
  | none => rfl
  | some old => rfl

theorem World.lookup_set_cases (h : (w.set worker x).workers.lookup other = some y) :
    other = worker ∧ y = x ∨ other ≠ worker ∧ w.workers.lookup other = some y := by
  rw [World.lookup_set] at h
  split at h
  · rename_i hsame
    exact Or.inl ⟨hsame, (Option.some.inj h).symm⟩
  · rename_i hother
    exact Or.inr ⟨hother, h⟩

theorem World.not_held (h : w.isHeld x.lease = false) (hlookup : w.workers.lookup other = some y)
    (hrunning : y.phase.isRunning = true) (hrun : y.lease.runId = x.lease.runId) :
    y.lease.epoch ≠ x.lease.epoch := by
  have hnone := Table.any_eq_false.mp h other y hlookup
  intro hepoch
  simp [hrunning, hrun, hepoch] at hnone

/-!
# The journal in the store
-/

inductive GroupStage where
  | attempt
  | response
  | shared
  | result
  | rejection
  | outcome
deriving DecidableEq

def GroupStage.name : GroupStage -> String
  | .attempt => "model-group-attempt"
  | .response => "model-group-response"
  | .shared => "model-group-shared"
  | .result => "model-group-result"
  | .rejection => "model-group-rejection"
  | .outcome => "model-group-outcome"

theorem GroupStage.name_injective {g g' : GroupStage} (h : g.name = g'.name) : g = g' := by
  revert h
  cases g <;> cases g' <;> decide

theorem GroupStage.isGroupStage (g : GroupStage) : isGroupStage g.name = true := by
  cases g <;> decide

/-- The group's own rows are the same in both stores. -/
structure SameJournal (s s' : Store) : Prop where
  rows : forall key stage scope, isGroupStage stage = true ->
    s'.artifactOf key stage scope = s.artifactOf key stage scope
  counts : forall key commandId workUnitKey,
    s'.attemptCount key commandId workUnitKey = s.attemptCount key commandId workUnitKey

variable {s s' : Store}

theorem SameJournal.of_eq (h : s'.artifacts = s.artifacts) : SameJournal s s' := by
  refine ⟨?_, ?_⟩
  · intro key stage scope _
    rw [Store.artifactOf, Store.artifactOf, h]
  · intro key commandId workUnitKey
    rw [Store.attemptCount, Store.attemptCount, Store.attemptsOf, Store.attemptsOf, h]

theorem Store.artifactOf_insertArtifact (s : Store) {key : ArtifactKey} (ref : ArtifactRef)
    (inputDigest : String) (metadata : ArtifactMetadata) (epoch : Nat) (revision : RevisionKey)
    (stage scope : String) :
    (s.insertArtifact key ref inputDigest metadata epoch).artifactOf revision stage scope =
      (s.artifactOf revision stage scope).or
        (if (⟨revision.runId, revision.sourceVersion, revision.domainRevision, stage, scope⟩ :
            ArtifactKey) = key then some ⟨ref, inputDigest, metadata, epoch, s.now⟩ else none) :=
  Table.lookup_insertNew_eq_or _ _ _ _

/-- The attempts after an insertion. -/
theorem Store.attemptCount_insertArtifact {key : ArtifactKey} (ref : ArtifactRef)
    (inputDigest : String) (metadata : ArtifactMetadata) (epoch : Nat)
    (hnone : s.artifacts.lookup key = none) (revision : RevisionKey)
    (commandId workUnitKey : String) :
    (s.insertArtifact key ref inputDigest metadata epoch).attemptCount revision commandId
        workUnitKey =
      s.attemptCount revision commandId workUnitKey +
        if (Store.inRevision revision key && key.stage == "model-group-attempt" &&
          (metadata.commandId == some commandId &&
            (metadata.groupWorkUnitKeys.getD []).contains workUnitKey)) = true then 1 else 0 := by
  unfold Store.attemptCount Store.attemptsOf Store.insertArtifact
  rw [Table.rows_insertNew hnone, List.countP_filter, List.countP_filter, List.countP_cons]
  simp only [Store.attemptKeys, Bool.and_comm, Bool.and_assoc, Bool.and_left_comm]

theorem SameJournal.commitArtifact {lease : Lease} {stage scope inputDigest : String}
    {artifactRef : ArtifactRef} {metadata : ArtifactMetadata} (hstage : isGroupStage stage = false)
    (hrun : s.commitArtifact lease stage scope artifactRef inputDigest metadata = .ok s') :
    SameJournal s s' := by
  rcases Store.commitArtifact_cases hrun with ⟨rfl, _⟩ | ⟨hnone, rfl⟩
  · exact SameJournal.of_eq rfl
  refine ⟨?_, ?_⟩
  · intro key stage' scope' hgroup
    rw [Store.artifactOf_insertArtifact, if_neg]
    · exact Option.or_none
    · intro heq
      have hsame : stage' = stage := congrArg ArtifactKey.stage heq
      rw [hsame, hstage] at hgroup
      cases hgroup
  · intro key commandId workUnitKey
    rw [Store.attemptCount_insertArtifact _ _ _ _ hnone, if_neg, Nat.add_zero]
    intro hnew
    rw [Bool.and_eq_true, Bool.and_eq_true, beq_iff_eq] at hnew
    have hsame : stage = "model-group-attempt" := hnew.1.2
    rw [hsame] at hstage
    revert hstage
    decide

theorem artifacts_beginRequest {lease : Lease} {requestId model : String} {task : Task}
    {metadata : RequestMetadata} {row : String × ModelRequest}
    (hrun : s.beginRequest lease requestId model task metadata = .ok (row, s')) :
    s'.artifacts = s.artifacts := by
  rcases Store.beginRequest_cases hrun with rfl | ⟨_, _, rfl, _⟩
  · rfl
  · rfl

theorem artifacts_finishRequest {requestId : String} {status : RequestStatus}
    {error : Option Json} {responseRef : Option ArtifactRef}
    (hrun : s.finishRequest requestId status error responseRef = .ok s') :
    s'.artifacts = s.artifacts := by
  obtain ⟨q, _, _, _, _, rfl⟩ := Store.finishRequest_eq_ok hrun
  split
  · rfl
  · rfl

/-- The rest of the system leaves the journal alone. -/
theorem sameJournal_step {e : Event} (hkeeps : keepsJournal e = true) (s : Store) :
    SameJournal s (step e s) := by
  cases e with
  | commitArtifact lease stage scope artifactRef inputDigest metadata =>
      have hstage : isGroupStage stage = false := by simpa [keepsJournal] using hkeeps
      exact commit_cases (.of_eq rfl) fun _ => SameJournal.commitArtifact hstage
  | reserveGroupAttempt => cases hkeeps
  | beginRequest =>
      exact commit_snd_cases (.of_eq rfl) fun _ _ h => .of_eq (artifacts_beginRequest h)
  | finishRequest => exact commit_cases (.of_eq rfl) fun _ h => .of_eq (artifacts_finishRequest h)
  | _ => exact .of_eq (settles_step (by trivial) s).artifacts

end Tender
end KnowledgeBrain
