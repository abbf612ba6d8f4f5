import KnowledgeBrain.Authoring.Store

/-!
# What a step of the authoring store can do

Executions and requests change one row at a time, apart from the requests that
an execution abandons.  Each step is read off the methods once, here; what
holds along a run follows from it.
-/

namespace KnowledgeBrain
namespace Authoring

open Foundation Store
open Tender (Json Time ArtifactRef RequestStatus)

variable {s s' : Store} {executionId requestId : String}

/-!
# Executions
-/

def Receipt.key (r : Receipt) : String × String :=
  (r.stage, r.scope)

/-- What holds of every row. -/
structure ExecutionSound (x : Execution) : Prop where
  cancelled : x.status = .cancelled -> x.cancelRequested = true
  receipts : (x.receipts.map Receipt.key).Nodup

/-- How a row may change. -/
structure Succeeds (x x' : Execution) : Prop where
  epoch : x.epoch ≤ x'.epoch
  succeeded : x.status = .succeeded -> x'.status = .succeeded ∧ x'.resultRef = x.resultRef
  cancelled : x.cancelRequested = true -> x.status = .cancelled -> x'.status = .cancelled
  receipts : x.receipts <+: x'.receipts
  sound : ExecutionSound x -> ExecutionSound x'

theorem Succeeds.refl (x : Execution) : Succeeds x x :=
  ⟨Nat.le_refl _, fun h => ⟨h, rfl⟩, fun _ h => h, List.prefix_refl _, id⟩

theorem Succeeds.trans {x x' x'' : Execution} (hsound : ExecutionSound x) (h : Succeeds x x')
    (h' : Succeeds x' x'') : Succeeds x x'' := by
  constructor
  · exact Nat.le_trans h.epoch h'.epoch
  · intro hsucceeded
    have hfirst := h.succeeded hsucceeded
    have hlast := h'.succeeded hfirst.1
    exact ⟨hlast.1, hlast.2.trans hfirst.2⟩
  · intro hrequested hcancelled
    have hfirst := h.cancelled hrequested hcancelled
    exact h'.cancelled ((h.sound hsound).cancelled hfirst) hfirst
  · exact h.receipts.trans h'.receipts
  · exact fun hsound => h'.sound (h.sound hsound)

/-- A worker passes the fence with the lease the row names. -/
structure Holds (s : Store) (lease : Lease) (x : Execution) : Prop where
  stored : s.executions.lookup lease.executionId = some x
  wanted : x.cancelRequested = false
  epoch : x.epoch = lease.epoch
  running : x.status = .running
  live : s.leaseLive x = true

variable {x : Execution}

theorem execution_eq_ok (h : s.execution executionId = .ok x) :
    s.executions.lookup executionId = some x := by
  unfold Store.execution at h
  split at h
  · cases h
  · rename_i hlookup
    cases h
    exact hlookup

variable {lease : Lease}

theorem holds_of_assertFence (h : s.assertFence lease = .ok x) :
    Holds s lease x := by
  rcases bind_eq_ok h with ⟨y, hlookup, h⟩
  rcases bind_eq_ok h with ⟨_, hwanted, h⟩
  rcases bind_eq_ok h with ⟨_, hfence, h⟩
  cases h
  have hwanted := reject_eq_ok.mp hwanted
  have hfence := reject_eq_ok.mp hfence
  push Not at hfence
  constructor
  · exact execution_eq_ok hlookup
  · simpa using hwanted
  · exact hfence.1
  · exact hfence.2.1
  · simpa using hfence.2.2

/-- What one step does to the executions. -/
inductive ExecutionStep (t : Table String Execution) : Table String Execution -> Prop where
  | create (id : String) (x : Execution) (hfree : t.lookup id = none) (hsound : ExecutionSound x) :
      ExecutionStep t (t.insertNew id x)
  | change (id : String) (f : Execution -> Execution)
      (hchange : forall x, t.lookup id = some x -> Succeeds x (f x)) :
      ExecutionStep t (t.modify id f)

theorem ExecutionStep.same (t : Table String Execution) : ExecutionStep t t := by
  have hself : t.modify "" id = t := Table.modify_eq_self fun _ _ => rfl
  have hstep : ExecutionStep t (t.modify "" id) := .change "" id fun x _ => Succeeds.refl x
  rwa [hself] at hstep

theorem executionStep_submit {authoringInput : AuthoringInput} {executionSpec : ExecutionSpec}
    (h : s.submit executionId authoringInput executionSpec = .ok (x, s')) :
    ExecutionStep s.executions s'.executions := by
  rcases bind_eq_ok h with ⟨_, _, h⟩
  rcases bind_eq_ok h with ⟨_, _, h⟩
  rcases bind_eq_ok h with ⟨y, _, h⟩
  rcases bind_eq_ok h with ⟨_, _, h⟩
  cases h
  cases hlookup : s.executions.lookup executionId with
  | none =>
      refine .create executionId _ hlookup ⟨?_, List.nodup_nil⟩
      intro hcancelled
      cases hcancelled
  | some old =>
      change ExecutionStep s.executions (s.executions.insertNew executionId _)
      rw [Table.insertNew_of_contains _ hlookup]
      exact .same _

theorem succeeds_lease (leaseUntil : Time) (hsucceeded : x.status ≠ .succeeded)
    (hcancelled : x.status ≠ .cancelled) :
    Succeeds x (leaseExecution (x.epoch + 1) leaseUntil x) := by
  constructor
  · exact Nat.le_succ x.epoch
  · exact fun h => absurd h hsucceeded
  · exact fun _ h => absurd h hcancelled
  · exact List.prefix_refl _
  · intro hsound
    refine ⟨?_, hsound.receipts⟩
    intro hleased
    cases hleased

/-- A lease that is granted is that of a new epoch. -/
structure Granted (s s' : Store) (executionId : String) (lease : Lease) : Prop where
  exists_row : exists x leaseUntil, s.executions.lookup executionId = some x ∧
    x.status ≠ .succeeded ∧ x.status ≠ .cancelled ∧ lease = ⟨executionId, x.epoch + 1⟩ ∧
    s'.executions =
      s.executions.modify executionId (leaseExecution (x.epoch + 1) leaseUntil)

variable {leaseSeconds : Nat}

theorem acquire_cases {lease : Option Lease}
    (h : s.acquire executionId leaseSeconds = .ok (lease, s')) :
    lease = none ∧ s' = s ∨ exists granted, lease = some granted ∧
      Granted s s' executionId granted ∧
      exists x, s.executions.lookup executionId = some x ∧ s'.requests = (s.abandon executionId
        "\x7b\"type\":\"executor_lost\"\x7d" (some (x.epoch + 1))).requests := by
  rcases bind_eq_ok h with ⟨_, _, h⟩
  rcases bind_eq_ok h with ⟨x, hlookup, h⟩
  split at h
  · cases h
    exact Or.inl ⟨rfl, rfl⟩
  · rename_i hfree
    push Not at hfree
    cases h
    have hrow := execution_eq_ok hlookup
    refine Or.inr ⟨_, rfl, ⟨x, _, hrow, hfree.2.1, hfree.2.2.1, rfl, rfl⟩, x, hrow, rfl⟩

theorem Granted.executionStep (h : Granted s s' executionId lease) :
    ExecutionStep s.executions s'.executions := by
  rcases h.exists_row with ⟨x, leaseUntil, hrow, hsucceeded, hcancelled, _, heq⟩
  rw [heq]
  refine .change executionId _ ?_
  intro y hy
  rw [hrow] at hy
  cases hy
  exact succeeds_lease leaseUntil hsucceeded hcancelled

theorem Holds.executionStep (h : Holds s lease x) (f : Execution -> Execution)
    (hchange : Succeeds x (f x)) :
    ExecutionStep s.executions (s.setExecution lease.executionId f).executions := by
  refine .change lease.executionId f ?_
  intro y hy
  rw [h.stored] at hy
  cases hy
  exact hchange

theorem executionStep_heartbeat (h : s.heartbeat lease leaseSeconds = .ok s') :
    ExecutionStep s.executions s'.executions := by
  rcases bind_eq_ok h with ⟨_, _, h⟩
  rcases bind_eq_ok h with ⟨x, hfence, h⟩
  cases h
  refine (holds_of_assertFence hfence).executionStep _ ?_
  exact ⟨Nat.le_refl _, fun h => ⟨h, rfl⟩, fun _ h => h, List.prefix_refl _,
    fun h => ⟨h.cancelled, h.receipts⟩⟩

theorem succeeds_finish {status : ExecutionStatus} (resultRef : Option ArtifactRef)
    (error : Option Json) (hrunning : x.status = .running) (hstatus : status ≠ .cancelled) :
    Succeeds x (Store.finishExecution status resultRef error x) := by
  constructor
  · exact Nat.le_refl _
  · intro h
    rw [hrunning] at h
    cases h
  · intro _ h
    rw [hrunning] at h
    cases h
  · exact List.prefix_refl _
  · exact fun hsound => ⟨fun h => absurd h hstatus, hsound.receipts⟩

theorem executionStep_release {status : ExecutionStatus} {resultRef : Option ArtifactRef}
    {error : Option Json} (h : s.release lease status resultRef error = .ok s') :
    ExecutionStep s.executions s'.executions := by
  rcases bind_eq_ok h with ⟨_, hstatus, h⟩
  rcases bind_eq_ok h with ⟨_, _, h⟩
  rcases bind_eq_ok h with ⟨x, hfence, h⟩
  rcases bind_eq_ok h with ⟨_, _, h⟩
  cases h
  have hheld := holds_of_assertFence hfence
  refine hheld.executionStep _ (succeeds_finish _ error hheld.running ?_)
  intro hcancelled
  subst hcancelled
  exact reject_eq_ok.mp hstatus ⟨by decide, by decide⟩

theorem succeeds_cancel (hsucceeded : x.status ≠ .succeeded) :
    Succeeds x (cancelExecution x) :=
  ⟨Nat.le_refl _, fun h => absurd h hsucceeded, fun _ _ => rfl, List.prefix_refl _,
    fun hsound => ⟨fun _ => rfl, hsound.receipts⟩⟩

theorem executionStep_cancel (h : s.cancel executionId = .ok s') :
    ExecutionStep s.executions s'.executions := by
  rcases bind_eq_ok h with ⟨x, hlookup, h⟩
  split at h
  · cases h
    exact .same _
  · rename_i hsucceeded
    cases h
    refine .change executionId cancelExecution ?_
    intro y hy
    rw [execution_eq_ok hlookup] at hy
    cases hy
    exact succeeds_cancel hsucceeded

theorem succeeds_receipt (receipt : Receipt)
    (hfresh : findReceipt x receipt.stage receipt.scope = none) :
    Succeeds x { x with receipts := x.receipts ++ [receipt] } := by
  constructor
  · exact Nat.le_refl _
  · exact fun h => ⟨h, rfl⟩
  · exact fun _ h => h
  · exact List.prefix_append _ _
  · intro hsound
    refine ⟨hsound.cancelled, ?_⟩
    rw [List.map_append, List.map_singleton, ← List.concat_eq_append, List.nodup_concat]
    refine ⟨?_, hsound.receipts⟩
    intro hmem
    rcases List.mem_map.mp hmem with ⟨prior, hprior, hkey⟩
    have hmiss := List.find?_eq_none.mp hfresh prior hprior
    simp only [Receipt.key, Prod.mk.injEq] at hkey
    simp [hkey.1, hkey.2] at hmiss

theorem executionStep_commitArtifact {stage scope inputDigest : String}
    {artifactRef : ArtifactRef} {metadata : Json}
    (h : s.commitArtifact lease stage scope artifactRef inputDigest metadata = .ok s') :
    ExecutionStep s.executions s'.executions := by
  rcases bind_eq_ok h with ⟨x, hfence, h⟩
  split at h
  · rcases bind_eq_ok h with ⟨_, _, h⟩
    cases h
    exact .same _
  · rename_i hfresh
    cases h
    exact (holds_of_assertFence hfence).executionStep _
      (succeeds_receipt ⟨stage, scope, inputDigest, artifactRef, lease.epoch, metadata⟩ hfresh)

variable {task : Task}

theorem executions_beginRequest {model : String} {metadata : RequestMetadata}
    {row : String × ModelRequest}
    (h : s.beginRequest lease requestId model task metadata = .ok (row, s')) :
    s'.executions = s.executions := by
  rcases bind_eq_ok h with ⟨_, _, h⟩
  rcases bind_eq_ok h with ⟨_, _, h⟩
  rcases bind_eq_ok h with ⟨_, _, h⟩
  simp only at h
  split at h
  · cases h
    rfl
  split at h
  · cases h
  rcases bind_eq_ok h with ⟨_, _, h⟩
  rcases bind_eq_ok h with ⟨_, _, h⟩
  cases h
  rfl

variable {responseRef : Option ArtifactRef} {usage error : Option Json} {status : RequestStatus}

theorem executions_finishRequest
    (h : s.finishRequest requestId status usage error responseRef = .ok s') :
    s'.executions = s.executions := by
  rcases bind_eq_ok h with ⟨_, _, h⟩
  split at h
  · cases h
  rcases bind_eq_ok h with ⟨_, _, h⟩
  rcases bind_eq_ok h with ⟨_, _, h⟩
  rcases bind_eq_ok h with ⟨_, _, h⟩
  cases h
  rfl

/-!
# Requests
-/

/-- What the limits on sends are kept for. -/
structure LogicalKey where
  executionId : String
  task : Task
  digest : String
deriving DecidableEq

def LogicalKey.carries (key : LogicalKey) (q : ModelRequest) : Bool :=
  q.executionId == key.executionId && q.task == key.task &&
    q.metadata.logicalRequestDigest == key.digest

def isOut (q : ModelRequest) : Bool :=
  q.status == .sent

def wasSent (q : ModelRequest) : Bool :=
  q.sentAt.isSome

/-- How the row of a request may change. -/
structure Follows (q q' : ModelRequest) : Prop where
  execution : q'.executionId = q.executionId
  task : q'.task = q.task
  metadata : q'.metadata = q.metadata
  final : isFinal q = true -> q'.status = q.status ∧ q'.error = q.error
  usage : forall usage, q.usage = some usage -> q'.usage = some usage
  response : forall ref, q.responseRef = some ref -> q'.responseRef = some ref
  sent : wasSent q = true -> wasSent q' = true

theorem Follows.refl (q : ModelRequest) : Follows q q :=
  ⟨rfl, rfl, rfl, fun _ => ⟨rfl, rfl⟩, fun _ => id, fun _ => id, id⟩

theorem Follows.trans {q q' q'' : ModelRequest} (h : Follows q q') (h' : Follows q' q'') :
    Follows q q'' := by
  constructor
  · exact h'.execution.trans h.execution
  · exact h'.task.trans h.task
  · exact h'.metadata.trans h.metadata
  · intro hfinal
    have hfirst := h.final hfinal
    have hfinal' : isFinal q' = true := by
      rw [isFinal, hfirst.1]
      exact hfinal
    have hlast := h'.final hfinal'
    exact ⟨hlast.1.trans hfirst.1, hlast.2.trans hfirst.2⟩
  · exact fun usage husage => h'.usage usage (h.usage usage husage)
  · exact fun ref href => h'.response ref (h.response ref href)
  · exact fun hsent => h'.sent (h.sent hsent)

theorem Follows.carries {q q' : ModelRequest} (h : Follows q q') (key : LogicalKey) :
    key.carries q' = key.carries q := by
  rw [LogicalKey.carries, LogicalKey.carries, h.execution, h.task, h.metadata]

/-- The row follows and is not sent by the step. -/
structure Quiet (q q' : ModelRequest) : Prop extends Follows q q' where
  out : isOut q' = true -> isOut q = true
  sentAt : q'.sentAt = q.sentAt

theorem Quiet.refl (q : ModelRequest) : Quiet q q :=
  ⟨Follows.refl q, id, rfl⟩

theorem Quiet.keepsSend {q q' : ModelRequest} (h : Quiet q q') :
    KeepsSend LogicalKey.carries LogicalKey.carries isOut wasSent q q' :=
  ⟨h.carries, h.carries, h.out, congrArg Option.isSome h.sentAt⟩

/-- The checks that a request has passed when it is sent. -/
structure Cleared (s : Store) (q : ModelRequest) : Prop where
  prepared : q.status = .prepared
  alone : forall id q', s.requests.lookup id = some q' -> wasSent q' = true ->
    q'.executionId = q.executionId -> q'.task = q.task ->
    q'.metadata.logicalRequestDigest = q.metadata.logicalRequestDigest -> isOut q' = false
  unanswered : forall id q', s.requests.lookup id = some q' -> wasSent q' = true ->
    q'.executionId = q.executionId -> q'.task = q.task ->
    q'.metadata.logicalRequestDigest = q.metadata.logicalRequestDigest ->
    isSuccess q.metadata.requestDigest (id, q') = false
  spare : forall key : LogicalKey, key.carries q = true ->
    (s.requests.count fun _ q' => key.carries q' && wasSent q') < 4

/-- What one step does to the requests. -/
inductive RequestStep (s : Store) (requests : Table String ModelRequest) : Prop where
  | quiet (f : String -> ModelRequest -> ModelRequest) (heq : requests = s.requests.mapRows f)
      (hquiet : forall id q, s.requests.lookup id = some q -> Quiet q (f id q))
  | begun (id : String) (q : ModelRequest) (hfree : s.requests.lookup id = none)
      (heq : requests = s.requests.insertNew id q) (hprepared : q.status = .prepared)
      (hunsent : q.sentAt = none)
  | sent (id : String) (q : ModelRequest) (f : ModelRequest -> ModelRequest)
      (hlookup : s.requests.lookup id = some q) (heq : requests = s.requests.modify id f)
      (hfollows : Follows q (f q)) (hsent : wasSent (f q) = true) (hcleared : Cleared s q)

theorem RequestStep.of_eq (h : s'.requests = s.requests) : RequestStep s s'.requests := by
  refine .quiet (fun _ q => q) ?_ fun _ q _ => Quiet.refl q
  rw [h]
  exact (Table.mapRows_eq_self fun _ _ _ => rfl).symm

variable {q : ModelRequest}

theorem quiet_abandonRequest (now : Time) (errorType : Json)
    (hopen : q.status = .prepared ∨ q.status = .sent) :
    Quiet q (abandonRequest now errorType q) := by
  have hfinal : isFinal q ≠ true := by
    rcases hopen with hopen | hopen
    · simp [isFinal, hopen]
    · simp [isFinal, hopen]
  have hout : isOut (abandonRequest now errorType q) = false := by
    rcases hopen with hopen | hopen
    · simp [isOut, abandonRequest, hopen]
    · simp [isOut, abandonRequest, hopen]
  refine ⟨⟨rfl, rfl, rfl, fun h => absurd h hfinal, fun _ => id, fun _ => id, id⟩, ?_, rfl⟩
  intro h
  rw [hout] at h
  cases h

theorem requestStep_abandon (errorType : Json) (beforeEpoch : Option Nat) {s1 : Store}
    (h : s1.requests = s.requests) :
    RequestStep s (s1.abandon executionId errorType beforeEpoch).requests := by
  refine .quiet (fun _ q =>
    if q.executionId = executionId ∧ (q.status = .prepared ∨ q.status = .sent) ∧
      (beforeEpoch.all fun epoch => q.epoch < epoch) = true then
      abandonRequest s1.now errorType q
    else q) ?_ ?_
  · rw [← h]
    rfl
  · intro id q _
    split
    · rename_i hopen
      exact quiet_abandonRequest _ _ hopen.2.1
    · exact Quiet.refl q

theorem requests_submit {authoringInput : AuthoringInput} {executionSpec : ExecutionSpec}
    (h : s.submit executionId authoringInput executionSpec = .ok (x, s')) :
    s'.requests = s.requests := by
  rcases bind_eq_ok h with ⟨_, _, h⟩
  rcases bind_eq_ok h with ⟨_, _, h⟩
  rcases bind_eq_ok h with ⟨_, _, h⟩
  rcases bind_eq_ok h with ⟨_, _, h⟩
  cases h
  rfl

theorem requestStep_acquire {lease : Option Lease}
    (h : s.acquire executionId leaseSeconds = .ok (lease, s')) : RequestStep s s'.requests := by
  rcases acquire_cases h with ⟨_, rfl⟩ | ⟨_, _, _, x, _, heq⟩
  · exact .of_eq rfl
  · rw [heq]
    exact requestStep_abandon _ _ rfl

theorem requests_heartbeat (h : s.heartbeat lease leaseSeconds = .ok s') :
    s'.requests = s.requests := by
  rcases bind_eq_ok h with ⟨_, _, h⟩
  rcases bind_eq_ok h with ⟨_, _, h⟩
  cases h
  rfl

theorem requestStep_release {status : ExecutionStatus} {resultRef : Option ArtifactRef}
    {error : Option Json} (h : s.release lease status resultRef error = .ok s') :
    RequestStep s s'.requests := by
  rcases bind_eq_ok h with ⟨_, _, h⟩
  rcases bind_eq_ok h with ⟨_, _, h⟩
  rcases bind_eq_ok h with ⟨_, _, h⟩
  rcases bind_eq_ok h with ⟨_, _, h⟩
  cases h
  exact requestStep_abandon _ _ rfl

theorem requestStep_cancel (h : s.cancel executionId = .ok s') : RequestStep s s'.requests := by
  rcases bind_eq_ok h with ⟨_, _, h⟩
  split at h
  · cases h
    exact .of_eq rfl
  · cases h
    exact requestStep_abandon _ _ rfl

theorem requests_commitArtifact {stage scope inputDigest : String} {artifactRef : ArtifactRef}
    {metadata : Json}
    (h : s.commitArtifact lease stage scope artifactRef inputDigest metadata = .ok s') :
    s'.requests = s.requests := by
  rcases bind_eq_ok h with ⟨_, _, h⟩
  split at h
  · rcases bind_eq_ok h with ⟨_, _, h⟩
    cases h
    rfl
  · cases h
    rfl

theorem requestStep_beginRequest {model : String} {metadata : RequestMetadata}
    {row : String × ModelRequest}
    (h : s.beginRequest lease requestId model task metadata = .ok (row, s')) :
    RequestStep s s'.requests := by
  rcases bind_eq_ok h with ⟨_, _, h⟩
  rcases bind_eq_ok h with ⟨_, _, h⟩
  rcases bind_eq_ok h with ⟨_, _, h⟩
  simp only at h
  split at h
  · cases h
    exact .of_eq rfl
  split at h
  · cases h
  rcases bind_eq_ok h with ⟨_, _, h⟩
  rcases bind_eq_ok h with ⟨_, hfree, h⟩
  cases h
  have hnone : s.requests.lookup requestId = none := by
    simpa [Table.contains] using reject_eq_ok.mp hfree
  exact .begun requestId (s.newRequest lease model task metadata) hnone rfl rfl rfl

theorem mem_matchingRequests {logicalDigest id : String} (hlookup : s.requests.lookup id = some q)
    (hexecution : q.executionId = executionId) (htask : q.task = task)
    (hdigest : q.metadata.logicalRequestDigest = logicalDigest) :
    (id, q) ∈ s.matchingRequests executionId task logicalDigest := by
  rw [matchingRequests, mem_sortBy, List.mem_filter]
  refine ⟨Table.lookup_eq_some_iff_mem.mp hlookup, ?_⟩
  simp [hexecution, htask, hdigest]

theorem length_matchingRequests {key : LogicalKey} (hkey : key.carries q = true) :
    ((s.matchingRequests q.executionId q.task q.metadata.logicalRequestDigest).filter
      fun row => row.2.sentAt.isSome).length =
      s.requests.count fun _ q' => key.carries q' && wasSent q' := by
  simp only [LogicalKey.carries, Bool.and_eq_true, beq_iff_eq] at hkey
  rw [← List.countP_eq_length_filter, matchingRequests, (perm_sortBy _ _).countP_eq,
    List.countP_filter, Table.count, hkey.1.1, hkey.1.2, hkey.2]
  apply List.countP_congr
  intro row _
  simp only [LogicalKey.carries, wasSent, Bool.and_eq_true, beq_iff_eq]
  exact and_comm

theorem cleared_of_checkSend (h : s.checkSend requestId q = .ok ()) :
    Cleared s q := by
  rcases bind_eq_ok h with ⟨_, _, h⟩
  rcases bind_eq_ok h with ⟨_, hprepared, h⟩
  simp only at h
  split at h
  · cases h
  rename_i hnone
  split at h
  · cases h
  rename_i hfresh
  have hmem : forall id q', s.requests.lookup id = some q' -> wasSent q' = true ->
      q'.executionId = q.executionId -> q'.task = q.task ->
      q'.metadata.logicalRequestDigest = q.metadata.logicalRequestDigest ->
      (id, q') ∈ (s.matchingRequests q.executionId q.task
        q.metadata.logicalRequestDigest).filter fun row => row.2.sentAt.isSome := by
    intro id q' hlookup hsent hexecution htask hdigest
    exact List.mem_filter.mpr ⟨mem_matchingRequests hlookup hexecution htask hdigest, hsent⟩
  constructor
  · exact not_not.mp (reject_eq_ok.mp hprepared)
  · intro id q' hlookup hsent hexecution htask hdigest
    have hmiss := List.find?_eq_none.mp hnone _ (hmem id q' hlookup hsent hexecution htask hdigest)
    simpa [isOut] using hmiss
  · intro id q' hlookup hsent hexecution htask hdigest
    have hmiss := List.find?_eq_none.mp hfresh _
      (hmem id q' hlookup hsent hexecution htask hdigest)
    simpa using hmiss
  · intro key hkey
    rw [← length_matchingRequests hkey]
    exact Nat.lt_of_not_le (reject_eq_ok.mp h)

theorem follows_report {now : Time} (q : ModelRequest) :
    Follows q (Store.report now status usage error responseRef q) := by
  refine ⟨rfl, rfl, rfl, ?_, ?_, ?_, ?_⟩
  · intro hfinal
    exact ⟨if_pos hfinal, if_pos hfinal⟩
  · intro value hvalue
    change q.usage.or usage = some value
    rw [hvalue]
    rfl
  · intro ref href
    change q.responseRef.or responseRef = some ref
    rw [href]
    rfl
  · intro hsent
    by_cases hstatus : status = .sent
    · simp [wasSent, Store.report, hstatus]
    · simpa [wasSent, Store.report, hstatus] using hsent

theorem quiet_report {now : Time} (q : ModelRequest) (hstatus : status ≠ .sent) :
    Quiet q (Store.report now status usage error responseRef q) := by
  refine ⟨follows_report q, ?_, if_neg hstatus⟩
  intro hout
  by_cases hfinal : isFinal q = true
  · simpa [isOut, Store.report, hfinal] using hout
  · simp [isOut, Store.report, hfinal, hstatus] at hout

theorem requestStep_finishRequest
    (h : s.finishRequest requestId status usage error responseRef = .ok s') :
    RequestStep s s'.requests := by
  rcases bind_eq_ok h with ⟨_, _, h⟩
  split at h
  · cases h
  rename_i q hlookup
  rcases bind_eq_ok h with ⟨_, _, h⟩
  rcases bind_eq_ok h with ⟨_, hcheck, h⟩
  rcases bind_eq_ok h with ⟨_, _, h⟩
  cases h
  by_cases hstatus : status = .sent
  · subst hstatus
    rw [Store.checkTransition, if_pos rfl] at hcheck
    refine .sent requestId q _ hlookup rfl (follows_report q) ?_ (cleared_of_checkSend hcheck)
    simp [wasSent, Store.report]
  · refine .quiet
      (fun id q => if id = requestId then Store.report s.now status usage error responseRef q
        else q) rfl ?_
    intro id q' _
    split
    · exact quiet_report q' hstatus
    · exact Quiet.refl q'

/-!
# Every step
-/

theorem commit_cases {P : Store -> Prop} {result : Except Fault Store} (hsame : P s)
    (h : forall s', result = .ok s' -> P s') : P (commit s result) := by
  cases result with
  | error e => exact hsame
  | ok s' => exact h s' rfl

theorem commit_snd_cases {A : Type} {P : Store -> Prop} {result : Except Fault (A × Store)}
    (hsame : P s) (h : forall a s', result = .ok (a, s') -> P s') :
    P (commit s (result.map Prod.snd)) := by
  cases result with
  | error e => exact hsame
  | ok value => exact h value.1 value.2 rfl

/-- The tables after a step. -/
structure StoreStep (s s' : Store) : Prop where
  executions : ExecutionStep s.executions s'.executions
  requests : RequestStep s s'.requests

theorem StoreStep.refl (s : Store) : StoreStep s s :=
  ⟨.same _, .of_eq rfl⟩

theorem store_step (e : Event) (s : Store) : StoreStep s (step e s) := by
  cases e with
  | analysis event => exact ⟨.same _, .of_eq rfl⟩
  | submit =>
      refine commit_snd_cases (StoreStep.refl s) fun _ _ h => ?_
      exact ⟨executionStep_submit h, .of_eq (requests_submit h)⟩
  | acquire =>
      refine commit_snd_cases (StoreStep.refl s) fun _ _ h => ⟨?_, requestStep_acquire h⟩
      rcases acquire_cases h with ⟨_, rfl⟩ | ⟨_, _, hgranted, _⟩
      · exact .same _
      · exact hgranted.executionStep
  | heartbeat =>
      refine commit_cases (StoreStep.refl s) fun _ h => ?_
      exact ⟨executionStep_heartbeat h, .of_eq (requests_heartbeat h)⟩
  | release =>
      refine commit_cases (StoreStep.refl s) fun _ h => ?_
      exact ⟨executionStep_release h, requestStep_release h⟩
  | cancel =>
      refine commit_cases (StoreStep.refl s) fun _ h => ?_
      exact ⟨executionStep_cancel h, requestStep_cancel h⟩
  | commitArtifact =>
      refine commit_cases (StoreStep.refl s) fun _ h => ?_
      exact ⟨executionStep_commitArtifact h, .of_eq (requests_commitArtifact h)⟩
  | beginRequest =>
      refine commit_snd_cases (StoreStep.refl s) fun _ s' h => ?_
      have hsame := executions_beginRequest h
      exact ⟨hsame ▸ .same _, requestStep_beginRequest h⟩
  | finishRequest =>
      refine commit_cases (StoreStep.refl s) fun _ h => ?_
      have hsame := executions_finishRequest h
      exact ⟨hsame ▸ .same _, requestStep_finishRequest h⟩

end Authoring
end KnowledgeBrain
