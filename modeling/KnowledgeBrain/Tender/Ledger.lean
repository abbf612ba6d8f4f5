import KnowledgeBrain.Tender.Fencing

/-!
# What a step does to the request ledger

A method either closes requests that were open, or prepares one new request,
or moves one request to its next status.  Only the last can put a request into
status sent, and only after it was checked against all the others.
-/

namespace KnowledgeBrain
namespace Tender

open Foundation

/-!
# Rows
-/

def ModelRequest.revision (q : ModelRequest) : RevisionKey :=
  ⟨q.runId, q.sourceVersion, q.domainRevision⟩

variable {q : ModelRequest} {key : RevisionKey}

theorem Store.ofRevision_iff :
    Store.ofRevision key q = true <-> q.revision = key := by
  obtain ⟨runId, sourceVersion, domainRevision⟩ := key
  simp only [Store.ofRevision, ModelRequest.revision, Bool.and_eq_true, beq_iff_eq,
    RevisionKey.mk.injEq, and_assoc]

/-- What may become of a request, in any number of steps. -/
structure Follows (q q' : ModelRequest) : Prop where
  revision : q'.revision = q.revision
  task : q'.task = q.task
  metadata : q'.metadata = q.metadata
  settled : q.status = .succeeded ∨ q.status = .failed -> q'.status = q.status
  prepared : q'.status = .prepared -> q.status = .prepared
  sent : q'.status = .sent -> q.status = .prepared ∨ q.status = .sent
  response : forall ref, q.responseRef = some ref -> q'.responseRef = some ref
  paid : q.sentAt.isSome = true -> q'.sentAt.isSome = true

theorem Follows.refl (q : ModelRequest) : Follows q q :=
  ⟨rfl, rfl, rfl, fun _ => rfl, id, Or.inr, fun _ => id, id⟩

theorem Follows.trans {q q' q'' : ModelRequest} (h : Follows q q') (h' : Follows q' q'') :
    Follows q q'' := by
  refine ⟨h'.revision.trans h.revision, h'.task.trans h.task, h'.metadata.trans h.metadata, ?_,
    fun hprepared => h.prepared (h'.prepared hprepared), ?_,
    fun ref href => h'.response ref (h.response ref href), fun hpaid => h'.paid (h.paid hpaid)⟩
  · intro hsettled
    have hsame := h.settled hsettled
    rw [← hsame] at hsettled
    rw [h'.settled hsettled, hsame]
  · intro hsent
    rcases h'.sent hsent with hprepared | hstill
    · exact Or.inl (h.prepared hprepared)
    · exact h.sent hstill

/-- A step that does not send the request. -/
structure Quiet (q q' : ModelRequest) : Prop extends Follows q q' where
  unsent : q'.status = .sent -> q.status = .sent
  sentAt : q'.sentAt = q.sentAt

theorem Quiet.refl (q : ModelRequest) : Quiet q q :=
  ⟨Follows.refl q, id, rfl⟩

/-- A step that sends the request. -/
structure Sends (s : Store) (requestId : String) (q q' : ModelRequest) : Prop
    extends Follows q q' where
  before : q.status = .prepared
  after : q'.status = .sent
  sentAt : q'.sentAt.isSome = true
  check : s.checkSend requestId q = .ok ()

theorem Quiet.of_close {q q' : ModelRequest} (hopen : q.status = .prepared ∨ q.status = .sent)
    (hstatus : q'.status = .uncertain ∨ q'.status = .failed) (hrevision : q'.revision = q.revision)
    (htask : q'.task = q.task) (hmetadata : q'.metadata = q.metadata)
    (hresponse : q'.responseRef = q.responseRef) (hsentAt : q'.sentAt = q.sentAt) :
    Quiet q q' := by
  have hclosed : q'.status ≠ .sent ∧ q'.status ≠ .prepared := by
    rcases hstatus with h | h
    · simp [h]
    · simp [h]
  refine ⟨⟨hrevision, htask, hmetadata, ?_, fun h => absurd h hclosed.2,
    fun h => absurd h hclosed.1, ?_, ?_⟩, fun h => absurd h hclosed.1, hsentAt⟩
  · rintro (h | h)
    · simp [h] at hopen
    · simp [h] at hopen
  · intro ref href
    rw [hresponse, href]
  · intro hpaid
    rw [hsentAt, hpaid]

theorem quiet_loseRequest (now : Time) (error : Json) (hopen : Store.isOpenRequest q = true) :
    Quiet q (Store.loseRequest now error q) := by
  have hstatus : q.status = .prepared ∨ q.status = .sent := by
    simpa [Store.isOpenRequest] using hopen
  refine Quiet.of_close hstatus ?_ rfl rfl rfl rfl rfl
  unfold Store.loseRequest
  by_cases hsent : q.status = .sent
  · simp [hsent]
  · simp [hsent]

theorem quiet_settleRequest (now : Time) (hsent : q.status = .sent) :
    Quiet q (Store.settleRequest now q) :=
  Quiet.of_close (Or.inr hsent) (Or.inl rfl) rfl rfl rfl rfl rfl

/-!
# Methods that do not deal with requests

All they can do to a request is to close it, and they commit no artifact.
-/

structure Settles (s s' : Store) : Prop where
  artifacts : s'.artifacts = s.artifacts
  requests : exists f, s'.requests = s.requests.mapRows f ∧
    forall id q, s.requests.lookup id = some q -> Quiet q (f id q)

variable {s s' : Store} {runId : String}

theorem Settles.of_eq (hartifacts : s'.artifacts = s.artifacts)
    (hrequests : s'.requests = s.requests) : Settles s s' := by
  refine ⟨hartifacts, fun _ q => q, ?_, fun _ q _ => Quiet.refl q⟩
  rw [hrequests]
  exact (Table.mapRows_eq_self fun _ _ _ => rfl).symm

theorem Settles.refl (s : Store) : Settles s s :=
  Settles.of_eq rfl rfl

theorem Settles.then {s'' : Store} (h : Settles s s') (hartifacts : s''.artifacts = s'.artifacts)
    (hrequests : s''.requests = s'.requests) : Settles s s'' := by
  refine ⟨hartifacts.trans h.artifacts, ?_⟩
  rw [hrequests]
  exact h.requests

theorem Settles.of_update (p : ModelRequest -> Bool) (g : ModelRequest -> ModelRequest)
    (hartifacts : s'.artifacts = s.artifacts)
    (hrequests : s'.requests = s.requests.mapRows fun _ q => if p q = true then g q else q)
    (hquiet : forall q, p q = true -> Quiet q (g q)) : Settles s s' := by
  refine ⟨hartifacts, _, hrequests, ?_⟩
  intro id q _
  split
  · rename_i hp
    exact hquiet q hp
  · exact Quiet.refl q

theorem settles_loseRequests (s : Store) (runId : String) (sourceVersion epoch : Nat) :
    Settles s (s.loseRequests runId sourceVersion epoch) := by
  refine Settles.of_update
    (fun q => q.runId == runId && q.sourceVersion == sourceVersion && decide (q.epoch < epoch) &&
      Store.isOpenRequest q) (Store.loseRequest s.now Store.executorLost) rfl rfl ?_
  intro q hq
  rw [Bool.and_eq_true] at hq
  exact quiet_loseRequest _ _ hq.2

theorem settles_abandonRequests (s : Store) (runId : String) :
    Settles s (s.abandonRequests runId) := by
  refine Settles.of_update (fun q => q.runId == runId && Store.isOpenRequest q)
    (Store.loseRequest s.now Store.runInvalidated) rfl rfl ?_
  intro q hq
  rw [Bool.and_eq_true] at hq
  exact quiet_loseRequest _ _ hq.2

theorem settles_settleSends (s : Store) (key : RevisionKey) : Settles s (s.settleSends key) := by
  refine Settles.of_update
    (fun q => Store.ofRevision key q && q.status == .sent && Store.hasLogicalDigest q)
    (Store.settleRequest s.now) rfl rfl ?_
  intro q hq
  rw [Bool.and_eq_true, Bool.and_eq_true, beq_iff_eq] at hq
  exact quiet_settleRequest _ hq.1.2

variable {s1 : Store}

theorem settles_invalidate (reason : String) (g : Run -> Run)
    (hartifacts : s1.artifacts = s.artifacts) (hrequests : s1.requests = s.requests) :
    Settles s (s1.invalidate runId reason g) := by
  obtain ⟨hkept, f, hf, hquiet⟩ :=
    settles_abandonRequests ((s1.setRun runId g).cancelCommands runId reason) runId
  refine ⟨hkept.trans hartifacts, f, ?_, ?_⟩
  · rw [← hrequests]
    exact hf
  · rw [← hrequests]
    exact hquiet

variable {commandId : String}

theorem Settles.command {kind : CommandKind} {payload : Payload} {c : Command} (h : Settles s s1)
    (hcommand : s1.command commandId key kind payload = .ok (c, s')) : Settles s s' := by
  obtain ⟨_, _, rfl⟩ := Store.command_eq_ok hcommand
  exact h.then rfl rfl

theorem Settles.reopenRun {kind : CommandKind} {payload : Payload} (h : Settles s s1)
    (hreopen : s1.reopenRun commandId key kind payload = .ok s') : Settles s s' := by
  obtain ⟨c, hcommand⟩ := Store.reopenRun_eq_ok hreopen
  apply Settles.command (h.then _ _) hcommand
  · rfl
  · rfl

theorem settles_submit {commandId requestKey answer : String} {manifestRef : Json}
    (hrun : s.submit runId commandId manifestRef requestKey = .ok (answer, s')) :
    Settles s s' := by
  rcases Store.submit_cases hrun with rfl | ⟨source, revision, c, _, hcommand⟩
  · exact Settles.refl s'
  · apply Settles.command (Settles.of_eq _ _) hcommand
    · rfl
    · rfl

theorem settles_claimCommands {limit claimSeconds redeliverSeconds : Nat}
    {tokens : String -> String} {answer : List String}
    (hrun : s.claimCommands limit claimSeconds redeliverSeconds tokens = .ok (answer, s')) :
    Settles s s' := by
  obtain ⟨_, _, hrun⟩ := bind_eq_ok hrun
  cases hrun
  apply foldl_invariant (P := Settles s) ?_ (Settles.refl s)
  intro s1 row h
  exact h.then rfl rfl

theorem settles_markPublished (commandId claimToken : String) (s : Store) :
    Settles s (s.markPublished commandId claimToken).2 := by
  unfold Store.markPublished
  split
  · exact Settles.refl s
  split
  · exact Settles.refl s
  split
  · exact Settles.refl s
  · exact Settles.of_eq rfl rfl

variable {error : Option Json}

theorem settles_publishFailed {limit : Nat} {commandId claimToken : String}
    {retryable answer : Bool}
    (hrun : s.publishFailed limit commandId claimToken error retryable = .ok (answer, s')) :
    Settles s s' := by
  rcases Store.publishFailed_cases hrun with rfl | ⟨c, terminal, _, _, _, rfl⟩
  · exact Settles.refl s'
  split
  · exact Settles.of_eq rfl rfl
  · exact Settles.of_eq rfl rfl

theorem settles_acquire {sourceVersion leaseSeconds : Nat} {lease : Option Lease}
    (hrun : s.acquire runId commandId sourceVersion leaseSeconds = .ok (lease, s')) :
    Settles s s' := by
  rcases Store.acquire_cases hrun with ⟨_, rfl⟩ | ⟨r, c, _, _, _, hcases⟩
  · exact Settles.refl s'
  have hlost := settles_loseRequests s runId r.sourceVersion (r.epoch + 1)
  cases hcases with
  | exhausted => exact hlost.then rfl rfl
  | takenOver => exact hlost.then rfl rfl
  | granted => exact hlost.then rfl rfl

variable {lease : Lease}

theorem settles_heartbeat {leaseSeconds : Nat} (hrun : s.heartbeat lease leaseSeconds = .ok s') :
    Settles s s' := by
  obtain ⟨r, _, rfl⟩ := Store.heartbeat_eq_ok hrun
  exact Settles.of_eq rfl rfl

theorem settles_release {limit : Nat} {result : Release} {checklistDigest : Option String}
    {metadata : ReleaseMetadata}
    (hrun : s.release limit lease result checklistDigest error metadata = .ok s') :
    Settles s s' := by
  obtain ⟨r, _, _, hcases⟩ := Store.release_eq_ok hrun
  cases result with
  | done status =>
      rw [show s' = _ from hcases]
      exact Settles.of_eq rfl rfl
  | retry =>
      rcases hcases with ⟨c, _, rfl | ⟨_, rfl⟩⟩
      · exact Settles.of_eq rfl rfl
      · exact Settles.of_eq rfl rfl

theorem settles_retry {commandId failedCommandId requestKey reason answer : String}
    {sourceVersion domainRevision : Nat}
    (hrun : s.retry commandId runId sourceVersion domainRevision failedCommandId requestKey
      reason = .ok (answer, s')) : Settles s s' := by
  rcases Store.retry_cases hrun with rfl | ⟨r, kind, payload, _, _, _, _, _, hreopen⟩
  · exact Settles.refl s'
  · exact (settles_settleSends s _).reopenRun hreopen

theorem settles_confirm {commandId checklistDigest idempotencyKey answer : String}
    {sourceVersion : Nat} {domainRevision : Option Nat}
    {issueResolutions : Option (List IssueResolution)}
    (hrun : s.confirm commandId runId sourceVersion checklistDigest idempotencyKey
      domainRevision issueResolutions = .ok (answer, s')) : Settles s s' := by
  rcases Store.confirm_cases hrun with rfl | ⟨r, confirmation, payload, _, _, hreopen⟩
  · exact Settles.refl s'
  · apply Settles.reopenRun (Settles.of_eq _ _) hreopen
    · rfl
    · rfl

theorem settles_cancel {answer : Run} (hrun : s.cancel runId = .ok (answer, s')) :
    Settles s s' := by
  rcases Store.cancel_cases hrun with rfl | ⟨r, _, rfl⟩
  · exact Settles.refl s'
  · exact settles_invalidate _ _ rfl rfl

theorem settles_superseded (h : s' = s ∨ s.Superseded s' runId) : Settles s s' := by
  rcases h with rfl | ⟨r, reason, sources, revision, next, commandId, c, _, _, hcommand, _⟩
  · exact Settles.refl s'
  · have hcleared : Settles s (s.invalidate runId reason
        (Store.replaceRun .pending next.sourceVersion next.domainRevision false)) :=
      settles_invalidate reason _ rfl rfl
    apply Settles.command (hcleared.then _ _) hcommand
    · rfl
    · rfl

theorem settles_pinExecutionSpec {spec : ExecutionSpec}
    (hrun : s.pinExecutionSpec lease spec = .ok s') : Settles s s' := by
  rcases Store.pinExecutionSpec_cases hrun with rfl | ⟨_, _, _, rfl⟩
  · exact Settles.refl s'
  · exact Settles.of_eq rfl rfl

/-!
# Requests
-/

/-- The row would be the second of a group attempt. -/
def Store.HasRow (s : Store) (key : RevisionKey) (attemptId : String) : Prop :=
  exists id q, s.requests.lookup id = some q ∧ q.revision = key ∧
    Store.groupAttemptOf q.metadata = some attemptId

/-- What one step does to the requests. -/
inductive RequestStep (s : Store) (requests : Table String ModelRequest) : Prop where
  | quiet (f : String -> ModelRequest -> ModelRequest) (heq : requests = s.requests.mapRows f)
      (hquiet : forall id q, s.requests.lookup id = some q -> Quiet q (f id q))
  | begun (id : String) (q : ModelRequest) (hfree : s.requests.lookup id = none)
      (heq : requests = s.requests.insertNew id q) (hprepared : q.status = .prepared)
      (hsentAt : q.sentAt = none)
      (halone : forall attemptId, Store.groupAttemptOf q.metadata = some attemptId ->
        ¬ s.HasRow q.revision attemptId)
  | sent (id : String) (q : ModelRequest) (f : ModelRequest -> ModelRequest)
      (hlookup : s.requests.lookup id = some q) (heq : requests = s.requests.modify id f)
      (hsends : Sends s id q (f q))

theorem Settles.requestStep (h : Settles s s') : RequestStep s s'.requests := by
  obtain ⟨f, heq, hquiet⟩ := h.requests
  exact .quiet f heq hquiet

theorem RequestStep.of_eq (h : s'.requests = s.requests) : RequestStep s s'.requests := by
  refine .quiet (fun _ q => q) ?_ fun _ q _ => Quiet.refl q
  rw [h]
  exact (Table.mapRows_eq_self fun _ _ _ => rfl).symm

variable {requestId : String}

theorem RequestStep.of_setRequest {f : ModelRequest -> ModelRequest}
    (hlookup : s.requests.lookup requestId = some q) (hquiet : Quiet q (f q)) :
    RequestStep s (s.setRequest requestId f).requests := by
  refine .quiet (fun id q => if id = requestId then f q else q) rfl ?_
  intro id q' hid
  split
  · rename_i heq
    subst heq
    rw [hlookup] at hid
    cases hid
    exact hquiet
  · exact Quiet.refl q'

theorem Store.no_row_of_groupRequest {attemptId : String}
    (h : s.groupRequest key attemptId = none) : ¬ s.HasRow key attemptId := by
  rintro ⟨id, q, hlookup, hrevision, hattempt⟩
  rw [Store.groupRequest, List.head?_eq_none_iff, ← List.length_eq_zero_iff, length_sortBy,
    List.length_eq_zero_iff, List.filter_eq_nil_iff] at h
  apply h (id, q) (Table.lookup_eq_some_iff_mem.mp hlookup)
  rw [Store.groupAttemptOf, Option.filter_eq_some_iff] at hattempt
  rw [Bool.and_eq_true, Store.ofRevision_iff, beq_iff_eq]
  exact ⟨hrevision, hattempt.1⟩

theorem requestStep_beginRequest {requestId model : String} {task : Task}
    {metadata : RequestMetadata} {row : String × ModelRequest}
    (hrun : s.beginRequest lease requestId model task metadata = .ok (row, s')) :
    RequestStep s s'.requests := by
  rcases Store.beginRequest_cases hrun with rfl | ⟨metadata, hfree, rfl, hfirst⟩
  · exact .of_eq rfl
  · exact .begun requestId (s.newRequest lease model task metadata) hfree rfl rfl rfl
      fun attemptId hattempt => Store.no_row_of_groupRequest (hfirst attemptId hattempt)

theorem Store.prepared_of_checkSend (h : s.checkSend requestId q = .ok ()) :
    q.status = .prepared := by
  obtain ⟨_, _, h⟩ := bind_eq_ok h
  obtain ⟨_, _, h⟩ := bind_eq_ok h
  obtain ⟨_, _, h⟩ := bind_eq_ok h
  obtain ⟨_, hprepared, _⟩ := bind_eq_ok h
  exact not_not.mp (reject_eq_ok.mp hprepared)

theorem response_of_same {given known : Option ArtifactRef}
    (h : ¬ (given.any fun given => known.any fun known => known != given) = true)
    (ref : ArtifactRef) (hknown : known = some ref) : given.or known = some ref := by
  subst hknown
  cases given with
  | none => rfl
  | some other =>
      have hother : ref = other := by simpa using h
      rw [hother]
      rfl

theorem quiet_attachResponse (responseRef : Option ArtifactRef) (q : ModelRequest) :
    Quiet q (Store.attachResponse responseRef q) := by
  refine ⟨⟨rfl, rfl, rfl, fun _ => rfl, id, Or.inr, ?_, id⟩, id, rfl⟩
  intro ref href
  change q.responseRef.or responseRef = some ref
  rw [href]
  rfl

variable {responseRef : Option ArtifactRef}

theorem quiet_finishRow {now : Time} {status : RequestStatus} (hprepared : status ≠ .prepared)
    (hsent : status ≠ .sent) (hopen : ¬ (q.status = .succeeded ∨ q.status = .failed))
    (hresponse : forall ref, q.responseRef = some ref ->
      responseRef.or q.responseRef = some ref) :
    Quiet q (Store.finishRow now status error responseRef q) := by
  have hsentAt : (Store.finishRow now status error responseRef q).sentAt = q.sentAt := by
    simp [Store.finishRow, hsent]
  refine ⟨⟨rfl, rfl, rfl, fun h => absurd h hopen, fun h => absurd h hprepared,
    fun h => absurd h hsent, hresponse, ?_⟩, fun h => absurd h hsent, hsentAt⟩
  rw [hsentAt]
  exact id

theorem sends_finishRow {now : Time} (hcheck : s.checkSend requestId q = .ok ())
    (hresponse : forall ref, q.responseRef = some ref ->
      responseRef.or q.responseRef = some ref) :
    Sends s requestId q (Store.finishRow now .sent error responseRef q) := by
  have hprepared := Store.prepared_of_checkSend hcheck
  have hsentAt : (Store.finishRow now .sent error responseRef q).sentAt.isSome = true := by
    simp [Store.finishRow]
  refine ⟨⟨rfl, rfl, rfl, ?_, fun _ => hprepared, fun _ => Or.inl hprepared, hresponse,
    fun _ => hsentAt⟩, hprepared, rfl, hsentAt, hcheck⟩
  rw [hprepared]
  rintro (h | h)
  · cases h
  · cases h

theorem requestStep_finishRequest {status : RequestStatus}
    (hrun : s.finishRequest requestId status error responseRef = .ok s') :
    RequestStep s s'.requests := by
  obtain ⟨q, hlookup, hprepared, hcheck, hsame, rfl⟩ := Store.finishRequest_eq_ok hrun
  have hkept := response_of_same hsame
  split
  · exact .of_setRequest hlookup (quiet_attachResponse responseRef q)
  · rename_i hopen
    by_cases hsent : status = .sent
    · subst hsent
      rw [Store.checkTransition, if_pos rfl] at hcheck
      exact .sent requestId q _ hlookup rfl (sends_finishRow hcheck hkept)
    · exact .of_setRequest hlookup (quiet_finishRow hprepared hsent hopen hkept)

/-!
# Every step
-/

/-- Artifacts stay and requests are only settled. -/
def Event.OnRuns : Event -> Prop
  | commitArtifact .. | reserveGroupAttempt .. | beginRequest .. | finishRequest .. => False
  | _ => True

theorem settles_step {e : Event} (h : e.OnRuns) (s : Store) : Settles s (step e s) := by
  cases e with
  | tick => exact .of_eq rfl rfl
  | submit => exact commit_snd_cases (.refl s) fun _ _ => settles_submit
  | claimCommands => exact commit_snd_cases (.refl s) fun _ _ => settles_claimCommands
  | markPublished => exact settles_markPublished _ _ s
  | publishFailed => exact commit_snd_cases (.refl s) fun _ _ => settles_publishFailed
  | acquire => exact commit_snd_cases (.refl s) fun _ _ => settles_acquire
  | heartbeat => exact commit_cases (.refl s) fun _ => settles_heartbeat
  | release => exact commit_cases (.refl s) fun _ => settles_release
  | retry => exact commit_snd_cases (.refl s) fun _ _ => settles_retry
  | confirm => exact commit_snd_cases (.refl s) fun _ _ => settles_confirm
  | cancel => exact commit_snd_cases (.refl s) fun _ _ => settles_cancel
  | revise =>
      exact commit_snd_cases (.refl s) fun _ _ h =>
        settles_superseded (Store.replays_revise h).cases
  | correct =>
      exact commit_snd_cases (.refl s) fun _ _ h =>
        settles_superseded (Store.replays_correct h).cases
  | reviewScope =>
      exact commit_snd_cases (.refl s) fun _ _ h =>
        settles_superseded (Store.replays_reviewScope h).cases
  | pinExecutionSpec => exact commit_cases (.refl s) fun _ => settles_pinExecutionSpec
  | commitArtifact | reserveGroupAttempt | beginRequest | finishRequest => exact absurd h id

theorem request_step (e : Event) (s : Store) : RequestStep s (step e s).requests := by
  have hsame : RequestStep s s.requests := .of_eq rfl
  cases e with
  | commitArtifact =>
      refine commit_cases (P := fun s' => RequestStep s s'.requests) hsame fun _ h => ?_
      rcases Store.commitArtifact_cases h with ⟨rfl, _⟩ | ⟨_, rfl⟩
      · exact hsame
      · exact hsame
  | reserveGroupAttempt =>
      refine commit_cases (P := fun s' => RequestStep s s'.requests) hsame fun _ h => ?_
      rcases Store.reserveGroupAttempt_cases h with ⟨rfl, _⟩ | ⟨_, _, rfl⟩
      · exact hsame
      · exact hsame
  | beginRequest =>
      exact commit_snd_cases (P := fun s' => RequestStep s s'.requests) hsame fun _ _ =>
        requestStep_beginRequest
  | finishRequest =>
      exact commit_cases (P := fun s' => RequestStep s s'.requests) hsame fun _ =>
        requestStep_finishRequest
  | _ => exact (settles_step (by trivial) s).requestStep

end Tender
end KnowledgeBrain
