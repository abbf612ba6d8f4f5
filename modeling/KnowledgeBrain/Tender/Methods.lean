import KnowledgeBrain.Tender.Soundness

/-!
# What the methods leave

The outcomes of each method that does not fail: most find their work done
already and change nothing, or leave the store that is named here.
-/

namespace KnowledgeBrain
namespace Tender

open Foundation

variable {s s' : Store} {runId commandId answer : String} {r : Run} {c : Command}

theorem Store.run_eq_ok {r : Run} (h : s.run runId = .ok r) : s.runs.lookup runId = some r := by
  unfold Store.run at h
  split at h
  · cases h
  · rename_i hlookup
    cases h
    exact hlookup

/-- What a lease that passes the fence says about its run. -/
structure Holds (s : Store) (lease : Lease) (r : Run) : Prop where
  run : s.runs.lookup lease.runId = some r
  wanted : r.cancelRequested = false
  version : r.sourceVersion = lease.sourceVersion
  revision : r.domainRevision = lease.domainRevision
  epoch : r.epoch = lease.epoch
  command : r.leaseCommandId = some lease.commandId
  live : s.leaseLive r = true

variable {lease : Lease}

theorem Store.assertFence_eq_ok (h : s.assertFence lease = .ok r) :
    Holds s lease r := by
  obtain ⟨r1, hrun, h⟩ := bind_eq_ok h
  obtain ⟨_, hwanted, h⟩ := bind_eq_ok h
  obtain ⟨_, hfence, h⟩ := bind_eq_ok h
  cases h
  have hstale := reject_eq_ok.mp hfence
  simp only [not_or, not_not] at hstale
  obtain ⟨hversion, hrevision, hepoch, hcommand, hlive⟩ := hstale
  exact
    { run := Store.run_eq_ok hrun
      wanted := by simpa using reject_eq_ok.mp hwanted
      version := hversion
      revision := hrevision
      epoch := hepoch
      command := hcommand
      live := by simpa using hlive }

namespace Store

theorem lookup_of_free {K V : Type} [DecidableEq K] {t : Table K V} {k : K}
    (h : ¬ t.contains k = true) : t.lookup k = none := by
  simpa [Table.contains] using h

variable {key : RevisionKey}

theorem command_eq_ok {kind : CommandKind} {payload : Payload}
    (h : s.command commandId key kind payload = .ok (c, s')) :
    s.commands.lookup commandId = none ∧ c = s.newCommand key kind payload ∧
      s' = { s with commands := s.commands.insertNew commandId c } := by
  obtain ⟨_, hfree, h⟩ := bind_eq_ok h
  cases h
  exact ⟨lookup_of_free (reject_eq_ok.mp hfree), rfl, rfl⟩

variable {requestKey : String} {manifestRef : Json}

theorem insertSource_eq_ok {sourceVersion : Nat}
    (h : s.insertSource runId sourceVersion requestKey manifestRef = .ok s') :
    exists source revision, s' =
      { s with
        sourceVersions := s.sourceVersions.insertNew (runId, sourceVersion) source
        revisions := s.revisions.insertNew ⟨runId, sourceVersion, 1⟩ revision } := by
  obtain ⟨_, _, h⟩ := bind_eq_ok h
  obtain ⟨_, _, h⟩ := bind_eq_ok h
  cases h
  exact ⟨_, _, rfl⟩

/-!
# Submission and execution
-/

theorem submit_cases (h : s.submit runId commandId manifestRef requestKey = .ok (answer, s')) :
    s' = s ∨ exists source revision c, s.runs.lookup runId = none ∧
      Store.command
        { s with
          runs := s.runs.insertNew runId (newRun requestKey)
          sourceVersions := s.sourceVersions.insertNew (runId, 1) source
          revisions := s.revisions.insertNew ⟨runId, 1, 1⟩ revision }
        commandId ⟨runId, 1, 1⟩ .start ⟨none, none⟩ = .ok (c, s') := by
  obtain ⟨_, _, h⟩ := bind_eq_ok h
  split at h
  · split at h
    · cases h
    · obtain ⟨_, _, h⟩ := bind_eq_ok h
      cases h
      exact Or.inl rfl
  obtain ⟨_, hfree, h⟩ := bind_eq_ok h
  obtain ⟨s2, hsource, h⟩ := bind_eq_ok h
  obtain ⟨⟨c, s3⟩, hcommand, h⟩ := bind_eq_ok h
  cases h
  obtain ⟨source, revision, rfl⟩ := insertSource_eq_ok hsource
  exact Or.inr ⟨source, revision, c, lookup_of_free (reject_eq_ok.mp hfree), hcommand⟩

variable {error : Option Json}

theorem publishFailed_cases {limit : Nat} {claimToken : String} {retryable answer : Bool}
    (h : s.publishFailed limit commandId claimToken error retryable = .ok (answer, s')) :
    s' = s ∨ exists c terminal, s.commands.lookup commandId = some c ∧ c.status = .claimed ∧
      terminal = (!retryable || decide (limit ≤ publicationFailures retryable c)) ∧
      s' = if terminal = true then
          (s.setCommand commandId (failPublication s.now error retryable true
            (publicationFailures retryable c))).setRun c.runId fun r => { r with status := .failed }
        else
          s.setCommand commandId (failPublication s.now error retryable false
            (publicationFailures retryable c)) := by
  obtain ⟨_, _, h⟩ := bind_eq_ok h
  split at h
  · cases h
    exact Or.inl rfl
  rename_i c hlookup
  obtain ⟨_, _, h⟩ := bind_eq_ok h
  split at h
  · cases h
    exact Or.inl rfl
  rename_i hclaim
  rw [not_or, not_not, not_not] at hclaim
  refine Or.inr ⟨c, _, hlookup, hclaim.1, rfl, ?_⟩
  simp only at h
  split at h
  · rename_i hterminal
    cases h
    rw [if_pos hterminal, hterminal]
  · rename_i hterminal
    cases h
    rw [if_neg hterminal, Bool.eq_false_of_not_eq_true hterminal]

/-- What `acquire` does, case by case. -/
inductive Acquired (s : Store) (runId commandId : String) (leaseSeconds : Nat) (r : Run)
    (c : Command) : Option Lease -> Store -> Prop where
  | exhausted (h : r.leaseCommandId = some commandId)
      (hlimit : 4 ≤ max (c.infrastructureFailures + 1) c.executionCount) :
      Acquired s runId commandId leaseSeconds r c none
        (((s.loseRequests runId r.sourceVersion (r.epoch + 1)).setCommand commandId
          (exhaustCommand s.now r.epoch
            (max (c.infrastructureFailures + 1) c.executionCount))).setRun runId
          (settleRun .failed))
  | takenOver (h : r.leaseCommandId = some commandId)
      (hlimit : max (c.infrastructureFailures + 1) c.executionCount < 4) :
      Acquired s runId commandId leaseSeconds r c
        (some ⟨runId, r.sourceVersion, r.epoch + 1, commandId, r.domainRevision⟩)
        (((s.loseRequests runId r.sourceVersion (r.epoch + 1)).setCommand commandId
          (countLoss (max (c.infrastructureFailures + 1) c.executionCount))).grantLease
            runId commandId leaseSeconds)
  | granted (h : r.leaseCommandId ≠ some commandId) :
      Acquired s runId commandId leaseSeconds r c
        (some ⟨runId, r.sourceVersion, r.epoch + 1, commandId, r.domainRevision⟩)
        ((s.loseRequests runId r.sourceVersion (r.epoch + 1)).grantLease runId commandId
          leaseSeconds)

theorem acquire_cases {sourceVersion leaseSeconds : Nat}
    {lease : Option Lease}
    (h : s.acquire runId commandId sourceVersion leaseSeconds = .ok (lease, s')) :
    lease = none ∧ s' = s ∨
      exists r c, s.runs.lookup runId = some r ∧ s.Live runId commandId c ∧
        s.leaseLive r = false ∧ Acquired s runId commandId leaseSeconds r c lease s' := by
  obtain ⟨_, _, h⟩ := bind_eq_ok h
  obtain ⟨r, hrun, h⟩ := bind_eq_ok h
  split at h
  · cases h
    exact Or.inl ⟨rfl, rfl⟩
  rename_i hready
  rw [not_or, not_or, not_not, Bool.not_eq_true, Bool.not_eq_true] at hready
  obtain ⟨hversion, _, hfree⟩ := hready
  split at h
  · cases h
    exact Or.inl ⟨rfl, rfl⟩
  rename_i c hlookup
  split at h
  · cases h
    exact Or.inl ⟨rfl, rfl⟩
  rename_i hcommand
  rw [not_or, not_or, not_or, not_not, not_not, not_not, Bool.not_eq_false] at hcommand
  obtain ⟨howner, _, hrevision, hlive⟩ := hcommand
  obtain ⟨_, _, h⟩ := bind_eq_ok h
  refine Or.inr ⟨r, c, run_eq_ok hrun, ⟨hlookup, howner, hlive⟩, hfree, ?_⟩
  subst hversion
  rw [hrevision] at h
  simp only at h
  split at h
  · rename_i hheld
    split at h
    · rename_i hlimit
      cases h
      exact Acquired.exhausted hheld hlimit
    · rename_i hlimit
      cases h
      exact Acquired.takenOver hheld (Nat.lt_of_not_le hlimit)
  · rename_i hheld
    cases h
    exact Acquired.granted hheld

theorem heartbeat_eq_ok {leaseSeconds : Nat} (h : s.heartbeat lease leaseSeconds = .ok s') :
    exists r, Holds s lease r ∧
      s' = s.setRun lease.runId fun r => { r with leaseUntil := some (s.now + leaseSeconds) } := by
  obtain ⟨_, _, h⟩ := bind_eq_ok h
  obtain ⟨r, hfence, h⟩ := bind_eq_ok h
  cases h
  exact ⟨r, assertFence_eq_ok hfence, rfl⟩

theorem release_eq_ok {limit : Nat} {result : Release} {checklistDigest : Option String}
    {metadata : ReleaseMetadata}
    (h : s.release limit lease result checklistDigest error metadata = .ok s') :
    exists r, Holds s lease r ∧ result.isResult = true ∧
      match result with
      | .done status => s' = s.finishExecution lease status checklistDigest error metadata
      | .retry => exists c, s.commands.lookup lease.commandId = some c ∧
          (s' = (s.setCommand lease.commandId countFailure).finishExecution lease .failed
            checklistDigest error
            { metadata with reason := some "infrastructure_retries_exhausted" } ∨
          c.infrastructureFailures + 1 < limit ∧
            s' = ((s.setCommand lease.commandId countFailure).setCommand lease.commandId
              (reopenCommand error)).setRun lease.runId (releaseRun .pending checklistDigest)) := by
  obtain ⟨_, hresult, h⟩ := bind_eq_ok h
  obtain ⟨_, _, h⟩ := bind_eq_ok h
  obtain ⟨_, _, h⟩ := bind_eq_ok h
  obtain ⟨r, hfence, h⟩ := bind_eq_ok h
  refine ⟨r, assertFence_eq_ok hfence, by simpa using reject_eq_ok.mp hresult, ?_⟩
  cases result with
  | done status =>
      cases h
      rfl
  | retry =>
      simp only at h
      split at h
      · cases h
      rename_i c hlookup
      refine ⟨c, hlookup, ?_⟩
      split at h
      · cases h
        exact Or.inl rfl
      · rename_i hlimit
        cases h
        exact Or.inr ⟨Nat.lt_of_not_le hlimit, rfl⟩

/-!
# Requests of a user
-/

theorem reopenRun_eq_ok {kind : CommandKind} {payload : Payload}
    (h : s.reopenRun commandId key kind payload = .ok s') :
    exists c, (s.setRun key.runId fun r => { r with status := .pending }).command commandId key
      kind payload = .ok (c, s') := by
  obtain ⟨⟨c, s1⟩, hcommand, h⟩ := bind_eq_ok h
  cases h
  obtain ⟨_, hfree, hcommand⟩ := bind_eq_ok hcommand
  cases hcommand
  refine ⟨s.newCommand key kind payload, ?_⟩
  have hnone : ¬ (s.setRun key.runId fun r => { r with status := .pending }).commands.contains
    commandId = true := reject_eq_ok.mp hfree
  unfold Store.command
  rw [reject_bind hnone]
  rfl

theorem retry_cases {failedCommandId requestKey reason : String}
    {sourceVersion domainRevision : Nat}
    (h : s.retry commandId runId sourceVersion domainRevision failedCommandId requestKey
      reason = .ok (answer, s')) :
    s' = s ∨ exists r kind payload, s.runs.lookup runId = some r ∧
      r.sourceVersion = sourceVersion ∧ r.domainRevision = domainRevision ∧
      r.status = .failed ∧ s.leaseLive r = false ∧
      (s.settleSends ⟨runId, sourceVersion, domainRevision⟩).reopenRun commandId
        ⟨runId, sourceVersion, domainRevision⟩ kind payload = .ok s' := by
  obtain ⟨_, _, h⟩ := bind_eq_ok h
  obtain ⟨r, hlookup, h⟩ := bind_eq_ok h
  obtain ⟨_, hbaseline, h⟩ := bind_eq_ok h
  obtain ⟨_, _, h⟩ := bind_eq_ok h
  have hbase := reject_eq_ok.mp hbaseline
  rw [not_or, not_or, not_not, not_not] at hbase
  split at h
  · obtain ⟨_, _, h⟩ := bind_eq_ok h
    cases h
    exact Or.inl rfl
  obtain ⟨_, hfailed, h⟩ := bind_eq_ok h
  have hstatus := reject_eq_ok.mp hfailed
  rw [not_or, not_not, Bool.not_eq_true] at hstatus
  split at h
  · cases h
  obtain ⟨_, _, h⟩ := bind_eq_ok h
  simp only at h
  split at h
  · cases h
  obtain ⟨s2, hreopen, h⟩ := bind_eq_ok h
  cases h
  exact Or.inr ⟨r, _, _, run_eq_ok hlookup, hbase.1, hbase.2.1, hstatus.1, hstatus.2, hreopen⟩

theorem confirm_cases {checklistDigest idempotencyKey : String} {sourceVersion : Nat}
    {domainRevision : Option Nat} {issueResolutions : Option (List IssueResolution)}
    (h : s.confirm commandId runId sourceVersion checklistDigest idempotencyKey
      domainRevision issueResolutions = .ok (answer, s')) :
    s' = s ∨ exists r confirmation payload, s.runs.lookup runId = some r ∧
      r.status = .waitingConfirmation ∧
      (s.insertConfirmation (r.revisionKey runId) confirmation).reopenRun commandId
        (r.revisionKey runId) .resume payload = .ok s' := by
  obtain ⟨_, _, h⟩ := bind_eq_ok h
  obtain ⟨r, hlookup, h⟩ := bind_eq_ok h
  obtain ⟨_, hbaseline, h⟩ := bind_eq_ok h
  obtain ⟨_, _, h⟩ := bind_eq_ok h
  have hbase := reject_eq_ok.mp hbaseline
  rw [not_or, not_or, not_not, not_not] at hbase
  split at h
  · cases h
  obtain ⟨_, _, h⟩ := bind_eq_ok h
  split at h
  · cases h
    exact Or.inl rfl
  obtain ⟨_, hwaiting, h⟩ := bind_eq_ok h
  have hstatus := reject_eq_ok.mp hwaiting
  rw [not_or, not_not, not_not] at hstatus
  obtain ⟨s2, hreopen, h⟩ := bind_eq_ok h
  cases h
  rw [hbase.2.1, ← hbase.1] at hreopen
  exact Or.inr ⟨r, _, _, run_eq_ok hlookup, hstatus.1, hreopen⟩

theorem cancel_outcome {answer : Run} (h : s.cancel runId = .ok (answer, s')) :
    exists r, s.runs.lookup runId = some r ∧
      if r.cancelRequested = true then answer = r ∧ s' = s
      else s' = s.invalidate runId "cancel_requested"
        (replaceRun .cancelled r.sourceVersion r.domainRevision true) := by
  obtain ⟨r, hlookup, h⟩ := bind_eq_ok h
  refine ⟨r, run_eq_ok hlookup, ?_⟩
  split at h
  · rename_i hcancelled
    cases h
    rw [if_pos hcancelled]
    exact ⟨rfl, rfl⟩
  · rename_i hwanted
    obtain ⟨_, _, h⟩ := bind_eq_ok h
    cases h
    rw [if_neg hwanted]

theorem cancel_cases {answer : Run} (h : s.cancel runId = .ok (answer, s')) :
    s' = s ∨ exists r, s.runs.lookup runId = some r ∧
      s' = s.invalidate runId "cancel_requested"
        (replaceRun .cancelled r.sourceVersion r.domainRevision true) := by
  obtain ⟨r, hlookup, houtcome⟩ := cancel_outcome h
  split at houtcome
  · exact Or.inl houtcome.2
  · exact Or.inr ⟨r, hlookup, houtcome⟩

/-- The work of the run is cancelled, and a command for the next revision takes its place. -/
def Superseded (s s' : Store) (runId : String) : Prop :=
  exists r reason sources revision next commandId c, s.runs.lookup runId = some r ∧
    next.runId = runId ∧ Store.command
      { s.invalidate runId reason
          (replaceRun .pending next.sourceVersion next.domainRevision false) with
        sourceVersions := sources
        revisions := s.revisions.insertNew next revision }
      commandId next .start ⟨none, none⟩ = .ok (c, s') ∧
    (sources = s.sourceVersions ∨
      exists key source, sources = s.sourceVersions.insertNew key source)

/-- A request with a known key is answered from what is recorded under the key, and any
other takes the work of the run over. -/
def Replays (s s' : Store) (runId : String) (recorded : Option Submitted) (answer : Submitted) :
    Prop :=
  match recorded with
  | some prior => answer = prior ∧ s' = s
  | none => s.Superseded s' runId

theorem Replays.cases {recorded : Option Submitted} {answer : Submitted}
    (h : Replays s s' runId recorded answer) : s' = s ∨ s.Superseded s' runId := by
  cases recorded with
  | none => exact Or.inr h
  | some prior => exact Or.inl h.2

/-- The answer to a source revision that a request key already names. -/
def revised (s : Store) (runId requestKey : String) : Option Submitted :=
  (s.sourceOf runId requestKey).map fun row => ⟨row.1, 1⟩

/-- The answer to a domain revision that a request key already names. -/
def corrected (s : Store) (runId requestKey : String) : Option Submitted :=
  (s.revisionOf runId requestKey).map fun row => ⟨row.1.sourceVersion, row.1.domainRevision⟩

theorem replays_revise {answer : Submitted}
    (h : s.revise commandId runId manifestRef requestKey = .ok (answer, s')) :
    Replays s s' runId (s.revised runId requestKey) answer := by
  obtain ⟨_, _, h⟩ := bind_eq_ok h
  obtain ⟨r, hlookup, h⟩ := bind_eq_ok h
  obtain ⟨_, _, h⟩ := bind_eq_ok h
  unfold revised
  split at h
  · rename_i sourceVersion prior hprior
    obtain ⟨_, _, h⟩ := bind_eq_ok h
    cases h
    rw [hprior]
    exact ⟨rfl, rfl⟩
  rename_i hprior
  rw [hprior]
  split at h
  · cases h
  obtain ⟨_, _, h⟩ := bind_eq_ok h
  obtain ⟨_, _, h⟩ := bind_eq_ok h
  obtain ⟨s2, hsource, h⟩ := bind_eq_ok h
  obtain ⟨⟨c, s3⟩, hcommand, h⟩ := bind_eq_ok h
  cases h
  obtain ⟨source, revision, rfl⟩ := insertSource_eq_ok hsource
  exact ⟨r, _, _, revision, _, _, c, run_eq_ok hlookup, rfl, hcommand, Or.inr ⟨_, source, rfl⟩⟩

theorem superseded_advance {reason : String} {revision : Revision} {answer : Submitted}
    (hrun : s.run key.runId = .ok r)
    (h : s.advance commandId key revision reason = .ok (answer, s')) :
    s.Superseded s' key.runId := by
  obtain ⟨_, _, h⟩ := bind_eq_ok h
  obtain ⟨⟨c, s3⟩, hcommand, h⟩ := bind_eq_ok h
  cases h
  exact ⟨r, reason, _, revision, { key with domainRevision := key.domainRevision + 1 },
    commandId, c, run_eq_ok hrun, rfl, hcommand, Or.inl rfl⟩

theorem replays_correct {baseItemsDigest requestKey reason : String} {correctedItemsRef : Json}
    {sourceVersion expectedRevision : Nat} {answer : Submitted}
    (h : s.correct commandId runId sourceVersion expectedRevision baseItemsDigest
      correctedItemsRef requestKey reason = .ok (answer, s')) :
    Replays s s' runId (s.corrected runId requestKey) answer := by
  obtain ⟨_, _, h⟩ := bind_eq_ok h
  obtain ⟨r, hlookup, h⟩ := bind_eq_ok h
  obtain ⟨_, _, h⟩ := bind_eq_ok h
  unfold corrected
  split at h
  · rename_i key prior hprior
    obtain ⟨_, hsame, h⟩ := bind_eq_ok h
    cases h
    have hversion := (not_or.mp (reject_eq_ok.mp hsame)).1
    rw [hprior, ← not_not.mp hversion]
    exact ⟨rfl, rfl⟩
  rename_i hprior
  rw [hprior]
  obtain ⟨_, _, h⟩ := bind_eq_ok h
  split at h
  · obtain ⟨_, _, h⟩ := bind_eq_ok h
    split at h
    · cases h
    · exact superseded_advance hlookup h
  · cases h

theorem replays_reviewScope {basePlanDigest requestKey reason : String} {scopeDecisionsRef : Json}
    {sourceVersion expectedRevision : Nat} {answer : Submitted}
    (h : s.reviewScope commandId runId sourceVersion expectedRevision basePlanDigest
      scopeDecisionsRef requestKey reason = .ok (answer, s')) :
    Replays s s' runId (s.corrected runId requestKey) answer := by
  obtain ⟨_, _, h⟩ := bind_eq_ok h
  obtain ⟨r, hlookup, h⟩ := bind_eq_ok h
  obtain ⟨_, _, h⟩ := bind_eq_ok h
  unfold corrected
  split at h
  · rename_i key prior hprior
    obtain ⟨_, hsame, h⟩ := bind_eq_ok h
    cases h
    have hversion := (not_or.mp (reject_eq_ok.mp hsame)).1
    rw [hprior, ← not_not.mp hversion]
    exact ⟨rfl, rfl⟩
  rename_i hprior
  rw [hprior]
  obtain ⟨_, _, h⟩ := bind_eq_ok h
  split at h
  · obtain ⟨_, _, h⟩ := bind_eq_ok h
    exact superseded_advance hlookup h
  · cases h

/-!
# Methods of a worker
-/

theorem pinExecutionSpec_cases {spec : ExecutionSpec} (h : s.pinExecutionSpec lease spec = .ok s') :
    s' = s ∨ exists revision, s.revisions.lookup lease.revisionKey = some revision ∧
      revision.executionSpec = none ∧ s' = { s with
        revisions := s.revisions.modify lease.revisionKey fun revision =>
          { revision with executionSpec := some spec } } := by
  obtain ⟨_, _, h⟩ := bind_eq_ok h
  obtain ⟨_, _, h⟩ := bind_eq_ok h
  split at h
  · cases h
  rename_i revision hlookup
  split at h
  · obtain ⟨_, _, h⟩ := bind_eq_ok h
    cases h
    exact Or.inl rfl
  · rename_i hnone
    cases h
    exact Or.inr ⟨revision, hlookup, hnone, rfl⟩

theorem commitArtifact_cases {stage scope inputDigest : String} {artifactRef : ArtifactRef}
    {metadata : ArtifactMetadata}
    (h : s.commitArtifact lease stage scope artifactRef inputDigest metadata = .ok s') :
    s' = s ∧ (s.artifacts.lookup (artifactKey lease stage scope)).isSome = true ∨
      s.artifacts.lookup (artifactKey lease stage scope) = none ∧
      s' = s.insertArtifact (artifactKey lease stage scope) artifactRef inputDigest metadata
        lease.epoch := by
  obtain ⟨_, _, h⟩ := bind_eq_ok h
  simp only at h
  split at h
  · rename_i prior hprior
    obtain ⟨_, _, h⟩ := bind_eq_ok h
    cases h
    exact Or.inl ⟨rfl, by rw [hprior]; rfl⟩
  · rename_i hnone
    cases h
    exact Or.inr ⟨hnone, rfl⟩

theorem reserveGroupAttempt_cases {attemptId basisDigest : String} {artifactRef : ArtifactRef}
    {workUnitKeys : List String}
    (h : s.reserveGroupAttempt lease attemptId artifactRef basisDigest workUnitKeys = .ok s') :
    s' = s ∧ (s.artifactOf lease.revisionKey "model-group-attempt" attemptId).isSome = true ∨
      s.openAttempt lease.revisionKey workUnitKeys = none ∧
      (forall workUnitKey, workUnitKey ∈ workUnitKeys ->
        s.attemptCount lease.revisionKey lease.commandId workUnitKey < 4) ∧
      s' = s.insertArtifact
        ⟨lease.runId, lease.sourceVersion, lease.domainRevision, "model-group-attempt", attemptId⟩
        artifactRef basisDigest (attemptMetadata basisDigest lease.commandId workUnitKeys)
        lease.epoch := by
  obtain ⟨_, _, h⟩ := bind_eq_ok h
  obtain ⟨_, _, h⟩ := bind_eq_ok h
  simp only at h
  split at h
  · rename_i prior hprior
    obtain ⟨_, _, h⟩ := bind_eq_ok h
    cases h
    exact Or.inl ⟨rfl, by rw [hprior]; rfl⟩
  obtain ⟨_, _, h⟩ := bind_eq_ok h
  split at h
  · cases h
  rename_i hopen
  obtain ⟨_, hlimit, h⟩ := bind_eq_ok h
  split at h
  · cases h
  cases h
  refine Or.inr ⟨hopen, ?_, rfl⟩
  intro workUnitKey hmem
  have hcount := reject_eq_ok.mp hlimit
  rw [Bool.not_eq_true, List.any_eq_false] at hcount
  simpa using hcount workUnitKey hmem

theorem prepareRequest_cases {requestId model : String} {task : Task} {metadata : RequestMetadata}
    {row : String × ModelRequest}
    (h : s.prepareRequest lease requestId model task metadata = .ok (row, s')) :
    s' = s ∨ s.requests.lookup requestId = none ∧
      s' = { s with
        requests := s.requests.insertNew requestId (s.newRequest lease model task metadata) } := by
  unfold prepareRequest at h
  simp only at h
  split at h
  · cases h
    exact Or.inl rfl
  split at h
  · cases h
  split at h
  · cases h
    exact Or.inl rfl
  · obtain ⟨_, hfree, h⟩ := bind_eq_ok h
    cases h
    exact Or.inr ⟨lookup_of_free (reject_eq_ok.mp hfree), rfl⟩

/-- A request of a group attempt is registered only when the attempt has none. -/
theorem beginRequest_cases {requestId model : String} {task : Task} {given : RequestMetadata}
    {row : String × ModelRequest}
    (h : s.beginRequest lease requestId model task given = .ok (row, s')) :
    s' = s ∨ exists metadata, s.requests.lookup requestId = none ∧
      s' = { s with
        requests := s.requests.insertNew requestId (s.newRequest lease model task metadata) } ∧
      forall attemptId, groupAttemptOf metadata = some attemptId ->
        s.groupRequest lease.revisionKey attemptId = none := by
  obtain ⟨_, _, h⟩ := bind_eq_ok h
  obtain ⟨_, _, h⟩ := bind_eq_ok h
  obtain ⟨_, _, h⟩ := bind_eq_ok h
  split at h
  · rename_i hnone
    rcases prepareRequest_cases h with rfl | ⟨hfree, rfl⟩
    · exact Or.inl rfl
    · refine Or.inr ⟨_, hfree, rfl, ?_⟩
      intro attemptId hattempt
      rw [hnone] at hattempt
      cases hattempt
  rename_i attemptId hattempt
  split at h
  · cases h
  obtain ⟨_, _, h⟩ := bind_eq_ok h
  obtain ⟨_, _, h⟩ := bind_eq_ok h
  split at h
  · obtain ⟨_, _, h⟩ := bind_eq_ok h
    cases h
    exact Or.inl rfl
  · rename_i hfirst
    rcases prepareRequest_cases h with rfl | ⟨hfree, rfl⟩
    · exact Or.inl rfl
    · refine Or.inr ⟨_, hfree, rfl, ?_⟩
      intro attemptId' hattempt'
      rw [hattempt] at hattempt'
      cases hattempt'
      exact hfirst

theorem finishRequest_eq_ok {requestId : String} {status : RequestStatus}
    {responseRef : Option ArtifactRef}
    (h : s.finishRequest requestId status error responseRef = .ok s') :
    exists q, s.requests.lookup requestId = some q ∧ status ≠ .prepared ∧
      s.checkTransition requestId q status = .ok () ∧
      ¬ (responseRef.any fun given => q.responseRef.any fun known => known != given) = true ∧
      s' = if q.status = .succeeded ∨ q.status = .failed then
          s.setRequest requestId (attachResponse responseRef)
        else s.setRequest requestId (finishRow s.now status error responseRef) := by
  obtain ⟨_, hprepared, h⟩ := bind_eq_ok h
  split at h
  · cases h
  rename_i q hlookup
  obtain ⟨_, hcheck, h⟩ := bind_eq_ok h
  obtain ⟨_, hresponse, h⟩ := bind_eq_ok h
  refine ⟨q, hlookup, reject_eq_ok.mp hprepared, hcheck, reject_eq_ok.mp hresponse, ?_⟩
  split at h
  · rename_i hclosed
    obtain ⟨_, _, h⟩ := bind_eq_ok h
    cases h
    rw [if_pos hclosed]
  · rename_i hopen
    cases h
    rw [if_neg hopen]

end Store

end Tender
end KnowledgeBrain
