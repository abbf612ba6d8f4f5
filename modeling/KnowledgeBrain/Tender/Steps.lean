import KnowledgeBrain.Tender.Methods

/-!
# Every method keeps one command at a time
-/

namespace KnowledgeBrain
namespace Tender

open Foundation Table

variable {s s' : Store} {runId id : String} {r : Run} {c : Command}

variable {lease : Lease}

theorem Holds.command_live (h : Holds s lease r) (hsound : Sound s) :
    exists c, s.Live lease.runId lease.commandId c ∧ c.status = .running := by
  obtain ⟨id, c, hleased, hlive, hrunning⟩ := (hsound.runs _ _ h.run).lease h.live
  rw [h.command] at hleased
  cases hleased
  exact ⟨c, hlive, hrunning⟩

/-!
# Submission
-/

theorem Sound.submit (h : Sound s) {commandId requestKey answer : String} {manifestRef : Json}
    (hrun : s.submit runId commandId manifestRef requestKey = .ok (answer, s')) : Sound s' := by
  rcases Store.submit_cases hrun with rfl | ⟨source, revision, c, hnone, hcommand⟩
  · exact h
  have hvacant : Vacant s
      { s with
        runs := s.runs.insertNew runId (Store.newRun requestKey)
        sourceVersions := s.sourceVersions.insertNew (runId, 1) source
        revisions := s.revisions.insertNew ⟨runId, 1, 1⟩ revision }
      runId (Store.newRun requestKey) := by
    refine ⟨⟨rfl, ?_, fun _ _ _ => Iff.rfl⟩, ?_, ?_, rfl, h.counts⟩
    · intro runId' hne
      rw [lookup_insertNew, if_neg hne]
    · rintro id c ⟨hstored, howner, _⟩
      obtain ⟨r, hlookup⟩ := h.owners id c hstored
      rw [howner, hnone] at hlookup
      cases hlookup
    · rw [lookup_insertNew, if_pos rfl, hnone]
      rfl
  exact hvacant.command h hcommand rfl rfl rfl rfl

/-!
# Dispatch
-/

variable {f : Command -> Command}

theorem Rewrites.setCommand (hr : s.runs.lookup runId = some r)
    (hlookup : s.commands.lookup id = some c) :
    Rewrites s (s.setCommand id f) runId id r (f c) := by
  refine ⟨rfl, ?_, ?_⟩
  · intro runId'
    split
    · rename_i hid
      rw [hid]
      exact hr
    · rfl
  · intro id'
    change (s.commands.modify id f).lookup id' = _
    rw [lookup_modify]
    split
    · rename_i hid
      rw [hid, hlookup]
      rfl
    · rfl

variable {g : Run -> Run}

theorem Rewrites.setBoth (hr : s.runs.lookup runId = some r)
    (hlookup : s.commands.lookup id = some c) :
    Rewrites s ((s.setCommand id f).setRun runId g) runId id (g r) (f c) := by
  refine ⟨rfl, ?_, (Rewrites.setCommand hr hlookup).commands⟩
  intro runId'
  change (s.runs.modify runId g).lookup runId' = _
  rw [lookup_modify]
  split
  · rename_i hid
    rw [hid, hr]
    rfl
  · rfl

theorem Rewrites.after {r' : Run} {c' : Command}
    (h : Rewrites (s.setCommand id f) s' runId id r' c') : Rewrites s s' runId id r' c' := by
  refine ⟨h.now, h.runs, ?_⟩
  intro id'
  rw [h.commands]
  split
  · rfl
  · rename_i hid
    exact lookup_modify_of_ne s.commands f hid

theorem Store.lookup_setCommand (hlookup : s.commands.lookup id = some c) :
    (s.setCommand id f).commands.lookup id = some (f c) := by
  change (s.commands.modify id f).lookup id = _
  rw [lookup_modify_self, hlookup]
  rfl

/-- A live command whose run is not under a lease may get another live status. -/
theorem Sound.setStatus (h : Sound s) (hr : s.runs.lookup runId = some r)
    (hlive : s.Live runId id c) (hfree : s.leaseLive r = false) (howner : (f c).runId = c.runId)
    (hversion : (f c).sourceVersion = c.sourceVersion)
    (hrevision : (f c).domainRevision = c.domainRevision)
    (hcount : (f c).executionCount = c.executionCount)
    (hfailures : c.infrastructureFailures ≤ (f c).infrastructureFailures)
    (hbound : (f c).infrastructureFailures < 4) (hlive' : (f c).status.isLive = true) :
    Sound (s.setCommand id f) := by
  have hrun := h.runs runId r hr
  have hc := hrun.current id c hlive
  apply h.keep hr hlive (Rewrites.setCommand hr hlive.stored) (howner.trans hlive.owner) hlive'
    (hrun.only hlive).2
  · refine ⟨hversion.trans hc.version, hrevision.trans hc.revision, hbound, ?_, ?_⟩
    · intro hheld
      have hle := hc.held hheld
      omega
    · intro hnot
      have hle := hc.free hnot
      omega
  · intro hlease
    change s.leaseLive r = true at hlease
    rw [hfree] at hlease
    cases hlease

theorem Store.due_live {redeliverSeconds : Nat} (h : s.due redeliverSeconds c = true) :
    c.status.isLive = true := by
  unfold Store.due at h
  split at h <;> simp_all [CommandStatus.isLive]

theorem Store.claimable_facts {redeliverSeconds : Nat} (h : s.claimable redeliverSeconds c = true) :
    c.status.isLive = true ∧
      exists r, s.runs.lookup c.runId = some r ∧ s.leaseLive r = false := by
  unfold Store.claimable at h
  rw [Option.any_eq_true] at h
  obtain ⟨r, hrun, h⟩ := h
  rw [Option.any_eq_true] at h
  obtain ⟨revision, _, h⟩ := h
  simp only [Bool.and_eq_true, Bool.not_eq_true'] at h
  exact ⟨Store.due_live h.2, r, hrun, h.1.2⟩

/-- The claims of one dispatch, one after the other. -/
theorem Sound.claimAll {tokens : String -> String} {claimSeconds : Nat}
    {rows : List (String × Command)} (h : Sound s)
    (hrows : forall row, row ∈ rows -> exists c r, s.Live c.runId row.1 c ∧
      s.runs.lookup c.runId = some r ∧ s.leaseLive r = false) :
    Sound (rows.foldl
      (fun s row => s.setCommand row.1
        (Store.claimCommand (tokens row.1) (s.now + claimSeconds))) s) := by
  induction rows generalizing s with
  | nil => exact h
  | cons row rest ih =>
      obtain ⟨c, r, hlive, hr, hfree⟩ := hrows row List.mem_cons_self
      have hfailures := ((h.runs c.runId r hr).current row.1 c hlive).failures
      have hclaimed : Sound (s.setCommand row.1
          (Store.claimCommand (tokens row.1) (s.now + claimSeconds))) :=
        h.setStatus hr hlive hfree rfl rfl rfl rfl (Nat.le_refl _) hfailures rfl
      apply ih hclaimed
      intro row' hmem
      obtain ⟨c', r', hlive', hr', hfree'⟩ := hrows row' (List.mem_cons_of_mem row hmem)
      by_cases hid : row'.1 = row.1
      · refine ⟨Store.claimCommand (tokens row.1) (s.now + claimSeconds) c, r, ?_, hr, hfree⟩
        refine ⟨?_, rfl, rfl⟩
        change (s.commands.modify row.1 _).lookup row'.1 = _
        rw [hid, lookup_modify_self, hlive.stored]
        rfl
      · refine ⟨c', r', ⟨?_, rfl, hlive'.live⟩, hr', hfree'⟩
        change (s.commands.modify row.1 _).lookup row'.1 = _
        rw [lookup_modify_of_ne _ _ hid]
        exact hlive'.stored

theorem Sound.claimCommands (h : Sound s) {limit claimSeconds redeliverSeconds : Nat}
    {tokens : String -> String} {claimed : List String}
    (hrun : s.claimCommands limit claimSeconds redeliverSeconds tokens = .ok (claimed, s')) :
    Sound s' := by
  obtain ⟨_, _, hrun⟩ := bind_eq_ok hrun
  cases hrun
  apply h.claimAll
  intro row hmem
  have hsorted := List.mem_of_mem_take hmem
  rw [mem_sortBy, List.mem_filter] at hsorted
  obtain ⟨hlive, r, hr, hfree⟩ := Store.claimable_facts hsorted.2
  exact ⟨row.2, r, ⟨Table.lookup_eq_some_iff_mem.mpr hsorted.1, rfl, hlive⟩, hr, hfree⟩

theorem Sound.claimed_free (h : Sound s) (hlookup : s.commands.lookup id = some c)
    (hclaimed : c.status = .claimed) : exists r, s.runs.lookup c.runId = some r ∧
      s.Live c.runId id c ∧ s.leaseLive r = false := by
  obtain ⟨r, hr⟩ := h.owners id c hlookup
  have hlive : s.Live c.runId id c := ⟨hlookup, rfl, by rw [hclaimed]; rfl⟩
  refine ⟨r, hr, hlive, ?_⟩
  by_contra hlease
  have hrunning := ((h.runs c.runId r hr).leased hlive (by simpa using hlease)).2
  rw [hclaimed] at hrunning
  cases hrunning

theorem Sound.markPublished (h : Sound s) {commandId claimToken : String} :
    Sound (s.markPublished commandId claimToken).2 := by
  unfold Store.markPublished
  split
  · exact h
  rename_i c hlookup
  split
  · exact h
  split
  · exact h
  by_cases hclaimed : c.status = .claimed ∧
      (c.claimUntil.any fun claimUntil => s.now < claimUntil) = true
  · obtain ⟨r, hr, hlive, hfree⟩ := h.claimed_free hlookup hclaimed.1
    have hpublished : Store.publishCommand s.now c =
        { c with status := .published, publishedAt := some s.now } := if_pos hclaimed
    have hfailures := ((h.runs c.runId r hr).current commandId c hlive).failures
    apply h.setStatus hr hlive hfree
    all_goals rw [hpublished]
    · exact hfailures
    · rfl
  · have hsame : (s.setCommand commandId (Store.publishCommand s.now)).commands =
        s.commands := by
      apply modify_eq_self
      intro c' hlookup'
      rw [hlookup] at hlookup'
      cases hlookup'
      exact if_neg hclaimed
    exact h.of_eq (Nat.le_refl _) rfl hsame

variable {error : Option Json}

theorem Sound.publishFailed (h : Sound s) {commandId claimToken : String}
    {retryable answer : Bool}
    (hrun : s.publishFailed defaultFailureLimit commandId claimToken error retryable =
      .ok (answer, s')) :
    Sound s' := by
  rcases Store.publishFailed_cases hrun with
    rfl | ⟨c, terminal, hlookup, hclaimed, hterminal, rfl⟩
  · exact h
  obtain ⟨r, hr, hlive, hfree⟩ := h.claimed_free hlookup hclaimed
  split
  · exact h.finish hr hlive (Rewrites.setBoth hr hlookup) rfl rfl rfl rfl hfree
  · rename_i hgoes
    rw [hterminal] at hgoes
    simp only [Bool.or_eq_true, Bool.not_eq_true', decide_eq_true_eq, not_or] at hgoes
    apply h.setStatus hr hlive hfree rfl rfl rfl rfl
    · exact Nat.le_add_right _ _
    · exact Nat.lt_of_not_le hgoes.2
    · rfl

/-!
# Execution
-/

theorem Sound.loseRequests (h : Sound s) (runId : String) (sourceVersion epoch : Nat) :
    Sound (s.loseRequests runId sourceVersion epoch) :=
  h.of_eq (Nat.le_refl _) rfl rfl

theorem Sound.grantLease (h : Sound s) {leaseSeconds : Nat} (hr : s.runs.lookup runId = some r)
    (hlive : s.Live runId id c)
    (hcount : c.executionCount ≤ c.infrastructureFailures) :
    Sound (s.grantLease runId id leaseSeconds) := by
  have hc := (h.runs runId r hr).current id c hlive
  have hrewrites : Rewrites s (s.grantLease runId id leaseSeconds) runId id
      (Store.leaseRun id (s.now + leaseSeconds) r) (Store.startCommand c) := by
    have hboth := Rewrites.setBoth (f := Store.startCommand)
      (g := Store.leaseRun id (s.now + leaseSeconds)) hr hlive.stored
    exact ⟨hboth.now, hboth.runs, hboth.commands⟩
  apply h.keep hr hlive hrewrites hlive.owner rfl rfl
  · refine ⟨hc.version, hc.revision, hc.failures, ?_, ?_⟩
    · intro _
      exact Nat.succ_le_succ hcount
    · intro hnot
      exact absurd rfl hnot
  · intro _
    exact ⟨rfl, rfl⟩

theorem Sound.acquire (h : Sound s) {commandId : String} {sourceVersion leaseSeconds : Nat}
    {lease : Option Lease}
    (hrun : s.acquire runId commandId sourceVersion leaseSeconds = .ok (lease, s')) :
    Sound s' := by
  rcases Store.acquire_cases hrun with ⟨_, rfl⟩ | ⟨r, c, hr, hlive, hfree, hcases⟩
  · exact h
  have hlost := h.loseRequests runId r.sourceVersion (r.epoch + 1)
  have hc := (h.runs runId r hr).current commandId c hlive
  cases hcases with
  | exhausted hheld hlimit =>
      exact hlost.finish hr ⟨hlive.stored, hlive.owner, hlive.live⟩
        (Rewrites.setBoth hr hlive.stored) hlive.owner rfl rfl rfl rfl
  | takenOver hheld hlimit =>
      have hcounted : Sound ((s.loseRequests runId r.sourceVersion (r.epoch + 1)).setCommand
          commandId (Store.countLoss
            (max (c.infrastructureFailures + 1) c.executionCount))) := by
        apply hlost.setStatus hr ⟨hlive.stored, hlive.owner, hlive.live⟩ hfree rfl rfl rfl rfl
        · change c.infrastructureFailures ≤ max (c.infrastructureFailures + 1) c.executionCount
          omega
        · exact hlimit
        · exact hlive.live
      apply hcounted.grantLease (c := Store.countLoss
        (max (c.infrastructureFailures + 1) c.executionCount) c) hr
      · refine ⟨?_, hlive.owner, hlive.live⟩
        change (s.commands.modify commandId _).lookup commandId = _
        rw [lookup_modify_self, hlive.stored]
        rfl
      · exact Nat.le_max_right _ _
  | granted hheld =>
      exact hlost.grantLease hr ⟨hlive.stored, hlive.owner, hlive.live⟩ (hc.free hheld)

theorem Rewrites.setRun (hr : s.runs.lookup runId = some r)
    (hlookup : s.commands.lookup id = some c) :
    Rewrites s (s.setRun runId g) runId id (g r) c := by
  refine ⟨rfl, (Rewrites.setBoth (f := fun c => c) hr hlookup).runs, ?_⟩
  intro id'
  split
  · rename_i hid
    rw [hid]
    exact hlookup
  · rfl

theorem Sound.heartbeat (h : Sound s) {leaseSeconds : Nat}
    (hrun : s.heartbeat lease leaseSeconds = .ok s') : Sound s' := by
  obtain ⟨r, hholds, rfl⟩ := Store.heartbeat_eq_ok hrun
  obtain ⟨c, hlive, hrunning⟩ := hholds.command_live h
  have hc := (h.runs _ r hholds.run).current _ c hlive
  apply h.keep hholds.run hlive (Rewrites.setRun hholds.run hlive.stored) hlive.owner hlive.live
    ((h.runs _ r hholds.run).only hlive).2
  · exact ⟨hc.version, hc.revision, hc.failures, hc.held, hc.free⟩
  · intro _
    exact ⟨hholds.command, hrunning⟩

theorem Sound.finishExecution (h : Sound s) {status : RunStatus} {checklistDigest : Option String}
    {metadata : ReleaseMetadata} (hr : s.runs.lookup lease.runId = some r)
    (hlive : s.Live lease.runId lease.commandId c) (hstatus : status.isBusy = false) :
    Sound (s.finishExecution lease status checklistDigest error metadata) :=
  h.finish hr hlive (Rewrites.setBoth hr hlive.stored) hlive.owner rfl hstatus rfl rfl

theorem Release.isResult_idle {status : RunStatus} (h : (Release.done status).isResult = true) :
    status.isBusy = false := by
  cases status with
  | pending => cases h
  | running => cases h
  | _ => rfl

theorem Sound.release (h : Sound s) {result : Release} {checklistDigest : Option String}
    {metadata : ReleaseMetadata}
    (hrun : s.release defaultFailureLimit lease result checklistDigest error metadata = .ok s') :
    Sound s' := by
  obtain ⟨r, hholds, hresult, hcases⟩ := Store.release_eq_ok hrun
  obtain ⟨c, hlive, hrunning⟩ := hholds.command_live h
  have hc := (h.runs _ r hholds.run).current _ c hlive
  cases result with
  | done status =>
      rw [show s' = _ from hcases]
      exact h.finishExecution hholds.run hlive (Release.isResult_idle hresult)
  | retry =>
      have hcounted := Store.lookup_setCommand (f := Store.countFailure) hlive.stored
      have hr1 : (s.setCommand lease.commandId Store.countFailure).runs.lookup lease.runId =
        some r := hholds.run
      obtain ⟨c', hlookup, hcases⟩ := hcases
      rw [hlive.stored] at hlookup
      cases hlookup
      rcases hcases with rfl | ⟨hlimit, rfl⟩
      · exact h.finish hholds.run hlive (Rewrites.setBoth hr1 hcounted).after hlive.owner
          rfl rfl rfl rfl
      · apply h.keep hholds.run hlive (Rewrites.setBoth hr1 hcounted).after hlive.owner rfl rfl
        · refine ⟨hc.version, hc.revision, hlimit, ?_, ?_⟩
          · intro hheld
            cases hheld
          · intro _
            exact hc.held hholds.command
        · intro hlease
          cases hlease

/-!
# Requests of a user
-/

/-- A run that is not busy is vacant as soon as no lease is live. -/
theorem Sound.vacant (h : Sound s) {s1 : Store} (hr : s.runs.lookup runId = some r)
    (hidle : r.status.isBusy = false) (hnow : s1.now = s.now) (hruns : s1.runs = s.runs)
    (hcommands : s1.commands = s.commands) (hfree : s.leaseLive (g r) = false) :
    Vacant s (s1.setRun runId g) runId (g r) := by
  have hlocal : Local s (s1.setRun runId g) runId :=
    (Local.of_eq hnow hruns hcommands).trans (Local.setRun s1 runId g)
  refine ⟨hlocal, ?_, ?_, ?_, ?_⟩
  · rintro id c ⟨hstored, howner, hlive⟩
    change s1.commands.lookup id = some c at hstored
    rw [hcommands] at hstored
    exact (h.runs runId r hr).idle hidle id c ⟨hstored, howner, hlive⟩
  · change (s1.runs.modify runId g).lookup runId = _
    rw [lookup_modify_self, hruns, hr]
    rfl
  · rw [hlocal.leaseLive]
    exact hfree
  · change forall id c, s1.commands.lookup id = some c -> _
    rw [hcommands]
    exact h.counts

theorem Sound.reopenRun (h : Sound s) {s1 : Store} {commandId : String} {key : RevisionKey}
    {kind : CommandKind} {payload : Payload}
    (hrun : s1.reopenRun commandId key kind payload = .ok s')
    (hr : s.runs.lookup key.runId = some r) (hidle : r.status.isBusy = false)
    (hfree : s.leaseLive r = false) (hversion : key.sourceVersion = r.sourceVersion)
    (hrevision : key.domainRevision = r.domainRevision) (hnow : s1.now = s.now)
    (hruns : s1.runs = s.runs) (hcommands : s1.commands = s.commands) : Sound s' := by
  obtain ⟨c, hcommand⟩ := Store.reopenRun_eq_ok hrun
  have hvacant := h.vacant (g := fun r => { r with status := .pending }) hr hidle hnow hruns
    hcommands hfree
  exact hvacant.command h hcommand rfl rfl hversion hrevision

theorem Sound.retry (h : Sound s) {commandId failedCommandId requestKey reason answer : String}
    {sourceVersion domainRevision : Nat}
    (hrun : s.retry commandId runId sourceVersion domainRevision failedCommandId requestKey
      reason = .ok (answer, s')) : Sound s' := by
  rcases Store.retry_cases hrun with
    rfl | ⟨r, kind, payload, hr, hversion, hrevision, hstatus, hfree, hreopen⟩
  · exact h
  refine h.reopenRun hreopen hr ?_ hfree hversion.symm hrevision.symm rfl rfl rfl
  rw [hstatus]
  rfl

theorem Sound.confirm (h : Sound s) {commandId checklistDigest idempotencyKey answer : String}
    {sourceVersion : Nat} {domainRevision : Option Nat}
    {issueResolutions : Option (List IssueResolution)}
    (hrun : s.confirm commandId runId sourceVersion checklistDigest idempotencyKey
      domainRevision issueResolutions = .ok (answer, s')) : Sound s' := by
  rcases Store.confirm_cases hrun with rfl | ⟨r, confirmation, payload, hr, hstatus, hreopen⟩
  · exact h
  have hidle : r.status.isBusy = false := by
    rw [hstatus]
    rfl
  refine h.reopenRun hreopen hr hidle ?_ rfl rfl rfl rfl rfl
  -- A live lease would belong to a live command, and the run has none.
  by_contra hlease
  obtain ⟨id, c, _, hlive, _⟩ := (h.runs runId r hr).lease (by simpa using hlease)
  exact (h.runs runId r hr).idle hidle id c hlive

/-- What is left of a run after its work was cancelled. -/
theorem Sound.invalidate (h : Sound s) (s1 : Store) (reason : String)
    (hr : s.runs.lookup runId = some r) (hnow : s1.now = s.now) (hruns : s1.runs = s.runs)
    (hcommands : s1.commands = s.commands) (hfree : (g r).leaseUntil = none) :
    Vacant s (s1.invalidate runId reason g) runId (g r) := by
  have hlocal : Local s (s1.invalidate runId reason g) runId :=
    (((Local.of_eq hnow hruns hcommands).trans (Local.setRun s1 runId g)).trans
      (Local.cancelCommands (s1.setRun runId g) runId reason)).trans (Local.of_eq rfl rfl rfl)
  have hidle := (s1.setRun runId g).idle_cancelCommands runId reason
  refine ⟨hlocal, fun id c hlive => hidle id c ⟨hlive.stored, hlive.owner, hlive.live⟩, ?_, ?_,
    ?_⟩
  · change (s1.runs.modify runId g).lookup runId = _
    rw [lookup_modify_self, hruns, hr]
    rfl
  · rw [Store.leaseLive, hfree]
    rfl
  · intro id c hlookup
    obtain ⟨old, hold, hcount⟩ := Store.count_cancelCommands (s := s1.setRun runId g) hlookup
    change s1.commands.lookup id = some old at hold
    rw [hcommands] at hold
    rw [hcount]
    exact h.counts id old hold

theorem Sound.cancel (h : Sound s) {answer : Run} (hrun : s.cancel runId = .ok (answer, s')) :
    Sound s' := by
  rcases Store.cancel_cases hrun with rfl | ⟨r, hr, rfl⟩
  · exact h
  · exact (h.invalidate s _ hr rfl rfl rfl rfl).sound h rfl

theorem Vacant.of_eq {s1 s2 : Store} (h : Vacant s s1 runId r) (hnow : s2.now = s1.now)
    (hruns : s2.runs = s1.runs) (hcommands : s2.commands = s1.commands) :
    Vacant s s2 runId r := by
  have hlocal : Local s1 s2 runId := Local.of_eq hnow hruns hcommands
  refine ⟨h.locally.trans hlocal, ?_, ?_, ?_, ?_⟩
  · rintro id c ⟨hstored, howner, hlive⟩
    rw [hcommands] at hstored
    exact h.idle id c ⟨hstored, howner, hlive⟩
  · rw [hruns]
    exact h.run
  · rw [hlocal.leaseLive]
    exact h.free
  · rw [hcommands]
    exact h.counts

theorem Sound.superseded (h : Sound s) (hcases : s' = s ∨ s.Superseded s' runId) : Sound s' := by
  rcases hcases with
    rfl | ⟨r, reason, sources, revision, next, commandId, c, hr, rfl, hcommand, _⟩
  · exact h
  have hvacant := h.invalidate s reason
    (g := Store.replaceRun .pending next.sourceVersion next.domainRevision false) hr rfl rfl rfl rfl
  apply Vacant.command h (hvacant.of_eq _ _ _) hcommand
  all_goals rfl

/-!
# Methods of a worker
-/

/-- Only the artifacts, requests or revisions of the store differ. -/
structure Ledger (s s' : Store) : Prop where
  now : s'.now = s.now
  runs : s'.runs = s.runs
  commands : s'.commands = s.commands

theorem Ledger.refl (s : Store) : Ledger s s :=
  ⟨rfl, rfl, rfl⟩

theorem Ledger.sound (h : Ledger s s') (hsound : Sound s) : Sound s' :=
  hsound.of_eq (Nat.le_of_eq h.now.symm) h.runs h.commands

theorem ledger_pinExecutionSpec {spec : ExecutionSpec}
    (hrun : s.pinExecutionSpec lease spec = .ok s') : Ledger s s' := by
  rcases Store.pinExecutionSpec_cases hrun with rfl | ⟨_, _, _, rfl⟩
  · exact Ledger.refl s'
  · exact ⟨rfl, rfl, rfl⟩

theorem ledger_commitArtifact {stage scope inputDigest : String} {artifactRef : ArtifactRef}
    {metadata : ArtifactMetadata}
    (hrun : s.commitArtifact lease stage scope artifactRef inputDigest metadata = .ok s') :
    Ledger s s' := by
  rcases Store.commitArtifact_cases hrun with ⟨rfl, _⟩ | ⟨_, rfl⟩
  · exact Ledger.refl s'
  · exact ⟨rfl, rfl, rfl⟩

theorem ledger_reserveGroupAttempt {attemptId basisDigest : String} {artifactRef : ArtifactRef}
    {workUnitKeys : List String}
    (hrun : s.reserveGroupAttempt lease attemptId artifactRef basisDigest workUnitKeys =
      .ok s') :
    Ledger s s' := by
  rcases Store.reserveGroupAttempt_cases hrun with ⟨rfl, _⟩ | ⟨_, _, rfl⟩
  · exact Ledger.refl s'
  · exact ⟨rfl, rfl, rfl⟩

theorem ledger_beginRequest {requestId model : String} {task : Task} {metadata : RequestMetadata}
    {row : String × ModelRequest}
    (hrun : s.beginRequest lease requestId model task metadata = .ok (row, s')) :
    Ledger s s' := by
  rcases Store.beginRequest_cases hrun with rfl | ⟨_, _, rfl, _⟩
  · exact Ledger.refl s'
  · exact ⟨rfl, rfl, rfl⟩

theorem ledger_finishRequest {requestId : String} {status : RequestStatus}
    {responseRef : Option ArtifactRef}
    (hrun : s.finishRequest requestId status error responseRef = .ok s') : Ledger s s' := by
  obtain ⟨q, _, _, _, _, rfl⟩ := Store.finishRequest_eq_ok hrun
  split
  · exact ⟨rfl, rfl, rfl⟩
  · exact ⟨rfl, rfl, rfl⟩

/-!
# Every step
-/

theorem sound_step (e : Event) (h : Sound s) : Sound (step e s) := by
  cases e with
  | tick seconds => exact h.of_eq (Nat.le_add_right _ _) rfl rfl
  | submit => exact commit_snd_cases h fun _ _ => h.submit
  | claimCommands => exact commit_snd_cases h fun _ _ => h.claimCommands
  | markPublished => exact h.markPublished
  | publishFailed => exact commit_snd_cases h fun _ _ => h.publishFailed
  | acquire => exact commit_snd_cases h fun _ _ => h.acquire
  | heartbeat => exact commit_cases h fun _ => h.heartbeat
  | release => exact commit_cases h fun _ => h.release
  | retry => exact commit_snd_cases h fun _ _ => h.retry
  | confirm => exact commit_snd_cases h fun _ _ => h.confirm
  | cancel => exact commit_snd_cases h fun _ _ => h.cancel
  | revise =>
      exact commit_snd_cases h fun _ _ hrun => h.superseded (Store.replays_revise hrun).cases
  | correct =>
      exact commit_snd_cases h fun _ _ hrun => h.superseded (Store.replays_correct hrun).cases
  | reviewScope =>
      exact commit_snd_cases h fun _ _ hrun => h.superseded (Store.replays_reviewScope hrun).cases
  | pinExecutionSpec => exact commit_cases h fun _ hrun => (ledger_pinExecutionSpec hrun).sound h
  | commitArtifact => exact commit_cases h fun _ hrun => (ledger_commitArtifact hrun).sound h
  | reserveGroupAttempt =>
      exact commit_cases h fun _ hrun => (ledger_reserveGroupAttempt hrun).sound h
  | beginRequest => exact commit_snd_cases h fun _ _ hrun => (ledger_beginRequest hrun).sound h
  | finishRequest => exact commit_cases h fun _ hrun => (ledger_finishRequest hrun).sound h

theorem sound_of_fresh (h : s.Fresh) : Sound s := by
  refine ⟨?_, ?_, ?_⟩
  · intro runId r hlookup
    rw [h.runs] at hlookup
    cases hlookup
  · intro id c hlookup
    rw [h.commands] at hlookup
    cases hlookup
  · intro id c hlookup
    rw [h.commands] at hlookup
    cases hlookup

theorem sound_of_reaches {start : Store} (hstart : start.Fresh)
    (hrun : Reaches step Anytime start s) : Sound s :=
  Reaches.invariant (fun e _ h _ => sound_step e h) (sound_of_fresh hstart) hrun

end Tender
end KnowledgeBrain
