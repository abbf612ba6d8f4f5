import KnowledgeBrain.Tender.Steps

/-!
# Epochs fence off earlier leases

The epoch of a run never falls, and every method that takes the run over or
replaces its work raises it.  A lease carries the epoch it was granted at, so
that nothing done under an earlier one passes the fence again.
-/

namespace KnowledgeBrain
namespace Tender

open Foundation

variable {s s' : Store} {runId id : String} {r : Run} {c : Command}

namespace Store

def epochOf (s : Store) (runId : String) : Nat :=
  (s.runs.lookup runId).elim 0 Run.epoch

/-- How often a command was started. -/
def startsOf (s : Store) (id : String) : Nat :=
  (s.commands.lookup id).elim 0 Command.executionCount

end Store

/-- No epoch falls, and no command is started. -/
structure Tame (s s' : Store) : Prop where
  epochs : forall runId, s.epochOf runId ≤ s'.epochOf runId
  starts : forall id, s'.startsOf id = s.startsOf id

theorem Tame.refl (s : Store) : Tame s s :=
  ⟨fun _ => Nat.le_refl _, fun _ => rfl⟩

theorem Tame.trans {s'' : Store} (h : Tame s s') (h' : Tame s' s'') : Tame s s'' :=
  ⟨fun runId => Nat.le_trans (h.epochs runId) (h'.epochs runId),
    fun id => (h'.starts id).trans (h.starts id)⟩

theorem Tame.of_eq (hruns : s'.runs = s.runs) (hcommands : s'.commands = s.commands) :
    Tame s s' := by
  refine ⟨?_, ?_⟩
  · intro runId
    rw [Store.epochOf, Store.epochOf, hruns]
  · intro id
    rw [Store.startsOf, Store.startsOf, hcommands]

theorem Ledger.tame (h : Ledger s s') : Tame s s' :=
  Tame.of_eq h.runs h.commands

variable {g : Run -> Run}

theorem Store.epochOf_setRun (hr : s.runs.lookup runId = some r) :
    (s.setRun runId g).epochOf runId = (g r).epoch := by
  change ((s.runs.modify runId g).lookup runId).elim 0 Run.epoch = _
  rw [Table.lookup_modify_self, hr]
  rfl

theorem Store.epochOf_eq (hr : s.runs.lookup runId = some r) : s.epochOf runId = r.epoch := by
  rw [Store.epochOf, hr]
  rfl

theorem Tame.setRun (h : Tame s s') (hg : forall r, r.epoch ≤ (g r).epoch) :
    Tame s (s'.setRun runId g) := by
  refine h.trans ⟨?_, fun _ => rfl⟩
  intro runId'
  change (s'.runs.lookup runId').elim 0 Run.epoch ≤
    ((s'.runs.modify runId g).lookup runId').elim 0 Run.epoch
  rw [Table.lookup_modify]
  split
  · cases s'.runs.lookup runId' with
    | none => exact Nat.le_refl 0
    | some r => exact hg r
  · exact Nat.le_refl _

theorem Tame.setCommand {f : Command -> Command} (h : Tame s s')
    (hf : forall c, (f c).executionCount = c.executionCount) : Tame s (s'.setCommand id f) := by
  refine h.trans ⟨fun _ => Nat.le_refl _, ?_⟩
  intro id'
  change ((s'.commands.modify id f).lookup id').elim 0 Command.executionCount =
    (s'.commands.lookup id').elim 0 Command.executionCount
  rw [Table.lookup_modify]
  split
  · cases s'.commands.lookup id' with
    | none => rfl
    | some c => exact hf c
  · rfl

theorem Tame.setBoth {f : Command -> Command} (h : Tame s s')
    (hf : forall c, (f c).executionCount = c.executionCount)
    (hg : forall r, r.epoch ≤ (g r).epoch) :
    Tame s ((s'.setCommand id f).setRun runId g) :=
  (h.setCommand hf).setRun hg

theorem Tame.cancelCommands (s : Store) (runId reason : String) :
    Tame s (s.cancelCommands runId reason) := by
  refine ⟨fun _ => Nat.le_refl _, ?_⟩
  intro id
  change ((s.commands.mapRows _).lookup id).elim 0 Command.executionCount =
    (s.commands.lookup id).elim 0 Command.executionCount
  rw [Table.lookup_mapRows]
  cases s.commands.lookup id with
  | none => rfl
  | some c =>
      rw [Option.map_some]
      split <;> rfl

variable {commandId : String}

theorem Tame.command {key : RevisionKey} {kind : CommandKind} {payload : Payload}
    (h : s.command commandId key kind payload = .ok (c, s')) :
    Tame s s' := by
  obtain ⟨_, rfl, rfl⟩ := Store.command_eq_ok h
  refine ⟨fun _ => Nat.le_refl _, ?_⟩
  intro id
  change ((s.commands.insertNew commandId _).lookup id).elim 0 Command.executionCount =
    (s.commands.lookup id).elim 0 Command.executionCount
  rw [Table.lookup_insertNew_eq_or]
  cases s.commands.lookup id with
  | some c => rfl
  | none =>
      rw [Option.none_or]
      split <;> rfl

/-!
# Method by method
-/

theorem tame_submit {commandId requestKey answer : String} {manifestRef : Json}
    (hrun : s.submit runId commandId manifestRef requestKey = .ok (answer, s')) :
    Tame s s' := by
  rcases Store.submit_cases hrun with rfl | ⟨source, revision, c, _, hcommand⟩
  · exact Tame.refl s'
  apply Tame.trans _ (Tame.command hcommand)
  refine ⟨?_, fun _ => rfl⟩
  intro runId'
  change (s.runs.lookup runId').elim 0 Run.epoch ≤
    ((s.runs.insertNew runId _).lookup runId').elim 0 Run.epoch
  rw [Table.lookup_insertNew_eq_or]
  cases s.runs.lookup runId' with
  | some r => exact Nat.le_refl _
  | none => exact Nat.zero_le _

theorem tame_claimCommands {limit claimSeconds redeliverSeconds : Nat}
    {tokens : String -> String} {claimed : List String}
    (hrun : s.claimCommands limit claimSeconds redeliverSeconds tokens = .ok (claimed, s')) :
    Tame s s' := by
  obtain ⟨_, _, hrun⟩ := bind_eq_ok hrun
  cases hrun
  apply foldl_invariant (P := fun t => Tame s t) ?_ (Tame.refl s)
  intro t row ht
  exact ht.setCommand fun _ => rfl

theorem tame_markPublished {commandId claimToken : String} :
    Tame s (s.markPublished commandId claimToken).2 := by
  unfold Store.markPublished
  split
  · exact Tame.refl s
  split
  · exact Tame.refl s
  split
  · exact Tame.refl s
  · apply (Tame.refl s).setCommand
    intro c
    unfold Store.publishCommand
    split <;> rfl

variable {error : Option Json}

theorem tame_publishFailed {limit : Nat} {commandId claimToken : String} {retryable answer : Bool}
    (hrun : s.publishFailed limit commandId claimToken error retryable = .ok (answer, s')) :
    Tame s s' := by
  rcases Store.publishFailed_cases hrun with rfl | ⟨c, terminal, _, _, _, rfl⟩
  · exact Tame.refl s'
  split
  · apply Tame.setBoth (Tame.refl s)
    · exact fun _ => rfl
    · exact fun _ => Nat.le_refl _
  · exact (Tame.refl s).setCommand fun _ => rfl

variable {lease : Lease}

theorem tame_heartbeat {leaseSeconds : Nat} (hrun : s.heartbeat lease leaseSeconds = .ok s') :
    Tame s s' := by
  obtain ⟨r, _, rfl⟩ := Store.heartbeat_eq_ok hrun
  exact (Tame.refl s).setRun fun _ => Nat.le_refl _

theorem tame_finishExecution {status : RunStatus} {checklistDigest : Option String}
    {metadata : ReleaseMetadata} :
    Tame s (s.finishExecution lease status checklistDigest error metadata) := by
  apply Tame.setBoth (Tame.refl s)
  · exact fun _ => rfl
  · exact fun _ => Nat.le_refl _

theorem tame_release {limit : Nat} {result : Release} {checklistDigest : Option String}
    {metadata : ReleaseMetadata}
    (hrun : s.release limit lease result checklistDigest error metadata = .ok s') :
    Tame s s' := by
  obtain ⟨r, _, _, hcases⟩ := Store.release_eq_ok hrun
  cases result with
  | done status =>
      rw [show s' = _ from hcases]
      exact tame_finishExecution
  | retry =>
      have hcounted : Tame s (s.setCommand lease.commandId Store.countFailure) :=
        (Tame.refl s).setCommand fun _ => rfl
      rcases hcases with ⟨c, _, rfl | ⟨_, rfl⟩⟩
      · exact hcounted.trans tame_finishExecution
      · apply Tame.setBoth hcounted
        · exact fun _ => rfl
        · exact fun _ => Nat.le_refl _

theorem tame_reopenRun {key : RevisionKey} {kind : CommandKind} {payload : Payload}
    (hrun : s.reopenRun commandId key kind payload = .ok s') :
    Tame s s' := by
  obtain ⟨c, hcommand⟩ := Store.reopenRun_eq_ok hrun
  have hstatus : Tame s (s.setRun key.runId fun r => { r with status := .pending }) :=
    (Tame.refl s).setRun fun _ => Nat.le_refl _
  exact hstatus.trans (Tame.command hcommand)

theorem tame_retry {commandId failedCommandId requestKey reason answer : String}
    {sourceVersion domainRevision : Nat}
    (hrun : s.retry commandId runId sourceVersion domainRevision failedCommandId requestKey
      reason = .ok (answer, s')) : Tame s s' := by
  rcases Store.retry_cases hrun with rfl | ⟨r, kind, payload, _, _, _, _, _, hreopen⟩
  · exact Tame.refl s'
  · apply Tame.trans (Tame.of_eq _ _) (tame_reopenRun hreopen)
    · rfl
    · rfl

theorem tame_confirm {commandId checklistDigest idempotencyKey answer : String}
    {sourceVersion : Nat} {domainRevision : Option Nat}
    {issueResolutions : Option (List IssueResolution)}
    (hrun : s.confirm commandId runId sourceVersion checklistDigest idempotencyKey
      domainRevision issueResolutions = .ok (answer, s')) : Tame s s' := by
  rcases Store.confirm_cases hrun with rfl | ⟨r, confirmation, payload, _, _, hreopen⟩
  · exact Tame.refl s'
  · apply Tame.trans (Tame.of_eq _ _) (tame_reopenRun hreopen)
    · rfl
    · rfl

/-!
# Methods that replace the work of a run
-/

/-- A tame step that raised the epoch of the run. -/
structure Replaces (s s' : Store) (runId : String) : Prop where
  tame : Tame s s'
  later : s.epochOf runId < s'.epochOf runId

theorem Replaces.then (h : Replaces s s' runId) {s'' : Store} (h' : Tame s' s'') :
    Replaces s s'' runId :=
  ⟨h.tame.trans h', Nat.lt_of_lt_of_le h.later (h'.epochs runId)⟩

theorem replaces_invalidate (s1 : Store) (reason : String) (status : RunStatus)
    (sourceVersion domainRevision : Nat) (cancelRequested : Bool)
    (hr : s.runs.lookup runId = some r) (hruns : s1.runs = s.runs)
    (hcommands : s1.commands = s.commands) :
    Replaces s (s1.invalidate runId reason
      (Store.replaceRun status sourceVersion domainRevision cancelRequested)) runId := by
  have hset : Tame s1 (s1.setRun runId
      (Store.replaceRun status sourceVersion domainRevision cancelRequested)) :=
    (Tame.refl s1).setRun fun r => Nat.le_succ r.epoch
  have hr1 : s1.runs.lookup runId = some r := by
    rw [hruns]
    exact hr
  refine ⟨((Tame.of_eq hruns hcommands).trans hset).trans
    ((Tame.cancelCommands _ runId reason).trans (Tame.of_eq rfl rfl)), ?_⟩
  have hlater := Store.epochOf_setRun
    (g := Store.replaceRun status sourceVersion domainRevision cancelRequested) hr1
  change s.epochOf runId < (s1.setRun runId _).epochOf runId
  rw [hlater, Store.epochOf_eq hr]
  exact Nat.lt_succ_self r.epoch

theorem replaces_superseded (h : s.Superseded s' runId) : Replaces s s' runId := by
  obtain ⟨r, reason, sources, revision, next, commandId, c, hr, rfl, hcommand, _⟩ := h
  have hreplaced := replaces_invalidate s reason .pending next.sourceVersion
    next.domainRevision false hr rfl rfl
  apply hreplaced.then (Tame.trans (Tame.of_eq _ _) (Tame.command hcommand))
  · rfl
  · rfl

theorem tame_superseded (h : s' = s ∨ s.Superseded s' runId) : Tame s s' := by
  rcases h with rfl | hsuperseded
  · exact Tame.refl s'
  · exact (replaces_superseded hsuperseded).tame

theorem tame_cancel {answer : Run} (hrun : s.cancel runId = .ok (answer, s')) : Tame s s' := by
  rcases Store.cancel_cases hrun with rfl | ⟨r, hr, rfl⟩
  · exact Tame.refl s'
  · exact (replaces_invalidate s _ _ _ _ _ hr rfl rfl).tame

/-!
# Acquisition
-/

/-- The step starts one command, and no epoch falls. -/
structure Starts (s s' : Store) (runId commandId : String) : Prop where
  epochs : forall runId, s.epochOf runId ≤ s'.epochOf runId
  later : s.epochOf runId < s'.epochOf runId
  started : s'.startsOf commandId = s.startsOf commandId + 1
  others : forall id, id ≠ commandId -> s'.startsOf id = s.startsOf id

theorem starts_grantLease {s1 : Store} {leaseSeconds : Nat} (htame : Tame s s1)
    (hr : s1.runs.lookup runId = some r) (hlookup : s1.commands.lookup commandId = some c) :
    Starts s (s1.grantLease runId commandId leaseSeconds) runId commandId := by
  have hepochs : Tame s (s1.setRun runId
      (Store.leaseRun commandId (s1.now + leaseSeconds))) :=
    htame.setRun fun r => Nat.le_succ r.epoch
  have hstarts : forall id, (s1.grantLease runId commandId leaseSeconds).startsOf id =
      ((s1.commands.modify commandId Store.startCommand).lookup id).elim 0
        Command.executionCount := fun _ => rfl
  refine ⟨hepochs.epochs, ?_, ?_, ?_⟩
  · have hnew := Store.epochOf_setRun
      (g := Store.leaseRun commandId (s1.now + leaseSeconds)) hr
    have hold := htame.epochs runId
    rw [Store.epochOf_eq hr] at hold
    change s.epochOf runId < (s1.setRun runId _).epochOf runId
    rw [hnew]
    exact Nat.lt_succ_of_le hold
  · rw [hstarts, Table.lookup_modify_self, ← htame.starts, Store.startsOf, hlookup]
    rfl
  · intro id hne
    rw [hstarts, Table.lookup_modify_of_ne _ _ hne]
    exact htame.starts id

theorem acquire_effect {sourceVersion leaseSeconds : Nat} {lease : Option Lease}
    (hrun : s.acquire runId commandId sourceVersion leaseSeconds = .ok (lease, s')) :
    lease = none ∧ Tame s s' ∨ lease.isSome = true ∧ Starts s s' runId commandId := by
  rcases Store.acquire_cases hrun with ⟨hnone, rfl⟩ | ⟨r, c, hr, hlive, _, hcases⟩
  · exact Or.inl ⟨hnone, Tame.refl s'⟩
  have hlost : Tame s (s.loseRequests runId r.sourceVersion (r.epoch + 1)) :=
    Tame.of_eq rfl rfl
  cases hcases with
  | exhausted hheld hlimit =>
      refine Or.inl ⟨rfl, ?_⟩
      apply Tame.setBoth hlost
      · exact fun _ => rfl
      · exact fun _ => Nat.le_refl _
  | takenOver hheld hlimit =>
      have hcounted : Tame s ((s.loseRequests runId r.sourceVersion (r.epoch + 1)).setCommand
          commandId (Store.countLoss
            (max (c.infrastructureFailures + 1) c.executionCount))) := by
        apply Tame.setCommand hlost
        exact fun _ => rfl
      exact Or.inr ⟨rfl,
        starts_grantLease hcounted hr (Store.lookup_setCommand hlive.stored)⟩
  | granted hheld => exact Or.inr ⟨rfl, starts_grantLease hlost hr hlive.stored⟩

/-!
# Every step
-/

/-- The event is an acquisition of the command that succeeds. -/
def acquires (commandId : String) : Event -> Store -> Bool
  | .acquire runId id sourceVersion leaseSeconds, s =>
      id == commandId &&
        match s.acquire runId id sourceVersion leaseSeconds with
        | .ok (lease, _) => lease.isSome
        | .error _ => false
  | _, _ => false

/-- Every step but an acquisition is tame. -/
theorem tame_step (e : Event) (s : Store) :
    Tame s (step e s) ∧ (forall id, acquires id e s = false) ∨
      exists runId commandId sourceVersion leaseSeconds,
      e = .acquire runId commandId sourceVersion leaseSeconds ∧
        acquires commandId e s = true ∧ Starts s (step e s) runId commandId := by
  cases e with
  | tick seconds => exact Or.inl ⟨Tame.of_eq rfl rfl, fun _ => rfl⟩
  | submit => exact Or.inl ⟨commit_snd_cases (.refl s) fun _ _ => tame_submit, fun _ => rfl⟩
  | claimCommands =>
      exact Or.inl ⟨commit_snd_cases (.refl s) fun _ _ => tame_claimCommands, fun _ => rfl⟩
  | markPublished => exact Or.inl ⟨tame_markPublished, fun _ => rfl⟩
  | publishFailed =>
      exact Or.inl ⟨commit_snd_cases (.refl s) fun _ _ => tame_publishFailed, fun _ => rfl⟩
  | acquire runId commandId sourceVersion leaseSeconds =>
      cases hrun : s.acquire runId commandId sourceVersion leaseSeconds with
      | error e =>
          refine Or.inl ⟨?_, ?_⟩
          · simp only [step, hrun]
            exact Tame.refl s
          · intro id
            simp [acquires, hrun]
      | ok value =>
          obtain ⟨lease, s'⟩ := value
          have hstep : step (.acquire runId commandId sourceVersion leaseSeconds) s = s' := by
            simp only [step, hrun]
            rfl
          rw [hstep]
          rcases acquire_effect hrun with ⟨hnone, htame⟩ | ⟨hsome, hstarts⟩
          · refine Or.inl ⟨htame, ?_⟩
            intro id
            simp [acquires, hrun, hnone]
          · refine Or.inr ⟨runId, commandId, sourceVersion, leaseSeconds, rfl, ?_, hstarts⟩
            simp [acquires, hrun, hsome]
  | heartbeat => exact Or.inl ⟨commit_cases (.refl s) fun _ => tame_heartbeat, fun _ => rfl⟩
  | release => exact Or.inl ⟨commit_cases (.refl s) fun _ => tame_release, fun _ => rfl⟩
  | retry => exact Or.inl ⟨commit_snd_cases (.refl s) fun _ _ => tame_retry, fun _ => rfl⟩
  | confirm => exact Or.inl ⟨commit_snd_cases (.refl s) fun _ _ => tame_confirm, fun _ => rfl⟩
  | cancel =>
      exact Or.inl ⟨commit_snd_cases (.refl s) fun _ _ => tame_cancel, fun _ => rfl⟩
  | revise =>
      exact Or.inl ⟨commit_snd_cases (.refl s) fun _ _ h =>
        tame_superseded (Store.replays_revise h).cases, fun _ => rfl⟩
  | correct =>
      exact Or.inl ⟨commit_snd_cases (.refl s) fun _ _ h =>
        tame_superseded (Store.replays_correct h).cases, fun _ => rfl⟩
  | reviewScope =>
      exact Or.inl ⟨commit_snd_cases (.refl s) fun _ _ h =>
        tame_superseded (Store.replays_reviewScope h).cases, fun _ => rfl⟩
  | pinExecutionSpec =>
      exact Or.inl ⟨commit_cases (.refl s) fun _ h => (ledger_pinExecutionSpec h).tame,
        fun _ => rfl⟩
  | commitArtifact =>
      exact Or.inl ⟨commit_cases (.refl s) fun _ h => (ledger_commitArtifact h).tame, fun _ => rfl⟩
  | reserveGroupAttempt =>
      exact Or.inl ⟨commit_cases (.refl s) fun _ h => (ledger_reserveGroupAttempt h).tame,
        fun _ => rfl⟩
  | beginRequest =>
      exact Or.inl ⟨commit_snd_cases (.refl s) fun _ _ h => (ledger_beginRequest h).tame,
        fun _ => rfl⟩
  | finishRequest =>
      exact Or.inl ⟨commit_cases (.refl s) fun _ h => (ledger_finishRequest h).tame, fun _ => rfl⟩

theorem epochs_step (e : Event) (s : Store) (runId : String) :
    s.epochOf runId ≤ (step e s).epochOf runId := by
  rcases tame_step e s with ⟨htame, _⟩ | ⟨_, _, _, _, _, _, hstarts⟩
  · exact htame.epochs runId
  · exact hstarts.epochs runId

theorem epochs_of_reaches {t : Store} (hrun : Reaches step Anytime s t) (runId : String) :
    s.epochOf runId ≤ t.epochOf runId :=
  Reaches.preorder (P := fun _ => True)
    (R := fun s t => s.epochOf runId ≤ t.epochOf runId) (fun _ => Nat.le_refl _)
    (fun _ _ _ => Nat.le_trans) (fun _ _ _ _ => trivial)
    (fun e s _ _ => epochs_step e s runId) trivial hrun

/-- The successful acquisitions of a command along a list of events. -/
def acquisitions (commandId : String) : Store -> List Event -> Nat
  | _, [] => 0
  | s, e :: rest =>
      (if acquires commandId e s then 1 else 0) + acquisitions commandId (step e s) rest

theorem startsOf_step (e : Event) (s : Store) (commandId : String) :
    (step e s).startsOf commandId =
      s.startsOf commandId + if acquires commandId e s then 1 else 0 := by
  rcases tame_step e s with
    ⟨htame, hnone⟩ | ⟨runId, id, sourceVersion, leaseSeconds, rfl, hacquired, hstarts⟩
  · rw [htame.starts, hnone]
    rfl
  · by_cases hid : id = commandId
    · subst hid
      rw [hstarts.started, if_pos hacquired]
    · rw [hstarts.others commandId (fun h => hid h.symm), if_neg]
      · rfl
      · simp [acquires, hid]

theorem startsOf_perform (commandId : String) (s : Store) (events : List Event) :
    (perform step s events).startsOf commandId =
      s.startsOf commandId + acquisitions commandId s events := by
  induction events generalizing s with
  | nil => rfl
  | cons e rest ih =>
      change (perform step (step e s) rest).startsOf commandId = _
      rw [ih, startsOf_step, acquisitions, Nat.add_assoc]

theorem fenced_of_epoch (h : lease.epoch < s.epochOf lease.runId) :
    (s.assertFence lease).isOk = false := by
  cases hfence : s.assertFence lease with
  | error e => rfl
  | ok r =>
      have hholds := Store.assertFence_eq_ok hfence
      rw [Store.epochOf_eq hholds.run, hholds.epoch] at h
      exact absurd h (Nat.lt_irrefl _)

/-!
# Runs of the store
-/

theorem reaches_events (s : Store) (events : List Event) :
    Reaches step Anytime s (perform step s events) := by
  induction events generalizing s with
  | nil => exact Reaches.refl s
  | cons e rest ih =>
      exact Relation.ReflTransGen.head ⟨e, trivial, rfl⟩ (ih (step e s))

/-- The calls that take a run over or replace its work. -/
inductive Takeover where
  | acquire (commandId : String) (sourceVersion leaseSeconds : Nat)
  | cancel
  | revise (commandId requestKey : String) (manifestRef : Json)
  | correct (commandId : String) (sourceVersion expectedRevision : Nat) (baseItemsDigest : String)
      (correctedItemsRef : Json) (requestKey reason : String)
  | reviewScope (commandId : String) (sourceVersion expectedRevision : Nat)
      (basePlanDigest : String) (scopeDecisionsRef : Json) (requestKey reason : String)

/-- What a successful call gives its caller. -/
inductive Granted where
  | lease (lease : Lease)
  | run (run : Run)
  | revision (submitted : Store.Submitted)

namespace Takeover

/-- The call on the store; an acquisition without a lease succeeds in nothing. -/
def perform (runId : String) (s : Store) :
    Takeover -> Except StoreFault (Option Granted × Store)
  | acquire commandId sourceVersion leaseSeconds => do
      let (lease, s1) ← s.acquire runId commandId sourceVersion leaseSeconds
      return (lease.map .lease, s1)
  | cancel => do
      let (answer, s1) ← s.cancel runId
      return (some (.run answer), s1)
  | revise commandId requestKey manifestRef => do
      let (answer, s1) ← s.revise commandId runId manifestRef requestKey
      return (some (.revision answer), s1)
  | correct commandId sourceVersion expectedRevision baseItemsDigest correctedItemsRef
      requestKey reason => do
      let (answer, s1) ← s.correct commandId runId sourceVersion expectedRevision
        baseItemsDigest correctedItemsRef requestKey reason
      return (some (.revision answer), s1)
  | reviewScope commandId sourceVersion expectedRevision basePlanDigest scopeDecisionsRef
      requestKey reason => do
      let (answer, s1) ← s.reviewScope commandId runId sourceVersion expectedRevision
        basePlanDigest scopeDecisionsRef requestKey reason
      return (some (.revision answer), s1)

/-- What the store already records of the request: a cancellation, a source version with
the request key or a domain revision with the request key. An acquisition is never recorded. -/
def recorded (runId : String) (s : Store) : Takeover -> Option Granted
  | acquire _ _ _ => none
  | cancel => ((s.runs.lookup runId).filter Run.cancelRequested).map .run
  | revise _ requestKey _ => (s.revised runId requestKey).map .revision
  | correct _ _ _ _ _ requestKey _ => (s.corrected runId requestKey).map .revision
  | reviewScope _ _ _ _ _ requestKey _ => (s.corrected runId requestKey).map .revision

end Takeover

/-- Nothing done under a lease of this epoch or an earlier one passes the fence again. -/
def FencedOff (s : Store) (runId : String) (epoch : Nat) : Prop :=
  forall t lease, Reaches step Anytime s t -> lease.runId = runId -> lease.epoch ≤ epoch ->
    (t.assertFence lease).isOk = false

theorem fencedOff_of_later {epoch : Nat} (h : epoch < s.epochOf runId) :
    FencedOff s runId epoch := by
  intro t lease hrun hid hlease
  apply fenced_of_epoch
  rw [hid]
  exact Nat.lt_of_le_of_lt hlease (Nat.lt_of_lt_of_le h (epochs_of_reaches hrun runId))

/-- A call succeeds with what is recorded of its request and leaves the store, or, where
nothing is recorded, raises the epoch of the run. -/
def Settled (s s' : Store) (runId : String) (recorded : Option Granted) (granted : Granted) :
    Prop :=
  match recorded with
  | some prior => granted = prior ∧ s' = s
  | none => s.epochOf runId < s'.epochOf runId

theorem settled_of_replays {recorded : Option Store.Submitted} {submitted : Store.Submitted}
    (h : Store.Replays s s' runId recorded submitted) :
    Settled s s' runId (recorded.map .revision) (.revision submitted) := by
  cases recorded with
  | some prior => exact ⟨congrArg Granted.revision h.1, h.2⟩
  | none => exact (replaces_superseded h).later

theorem settled_perform {call : Takeover} {granted : Granted}
    (h : call.perform runId s = .ok (some granted, s')) :
    Settled s s' runId (call.recorded runId s) granted := by
  cases call with
  | acquire =>
      obtain ⟨⟨lease, s1⟩, hrun, h⟩ := bind_eq_ok h
      cases lease with
      | none => cases h
      | some lease =>
          cases h
          rcases acquire_effect hrun with ⟨hnone, _⟩ | ⟨_, hstarts⟩
          · cases hnone
          · exact hstarts.later
  | cancel =>
      obtain ⟨⟨answer, s1⟩, hrun, h⟩ := bind_eq_ok h
      cases h
      obtain ⟨r, hlookup, houtcome⟩ := Store.cancel_outcome hrun
      unfold Takeover.recorded
      rw [hlookup, Option.filter_some]
      split at houtcome
      · rename_i hcancelled
        rw [if_pos hcancelled]
        exact ⟨congrArg Granted.run houtcome.1, houtcome.2⟩
      · rename_i hwanted
        rw [if_neg hwanted, houtcome]
        exact (replaces_invalidate s _ _ _ _ _ hlookup rfl rfl).later
  | revise =>
      obtain ⟨⟨answer, s1⟩, hrun, h⟩ := bind_eq_ok h
      cases h
      exact settled_of_replays (Store.replays_revise hrun)
  | correct =>
      obtain ⟨⟨answer, s1⟩, hrun, h⟩ := bind_eq_ok h
      cases h
      exact settled_of_replays (Store.replays_correct hrun)
  | reviewScope =>
      obtain ⟨⟨answer, s1⟩, hrun, h⟩ := bind_eq_ok h
      cases h
      exact settled_of_replays (Store.replays_reviewScope hrun)

/-- What a run's status and lease say about its commands. -/
structure OneCommand (s : Store) (runId : String) (r : Run) : Prop where
  busy : r.status.isBusy = true -> exists id c, s.Live runId id c ∧
    c.sourceVersion = r.sourceVersion ∧ c.domainRevision = r.domainRevision ∧
    forall id' c', s.Live runId id' c' -> id' = id
  idle : r.status.isBusy = false -> forall id c, ¬ s.Live runId id c
  lease : s.leaseLive r = true -> exists id c, r.leaseCommandId = some id ∧
    s.Live runId id c ∧ c.status = .running
  fence : forall lease, lease.runId = runId -> s.assertFence lease = .ok r ->
    lease.epoch = r.epoch ∧ r.leaseCommandId = some lease.commandId ∧ s.leaseLive r = true

theorem oneCommand_of_sound (h : Sound s) (hr : s.runs.lookup runId = some r) :
    OneCommand s runId r := by
  have hrun := h.runs runId r hr
  refine ⟨?_, hrun.idle, hrun.lease, ?_⟩
  · intro hbusy
    obtain ⟨id, c, hlive, hunique⟩ := hrun.busy hbusy
    have hc := hrun.current id c hlive
    exact ⟨id, c, hlive, hc.version, hc.revision, hunique⟩
  · intro lease _ hfence
    have hholds := Store.assertFence_eq_ok hfence
    exact ⟨hholds.epoch.symm, hholds.command, hholds.live⟩

/-- Every method at any time: one live command for a busy run and none for any
other, leases held by it alone, an epoch raised by every call whose request is not
recorded before it, the recorded answer and the same store for the others, and at most
four acquisitions of a command. -/
theorem runs_are_fenced {start : Store} (hstart : start.Fresh) :
    (forall s, Reaches step Anytime start s ->
      (forall runId r, s.runs.lookup runId = some r -> OneCommand s runId r) ∧
      (forall runId (call : Takeover) granted s',
        call.perform runId s = .ok (some granted, s') ->
        (call.recorded runId s = none ->
          s.epochOf runId < s'.epochOf runId ∧ FencedOff s' runId (s.epochOf runId)) ∧
        (forall prior, call.recorded runId s = some prior -> granted = prior ∧ s' = s))) ∧
    (forall commandId events, acquisitions commandId start events ≤ 4) := by
  refine ⟨?_, ?_⟩
  · intro s hrun
    refine ⟨?_, ?_⟩
    · intro runId r hr
      exact oneCommand_of_sound (sound_of_reaches hstart hrun) hr
    · intro runId call granted s' h
      have hsettled := settled_perform h
      refine ⟨?_, ?_⟩
      · intro hnone
        rw [hnone] at hsettled
        exact ⟨hsettled, fencedOff_of_later hsettled⟩
      · intro prior hprior
        rw [hprior] at hsettled
        exact hsettled
  · intro commandId events
    have hsound := sound_of_reaches hstart (reaches_events start events)
    have hzero : start.startsOf commandId = 0 := by
      rw [Store.startsOf, hstart.commands]
      rfl
    have hstarts := startsOf_perform commandId start events
    rw [hzero, Nat.zero_add] at hstarts
    rw [← hstarts, Store.startsOf]
    cases hlookup : (perform step start events).commands.lookup commandId with
    | none => exact Nat.zero_le 4
    | some c => exact hsound.counts commandId c hlookup

/-!
# A worker that is taken over, and a run cancelled twice
-/

def emptyStore : Store where
  now := 0
  runs := Table.empty
  sourceVersions := Table.empty
  revisions := Table.empty
  commands := Table.empty
  artifacts := Table.empty
  confirmations := Table.empty
  requests := Table.empty

theorem emptyStore_fresh : emptyStore.Fresh :=
  ⟨rfl, rfl, rfl, rfl, rfl, rfl, rfl⟩

/-- A submission whose worker stops before it has released its lease. -/
def lostWorker : List Event :=
  [.submit "run" "start" "manifest" "key", .acquire "run" "start" 1 30, .tick 31]

theorem lost_worker_is_fenced :
    FencedOff (step (.acquire "run" "start" 1 30) (perform step emptyStore lostWorker)) "run" 1 ∧
    acquisitions "start" emptyStore (lostWorker ++ [.acquire "run" "start" 1 30]) = 2 ∧
    acquisitions "start" emptyStore (lostWorker ++ [.acquire "run" "start" 1 30]) ≤ 4 := by
  obtain ⟨hruns, hcounts⟩ := runs_are_fenced emptyStore_fresh
  refine ⟨?_, by decide +kernel, hcounts _ _⟩
  obtain ⟨_, hcalls⟩ := hruns _ (reaches_events emptyStore lostWorker)
  have hepoch : (perform step emptyStore lostWorker).epochOf "run" = 1 := by decide +kernel
  have hlease : ((perform step emptyStore lostWorker).acquire "run" "start" 1 30).toOption.any
      (fun value => value.1.isSome) = true := by decide +kernel
  cases hrun : (perform step emptyStore lostWorker).acquire "run" "start" 1 30 with
  | error e =>
      rw [hrun] at hlease
      cases hlease
  | ok value =>
      obtain ⟨lease, s'⟩ := value
      rw [hrun] at hlease
      obtain ⟨lease, rfl⟩ := Option.isSome_iff_exists.mp hlease
      have hstep : step (.acquire "run" "start" 1 30) (perform step emptyStore lostWorker) =
          s' := by
        simp only [step, hrun]
        rfl
      have hperform : (Takeover.acquire "start" 1 30).perform "run"
          (perform step emptyStore lostWorker) = .ok (some (.lease lease), s') := by
        simp only [Takeover.perform, hrun]
        rfl
      rw [hstep, ← hepoch]
      exact ((hcalls "run" _ _ _ hperform).1 rfl).2

def cancelledRun : Store :=
  perform step emptyStore [.submit "run" "start" "manifest" "key", .cancel "run"]

/-- A second cancellation succeeds and leaves the epoch as it is. -/
theorem repeated_cancel_keeps_epoch :
    ¬ forall start s, Store.Fresh start -> Reaches step Anytime start s ->
      forall runId (call : Takeover) granted s',
        call.perform runId s = .ok (some granted, s') ->
          s.epochOf runId < s'.epochOf runId := by
  intro hclaim
  have hcancel : ((Takeover.cancel.perform "run" cancelledRun).map fun value =>
      (value.1.isSome, value.2.epochOf "run")).toOption =
        some (true, cancelledRun.epochOf "run") := by decide +kernel
  cases hrun : Takeover.cancel.perform "run" cancelledRun with
  | error e =>
      rw [hrun] at hcancel
      cases hcancel
  | ok value =>
      obtain ⟨granted, s'⟩ := value
      rw [hrun] at hcancel
      obtain ⟨hsome, hsame⟩ := Prod.mk.inj (Option.some.inj hcancel)
      obtain ⟨granted, rfl⟩ := Option.isSome_iff_exists.mp hsome
      have hlater := hclaim emptyStore cancelledRun emptyStore_fresh (reaches_events _ _) "run"
        .cancel granted s' hrun
      rw [hsame] at hlater
      exact absurd hlater (Nat.lt_irrefl _)

end Tender
end KnowledgeBrain
