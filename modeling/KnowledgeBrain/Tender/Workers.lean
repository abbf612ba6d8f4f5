import KnowledgeBrain.Tender.Scripts

/-!
# Workers that keep the journal

A worker whose lease is still good is the only one that has written into the
journal since it read it, so the writes it decided on are still safe.  Any
other worker has been superseded, and the store refuses it.
-/

namespace KnowledgeBrain
namespace Tender

open Foundation

variable {host : Host} {call : GroupCall} {basisDigest : String} {s s' : Store}
variable {key : RevisionKey} {lease : Lease} {ref : ArtifactRef}

/-!
# One write
-/

theorem Store.artifactKey_group (lease : Lease) (g : GroupStage) (scope : String) :
    Store.artifactKey lease g.name scope =
      ⟨lease.runId, lease.sourceVersion, lease.domainRevision, g.name, scope⟩ := by
  cases g <;> rfl

variable {g : GroupStage}

theorem commit_effect {scope inputDigest : String} {metadata : ArtifactMetadata}
    (hrun : s.commitArtifact lease g.name scope ref inputDigest metadata = .ok s') :
    s' = s ∧ (s.artifactOf lease.revisionKey g.name scope).isSome = true ∨
      Inserts s s' lease.revisionKey g scope ⟨ref, inputDigest, metadata, lease.epoch, s.now⟩ := by
  have heffect := Store.commitArtifact_cases hrun
  rw [Store.artifactKey_group] at heffect
  rcases heffect with hsame | ⟨hnone, rfl⟩
  · exact Or.inl hsame
  · exact Or.inr (inserts_insertArtifact lease.revisionKey g scope ref inputDigest metadata
      lease.epoch hnone)

theorem inserts_of_commit {scope inputDigest : String} {metadata : ArtifactMetadata}
    (hnone : s.artifactOf lease.revisionKey g.name scope = none)
    (hrun : s.commitArtifact lease g.name scope ref inputDigest metadata = .ok s') :
    Inserts s s' lease.revisionKey g scope ⟨ref, inputDigest, metadata, lease.epoch, s.now⟩ := by
  rcases commit_effect hrun with ⟨_, hsome⟩ | hinserts
  · rw [hnone] at hsome
    cases hsome
  · exact hinserts

/-- A reservation under a new id was checked against all attempts. -/
theorem reserve_effect {attemptId inputDigest : String} {workUnitKeys : List String}
    (hnone : s.artifactOf lease.revisionKey "model-group-attempt" attemptId = none)
    (hrun : s.reserveGroupAttempt lease attemptId ref inputDigest workUnitKeys = .ok s') :
    Inserts s s' lease.revisionKey .attempt attemptId
        ⟨ref, inputDigest, Store.attemptMetadata inputDigest lease.commandId workUnitKeys,
          lease.epoch, s.now⟩ ∧
      s.openAttempt lease.revisionKey workUnitKeys = none ∧
      forall workUnitKey, workUnitKey ∈ workUnitKeys ->
        s.attemptCount lease.revisionKey lease.commandId workUnitKey < 4 := by
  rcases Store.reserveGroupAttempt_cases hrun with ⟨_, hsome⟩ | ⟨hopen, hlimit, rfl⟩
  · rw [hnone] at hsome
    cases hsome
  · exact ⟨inserts_insertArtifact lease.revisionKey .attempt attemptId _ _ _ _ hnone, hopen, hlimit⟩

variable {attemptId : String} {row : Artifact}

theorem Inserts.openAt_keep {scope : String} (h : Inserts s s' key g scope row)
    (hne : g ≠ .outcome) (hopen : OpenAt s key attemptId) : OpenAt s' key attemptId := by
  refine ⟨h.grows.isSome (g := .attempt) hopen.1, ?_⟩
  have houtcome := hopen.2
  unfold Store.hasOutcome at houtcome ⊢
  rw [show s'.artifactOf key "model-group-outcome" attemptId = _ from
    h.other .outcome hne.symm key attemptId]
  exact houtcome

/-!
# Progress
-/

theorem progress_response {received : Received} (h : Inserts s s' key .response attemptId row)
    (hread : host.read row.artifactRef = some (.received received)) :
    progressOf host basisDigest s' key attemptId =
      { progressOf host basisDigest s key attemptId with response := some received } := by
  have hresponse : (progressOf host basisDigest s' key attemptId).response = some received :=
    ReceivedAt.progress ⟨row, h.self, hread⟩
  have hshared := h.other .shared (by decide) key attemptId
  have hresult := h.other .result (by decide) key
  unfold progressOf at hresponse ⊢
  simp only [GroupStage.name] at hshared hresult
  simp only at hresponse
  simp only [hresponse, hshared, hresult]

theorem progress_shared (h : Inserts s s' key .shared attemptId row) :
    progressOf host basisDigest s' key attemptId =
      { progressOf host basisDigest s key attemptId with shared := true } := by
  have hself := h.self
  have hresponse := h.other .response (by decide) key attemptId
  have hresult := h.other .result (by decide) key
  unfold progressOf
  simp only [GroupStage.name] at hself hresponse hresult
  simp only [hself, hresponse, hresult, Option.isSome_some]

theorem progress_result (hscopes : DistinctScopes host) {attemptId unit : String}
    (h : Inserts s s' key .result (resultScope host basisDigest unit) row) :
    progressOf host basisDigest s' key attemptId =
      { progressOf host basisDigest s key attemptId with
        done := fun other =>
          other == unit || (progressOf host basisDigest s key attemptId).done other } := by
  have hresponse := h.other .response (by decide) key attemptId
  have hshared := h.other .shared (by decide) key attemptId
  have hdone : forall other,
      (s'.artifactOf key "model-group-result" (resultScope host basisDigest other)).isSome =
        (other == unit ||
          (s.artifactOf key "model-group-result" (resultScope host basisDigest other)).isSome) := by
    intro other
    rw [show s'.artifactOf key "model-group-result" _ = _ from
      h.rows key GroupStage.result.name _]
    by_cases hsame : other = unit
    · subst hsame
      simp
    · rw [if_neg]
      · simp [hsame, GroupStage.name]
      · rintro ⟨_, _, hscope⟩
        exact hsame (hscopes basisDigest other unit hscope)
  unfold progressOf
  simp only [GroupStage.name] at hresponse hshared
  simp only [hresponse, hshared, hdone]

theorem progress_rejection {attemptId scope : String} (h : Inserts s s' key .rejection scope row) :
    progressOf host basisDigest s' key attemptId =
      progressOf host basisDigest s key attemptId := by
  have hresponse := h.other .response (by decide) key attemptId
  have hshared := h.other .shared (by decide) key attemptId
  have hresult := h.other .result (by decide) key
  unfold progressOf
  simp only [GroupStage.name] at hresponse hshared hresult
  simp only [hresponse, hshared, hresult]

theorem received_of_progress {received : Received}
    (h : (progressOf host basisDigest s key attemptId).response = some received) :
    ReceivedAt host s key attemptId received := by
  obtain ⟨row, hrow, hread⟩ := Option.bind_eq_some_iff.mp h
  refine ⟨row, hrow, ?_⟩
  unfold receivedOf at hread
  split at hread
  · rename_i content hcontent
    cases hread
    exact hcontent
  · cases hread

/-!
# Performing a planned write
-/

/-- What a worker's write does to the journal. -/
structure Performed (host : Host) (call : GroupCall) (basisDigest : String) (s s' : Store)
    (key : RevisionKey) (rest : List Write) : Prop where
  journal : Journal host call basisDigest s'
  planned : Planned host call basisDigest s' key rest
  grows : Grows s s'
  elsewhere : forall key' stage scope, key' ≠ key ->
    s'.artifactOf key' stage scope = s.artifactOf key' stage scope

theorem Inserts.elsewhere {scope : String} (h : Inserts s s' key g scope row) (key' : RevisionKey)
    (stage scope' : String) (hne : key' ≠ key) :
    s'.artifactOf key' stage scope' = s.artifactOf key' stage scope' := by
  rw [h.rows, if_neg]
  rintro ⟨hsame, _⟩
  exact hne hsame

theorem Inserts.performed {scope attemptId : String} {manifest : Manifest} {p : Progress}
    {rest : List Write} (h : Inserts s s' key g scope row)
    (hjournal : Journal host call basisDigest s') (houtcome : g ≠ .outcome)
    (hopen : OpenAt s key attemptId) (hmanifest : ManifestAt host s key attemptId manifest)
    (hprogress : progressOf host basisDigest s' key attemptId = p)
    (hsafe : Safe host basisDigest attemptId manifest.payload.targetWorkUnitIds p rest) :
    Performed host call basisDigest s s' key rest := by
  refine ⟨hjournal, .process attemptId manifest rest (h.openAt_keep houtcome hopen)
    (h.grows.manifestAt hmanifest) ?_, h.grows, h.elsewhere⟩
  rw [hprogress]
  exact hsafe

theorem Performed.refl {rest : List Write} (hjournal : Journal host call basisDigest s)
    (hplanned : Planned host call basisDigest s key rest) :
    Performed host call basisDigest s s key rest :=
  ⟨hjournal, hplanned, fun _ _ _ _ _ hrow => hrow, fun _ _ _ _ => rfl⟩

theorem performed_of_safe (hscopes : DistinctScopes host)
    (hjournal : Journal host call basisDigest s) {manifest : Manifest} {write : Write}
    {rest : List Write} (hopen : OpenAt s lease.revisionKey attemptId)
    (hmanifest : ManifestAt host s lease.revisionKey attemptId manifest)
    (hsafe : Safe host basisDigest attemptId manifest.payload.targetWorkUnitIds
      (progressOf host basisDigest s lease.revisionKey attemptId) (write :: rest))
    (hread : host.read ref = some write.content)
    (hrun : write.run lease basisDigest ref s = .ok s') :
    Performed host call basisDigest s s' lease.revisionKey rest := by
  cases hsafe with
  | response _ _ received hnone hrest =>
      have hinserts := inserts_of_commit (g := .response) (hjournal.response_none hnone) hrun
      refine hinserts.performed (hinserts.journal_of_other hjournal (by decide) (by decide) ?_)
        (by decide) hopen hmanifest (progress_response hinserts hread) hrest
      exact .response received rfl hread (hinserts.grows.isSome (g := .attempt) hopen.1)
  | shared _ _ response findings hresponse hnone hrest =>
      have hfree : s.artifactOf lease.revisionKey GroupStage.shared.name attemptId = none := by
        simpa [progressOf, GroupStage.name] using hnone
      have hinserts := inserts_of_commit (g := .shared) hfree hrun
      refine hinserts.performed (hinserts.journal_of_other hjournal (by decide) (by decide) ?_)
        (by decide) hopen hmanifest (progress_shared hinserts) hrest
      exact .shared findings response rfl hread
        (hinserts.grows.receivedAt (received_of_progress hresponse))
  | result _ _ response units answer occasion unit value hresponse hshared hunits hanswer hvalid
      hactive hnew hrest =>
      have hfree : s.artifactOf lease.revisionKey GroupStage.result.name
          (resultScope host basisDigest unit) = none := by
        simpa [progressOf, GroupStage.name] using hnew
      have hinserts := inserts_of_commit (g := .result) hfree hrun
      refine hinserts.performed (hinserts.journal_of_result hjournal hopen ?_) (by decide) hopen
        hmanifest (progress_result hscopes hinserts) hrest
      exact ⟨rfl, rfl, rfl, rfl, ⟨manifest, hmanifest, hactive⟩, hshared,
        ⟨response, units, answer, occasion, value, received_of_progress hresponse, hunits, hanswer,
          hvalid, hread⟩⟩
  | rejection _ _ unit feedback hrest =>
      rcases commit_effect (g := .rejection) hrun with ⟨rfl, _⟩ | hinserts
      · exact .refl hjournal (.process attemptId manifest rest hopen hmanifest hrest)
      · exact hinserts.performed
          (hinserts.journal_of_other hjournal (by decide) (by decide) (.rejection rfl)) (by decide)
          hopen hmanifest (progress_rejection hinserts) hrest
  | outcome _ rejected hkeys =>
      have hfree : s.artifactOf lease.revisionKey GroupStage.outcome.name attemptId = none := by
        simpa [Store.hasOutcome, GroupStage.name] using hopen.2
      have hinserts := inserts_of_commit (g := .outcome) hfree hrun
      exact ⟨hinserts.journal_of_other hjournal (by decide) (by decide) (.outcome rfl), .nothing,
        hinserts.grows, hinserts.elsewhere⟩

theorem performed_of_planned (hscopes : DistinctScopes host)
    (hjournal : Journal host call basisDigest s) {write : Write} {rest : List Write}
    (hplanned : Planned host call basisDigest s lease.revisionKey (write :: rest))
    (hread : host.read ref = some write.content)
    (hrun : write.run lease basisDigest ref s = .ok s') :
    Performed host call basisDigest s s' lease.revisionKey rest := by
  cases hplanned with
  | process attemptId manifest _ hopen hmanifest hsafe =>
      exact performed_of_safe hscopes hjournal hopen hmanifest hsafe hread hrun
  | reserve attemptId manifest hkeys hnonempty hnodup htargets hfresh hnone hnew =>
      obtain ⟨hinserts, _, hlimit⟩ := reserve_effect (hfresh .attempt) hrun
      refine ⟨?_, .nothing, hinserts.grows, hinserts.elsewhere⟩
      have hattempt : AttemptRow host call basisDigest
          ⟨ref, basisDigest, Store.attemptMetadata basisDigest lease.commandId
            manifest.groupWorkUnitKeys, lease.epoch, s.now⟩ manifest := by
        refine ⟨rfl, hread, ?_, rfl, hnonempty, hnodup, htargets⟩
        rw [← hkeys]
        rfl
      refine hinserts.journal_of_attempt hjournal hattempt hnone hnew ?_
      rintro commandId workUnitKey hcommand hmem
      cases hcommand
      exact hlimit workUnitKey hmem

variable {writes : List Write}

/-- The writes of a worker depend on its own revision only. -/
theorem Planned.congr (hsame : forall stage scope, isGroupStage stage = true ->
      s'.artifactOf key stage scope = s.artifactOf key stage scope)
    (h : Planned host call basisDigest s key writes) :
    Planned host call basisDigest s' key writes := by
  have hattempt := fun scope => hsame "model-group-attempt" scope GroupStage.attempt.isGroupStage
  have hresponse :=
    fun scope => hsame "model-group-response" scope GroupStage.response.isGroupStage
  have hshared := fun scope => hsame "model-group-shared" scope GroupStage.shared.isGroupStage
  have hresult := fun scope => hsame "model-group-result" scope GroupStage.result.isGroupStage
  have houtcome := fun scope => hsame "model-group-outcome" scope GroupStage.outcome.isGroupStage
  have hopens : forall attemptId, OpenAt s' key attemptId <-> OpenAt s key attemptId := by
    intro attemptId
    unfold OpenAt Store.hasOutcome
    rw [hattempt, houtcome]
  cases h with
  | nothing => exact .nothing
  | process attemptId manifest _ hopen hmanifest hsafe =>
      refine .process attemptId manifest writes ((hopens attemptId).mpr hopen) ?_ ?_
      · obtain ⟨row, hrow, hread⟩ := hmanifest
        exact ⟨row, (hattempt attemptId).trans hrow, hread⟩
      · have hprogress : progressOf host basisDigest s' key attemptId =
            progressOf host basisDigest s key attemptId := by
          unfold progressOf
          simp only [hresponse, hshared, hresult]
        rw [hprogress]
        exact hsafe
  | reserve attemptId manifest hkeys hnonempty hnodup htargets hfresh hnone hnew =>
      refine .reserve attemptId manifest hkeys hnonempty hnodup htargets ?_ ?_ ?_
      · intro g
        rw [hsame g.name attemptId g.isGroupStage]
        exact hfresh g
      · intro other hopen
        exact hnone other ((hopens other).mp hopen)
      · intro unit hunit
        rw [hresult]
        exact hnew unit hunit

/-!
# The invariant of the system
-/

structure Recovering (host : Host) (call : GroupCall) (basisDigest : String) (w : World) :
    Prop where
  journal : Journal host call basisDigest w.store
  specs : forall worker x, w.workers.lookup worker = some x ->
    call.basisDigest host x.spec = basisDigest
  valid : forall worker x, w.workers.lookup worker = some x -> x.phase.isRunning = true ->
    call.valid = true
  granted : forall worker x, w.workers.lookup worker = some x ->
    x.lease.epoch ≤ w.store.epochOf x.lease.runId
  apart : forall worker worker' x x', w.workers.lookup worker = some x ->
    w.workers.lookup worker' = some x' -> x.phase.isRunning = true ->
    x'.phase.isRunning = true -> x.lease.runId = x'.lease.runId ->
    x.lease.epoch = x'.lease.epoch -> worker = worker'
  plans : forall worker x write rest ending, w.workers.lookup worker = some x ->
    x.phase = .writing write rest ending ->
    (forall result, ending ≠ .returned result) ∧
      (x.lease.epoch < w.store.epochOf x.lease.runId ∨
        Planned host call basisDigest w.store x.lease.revisionKey (write :: rest))
  returned : forall worker x result, w.workers.lookup worker = some x ->
    x.phase = .ended (.returned result) ->
    Collected host call basisDigest w.store x.lease.revisionKey result

theorem Grows.collected {result : GroupResult} (h : Grows s s')
    (hcollected : Collected host call basisDigest s key result) :
    Collected host call basisDigest s' key result := by
  apply List.Forall₂.imp ?_ hcollected
  rintro unit fields ⟨row, hrow, hread⟩
  exact ⟨row, h key _ _ row GroupStage.result.isGroupStage hrow, hread⟩

theorem recovering_of_fresh {w : World} (h : w.Fresh) : Recovering host call basisDigest w := by
  have hworkers : forall worker x, w.workers.lookup worker ≠ some x := by
    intro worker x hlookup
    rw [h.workers] at hlookup
    cases hlookup
  have hrows : forall key stage scope, w.store.artifactOf key stage scope = none := by
    intro key stage scope
    rw [Store.artifactOf, h.store.artifacts]
    rfl
  refine ⟨⟨?_, ?_, ?_, ?_⟩, ?_, ?_, ?_, ?_, ?_, ?_⟩
  · intro key stage scope row hrow
    rw [hrows] at hrow
    cases hrow
  · intro key attemptId attemptId' hopen
    have hsome := hopen.1
    rw [hrows] at hsome
    cases hsome
  · intro key attemptId manifest unit row _ _ _ hrow
    rw [hrows] at hrow
    cases hrow
  · intro key commandId workUnitKey
    rw [Store.attemptCount, Store.attemptsOf, h.store.artifacts]
    exact Nat.zero_le 4
  · exact fun worker x hlookup => absurd hlookup (hworkers worker x)
  · exact fun worker x hlookup => absurd hlookup (hworkers worker x)
  · exact fun worker x hlookup => absurd hlookup (hworkers worker x)
  · exact fun worker _ x _ hlookup => absurd hlookup (hworkers worker x)
  · exact fun worker x _ _ _ hlookup => absurd hlookup (hworkers worker x)
  · exact fun worker x _ hlookup => absurd hlookup (hworkers worker x)

/-- The rest of the system moves on. -/
theorem Recovering.other {w : World} (h : Recovering host call basisDigest w) {e : Event}
    (hkeeps : keepsJournal e = true) :
    Recovering host call basisDigest { w with store := step e w.store } := by
  have hsame := sameJournal_step hkeeps w.store
  have hepochs := epochs_step e w.store
  refine ⟨hsame.journal h.journal, h.specs, h.valid, ?_, h.apart, ?_, ?_⟩
  · intro worker x hlookup
    exact Nat.le_trans (h.granted worker x hlookup) (hepochs x.lease.runId)
  · intro worker x write rest ending hlookup hphase
    obtain ⟨hending, hplan⟩ := h.plans worker x write rest ending hlookup hphase
    refine ⟨hending, ?_⟩
    rcases hplan with hlater | hplanned
    · exact Or.inl (Nat.lt_of_lt_of_le hlater (hepochs x.lease.runId))
    · exact Or.inr (hplanned.congr fun stage scope => hsame.rows _ stage scope)
  · intro worker x result hlookup hphase
    exact hsame.grows.collected (h.returned worker x result hlookup hphase)

theorem Recovering.crash {w : World} (h : Recovering host call basisDigest w) (worker : Nat) :
    Recovering host call basisDigest
      { w with workers := w.workers.filter fun id _ => id != worker } := by
  have hold : forall id x, (w.workers.filter fun id _ => id != worker).lookup id = some x ->
      w.workers.lookup id = some x := by
    intro id x hlookup
    rw [Table.lookup_filter, Option.filter_eq_some_iff] at hlookup
    exact hlookup.1
  refine ⟨h.journal, ?_, ?_, ?_, ?_, ?_, ?_⟩
  · exact fun id x hlookup => h.specs id x (hold id x hlookup)
  · exact fun id x hlookup => h.valid id x (hold id x hlookup)
  · exact fun id x hlookup => h.granted id x (hold id x hlookup)
  · exact fun id id' x x' hlookup hlookup' =>
      h.apart id id' x x' (hold id x hlookup) (hold id' x' hlookup')
  · exact fun id x write rest ending hlookup => h.plans id x write rest ending (hold id x hlookup)
  · exact fun id x result hlookup => h.returned id x result (hold id x hlookup)

theorem startPhase_cases (call : GroupCall) (spec : SpecOutcome) :
    call.valid = true ∧ startPhase call spec = .reading ∨
      exists error, startPhase call spec = .ended (.raised error) := by
  cases hvalid : call.valid with
  | false =>
      refine Or.inr ⟨.other "ValueError", ?_⟩
      unfold startPhase
      split <;> simp [hvalid]
  | true =>
      unfold startPhase
      split
      · exact Or.inr ⟨.stop, by simp [hvalid]⟩
      · exact Or.inl ⟨rfl, by simp [hvalid]⟩

variable {worker : Nat}

theorem Recovering.start {w : World} (h : Recovering host call basisDigest w) {lease : Lease}
    {spec : SpecOutcome} (hheld : w.isHeld lease = false)
    (hgranted : lease.epoch ≤ w.store.epochOf lease.runId)
    (hspec : call.basisDigest host spec = basisDigest) :
    Recovering host call basisDigest (w.set worker ⟨lease, spec, startPhase call spec⟩) := by
  have hphase := startPhase_cases call spec
  refine ⟨h.journal, ?_, ?_, ?_, ?_, ?_, ?_⟩
  · intro id x hlookup
    rcases World.lookup_set_cases hlookup with ⟨_, rfl⟩ | ⟨_, hold⟩
    · exact hspec
    · exact h.specs id x hold
  · intro id x hlookup hrunning
    rcases World.lookup_set_cases hlookup with ⟨_, rfl⟩ | ⟨_, hold⟩
    · rcases hphase with ⟨hvalid, _⟩ | ⟨error, hended⟩
      · exact hvalid
      · rw [hended] at hrunning
        cases hrunning
    · exact h.valid id x hold hrunning
  · intro id x hlookup
    rcases World.lookup_set_cases hlookup with ⟨_, rfl⟩ | ⟨_, hold⟩
    · exact hgranted
    · exact h.granted id x hold
  · intro id id' x x' hlookup hlookup' hrunning hrunning' hrun hepoch
    rcases World.lookup_set_cases hlookup with ⟨rfl, rfl⟩ | ⟨_, hold⟩
    · rcases World.lookup_set_cases hlookup' with ⟨rfl, _⟩ | ⟨_, hold'⟩
      · rfl
      · exact absurd hepoch.symm
          (World.not_held (x := ⟨lease, spec, startPhase call spec⟩) hheld hold' hrunning'
            hrun.symm)
    · rcases World.lookup_set_cases hlookup' with ⟨rfl, rfl⟩ | ⟨_, hold'⟩
      · exact absurd hepoch
          (World.not_held (x := ⟨lease, spec, startPhase call spec⟩) hheld hold hrunning hrun)
      · exact h.apart id id' x x' hold hold' hrunning hrunning' hrun hepoch
  · intro id x write rest ending hlookup hwriting
    rcases World.lookup_set_cases hlookup with ⟨_, rfl⟩ | ⟨_, hold⟩
    · rcases hphase with ⟨_, hreading⟩ | ⟨error, hended⟩
      · rw [hreading] at hwriting
        cases hwriting
      · rw [hended] at hwriting
        cases hwriting
    · exact h.plans id x write rest ending hold hwriting
  · intro id x result hlookup hreturned
    rcases World.lookup_set_cases hlookup with ⟨_, rfl⟩ | ⟨_, hold⟩
    · rcases hphase with ⟨_, hreading⟩ | ⟨error, hended⟩
      · rw [hreading] at hreturned
        cases hreturned
      · rw [hended] at hreturned
        cases hreturned
    · exact h.returned id x result hold hreturned

theorem phaseOf_writing {ending ending' : Ending} {write : Write} {rest : List Write}
    (h : phaseOf writes ending = .writing write rest ending') :
    writes = write :: rest ∧ ending' = ending := by
  unfold phaseOf at h
  split at h
  · cases h
    exact ⟨rfl, rfl⟩
  · split at h <;> cases h

theorem phaseOf_returned {ending : Ending} {result : GroupResult}
    (h : phaseOf writes ending = .ended (.returned result)) :
    writes = [] ∧ ending = .returned result := by
  unfold phaseOf at h
  split at h
  · cases h
  · split at h
    · cases h
    · cases h
      exact ⟨rfl, rfl⟩
    · cases h

/-- A worker that was running gets another phase, and the store grows by what it wrote. -/
theorem Recovering.advance {w : World} (h : Recovering host call basisDigest w) {x : Execution}
    (hlookup : w.workers.lookup worker = some x) (hrunning : x.phase.isRunning = true)
    {s' : Store} {phase : Phase} (hjournal : Journal host call basisDigest s')
    (hgrows : Grows w.store s') (hepochs : forall runId, s'.epochOf runId = w.store.epochOf runId)
    (hothers : forall id y, w.workers.lookup id = some y -> id ≠ worker ->
      y.phase.isRunning = true -> forall writes,
      Planned host call basisDigest w.store y.lease.revisionKey writes ->
      y.lease.epoch < w.store.epochOf y.lease.runId ∨
        Planned host call basisDigest s' y.lease.revisionKey writes)
    (hplan : forall write rest ending, phase = .writing write rest ending ->
      (forall result, ending ≠ .returned result) ∧
        Planned host call basisDigest s' x.lease.revisionKey (write :: rest))
    (hreturned : forall result, phase = .ended (.returned result) ->
      Collected host call basisDigest s' x.lease.revisionKey result) :
    Recovering host call basisDigest
      ({ w with store := s' }.set worker { x with phase := phase }) := by
  have hrow : forall id y,
      ({ w with store := s' }.set worker { x with phase := phase }).workers.lookup id = some y ->
        id = worker ∧ y = { x with phase := phase } ∨
          id ≠ worker ∧ w.workers.lookup id = some y :=
    fun id y hid => World.lookup_set_cases hid
  have hbefore : forall id y,
      ({ w with store := s' }.set worker { x with phase := phase }).workers.lookup id = some y ->
        exists old, w.workers.lookup id = some old ∧ old.lease = y.lease ∧ old.spec = y.spec ∧
          (y.phase.isRunning = true -> old.phase.isRunning = true) := by
    intro id y hid
    rcases hrow id y hid with ⟨rfl, rfl⟩ | ⟨_, hold⟩
    · exact ⟨x, hlookup, rfl, rfl, fun _ => hrunning⟩
    · exact ⟨y, hold, rfl, rfl, fun hy => hy⟩
  refine ⟨hjournal, ?_, ?_, ?_, ?_, ?_, ?_⟩
  · intro id y hid
    obtain ⟨old, hold, _, hspec, _⟩ := hbefore id y hid
    rw [← hspec]
    exact h.specs id old hold
  · intro id y hid hy
    obtain ⟨old, hold, _, _, hrun⟩ := hbefore id y hid
    exact h.valid id old hold (hrun hy)
  · intro id y hid
    obtain ⟨old, hold, hlease, _, _⟩ := hbefore id y hid
    rw [← hlease]
    exact Nat.le_trans (h.granted id old hold) (Nat.le_of_eq (hepochs old.lease.runId).symm)
  · intro id id' y y' hid hid' hy hy' hrun hepoch
    obtain ⟨old, hold, hlease, _, hstill⟩ := hbefore id y hid
    obtain ⟨old', hold', hlease', _, hstill'⟩ := hbefore id' y' hid'
    rw [← hlease, ← hlease'] at hrun hepoch
    exact h.apart id id' old old' hold hold' (hstill hy) (hstill' hy') hrun hepoch
  · intro id y write rest ending hid hwriting
    change (forall result, ending ≠ .returned result) ∧
      (y.lease.epoch < s'.epochOf y.lease.runId ∨
        Planned host call basisDigest s' y.lease.revisionKey (write :: rest))
    rw [hepochs]
    rcases hrow id y hid with ⟨rfl, rfl⟩ | ⟨hne, hold⟩
    · obtain ⟨hending, hplanned⟩ := hplan write rest ending hwriting
      exact ⟨hending, Or.inr hplanned⟩
    · obtain ⟨hending, hplanned⟩ := h.plans id y write rest ending hold hwriting
      refine ⟨hending, ?_⟩
      rcases hplanned with hlater | hplanned
      · exact Or.inl hlater
      · exact hothers id y hold hne (by rw [hwriting]; rfl) _ hplanned
  · intro id y result hid hended
    rcases hrow id y hid with ⟨rfl, rfl⟩ | ⟨_, hold⟩
    · exact hreturned result hended
    · exact hgrows.collected (h.returned id y result hold hended)

/-!
# Every step
-/

theorem fresh_of_any (h : (s.artifacts.any fun key _ => key.scope == attemptId) = false)
    (stage : String) :
    s.artifactOf key stage attemptId = none := by
  cases hrow : s.artifactOf key stage attemptId with
  | none => rfl
  | some row =>
      have hmiss := Table.any_eq_false.mp h _ row hrow
      simp at hmiss

theorem Recovering.look (hscopes : DistinctScopes host) {w : World}
    (h : Recovering host call basisDigest w) {choice : Choice}
    (hfresh : (w.store.artifacts.any fun key _ => key.scope == choice.attemptId) = false) :
    Recovering host call basisDigest (look host call w worker choice) := by
  unfold Tender.look
  cases hlookup : w.workers.lookup worker with
  | none => exact h
  | some x =>
      simp only
      cases hphase : x.phase with
      | ended => exact h
      | writing => exact h
      | reading =>
          have hrunning : x.phase.isRunning = true := by
            rw [hphase]
            rfl
          have hvalid := h.valid worker x hlookup hrunning
          have hspec := h.specs worker x hlookup
          refine h.advance hlookup hrunning h.journal (fun _ _ _ _ _ hrow => hrow) (fun _ => rfl)
            (fun _ _ _ _ _ _ hplanned => Or.inr hplanned) ?_ ?_
          · intro write rest ending hwriting
            unfold lookPhase at hwriting
            split at hwriting
            · cases hwriting
            rename_i rows hrows
            rw [hspec] at hrows
            have hsnapshot := (snapshot_groupReceipts hrows).2
            obtain ⟨hwrites, rfl⟩ := phaseOf_writing hwriting
            refine ⟨?_, ?_⟩
            · intro result hresult
              have hnone := (collected_of_pass h.journal hsnapshot hresult).2
              rw [hwrites] at hnone
              cases hnone
            · rw [← hwrites]
              exact planned_pass hscopes hvalid hspec h.journal hsnapshot
                fun g => fresh_of_any hfresh g.name
          · intro result hended
            unfold lookPhase at hended
            split at hended
            · cases hended
            rename_i rows hrows
            rw [hspec] at hrows
            exact (collected_of_pass h.journal (snapshot_groupReceipts hrows).2
              (phaseOf_returned hended).2).1

theorem Write.fence_of_run {write : Write} (h : write.run lease basisDigest ref s = .ok s') :
    exists r, s.assertFence lease = .ok r := by
  cases write with
  | commit stage scope content metadata =>
      obtain ⟨r, hfence, _⟩ := bind_eq_ok h
      exact ⟨r, hfence⟩
  | reserve attemptId manifest =>
      obtain ⟨_, _, h⟩ := bind_eq_ok h
      obtain ⟨r, hfence, _⟩ := bind_eq_ok h
      exact ⟨r, hfence⟩

theorem Write.ledger_of_run {write : Write} (h : write.run lease basisDigest ref s = .ok s') :
    Ledger s s' := by
  cases write with
  | commit stage scope content metadata => exact ledger_commitArtifact h
  | reserve attemptId manifest => exact ledger_reserveGroupAttempt h

theorem epochOf_of_fence {r : Run} (h : s.assertFence lease = .ok r) :
    s.epochOf lease.runId = lease.epoch := by
  have hholds := Store.assertFence_eq_ok h
  rw [Store.epochOf_eq hholds.run]
  exact hholds.epoch

theorem Recovering.performed (hscopes : DistinctScopes host) {w : World}
    (h : Recovering host call basisDigest w) {x : Execution} {write : Write} {rest : List Write}
    {ending : Ending} (hlookup : w.workers.lookup worker = some x)
    (hphase : x.phase = .writing write rest ending) (hread : host.read ref = some write.content)
    (hrun : write.run x.lease (call.basisDigest host x.spec) ref w.store = .ok s') :
    Performed host call basisDigest w.store s' x.lease.revisionKey rest := by
  obtain ⟨r, hfence⟩ := Write.fence_of_run hrun
  rw [h.specs worker x hlookup] at hrun
  rcases (h.plans worker x write rest ending hlookup hphase).2 with hlater | hplanned
  · rw [epochOf_of_fence hfence] at hlater
    exact absurd hlater (Nat.lt_irrefl _)
  · exact performed_of_planned hscopes h.journal hplanned hread hrun

theorem Recovering.write (hscopes : DistinctScopes host) {w : World}
    (h : Recovering host call basisDigest w) (hputs : w.puts host worker ref = true) :
    Recovering host call basisDigest (write host call w worker ref) := by
  unfold Tender.write
  cases hlookup : w.workers.lookup worker with
  | none => exact h
  | some x =>
      simp only
      cases hphase : x.phase with
      | ended => exact h
      | reading => exact h
      | writing write rest ending =>
          have hrunning : x.phase.isRunning = true := by
            rw [hphase]
            rfl
          have hread : host.read ref = some write.content := by
            rw [World.puts, hlookup] at hputs
            simpa [hphase] using hputs
          simp only
          cases hrun : write.run x.lease (call.basisDigest host x.spec) ref w.store with
          | error fault =>
              refine h.advance hlookup hrunning h.journal (fun _ _ _ _ _ hrow => hrow)
                (fun _ => rfl) (fun _ _ _ _ _ _ hplanned => Or.inr hplanned) ?_ ?_
              · intro _ _ _ hwriting
                cases hwriting
              · intro _ hended
                cases hended
          | ok s' =>
              have hperformed := h.performed hscopes hlookup hphase hread hrun
              obtain ⟨r, hfence⟩ := Write.fence_of_run hrun
              have hepoch := epochOf_of_fence hfence
              refine h.advance hlookup hrunning hperformed.journal hperformed.grows ?_ ?_ ?_ ?_
              · intro runId
                rw [Store.epochOf, Store.epochOf, (Write.ledger_of_run hrun).runs]
              · intro id y hid hne hy writes hplanned
                by_cases hsame : y.lease.runId = x.lease.runId
                · -- Another worker of the run holds an older lease.
                  left
                  have hgranted := h.granted id y hid
                  rw [hsame, hepoch] at hgranted ⊢
                  refine Nat.lt_of_le_of_ne hgranted ?_
                  intro hequal
                  exact hne (h.apart id worker y x hid hlookup hy hrunning hsame hequal)
                · right
                  refine hplanned.congr fun stage scope _ =>
                    hperformed.elsewhere _ stage scope ?_
                  intro hkey
                  exact hsame (congrArg RevisionKey.runId hkey)
              · intro next others ending' hwriting
                obtain ⟨hrest, rfl⟩ := phaseOf_writing hwriting
                refine ⟨(h.plans worker x write rest ending' hlookup hphase).1, ?_⟩
                rw [← hrest]
                exact hperformed.planned
              · intro result hended
                exact absurd (phaseOf_returned hended).2
                  ((h.plans worker x write rest ending hlookup hphase).1 result)

/-- Every worker of the run has the same basis. -/
def OnBasis (host : Host) (call : GroupCall) (basisDigest : String) (spec : SpecOutcome) : Prop :=
  call.basisDigest host spec = basisDigest

theorem recovering_step (hscopes : DistinctScopes host) {w : World} {e : GroupEvent}
    (hadmissible : Admissible host (OnBasis host call basisDigest) e w)
    (h : Recovering host call basisDigest w) :
    Recovering host call basisDigest (stepGroup host call e w) := by
  cases e with
  | other event => exact h.other hadmissible
  | start worker lease spec =>
      obtain ⟨_, hheld, hgranted, hspec⟩ := hadmissible
      exact h.start hheld hgranted hspec
  | look worker choice => exact h.look hscopes hadmissible
  | write worker ref => exact h.write hscopes hadmissible
  | crash worker => exact h.crash worker

theorem recovering_of_reaches (hscopes : DistinctScopes host) {start w : World}
    (hstart : start.Fresh)
    (hrun : Reaches (stepGroup host call) (Admissible host (OnBasis host call basisDigest))
      start w) : Recovering host call basisDigest w :=
  Reaches.invariant (fun _ _ h hadmissible => recovering_step hscopes hadmissible h)
    (recovering_of_fresh hstart) hrun

end Tender
end KnowledgeBrain
