import KnowledgeBrain.Tender.Recovery

/-!
# The journal of a group

Every row of the journal can be traced back: a result to the response it was
taken from, a response to its attempt.  At most one attempt is open at a time,
and while it is open no other attempt has given a result for its targets.
-/

namespace KnowledgeBrain
namespace Tender

open Foundation

section Journal

variable (host : Host) (call : GroupCall) (basisDigest : String)

/-!
# Rows
-/

/-- The attempt was reserved with this manifest. -/
def ManifestAt (s : Store) (key : RevisionKey) (attemptId : String) (manifest : Manifest) :
    Prop :=
  exists row, s.artifactOf key "model-group-attempt" attemptId = some row ∧
    host.read row.artifactRef = some (.manifest manifest)

/-- This was received for the attempt. -/
def ReceivedAt (s : Store) (key : RevisionKey) (attemptId : String) (received : Received) :
    Prop :=
  exists row, s.artifactOf key "model-group-response" attemptId = some row ∧
    host.read row.artifactRef = some (.received received)

structure AttemptRow (row : Artifact) (manifest : Manifest) : Prop where
  basis : row.metadata.groupBasisDigest = some basisDigest
  content : host.read row.artifactRef = some (.manifest manifest)
  keys : row.metadata.groupWorkUnitKeys =
    some (call.keys host manifest.payload.targetWorkUnitIds)
  command : row.metadata.commandId.isSome = true
  nonempty : manifest.payload.targetWorkUnitIds ≠ []
  nodup : manifest.payload.targetWorkUnitIds.Nodup
  targets : forall unit, unit ∈ manifest.payload.targetWorkUnitIds -> unit ∈ call.targets

/-- A result is what the validator made of the answer for the unit in the
response of the attempt. -/
structure ResultRow (s : Store) (key : RevisionKey) (scope : String) (row : Artifact)
    (unit attemptId : String) : Prop where
  basis : row.metadata.groupBasisDigest = some basisDigest
  place : scope = resultScope host basisDigest unit
  workUnitId : row.metadata.workUnitId = some unit
  groupAttemptId : row.metadata.groupAttemptId = some attemptId
  target : exists manifest, ManifestAt host s key attemptId manifest ∧
    unit ∈ manifest.payload.targetWorkUnitIds
  shared : (s.artifactOf key "model-group-shared" attemptId).isSome = true
  value : exists response units answer occasion value,
    ReceivedAt host s key attemptId (.parsed response) ∧ response.workUnits = some units ∧
    answerOf units unit = some answer ∧ host.validate occasion unit answer.text = .ok value ∧
    host.read row.artifactRef = some (.result (resultFields unit value))

inductive RowSound (s : Store) (key : RevisionKey) : GroupStage -> String -> Artifact -> Prop where
  | attempt {attemptId : String} {row : Artifact} (manifest : Manifest)
      (h : AttemptRow host call basisDigest row manifest) : RowSound s key .attempt attemptId row
  | response {attemptId : String} {row : Artifact} (received : Received)
      (hbasis : row.metadata.groupBasisDigest = some basisDigest)
      (hread : host.read row.artifactRef = some (.received received))
      (hattempt : (s.artifactOf key "model-group-attempt" attemptId).isSome = true) :
      RowSound s key .response attemptId row
  | shared {attemptId : String} {row : Artifact} (findings : List Json) (response : Response)
      (hbasis : row.metadata.groupBasisDigest = some basisDigest)
      (hread : host.read row.artifactRef = some (.shared findings))
      (hparsed : ReceivedAt host s key attemptId (.parsed response)) :
      RowSound s key .shared attemptId row
  | result {scope : String} {row : Artifact} (unit attemptId : String)
      (h : ResultRow host basisDigest s key scope row unit attemptId) :
      RowSound s key .result scope row
  | rejection {scope : String} {row : Artifact}
      (hbasis : row.metadata.groupBasisDigest = some basisDigest) :
      RowSound s key .rejection scope row
  | outcome {attemptId : String} {row : Artifact}
      (hbasis : row.metadata.groupBasisDigest = some basisDigest) :
      RowSound s key .outcome attemptId row

theorem RowSound.basis {s : Store} {key : RevisionKey} {g : GroupStage} {scope : String}
    {row : Artifact} (h : RowSound host call basisDigest s key g scope row) :
    row.metadata.groupBasisDigest = some basisDigest := by
  cases h with
  | attempt manifest h => exact h.basis
  | response received hbasis hread hattempt => exact hbasis
  | shared findings response hbasis hread hparsed => exact hbasis
  | result unit attemptId h => exact h.basis
  | rejection hbasis => exact hbasis
  | outcome hbasis => exact hbasis

/-!
# The invariant
-/

/-- The attempt has no outcome yet. -/
def OpenAt (s : Store) (key : RevisionKey) (attemptId : String) : Prop :=
  (s.artifactOf key "model-group-attempt" attemptId).isSome = true ∧
    s.hasOutcome key attemptId = false

structure Journal (s : Store) : Prop where
  rows : forall key stage scope row, s.artifactOf key stage scope = some row ->
    isGroupStage stage = true -> exists g : GroupStage, g.name = stage ∧
      RowSound host call basisDigest s key g scope row
  single : forall key attemptId attemptId', OpenAt s key attemptId -> OpenAt s key attemptId' ->
    attemptId = attemptId'
  clean : forall key attemptId manifest unit row, OpenAt s key attemptId ->
    ManifestAt host s key attemptId manifest -> unit ∈ manifest.payload.targetWorkUnitIds ->
    s.artifactOf key "model-group-result" (resultScope host basisDigest unit) = some row ->
    row.metadata.groupAttemptId = some attemptId
  limit : forall key commandId workUnitKey, s.attemptCount key commandId workUnitKey ≤ 4

end Journal

variable {host : Host} {call : GroupCall} {basisDigest : String}
variable {s s' : Store} {key : RevisionKey}

theorem Journal.sound (h : Journal host call basisDigest s) {g : GroupStage} {scope : String}
    {row : Artifact} (hrow : s.artifactOf key g.name scope = some row) :
    RowSound host call basisDigest s key g scope row := by
  obtain ⟨g', hname, hsound⟩ := h.rows key g.name scope row hrow g.isGroupStage
  rw [GroupStage.name_injective hname] at hsound
  exact hsound

variable {attemptId : String}

theorem Journal.attempt (h : Journal host call basisDigest s) {row : Artifact}
    (hrow : s.artifactOf key "model-group-attempt" attemptId = some row) :
    exists manifest, AttemptRow host call basisDigest row manifest := by
  cases h.sound (g := .attempt) hrow with
  | attempt manifest hattempt => exact ⟨manifest, hattempt⟩

theorem Journal.response (h : Journal host call basisDigest s) {row : Artifact}
    (hrow : s.artifactOf key "model-group-response" attemptId = some row) :
    exists received, host.read row.artifactRef = some (.received received) := by
  cases h.sound (g := .response) hrow with
  | response received _ hread _ => exact ⟨received, hread⟩

theorem Journal.shared (h : Journal host call basisDigest s) {row : Artifact}
    (hrow : s.artifactOf key "model-group-shared" attemptId = some row) :
    exists findings response, host.read row.artifactRef = some (.shared findings) ∧
      ReceivedAt host s key attemptId (.parsed response) := by
  cases h.sound (g := .shared) hrow with
  | shared findings response _ hread hparsed => exact ⟨findings, response, hread, hparsed⟩

theorem Journal.result (h : Journal host call basisDigest s) {scope : String} {row : Artifact}
    (hrow : s.artifactOf key "model-group-result" scope = some row) :
    exists unit attemptId, ResultRow host basisDigest s key scope row unit attemptId := by
  cases h.sound (g := .result) hrow with
  | result unit attemptId hresult => exact ⟨unit, attemptId, hresult⟩

/-!
# Growth
-/

/-- Rows of the journal stay. -/
def Grows (s s' : Store) : Prop :=
  forall key stage scope row, isGroupStage stage = true ->
    s.artifactOf key stage scope = some row -> s'.artifactOf key stage scope = some row

theorem SameJournal.grows (h : SameJournal s s') : Grows s s' := by
  intro key stage scope row hstage hrow
  rw [h.rows key stage scope hstage]
  exact hrow

theorem Grows.isSome (h : Grows s s') {g : GroupStage} {scope : String}
    (hsome : (s.artifactOf key g.name scope).isSome = true) :
    (s'.artifactOf key g.name scope).isSome = true := by
  obtain ⟨row, hrow⟩ := Option.isSome_iff_exists.mp hsome
  rw [h key g.name scope row g.isGroupStage hrow]
  rfl

variable {manifest : Manifest}

theorem Grows.manifestAt (h : Grows s s') (hmanifest : ManifestAt host s key attemptId manifest) :
    ManifestAt host s' key attemptId manifest := by
  obtain ⟨row, hrow, hread⟩ := hmanifest
  exact ⟨row, h key _ _ row GroupStage.attempt.isGroupStage hrow, hread⟩

theorem Grows.receivedAt (h : Grows s s') {received : Received}
    (hreceived : ReceivedAt host s key attemptId received) :
    ReceivedAt host s' key attemptId received := by
  obtain ⟨row, hrow, hread⟩ := hreceived
  exact ⟨row, h key _ _ row GroupStage.response.isGroupStage hrow, hread⟩

theorem Grows.resultRow (h : Grows s s') {scope : String} {row : Artifact}
    {unit attemptId : String} (hrow : ResultRow host basisDigest s key scope row unit attemptId) :
    ResultRow host basisDigest s' key scope row unit attemptId := by
  obtain ⟨manifest, hmanifest, hunit⟩ := hrow.target
  obtain ⟨response, units, answer, occasion, value, hreceived, hvalue⟩ := hrow.value
  exact ⟨hrow.basis, hrow.place, hrow.workUnitId, hrow.groupAttemptId,
    ⟨manifest, h.manifestAt hmanifest, hunit⟩, h.isSome (g := .shared) hrow.shared,
    ⟨response, units, answer, occasion, value, h.receivedAt hreceived, hvalue⟩⟩

theorem Grows.rowSound (h : Grows s s') {g : GroupStage} {scope : String} {row : Artifact}
    (hsound : RowSound host call basisDigest s key g scope row) :
    RowSound host call basisDigest s' key g scope row := by
  cases hsound with
  | attempt manifest hattempt => exact .attempt manifest hattempt
  | response received hbasis hread hattempt =>
      exact .response received hbasis hread (h.isSome (g := .attempt) hattempt)
  | shared findings response hbasis hread hparsed =>
      exact .shared findings response hbasis hread (h.receivedAt hparsed)
  | result unit attemptId hresult => exact .result unit attemptId (h.resultRow hresult)
  | rejection hbasis => exact .rejection hbasis
  | outcome hbasis => exact .outcome hbasis

theorem SameJournal.openAt (h : SameJournal s s') :
    OpenAt s' key attemptId <-> OpenAt s key attemptId := by
  unfold OpenAt Store.hasOutcome
  rw [h.rows key "model-group-attempt" attemptId GroupStage.attempt.isGroupStage,
    h.rows key "model-group-outcome" attemptId GroupStage.outcome.isGroupStage]

theorem SameJournal.manifestAt (h : SameJournal s s') :
    ManifestAt host s' key attemptId manifest <-> ManifestAt host s key attemptId manifest := by
  unfold ManifestAt
  rw [h.rows key "model-group-attempt" attemptId GroupStage.attempt.isGroupStage]

theorem SameJournal.journal (h : SameJournal s s') (hjournal : Journal host call basisDigest s) :
    Journal host call basisDigest s' := by
  refine ⟨?_, ?_, ?_, ?_⟩
  · intro key stage scope row hrow hstage
    rw [h.rows key stage scope hstage] at hrow
    obtain ⟨g, hname, hsound⟩ := hjournal.rows key stage scope row hrow hstage
    exact ⟨g, hname, h.grows.rowSound hsound⟩
  · intro key attemptId attemptId' hopen hopen'
    exact hjournal.single key attemptId attemptId' (h.openAt.mp hopen) (h.openAt.mp hopen')
  · intro key attemptId manifest unit row hopen hmanifest hunit hrow
    rw [h.rows key "model-group-result" _ GroupStage.result.isGroupStage] at hrow
    exact hjournal.clean key attemptId manifest unit row (h.openAt.mp hopen)
      (h.manifestAt.mp hmanifest) hunit hrow
  · intro key commandId workUnitKey
    rw [h.counts]
    exact hjournal.limit key commandId workUnitKey

/-!
# New rows
-/

/-- One row of the journal is new. -/
structure Inserts (s s' : Store) (key : RevisionKey) (g : GroupStage) (scope : String)
    (row : Artifact) : Prop where
  free : s.artifactOf key g.name scope = none
  rows : forall key' stage scope', s'.artifactOf key' stage scope' =
    if key' = key ∧ stage = g.name ∧ scope' = scope then some row
    else s.artifactOf key' stage scope'
  counts : forall key' commandId workUnitKey,
    s'.attemptCount key' commandId workUnitKey = s.attemptCount key' commandId workUnitKey +
      if key' = key ∧ g = .attempt ∧ row.metadata.commandId = some commandId ∧
        workUnitKey ∈ row.metadata.groupWorkUnitKeys.getD [] then 1 else 0

theorem Store.inRevision_iff {key : RevisionKey} {artifact : ArtifactKey} :
    Store.inRevision key artifact = true <->
      key = ⟨artifact.runId, artifact.sourceVersion, artifact.domainRevision⟩ := by
  obtain ⟨runId, sourceVersion, domainRevision⟩ := key
  simp only [Store.inRevision, Bool.and_eq_true, beq_iff_eq, RevisionKey.mk.injEq, and_assoc]
  constructor
  · rintro ⟨rfl, rfl, rfl⟩
    exact ⟨rfl, rfl, rfl⟩
  · rintro ⟨rfl, rfl, rfl⟩
    exact ⟨rfl, rfl, rfl⟩

theorem inserts_insertArtifact (key : RevisionKey) (g : GroupStage) (scope : String)
    (ref : ArtifactRef) (inputDigest : String) (metadata : ArtifactMetadata) (epoch : Nat)
    (hfree : s.artifactOf key g.name scope = none) :
    Inserts s (s.insertArtifact
        ⟨key.runId, key.sourceVersion, key.domainRevision, g.name, scope⟩ ref inputDigest
        metadata epoch) key g scope ⟨ref, inputDigest, metadata, epoch, s.now⟩ := by
  refine ⟨hfree, ?_, ?_⟩
  · intro key' stage scope'
    rw [Store.artifactOf_insertArtifact]
    by_cases hsame : key' = key ∧ stage = g.name ∧ scope' = scope
    · obtain ⟨rfl, rfl, rfl⟩ := hsame
      rw [hfree, if_pos rfl, if_pos ⟨rfl, rfl, rfl⟩]
      rfl
    · rw [if_neg hsame, if_neg, Option.or_none]
      intro heq
      apply hsame
      cases key
      cases key'
      cases heq
      exact ⟨rfl, rfl, rfl⟩
  · intro key' commandId workUnitKey
    rw [Store.attemptCount_insertArtifact _ _ _ _ hfree]
    congr 1
    have hname : g.name = "model-group-attempt" <-> g = .attempt := by
      constructor
      · intro h
        exact GroupStage.name_injective (g := g) h
      · rintro rfl
        rfl
    simp only [Bool.and_eq_true, Store.inRevision_iff, beq_iff_eq, List.contains_iff_mem, hname,
      and_assoc]

namespace Inserts

variable {g : GroupStage} {scope : String} {row : Artifact}

section

variable (h : Inserts s s' key g scope row)

include h

theorem grows : Grows s s' := by
  intro key' stage scope' old _ hold
  rw [h.rows, if_neg]
  · exact hold
  · rintro ⟨rfl, rfl, rfl⟩
    rw [h.free] at hold
    cases hold

theorem self : s'.artifactOf key g.name scope = some row := by
  rw [h.rows, if_pos ⟨rfl, rfl, rfl⟩]

theorem other (g' : GroupStage) (hne : g' ≠ g) (key' : RevisionKey) (scope' : String) :
    s'.artifactOf key' g'.name scope' = s.artifactOf key' g'.name scope' := by
  rw [h.rows, if_neg]
  rintro ⟨_, hname, _⟩
  exact hne (GroupStage.name_injective hname)

theorem rowsSound (hjournal : Journal host call basisDigest s)
    (hsound : RowSound host call basisDigest s' key g scope row) :
    forall key stage scope row, s'.artifactOf key stage scope = some row ->
      isGroupStage stage = true -> exists g : GroupStage, g.name = stage ∧
        RowSound host call basisDigest s' key g scope row := by
  intro key' stage scope' row' hrow hstage
  rw [h.rows] at hrow
  split at hrow
  · rename_i hsame
    obtain ⟨rfl, rfl, rfl⟩ := hsame
    cases hrow
    exact ⟨g, rfl, hsound⟩
  · obtain ⟨g', hname, hold⟩ := hjournal.rows key' stage scope' row' hrow hstage
    exact ⟨g', hname, h.grows.rowSound hold⟩

variable {key' : RevisionKey}

theorem openAt (hne : g ≠ .attempt) (hopen : OpenAt s' key' attemptId) :
    OpenAt s key' attemptId := by
  refine ⟨?_, ?_⟩
  · have hsome := hopen.1
    rwa [show s'.artifactOf key' "model-group-attempt" attemptId = _ from
      h.other .attempt hne.symm key' attemptId] at hsome
  · by_contra hdone
    rw [Bool.not_eq_false] at hdone
    have hstill : s'.hasOutcome key' attemptId = true := h.grows.isSome (g := .outcome) hdone
    rw [hopen.2] at hstill
    cases hstill

theorem manifestAt (hne : g ≠ .attempt) (hmanifest : ManifestAt host s' key' attemptId manifest) :
    ManifestAt host s key' attemptId manifest := by
  obtain ⟨row', hrow, hread⟩ := hmanifest
  rw [show s'.artifactOf key' "model-group-attempt" attemptId = _ from
    h.other .attempt hne.symm key' attemptId] at hrow
  exact ⟨row', hrow, hread⟩

theorem limit (hne : g ≠ .attempt) (hjournal : Journal host call basisDigest s) (key' : RevisionKey)
    (commandId workUnitKey : String) : s'.attemptCount key' commandId workUnitKey ≤ 4 := by
  rw [h.counts, if_neg fun hnew => hne hnew.2.1, Nat.add_zero]
  exact hjournal.limit key' commandId workUnitKey

theorem single (hne : g ≠ .attempt) (hjournal : Journal host call basisDigest s)
    {attemptId attemptId' : String} (hopen : OpenAt s' key' attemptId)
    (hopen' : OpenAt s' key' attemptId') : attemptId = attemptId' :=
  hjournal.single key' attemptId attemptId' (h.openAt hne hopen) (h.openAt hne hopen')

theorem journal_of_other (hjournal : Journal host call basisDigest s) (hattempt : g ≠ .attempt)
    (hresult : g ≠ .result) (hsound : RowSound host call basisDigest s' key g scope row) :
    Journal host call basisDigest s' := by
  refine ⟨h.rowsSound hjournal hsound, fun _ _ _ => h.single hattempt hjournal, ?_,
    h.limit hattempt hjournal⟩
  intro key' attemptId manifest unit row' hopen hmanifest hunit hrow
  rw [show s'.artifactOf key' "model-group-result" _ = _ from
    h.other .result hresult.symm key' _] at hrow
  exact hjournal.clean key' attemptId manifest unit row' (h.openAt hattempt hopen)
    (h.manifestAt hattempt hmanifest) hunit hrow

end

/-- A result of the open attempt. -/
theorem journal_of_result {unit attemptId : String}
    (h : Inserts s s' key .result (resultScope host basisDigest unit) row)
    (hjournal : Journal host call basisDigest s) (hopen : OpenAt s key attemptId)
    (hresult : ResultRow host basisDigest s key (resultScope host basisDigest unit) row unit
      attemptId) : Journal host call basisDigest s' := by
  have hne : GroupStage.result ≠ .attempt := by decide
  refine ⟨h.rowsSound hjournal (.result unit attemptId (h.grows.resultRow hresult)),
    fun _ _ _ => h.single hne hjournal, ?_, h.limit hne hjournal⟩
  intro key' attemptId' manifest unit' row' hopen' hmanifest hunit hrow
  rw [show s'.artifactOf key' "model-group-result" _ = _ from
    h.rows key' GroupStage.result.name _] at hrow
  split at hrow
  · rename_i hsame
    obtain ⟨rfl, _, _⟩ := hsame
    cases hrow
    rw [hjournal.single key' attemptId' attemptId (h.openAt hne hopen') hopen]
    exact hresult.groupAttemptId
  · exact hjournal.clean key' attemptId' manifest unit' row' (h.openAt hne hopen')
      (h.manifestAt hne hmanifest) hunit hrow

/-- An attempt that is reserved while no other is open. -/
theorem journal_of_attempt (h : Inserts s s' key .attempt attemptId row)
    (hjournal : Journal host call basisDigest s)
    (hattempt : AttemptRow host call basisDigest row manifest)
    (hnone : forall attemptId, ¬ OpenAt s key attemptId)
    (hnew : forall unit, unit ∈ manifest.payload.targetWorkUnitIds ->
      s.artifactOf key "model-group-result" (resultScope host basisDigest unit) = none)
    (hlimit : forall commandId workUnitKey, row.metadata.commandId = some commandId ->
      workUnitKey ∈ row.metadata.groupWorkUnitKeys.getD [] ->
      s.attemptCount key commandId workUnitKey < 4) :
    Journal host call basisDigest s' := by
  have hopens : forall key' attemptId', OpenAt s' key' attemptId' ->
      key' = key ∧ attemptId' = attemptId ∨ OpenAt s key' attemptId' := by
    intro key' attemptId' hopen
    obtain ⟨hsome, hdone⟩ := hopen
    rw [Store.hasOutcome, show s'.artifactOf key' "model-group-outcome" attemptId' = _ from
      h.other .outcome (by decide) key' attemptId'] at hdone
    rw [show s'.artifactOf key' "model-group-attempt" attemptId' = _ from
      h.rows key' GroupStage.attempt.name attemptId'] at hsome
    split at hsome
    · rename_i hsame
      exact Or.inl ⟨hsame.1, hsame.2.2⟩
    · exact Or.inr ⟨hsome, hdone⟩
  refine ⟨h.rowsSound hjournal (.attempt manifest hattempt), ?_, ?_, ?_⟩
  · intro key' attemptId1 attemptId2 hopen1 hopen2
    rcases hopens key' attemptId1 hopen1 with ⟨rfl, rfl⟩ | hold1
    · rcases hopens key' attemptId2 hopen2 with ⟨_, rfl⟩ | hold2
      · rfl
      · exact absurd hold2 (hnone attemptId2)
    · rcases hopens key' attemptId2 hopen2 with ⟨rfl, rfl⟩ | hold2
      · exact absurd hold1 (hnone attemptId1)
      · exact hjournal.single key' attemptId1 attemptId2 hold1 hold2
  · intro key' attemptId' manifest' unit row' hopen hmanifest hunit hrow
    rw [show s'.artifactOf key' "model-group-result" _ = _ from
      h.other .result (by decide) key' _] at hrow
    obtain ⟨row1, hrow1, hread1⟩ := hmanifest
    rw [show s'.artifactOf key' "model-group-attempt" attemptId' = _ from
      h.rows key' GroupStage.attempt.name attemptId'] at hrow1
    split at hrow1
    · rename_i hsame
      obtain ⟨rfl, _, _⟩ := hsame
      cases hrow1
      rw [hattempt.content] at hread1
      cases hread1
      exact absurd (hrow.symm.trans (hnew unit hunit)) (Option.some_ne_none row')
    · rename_i hother
      rcases hopens key' attemptId' hopen with ⟨rfl, rfl⟩ | hold
      · exact absurd ⟨rfl, rfl, rfl⟩ hother
      · exact hjournal.clean key' attemptId' manifest' unit row' hold ⟨row1, hrow1, hread1⟩ hunit
          hrow
  · intro key' commandId workUnitKey
    rw [h.counts]
    split
    · rename_i hnewRow
      obtain ⟨rfl, _, hcommand, hkey⟩ := hnewRow
      exact hlimit commandId workUnitKey hcommand hkey
    · exact hjournal.limit key' commandId workUnitKey

end Inserts

end Tender
end KnowledgeBrain
