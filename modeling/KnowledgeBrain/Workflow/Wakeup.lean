import KnowledgeBrain.Workflow.Moves

/-!
# No lost wakeup

Transactions run in any order, each under the condition its callers establish:
a conversion is checked and claimed in one step, a worker is only handed jobs
that have a row, and a delayed reparse only puts the conversion of an attempt
it saw pending.  A document that is still working then always has a job of its
attempt left to deliver.
-/

namespace KnowledgeBrain
namespace Workflow

open Foundation DocumentRecord

/-- The database and the attempts `run_reparse` has seen pending. -/
structure Workers where
  db : Database
  queued : List (Uuid × Nat)

namespace DocumentRecord

/-- A job of the attempt has a row. -/
def HasRow (attempt : Nat) (key : JobKey) (r : DocumentRecord) : Prop :=
  exists row, r.outbox.lookup (attempt, key) = some row

theorem mem_rows_of_hasRow {attempt : Nat} {key : JobKey} {r : DocumentRecord}
    (hattempt : r.document.attempt = attempt) (hkey : key ≠ .reconcile)
    (hrow : r.HasRow attempt key) : key ∈ r.stage.rows := by
  refine ⟨hkey, jobState_ne_none.mpr ?_⟩
  rw [hattempt]
  exact hrow

end DocumentRecord

/-- What the callers of an event have established before it runs: `run_convert`
its claim, `run_reparse` and `maybe_start_postprocess` the jobs they put,
`run_post_process` the derived jobs it plans, and the workers of all other jobs
the keys they were handed. -/
def DocumentOp.Disciplined (queued : Nat -> Prop) (r : DocumentRecord) : DocumentOp -> Prop
  | claim attempt => r.convertRequested attempt = true
  | put _ attempt (.convert _ _) => queued attempt
  | put _ attempt (.postprocess _) =>
      exists imageKey, r.HasRow attempt (.image imageKey)
  | put _ _ _ => False
  | complete attempt key =>
      Stage.Routine key ∧ key ≠ .summary ∧ (key.isImage = true -> r.HasRow attempt key)
  | commitChunks attempt key status _ _ =>
      Stage.Routine key ∧ (key.isImage = true -> r.HasRow attempt key) ∧
        (key = .summary -> status = .completed ∨ status = .failed)
  | beginPostprocess _ attempt work =>
      r.HasRow attempt .postprocess ∧ forall w, w ∈ work -> w.derived = true
  | e => e.InWorkflow

namespace DocumentRecord

variable {r : DocumentRecord}

variable (now : Time)

theorem flow_put_postprocess (versionId : Uuid) {attempt : Nat} (cloneKeep : Bool)
    (hlock : r.lockCurrent attempt = true)
    (himage : exists imageKey, r.HasRow attempt (.image imageKey)) (hr : r.stage.Flow) :
    (r.putTx now versionId attempt (.postprocess cloneKeep)).stage.Flow := by
  have hattempt := attempt_of_lockCurrent hlock
  have hopens : Opens [.postprocess] r
      (r.putTx now versionId attempt (.postprocess cloneKeep)) :=
    opens_putAll now versionId [.postprocess cloneKeep] hattempt
  obtain ⟨imageKey, hrow⟩ := himage
  apply Stage.flow_put (s := r.stage) _ hopens.complete hopens.failed hopens.receipts_stage rfl
    Iff.rfl rfl (isWorking_of_lockCurrent hlock)
    ⟨.image imageKey, mem_rows_of_hasRow hattempt (by simp) hrow, rfl⟩ hr
  ext k
  rw [hopens.mem_rows, Set.mem_insert_iff, List.mem_singleton]
  constructor
  · rintro (hold | ⟨_, hpost⟩)
    · exact Or.inr hold
    · exact Or.inl hpost
  · rintro (hpost | hold)
    · exact Or.inr ⟨by simp [hpost], hpost⟩
    · exact Or.inl hold

theorem putTx_of_hasRow (versionId : Uuid) {attempt : Nat} {work : Work}
    (hrow : r.HasRow attempt work.key) : r.putTx now versionId attempt work = r := by
  obtain ⟨row, hrow⟩ := hrow
  unfold putTx
  rw [Table.insertNew_of_contains _ hrow]

theorem flow_finishDelete (released : Bool) (hr : r.stage.Flow) :
    (r.finishDelete now released).record.stage.Flow := by
  obtain ⟨deletedAt, updatedAt, heq⟩ := tombstone_eq now released r.document
  by_cases hdeleting : r.document.parseStatus = .deleting
  · apply flow_updateDocument_of_idle now _ _ _ hr
    · rw [heq]
    · rw [heq]
      simp [hdeleting, ParseStatus.isWorking]
    · rw [heq]
      simp [hdeleting, ParseStatus.isTerminal]
  · apply flow_updateDocument_of_same now _ _ _ _ hr
    · rw [heq]
    · rw [heq]
      simp [hdeleting]
    · rw [heq]
    · rw [heq]
      exact id

theorem flow_updateStatus_failed (attempt : Nat) (error : String) (hr : r.stage.Flow) :
    (r.updateStatus now attempt .failed error).record.stage.Flow := by
  unfold updateStatus
  by_cases hlock : r.lockOpen attempt = true
  · simp only [hlock, if_true]
    exact flow_updateDocument_of_idle now rfl rfl (fun _ => isTerminal_of_lockOpen hlock) hr
  · simp only [hlock, Bool.false_eq_true, if_false]
    exact flow_updateDocument_of_same now rfl rfl rfl id hr

/-- Every event, under the condition of its callers. -/
theorem flow_apply {queued : Nat -> Prop} {e : DocumentOp}
    (hqueued : forall attempt, queued attempt -> r.HasRow attempt .convert)
    (hdisciplined : e.Disciplined queued r) (hkeyed : RowsWellKeyed r) (hbounded : Bounded r)
    (hr : r.stage.Flow) : (e.apply now r).record.stage.Flow := by
  cases e with
  | claim attempt => exact flow_claim now hdisciplined hr
  | afterIndexFanout versionId attempt textCount images fileName =>
      simp only [DocumentOp.apply, afterIndexFanout]
      split
      · exact flow_fanoutText now versionId attempt textCount hkeyed hr
      · rename_i himages
        exact flow_fanoutImages now versionId attempt (by simpa using himages) fileName hkeyed hr
  | put versionId attempt work =>
      simp only [DocumentOp.apply, put]
      split
      · rename_i hlock
        cases work with
        | convert passages manual =>
            change (r.putTx now versionId attempt _).stage.Flow
            rw [putTx_of_hasRow now versionId (hqueued attempt hdisciplined)]
            exact hr
        | postprocess cloneKeep =>
            exact flow_put_postprocess now versionId cloneKeep hlock hdisciplined hr
        | summary => exact absurd hdisciplined id
        | datatable => exact absurd hdisciplined id
        | questions chunkIds prevIds nextIds batch => exact absurd hdisciplined id
        | extract chunkId => exact absurd hdisciplined id
        | image imageKey imageSourceType => exact absurd hdisciplined id
        | wiki => exact absurd hdisciplined id
        | reconcile => exact absurd hdisciplined id
      · exact hr
  | complete attempt key =>
      obtain ⟨hkey, hsummary, hrow⟩ := hdisciplined
      simp only [DocumentOp.apply, complete]
      split
      · rename_i hlock
        have hattempt := attempt_of_lockCurrent hlock
        apply flow_completeTx now key hkeyed hattempt hkey _ (isWorking_of_lockCurrent hlock) _ hr
        · intro himage
          apply mem_rows_of_hasRow hattempt _ (hrow himage)
          rintro rfl
          cases himage
        · intro heq
          exact absurd heq hsummary
      · exact hr
  | beginPostprocess versionId attempt work =>
      exact flow_beginPostprocess now versionId hkeyed hdisciplined.1 hdisciplined.2 hr
  | commitChunks attempt key status description finish =>
      obtain ⟨hkey, hrow, hsettled⟩ := hdisciplined
      simp only [DocumentOp.apply]
      split
      · exact hr
      · rename_i hlock
        simp only [Bool.or_eq_true, Bool.not_eq_true', not_or, Bool.not_eq_false] at hlock
        apply flow_commitChunksRecord now description finish hkeyed hlock.1 hkey _ hsettled hr
        intro himage
        apply mem_rows_of_hasRow (attempt_of_lockCurrent hlock.1) _ (hrow himage)
        rintro rfl
        cases himage
  | updateStatus attempt status error =>
      cases hdisciplined
      exact flow_updateStatus_failed now attempt error hr
  | publishEmpty attempt => exact absurd hdisciplined id
  | failJob attempt key error => exact flow_failJob now attempt key error hr
  | settleDelivery attempt key revision s =>
      exact flow_settleDelivery now attempt key revision hdisciplined hr
  | recoverStale =>
      simp only [DocumentOp.apply]
      split
      · exact flow_updateDocument_of_restart now (Nat.lt_succ_self _) rfl rfl hbounded
      · exact hr
  | bumpDocumentAttempt =>
      simp only [DocumentOp.apply, bumpDocumentAttempt]
      split
      · exact flow_updateDocument_of_restart now (Nat.lt_succ_self _) rfl rfl hbounded
      · exact hr
  | markReparseQueued =>
      simp only [DocumentOp.apply, markReparseQueued]
      split
      · by_cases hkept : (r.document.parseStatus == .pending &&
            r.document.enableStatus == .disabled) = true
        · have hpending : r.document.parseStatus = .pending := by
            simp only [Bool.and_eq_true, beq_iff_eq] at hkept
            exact hkept.1
          apply flow_updateDocument_of_same now _ _ _ _ hr
          · simp [freshAttempt, hkept]
          · simp [freshAttempt, hpending]
          · simp [freshAttempt]
          · simp [freshAttempt]
        · apply flow_updateDocument_of_restart now _ _ _ hbounded
          · simp [freshAttempt, hkept]
          · simp [freshAttempt]
          · simp [freshAttempt]
      · exact hr
  | setParseStatus status error =>
      have hidle : status.isWorking = false ∧ status.isTerminal = true := by
        rcases hdisciplined with rfl | rfl
        · exact ⟨rfl, rfl⟩
        · exact ⟨rfl, rfl⟩
      apply flow_updateDocument_of_idle now rfl hidle.1 _ hr
      intro hterminal
      dsimp only at hterminal
      rw [hidle.2] at hterminal
      cases hterminal
  | cancelActive versionIds =>
      simp only [DocumentOp.apply]
      split
      · refine flow_updateDocument_of_idle now rfl rfl ?_ hr
        intro hterminal
        cases hterminal
      · exact hr
  | finishDelete released => exact flow_finishDelete now released hr
  | housekeep staleSecs =>
      simp only [DocumentOp.apply]
      split
      · rename_i hstuck
        obtain ⟨f, hf, hspans⟩ := OnlySpans.housekeep now r staleSecs
        have hterminal : r.document.parseStatus.isTerminal = false := by
          simp only [stuck, Bool.and_eq_true, Bool.or_eq_true, beq_iff_eq] at hstuck
          rcases hstuck.1.1 with hstatus | hstatus
          · rw [hstatus]
            rfl
          · rw [hstatus]
            rfl
        apply flow_onlySpans hspans
        apply flow_updateDocument_of_idle now _ _ (fun _ => hterminal) hr
        · rw [hf]
        · rw [hf]
          rfl
      · exact hr
  | setIndexReady ready => exact flow_updateDocument_of_same now rfl rfl rfl id hr
  | setSummaryStatus status => exact absurd hdisciplined id
  | setDocumentProgress status count => exact absurd hdisciplined id
  | setFinalizing count => exact absurd hdisciplined id
  | trySetProcessing => exact absurd hdisciplined id
  | _ => exact flow_onlySpans (DocumentOp.onlySpans_apply now (by trivial) r) hr

/-!
# New documents
-/

theorem jobState_bare (d : Document) {k : JobKey} (hk : k ≠ .reconcile) :
    ((bare d).recordDocumentChange now none).record.jobState k =
      if d.parseStatus = .pending ∧ k = .convert then some .pending else none := by
  unfold jobState
  rw [document_recordDocumentChange, lookup_recordDocumentChange now none _ hk]
  by_cases hconvert : k = .convert
  · subst hconvert
    by_cases hstatus : d.parseStatus = .pending
    · simp [recordedRow, bare, hstatus, OutboxRow.fresh]
    · simp [recordedRow, bare, hstatus]
  · simp [recordedRow, bare, hconvert]

theorem receipts_bare (d : Document) :
    ((bare d).recordDocumentChange now none).record.stage.receipts = ∅ := by
  apply Set.eq_empty_of_forall_notMem
  intro k hk
  change (_, k) ∈ ((bare d).recordDocumentChange now none).record.receipts at hk
  rw [receipts_recordDocumentChange] at hk
  cases hk

theorem states_bare (d : Document) :
    ((bare d).recordDocumentChange now none).record.stage.complete = ∅ ∧
      ((bare d).recordDocumentChange now none).record.stage.failed = ∅ := by
  constructor
  · apply Set.eq_empty_of_forall_notMem
    rintro k ⟨hk, hstate⟩
    rw [jobState_bare now d hk] at hstate
    split at hstate <;> cases hstate
  · apply Set.eq_empty_of_forall_notMem
    rintro k ⟨hk, hstate⟩
    rw [jobState_bare now d hk] at hstate
    split at hstate <;> cases hstate

theorem flow_bare_pending {d : Document} (hstatus : d.parseStatus = .pending)
    (hclear : d.errorMessage.getD "" = "") :
    ((bare d).recordDocumentChange now none).record.stage.Flow := by
  have hdocument := document_recordDocumentChange now none (bare d)
  apply Stage.flow_restart _ _ _ (states_bare now d).1 (states_bare now d).2
    (receipts_bare now d)
  · change (recordDocumentChange now none (bare d)).record.document.parseStatus = _
    rw [hdocument]
    exact hstatus
  · change (recordDocumentChange now none (bare d)).record.document.errorMessage.getD "" = ""
    rw [hdocument]
    exact hclear
  · ext k
    change (k ≠ .reconcile ∧
      ((bare d).recordDocumentChange now none).record.jobState k ≠ none) <-> k = .convert
    constructor
    · rintro ⟨hk, hstate⟩
      rw [jobState_bare now d hk] at hstate
      by_contra hne
      rw [if_neg (fun hopen => hne hopen.2)] at hstate
      exact hstate rfl
    · rintro rfl
      refine ⟨by simp, ?_⟩
      rw [jobState_bare now d (by simp), if_pos ⟨hstatus, rfl⟩]
      simp

theorem flow_copy (versionId : Uuid) {d : Document} (work : List Work) (hattempt : d.attempt = 1)
    (hstatus : d.parseStatus = .processing) (hclear : d.errorMessage.getD "" = "")
    (hpost : JobKey.postprocess ∈ work.map Work.key)
    (hwork : forall k, k ∈ work.map Work.key -> k = .postprocess ∨ k = .wiki) :
    (((bare d).recordDocumentChange now none).record.putAll now versionId 1
      work).stage.Flow := by
  have hdocument := document_recordDocumentChange now none (bare d)
  have hattempt0 : ((bare d).recordDocumentChange now none).record.document.attempt = 1 := by
    rw [hdocument]
    exact hattempt
  have hopens := opens_putAll now versionId work hattempt0
  have hrows : forall k, k ∈ (((bare d).recordDocumentChange now none).record.putAll now
      versionId 1 work).stage.rows <-> k ≠ .reconcile ∧ k ∈ work.map Work.key := by
    intro k
    rw [hopens.mem_rows]
    constructor
    · rintro (⟨hk, hstate⟩ | hput)
      · rw [jobState_bare now d hk, if_neg] at hstate
        · exact absurd rfl hstate
        · rw [hstatus]
          rintro ⟨hpending, _⟩
          cases hpending
      · exact hput
    · exact Or.inr
  apply Stage.flow_copy
  · change (putAll now versionId 1 work _).document.parseStatus = _
    rw [document_putAll, hdocument]
    exact hstatus
  · change (putAll now versionId 1 work _).document.errorMessage.getD "" = ""
    rw [document_putAll, hdocument]
    exact hclear
  · exact (hrows _).mpr ⟨by simp, hpost⟩
  · intro k hk
    exact hwork k ((hrows k).mp hk).2
  · rw [hopens.complete]
    exact (states_bare now d).1
  · rw [hopens.failed]
    exact (states_bare now d).2
  · rw [hopens.receipts_stage]
    exact receipts_bare now d

theorem flow_created {now : Time} {db : Database} {id : Uuid} {op : Operation}
    (hcreated : Operation.Created now db id op r) : r.stage.Flow := by
  cases hcreated with
  | inserted versionId kind passages =>
      exact flow_bare_pending now rfl rfl
  | cloned sourceId versionId copyKeep sourceHadWiki rename source hsource =>
      unfold Database.clonedRecord
      dsimp only
      cases copyKeep with
      | false => exact flow_bare_pending now rfl rfl
      | true =>
          cases sourceHadWiki with
          | false =>
              exact flow_copy now versionId [.postprocess true] rfl rfl rfl
                (by simp [Work.key]) (by simp [Work.key])
          | true =>
              exact flow_copy now versionId [.postprocess true, .wiki] rfl rfl rfl
                (by simp [Work.key]) (by simp [Work.key])

end DocumentRecord

/-!
# Whole runs
-/

namespace Workers

def start : Workers where
  db := Database.empty
  queued := []

inductive Event where
  | transaction (t : Operation.Timed)
  | observe (id : Uuid)

/-- A transaction, or the read at the start of `run_reparse`. -/
def step : Event -> Workers -> Workers
  | .transaction t, s => { s with db := Operation.step t s.db }
  | .observe id, s =>
      match s.db.find id with
      | none => s
      | some r =>
          if r.document.parseStatus == .pending && r.document.deletedAt.isNone then
            { s with queued := (id, r.document.attempt) :: s.queued }
          else s

/-- Every event a transaction is for some document is disciplined. -/
def Permits : Event -> Workers -> Prop
  | .transaction t, s => forall id e r, t.operation.event id = some e ->
      s.db.find id = some r -> e.Disciplined (fun attempt => (id, attempt) ∈ s.queued) r
  | .observe _, _ => True

structure Sound (s : Workers) : Prop where
  documents : forall id r, s.db.find id = some r ->
    r.RowsWellKeyed ∧ r.Bounded ∧ r.stage.Flow
  queued : forall id attempt, (id, attempt) ∈ s.queued ->
    exists r, s.db.find id = some r ∧ r.HasRow attempt .convert

theorem sound_start : Sound start where
  documents := by
    intro id r hfind
    cases hfind
  queued := by
    intro id attempt hmem
    cases hmem

variable {s : Workers}

theorem sound_transaction {t : Operation.Timed} (hs : Sound s)
    (hpermits : Permits (.transaction t) s) : Sound (step (.transaction t) s) where
  documents := by
    apply Operation.forall_find_step
      (P := fun _ r => r.RowsWellKeyed ∧ r.Bounded ∧ r.stage.Flow) _ _ hs.documents
    · intro id r hcreated
      exact ⟨rowsWellKeyed_created hcreated,
        bounded_created hcreated, flow_created hcreated⟩
    · intro id e r hevent hfind hr
      obtain ⟨hkeyed, hbounded, hflow⟩ := hr
      refine ⟨(grows_apply t.now e r).wellKeyed hkeyed,
        bounded_apply t.now e hbounded, ?_⟩
      apply flow_apply t.now _ (hpermits id e r hevent hfind) hkeyed hbounded
        hflow
      intro attempt hmem
      obtain ⟨found, hfound, hrow⟩ := hs.queued id attempt hmem
      rw [hfind] at hfound
      cases hfound
      exact hrow
  queued := by
    intro id attempt hmem
    obtain ⟨r, hfind, row, hrow⟩ := hs.queued id attempt hmem
    rcases Operation.find_step_of_some (t := t) hfind with hsame | ⟨e, _, hnew⟩
    · exact ⟨r, hsame, row, hrow⟩
    · obtain ⟨row', hrow', _⟩ := (grows_apply t.now e r).kept _ row hrow
      exact ⟨_, hnew, row', hrow'⟩

theorem sound_observe {id : Uuid} (hs : Sound s) :
    Sound (step (.observe id) s) := by
  simp only [step]
  split
  · exact hs
  · rename_i r hfind
    split
    · rename_i hseen
      refine ⟨hs.documents, ?_⟩
      intro id' attempt hmem
      rcases List.mem_cons.mp hmem with heq | hold
      · cases heq
        simp only [Bool.and_eq_true, beq_iff_eq] at hseen
        obtain ⟨_, _, hflow⟩ := hs.documents id r hfind
        have hworking : r.stage.status.isWorking = true := by
          change r.document.parseStatus.isWorking = true
          rw [hseen.1]
          rfl
        have hrow := (hflow.busy hworking).opened hseen.1
        exact ⟨r, hfind, DocumentRecord.jobState_ne_none.mp hrow.2⟩
      · exact hs.queued id' attempt hold
    · exact hs

theorem sound_step {e : Event} (hs : Sound s) (hpermits : Permits e s) :
    Sound (step e s) := by
  cases e with
  | transaction t => exact sound_transaction hs hpermits
  | observe id => exact sound_observe hs

end Workers

/-- In every state that disciplined transactions reach, a live document that is
pending, processing or finalizing has a job of its current attempt, other than
the reconciliation, that is pending or published, and dispatch delivers it as
soon as it is due. -/
theorem working_document_has_live_job {s : Workers}
    (hrun : Reaches Workers.step Workers.Permits Workers.start s) :
    forall id r, s.db.find id = some r -> r.document.deletedAt = none ->
      r.document.parseStatus.isWorking = true ->
      exists key row, key ≠ JobKey.reconcile ∧
        r.outbox.lookup (r.document.attempt, key) = some row ∧ row.state.isLive = true ∧
        forall now, row.nextDeliveryAt ≤ now ->
          r.deliverable now (r.document.attempt, key) row = true := by
  intro id r hfind hdeleted hworking
  have hsound : s.Sound :=
    Reaches.invariant (P := Workers.Sound) (fun _ _ hs hpermits => Workers.sound_step hs hpermits)
      Workers.sound_start hrun
  obtain ⟨_, _, hflow⟩ := hsound.documents id r hfind
  obtain ⟨key, ⟨hkey, hstate⟩, hcomplete, hfailed⟩ := hflow.live hworking
  obtain ⟨row, hrow⟩ := DocumentRecord.jobState_ne_none.mp hstate
  have hstate' : r.jobState key = some row.state := by
    unfold jobState
    rw [hrow]
    rfl
  have hlive : row.state.isLive = true := by
    cases hs : row.state with
    | pending => rfl
    | published => rfl
    | complete =>
        rw [hs] at hstate'
        exact absurd ⟨hkey, hstate'⟩ hcomplete
    | failed =>
        rw [hs] at hstate'
        exact absurd ⟨hkey, hstate'⟩ hfailed
  refine ⟨key, row, hkey, hrow, hlive, ?_⟩
  intro now hdue
  simp [deliverable, hlive, hdue, hdeleted, hworking]

theorem Workers.permits_document {now : Time} {id : Uuid} {e : DocumentOp}
    (h : forall r, s.db.find id = some r ->
      e.Disciplined (fun attempt => (id, attempt) ∈ s.queued) r) :
    Workers.Permits (.transaction ⟨now, .document id e⟩) s := by
  intro id' e' r hevent hfind
  simp only [Operation.event] at hevent
  split at hevent
  · rename_i hid
    subst hid
    cases hevent
    exact h r hfind
  · cases hevent

/-- A new document, before its conversion is claimed. -/
def insertedWorkers : Workers :=
  Workers.step (.transaction ⟨0, .insertDocument 1 7 .file []⟩) Workers.start

/-- The conversion is claimed and handed over to post-processing. -/
def convertedWorkers : Workers :=
  perform Workers.step insertedWorkers
    [.transaction ⟨1, .document 1 (.claim 1)⟩,
      .transaction ⟨2, .document 1 (.afterIndexFanout 7 1 1 [] "report.txt")⟩]

theorem working_document_has_live_job_converted :
    exists r, convertedWorkers.db.find 1 = some r ∧
      exists key row, key ≠ JobKey.reconcile ∧
        r.outbox.lookup (r.document.attempt, key) = some row ∧ row.state.isLive = true ∧
        forall now, row.nextDeliveryAt ≤ now ->
          r.deliverable now (r.document.attempt, key) row = true := by
  refine ⟨(convertedWorkers.db.find 1).get (by decide), (Option.some_get _).symm, ?_⟩
  refine working_document_has_live_job ?_ 1 _ (Option.some_get _).symm (by decide) (by decide)
  have hinserted : Reaches Workers.step Workers.Permits Workers.start insertedWorkers := by
    apply (Reaches.refl _).snoc
    intro id e r hevent
    cases hevent
  refine reaches_perform hinserted ⟨?_, ?_, trivial⟩
  · apply Workers.permits_document
    intro r hfind
    have hr : (insertedWorkers.db.find 1).get (by decide) = r := by
      simp [hfind]
    rw [← hr]
    change convertRequested 1 _ = true
    decide
  · exact Workers.permits_document fun _ _ => trivial

end Workflow
end KnowledgeBrain
