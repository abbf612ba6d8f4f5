import KnowledgeBrain.Workflow.Completion

/-!
# Generations

A document's attempt only grows, its active generation is only ever set to the
current attempt by a publication, and the chunks of the active generation
survive every later attempt until the document is deleted.
-/

namespace KnowledgeBrain
namespace Workflow

open Foundation DocumentRecord

variable (now : Time)

section

/-- What one transaction may do to the generation columns. -/
structure Document.Advances (d d' : Document) : Prop where
  attempt : d.attempt ≤ d'.attempt
  active : d'.activeGeneration = d.activeGeneration ∨
    (d'.activeGeneration = d.attempt ∧ d'.attempt = d.attempt ∧
      d'.parseStatus = .completed)

namespace Document.Advances

theorem refl (d : Document) : Advances d d :=
  ⟨Nat.le_refl _, Or.inl rfl⟩

theorem of_same {d d' : Document} (hattempt : d'.attempt = d.attempt)
    (hactive : d'.activeGeneration = d.activeGeneration) : Advances d d' :=
  ⟨Nat.le_of_eq hattempt.symm, Or.inl hactive⟩

theorem after_edit {d d1 d2 : Document} (hattempt : d1.attempt = d.attempt)
    (hactive : d1.activeGeneration = d.activeGeneration) (h : Advances d1 d2) :
    Advances d d2 := by
  obtain ⟨hle, hact⟩ := h
  rw [hattempt] at hle hact
  rw [hactive] at hact
  exact ⟨hle, hact⟩

theorem of_ite {p : Prop} [Decidable p] {d d1 d2 : Document} (h1 : Advances d d1)
    (h2 : Advances d d2) : Advances d (if p then d1 else d2) := by
  split
  · exact h1
  · exact h2

theorem of_publish {now attempt : Nat} {d : Document} (hattempt : d.attempt = attempt) :
    Advances d (publishAttempt now attempt d) :=
  ⟨Nat.le_refl _, Or.inr ⟨hattempt.symm, rfl, rfl⟩⟩

end Document.Advances

open Document (Advances)

namespace DocumentRecord

/-!
# The document row after each event
-/

@[simp]
theorem document_updateDocument (f : Document -> Document) (r : DocumentRecord) :
    (r.updateDocument now f).record.document = f r.document := by
  simp [updateDocument]

theorem document_completeTx (attempt : Nat) (key : JobKey) (r : DocumentRecord) :
    (r.completeTx now attempt key).1.record.document =
      if r.hasReceipt attempt key then r.document
      else r.completedDocument now attempt key := by
  cases hreceipt : r.hasReceipt attempt key with
  | true =>
      rw [completeTx_of_receipt now attempt key hreceipt]
      rfl
  | false =>
      rw [completeTx_of_fresh now attempt key hreceipt]
      simp

/-- A completion keeps the attempt; it keeps status and active generation too,
or publishes a drained document whose summary is settled. -/
theorem document_completeTx_cases (attempt : Nat) (key : JobKey)
    (r : DocumentRecord) :
    let d := (r.completeTx now attempt key).1.record.document
    d.attempt = r.document.attempt ∧ d.summaryStatus = r.document.summaryStatus ∧
      ((d.parseStatus = r.document.parseStatus ∧
          d.activeGeneration = r.document.activeGeneration) ∨
        (r.document.summaryStatus.isUnsettled = false ∧ d.parseStatus = .completed ∧
          d.activeGeneration = r.document.attempt)) := by
  rw [document_completeTx]
  cases hreceipt : r.hasReceipt attempt key with
  | true =>
      exact ⟨rfl, rfl, Or.inl ⟨rfl, rfl⟩⟩
  | false =>
      refine ⟨attempt_completedDocument, summary_completedDocument, ?_⟩
      by_cases hattempt : r.document.attempt = attempt
      · rcases completedDocument_status now key hattempt with
          hsame | ⟨_, hstatus, hactive, hsummary, _, _⟩
        · exact Or.inl hsame
        · exact Or.inr ⟨hsummary, hstatus, hactive.trans hattempt.symm⟩
      · left
        rw [if_neg (by simp), completedDocument_of_ne hattempt]
        exact ⟨rfl, rfl⟩

theorem advances_completeTx (attempt : Nat) (key : JobKey) (r : DocumentRecord) :
    Advances r.document (r.completeTx now attempt key).1.record.document := by
  obtain ⟨hattempt, _, ⟨_, hactive⟩ | ⟨_, hstatus, hactive⟩⟩ :=
    document_completeTx_cases now attempt key r
  · exact Advances.of_same hattempt hactive
  · exact ⟨Nat.le_of_eq hattempt.symm, Or.inr ⟨hactive, hattempt, hstatus⟩⟩

theorem attempt_of_lockCurrent {attempt : Nat} {r : DocumentRecord}
    (hlock : r.lockCurrent attempt = true) : r.document.attempt = attempt := by
  simp only [lockCurrent, Bool.and_eq_true, beq_iff_eq] at hlock
  exact hlock.1.1

theorem advances_beginPostprocess (versionId : Uuid) (attempt : Nat) (work : List Work)
    (r : DocumentRecord) :
    Advances r.document (r.beginPostprocess now versionId attempt work).1.record.document := by
  unfold beginPostprocess
  split
  · exact Advances.refl _
  · split
    · exact Advances.refl _
    · simp only [Change.andThen, document_recordDocumentChange]
      apply Advances.after_edit _ _ (advances_completeTx now attempt .postprocess _)
      · simp [enterFinalizing]
      · simp [enterFinalizing]

theorem advances_commitChunksRecord (attempt : Nat) (key : JobKey) (status : SummaryStatus)
    (description : String) (finish : Bool) (r : DocumentRecord) :
    Advances r.document
      (r.commitChunksRecord now attempt key status description finish).record.document := by
  unfold commitChunksRecord
  simp only [Change.andThen, document_recordDocumentChange]
  generalize hr1 : ({ r with
    document := storeSummary key status description r.document } : DocumentRecord) = r1
  have hattempt1 : r1.document.attempt = r.document.attempt := by
    rw [← hr1]
    unfold storeSummary
    dsimp only
    split <;> rfl
  have hactive1 : r1.document.activeGeneration = r.document.activeGeneration := by
    rw [← hr1]
    unfold storeSummary
    dsimp only
    split <;> rfl
  have hsummary1 : (key == .summary && status == .failed) = true ->
      r1.document.summaryStatus = .failed := by
    intro hfailed
    simp only [Bool.and_eq_true, beq_iff_eq] at hfailed
    rw [← hr1]
    simp [storeSummary, hfailed.1, hfailed.2]
  cases finish with
  | false =>
      apply Advances.of_same
      · rw [← hattempt1]
        unfold failSummary Change.unchanged
        simp only [Bool.false_eq_true, if_false]
        split <;> rfl
      · rw [← hactive1]
        unfold failSummary Change.unchanged
        simp only [Bool.false_eq_true, if_false]
        split <;> rfl
  | true =>
      simp only [if_true]
      obtain ⟨hattempt, _, ⟨_, hactive⟩ | ⟨hsettled, hstatus, hactive⟩⟩ :=
        document_completeTx_cases now attempt key r1
      · apply Advances.of_same
        · rw [← hattempt1, ← hattempt]
          unfold failSummary
          split <;> rfl
        · rw [← hactive1, ← hactive]
          unfold failSummary
          split <;> rfl
      · have hkept : (key == .summary && status == .failed) = false := by
          rw [← Bool.not_eq_true]
          intro hfailed
          rw [hsummary1 hfailed] at hsettled
          cases hsettled
        simp only [failSummary, hkept, Bool.false_eq_true, if_false]
        refine ⟨by rw [hattempt, hattempt1], Or.inr ⟨?_, ?_, hstatus⟩⟩
        · rw [hactive, hattempt1]
        · rw [hattempt, hattempt1]

theorem advances_failJob (attempt : Nat) (key : JobKey) (error : String) (r : DocumentRecord) :
    Advances r.document (r.failJob now attempt key error).record.document := by
  unfold failJob
  split
  · exact Advances.refl _
  · simp only [document_recordDocumentChange]
    split
    · exact Advances.of_same rfl rfl
    · exact Advances.refl _

theorem advances_fanoutText_zero (versionId : Uuid) {attempt : Nat} {r : DocumentRecord}
    (hlock : r.lockCurrent attempt = true) :
    Advances r.document (r.fanoutText now versionId attempt 0).record.document := by
  have hattempt := attempt_of_lockCurrent hlock
  rw [fanoutText_zero now versionId hlock]
  have hdocument := document_updateDocument now (publishAttempt now attempt) r
  generalize (r.updateDocument now (publishAttempt now attempt)).record = r1 at hdocument ⊢
  obtain ⟨hattempt', _, hcases⟩ := document_completeTx_cases now attempt .convert r1
  rw [hdocument] at hattempt' hcases
  refine ⟨Nat.le_of_eq hattempt'.symm, Or.inr ?_⟩
  rcases hcases with ⟨hstatus, hactive⟩ | ⟨_, hstatus, hactive⟩
  · exact ⟨hactive.trans hattempt.symm, hattempt', hstatus⟩
  · exact ⟨hactive, hattempt', hstatus⟩

theorem advances_fanoutText (versionId : Uuid) (attempt textCount : Nat) (r : DocumentRecord) :
    Advances r.document (r.fanoutText now versionId attempt textCount).record.document := by
  by_cases hlock : r.lockCurrent attempt = true
  · by_cases hzero : textCount = 0
    · subst hzero
      exact advances_fanoutText_zero now versionId hlock
    · have hpos : 0 < textCount := Nat.pos_iff_ne_zero.mpr hzero
      simp only [fanoutText, hlock, Bool.not_true, Bool.false_eq_true, if_false, hpos, if_true,
        hzero, Change.andThen]
      apply Advances.after_edit _ _ (advances_completeTx now attempt .convert _)
      · simp [putTx]
      · simp [putTx]
  · simp only [fanoutText, hlock, Bool.not_false, if_true]
    exact Advances.refl _

theorem advances_fanoutImages (versionId : Uuid) (attempt : Nat) (images : List String)
    (fileName : String) (r : DocumentRecord) :
    Advances r.document
      (r.fanoutImages now versionId attempt images fileName).record.document := by
  unfold fanoutImages
  split
  · exact Advances.refl _
  · apply Advances.after_edit _ _ (advances_completeTx now attempt .convert _)
    · simp
    · simp

theorem advances_onlySpans {r r' : DocumentRecord} (h : OnlySpans r r') :
    Advances r.document r'.document := by
  obtain ⟨at', hdocument⟩ := h.document
  rw [hdocument]
  exact Advances.of_same rfl rfl

theorem advances_updateDocument {f : Document -> Document} {r : DocumentRecord}
    (hf : Advances r.document (f r.document)) :
    Advances r.document (r.updateDocument now f).record.document := by
  rw [document_updateDocument]
  exact hf

theorem advances_freshAttempt {now attempt : Nat} {d : Document}
    (hle : d.attempt ≤ attempt) : Advances d (freshAttempt now attempt d) :=
  ⟨hle, Or.inl rfl⟩

/-- Every event advances the generation columns of its document. -/
theorem advances_apply (e : DocumentOp) (r : DocumentRecord) :
    Advances r.document (e.apply now r).record.document := by
  cases e with
  | claim attempt =>
      exact advances_updateDocument now (Advances.of_ite (Advances.of_same rfl rfl)
        (Advances.refl _))
  | afterIndexFanout versionId attempt textCount images fileName =>
      simp only [DocumentOp.apply, afterIndexFanout]
      split
      · exact advances_fanoutText now versionId attempt textCount r
      · exact advances_fanoutImages now versionId attempt images fileName r
  | put versionId attempt work =>
      simp only [DocumentOp.apply, put]
      split
      · exact Advances.refl _
      · exact Advances.refl _
  | complete attempt key =>
      simp only [DocumentOp.apply, complete]
      split
      · exact advances_completeTx now attempt key r
      · exact Advances.refl _
  | beginPostprocess versionId attempt work =>
      exact advances_beginPostprocess now versionId attempt work r
  | commitChunks attempt key status description finish =>
      simp only [DocumentOp.apply]
      split
      · exact Advances.refl _
      · exact advances_commitChunksRecord now attempt key status description finish r
  | updateStatus attempt status error =>
      exact advances_updateDocument now (Advances.of_ite (Advances.of_same rfl rfl)
        (Advances.refl _))
  | publishEmpty attempt =>
      apply advances_updateDocument now
      split
      · rename_i hcurrent
        simp only [Bool.and_eq_true, beq_iff_eq] at hcurrent
        exact Advances.of_publish hcurrent.1.1
      · exact Advances.refl _
  | failJob attempt key error => exact advances_failJob now attempt key error r
  | settleDelivery attempt key revision s =>
      simp only [DocumentOp.apply, settleDelivery]
      split
      · exact advances_failJob now attempt key _ r
      · exact Advances.refl _
  | recoverStale =>
      simp only [DocumentOp.apply]
      split
      · exact advances_updateDocument now ⟨Nat.le_succ _, Or.inl rfl⟩
      · exact Advances.refl _
  | bumpDocumentAttempt =>
      simp only [DocumentOp.apply, bumpDocumentAttempt]
      split
      · exact advances_updateDocument now (advances_freshAttempt (Nat.le_succ _))
      · exact Advances.refl _
  | markReparseQueued =>
      simp only [DocumentOp.apply, markReparseQueued]
      split
      · apply advances_updateDocument now
        apply advances_freshAttempt
        split
        · exact Nat.le_refl _
        · exact Nat.le_succ _
      · exact Advances.refl _
  | setParseStatus status error =>
      exact advances_updateDocument now (Advances.of_same rfl rfl)
  | cancelActive versionIds =>
      simp only [DocumentOp.apply]
      split
      · exact advances_updateDocument now (Advances.of_same rfl rfl)
      · exact Advances.refl _
  | finishDelete released =>
      apply advances_updateDocument now
      obtain ⟨deletedAt, updatedAt, heq⟩ := tombstone_eq now released r.document
      rw [heq]
      exact Advances.of_same rfl rfl
  | housekeep staleSecs =>
      simp only [DocumentOp.apply]
      split
      · exact Advances.of_same (by simp [housekeep]) (by simp [housekeep])
      · exact Advances.refl _
  | setIndexReady ready => exact advances_updateDocument now (Advances.of_same rfl rfl)
  | setSummaryStatus status => exact advances_updateDocument now (Advances.of_same rfl rfl)
  | setDocumentProgress status count =>
      exact advances_updateDocument now (Advances.of_same rfl rfl)
  | setFinalizing count =>
      exact advances_updateDocument now (Advances.of_ite (Advances.of_same rfl rfl)
        (Advances.refl _))
  | trySetProcessing =>
      exact advances_updateDocument now (Advances.of_ite (Advances.of_same rfl rfl)
        (Advances.refl _))
  | _ => exact advances_onlySpans (DocumentOp.onlySpans_apply now (by trivial) r)

end DocumentRecord

end

/-!
# Reporting the error of a document job

The worker that processes a document hands the result of the conversion to
`finish_knowledge_document_job`.  An error may be raised after the transaction
of `after_index_fanout` has committed, by the dispatch or the scheduling that
follow it, and the report cannot tell such an error from a failed conversion.
-/

namespace DocumentRecord

def failNow (now : Time) (attempt : Nat) (message : String) (r : DocumentRecord) : Change :=
  r.updateStatus now attempt .failed message

/-- The rows after the report and the result the queue sees; `status` is the
answer of `document_parse_status`, read in a transaction of its own. -/
def finishKnowledgeDocumentJob (now : Time) (attempt retries maxRetry : Nat)
    (status : Option ParseStatus) (result : Except String Unit) (r : DocumentRecord) :
    Change × Except String Unit :=
  match result with
  | .ok () => (Change.unchanged r, .ok ())
  | .error error =>
      if maxRetry ≤ retries then
        if status ≠ some .completed then (r.failNow now attempt error, .ok ())
        else (Change.unchanged r, .ok ())
      else (r.failNow now attempt error, .error error)

/-- The conversion is committed: its receipt exists, and the document is
processing with an obligation outstanding, or finalizing. -/
def ProgressCommitted (attempt : Nat) (r : DocumentRecord) : Prop :=
  r.hasReceipt attempt .convert = true ∧
    ((r.document.parseStatus = .processing ∧
        exists key, key ≠ .reconcile ∧ r.hasLiveRow r.document.attempt key = true) ∨
      r.document.parseStatus = .finalizing)

/-- The status is the same, and every job dispatch could deliver it still can. -/
structure KeepsProgress (r r' : DocumentRecord) : Prop where
  status : r'.document.parseStatus = r.document.parseStatus
  deliverable : forall now key row, r.outbox.lookup key = some row ->
    r.deliverable now key row = true ->
      exists row', r'.outbox.lookup key = some row' ∧ r'.deliverable now key row' = true

theorem KeepsProgress.refl (r : DocumentRecord) : KeepsProgress r r :=
  ⟨rfl, fun _ _ row hrow hdue => ⟨row, hrow, hdue⟩⟩

variable {r : DocumentRecord} {attempt : Nat}

theorem isWorking_of_progressCommitted (h : ProgressCommitted attempt r) :
    r.document.parseStatus.isWorking = true := by
  rcases h.2 with ⟨hstatus, _⟩ | hstatus
  · rw [hstatus]
    rfl
  · rw [hstatus]
    rfl

theorem status_failNow {now : Time} {message : String} (hlock : r.lockOpen attempt = true) :
    (r.failNow now attempt message).record.document.parseStatus = .failed := by
  unfold failNow updateStatus
  rw [document_updateDocument, if_pos hlock]

theorem failNow_of_not_lockOpen {now : Time} {message : String}
    (hlock : r.lockOpen attempt = false) (hstatus : r.document.parseStatus.isWorking = true) :
    r.failNow now attempt message = Change.unchanged r := by
  have hterminal : r.document.parseStatus.isTerminal = false := by
    cases hs : r.document.parseStatus <;> rw [hs] at hstatus <;> first | rfl | cases hstatus
  apply updateDocument_eq_self now (terminalRowsRetired_of_not_terminal hterminal)
  rw [if_neg (by simp [hlock])]

theorem lockOpen_eq_false_iff (hstatus : r.document.parseStatus.isWorking = true) :
    r.lockOpen attempt = false <->
      r.document.attempt ≠ attempt ∨ r.document.deletedAt ≠ none := by
  have hopen : r.document.parseStatus.isOpen = true := by
    cases hs : r.document.parseStatus <;> rw [hs] at hstatus <;> first | rfl | cases hstatus
  unfold lockOpen
  rw [hopen, Bool.and_true, Bool.and_eq_false_iff]
  constructor
  · rintro (hattempt | hdeleted)
    · exact Or.inl (by simpa using hattempt)
    · exact Or.inr (by simpa [Option.isSome_iff_ne_none] using hdeleted)
  · rintro (hattempt | hdeleted)
    · exact Or.inl (by simpa using hattempt)
    · exact Or.inr (by simpa [Option.isSome_iff_ne_none] using hdeleted)

theorem finishKnowledgeDocumentJob_error (attempt retries maxRetry : Nat)
    (status : Option ParseStatus) (error : String) (r : DocumentRecord) :
    (r.finishKnowledgeDocumentJob now attempt retries maxRetry status (.error error)).1.record =
      if maxRetry ≤ retries ∧ status = some .completed then r
      else (r.failNow now attempt error).record := by
  unfold finishKnowledgeDocumentJob
  by_cases hretries : maxRetry ≤ retries
  · by_cases hseen : status = some .completed
    · simp [hretries, hseen, Change.unchanged]
    · simp [hretries, hseen]
  · simp [hretries]

end DocumentRecord

/-- The report of an error raised after the conversion committed keeps the
progress of the document exactly when the report is stale, the document is
deleted, or the last retry had seen it completed. -/
theorem error_report_keeps_progress_iff (now : Time) (attempt retries maxRetry : Nat)
    (status : Option ParseStatus) (error : String) (r : DocumentRecord)
    (hcommitted : r.ProgressCommitted attempt) :
    r.KeepsProgress (r.finishKnowledgeDocumentJob now attempt retries maxRetry status
        (.error error)).1.record <->
      r.document.attempt ≠ attempt ∨ r.document.deletedAt ≠ none ∨
        (maxRetry ≤ retries ∧ status = some .completed) := by
  have hworking := isWorking_of_progressCommitted hcommitted
  rw [finishKnowledgeDocumentJob_error]
  by_cases hseen : maxRetry ≤ retries ∧ status = some .completed
  · rw [if_pos hseen]
    exact ⟨fun _ => Or.inr (Or.inr hseen), fun _ => DocumentRecord.KeepsProgress.refl r⟩
  · rw [if_neg hseen]
    constructor
    · intro hkeeps
      cases hlock : r.lockOpen attempt with
      | true =>
          have hstatus := hkeeps.status
          rw [status_failNow hlock] at hstatus
          rw [← hstatus] at hworking
          cases hworking
      | false =>
          rcases (lockOpen_eq_false_iff hworking).mp hlock with
            hattempt | hdeleted
          · exact Or.inl hattempt
          · exact Or.inr (Or.inl hdeleted)
    · intro hcondition
      have hlock : r.lockOpen attempt = false := by
        apply (lockOpen_eq_false_iff hworking).mpr
        rcases hcondition with hattempt | hdeleted | hcompleted
        · exact Or.inl hattempt
        · exact Or.inr hdeleted
        · exact absurd hcompleted hseen
      rw [failNow_of_not_lockOpen hlock hworking]
      exact DocumentRecord.KeepsProgress.refl r

/-- A document whose conversion has just committed its post-processing job. -/
def convertedTrace : List Operation.Timed :=
  [⟨0, .insertDocument 1 7 .file []⟩,
    ⟨1, .document 1 (.claim 1)⟩,
    ⟨2, .document 1 (.afterIndexFanout 7 1 1 [] "report.txt")⟩]

def convertedDatabase : Database :=
  perform Operation.step Database.empty convertedTrace

def convertedRecord : DocumentRecord :=
  (convertedDatabase.find 1).get (by decide)

/-- The conversion committed, the dispatch after it failed, and the report of
that error fails the document: its post-processing job is due and no longer
deliverable. -/
theorem error_report_overrides_conversion :
    Reachable convertedDatabase ∧ convertedDatabase.find 1 = some convertedRecord ∧
      convertedRecord.ProgressCommitted 1 ∧
      ¬ convertedRecord.KeepsProgress
        (convertedRecord.finishKnowledgeDocumentJob 3 1 0 3 none
          (.error "queue unavailable")).1.record := by
  refine ⟨reaches_perform (Reaches.refl _) ⟨trivial, trivial, trivial, trivial⟩,
    (Option.some_get _).symm, ⟨by decide, Or.inl ⟨by decide, .postprocess, by decide, by decide⟩⟩,
    ?_⟩
  intro hkeeps
  have hstatus := hkeeps.status
  revert hstatus
  decide

/-- The document is parsed again and claimed before the error is reported. -/
def supersededDatabase : Database :=
  perform Operation.step convertedDatabase
    [⟨3, .document 1 .bumpDocumentAttempt⟩, ⟨4, .document 1 (.claim 2)⟩]

def supersededRecord : DocumentRecord :=
  (supersededDatabase.find 1).get (by decide)

/-- The report of the first attempt comes too late to do harm. -/
theorem error_report_keeps_progress_superseded :
    supersededRecord.ProgressCommitted 1 ∧
      supersededRecord.KeepsProgress
        (supersededRecord.finishKnowledgeDocumentJob 5 1 0 3 none
          (.error "queue unavailable")).1.record := by
  have hcommitted : supersededRecord.ProgressCommitted 1 :=
    ⟨by decide, Or.inl ⟨by decide, .convert, by decide, by decide⟩⟩
  exact ⟨hcommitted, (error_report_keeps_progress_iff 5 1 0 3 none "queue unavailable"
    supersededRecord hcommitted).mpr (Or.inl (by decide))⟩

end Workflow
end KnowledgeBrain
