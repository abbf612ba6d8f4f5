import KnowledgeBrain.Workflow.Isolation

/-!
# Completion safety

A document that is completed in its current generation should owe nothing:
every derived job of the attempt has its receipt, the summary is settled and
the counter is zero.  `complete_tx` checks all of this before it publishes.
The empty publication of `after_index_fanout` checks none of it, and a fresh
attempt does not reset the summary, so the property holds in exactly those
runs whose empty publications find nothing outstanding.
-/

namespace KnowledgeBrain
namespace Workflow

open Foundation

variable (now : Time)

namespace DocumentRecord

/-- The document is completed and its current generation is the active one. -/
def Published (r : DocumentRecord) : Prop :=
  r.document.parseStatus = .completed ∧ r.document.activeGeneration = r.document.attempt

/-- No derived job of the attempt is unfinished. -/
def DerivedDone (attempt : Nat) (r : DocumentRecord) : Prop :=
  forall key row, r.outbox.lookup (attempt, key) = some row -> row.isDerived = true ->
    row.state = .complete

/-- Nothing is outstanding for the current attempt. -/
structure Settled (r : DocumentRecord) : Prop where
  derived : DerivedDone r.document.attempt r
  summary : r.document.summaryStatus.isUnsettled = false
  count : r.document.pendingSubtasksCount = 0

/-- A published document is settled. -/
def CompletionSafe (r : DocumentRecord) : Prop :=
  Published r -> Settled r

theorem completionSafe_of_status {r : DocumentRecord}
    (hstatus : r.document.parseStatus ≠ .completed) : CompletionSafe r := by
  intro hpublished
  exact absurd hpublished.1 hstatus

theorem status_ne_completed_of_lockCurrent {attempt : Nat} {r : DocumentRecord}
    (hlock : r.lockCurrent attempt = true) : r.document.parseStatus ≠ .completed := by
  intro hstatus
  simp [lockCurrent, hstatus, ParseStatus.isWorking] at hlock

theorem status_ne_completed_of_lockOpen {attempt : Nat} {r : DocumentRecord}
    (hlock : r.lockOpen attempt = true) : r.document.parseStatus ≠ .completed := by
  intro hstatus
  simp [lockOpen, hstatus, ParseStatus.isOpen] at hlock

/-!
# Derived rows along the parts of a transaction
-/

theorem unfinishedDerived_eq_zero {attempt : Nat} {r : DocumentRecord} :
    r.unfinishedDerived attempt = 0 <-> DerivedDone attempt r := by
  unfold unfinishedDerived DerivedDone
  rw [Table.count_eq_zero]
  constructor
  · intro hall key row hrow hderived
    have hrow' := hall (attempt, key) row hrow
    simpa [hderived] using hrow'
  · intro hall key row hrow
    by_cases hattempt : key.1 = attempt
    · by_cases hderived : row.isDerived = true
      · have hstate := hall key.2 row (by rw [← hattempt]; exact hrow) hderived
        simp [hstate]
      · simp [hderived]
    · simp [hattempt]

theorem key_ne_reconcile_of_derived {key : Nat × JobKey} {row : OutboxRow}
    (hkeyed : WellKeyed key row) (hderived : row.isDerived = true) :
    key.2 ≠ .reconcile := by
  intro hkey
  obtain ⟨hpayload, hflag⟩ := hkeyed
  rw [hkey, Work.key_eq_reconcile] at hpayload
  rw [hflag, hpayload] at hderived
  cases hderived

theorem derivedDone_recordDocumentChange (before : Option DocumentState) {attempt : Nat}
    {r : DocumentRecord} (hkeyed : RowsWellKeyed r) (hdone : DerivedDone attempt r) :
    DerivedDone attempt (r.recordDocumentChange now before).record := by
  intro key row hrow hderived
  have hgrows := Grows.recordDocumentChange now before r
  have hne := key_ne_reconcile_of_derived (hgrows.wellKeyed hkeyed _ _ hrow) hderived
  rcases lookup_recordDocumentChange_cases hne hrow with
    ⟨old, hold, rfl | rfl⟩ | ⟨_, _, _, _, hnot⟩
  · exact hdone key row hold hderived
  · rfl
  · rw [hderived] at hnot
    cases hnot

theorem derivedDone_received (attempt : Nat) (key : JobKey) {attempt' : Nat} {r : DocumentRecord}
    (hdone : DerivedDone attempt' r) : DerivedDone attempt' (r.received now attempt key) := by
  have hreceipt : DerivedDone attempt' (r.addReceipt attempt key) := by
    intro key' row hrow hderived
    rw [lookup_addReceipt] at hrow
    split at hrow
    · obtain ⟨old, _, rfl⟩ := Option.map_eq_some_iff.mp hrow
      rfl
    · exact hdone key' row hrow hderived
  unfold received
  split
  · intro key' row hrow hderived
    rw [lookup_closeImageStage] at hrow
    split at hrow
    · cases hold : (r.addReceipt attempt key).outbox.lookup (attempt', key') with
      | none =>
          rw [hold] at hrow
          cases hrow
          cases hderived
      | some old =>
          rw [hold] at hrow
          cases hrow
          exact hreceipt key' old hold hderived
    · exact hreceipt key' row hrow hderived
  · exact hreceipt

/-!
# Completing a job keeps completion safe
-/

section Complete

variable {now : Time} {attempt : Nat} {key : JobKey} {r : DocumentRecord}

theorem completedDocument_eq (now : Time) (attempt : Nat) (key : JobKey)
    (r : DocumentRecord) :
    let counted : Document :=
      if r.document.attempt = attempt then
        { r.document with
          pendingSubtasksCount := (r.received now attempt key).unfinishedDerived attempt
          updatedAt := now }
      else r.document
    r.completedDocument now attempt key =
      if drained attempt counted then publishAttempt now attempt counted else counted := by
  unfold completedDocument publishDrained refreshSubtasks
  rw [document_received]
  by_cases hattempt : r.document.attempt = attempt
  · simp only [hattempt, beq_self_eq_true, if_true]
    split <;> rfl
  · have hbeq : (r.document.attempt == attempt) = false := by simpa using hattempt
    simp only [hbeq, hattempt, if_false, Bool.false_eq_true, document_received]
    split <;> simp

theorem attempt_completedDocument :
    (r.completedDocument now attempt key).attempt = r.document.attempt := by
  rw [completedDocument_eq]
  dsimp only
  split_ifs <;> rfl

theorem summary_completedDocument :
    (r.completedDocument now attempt key).summaryStatus = r.document.summaryStatus := by
  rw [completedDocument_eq]
  dsimp only
  split_ifs <;> rfl

theorem count_completedDocument (hattempt : r.document.attempt = attempt) :
    (r.completedDocument now attempt key).pendingSubtasksCount =
      (r.received now attempt key).unfinishedDerived attempt := by
  rw [completedDocument_eq]
  dsimp only
  simp only [hattempt, if_true]
  split_ifs <;> rfl

theorem completedDocument_of_ne (hattempt : r.document.attempt ≠ attempt) :
    r.completedDocument now attempt key = r.document := by
  rw [completedDocument_eq]
  simp [hattempt, drained]

/-- The status changes only when the attempt drained. -/
theorem completedDocument_status (now : Time) (key : JobKey)
    (hattempt : r.document.attempt = attempt) :
    ((r.completedDocument now attempt key).parseStatus = r.document.parseStatus ∧
        (r.completedDocument now attempt key).activeGeneration =
          r.document.activeGeneration) ∨
      (r.document.parseStatus = .finalizing ∧
        (r.completedDocument now attempt key).parseStatus = .completed ∧
        (r.completedDocument now attempt key).activeGeneration = attempt ∧
        r.document.summaryStatus.isUnsettled = false ∧
        (r.received now attempt key).unfinishedDerived attempt = 0 ∧
        r.document.errorMessage.getD "" = "") := by
  rw [completedDocument_eq]
  dsimp only
  simp only [hattempt, if_true]
  split
  · rename_i hdrained
    right
    simp only [drained, Bool.and_eq_true, beq_iff_eq, Bool.not_eq_true'] at hdrained
    obtain ⟨⟨⟨⟨_, hstatus⟩, hcount⟩, hsummary⟩, herror⟩ := hdrained
    exact ⟨hstatus, rfl, rfl, hsummary, hcount, herror⟩
  · exact Or.inl ⟨rfl, rfl⟩

/-- With every derived job done and the summary settled, a completion settles
the current attempt, unless it is a duplicate. -/
theorem settled_completeTx (hkeyed : RowsWellKeyed r)
    (hattempt : r.document.attempt = attempt) (hdone : DerivedDone attempt r)
    (hsummary : r.document.summaryStatus.isUnsettled = false)
    (hcount : r.hasReceipt attempt key = true -> r.document.pendingSubtasksCount = 0) :
    Settled (r.completeTx now attempt key).1.record := by
  cases hreceipt : r.hasReceipt attempt key with
  | true =>
      rw [completeTx_of_receipt now attempt key hreceipt]
      subst hattempt
      exact ⟨hdone, hsummary, hcount hreceipt⟩
  | false =>
      rw [completeTx_of_fresh now attempt key hreceipt]
      have hreceived := derivedDone_received now attempt key hdone
      have hrows : RowsWellKeyed
          { (r.received now attempt key) with
            document := r.completedDocument now attempt key } :=
        ((Grows.received now attempt key r).trans (Grows.withDocument _ _)).wellKeyed hkeyed
      constructor
      · rw [document_recordDocumentChange]
        dsimp only
        rw [attempt_completedDocument, hattempt]
        exact derivedDone_recordDocumentChange now _ hrows hreceived
      · rw [document_recordDocumentChange]
        dsimp only
        rw [summary_completedDocument]
        exact hsummary
      · rw [document_recordDocumentChange]
        dsimp only
        rw [count_completedDocument hattempt]
        exact unfinishedDerived_eq_zero.mpr hreceived

theorem completionSafe_recordDocumentChange (now : Time) (before : Option DocumentState)
    {r : DocumentRecord} (hkeyed : RowsWellKeyed r) (hr : CompletionSafe r) :
    CompletionSafe (r.recordDocumentChange now before).record := by
  intro hpublished
  unfold Published at hpublished
  rw [document_recordDocumentChange] at hpublished
  have hsettled := hr hpublished
  constructor
  · rw [document_recordDocumentChange]
    exact derivedDone_recordDocumentChange now before hkeyed hsettled.derived
  · rw [document_recordDocumentChange]
    exact hsettled.summary
  · rw [document_recordDocumentChange]
    exact hsettled.count

theorem completionSafe_completeTx (now : Time) (attempt : Nat) (key : JobKey)
    {r : DocumentRecord} (hkeyed : RowsWellKeyed r) (hr : CompletionSafe r) :
    CompletionSafe (r.completeTx now attempt key).1.record := by
  cases hreceipt : r.hasReceipt attempt key with
  | true =>
      rw [completeTx_of_receipt now attempt key hreceipt]
      exact hr
  | false =>
      by_cases hattempt : r.document.attempt = attempt
      · by_cases hdone : DerivedDone attempt r ∧ r.document.summaryStatus.isUnsettled = false
        · intro _
          apply settled_completeTx hkeyed hattempt hdone.1 hdone.2
          intro hdup
          rw [hreceipt] at hdup
          cases hdup
        · rw [completeTx_of_fresh now attempt key hreceipt]
          apply completionSafe_recordDocumentChange now _
            (((Grows.received now attempt key r).trans
              (Grows.withDocument _ _)).wellKeyed hkeyed)
          intro hpublished
          rcases completedDocument_status now key hattempt with
            ⟨hstatus, hactive⟩ | ⟨_, _, _, hsummary, hcount, _⟩
          · have hold : Published r := by
              refine ⟨hstatus ▸ hpublished.1, ?_⟩
              rw [← hactive]
              have hpub := hpublished.2
              dsimp only at hpub
              rw [hpub, attempt_completedDocument]
            have hsettled := hr hold
            exact absurd ⟨hattempt ▸ hsettled.derived, hsettled.summary⟩ hdone
          · constructor
            · dsimp only
              rw [attempt_completedDocument, hattempt]
              exact unfinishedDerived_eq_zero.mp hcount
            · dsimp only
              rw [summary_completedDocument]
              exact hsummary
            · dsimp only
              rw [count_completedDocument hattempt]
              exact hcount
      · rw [completeTx_of_fresh now attempt key hreceipt, completedDocument_of_ne hattempt]
        apply completionSafe_recordDocumentChange now _
          (((Grows.received now attempt key r).trans
            (Grows.withDocument _ _)).wellKeyed hkeyed)
        intro hpublished
        have hsettled := hr hpublished
        exact ⟨derivedDone_received now attempt key hsettled.derived, hsettled.summary,
          hsettled.count⟩

end Complete

/-!
# The events
-/

/-- An edit that completes nothing keeps completion safe. -/
theorem completionSafe_updateDocument {f : Document -> Document}
    {r : DocumentRecord} (hkeyed : RowsWellKeyed r) (hr : CompletionSafe r)
    (hf : (f r.document).parseStatus = .completed ->
      r.document.parseStatus = .completed ∧
        (f r.document).activeGeneration = r.document.activeGeneration ∧
        (f r.document).attempt = r.document.attempt ∧
        (f r.document).summaryStatus = r.document.summaryStatus ∧
        (f r.document).pendingSubtasksCount = r.document.pendingSubtasksCount) :
    CompletionSafe (r.updateDocument now f).record := by
  apply completionSafe_recordDocumentChange now _ ((Grows.withDocument r _).wellKeyed hkeyed)
  intro hpublished
  obtain ⟨hstatus, hactive, hattempt, hsummary, hcount⟩ := hf hpublished.1
  have hold : Published r := by
    refine ⟨hstatus, ?_⟩
    rw [← hactive, ← hattempt]
    exact hpublished.2
  have hsettled := hr hold
  constructor
  · dsimp only
    rw [hattempt]
    exact hsettled.derived
  · dsimp only
    rw [hsummary]
    exact hsettled.summary
  · dsimp only
    rw [hcount]
    exact hsettled.count

theorem completionSafe_onlySpans {r r' : DocumentRecord} (h : OnlySpans r r')
    (hr : CompletionSafe r) : CompletionSafe r' := by
  obtain ⟨at', hdocument⟩ := h.document
  intro hpublished
  unfold Published at hpublished
  rw [hdocument] at hpublished
  have hsettled := hr hpublished
  refine ⟨?_, ?_, ?_⟩
  · rw [hdocument]
    unfold DerivedDone
    rw [h.outbox]
    exact hsettled.derived
  · rw [hdocument]
    exact hsettled.summary
  · rw [hdocument]
    exact hsettled.count

theorem completionSafe_commitChunksRecord {attempt : Nat} (key : JobKey) (status : SummaryStatus)
    (description : String) (finish : Bool) {r : DocumentRecord} (hkeyed : RowsWellKeyed r)
    (hlock : r.lockCurrent attempt = true) :
    CompletionSafe
      (r.commitChunksRecord now attempt key status description finish).record := by
  have hstatus := status_ne_completed_of_lockCurrent hlock
  have hstored : forall d, (storeSummary key status description d).parseStatus =
      d.parseStatus := by
    intro d
    unfold storeSummary
    split <;> rfl
  have hkeyed1 := (Grows.withDocument r
    (storeSummary key status description r.document)).wellKeyed hkeyed
  have hsafe1 : CompletionSafe
      { r with document := storeSummary key status description r.document } := by
    apply completionSafe_of_status
    dsimp only
    rw [hstored]
    exact hstatus
  have hfailed : forall c : DocumentRecord, RowsWellKeyed c -> CompletionSafe c ->
      CompletionSafe { c with document := failSummary key status c.document } := by
    intro c _ hc
    unfold failSummary
    split
    · exact completionSafe_of_status (by simp)
    · exact hc
  unfold commitChunksRecord
  dsimp only
  cases finish with
  | true =>
      have hkeyed2 := (Grows.completeTx now attempt key _).wellKeyed hkeyed1
      apply completionSafe_recordDocumentChange now _
        ((Grows.withDocument _ _).wellKeyed hkeyed2)
      exact hfailed _ hkeyed2 (completionSafe_completeTx now attempt key hkeyed1 hsafe1)
  | false =>
      apply completionSafe_recordDocumentChange now _
        ((Grows.withDocument _ _).wellKeyed hkeyed1)
      exact hfailed _ hkeyed1 hsafe1

theorem completionSafe_beginPostprocess (versionId : Uuid) (attempt : Nat) (work : List Work)
    {r : DocumentRecord} (hkeyed : RowsWellKeyed r) (hr : CompletionSafe r) :
    CompletionSafe (r.beginPostprocess now versionId attempt work).1.record := by
  unfold beginPostprocess
  split
  · exact hr
  · split
    · exact hr
    · dsimp only
      have hkeyed1 := ((Grows.putAll now versionId attempt work r).trans
        (Grows.withDocument _
          (enterFinalizing now work (r.putAll now versionId attempt work).document))).wellKeyed
        hkeyed
      apply completionSafe_recordDocumentChange now _
        ((Grows.completeTx now attempt .postprocess _).wellKeyed hkeyed1)
      apply completionSafe_completeTx now attempt .postprocess hkeyed1
      exact completionSafe_of_status (by simp [enterFinalizing])

theorem completionSafe_failJob (attempt : Nat) (key : JobKey) (error : String) {r : DocumentRecord}
    (hr : CompletionSafe r) : CompletionSafe (r.failJob now attempt key error).record := by
  by_cases hlock : r.lockOpen attempt = true
  · apply completionSafe_of_status
    have hstatus := status_ne_completed_of_lockOpen hlock
    simp only [failJob, hlock, Bool.not_true, Bool.false_eq_true, if_false,
      document_recordDocumentChange]
    split
    · simp [failDocument]
    · exact hstatus
  · simp only [failJob, hlock, Bool.not_false, if_true]
    exact hr

theorem completionSafe_settleDelivery (attempt : Nat) (key : JobKey) (revision : Nat)
    {s : Settlement} (hs : DispatchDecides key s) {r : DocumentRecord} (hkeyed : RowsWellKeyed r)
    (hr : CompletionSafe r) :
    CompletionSafe (r.settleDelivery now attempt key revision s).record := by
  unfold settleDelivery
  split
  · exact completionSafe_failJob now attempt key _ hr
  · rename_i hexhaust
    intro hpublished
    have hsettled := hr hpublished
    refine ⟨?_, hsettled.summary, hsettled.count⟩
    intro key' row hrow hderived
    simp only [Change.unchanged, Table.lookup_modify] at hrow
    split at hrow
    · rename_i heq
      cases heq
      obtain ⟨old, hold, hrow'⟩ := Option.map_eq_some_iff.mp hrow
      have hne : key ≠ .reconcile := by
        have hold' : old.isDerived = true := by
          rw [← (sameJob_settleRow now revision s old).2, hrow']
          exact hderived
        exact key_ne_reconcile_of_derived (hkeyed _ _ hold) hold'
      rcases dispatchDecides_of_ne hs hne with hs' | ⟨error, rfl⟩
      · exact absurd hs' hexhaust
      · unfold Settlement.settleRow at hrow'
        split at hrow'
        · subst hrow'
          exact hsettled.derived key old hold hderived
        · dsimp only at hrow'
          split at hrow'
          · rename_i hlive
            subst hrow'
            have hstate := hsettled.derived key old hold hderived
            rw [hstate] at hlive
            cases hlive
          · subst hrow'
            exact hsettled.derived key old hold hderived
    · exact hsettled.derived key' row hrow hderived

/-- Nothing is outstanding for the attempt whose empty generation is about to
be published. -/
def EmptyGenerationDrained (attempt : Nat) (r : DocumentRecord) : Prop :=
  r.document.summaryStatus.isUnsettled = false ∧ r.unfinishedDerived attempt = 0 ∧
    (r.hasReceipt attempt .convert = true -> r.document.pendingSubtasksCount = 0)

theorem fanoutText_zero (versionId : Uuid) {attempt : Nat} {r : DocumentRecord}
    (hlock : r.lockCurrent attempt = true) :
    (r.fanoutText now versionId attempt 0).record =
      (((r.updateDocument now (publishAttempt now attempt)).record).completeTx now attempt
        .convert).1.record := by
  simp [fanoutText, hlock, Change.andThen]

theorem completionSafe_fanoutText_zero (versionId : Uuid) {attempt : Nat} {r : DocumentRecord}
    (hkeyed : RowsWellKeyed r) (hlock : r.lockCurrent attempt = true)
    (hdrained : EmptyGenerationDrained attempt r) :
    CompletionSafe (r.fanoutText now versionId attempt 0).record := by
  obtain ⟨hsummary, hderived, hcount⟩ := hdrained
  have hattempt : r.document.attempt = attempt := by
    simp only [lockCurrent, Bool.and_eq_true, beq_iff_eq] at hlock
    exact hlock.1.1
  rw [fanoutText_zero now versionId hlock]
  intro _
  have hkeyed1 := (Grows.withDocument r (publishAttempt now attempt r.document)).wellKeyed hkeyed
  apply settled_completeTx ((Grows.updateDocument now _ r).wellKeyed hkeyed)
  · simpa [updateDocument, publishAttempt] using hattempt
  · exact derivedDone_recordDocumentChange now _ hkeyed1
      (unfinishedDerived_eq_zero.mp hderived)
  · simpa [updateDocument, publishAttempt] using hsummary
  · intro hreceipt
    have hreceipt' : r.hasReceipt attempt .convert = true := by
      simpa [hasReceipt, updateDocument] using hreceipt
    simpa [updateDocument, publishAttempt] using hcount hreceipt'

theorem completionSafe_fanoutText_pos (versionId : Uuid) (attempt : Nat) {textCount : Nat}
    (hcount : 0 < textCount) {r : DocumentRecord} (hkeyed : RowsWellKeyed r)
    (hr : CompletionSafe r) :
    CompletionSafe (r.fanoutText now versionId attempt textCount).record := by
  by_cases hlock : r.lockCurrent attempt = true
  · have hne : textCount ≠ 0 := Nat.pos_iff_ne_zero.mp hcount
    simp only [fanoutText, hlock, Bool.not_true, Bool.false_eq_true, if_false, hcount, if_true,
      hne, Change.andThen]
    have hkeyed1 := (Grows.putTx now versionId attempt (.postprocess false) r).wellKeyed hkeyed
    apply completionSafe_completeTx now attempt .convert
      ((Grows.updateDocument now _ _).wellKeyed hkeyed1)
    apply completionSafe_of_status
    simpa [updateDocument, putTx] using status_ne_completed_of_lockCurrent hlock
  · simp only [fanoutText, hlock, Bool.not_false, if_true]
    exact hr

theorem completionSafe_fanoutImages (versionId : Uuid) (attempt : Nat) (images : List String)
    (fileName : String) {r : DocumentRecord} (hkeyed : RowsWellKeyed r) (hr : CompletionSafe r) :
    CompletionSafe (r.fanoutImages now versionId attempt images fileName).record := by
  by_cases hlock : r.lockCurrent attempt = true
  · simp only [fanoutImages, hlock, Bool.not_true, Bool.false_eq_true, if_false]
    apply completionSafe_completeTx now attempt .convert
      ((Grows.putAll now versionId attempt _ r).wellKeyed hkeyed)
    apply completionSafe_of_status
    rw [document_putAll]
    exact status_ne_completed_of_lockCurrent hlock
  · simp only [fanoutImages, hlock, Bool.not_false, if_true]
    exact hr

end DocumentRecord

/-!
# The runs of the workflow
-/

/-- The events of the document workflow: the operations on a document that the
workers, the dispatcher and the catalog run. -/
def DocumentOp.InWorkflow : DocumentOp -> Prop
  | updateStatus _ status _ => status = .failed
  | setParseStatus status _ => status = .cancelled ∨ status = .deleting
  | settleDelivery _ key _ s => DispatchDecides key s
  | publishEmpty _ | setSummaryStatus _ | setDocumentProgress _ _ | setFinalizing _
  | trySetProcessing => False
  | _ => True

def Operation.InWorkflow : Operation -> Prop
  | .document _ op => op.InWorkflow
  | _ => True

variable {e : DocumentOp}

theorem Operation.inWorkflow_event {op : Operation} {id : Uuid} (hlisted : op.InWorkflow)
    (hevent : op.event id = some e) : e.InWorkflow := by
  unfold event at hevent
  split at hevent
  · split at hevent
    · cases hevent
      exact hlisted
    · cases hevent
  · split at hevent
    · cases hevent
      trivial
    · cases hevent
  · split at hevent
    · cases hevent
      trivial
    · cases hevent
  · cases hevent
    trivial
  · cases hevent
    trivial
  · cases hevent
    trivial
  · cases hevent

/-- The event does not publish an empty generation that owes something. -/
def DocumentOp.PublishesDrained (e : DocumentOp) (r : DocumentRecord) : Prop :=
  match e with
  | .afterIndexFanout _ attempt textCount images _ =>
      textCount = 0 -> images = [] -> r.lockCurrent attempt = true ->
        r.EmptyGenerationDrained attempt
  | _ => True

def Operation.PublishesDrained (t : Operation.Timed) (db : Database) : Prop :=
  forall id e r, t.operation.event id = some e -> db.find id = some r ->
    e.PublishesDrained r

namespace DocumentRecord

theorem completionSafe_apply {r : DocumentRecord} (hlisted : e.InWorkflow)
    (hdrained : e.PublishesDrained r) (hkeyed : RowsWellKeyed r) (hr : CompletionSafe r) :
    CompletionSafe (e.apply now r).record := by
  cases e with
  | claim attempt =>
      apply completionSafe_updateDocument now hkeyed hr
      split <;> simp_all
  | afterIndexFanout versionId attempt textCount images fileName =>
      simp only [DocumentOp.apply, afterIndexFanout]
      split
      · rename_i himages
        rw [List.isEmpty_iff] at himages
        rcases Nat.eq_zero_or_pos textCount with hzero | hpos
        · by_cases hlock : r.lockCurrent attempt = true
          · subst hzero
            exact completionSafe_fanoutText_zero now versionId hkeyed hlock
              (hdrained rfl himages hlock)
          · simp only [fanoutText, hlock, Bool.not_false, if_true]
            exact hr
        · exact completionSafe_fanoutText_pos now versionId attempt hpos hkeyed hr
      · exact completionSafe_fanoutImages now versionId attempt images fileName hkeyed hr
  | put versionId attempt work =>
      simp only [DocumentOp.apply, put]
      split
      · rename_i hlock
        exact completionSafe_of_status (status_ne_completed_of_lockCurrent hlock)
      · exact hr
  | complete attempt key =>
      simp only [DocumentOp.apply, complete]
      split
      · exact completionSafe_completeTx now attempt key hkeyed hr
      · exact hr
  | beginPostprocess versionId attempt work =>
      exact completionSafe_beginPostprocess now versionId attempt work hkeyed hr
  | commitChunks attempt key status description finish =>
      simp only [DocumentOp.apply]
      split
      · exact hr
      · rename_i hlock
        simp only [Bool.or_eq_true, Bool.not_eq_true', not_or, Bool.not_eq_false] at hlock
        exact completionSafe_commitChunksRecord now key status description finish hkeyed hlock.1
  | updateStatus attempt status error =>
      apply completionSafe_updateDocument now hkeyed hr
      cases hlisted
      split <;> simp_all
  | publishEmpty attempt => exact absurd hlisted id
  | failJob attempt key error => exact completionSafe_failJob now attempt key error hr
  | settleDelivery attempt key revision s =>
      exact completionSafe_settleDelivery now attempt key revision hlisted hkeyed hr
  | recoverStale =>
      simp only [DocumentOp.apply]
      split
      · exact completionSafe_updateDocument now hkeyed hr (by simp [freshAttempt])
      · exact hr
  | bumpDocumentAttempt =>
      simp only [DocumentOp.apply, bumpDocumentAttempt]
      split
      · exact completionSafe_updateDocument now hkeyed hr (by simp [freshAttempt])
      · exact hr
  | markReparseQueued =>
      simp only [DocumentOp.apply, markReparseQueued]
      split
      · exact completionSafe_updateDocument now hkeyed hr (by simp [freshAttempt])
      · exact hr
  | setParseStatus status error =>
      apply completionSafe_updateDocument now hkeyed hr
      intro hstatus
      rcases hlisted with rfl | rfl <;> cases hstatus
  | cancelActive versionIds =>
      simp only [DocumentOp.apply]
      split
      · exact completionSafe_updateDocument now hkeyed hr (by simp)
      · exact hr
  | finishDelete released =>
      apply completionSafe_updateDocument now hkeyed hr
      obtain ⟨deletedAt, updatedAt, heq⟩ := tombstone_eq now released r.document
      rw [heq]
      dsimp only
      split <;> simp_all
  | housekeep staleSecs =>
      simp only [DocumentOp.apply]
      split
      · obtain ⟨f, hf, hspans⟩ := OnlySpans.housekeep now r staleSecs
        exact completionSafe_onlySpans hspans
          (completionSafe_updateDocument now hkeyed hr (by simp [hf]))
      · exact hr
  | setIndexReady ready =>
      exact completionSafe_updateDocument now hkeyed hr (by simp)
  | setSummaryStatus status => exact absurd hlisted id
  | setDocumentProgress status count => exact absurd hlisted id
  | setFinalizing count => exact absurd hlisted id
  | trySetProcessing => exact absurd hlisted id
  | _ => exact completionSafe_onlySpans (DocumentOp.onlySpans_apply now (by trivial) r) hr

theorem completionSafe_created {now : Time} {db : Database} {id : Uuid} {op : Operation}
    {r : DocumentRecord} (hcreated : Operation.Created now db id op r) : CompletionSafe r := by
  apply completionSafe_of_status
  cases hcreated with
  | inserted versionId kind passages =>
      simp [Database.insertedRecord, bare, Document.inserted]
  | cloned sourceId versionId copyKeep sourceHadWiki rename source hsource =>
      cases copyKeep <;> cases sourceHadWiki <;>
        simp [Database.clonedRecord, putTx, bare, Document.inserted]

end DocumentRecord

/-- In every run of the workflow whose empty publications find nothing
outstanding, a completed document whose active generation is its attempt has
no unfinished derived job, a settled summary and a zero counter. -/
theorem completion_safe_of_drained_publications {db : Database}
    (hrun : Reaches Operation.step
      (fun t db => t.operation.InWorkflow ∧ Operation.PublishesDrained t db)
      Database.empty db) :
    forall id r, db.find id = some r -> r.Published -> r.Settled := by
  intro id r hfind
  have hboth : r.RowsWellKeyed ∧ r.CompletionSafe := by
    apply forall_find_of_reaches (P := fun _ r => r.RowsWellKeyed ∧ r.CompletionSafe)
      _ _ hrun id r hfind
    · intro t s id r _ _ hcreated
      exact ⟨DocumentRecord.rowsWellKeyed_created hcreated,
        DocumentRecord.completionSafe_created hcreated⟩
    · intro t s id e r hguard hevent hfind hr
      exact ⟨(DocumentRecord.grows_apply t.now e r).wellKeyed hr.1,
        DocumentRecord.completionSafe_apply t.now
          (Operation.inWorkflow_event hguard.1 hevent) (hguard.2 id e r hevent hfind)
          hr.1 hr.2⟩
  exact hboth.2

/-- A first attempt reaches post-processing and orders a summary; the document
is parsed again, and the second attempt finds no text. -/
def emptyReparseTrace : List Operation.Timed :=
  [⟨0, .insertDocument 1 7 .file []⟩,
    ⟨1, .document 1 (.claim 1)⟩,
    ⟨2, .document 1 (.afterIndexFanout 7 1 1 [] "report.txt")⟩,
    ⟨3, .document 1 (.beginPostprocess 7 1 [.summary])⟩,
    ⟨4, .document 1 .bumpDocumentAttempt⟩,
    ⟨5, .document 1 (.claim 2)⟩,
    ⟨6, .document 1 (.afterIndexFanout 7 2 0 [] "report.txt")⟩]

/-- Without the condition on empty publications, a run of the workflow reaches
a completed document whose summary is still pending. -/
theorem completed_with_pending_summary :
    exists db r, Reaches Operation.step (fun t _ => t.operation.InWorkflow) Database.empty db ∧
      db.find 1 = some r ∧ r.Published ∧ ¬ r.Settled := by
  refine ⟨perform Operation.step Database.empty emptyReparseTrace,
    ((perform Operation.step Database.empty emptyReparseTrace).find 1).get (by decide),
    ?_, (Option.some_get _).symm, ?_, ?_⟩
  · exact reaches_perform (Reaches.refl _)
      ⟨trivial, trivial, trivial, trivial, trivial, trivial, trivial, trivial⟩
  · exact ⟨by decide, by decide⟩
  · intro hsettled
    have hsummary := hsettled.summary
    revert hsummary
    decide

theorem Operation.publishesDrained_document {now : Time} {id : Uuid} {db : Database}
    (h : forall r, db.find id = some r -> e.PublishesDrained r) :
    Operation.PublishesDrained ⟨now, .document id e⟩ db := by
  intro id' e' r hevent hfind
  simp only [Operation.event] at hevent
  split at hevent
  · rename_i hid
    subst hid
    cases hevent
    exact h r hfind
  · cases hevent

/-- A document without text is converted once and published empty. -/
def emptyDocumentTrace : List Operation.Timed :=
  [⟨0, .insertDocument 1 7 .file []⟩,
    ⟨1, .document 1 (.claim 1)⟩,
    ⟨2, .document 1 (.afterIndexFanout 7 1 0 [] "empty.txt")⟩]

def emptyDocumentDatabase : Database :=
  perform Operation.step Database.empty emptyDocumentTrace

def claimedDatabase : Database :=
  perform Operation.step Database.empty (emptyDocumentTrace.take 2)

theorem completion_safe_of_drained_publications_empty_document :
    (exists r, emptyDocumentDatabase.find 1 = some r ∧ r.Published) ∧
      forall r, emptyDocumentDatabase.find 1 = some r -> r.Settled := by
  have hpublished : forall r, emptyDocumentDatabase.find 1 = some r -> r.Published := by
    intro r hfind
    have hr : (emptyDocumentDatabase.find 1).get (by decide) = r := by
      simp [hfind]
    rw [← hr]
    exact ⟨by decide, by decide⟩
  refine ⟨⟨(emptyDocumentDatabase.find 1).get (by decide), (Option.some_get _).symm,
    hpublished _ (Option.some_get _).symm⟩, ?_⟩
  intro r hfind
  refine completion_safe_of_drained_publications ?_ 1 r hfind (hpublished r hfind)
  refine reaches_perform (Reaches.refl _) ⟨⟨trivial, ?_⟩, ⟨trivial, ?_⟩, ⟨trivial, ?_⟩, trivial⟩
  · intro id e r hevent
    cases hevent
  · exact Operation.publishesDrained_document fun _ _ => trivial
  · apply Operation.publishesDrained_document
    intro r hclaimed _ _ _
    change claimedDatabase.find 1 = some r at hclaimed
    have hr : (claimedDatabase.find 1).get (by decide) = r := by
      simp [hclaimed]
    rw [← hr]
    exact ⟨by decide, by decide, by decide⟩

end Workflow
end KnowledgeBrain
