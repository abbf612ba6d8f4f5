import KnowledgeBrain.Workflow.RowFacts

/-!
# Jobs and receipts are never lost

No transaction deletes an outbox row or a receipt, changes the job a row
stands for, or stores a job under the key of another.  `Grows` states this as
a preorder on the rows of a document and `grows_apply` proves it of every
event.
-/

namespace KnowledgeBrain
namespace Workflow

open Foundation

variable (now : Time)

namespace DocumentRecord

/-- Two rows stand for the same job. -/
def SameJob (row row' : OutboxRow) : Prop :=
  row'.payload = row.payload ∧ row'.isDerived = row.isDerived

/-- A row is stored under the key of its job and marked derived if its job is. -/
def WellKeyed (key : Nat × JobKey) (row : OutboxRow) : Prop :=
  row.payload.key = key.2 ∧ row.isDerived = row.payload.derived

theorem sameJob_settleRow (revision : Nat) (s : Settlement) (row : OutboxRow) :
    SameJob row (s.settleRow now revision row) := by
  unfold Settlement.settleRow
  split
  · exact ⟨rfl, rfl⟩
  · cases s with
    | exhaust => exact ⟨rfl, rfl⟩
    | acknowledge => exact ⟨rfl, rfl⟩
    | giveUp message => exact ⟨rfl, rfl⟩
    | postpone =>
        dsimp only
        split <;> exact ⟨rfl, rfl⟩
    | offered error =>
        dsimp only
        split <;> exact ⟨rfl, rfl⟩

structure Grows (r r' : DocumentRecord) : Prop where
  kept : forall key row, r.outbox.lookup key = some row ->
    exists row', r'.outbox.lookup key = some row' ∧ SameJob row row'
  fresh : forall key row', r'.outbox.lookup key = some row' ->
    (exists row, r.outbox.lookup key = some row) ∨ WellKeyed key row'
  receipts : forall receipt, receipt ∈ r.receipts -> receipt ∈ r'.receipts

variable (r : DocumentRecord)

namespace Grows

theorem of_outbox_eq {r r' : DocumentRecord} (houtbox : r'.outbox = r.outbox)
    (hreceipts : forall receipt, receipt ∈ r.receipts -> receipt ∈ r'.receipts) :
    Grows r r' where
  kept := by
    intro key row hrow
    exact ⟨row, by rw [houtbox, hrow], rfl, rfl⟩
  fresh := by
    intro key row' hrow'
    rw [houtbox] at hrow'
    exact Or.inl ⟨row', hrow'⟩
  receipts := hreceipts

theorem refl : Grows r r :=
  of_outbox_eq rfl fun _ h => h

theorem withDocument (d : Document) : Grows r { r with document := d } :=
  of_outbox_eq rfl fun _ h => h

theorem trans {r r' r'' : DocumentRecord} (h : Grows r r') (h' : Grows r' r'') :
    Grows r r'' where
  kept := by
    intro key row hrow
    obtain ⟨row', hrow', hpayload, hderived⟩ := h.kept key row hrow
    obtain ⟨row'', hrow'', hpayload', hderived'⟩ := h'.kept key row' hrow'
    exact ⟨row'', hrow'', hpayload'.trans hpayload, hderived'.trans hderived⟩
  fresh := by
    intro key row'' hrow''
    rcases h'.fresh key row'' hrow'' with ⟨row', hrow'⟩ | hkeyed
    · rcases h.fresh key row' hrow' with hold | hkeyed
      · exact Or.inl hold
      · right
        obtain ⟨row, hrow, hpayload, hderived⟩ := h'.kept key row' hrow'
        rw [hrow''] at hrow
        cases hrow
        unfold WellKeyed at hkeyed ⊢
        rw [hpayload, hderived]
        exact hkeyed
    · exact Or.inr hkeyed
  receipts := fun receipt hmem => h'.receipts receipt (h.receipts receipt hmem)

theorem wellKeyed {r r' : DocumentRecord} (h : Grows r r')
    (hr : forall key row, r.outbox.lookup key = some row -> WellKeyed key row) :
    forall key row, r'.outbox.lookup key = some row -> WellKeyed key row := by
  intro key row' hrow'
  rcases h.fresh key row' hrow' with ⟨row, hrow⟩ | hkeyed
  · obtain ⟨row'', hrow'', hpayload, hderived⟩ := h.kept key row hrow
    rw [hrow'] at hrow''
    cases hrow''
    have hold := hr key row hrow
    unfold WellKeyed at hold ⊢
    rw [hpayload, hderived]
    exact hold
  · exact hkeyed

/-!
# The statements a transaction is made of
-/

theorem mapRows {r : DocumentRecord} {f : Nat × JobKey -> OutboxRow -> OutboxRow}
    (hf : forall key row, SameJob row (f key row)) :
    Grows r { r with outbox := r.outbox.mapRows f } where
  kept := by
    intro key row hrow
    refine ⟨f key row, ?_, hf key row⟩
    rw [Table.lookup_mapRows, hrow]
    rfl
  fresh := by
    intro key row' hrow'
    rw [Table.lookup_mapRows] at hrow'
    obtain ⟨row, hrow, _⟩ := Option.map_eq_some_iff.mp hrow'
    exact Or.inl ⟨row, hrow⟩
  receipts := fun _ h => h

theorem modify {r : DocumentRecord} {key : Nat × JobKey} {f : OutboxRow -> OutboxRow}
    (hf : forall row, SameJob row (f row)) :
    Grows r { r with outbox := r.outbox.modify key f } := by
  apply mapRows
  intro key' row
  split
  · exact hf row
  · exact ⟨rfl, rfl⟩

theorem insertNew {r : DocumentRecord} {key : Nat × JobKey} {row : OutboxRow}
    (hrow : WellKeyed key row) :
    Grows r { r with outbox := r.outbox.insertNew key row } where
  kept := by
    intro key' old hold
    refine ⟨old, ?_, rfl, rfl⟩
    dsimp only
    rw [Table.lookup_insertNew]
    split
    · rename_i hkey
      rw [← hkey, hold]
      rfl
    · exact hold
  fresh := by
    intro key' row' hrow'
    dsimp only at hrow'
    rw [Table.lookup_insertNew] at hrow'
    split at hrow'
    · rename_i hkey
      subst hkey
      cases hold : r.outbox.lookup key' with
      | none =>
          rw [hold] at hrow'
          cases hrow'
          exact Or.inr hrow
      | some old =>
          exact Or.inl ⟨old, rfl⟩
    · exact Or.inl ⟨row', hrow'⟩
  receipts := fun _ h => h

theorem requestReconcile :
    Grows r (r.requestReconcile now) where
  kept := by
    intro key row hrow
    unfold DocumentRecord.requestReconcile
    dsimp only
    rw [Table.lookup_upsert]
    split
    · rename_i hkey
      rw [← hkey, hrow]
      exact ⟨_, rfl, rfl, rfl⟩
    · exact ⟨row, hrow, rfl, rfl⟩
  fresh := by
    intro key row' hrow'
    unfold DocumentRecord.requestReconcile at hrow'
    dsimp only at hrow'
    rw [Table.lookup_upsert] at hrow'
    split at hrow'
    · rename_i hkey
      subst hkey
      cases hold : r.outbox.lookup (r.document.attempt, .reconcile) with
      | none =>
          rw [hold] at hrow'
          cases hrow'
          exact Or.inr ⟨rfl, rfl⟩
      | some old =>
          exact Or.inl ⟨old, rfl⟩
    · exact Or.inl ⟨row', hrow'⟩
  receipts := fun _ h => h

variable (versionId : Uuid)

theorem putTx (attempt : Nat) (work : Work) (r : DocumentRecord) :
    Grows r (r.putTx now versionId attempt work) :=
  insertNew ⟨rfl, rfl⟩

theorem putAll (attempt : Nat) (work : List Work) (r : DocumentRecord) :
    Grows r (r.putAll now versionId attempt work) := by
  apply foldl_invariant (P := fun s => Grows r s)
  · intro s w hs
    exact hs.trans (putTx now versionId attempt w s)
  · exact refl r

theorem recordDocumentChange (before : Option DocumentState) (r : DocumentRecord) :
    Grows r (r.recordDocumentChange now before).record := by
  have hreconcile : forall b : Bool,
      Grows r (if b then r.requestReconcile now else r) := by
    intro b
    cases b with
    | false =>
        exact refl r
    | true =>
        exact requestReconcile now r
  have hretire : forall (b : Bool) (s : DocumentRecord),
      Grows s (if b then s.retireRows else s) := by
    intro b s
    cases b with
    | false =>
        exact refl s
    | true =>
        apply mapRows
        intro key row
        split <;> exact ⟨rfl, rfl⟩
  have hopen : forall (b : Bool) (s : DocumentRecord),
      Grows s (if b then s.openConversion now else s) := by
    intro b s
    cases b with
    | false =>
        exact refl s
    | true =>
        exact insertNew ⟨rfl, rfl⟩
  unfold DocumentRecord.recordDocumentChange
  exact ((hreconcile _).trans (hretire _ _)).trans (hopen _ _)

theorem updateDocument (f : Document -> Document) (r : DocumentRecord) :
    Grows r (r.updateDocument now f).record :=
  (withDocument r (f r.document)).trans
    (recordDocumentChange now (some (captureDocumentState r)) _)

theorem addReceipt (attempt : Nat) (key : JobKey) (r : DocumentRecord) :
    Grows r (r.addReceipt attempt key) := by
  have hrow : Grows r
      { r with
        outbox := r.outbox.modify (attempt, key) fun row =>
          { row with state := .complete, lastError := none } } :=
    modify fun row => ⟨rfl, rfl⟩
  apply hrow.trans
  exact of_outbox_eq rfl fun _ h => List.mem_cons_of_mem _ h

theorem received (attempt : Nat) (key : JobKey) (r : DocumentRecord) :
    Grows r (r.received now attempt key) := by
  unfold DocumentRecord.received
  split
  · apply (addReceipt attempt key r).trans
    unfold closeImageStage
    dsimp only
    have hspan : forall s : DocumentRecord, Grows s (s.finishMultimodal now attempt) :=
      fun s => of_outbox_eq rfl fun _ h => h
    split
    · exact refl _
    · split
      · exact (hspan _).trans (putTx _ _ _ _ _)
      · exact hspan _
  · exact addReceipt attempt key r

theorem completeTx (attempt : Nat) (key : JobKey) (r : DocumentRecord) :
    Grows r (r.completeTx now attempt key).1.record := by
  cases hreceipt : r.hasReceipt attempt key with
  | true =>
      rw [completeTx_of_receipt now attempt key hreceipt]
      exact refl r
  | false =>
      rw [completeTx_of_fresh now attempt key hreceipt]
      exact ((received now attempt key r).trans
        (withDocument _ (r.completedDocument now attempt key))).trans
        (recordDocumentChange now _ _)

theorem andThen {r : DocumentRecord} {c : Change} {f : DocumentRecord -> Change}
    (hc : Grows r c.record) (hf : Grows c.record (f c.record).record) :
    Grows r (c.andThen f).record :=
  hc.trans hf

/-!
# The events
-/

theorem put (attempt : Nat) (work : Work) (r : DocumentRecord) :
    Grows r (r.put now versionId attempt work).record := by
  unfold DocumentRecord.put
  split
  · exact putTx now versionId attempt work r
  · exact refl r

theorem complete (attempt : Nat) (key : JobKey) (r : DocumentRecord) :
    Grows r (r.complete now attempt key).1.record := by
  unfold DocumentRecord.complete
  split
  · exact completeTx now attempt key r
  · exact refl r

theorem beginPostprocess (attempt : Nat) (work : List Work) (r : DocumentRecord) :
    Grows r (r.beginPostprocess now versionId attempt work).1.record := by
  unfold DocumentRecord.beginPostprocess
  split
  · exact refl r
  · split
    · exact refl r
    · dsimp only
      apply andThen
      · exact ((putAll now versionId attempt work r).trans (withDocument _ _)).trans
          (completeTx now attempt .postprocess _)
      · exact recordDocumentChange now _ _

theorem commitChunksRecord (attempt : Nat) (key : JobKey) (status : SummaryStatus)
    (description : String) (finish : Bool) (r : DocumentRecord) :
    Grows r (r.commitChunksRecord now attempt key status description finish).record := by
  unfold DocumentRecord.commitChunksRecord
  dsimp only
  apply andThen
  · dsimp only
    refine Grows.trans ?_ (withDocument _ _)
    refine (withDocument r (storeSummary key status description r.document)).trans ?_
    split
    · exact completeTx now attempt key _
    · exact refl _
  · exact recordDocumentChange now _ _

theorem failJob (attempt : Nat) (key : JobKey) (error : String) (r : DocumentRecord) :
    Grows r (r.failJob now attempt key error).record := by
  unfold DocumentRecord.failJob
  split
  · exact refl r
  · dsimp only
    refine Grows.trans ?_ (recordDocumentChange now _ _)
    have hrow : Grows r
        { r with outbox := r.outbox.modify (attempt, key) (failRow error) } := by
      apply modify
      intro row
      unfold failRow
      split <;> exact ⟨rfl, rfl⟩
    split
    · exact hrow.trans (withDocument _ _)
    · exact hrow

theorem settleDelivery (attempt : Nat) (key : JobKey) (revision : Nat) (s : Settlement)
    (r : DocumentRecord) : Grows r (r.settleDelivery now attempt key revision s).record := by
  unfold DocumentRecord.settleDelivery
  split
  · exact failJob now attempt key _ r
  · exact modify (sameJob_settleRow now revision s)

theorem afterIndexFanout (attempt textCount : Nat) (images : List String) (fileName : String)
    (r : DocumentRecord) :
    Grows r
      (r.afterIndexFanout now versionId attempt textCount images fileName).record := by
  unfold DocumentRecord.afterIndexFanout
  split
  · unfold fanoutText
    split
    · exact refl r
    · dsimp only
      apply andThen
      · refine Grows.trans ?_ (updateDocument now _ _)
        split
        · exact putTx now versionId attempt _ r
        · exact refl r
      · exact completeTx now attempt .convert _
  · unfold fanoutImages
    split
    · exact refl r
    · exact (putAll now versionId attempt _ r).trans (completeTx now attempt .convert _)

end Grows

/-!
# Span writers
-/

/-- Only spans and the time of the last touch may differ. -/
structure OnlySpans (r r' : DocumentRecord) : Prop where
  document : exists at', r'.document = { r.document with updatedAt := at' }
  outbox : r'.outbox = r.outbox
  receipts : r'.receipts = r.receipts

namespace OnlySpans

theorem of_spans (spans : Table (Nat × String) Span) : OnlySpans r { r with spans := spans } :=
  ⟨⟨r.document.updatedAt, rfl⟩, rfl, rfl⟩

theorem refl : OnlySpans r r :=
  of_spans r r.spans

theorem trans {r r' r'' : DocumentRecord} (h : OnlySpans r r') (h' : OnlySpans r' r'') :
    OnlySpans r r'' where
  document := by
    obtain ⟨at', hdocument⟩ := h.document
    obtain ⟨at'', hdocument'⟩ := h'.document
    exact ⟨at'', by rw [hdocument', hdocument]⟩
  outbox := h'.outbox.trans h.outbox
  receipts := h'.receipts.trans h.receipts

theorem touch : OnlySpans r (r.touch now) :=
  ⟨⟨now, rfl⟩, rfl, rfl⟩

theorem grows {r r' : DocumentRecord} (h : OnlySpans r r') : Grows r r' :=
  Grows.of_outbox_eq h.outbox fun _ hmem => by rwa [h.receipts]

variable (attempt : Nat) (r : DocumentRecord)

theorem startSpan (spanId : Uuid) (name : String) (parentName : Option String)
    (input : Option (List (String × SpanValue))) :
    OnlySpans r (r.startSpan now spanId attempt name parentName input) := by
  unfold DocumentRecord.startSpan
  dsimp only
  split
  · exact refl r
  · exact (of_spans r _).trans (touch now _)

theorem finishSpan (spanId : Uuid) (name : String) (status : SpanStatus)
    (output : Option (List (String × SpanValue))) :
    OnlySpans r (r.finishSpan now spanId attempt name status output) := by
  unfold DocumentRecord.finishSpan upsertSpanInTx
  dsimp only
  split
  · exact refl r
  · refine OnlySpans.trans ?_ (touch now _)
    split <;> exact of_spans r _

theorem markSkipped (name reason : String) :
    OnlySpans r (r.markSkipped now attempt name reason) := by
  unfold DocumentRecord.markSkipped
  split
  · exact refl r
  · exact of_spans r _

theorem skipSpan (spanId : Uuid) (name reason : String) :
    OnlySpans r (r.skipSpan now spanId attempt name reason) :=
  (startSpan now attempt r spanId name (some rootName) none).trans
    (markSkipped now attempt _ name reason)

theorem cancelDependentStages (failedStage : String) :
    OnlySpans r (r.cancelDependentStages now attempt failedStage) := by
  unfold DocumentRecord.cancelDependentStages
  split
  · exact refl r
  · split
    · exact refl r
    · exact of_spans r _

theorem openStages (spanIds : String -> Uuid) :
    OnlySpans r (r.openStages attempt spanIds) := by
  unfold DocumentRecord.openStages
  dsimp only
  split
  · exact refl r
  · exact of_spans r _

theorem housekeep (staleSecs : Nat) :
    exists f : Document -> Document,
      (forall d, f d =
        { d with
          parseStatus := .failed
          errorMessage := some (housekeepMessage staleSecs)
          pendingSubtasksCount := 0
          updatedAt := now }) ∧
      OnlySpans (r.updateDocument now f).record (r.housekeep now staleSecs).record := by
  refine ⟨_, fun d => rfl, ?_⟩
  exact of_spans _ _

end OnlySpans

end DocumentRecord

/-!
# Writers of documents and spans
-/

namespace DocumentOp

/-- Only spans are written. -/
def IsSpan : DocumentOp -> Prop
  | startSpan .. | finishSpan .. | skipSpan .. | markSkipped .. | cancelDependentStages ..
  | openStages .. => True
  | _ => False

/-- Neither jobs nor receipts are written on their own. -/
def OnDocument : DocumentOp -> Prop
  | afterIndexFanout .. | put .. | complete .. | beginPostprocess .. | commitChunks ..
  | failJob .. | settleDelivery .. => False
  | _ => True

theorem onlySpans_apply {e : DocumentOp} (h : e.IsSpan) (r : DocumentRecord) :
    r.OnlySpans (e.apply now r).record := by
  cases e with
  | startSpan spanId attempt name parentName input =>
      exact .startSpan now attempt r spanId name parentName input
  | finishSpan spanId attempt name status output =>
      exact .finishSpan now attempt r spanId name status output
  | skipSpan spanId attempt name reason => exact .skipSpan now attempt r spanId name reason
  | markSkipped attempt name reason => exact .markSkipped now attempt r name reason
  | cancelDependentStages attempt failedStage =>
      exact .cancelDependentStages now attempt r failedStage
  | openStages attempt spanIds => exact .openStages attempt r spanIds
  | _ => exact absurd h id

/-- Such an event updates the document or nothing, and then at most spans. -/
theorem onDocument_apply {e : DocumentOp} (h : e.OnDocument) (r : DocumentRecord) :
    exists r', (r' = r ∨ exists f, r' = (r.updateDocument now f).record) ∧
      r'.OnlySpans (e.apply now r).record := by
  have hsame : exists r', (r' = r ∨ exists f, r' = (r.updateDocument now f).record) ∧
      r'.OnlySpans (Change.unchanged r).record := ⟨r, Or.inl rfl, .refl r⟩
  have hwritten : forall f,
      exists r', (r' = r ∨ exists f, r' = (r.updateDocument now f).record) ∧
        r'.OnlySpans (r.updateDocument now f).record :=
    fun f => ⟨_, Or.inr ⟨f, rfl⟩, .refl _⟩
  cases e with
  | afterIndexFanout | put | complete | beginPostprocess | commitChunks | failJob
  | settleDelivery => exact absurd h id
  | startSpan | finishSpan | skipSpan | markSkipped | cancelDependentStages | openStages =>
      exact ⟨r, Or.inl rfl, onlySpans_apply now (by trivial) r⟩
  | housekeep staleSecs =>
      simp only [apply]
      split
      · obtain ⟨f, _, hspans⟩ := DocumentRecord.OnlySpans.housekeep now r staleSecs
        exact ⟨_, Or.inr ⟨f, rfl⟩, hspans⟩
      · exact hsame
  | recoverStale | cancelActive =>
      simp only [apply]
      split
      · exact hwritten _
      · exact hsame
  | bumpDocumentAttempt =>
      simp only [apply, DocumentRecord.bumpDocumentAttempt]
      split
      · exact hwritten _
      · exact hsame
  | markReparseQueued =>
      simp only [apply, DocumentRecord.markReparseQueued]
      split
      · exact hwritten _
      · exact hsame
  | _ => exact hwritten _

end DocumentOp

namespace DocumentRecord

/-- Every event keeps the jobs and the receipts of its document. -/
theorem grows_apply (e : DocumentOp) (r : DocumentRecord) : Grows r (e.apply now r).record := by
  by_cases hdocument : e.OnDocument
  · obtain ⟨_, rfl | ⟨f, rfl⟩, hspans⟩ := DocumentOp.onDocument_apply now hdocument r
    · exact hspans.grows
    · exact (Grows.updateDocument now f r).trans hspans.grows
  cases e with
  | afterIndexFanout versionId attempt textCount images fileName =>
      exact Grows.afterIndexFanout now versionId attempt textCount images fileName r
  | put versionId attempt work => exact Grows.put now versionId attempt work r
  | complete attempt key => exact Grows.complete now attempt key r
  | beginPostprocess versionId attempt work =>
      exact Grows.beginPostprocess now versionId attempt work r
  | commitChunks attempt key status description finish =>
      simp only [DocumentOp.apply]
      split
      · exact Grows.refl r
      · exact Grows.commitChunksRecord now attempt key status description finish r
  | failJob attempt key error => exact Grows.failJob now attempt key error r
  | settleDelivery attempt key revision s =>
      exact Grows.settleDelivery now attempt key revision s r
  | _ => exact absurd trivial hdocument

end DocumentRecord

end Workflow
end KnowledgeBrain
