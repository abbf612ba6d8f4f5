import KnowledgeBrain.Workflow.Generations

/-!
# Reconcile rows

A change of the columns the semantic index depends on reopens the reconcile
row of the attempt under a larger revision.  This module states what an event
can do to the reconcile rows of its document; acknowledgements of the
dispatcher are treated in the next one.
-/

namespace KnowledgeBrain
namespace Workflow

open Foundation

namespace DocumentRecord

/-- The reconcile row of an attempt. -/
def reconcileRow (attempt : Nat) (r : DocumentRecord) : Option OutboxRow :=
  r.outbox.lookup (attempt, .reconcile)

/-- The row was reopened under a larger revision. -/
def Reopened (row row' : OutboxRow) : Prop :=
  row'.state = .pending ∧ row.revision < row'.revision

/-- Reconcile rows stay as they are or are reopened, and new ones are pending. -/
structure KeepsReconcile (r r' : DocumentRecord) : Prop where
  kept : forall attempt row, r.reconcileRow attempt = some row ->
    exists row', r'.reconcileRow attempt = some row' ∧ (row' = row ∨ Reopened row row')
  fresh : forall attempt row', r.reconcileRow attempt = none ->
    r'.reconcileRow attempt = some row' -> row'.state = .pending

/-- Reconcile rows are kept, and a source change reopens the row of the
attempt it happens under. -/
structure Reopens (r r' : DocumentRecord) : Prop where
  rows : KeepsReconcile r r'
  changed : r'.document.sourceState ≠ r.document.sourceState ->
    exists row', r'.reconcileRow r'.document.attempt = some row' ∧ row'.state = .pending ∧
      forall row, r.reconcileRow r'.document.attempt = some row -> row.revision < row'.revision

namespace KeepsReconcile

theorem of_same {r r' : DocumentRecord}
    (hrows : forall attempt, r'.reconcileRow attempt = r.reconcileRow attempt) :
    KeepsReconcile r r' where
  kept := by
    intro attempt row hrow
    exact ⟨row, by rw [hrows, hrow], Or.inl rfl⟩
  fresh := by
    intro attempt row' hnone hrow'
    rw [hrows, hnone] at hrow'
    cases hrow'

theorem refl (r : DocumentRecord) : KeepsReconcile r r :=
  of_same fun _ => rfl

theorem of_outbox {r r' : DocumentRecord} (houtbox : r'.outbox = r.outbox) :
    KeepsReconcile r r' := by
  apply of_same
  intro attempt
  unfold reconcileRow
  rw [houtbox]

theorem trans {r r' r'' : DocumentRecord} (h : KeepsReconcile r r')
    (h' : KeepsReconcile r' r'') : KeepsReconcile r r'' where
  kept := by
    intro attempt row hrow
    obtain ⟨row', hrow', hfirst⟩ := h.kept attempt row hrow
    obtain ⟨row'', hrow'', hsecond⟩ := h'.kept attempt row' hrow'
    refine ⟨row'', hrow'', ?_⟩
    rcases hsecond with heq | ⟨hstate, hrevision⟩
    · rw [heq]
      exact hfirst
    · right
      rcases hfirst with heq | ⟨_, hrevision'⟩
      · rw [heq] at hrevision
        exact ⟨hstate, hrevision⟩
      · exact ⟨hstate, Nat.lt_trans hrevision' hrevision⟩
  fresh := by
    intro attempt row'' hnone hrow''
    cases hrow' : r'.reconcileRow attempt with
    | none =>
        exact h'.fresh attempt row'' hrow' hrow''
    | some row' =>
        obtain ⟨found, hfound, heq | ⟨hstate, _⟩⟩ := h'.kept attempt row' hrow'
        · rw [hrow''] at hfound
          cases hfound
          rw [heq]
          exact h.fresh attempt row' hnone hrow'
        · rw [hrow''] at hfound
          cases hfound
          exact hstate

theorem modify {key : JobKey} (attempt : Nat) (f : OutboxRow -> OutboxRow)
    (r : DocumentRecord) (hkey : key ≠ .reconcile) :
    KeepsReconcile r { r with outbox := r.outbox.modify (attempt, key) f } := by
  apply of_same
  intro attempt'
  apply Table.lookup_modify_of_ne
  intro heq
  exact hkey (Prod.mk.inj heq).2.symm

variable (now : Time)

theorem putTx (versionId : Uuid) (attempt : Nat) (work : Work) (r : DocumentRecord) :
    KeepsReconcile r (r.putTx now versionId attempt work) where
  kept := by
    intro attempt' row hrow
    refine ⟨row, ?_, Or.inl rfl⟩
    unfold reconcileRow at hrow ⊢
    rw [lookup_putTx, hrow]
    split <;> rfl
  fresh := by
    intro attempt' row' hnone hrow'
    unfold reconcileRow at hnone hrow'
    rw [lookup_putTx, hnone] at hrow'
    split at hrow'
    · cases hrow'
      rfl
    · cases hrow'

theorem putAll (versionId : Uuid) (attempt : Nat) (work : List Work) (r : DocumentRecord) :
    KeepsReconcile r (r.putAll now versionId attempt work) := by
  apply foldl_invariant (P := fun s => KeepsReconcile r s)
  · intro s w hs
    exact hs.trans (putTx now versionId attempt w s)
  · exact refl r

theorem addReceipt (attempt : Nat) {key : JobKey} (r : DocumentRecord)
    (hkey : key ≠ .reconcile) : KeepsReconcile r (r.addReceipt attempt key) := by
  apply of_same
  intro attempt'
  unfold reconcileRow
  rw [lookup_addReceipt, if_neg]
  intro heq
  exact hkey (Prod.mk.inj heq).2.symm

theorem closeImageStage (attempt : Nat) (r : DocumentRecord) :
    KeepsReconcile r (r.closeImageStage now attempt) := by
  apply of_same
  intro attempt'
  unfold reconcileRow
  rw [lookup_closeImageStage, if_neg]
  rintro ⟨_, heq⟩
  cases heq

theorem received (attempt : Nat) {key : JobKey} (r : DocumentRecord)
    (hkey : key ≠ .reconcile) : KeepsReconcile r (r.received now attempt key) := by
  unfold DocumentRecord.received
  split
  · exact (addReceipt attempt r hkey).trans (closeImageStage now attempt _)
  · exact addReceipt attempt r hkey

end KeepsReconcile

/-!
# Recording a change
-/

/-- The reconcile row after a change was recorded. -/
theorem reconcileRow_recordDocumentChange (now : Time) (before : Option DocumentState)
    (r : DocumentRecord) (attempt : Nat) :
    (recordDocumentChange now before r).record.reconcileRow attempt =
      if sourceChanged before r = true ∧ attempt = r.document.attempt then
        some (((r.reconcileRow attempt).map (reopenReconcile now)).getD
          (OutboxRow.fresh now r.document.productVersionId .reconcile))
      else r.reconcileRow attempt := by
  have hrequest : (if sourceChanged before r then r.requestReconcile now else r).reconcileRow
      attempt =
      if sourceChanged before r = true ∧ attempt = r.document.attempt then
        some (((r.reconcileRow attempt).map (reopenReconcile now)).getD
          (OutboxRow.fresh now r.document.productVersionId .reconcile))
      else r.reconcileRow attempt := by
    by_cases hsource : sourceChanged before r = true
    · simp only [hsource, if_true, true_and]
      unfold reconcileRow requestReconcile
      dsimp only
      rw [Table.lookup_upsert]
      by_cases hattempt : attempt = r.document.attempt
      · simp [hattempt]
      · simp [hattempt]
    · simp [hsource]
  rw [← hrequest]
  have hretire : forall s : DocumentRecord,
      s.retireRows.reconcileRow attempt = s.reconcileRow attempt := by
    intro s
    unfold retireRows reconcileRow
    dsimp only
    rw [Table.lookup_mapRows]
    simp [retiresRow]
  have hopen : forall s : DocumentRecord,
      (s.openConversion now).reconcileRow attempt = s.reconcileRow attempt := by
    intro s
    unfold openConversion reconcileRow
    dsimp only
    rw [Table.lookup_insertNew]
    simp
  unfold recordDocumentChange
  dsimp only
  split_ifs <;> simp only [hretire, hopen]

theorem reopened_reopenReconcile (now : Time) (row : OutboxRow) :
    Reopened row (reopenReconcile now row) :=
  ⟨rfl, Nat.lt_succ_self _⟩

theorem keepsReconcile_recordDocumentChange (now : Time) (before : Option DocumentState)
    (r : DocumentRecord) : KeepsReconcile r (recordDocumentChange now before r).record where
  kept := by
    intro attempt row hrow
    rw [reconcileRow_recordDocumentChange, hrow]
    split
    · exact ⟨_, rfl, Or.inr (reopened_reopenReconcile now row)⟩
    · exact ⟨row, rfl, Or.inl rfl⟩
  fresh := by
    intro attempt row' hnone hrow'
    rw [reconcileRow_recordDocumentChange, hnone] at hrow'
    split at hrow'
    · cases hrow'
      rfl
    · cases hrow'

namespace Reopens

/-- A transaction that captures the document, writes rows and records the
change. -/
theorem recordDocumentChange (now : Time) {r r1 : DocumentRecord}
    (hrows : KeepsReconcile r r1) :
    Reopens r
      (DocumentRecord.recordDocumentChange now (some (captureDocumentState r)) r1).record where
  rows := hrows.trans (keepsReconcile_recordDocumentChange now _ r1)
  changed := by
    intro hchanged
    rw [document_recordDocumentChange] at hchanged ⊢
    have hsource : sourceChanged (some (captureDocumentState r)) r1 = true := by
      unfold sourceChanged
      simpa [captureDocumentState] using Ne.symm hchanged
    rw [reconcileRow_recordDocumentChange, if_pos ⟨hsource, rfl⟩]
    cases hrow1 : r1.reconcileRow r1.document.attempt with
    | none =>
        refine ⟨_, rfl, rfl, ?_⟩
        intro row hrow
        obtain ⟨row', hrow', _⟩ := hrows.kept _ row hrow
        rw [hrow1] at hrow'
        cases hrow'
    | some row1 =>
        refine ⟨_, rfl, rfl, ?_⟩
        intro row hrow
        obtain ⟨row', hrow', hkept⟩ := hrows.kept _ row hrow
        rw [hrow1] at hrow'
        cases hrow'
        have hle : row.revision ≤ row1.revision := by
          rcases hkept with heq | ⟨_, hlt⟩
          · rw [heq]
          · exact Nat.le_of_lt hlt
        exact Nat.lt_succ_of_le hle

theorem of_source {r r' : DocumentRecord} (hrows : KeepsReconcile r r')
    (hsource : r'.document.sourceState = r.document.sourceState) : Reopens r r' :=
  ⟨hrows, fun hchanged => absurd hsource hchanged⟩

theorem refl (r : DocumentRecord) : Reopens r r :=
  of_source (KeepsReconcile.refl r) rfl

theorem trans {r r' r'' : DocumentRecord} (h : Reopens r r') (h' : Reopens r' r'')
    (hattempt : r''.document.attempt = r'.document.attempt) : Reopens r r'' where
  rows := h.rows.trans h'.rows
  changed := by
    intro hchanged
    by_cases hsecond : r''.document.sourceState = r'.document.sourceState
    · rw [hsecond] at hchanged
      obtain ⟨row', hrow', hstate, hlarger⟩ := h.changed hchanged
      rw [hattempt]
      obtain ⟨row'', hrow'', heq | ⟨hstate', hlt⟩⟩ := h'.rows.kept _ row' hrow'
      · rw [heq] at hrow''
        exact ⟨row', hrow'', hstate, hlarger⟩
      · exact ⟨row'', hrow'', hstate', fun row hrow => Nat.lt_trans (hlarger row hrow) hlt⟩
    · obtain ⟨row'', hrow'', hstate, hlarger⟩ := h'.changed hsecond
      refine ⟨row'', hrow'', hstate, ?_⟩
      intro row hrow
      obtain ⟨row', hrow', heq | ⟨_, hlt⟩⟩ := h.rows.kept _ row hrow
      · rw [heq] at hrow'
        exact hlarger row hrow'
      · exact Nat.lt_trans hlt (hlarger row' hrow')

variable (now : Time)

theorem updateDocument (f : Document -> Document) (r : DocumentRecord) :
    Reopens r (r.updateDocument now f).record :=
  recordDocumentChange now (KeepsReconcile.of_outbox rfl)

theorem completeTx (attempt : Nat) {key : JobKey} (r : DocumentRecord)
    (hkey : key ≠ .reconcile) : Reopens r (r.completeTx now attempt key).1.record := by
  cases hreceipt : r.hasReceipt attempt key with
  | true =>
      rw [completeTx_of_receipt now attempt key hreceipt]
      exact refl r
  | false =>
      rw [completeTx_of_fresh now attempt key hreceipt]
      apply recordDocumentChange
      exact (KeepsReconcile.received now attempt r hkey).trans (KeepsReconcile.of_outbox rfl)

theorem complete (attempt : Nat) {key : JobKey} (r : DocumentRecord)
    (hkey : key ≠ .reconcile) : Reopens r (r.complete now attempt key).1.record := by
  unfold DocumentRecord.complete
  split
  · exact completeTx now attempt r hkey
  · exact refl r

theorem beginPostprocess (versionId : Uuid) (attempt : Nat) (work : List Work)
    (r : DocumentRecord) :
    Reopens r (r.beginPostprocess now versionId attempt work).1.record := by
  unfold DocumentRecord.beginPostprocess
  split
  · exact refl r
  · split
    · exact refl r
    · apply recordDocumentChange
      refine KeepsReconcile.trans ?_ (completeTx now attempt _ (by simp)).rows
      exact (KeepsReconcile.putAll now versionId attempt work r).trans
        (KeepsReconcile.of_outbox rfl)

theorem commitChunksRecord (attempt : Nat) {key : JobKey} (status : SummaryStatus)
    (description : String) (finish : Bool) (r : DocumentRecord) (hkey : key ≠ .reconcile) :
    Reopens r
      (r.commitChunksRecord now attempt key status description finish).record := by
  unfold DocumentRecord.commitChunksRecord
  apply recordDocumentChange
  generalize hr1 : ({ r with
    document := storeSummary key status description r.document } : DocumentRecord) = r1
  have hfirst : KeepsReconcile r r1 := by
    rw [← hr1]
    exact KeepsReconcile.of_outbox rfl
  cases finish with
  | true =>
      exact (hfirst.trans (completeTx now attempt r1 hkey).rows).trans
        (KeepsReconcile.of_outbox rfl)
  | false =>
      exact hfirst.trans (KeepsReconcile.of_outbox rfl)

theorem failJob (attempt : Nat) {key : JobKey} (error : String) (r : DocumentRecord)
    (hkey : key ≠ .reconcile) : Reopens r (r.failJob now attempt key error).record := by
  unfold DocumentRecord.failJob
  split
  · exact refl r
  · apply recordDocumentChange
    have hrow := KeepsReconcile.modify attempt (failRow error) r hkey
    dsimp only
    split
    · exact hrow.trans (KeepsReconcile.of_outbox rfl)
    · exact hrow

theorem afterIndexFanout (versionId : Uuid) (attempt textCount : Nat)
    (images : List String) (fileName : String) (r : DocumentRecord) :
    Reopens r
      (r.afterIndexFanout now versionId attempt textCount images fileName).record := by
  unfold DocumentRecord.afterIndexFanout
  split
  · unfold fanoutText
    split
    · exact refl r
    · dsimp only [Change.andThen]
      generalize hput : (if 0 < textCount then
        r.putTx now versionId attempt (.postprocess false) else r) = r1
      have hfirst : Reopens r r1 := by
        rw [← hput]
        split
        · exact of_source (KeepsReconcile.putTx now versionId attempt _ r) rfl
        · exact refl r
      refine (hfirst.trans (updateDocument now _ r1) ?_).trans
        (completeTx now attempt _ (by simp)) (document_completeTx_cases now attempt _ _).1
      rw [document_updateDocument]
      split <;> rfl
  · unfold fanoutImages
    split
    · exact refl r
    · refine (of_source (KeepsReconcile.putAll now versionId attempt _ r) ?_).trans
        (completeTx now attempt _ (by simp)) (document_completeTx_cases now attempt _ _).1
      rw [document_putAll]

theorem onlySpans {r r' : DocumentRecord} (h : OnlySpans r r') : Reopens r r' := by
  obtain ⟨at', hdocument⟩ := h.document
  apply of_source (KeepsReconcile.of_outbox h.outbox)
  rw [hdocument]
  rfl

end Reopens

end DocumentRecord

/-!
# Every event
-/

/-- The event neither consumes nor settles a reconcile row: no worker is ever
handed one, and the dispatcher's own write is an event apart. -/
def DocumentOp.SparesReconcile : DocumentOp -> Prop
  | complete _ key | commitChunks _ key _ _ _ | failJob _ key _
  | settleDelivery _ key _ _ => key ≠ .reconcile
  | _ => True

namespace DocumentRecord

theorem reopens_apply (now : Time) {e : DocumentOp} (r : DocumentRecord)
    (hspares : e.SparesReconcile) : Reopens r (e.apply now r).record := by
  by_cases hdocument : e.OnDocument
  · obtain ⟨_, rfl | ⟨f, rfl⟩, hspans⟩ := DocumentOp.onDocument_apply now hdocument r
    · exact Reopens.onlySpans hspans
    · refine (Reopens.updateDocument now f r).trans (Reopens.onlySpans hspans) ?_
      obtain ⟨at', hrow⟩ := hspans.document
      rw [hrow]
  cases e with
  | afterIndexFanout versionId attempt textCount images fileName =>
      exact Reopens.afterIndexFanout now versionId attempt textCount images fileName r
  | put versionId attempt work =>
      simp only [DocumentOp.apply, put]
      split
      · exact Reopens.of_source (KeepsReconcile.putTx now versionId attempt work r) rfl
      · exact Reopens.refl r
  | complete attempt key => exact Reopens.complete now attempt r hspares
  | beginPostprocess versionId attempt work =>
      exact Reopens.beginPostprocess now versionId attempt work r
  | commitChunks attempt key status description finish =>
      simp only [DocumentOp.apply]
      split
      · exact Reopens.refl r
      · exact Reopens.commitChunksRecord now attempt status description finish r hspares
  | failJob attempt key error => exact Reopens.failJob now attempt error r hspares
  | settleDelivery attempt key revision s =>
      simp only [DocumentOp.apply, settleDelivery]
      split
      · exact Reopens.failJob now attempt _ r hspares
      · exact Reopens.of_source (KeepsReconcile.modify attempt _ r hspares) rfl
  | _ => exact absurd trivial hdocument

/-- A created document has no reconcile row. -/
theorem reconcileRow_created {now : Time} {db : Database} {id : Uuid} {op : Operation}
    {r : DocumentRecord} (hcreated : Operation.Created now db id op r) (attempt : Nat) :
    r.reconcileRow attempt = none := by
  have hbare : forall d : Document,
      ((bare d).recordDocumentChange now none).record.reconcileRow attempt = none := by
    intro d
    rw [reconcileRow_recordDocumentChange]
    rfl
  have hput : forall (versionId : Uuid) (work : Work) (s : DocumentRecord),
      work ≠ .reconcile -> s.reconcileRow attempt = none ->
      (s.putTx now versionId 1 work).reconcileRow attempt = none := by
    intro versionId work s hwork hs
    unfold reconcileRow at hs ⊢
    rw [lookup_putTx, if_neg, hs]
    intro heq
    exact hwork (Work.key_eq_reconcile.mp (Prod.mk.inj heq).2.symm)
  cases hcreated with
  | inserted versionId kind passages =>
      exact hbare _
  | cloned sourceId versionId copyKeep sourceHadWiki rename source hsource =>
      unfold Database.clonedRecord
      dsimp only
      split
      · split
        · exact hput versionId _ _ (by simp) (hput versionId _ _ (by simp) (hbare _))
        · exact hput versionId _ _ (by simp) (hbare _)
      · exact hbare _

end DocumentRecord

end Workflow
end KnowledgeBrain
