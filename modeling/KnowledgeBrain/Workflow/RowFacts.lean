import KnowledgeBrain.Foundation.Folds
import KnowledgeBrain.Workflow.Operations

/-!
# Rows after the parts of a transaction

One description for each part a transaction is made of: which columns of the
document it leaves alone, and what a lookup in the outbox returns afterwards.
-/

namespace KnowledgeBrain
namespace Workflow

open Foundation

namespace DocumentRecord

/-!
# Recording a change
-/

section Record

variable (now : Time) (before : Option DocumentState) (r : DocumentRecord)

@[simp]
theorem document_recordDocumentChange :
    (recordDocumentChange now before r).record.document = r.document := by
  unfold recordDocumentChange requestReconcile retireRows openConversion
  dsimp only
  split_ifs <;> rfl

@[simp]
theorem receipts_recordDocumentChange :
    (recordDocumentChange now before r).record.receipts = r.receipts := by
  unfold recordDocumentChange requestReconcile retireRows openConversion
  dsimp only
  split_ifs <;> rfl

/-- The rows of one key other than `reconcile` after a change was recorded. -/
def recordedRow (key : Nat × JobKey) : Option OutboxRow :=
  let row := r.outbox.lookup key
  let row :=
    if attemptChanged before r || r.document.parseStatus.isTerminal then
      row.map fun row =>
        if retiresRow r.document key then { row with state := .complete } else row
    else row
  if r.document.parseStatus == .pending && (before.isNone || attemptChanged before r) &&
      key == (r.document.attempt, .convert) then
    some (row.getD
      (OutboxRow.fresh now r.document.productVersionId
        (.convert (r.document.sourcePassages.getD [])
          (r.document.documentKind == .manual))))
  else row

theorem lookup_requestReconcile {key : Nat × JobKey} (hkey : key.2 ≠ .reconcile) :
    (r.requestReconcile now).outbox.lookup key = r.outbox.lookup key := by
  unfold requestReconcile
  dsimp only
  rw [Table.lookup_upsert, if_neg]
  rintro rfl
  exact hkey rfl

theorem lookup_recordDocumentChange {key : Nat × JobKey} (hkey : key.2 ≠ .reconcile) :
    (recordDocumentChange now before r).record.outbox.lookup key =
      recordedRow now before r key := by
  have hreconcile : forall b : Bool,
      (if b then r.requestReconcile now else r).outbox.lookup key =
        r.outbox.lookup key := by
    intro b
    cases b with
    | false =>
        rfl
    | true =>
        exact lookup_requestReconcile now r hkey
  have hdocument : forall b : Bool,
      (if b then r.requestReconcile now else r).document = r.document := by
    intro b
    cases b with
    | false =>
        rfl
    | true =>
        rfl
  unfold recordDocumentChange recordedRow
  generalize sourceChanged before r = source
  have hr := hreconcile source
  have hd := hdocument source
  generalize (if source then r.requestReconcile now else r) = r1 at hr hd ⊢
  dsimp only
  by_cases hretire : (attemptChanged before r || r.document.parseStatus.isTerminal) = true
  · by_cases hopen : (r.document.parseStatus == .pending &&
        (before.isNone || attemptChanged before r)) = true
    · simp only [hretire, hopen, if_true, openConversion, retireRows,
        Table.lookup_insertNew, Table.lookup_mapRows, hr, hd, Bool.true_and]
      by_cases hconvert : key = (r.document.attempt, .convert)
      · subst hconvert
        simp [hr]
      · simp [hconvert]
    · simp [hretire, hopen, retireRows, hr, hd]
  · rw [Bool.not_eq_true] at hretire
    by_cases hopen : (r.document.parseStatus == .pending &&
        (before.isNone || attemptChanged before r)) = true
    · simp only [hretire, hopen, if_true, Bool.false_eq_true, if_false, openConversion,
        Table.lookup_insertNew, hd, Bool.true_and]
      by_cases hconvert : key = (r.document.attempt, .convert)
      · subst hconvert
        simp [hr]
      · simp [hconvert, hr]
    · simp [hretire, hopen, hr]

end Record

variable {row : OutboxRow}

/-- A row found after a change was recorded is an old row, perhaps retired, or
the fresh conversion of a pending document. -/
theorem lookup_recordDocumentChange_cases {now : Time} {before : Option DocumentState}
    {r : DocumentRecord} {key : Nat × JobKey} (hkey : key.2 ≠ .reconcile)
    (hrow : (recordDocumentChange now before r).record.outbox.lookup key = some row) :
    (exists old, r.outbox.lookup key = some old ∧
      (row = old ∨ row = { old with state := .complete })) ∨
    (r.outbox.lookup key = none ∧ key = (r.document.attempt, .convert) ∧
      r.document.parseStatus = .pending ∧ row.state = .pending ∧ row.isDerived = false) := by
  rw [lookup_recordDocumentChange now before r hkey] at hrow
  unfold recordedRow at hrow
  cases hold : r.outbox.lookup key with
  | none =>
      right
      simp only [hold, Option.map_none, ite_self, Option.getD_none] at hrow
      split at hrow
      · rename_i hopen
        simp only [Bool.and_eq_true, beq_iff_eq] at hopen
        cases hrow
        exact ⟨rfl, hopen.2, hopen.1.1, rfl, rfl⟩
      · cases hrow
  | some old =>
      left
      refine ⟨old, rfl, ?_⟩
      simp only [hold, Option.map_some] at hrow
      split_ifs at hrow <;> simp at hrow
      all_goals
        first
        | exact Or.inl hrow.symm
        | exact Or.inr hrow.symm

theorem lookup_recordDocumentChange_of_same {now : Time} {old : DocumentState}
    {r : DocumentRecord} (hattempt : old.attempt = r.document.attempt)
    (hstatus : r.document.parseStatus.isTerminal = false) {key : Nat × JobKey}
    (hkey : key.2 ≠ .reconcile) :
    (recordDocumentChange now (some old) r).record.outbox.lookup key =
      r.outbox.lookup key := by
  rw [lookup_recordDocumentChange now (some old) r hkey]
  simp [recordedRow, attemptChanged, hattempt, hstatus]

theorem lookup_recordDocumentChange_of_terminal {now : Time}
    {before : Option DocumentState} {r : DocumentRecord}
    (hstatus : r.document.parseStatus.isTerminal = true) {key : Nat × JobKey}
    (hkey : key.2 ≠ .reconcile) :
    (recordDocumentChange now before r).record.outbox.lookup key =
      (r.outbox.lookup key).map fun row => { row with state := .complete } := by
  rw [lookup_recordDocumentChange now before r hkey]
  have hpending : (r.document.parseStatus == .pending) = false := by
    cases hp : r.document.parseStatus <;> rw [hp] at hstatus <;> first | rfl | cases hstatus
  simp [recordedRow, hstatus, retiresRow, hkey, hpending]

theorem tombstone_eq (now : Time) (released : Bool) (d : Document) :
    exists deletedAt updatedAt, tombstone now released d =
      { d with
        parseStatus := if d.parseStatus = .deleting then .deleted else d.parseStatus
        deletedAt := deletedAt
        updatedAt := updatedAt } := by
  unfold tombstone
  cases released with
  | false =>
      by_cases hstatus : d.parseStatus = .deleting
      · exact ⟨some (d.deletedAt.getD now), now, by simp [hstatus]⟩
      · exact ⟨d.deletedAt, d.updatedAt, by simp [hstatus]⟩
  | true =>
      by_cases hstatus : d.parseStatus = .deleting
      · exact ⟨some (d.deletedAt.getD now), now, by simp [hstatus]⟩
      · exact ⟨some (d.deletedAt.getD now), now, by simp [hstatus]⟩

/-!
# Inserting jobs
-/

section Put

variable (now : Time) (versionId : Uuid) (attempt : Nat)

theorem lookup_putTx (work : Work) (r : DocumentRecord) (key : Nat × JobKey) :
    (r.putTx now versionId attempt work).outbox.lookup key =
      if key = (attempt, work.key) then
        some ((r.outbox.lookup key).getD (OutboxRow.fresh now versionId work))
      else r.outbox.lookup key := by
  unfold putTx
  dsimp only
  rw [Table.lookup_insertNew]
  by_cases hkey : key = (attempt, work.key)
  · subst hkey
    rfl
  · simp [hkey]

@[simp]
theorem document_putAll (work : List Work) (r : DocumentRecord) :
    (r.putAll now versionId attempt work).document = r.document := by
  apply foldl_invariant (P := fun s : DocumentRecord => s.document = r.document)
  · intro s w hs
    exact hs
  · rfl

@[simp]
theorem receipts_putAll (work : List Work) (r : DocumentRecord) :
    (r.putAll now versionId attempt work).receipts = r.receipts := by
  apply foldl_invariant (P := fun s : DocumentRecord => s.receipts = r.receipts)
  · intro s w hs
    exact hs
  · rfl

theorem lookup_putAll_of_some (work : List Work) {r : DocumentRecord} {key : Nat × JobKey}
    (hrow : r.outbox.lookup key = some row) :
    (r.putAll now versionId attempt work).outbox.lookup key = some row := by
  apply foldl_invariant (P := fun s : DocumentRecord => s.outbox.lookup key = some row)
  · intro s w hs
    rw [lookup_putTx, hs]
    simp
  · exact hrow

/-- A row found after an insertion was there before or is a fresh job. -/
theorem lookup_putAll_cases {work : List Work} {r : DocumentRecord} {key : Nat × JobKey}
    (hrow : (r.putAll now versionId attempt work).outbox.lookup key = some row) :
    r.outbox.lookup key = some row ∨
      exists w, w ∈ work ∧ key = (attempt, w.key) ∧
        row = OutboxRow.fresh now versionId w := by
  unfold putAll at hrow
  induction work generalizing r with
  | nil =>
      exact Or.inl hrow
  | cons w rest ih =>
      rw [List.foldl_cons] at hrow
      rcases ih hrow with hfirst | ⟨w', hmem, hkey, hfresh⟩
      · rw [lookup_putTx] at hfirst
        by_cases hkey : key = (attempt, w.key)
        · rw [if_pos hkey] at hfirst
          cases hold : r.outbox.lookup key with
          | none =>
              rw [hold] at hfirst
              right
              refine ⟨w, by simp, hkey, ?_⟩
              simpa using hfirst.symm
          | some old =>
              rw [hold] at hfirst
              left
              simpa using hfirst
        · rw [if_neg hkey] at hfirst
          exact Or.inl hfirst
      · exact Or.inr ⟨w', by simp [hmem], hkey, hfresh⟩

theorem lookup_putAll_of_mem {work : List Work} {w : Work} (hmem : w ∈ work)
    (r : DocumentRecord) :
    exists row, (r.putAll now versionId attempt work).outbox.lookup (attempt, w.key) =
      some row := by
  induction work generalizing r with
  | nil =>
      cases hmem
  | cons first rest ih =>
      rcases List.mem_cons.mp hmem with heq | hrest
      · subst heq
        have hrow : (r.putTx now versionId attempt w).outbox.lookup (attempt, w.key) =
            some ((r.outbox.lookup (attempt, w.key)).getD
              (OutboxRow.fresh now versionId w)) := by
          rw [lookup_putTx, if_pos rfl]
        exact ⟨_, lookup_putAll_of_some now versionId attempt rest hrow⟩
      · exact ih hrest (r.putTx now versionId attempt first)

end Put

/-!
# Completing a job
-/

section Complete

variable (now : Time) (attempt : Nat) (key : JobKey)

theorem lookup_addReceipt (r : DocumentRecord) (key' : Nat × JobKey) :
    (r.addReceipt attempt key).outbox.lookup key' =
      if key' = (attempt, key) then
        (r.outbox.lookup key').map fun row =>
          { row with state := .complete, lastError := none }
      else r.outbox.lookup key' := by
  unfold addReceipt
  dsimp only
  rw [Table.lookup_modify]

/-- The rows `complete_tx` reaches before it looks at the document. -/
def received (r : DocumentRecord) : DocumentRecord :=
  if key.isImage then (r.addReceipt attempt key).closeImageStage now attempt
  else r.addReceipt attempt key

theorem document_closeImageStage (r : DocumentRecord) :
    (r.closeImageStage now attempt).document = r.document := by
  unfold closeImageStage finishMultimodal putTx
  dsimp only
  split_ifs <;> rfl

theorem receipts_closeImageStage (r : DocumentRecord) :
    (r.closeImageStage now attempt).receipts = r.receipts := by
  unfold closeImageStage finishMultimodal putTx
  dsimp only
  split_ifs <;> rfl

/-- Closing the image stage inserts the post-processing job or no row. -/
theorem lookup_closeImageStage (r : DocumentRecord) (key' : Nat × JobKey) :
    (r.closeImageStage now attempt).outbox.lookup key' =
      if (r.imageWaiting attempt = false ∧ r.document.attempt = attempt) ∧
          key' = (attempt, .postprocess) then
        some ((r.outbox.lookup key').getD
          (OutboxRow.fresh now r.document.productVersionId (.postprocess false)))
      else r.outbox.lookup key' := by
  unfold closeImageStage
  by_cases hwaiting : r.imageWaiting attempt = true
  · simp [hwaiting]
  · rw [Bool.not_eq_true] at hwaiting
    by_cases hattempt : r.document.attempt = attempt
    · simp only [hwaiting, hattempt, finishMultimodal, Bool.false_eq_true, if_false,
        beq_self_eq_true, if_true]
      rw [lookup_putTx]
      by_cases hkey : key' = (attempt, .postprocess)
      · simp [hkey, Work.key]
      · simp [hkey, Work.key]
    · simp [hwaiting, hattempt, finishMultimodal]

@[simp]
theorem document_received (r : DocumentRecord) :
    (r.received now attempt key).document = r.document := by
  unfold received
  split
  · rw [document_closeImageStage]
    rfl
  · rfl

@[simp]
theorem receipts_received (r : DocumentRecord) :
    (r.received now attempt key).receipts = (attempt, key) :: r.receipts := by
  unfold received
  split
  · rw [receipts_closeImageStage]
    rfl
  · rfl

/-- The document row `complete_tx` leaves behind a fresh receipt. -/
def completedDocument (r : DocumentRecord) : Document :=
  ((r.received now attempt key).refreshSubtasks now attempt |>.publishDrained
    now attempt).document

theorem completeTx_of_fresh {r : DocumentRecord}
    (hfresh : r.hasReceipt attempt key = false) :
    r.completeTx now attempt key =
      (recordDocumentChange now (some (captureDocumentState r))
        { (r.received now attempt key) with
          document := r.completedDocument now attempt key }, true) := by
  have hrecord : forall s : DocumentRecord,
      (s.refreshSubtasks now attempt).publishDrained now attempt =
        { s with
          document := ((s.refreshSubtasks now attempt).publishDrained now attempt).document } := by
    intro s
    unfold publishDrained refreshSubtasks
    split_ifs <;> rfl
  unfold completeTx
  simp only [hfresh, Bool.false_eq_true, if_false]
  rw [hrecord]
  rfl

theorem completeTx_of_receipt {r : DocumentRecord}
    (hreceipt : r.hasReceipt attempt key = true) :
    r.completeTx now attempt key = (Change.unchanged r, false) := by
  unfold completeTx
  rw [if_pos hreceipt]

end Complete

end DocumentRecord

end Workflow
end KnowledgeBrain
