import KnowledgeBrain.Workflow.Reconcile

/-!
# Jobs and receipts belong to attempts

A transaction adds jobs and receipts to the attempt it leaves the document in
and to no other, so a fresh attempt starts with nothing.
-/

namespace KnowledgeBrain
namespace Workflow

open Foundation

namespace DocumentRecord

/-- New rows belong to the attempt the document is in, and so do new receipts,
which are those of the jobs in `keys`. -/
structure Adds (keys : JobKey -> Prop) (r r' : DocumentRecord) : Prop where
  rows : forall key row', r'.outbox.lookup key = some row' ->
    (exists row, r.outbox.lookup key = some row) ∨ key.1 = r'.document.attempt
  receipts : forall receipt, receipt ∈ r'.receipts ->
    receipt ∈ r.receipts ∨ (receipt.1 = r'.document.attempt ∧ keys receipt.2)

namespace Adds

variable {keys : JobKey -> Prop}

theorem of_outbox {r r' : DocumentRecord} (houtbox : r'.outbox = r.outbox)
    (hreceipts : r'.receipts = r.receipts) : Adds keys r r' where
  rows := by
    intro key row' hrow'
    rw [houtbox] at hrow'
    exact Or.inl ⟨row', hrow'⟩
  receipts := by
    intro receipt hmem
    rw [hreceipts] at hmem
    exact Or.inl hmem

theorem refl (r : DocumentRecord) : Adds keys r r :=
  of_outbox rfl rfl

theorem trans {r r' r'' : DocumentRecord} (h : Adds keys r r') (h' : Adds keys r' r'')
    (hattempt : r''.document.attempt = r'.document.attempt) : Adds keys r r'' where
  rows := by
    intro key row'' hrow''
    rcases h'.rows key row'' hrow'' with ⟨row', hrow'⟩ | hkey
    · rw [hattempt]
      exact h.rows key row' hrow'
    · exact Or.inr hkey
  receipts := by
    intro receipt hmem
    rcases h'.receipts receipt hmem with hold | hnew
    · rw [hattempt]
      exact h.receipts receipt hold
    · exact Or.inr hnew

variable {r : DocumentRecord}

theorem modify (key : Nat × JobKey) (f : OutboxRow -> OutboxRow) :
    Adds keys r { r with outbox := r.outbox.modify key f } where
  rows := by
    intro key' row' hrow'
    dsimp only at hrow'
    rw [Table.lookup_modify] at hrow'
    split at hrow'
    · obtain ⟨row, hrow, _⟩ := Option.map_eq_some_iff.mp hrow'
      exact Or.inl ⟨row, hrow⟩
    · exact Or.inl ⟨row', hrow'⟩
  receipts := fun _ hmem => Or.inl hmem

variable (now : Time)

variable {attempt : Nat}

theorem putAll (versionId : Uuid) (work : List Work) (hattempt : r.document.attempt = attempt) :
    Adds keys r (r.putAll now versionId attempt work) where
  rows := by
    intro key row' hrow'
    rw [document_putAll]
    rcases lookup_putAll_cases now versionId attempt hrow' with hold | ⟨w, _, hkey, _⟩
    · exact Or.inl ⟨row', hold⟩
    · right
      rw [hkey]
      exact hattempt.symm
  receipts := by
    intro receipt hmem
    rw [receipts_putAll] at hmem
    exact Or.inl hmem

theorem putTx (versionId : Uuid) (work : Work) (hattempt : r.document.attempt = attempt) :
    Adds keys r (r.putTx now versionId attempt work) :=
  putAll now versionId [work] hattempt

theorem recordDocumentChange (before : Option DocumentState) (r : DocumentRecord) :
    Adds keys r (r.recordDocumentChange now before).record where
  rows := by
    intro key row' hrow'
    rw [document_recordDocumentChange]
    by_cases hkey : key.2 = .reconcile
    · obtain ⟨attempt, jobKey⟩ := key
      subst hkey
      change (r.recordDocumentChange now before).record.reconcileRow attempt = some row'
        at hrow'
      rw [reconcileRow_recordDocumentChange] at hrow'
      split at hrow'
      · rename_i hreopen
        exact Or.inr hreopen.2
      · exact Or.inl ⟨row', hrow'⟩
    · rcases lookup_recordDocumentChange_cases hkey hrow' with ⟨old, hold, _⟩ | ⟨_, hfresh, _⟩
      · exact Or.inl ⟨old, hold⟩
      · right
        rw [hfresh]
  receipts := by
    intro receipt hmem
    rw [receipts_recordDocumentChange] at hmem
    exact Or.inl hmem

theorem record {r r1 : DocumentRecord} (before : Option DocumentState) (h : Adds keys r r1) :
    Adds keys r (r1.recordDocumentChange now before).record :=
  h.trans (recordDocumentChange now before r1) (by rw [document_recordDocumentChange])

theorem updateDocument (f : Document -> Document) (r : DocumentRecord) :
    Adds keys r (r.updateDocument now f).record :=
  record now _ (of_outbox rfl rfl)

theorem received {key : JobKey} (hattempt : r.document.attempt = attempt) (hkey : keys key) :
    Adds keys r (r.received now attempt key) where
  rows := by
    intro key' row' hrow'
    rw [document_received]
    have haddReceipt : forall row',
        (r.addReceipt attempt key).outbox.lookup key' = some row' ->
        exists row, r.outbox.lookup key' = some row := by
      intro row' hrow'
      rw [lookup_addReceipt] at hrow'
      split at hrow'
      · obtain ⟨row, hrow, _⟩ := Option.map_eq_some_iff.mp hrow'
        exact ⟨row, hrow⟩
      · exact ⟨row', hrow'⟩
    unfold DocumentRecord.received at hrow'
    split at hrow'
    · rw [lookup_closeImageStage] at hrow'
      split at hrow'
      · rename_i hclose
        right
        rw [hclose.2]
        exact hattempt.symm
      · exact Or.inl (haddReceipt row' hrow')
    · exact Or.inl (haddReceipt row' hrow')
  receipts := by
    intro receipt hmem
    rw [receipts_received] at hmem
    rw [document_received]
    rcases List.mem_cons.mp hmem with heq | hold
    · right
      rw [heq]
      exact ⟨hattempt.symm, hkey⟩
    · exact Or.inl hold

theorem completeTx {key : JobKey} (hattempt : r.document.attempt = attempt) (hkey : keys key) :
    Adds keys r (r.completeTx now attempt key).1.record := by
  cases hreceipt : r.hasReceipt attempt key with
  | true =>
      rw [completeTx_of_receipt now attempt key hreceipt]
      exact refl r
  | false =>
      rw [completeTx_of_fresh now attempt key hreceipt]
      apply record
      refine (received now hattempt hkey).trans (of_outbox rfl rfl) ?_
      rw [document_received]
      exact attempt_completedDocument

theorem onlySpans {r r' : DocumentRecord} (h : OnlySpans r r') : Adds keys r r' :=
  of_outbox h.outbox h.receipts

end Adds

end DocumentRecord

/-!
# Every event
-/

/-- The jobs an event can hand in. -/
def DocumentOp.HandsIn : DocumentOp -> JobKey -> Prop
  | complete _ key, k => k = key
  | commitChunks _ key _ _ _, k => k = key
  | beginPostprocess _ _ _, k => k = .postprocess
  | afterIndexFanout _ _ _ _ _, k => k = .convert
  | _, _ => False

namespace DocumentRecord

theorem adds_beginPostprocess (now : Time) (versionId : Uuid) (attempt : Nat)
    (work : List Work) (r : DocumentRecord) :
    Adds (fun k => k = .postprocess) r
      (r.beginPostprocess now versionId attempt work).1.record := by
  unfold beginPostprocess
  split
  · exact Adds.refl r
  · rename_i hlock
    rw [Bool.not_eq_true', Bool.not_eq_false] at hlock
    have hattempt := attempt_of_lockCurrent hlock
    split
    · exact Adds.refl r
    · apply Adds.record
      have hplanned : Adds (fun k => k = .postprocess) r
          { r.putAll now versionId attempt work with
            document := enterFinalizing now work (r.putAll now versionId attempt work).document } :=
        (Adds.putAll now versionId work hattempt).trans (Adds.of_outbox rfl rfl) rfl
      refine hplanned.trans (Adds.completeTx now ?_ rfl)
        (document_completeTx_cases now attempt .postprocess _).1
      simpa [enterFinalizing] using hattempt

theorem adds_commitChunksRecord (now : Time) {attempt : Nat} (key : JobKey)
    (status : SummaryStatus) (description : String) (finish : Bool) {r : DocumentRecord}
    (hattempt : r.document.attempt = attempt) :
    Adds (fun k => k = key) r
      (r.commitChunksRecord now attempt key status description finish).record := by
  unfold commitChunksRecord
  apply Adds.record
  generalize hr1 : ({ r with
    document := storeSummary key status description r.document } : DocumentRecord) = r1
  have hattempt1 : r1.document.attempt = r.document.attempt := by
    rw [← hr1]
    unfold storeSummary
    dsimp only
    split <;> rfl
  have hfirst : Adds (fun k => k = key) r r1 := by
    rw [← hr1]
    exact Adds.of_outbox rfl rfl
  have hfailed : forall d : Document, (failSummary key status d).attempt = d.attempt := by
    intro d
    unfold failSummary
    split <;> rfl
  cases finish with
  | true =>
      have hcomplete := hfirst.trans (Adds.completeTx now (hattempt1.trans hattempt) rfl)
        (document_completeTx_cases now attempt key r1).1
      exact hcomplete.trans (Adds.of_outbox rfl rfl) (hfailed _)
  | false =>
      exact hfirst.trans (Adds.of_outbox rfl rfl) (hfailed _)

theorem adds_failJob {keys : JobKey -> Prop} (now : Time) (attempt : Nat) (key : JobKey)
    (error : String) (r : DocumentRecord) :
    Adds keys r (r.failJob now attempt key error).record := by
  unfold failJob
  split
  · exact Adds.refl r
  · apply Adds.record
    have hrow : Adds keys r
        { r with outbox := r.outbox.modify (attempt, key) (failRow error) } :=
      Adds.modify _ _
    dsimp only
    split
    · exact hrow.trans (Adds.of_outbox rfl rfl) rfl
    · exact hrow

theorem adds_afterIndexFanout (now : Time) (versionId : Uuid) (attempt textCount : Nat)
    (images : List String) (fileName : String) (r : DocumentRecord) :
    Adds (fun k => k = .convert) r
      (r.afterIndexFanout now versionId attempt textCount images fileName).record := by
  unfold afterIndexFanout
  split
  · unfold fanoutText
    split
    · exact Adds.refl r
    · rename_i hlock
      rw [Bool.not_eq_true', Bool.not_eq_false] at hlock
      have hattempt := attempt_of_lockCurrent hlock
      dsimp only [Change.andThen]
      generalize hput : (if 0 < textCount then
        r.putTx now versionId attempt (.postprocess false) else r) = r1
      have hdocument1 : r1.document = r.document := by
        rw [← hput]
        split <;> rfl
      have hfirst : Adds (fun k => k = .convert) r r1 := by
        rw [← hput]
        split
        · exact Adds.putTx now versionId _ hattempt
        · exact Adds.refl r
      have hsecond := hfirst.trans (Adds.updateDocument now
        (fun d => if textCount = 0 then publishAttempt now attempt d else d) r1)
        (by rw [document_updateDocument]; split <;> rfl)
      refine hsecond.trans (Adds.completeTx now ?_ rfl)
        (document_completeTx_cases now attempt .convert _).1
      rw [document_updateDocument, hdocument1]
      split
      · exact hattempt
      · exact hattempt
  · unfold fanoutImages
    split
    · exact Adds.refl r
    · rename_i hlock
      rw [Bool.not_eq_true', Bool.not_eq_false] at hlock
      have hattempt := attempt_of_lockCurrent hlock
      refine (Adds.putAll now versionId _ hattempt).trans (Adds.completeTx now ?_ rfl)
        (document_completeTx_cases now attempt .convert _).1
      rw [document_putAll]
      exact hattempt

theorem adds_apply (now : Time) (e : DocumentOp) (r : DocumentRecord) :
    Adds e.HandsIn r (e.apply now r).record := by
  by_cases hdocument : e.OnDocument
  · obtain ⟨_, rfl | ⟨f, rfl⟩, hspans⟩ := DocumentOp.onDocument_apply now hdocument r
    · exact Adds.onlySpans hspans
    · refine (Adds.updateDocument now f r).trans (Adds.onlySpans hspans) ?_
      obtain ⟨at', hrow⟩ := hspans.document
      rw [hrow]
  cases e with
  | afterIndexFanout versionId attempt textCount images fileName =>
      exact adds_afterIndexFanout now versionId attempt textCount images fileName r
  | put versionId attempt work =>
      simp only [DocumentOp.apply, put]
      split
      · rename_i hlock
        exact Adds.putTx now versionId work (attempt_of_lockCurrent hlock)
      · exact Adds.refl r
  | complete attempt key =>
      simp only [DocumentOp.apply, complete]
      split
      · rename_i hlock
        exact Adds.completeTx now (attempt_of_lockCurrent hlock) rfl
      · exact Adds.refl r
  | beginPostprocess versionId attempt work =>
      exact adds_beginPostprocess now versionId attempt work r
  | commitChunks attempt key status description finish =>
      simp only [DocumentOp.apply]
      split
      · exact Adds.refl r
      · rename_i hlock
        simp only [Bool.or_eq_true, Bool.not_eq_true', not_or, Bool.not_eq_false] at hlock
        exact adds_commitChunksRecord now key status description finish
          (attempt_of_lockCurrent hlock.1)
  | failJob attempt key error => exact adds_failJob now attempt key error r
  | settleDelivery attempt key revision s =>
      simp only [DocumentOp.apply, settleDelivery]
      split
      · exact adds_failJob now attempt key _ r
      · exact Adds.modify _ _
  | _ => exact absurd trivial hdocument

/-!
# Nothing belongs to a later attempt
-/

/-- Every job and every receipt belongs to an attempt that was reached. -/
structure Bounded (r : DocumentRecord) : Prop where
  rows : forall key row, r.outbox.lookup key = some row -> key.1 ≤ r.document.attempt
  receipts : forall receipt, receipt ∈ r.receipts -> receipt.1 ≤ r.document.attempt

theorem bounded_of_adds {keys : JobKey -> Prop} {r r' : DocumentRecord} (h : Adds keys r r')
    (hattempt : r.document.attempt ≤ r'.document.attempt) (hr : Bounded r) : Bounded r' where
  rows := by
    intro key row' hrow'
    rcases h.rows key row' hrow' with ⟨row, hrow⟩ | hkey
    · exact Nat.le_trans (hr.rows key row hrow) hattempt
    · exact Nat.le_of_eq hkey
  receipts := by
    intro receipt hmem
    rcases h.receipts receipt hmem with hold | ⟨hkey, _⟩
    · exact Nat.le_trans (hr.receipts receipt hold) hattempt
    · exact Nat.le_of_eq hkey

theorem bounded_apply (now : Time) (e : DocumentOp) {r : DocumentRecord} (hr : Bounded r) :
    Bounded (e.apply now r).record :=
  bounded_of_adds (adds_apply now e r) (advances_apply now e r).attempt hr

theorem bounded_bare (now : Time) (d : Document) :
    Bounded ((bare d).recordDocumentChange now none).record := by
  have hadds : Adds (fun _ => False) (bare d)
      ((bare d).recordDocumentChange now none).record :=
    Adds.recordDocumentChange now none (bare d)
  apply bounded_of_adds hadds
  · rw [document_recordDocumentChange]
  · constructor
    · intro key row hrow
      cases hrow
    · intro receipt hmem
      cases hmem

theorem bounded_created {now : Time} {db : Database} {id : Uuid} {op : Operation}
    {r : DocumentRecord} (hcreated : Operation.Created now db id op r) : Bounded r := by
  have hput : forall (versionId : Uuid) (work : Work) (s : DocumentRecord),
      s.document.attempt = 1 -> Bounded s -> Bounded (s.putTx now versionId 1 work) := by
    intro versionId work s hattempt hs
    have hadds : Adds (fun _ => False) s (s.putTx now versionId 1 work) :=
      Adds.putTx now versionId work hattempt
    exact bounded_of_adds hadds (Nat.le_refl _) hs
  cases hcreated with
  | inserted versionId kind passages =>
      exact bounded_bare now _
  | cloned sourceId versionId copyKeep sourceHadWiki rename source hsource =>
      unfold Database.clonedRecord
      dsimp only
      split
      · have hattempt : forall d : Document, d.attempt = 1 ->
            ((bare d).recordDocumentChange now none).record.document.attempt = 1 := by
          intro d hd
          rw [document_recordDocumentChange]
          exact hd
        split
        · exact hput versionId _ _ (hattempt _ rfl)
            (hput versionId _ _ (hattempt _ rfl) (bounded_bare now _))
        · exact hput versionId _ _ (hattempt _ rfl) (bounded_bare now _)
      · exact bounded_bare now _

end DocumentRecord

end Workflow
end KnowledgeBrain
