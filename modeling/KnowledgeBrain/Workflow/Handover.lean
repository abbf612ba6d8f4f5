import KnowledgeBrain.Workflow.Attempts
import KnowledgeBrain.Workflow.Stages

/-!
# The stage of a document

The abstract stage of the current attempt, read off the rows of a document, and
what each part of a transaction does to it.
-/

namespace KnowledgeBrain
namespace Workflow

open Foundation

theorem Work.isDerived_key (work : Work) : work.key.isDerived = work.derived := by
  cases work <;> rfl

namespace DocumentRecord

/-- The state of a job of the current attempt. -/
def jobState (r : DocumentRecord) (k : JobKey) : Option OutboxState :=
  (r.outbox.lookup (r.document.attempt, k)).map OutboxRow.state

/-- The reconcile row is no job of the workflow and is left out. -/
def stage (r : DocumentRecord) : Stage where
  status := r.document.parseStatus
  summary := r.document.summaryStatus
  clear := r.document.errorMessage.getD "" = ""
  rows := {k | k ≠ .reconcile ∧ r.jobState k ≠ none}
  complete := {k | k ≠ .reconcile ∧ r.jobState k = some .complete}
  failed := {k | k ≠ .reconcile ∧ r.jobState k = some .failed}
  receipts := {k | (r.document.attempt, k) ∈ r.receipts}

variable {k : JobKey}

theorem jobState_ne_none {r : DocumentRecord} :
    r.jobState k ≠ none <-> exists row, r.outbox.lookup (r.document.attempt, k) = some row := by
  unfold jobState
  cases r.outbox.lookup (r.document.attempt, k) with
  | none => simp
  | some row => simp

theorem complete_subset_rows (r : DocumentRecord) : r.stage.complete ⊆ r.stage.rows := by
  intro k hk
  refine ⟨hk.1, ?_⟩
  rw [hk.2]
  simp

theorem failed_subset_rows (r : DocumentRecord) : r.stage.failed ⊆ r.stage.rows := by
  intro k hk
  refine ⟨hk.1, ?_⟩
  rw [hk.2]
  simp

theorem mem_receipts_stage {r : DocumentRecord} :
    k ∈ r.stage.receipts <-> r.hasReceipt r.document.attempt k = true := by
  unfold hasReceipt
  rw [List.contains_iff_mem]
  rfl

theorem isDerived_of_wellKeyed {key : Nat × JobKey} {row : OutboxRow}
    (h : WellKeyed key row) : row.isDerived = key.2.isDerived := by
  obtain ⟨hkey, hderived⟩ := h
  rw [hderived, ← hkey]
  cases row.payload <;> rfl

theorem isImage_of_wellKeyed {key : Nat × JobKey} {row : OutboxRow}
    (h : WellKeyed key row) : row.payload.isImage = key.2.isImage := by
  rw [← h.1]
  cases row.payload <;> rfl

/-- A derived job waits exactly when the counter is not zero. -/
theorem derivedWaits_iff {r : DocumentRecord} (hkeyed : RowsWellKeyed r) :
    r.stage.DerivedWaits <-> r.unfinishedDerived r.document.attempt ≠ 0 := by
  rw [Ne, unfinishedDerived_eq_zero]
  constructor
  · rintro ⟨k, ⟨hne, hrow⟩, hderived, hwait⟩ hdone
    obtain ⟨row, hrow⟩ := jobState_ne_none.mp hrow
    apply hwait
    refine ⟨hne, ?_⟩
    unfold jobState
    rw [hrow]
    have hflag : row.isDerived = true := (isDerived_of_wellKeyed (hkeyed _ _ hrow)).trans hderived
    simp [hdone k row hrow hflag]
  · intro hnot
    unfold DerivedDone at hnot
    push Not at hnot
    obtain ⟨k, row, hrow, hflag, hstate⟩ := hnot
    have hderived : k.isDerived = true :=
      (isDerived_of_wellKeyed (hkeyed _ _ hrow)).symm.trans hflag
    have hne : k ≠ .reconcile := by
      rintro rfl
      cases hderived
    refine ⟨k, ⟨hne, jobState_ne_none.mpr ⟨row, hrow⟩⟩, hderived, ?_⟩
    rintro ⟨_, hcomplete⟩
    unfold jobState at hcomplete
    rw [hrow] at hcomplete
    exact hstate (Option.some.inj hcomplete)

/-- An image job waits exactly when `complete_tx` sees one. -/
theorem imageWaits_iff {r : DocumentRecord} (hkeyed : RowsWellKeyed r) :
    r.stage.ImageWaits <-> r.imageWaiting r.document.attempt = true := by
  unfold imageWaiting
  rw [Table.any_eq_true]
  constructor
  · rintro ⟨k, ⟨hne, hrow⟩, himage, hwait⟩
    obtain ⟨row, hrow⟩ := jobState_ne_none.mp hrow
    refine ⟨_, row, hrow, ?_⟩
    have hpayload := (isImage_of_wellKeyed (hkeyed _ _ hrow)).trans himage
    have hstate : row.state ≠ .complete := by
      intro hstate
      apply hwait
      refine ⟨hne, ?_⟩
      unfold jobState
      rw [hrow]
      simp [hstate]
    simp [hpayload, hstate]
  · rintro ⟨⟨attempt, k⟩, row, hrow, hp⟩
    simp only [Bool.and_eq_true, beq_iff_eq, bne_iff_ne, ne_eq] at hp
    obtain ⟨⟨hattempt, hpayload⟩, hstate⟩ := hp
    subst hattempt
    have himage : k.isImage = true :=
      (isImage_of_wellKeyed (hkeyed _ _ hrow)).symm.trans hpayload
    have hne : k ≠ .reconcile := by
      rintro rfl
      cases himage
    refine ⟨k, ⟨hne, jobState_ne_none.mpr ⟨row, hrow⟩⟩, himage, ?_⟩
    rintro ⟨_, hcomplete⟩
    unfold jobState at hcomplete
    rw [hrow] at hcomplete
    exact hstate (Option.some.inj hcomplete)

/-!
# Steps that keep the jobs
-/

theorem sameJobs_of_jobState {r r' : DocumentRecord}
    (hstates : forall k, k ≠ .reconcile -> r'.jobState k = r.jobState k)
    (hattempt : r'.document.attempt = r.document.attempt)
    (hreceipts : r'.receipts = r.receipts) : r.stage.SameJobs r'.stage where
  rows := by
    ext k
    constructor
    · rintro ⟨hne, hrow⟩
      exact ⟨hne, by rwa [← hstates k hne]⟩
    · rintro ⟨hne, hrow⟩
      exact ⟨hne, by rwa [hstates k hne]⟩
  complete := by
    ext k
    constructor
    · rintro ⟨hne, hrow⟩
      exact ⟨hne, by rwa [← hstates k hne]⟩
    · rintro ⟨hne, hrow⟩
      exact ⟨hne, by rwa [hstates k hne]⟩
  failed := by
    ext k
    constructor
    · rintro ⟨hne, hrow⟩
      exact ⟨hne, by rwa [← hstates k hne]⟩
    · rintro ⟨hne, hrow⟩
      exact ⟨hne, by rwa [hstates k hne]⟩
  receipts := by
    unfold stage
    dsimp only
    rw [hattempt, hreceipts]

theorem jobState_recordDocumentChange {now : Time} {old : DocumentState} {r : DocumentRecord}
    (hattempt : old.attempt = r.document.attempt)
    (hstatus : r.document.parseStatus.isTerminal = false) (hk : k ≠ .reconcile) :
    (recordDocumentChange now (some old) r).record.jobState k = r.jobState k := by
  unfold jobState
  rw [document_recordDocumentChange, lookup_recordDocumentChange_of_same hattempt hstatus hk]

theorem sameJobs_recordDocumentChange {now : Time} {old : DocumentState} {r : DocumentRecord}
    (hattempt : old.attempt = r.document.attempt)
    (hstatus : r.document.parseStatus.isTerminal = false) :
    r.stage.SameJobs (recordDocumentChange now (some old) r).record.stage :=
  sameJobs_of_jobState (fun _ hk => jobState_recordDocumentChange hattempt hstatus hk)
    (by rw [document_recordDocumentChange]) (receipts_recordDocumentChange now _ r)

variable {f : Document -> Document}

theorem sameJobs_updateDocument (now : Time) {r : DocumentRecord}
    (hattempt : (f r.document).attempt = r.document.attempt)
    (hstatus : (f r.document).parseStatus.isTerminal = false) :
    r.stage.SameJobs (r.updateDocument now f).record.stage := by
  have hedit : r.stage.SameJobs ({ r with document := f r.document } : DocumentRecord).stage := by
    refine sameJobs_of_jobState ?_ hattempt rfl
    intro k _
    unfold jobState
    rw [hattempt]
  exact hedit.trans (sameJobs_recordDocumentChange hattempt.symm hstatus)

/-- An edit that stops the document keeps its jobs and receipts; a terminal one
completes the jobs. -/
theorem flow_updateDocument_of_idle (now : Time) {r : DocumentRecord}
    (hattempt : (f r.document).attempt = r.document.attempt)
    (hidle : (f r.document).parseStatus.isWorking = false)
    (hterminal : (f r.document).parseStatus.isTerminal = false ->
      r.document.parseStatus.isTerminal = false)
    (hr : r.stage.Flow) : (r.updateDocument now f).record.stage.Flow := by
  have hstatus : (r.updateDocument now f).record.stage.status = (f r.document).parseStatus := by
    change (r.updateDocument now f).record.document.parseStatus = _
    rw [document_updateDocument]
  cases hstop : (f r.document).parseStatus.isTerminal with
  | false =>
      have hjobs := sameJobs_updateDocument now hattempt hstop
      apply Stage.flow_halt hjobs.rows hjobs.receipts _ _ hr.tidy
      · rw [hstatus]
        exact hidle
      · intro _
        rw [hjobs.complete, hjobs.receipts]
        exact hr.tidy.closed (hterminal hstop)
  | true =>
      apply Stage.flow_halt _ _ _ _ hr.tidy
      · ext k
        change (k ≠ .reconcile ∧ (r.updateDocument now f).record.jobState k ≠ none) <->
          (k ≠ .reconcile ∧ r.jobState k ≠ none)
        apply and_congr_right
        intro hk
        unfold jobState updateDocument
        rw [document_recordDocumentChange, lookup_recordDocumentChange_of_terminal hstop hk]
        dsimp only
        rw [hattempt]
        simp
      · unfold stage updateDocument
        rw [document_recordDocumentChange, receipts_recordDocumentChange]
        dsimp only
        rw [hattempt]
      · rw [hstatus]
        exact hidle
      · intro hcontra
        rw [hstatus, hstop] at hcontra
        cases hcontra

/-- A fresh attempt starts at its conversion. -/
theorem flow_updateDocument_of_restart (now : Time) {r : DocumentRecord}
    (hattempt : r.document.attempt < (f r.document).attempt)
    (hstatus : (f r.document).parseStatus = .pending)
    (hclear : (f r.document).errorMessage.getD "" = "") (hr : Bounded r) :
    (r.updateDocument now f).record.stage.Flow := by
  have hnorow : forall k, r.outbox.lookup ((f r.document).attempt, k) = none := by
    intro k
    cases hrow : r.outbox.lookup ((f r.document).attempt, k) with
    | none => rfl
    | some row =>
        have hle := hr.rows _ row hrow
        dsimp only at hle
        omega
  have hstates : forall k, k ≠ .reconcile ->
      (r.updateDocument now f).record.jobState k =
        if k = .convert then some .pending else none := by
    intro k hk
    have hchanged : r.document.attempt ≠ (f r.document).attempt := by omega
    unfold jobState updateDocument
    rw [document_recordDocumentChange, lookup_recordDocumentChange now _ _ hk]
    dsimp only
    by_cases hconvert : k = .convert
    · subst hconvert
      simp [recordedRow, hnorow, hstatus, attemptChanged, captureDocumentState, hchanged,
        OutboxRow.fresh]
    · simp [recordedRow, hnorow, hconvert]
  apply Stage.flow_restart
  · change (r.updateDocument now f).record.document.parseStatus = _
    rw [document_updateDocument]
    exact hstatus
  · change (r.updateDocument now f).record.document.errorMessage.getD "" = ""
    rw [document_updateDocument]
    exact hclear
  · ext k
    change (k ≠ .reconcile ∧ _) <-> _
    rw [Set.mem_singleton_iff]
    constructor
    · rintro ⟨hk, hrow⟩
      rw [hstates k hk] at hrow
      by_contra hne
      rw [if_neg hne] at hrow
      exact hrow rfl
    · rintro rfl
      exact ⟨by simp, by rw [hstates _ (by simp)]; simp⟩
  · apply Set.eq_empty_of_forall_notMem
    rintro k ⟨hk, hrow⟩
    rw [hstates k hk] at hrow
    split at hrow <;> cases hrow
  · apply Set.eq_empty_of_forall_notMem
    rintro k ⟨hk, hrow⟩
    rw [hstates k hk] at hrow
    split at hrow <;> cases hrow
  · apply Set.eq_empty_of_forall_notMem
    intro k hk
    change ((r.updateDocument now f).record.document.attempt, k) ∈
      (r.updateDocument now f).record.receipts at hk
    rw [document_updateDocument] at hk
    unfold updateDocument at hk
    rw [receipts_recordDocumentChange] at hk
    have hle := hr.receipts _ hk
    dsimp only at hle
    omega

/-!
# Handing a job in
-/

section Complete

variable (now : Time) {attempt : Nat} (key : JobKey) {r : DocumentRecord}

theorem document_addReceipt (attempt : Nat) :
    (r.addReceipt attempt key).document = r.document := rfl

theorem jobState_addReceipt (hattempt : r.document.attempt = attempt) (k : JobKey) :
    (r.addReceipt attempt key).jobState k =
      if k = key then (r.jobState k).map fun _ => .complete else r.jobState k := by
  subst hattempt
  unfold jobState
  rw [lookup_addReceipt, document_addReceipt]
  by_cases hk : k = key
  · simp [hk, Function.comp_def]
  · simp [hk]

/-- The receipt of the last image closes the image stage. -/
def ClosesImages (attempt : Nat) (key : JobKey) (r : DocumentRecord) : Prop :=
  key.isImage = true ∧ (r.addReceipt attempt key).imageWaiting attempt = false

/-- The states `complete_tx` leaves: the job is complete, and the last image
opens post-processing. -/
theorem jobState_received (hattempt : r.document.attempt = attempt) :
    (ClosesImages attempt key r ∧ k = .postprocess ∧
      (r.received now attempt key).jobState k = some ((r.jobState k).getD .pending)) ∨
    (¬ (ClosesImages attempt key r ∧ k = .postprocess) ∧
      (r.received now attempt key).jobState k = (r.addReceipt attempt key).jobState k) := by
  by_cases hcloses : ClosesImages attempt key r ∧ k = .postprocess
  · left
    obtain ⟨⟨himage, hwaiting⟩, rfl⟩ := hcloses
    refine ⟨⟨himage, hwaiting⟩, rfl, ?_⟩
    have hkey : JobKey.postprocess ≠ key := by
      rintro rfl
      cases himage
    have hsame := jobState_addReceipt key hattempt .postprocess
    rw [if_neg hkey] at hsame
    rw [← hsame]
    subst hattempt
    unfold received jobState
    rw [if_pos himage, document_closeImageStage, lookup_closeImageStage, document_addReceipt,
      if_pos ⟨⟨hwaiting, rfl⟩, rfl⟩]
    cases (r.addReceipt r.document.attempt key).outbox.lookup
        (r.document.attempt, .postprocess) with
    | none => rfl
    | some row => rfl
  · right
    refine ⟨hcloses, ?_⟩
    subst hattempt
    unfold received
    split
    · rename_i himage
      unfold jobState
      rw [document_closeImageStage, lookup_closeImageStage, if_neg]
      rintro ⟨⟨hwaiting, _⟩, heq⟩
      exact hcloses ⟨⟨himage, hwaiting⟩, (Prod.mk.inj heq).2⟩
    · rfl

/-- Recording the completion changes no job any more. -/
theorem jobState_completeTx (hattempt : r.document.attempt = attempt)
    (hfresh : r.hasReceipt attempt key = false)
    (hterminal : r.document.parseStatus.isTerminal = false) (hk : k ≠ .reconcile) :
    (r.completeTx now attempt key).1.record.jobState k =
      (r.received now attempt key).jobState k := by
  have hstatus : (r.completedDocument now attempt key).parseStatus.isTerminal = false := by
    rcases completedDocument_status now key hattempt with ⟨hsame, _⟩ | ⟨_, hcompleted, _⟩
    · rw [hsame]
      exact hterminal
    · rw [hcompleted]
      rfl
  have hreceived : forall d : Document, d.attempt = r.document.attempt ->
      ({ r.received now attempt key with document := d } : DocumentRecord).jobState k =
        (r.received now attempt key).jobState k := by
    intro d hd
    unfold jobState
    rw [document_received, hd]
  rw [completeTx_of_fresh now attempt key hfresh]
  dsimp only
  rw [← hreceived (r.completedDocument now attempt key) attempt_completedDocument]
  generalize hr2 : ({ r.received now attempt key with
    document := r.completedDocument now attempt key } : DocumentRecord) = r2
  have hdocument : r2.document = r.completedDocument now attempt key := by
    rw [← hr2]
  apply jobState_recordDocumentChange _ _ hk
  · rw [hdocument, attempt_completedDocument]
    rfl
  · rw [hdocument]
    exact hstatus

theorem receipts_completeTx (hfresh : r.hasReceipt attempt key = false) :
    (r.completeTx now attempt key).1.record.receipts = (attempt, key) :: r.receipts := by
  rw [completeTx_of_fresh now attempt key hfresh, receipts_recordDocumentChange]
  dsimp only
  rw [receipts_received]

/-- A fresh receipt finishes its job. -/
theorem finishes_completeTx (hkeyed : RowsWellKeyed r) (hattempt : r.document.attempt = attempt)
    (hfresh : r.hasReceipt attempt key = false)
    (hterminal : r.document.parseStatus.isTerminal = false) :
    Stage.Finishes key r.stage (r.completeTx now attempt key).1.record.stage ∧
      (key.isImage = false ->
        (r.completeTx now attempt key).1.record.stage.rows = r.stage.rows) := by
  have hrows : forall k, k ≠ .reconcile ->
      ((r.completeTx now attempt key).1.record.jobState k ≠ none <->
        r.jobState k ≠ none ∨ (ClosesImages attempt key r ∧ k = .postprocess)) := by
    intro k hk
    rw [jobState_completeTx now key hattempt hfresh hterminal hk]
    rcases jobState_received now key (k := k) hattempt with
      ⟨hcloses, rfl, hstate⟩ | ⟨hopen, hstate⟩
    · simp [hstate, hcloses]
    · rw [hstate, jobState_addReceipt key hattempt]
      by_cases hkey : k = key
      · simp [hkey, hkey ▸ hopen]
      · simp [hkey, hopen]
  have hcomplete : forall k, k ≠ .reconcile ->
      ((r.completeTx now attempt key).1.record.jobState k = some .complete <->
        r.jobState k = some .complete ∨ (k = key ∧ r.jobState k ≠ none)) := by
    intro k hk
    rw [jobState_completeTx now key hattempt hfresh hterminal hk]
    rcases jobState_received now key (k := k) hattempt with
      ⟨hcloses, rfl, hstate⟩ | ⟨hopen, hstate⟩
    · have hkey : JobKey.postprocess ≠ key := by
        rintro rfl
        cases hcloses.1
      rw [hstate]
      cases hrow : r.jobState .postprocess with
      | none => simp
      | some state => simp [hkey]
    · rw [hstate, jobState_addReceipt key hattempt]
      by_cases hkey : k = key
      · rw [if_pos hkey]
        cases hrow : r.jobState k with
        | none => simp
        | some state => simp [hkey]
      · simp [hkey]
  have hfailed : forall k, k ≠ .reconcile ->
      (r.completeTx now attempt key).1.record.jobState k = some .failed ->
        r.jobState k = some .failed := by
    intro k hk
    rw [jobState_completeTx now key hattempt hfresh hterminal hk]
    rcases jobState_received now key (k := k) hattempt with
      ⟨hcloses, rfl, hstate⟩ | ⟨hopen, hstate⟩
    · rw [hstate]
      cases hrow : r.jobState .postprocess with
      | none => simp
      | some state => simp
    · rw [hstate, jobState_addReceipt key hattempt]
      by_cases hkey : k = key
      · rw [if_pos hkey]
        cases hrow : r.jobState k with
        | none => simp
        | some state => simp
      · simp [hkey]
  have hattempt' : (r.completeTx now attempt key).1.record.document.attempt = attempt :=
    (document_completeTx_cases now attempt key r).1.trans hattempt
  refine ⟨⟨?_, ?_, ?_, ?_, ?_⟩, ?_⟩
  · ext k
    change ((r.completeTx now attempt key).1.record.document.attempt, k) ∈
      (r.completeTx now attempt key).1.record.receipts <->
        k = key ∨ (r.document.attempt, k) ∈ r.receipts
    rw [receipts_completeTx now key hfresh, hattempt', hattempt]
    simp
  · by_cases hcloses : ClosesImages attempt key r
    · right
      ext k
      rw [Set.mem_insert_iff]
      change (k ≠ .reconcile ∧ _) <-> k = .postprocess ∨ (k ≠ .reconcile ∧ _)
      by_cases hk : k = .reconcile
      · simp [hk]
      · simp [hk, hrows k hk, hcloses, or_comm]
    · left
      ext k
      change (k ≠ .reconcile ∧ _) <-> (k ≠ .reconcile ∧ _)
      apply and_congr_right
      intro hk
      simp [hrows k hk, hcloses]
  · ext k
    change (k ≠ .reconcile ∧ _) <-> (k ≠ .reconcile ∧ _) ∨ (k = key ∧ key ≠ .reconcile ∧ _)
    by_cases hk : k = .reconcile
    · subst hk
      simp only [ne_eq, not_true_eq_false, false_and, false_or, false_iff, not_and]
      intro hkey hne
      exact absurd hkey.symm hne
    · rw [hcomplete k hk]
      by_cases hkey : k = key
      · subst hkey
        simp [hk]
      · simp [hk, hkey]
  · rintro k ⟨hk, hstate⟩
    exact ⟨hk, hfailed k hk hstate⟩
  · intro himage
    by_cases hwaiting : (r.addReceipt attempt key).imageWaiting attempt = false
    · right
      exact ⟨by simp, (hrows _ (by simp)).mpr (Or.inr ⟨⟨himage, hwaiting⟩, rfl⟩)⟩
    · left
      rw [Bool.not_eq_false] at hwaiting
      have hkeyed1 := (Grows.addReceipt attempt key r).wellKeyed hkeyed
      have hwaits : (r.addReceipt attempt key).stage.ImageWaits := by
        apply (imageWaits_iff hkeyed1).mpr
        rw [document_addReceipt, hattempt]
        exact hwaiting
      obtain ⟨k, ⟨hk, hrow⟩, hkimage, hwait⟩ := hwaits
      have hsame : (r.completeTx now attempt key).1.record.jobState k =
          (r.addReceipt attempt key).jobState k := by
        rw [jobState_completeTx now key hattempt hfresh hterminal hk]
        rcases jobState_received now key (k := k) hattempt with
          ⟨hcloses, _, _⟩ | ⟨_, hstate⟩
        · rw [hcloses.2] at hwaiting
          cases hwaiting
        · exact hstate
      refine ⟨k, ⟨hk, by rwa [hsame]⟩, hkimage, ?_⟩
      rintro ⟨_, hstate⟩
      rw [hsame] at hstate
      exact hwait ⟨hk, hstate⟩
  · intro himage
    ext k
    change (k ≠ .reconcile ∧ _) <-> (k ≠ .reconcile ∧ _)
    apply and_congr_right
    intro hk
    simp [hrows k hk, ClosesImages, himage]

end Complete

end DocumentRecord

end Workflow
end KnowledgeBrain
