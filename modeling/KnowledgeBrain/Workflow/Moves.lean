import KnowledgeBrain.Workflow.Handover

/-!
# How transactions move a stage

One theorem for each kind of transaction: under the conditions its callers
establish, it moves the stage of its document in one of the ways `Stage.Flow`
survives.
-/

namespace KnowledgeBrain
namespace Workflow

open Foundation Stage

namespace DocumentRecord

/-!
# Recording and editing
-/

variable (now : Time)

theorem flow_recordDocumentChange {old : DocumentState} {r : DocumentRecord}
    (hattempt : old.attempt = r.document.attempt)
    (hstatus : r.document.parseStatus.isTerminal = false) (hr : r.stage.Flow) :
    (r.recordDocumentChange now (some old)).record.stage.Flow := by
  have hdocument := document_recordDocumentChange now (some old) r
  apply flow_stutter (sameJobs_recordDocumentChange hattempt hstatus) _ _ _ hr
  · change (recordDocumentChange now (some old) r).record.document.parseStatus = _
    rw [hdocument]
    rfl
  · intro hclear
    change (recordDocumentChange now (some old) r).record.document.errorMessage.getD "" = ""
    rw [hdocument]
    exact hclear
  · left
    change (recordDocumentChange now (some old) r).record.document.summaryStatus = _
    rw [hdocument]
    rfl

/-- An edit that keeps attempt, status and summary. -/
theorem flow_updateDocument_of_same {f : Document -> Document}
    {r : DocumentRecord} (hattempt : (f r.document).attempt = r.document.attempt)
    (hstatus : (f r.document).parseStatus = r.document.parseStatus)
    (hsummary : (f r.document).summaryStatus = r.document.summaryStatus)
    (hclear : r.document.errorMessage.getD "" = "" ->
      (f r.document).errorMessage.getD "" = "")
    (hr : r.stage.Flow) : (r.updateDocument now f).record.stage.Flow := by
  have hdocument := document_updateDocument now f r
  cases hworking : r.document.parseStatus.isWorking with
  | false =>
      apply flow_updateDocument_of_idle now hattempt _ _ hr
      · rw [hstatus]
        exact hworking
      · rw [hstatus]
        exact id
  | true =>
      have hterminal : (f r.document).parseStatus.isTerminal = false := by
        rw [hstatus]
        cases hs : r.document.parseStatus <;> rw [hs] at hworking <;>
          first | rfl | cases hworking
      apply flow_stutter (sameJobs_updateDocument now hattempt hterminal) _ _ _ hr
      · change (r.updateDocument now f).record.document.parseStatus = _
        rw [hdocument]
        exact hstatus
      · intro hold
        change (r.updateDocument now f).record.document.errorMessage.getD "" = ""
        rw [hdocument]
        exact hclear hold
      · left
        change (r.updateDocument now f).record.document.summaryStatus = _
        rw [hdocument]
        exact hsummary

theorem flow_onlySpans {r r' : DocumentRecord} (h : OnlySpans r r') (hr : r.stage.Flow) :
    r'.stage.Flow := by
  obtain ⟨at', hdocument⟩ := h.document
  have hstage : r'.stage = r.stage := by
    unfold stage jobState
    rw [hdocument, h.outbox, h.receipts]
  rw [hstage]
  exact hr

theorem isTerminal_of_isWorking {status : ParseStatus} (hworking : status.isWorking = true) :
    status.isTerminal = false := by
  cases status <;> first | rfl | cases hworking

theorem isWorking_of_lockCurrent {attempt : Nat} {r : DocumentRecord}
    (hlock : r.lockCurrent attempt = true) : r.document.parseStatus.isWorking = true := by
  simp only [lockCurrent, Bool.and_eq_true] at hlock
  exact hlock.2

theorem isTerminal_of_lockOpen {attempt : Nat} {r : DocumentRecord}
    (hlock : r.lockOpen attempt = true) : r.document.parseStatus.isTerminal = false := by
  simp only [lockOpen, Bool.and_eq_true] at hlock
  cases hs : r.document.parseStatus <;> rw [hs] at hlock <;> first | rfl | cases hlock.2

theorem attempt_of_lockOpen {attempt : Nat} {r : DocumentRecord}
    (hlock : r.lockOpen attempt = true) : r.document.attempt = attempt := by
  simp only [lockOpen, Bool.and_eq_true, beq_iff_eq] at hlock
  exact hlock.1.1

/-!
# Handing jobs in
-/

section Complete

variable {attempt : Nat} (key : JobKey) {r : DocumentRecord}

theorem error_completedDocument :
    (r.completedDocument now attempt key).errorMessage = r.document.errorMessage := by
  rw [completedDocument_eq]
  dsimp only
  split_ifs <;> rfl

/-- The document after a fresh receipt: published, or not drained. -/
theorem status_completeTx (hkeyed : RowsWellKeyed r) (hattempt : r.document.attempt = attempt)
    (hfresh : r.hasReceipt attempt key = false)
    (hterminal : r.document.parseStatus.isTerminal = false) :
    let s := (r.completeTx now attempt key).1.record.stage
    s.summary = r.stage.summary ∧ (s.clear <-> r.stage.clear) ∧
      ((s.status = r.stage.status ∧
          (s.status = .finalizing -> s.DerivedWaits ∨ s.summary.isUnsettled = true ∨
            ¬ s.clear)) ∨ s.status = .completed) := by
  have hdocument : (r.completeTx now attempt key).1.record.document =
      r.completedDocument now attempt key := by
    rw [document_completeTx, hfresh]
    rfl
  have hjobs : (r.received now attempt key).stage.SameJobs
      (r.completeTx now attempt key).1.record.stage := by
    apply sameJobs_of_jobState
    · intro k hk
      exact jobState_completeTx now key hattempt hfresh hterminal hk
    · rw [hdocument, attempt_completedDocument, document_received]
    · rw [receipts_completeTx now key hfresh, receipts_received]
  have hwaits : (r.completeTx now attempt key).1.record.stage.DerivedWaits <->
      (r.received now attempt key).unfinishedDerived attempt ≠ 0 := by
    rw [hjobs.derivedWaits,
      derivedWaits_iff ((Grows.received now attempt key r).wellKeyed hkeyed),
      document_received, hattempt]
  refine ⟨?_, ?_, ?_⟩
  · change (r.completeTx now attempt key).1.record.document.summaryStatus = _
    rw [hdocument, summary_completedDocument]
    rfl
  · change (r.completeTx now attempt key).1.record.document.errorMessage.getD "" = "" <-> _
    rw [hdocument, error_completedDocument]
    rfl
  · rw [hwaits]
    change ((r.completeTx now attempt key).1.record.document.parseStatus =
        r.document.parseStatus ∧
      ((r.completeTx now attempt key).1.record.document.parseStatus = .finalizing ->
        _ ∨ (r.completeTx now attempt key).1.record.document.summaryStatus.isUnsettled = true ∨
          ¬ (r.completeTx now attempt key).1.record.document.errorMessage.getD "" = "")) ∨
      (r.completeTx now attempt key).1.record.document.parseStatus = .completed
    rw [hdocument, completedDocument_eq]
    simp only [hattempt, if_true]
    split
    · exact Or.inr rfl
    · rename_i hdrained
      refine Or.inl ⟨rfl, ?_⟩
      intro hfinal
      dsimp only at hfinal ⊢
      simp only [drained, hfinal, beq_self_eq_true, Bool.true_and, Bool.and_eq_true,
        beq_iff_eq, Bool.not_eq_true'] at hdrained
      by_cases hcount : (r.received now attempt key).unfinishedDerived attempt = 0
      · right
        cases hsummary : r.document.summaryStatus.isUnsettled with
        | true => exact Or.inl rfl
        | false => exact Or.inr fun herror => hdrained ⟨⟨hcount, hsummary⟩, herror⟩
      · exact Or.inl hcount

theorem tidy_completeTx (hkeyed : RowsWellKeyed r) (hattempt : r.document.attempt = attempt)
    (hkey : Stage.Routine key) (hrow : key.isImage = true -> key ∈ r.stage.rows)
    (hterminal : r.document.parseStatus.isTerminal = false) (hr : r.stage.Tidy) :
    (r.completeTx now attempt key).1.record.stage.Tidy := by
  cases hfresh : r.hasReceipt attempt key with
  | true =>
      rw [completeTx_of_receipt now attempt key hfresh]
      exact hr
  | false =>
      obtain ⟨hfinishes, hkept⟩ := finishes_completeTx now key hkeyed hattempt hfresh hterminal
      apply hfinishes.tidy hkey hterminal _ hr
      intro hne
      by_contra hopen
      cases himage : key.isImage with
      | false => exact hne (hkept himage)
      | true => exact hkey.1 ((hr.converting hopen).2 key (hrow himage))

/-- A routine job is handed in; a summary has been stored before. -/
theorem flow_completeTx (hkeyed : RowsWellKeyed r) (hattempt : r.document.attempt = attempt)
    (hkey : Stage.Routine key) (hrow : key.isImage = true -> key ∈ r.stage.rows)
    (hworking : r.document.parseStatus.isWorking = true)
    (hsummary : key = .summary -> r.document.summaryStatus = .completed)
    (hr : r.stage.Flow) : (r.completeTx now attempt key).1.record.stage.Flow := by
  have hterminal := isTerminal_of_isWorking hworking
  cases hfresh : r.hasReceipt attempt key with
  | true =>
      rw [completeTx_of_receipt now attempt key hfresh]
      exact hr
  | false =>
      obtain ⟨hfinishes, hkept⟩ := finishes_completeTx now key hkeyed hattempt hfresh hterminal
      obtain ⟨hsame, hclear, ⟨hstatus, hdrained⟩ | hpublished⟩ :=
        status_completeTx now key hkeyed hattempt hfresh hterminal
      · apply flow_finish hfinishes hkey hrow hkept hstatus hworking hclear _ hdrained hr
        rw [hsame]
        split
        · rename_i heq
          exact hsummary heq
        · rfl
      · apply flow_of_tidy
        · rw [hpublished]
          rfl
        · exact tidy_completeTx now key hkeyed hattempt hkey hrow hterminal hr.tidy

end Complete

/-!
# Committing chunks
-/

theorem stage_storeSummary (key : JobKey) (status : SummaryStatus) (description : String)
    (r : DocumentRecord) :
    ({ r with document := storeSummary key status description r.document } :
        DocumentRecord).stage =
      { r.stage with summary := if key = .summary then status else r.stage.summary } := by
  unfold storeSummary
  by_cases hkey : key = .summary
  · simp only [hkey, beq_self_eq_true, if_true]
    rfl
  · have hbeq : (key == JobKey.summary) = false := by simpa using hkey
    simp only [hbeq, hkey, if_false, Bool.false_eq_true]

theorem flow_storeSummary {key : JobKey} {status : SummaryStatus} (description : String)
    {r : DocumentRecord} (hstatus : key = .summary -> status = .completed)
    (hr : r.stage.Flow) :
    ({ r with document := storeSummary key status description r.document } :
      DocumentRecord).stage.Flow := by
  rw [stage_storeSummary]
  refine flow_stutter (s := r.stage) ?_ ?_ id ?_ hr
  · exact ⟨rfl, rfl, rfl, rfl⟩
  · rfl
  dsimp only
  by_cases hkey : key = .summary
  · rw [if_pos hkey]
    exact Or.inr (hstatus hkey)
  · rw [if_neg hkey]
    exact Or.inl rfl

theorem flow_commitChunksRecord {attempt : Nat} {key : JobKey} {status : SummaryStatus}
    (description : String) (finish : Bool) {r : DocumentRecord} (hkeyed : RowsWellKeyed r)
    (hlock : r.lockCurrent attempt = true) (hkey : Stage.Routine key)
    (hrow : key.isImage = true -> key ∈ r.stage.rows)
    (hsettled : key = .summary -> status = .completed ∨ status = .failed) (hr : r.stage.Flow) :
    (r.commitChunksRecord now attempt key status description finish).record.stage.Flow := by
  have hattempt := attempt_of_lockCurrent hlock
  have hworking := isWorking_of_lockCurrent hlock
  have hstage1 := stage_storeSummary key status description r
  unfold commitChunksRecord
  dsimp only [Change.andThen]
  generalize hr1 : ({ r with
    document := storeSummary key status description r.document } : DocumentRecord) = r1
  rw [hr1] at hstage1
  have hkeyed1 : RowsWellKeyed r1 := by
    rw [← hr1]
    exact (Grows.withDocument r _).wellKeyed hkeyed
  have hattempt1 : r1.document.attempt = r.document.attempt := by
    rw [← hr1]
    unfold storeSummary
    dsimp only
    split <;> rfl
  have hstatus1 : r1.document.parseStatus = r.document.parseStatus :=
    congrArg Stage.status hstage1
  have hworking1 : r1.document.parseStatus.isWorking = true := by
    rw [hstatus1]
    exact hworking
  have hterminal1 := isTerminal_of_isWorking hworking1
  have hrow1 : key.isImage = true -> key ∈ r1.stage.rows := by
    rw [hstage1]
    exact hrow
  have htidy1 : r1.stage.Tidy := by
    rw [hstage1]
    exact Stage.SameJobs.tidy (s := r.stage) ⟨rfl, rfl, rfl, rfl⟩ id hr.tidy
  generalize hc : (if finish then (r1.completeTx now attempt key).1
    else Change.unchanged r1) = c
  have hattempt2 : c.record.document.attempt = r1.document.attempt := by
    rw [← hc]
    split
    · exact (document_completeTx_cases now attempt key r1).1
    · rfl
  have hterminal2 : c.record.document.parseStatus.isTerminal = false := by
    rw [← hc]
    split
    · rcases (document_completeTx_cases now attempt key r1).2.2 with ⟨hsame, _⟩ | ⟨_, hdone, _⟩
      · rw [hsame]
        exact hterminal1
      · rw [hdone]
        rfl
    · exact hterminal1
  have htidy2 : c.record.stage.Tidy := by
    rw [← hc]
    split
    · exact tidy_completeTx now key hkeyed1 (hattempt1.trans hattempt) hkey hrow1 hterminal1
        htidy1
    · exact htidy1
  by_cases hfails : key = .summary ∧ status = .failed
  · have hdocument : failSummary key status c.record.document =
        { c.record.document with
          parseStatus := .failed, errorMessage := some summaryFailure } := by
      unfold failSummary
      simp [hfails.1, hfails.2]
    apply flow_recordDocumentChange
    · dsimp only
      rw [hdocument]
      exact (hattempt2.trans hattempt1).symm
    · dsimp only
      rw [hdocument]
      rfl
    · apply flow_halt _ _ _ _ htidy2
      · unfold stage jobState
        dsimp only
        rw [hdocument]
      · unfold stage
        dsimp only
        rw [hdocument]
      · unfold stage
        dsimp only
        rw [hdocument]
        rfl
      · intro _
        unfold stage jobState
        dsimp only
        rw [hdocument]
        exact htidy2.closed hterminal2
  · have hdocument : failSummary key status c.record.document = c.record.document := by
      unfold failSummary
      rw [if_neg]
      simpa using hfails
    have hcompleted : key = .summary -> status = .completed := by
      intro heq
      rcases hsettled heq with hdone | hfailed
      · exact hdone
      · exact absurd ⟨heq, hfailed⟩ hfails
    have hflow1 : r1.stage.Flow := by
      rw [← hr1]
      exact flow_storeSummary description hcompleted hr
    have hflow2 : c.record.stage.Flow := by
      rw [← hc]
      split
      · apply flow_completeTx now key hkeyed1 (hattempt1.trans hattempt) hkey hrow1 hworking1 _
          hflow1
        intro heq
        have hsummary1 := congrArg Stage.summary hstage1
        dsimp only at hsummary1
        rw [if_pos heq, hcompleted heq] at hsummary1
        exact hsummary1
      · exact hflow1
    rw [hdocument]
    apply flow_recordDocumentChange now _ hterminal2 hflow2
    exact (hattempt2.trans hattempt1).symm

/-!
# Putting jobs
-/

/-- Jobs were put: rows that were there stay, new rows are pending jobs of the
list, and the document is the same. -/
structure Opens (keys : List JobKey) (r r' : DocumentRecord) : Prop where
  document : r'.document = r.document
  receipts : r'.receipts = r.receipts
  kept : forall k, r.jobState k ≠ none -> r'.jobState k = r.jobState k
  fresh : forall k, r.jobState k = none -> r'.jobState k =
    if k ∈ keys then some .pending else none

theorem opens_putAll (versionId : Uuid) {attempt : Nat} (work : List Work) {r : DocumentRecord}
    (hattempt : r.document.attempt = attempt) :
    Opens (work.map Work.key) r (r.putAll now versionId attempt work) where
  document := document_putAll now versionId attempt work r
  receipts := receipts_putAll now versionId attempt work r
  kept := by
    intro k hk
    obtain ⟨row, hrow⟩ := jobState_ne_none.mp hk
    unfold jobState
    rw [document_putAll, hrow, lookup_putAll_of_some now versionId attempt work hrow]
  fresh := by
    intro k hk
    subst hattempt
    have hnone : r.outbox.lookup (r.document.attempt, k) = none := by
      simpa [jobState] using hk
    unfold jobState
    rw [document_putAll]
    by_cases hmem : k ∈ work.map Work.key
    · rw [if_pos hmem]
      obtain ⟨w, hw, rfl⟩ := List.mem_map.mp hmem
      obtain ⟨row, hrow⟩ := lookup_putAll_of_mem now versionId r.document.attempt hw r
      rw [hrow]
      rcases lookup_putAll_cases now versionId r.document.attempt hrow with
        hold | ⟨w', _, _, hfresh⟩
      · rw [hnone] at hold
        cases hold
      · rw [hfresh]
        rfl
    · rw [if_neg hmem]
      cases hrow : (r.putAll now versionId r.document.attempt work).outbox.lookup
          (r.document.attempt, k) with
      | none => rfl
      | some row =>
          rcases lookup_putAll_cases now versionId r.document.attempt hrow with
            hold | ⟨w', hw', hkey, _⟩
          · rw [hnone] at hold
            cases hold
          · exact absurd (List.mem_map.mpr ⟨w', hw', (Prod.mk.inj hkey).2.symm⟩) hmem

namespace Opens

variable {keys : List JobKey} {r r' : DocumentRecord}

theorem mem_rows (h : Opens keys r r') {k : JobKey} :
    k ∈ r'.stage.rows <-> k ∈ r.stage.rows ∨ (k ≠ .reconcile ∧ k ∈ keys) := by
  change (k ≠ .reconcile ∧ r'.jobState k ≠ none) <-> (k ≠ .reconcile ∧ _) ∨ _
  by_cases hrow : r.jobState k = none
  · rw [h.fresh k hrow]
    by_cases hkey : k ∈ keys
    · simp [hrow, hkey]
    · simp [hrow, hkey]
  · rw [h.kept k hrow]
    constructor
    · exact Or.inl
    · rintro (hold | ⟨hk, _⟩)
      · exact hold
      · exact ⟨hk, hrow⟩

theorem complete (h : Opens keys r r') : r'.stage.complete = r.stage.complete := by
  ext k
  change (k ≠ .reconcile ∧ r'.jobState k = some .complete) <->
    (k ≠ .reconcile ∧ r.jobState k = some .complete)
  by_cases hrow : r.jobState k = none
  · rw [h.fresh k hrow, hrow]
    split <;> simp
  · rw [h.kept k hrow]

theorem failed (h : Opens keys r r') : r'.stage.failed = r.stage.failed := by
  ext k
  change (k ≠ .reconcile ∧ r'.jobState k = some .failed) <->
    (k ≠ .reconcile ∧ r.jobState k = some .failed)
  by_cases hrow : r.jobState k = none
  · rw [h.fresh k hrow, hrow]
    split <;> simp
  · rw [h.kept k hrow]

theorem receipts_stage (h : Opens keys r r') : r'.stage.receipts = r.stage.receipts := by
  unfold stage
  dsimp only
  rw [h.document, h.receipts]

end Opens

/-- Post-processing plans the derived jobs. -/
theorem flow_beginPostprocess (versionId : Uuid) {attempt : Nat} {work : List Work}
    {r : DocumentRecord} (hkeyed : RowsWellKeyed r)
    (hrow : exists row, r.outbox.lookup (attempt, .postprocess) = some row)
    (hwork : forall w, w ∈ work -> w.derived = true) (hr : r.stage.Flow) :
    (r.beginPostprocess now versionId attempt work).1.record.stage.Flow := by
  unfold beginPostprocess
  split
  · exact hr
  rename_i hlock
  rw [Bool.not_eq_true', Bool.not_eq_false] at hlock
  have hattempt := attempt_of_lockCurrent hlock
  split
  · exact hr
  rename_i hprocessing
  have hstatus : r.document.parseStatus = .processing := by simpa using hprocessing
  have hworking := isWorking_of_lockCurrent hlock
  have hterminal := isTerminal_of_isWorking hworking
  have hbusy := hr.busy hworking
  have hunplanned : JobKey.postprocess ∉ r.stage.receipts := by
    apply (hbusy.converted _).1
    change r.document.parseStatus ≠ .finalizing
    rw [hstatus]
    simp
  have hpost : JobKey.postprocess ∈ r.stage.rows := by
    refine ⟨by simp, jobState_ne_none.mpr ?_⟩
    rw [hattempt]
    exact hrow
  have hopens := opens_putAll now versionId work hattempt
  have hderived : forall k, k ∈ work.map Work.key -> k.isDerived = true := by
    intro k hk
    obtain ⟨w, hw, rfl⟩ := List.mem_map.mp hk
    rw [Work.isDerived_key]
    exact hwork w hw
  dsimp only [Change.andThen]
  generalize hr2 : ({ r.putAll now versionId attempt work with
    document := enterFinalizing now work (r.putAll now versionId attempt work).document } :
      DocumentRecord) = r2
  have hstage2 : r2.stage = { (r.putAll now versionId attempt work).stage with
      status := .finalizing
      summary := if work.contains .summary then .pending else .none } := by
    rw [← hr2]
    rfl
  have hkeyed2 : RowsWellKeyed r2 := by
    rw [← hr2]
    exact ((Grows.putAll now versionId attempt work r).trans (Grows.withDocument _ _)).wellKeyed
      hkeyed
  have hattempt2 : r2.document.attempt = attempt := by
    rw [← hr2]
    simpa [enterFinalizing] using hattempt
  have hterminal2 : r2.document.parseStatus.isTerminal = false := by
    rw [← hr2]
    rfl
  have hreceipts2 : r2.stage.receipts = r.stage.receipts := by
    rw [hstage2]
    exact hopens.receipts_stage
  have hfresh : r2.hasReceipt attempt .postprocess = false := by
    rw [← Bool.not_eq_true]
    intro hreceipt
    apply hunplanned
    rw [← hreceipts2]
    apply mem_receipts_stage.mpr
    rw [hattempt2]
    exact hreceipt
  obtain ⟨hfinishes, hkept⟩ := finishes_completeTx now .postprocess hkeyed2 hattempt2 hfresh
    hterminal2
  obtain ⟨hsummary, hclear, houtcome⟩ :=
    status_completeTx now .postprocess hkeyed2 hattempt2 hfresh hterminal2
  have hdocument := document_completeTx_cases now attempt .postprocess r2
  generalize hc : (r2.completeTx now attempt .postprocess).1.record = c at *
  have hrows : forall k, k ∈ c.stage.rows <->
      k ∈ r.stage.rows ∨ (k ≠ .reconcile ∧ k ∈ work.map Work.key) := by
    intro k
    rw [hkept rfl, hstage2]
    exact hopens.mem_rows
  have hplans : r.stage.Plans c.stage := by
    refine ⟨?_, ?_, ?_, ?_⟩
    · rw [hfinishes.receipts, hreceipts2]
    · intro k hk
      exact (hrows k).mpr (Or.inl hk)
    · rw [hfinishes.complete, hstage2]
      dsimp only
      rw [hopens.complete]
      rintro k (hold | ⟨heq, _⟩)
      · exact Or.inl hold
      · exact Or.inr heq
    · apply Set.eq_empty_of_subset_empty
      rw [← hbusy.sound, ← hopens.failed]
      have hfailed := hfinishes.failed
      rw [hstage2] at hfailed
      exact hfailed
  have hconvert : JobKey.convert ∈ c.stage.rows -> JobKey.convert ∈ r.stage.rows := by
    intro hconvert
    rcases (hrows _).mp hconvert with hold | ⟨_, hput⟩
    · exact hold
    · have hfalse := hderived _ hput
      cases hfalse
  have hclear2 : r2.stage.clear <-> r.stage.clear := by
    rw [hstage2]
    change (r.putAll now versionId attempt work).document.errorMessage.getD "" = "" <-> _
    rw [document_putAll]
    rfl
  have hflow : c.stage.Flow := by
    rcases houtcome with ⟨hsame, hdrained⟩ | hpublished
    · have hfinal : c.stage.status = .finalizing := by
        rw [hsame, hstage2]
      apply flow_plan hplans hpost hconvert hunplanned hterminal hfinal
        (hclear.mpr (hclear2.mpr hbusy.clear)) (complete_subset_rows r) _ (hdrained hfinal)
        hr.tidy
      rw [hsummary, hstage2]
      dsimp only
      split
      · rename_i hcontains
        right
        refine ⟨rfl, (hrows _).mpr (Or.inr ⟨by simp, ?_⟩)⟩
        exact List.mem_map.mpr ⟨.summary, List.contains_iff_mem.mp hcontains, rfl⟩
      · exact Or.inl rfl
    · apply flow_of_tidy
      · rw [hpublished]
        rfl
      · exact hplans.tidy hpost hconvert hterminal hr.tidy
  apply flow_recordDocumentChange now _ _ hflow
  · rw [hdocument.1, hattempt2]
    exact hattempt
  · rcases houtcome with ⟨hsame, _⟩ | hpublished
    · change c.stage.status.isTerminal = false
      rw [hsame]
      exact hterminal2
    · change c.stage.status.isTerminal = false
      rw [hpublished]
      rfl

/-!
# Handing a conversion over
-/

/-- The receipt of the conversion, after some jobs were put. -/
theorem fansOut_completeTx {attempt : Nat} {keys : List JobKey} {r r1 : DocumentRecord}
    (hopens : Opens keys r r1) (hkeyed1 : RowsWellKeyed r1)
    (hkeys : forall k, k ∈ keys -> k = .postprocess ∨ k.isImage = true)
    (hattempt : r1.document.attempt = attempt)
    (hterminal : r1.document.parseStatus.isTerminal = false) :
    r.stage.FansOut (r1.completeTx now attempt .convert).1.record.stage := by
  have hfresh : forall k, k ∈ r1.stage.rows ->
      k ∈ r.stage.rows ∨ k = .postprocess ∨ k.isImage = true := by
    intro k hk
    rcases hopens.mem_rows.mp hk with hold | ⟨_, hput⟩
    · exact Or.inl hold
    · exact Or.inr (hkeys k hput)
  have hsub : r.stage.rows ⊆ r1.stage.rows := fun k hk => hopens.mem_rows.mpr (Or.inl hk)
  cases hreceipt : r1.hasReceipt attempt .convert with
  | true =>
      rw [completeTx_of_receipt now attempt .convert hreceipt]
      have hmem : JobKey.convert ∈ r.stage.receipts := by
        rw [← hopens.receipts_stage]
        apply mem_receipts_stage.mpr
        rw [hattempt]
        exact hreceipt
      refine ⟨?_, hsub, hfresh, ?_, ?_, ?_⟩
      · rw [Set.insert_eq_of_mem hmem]
        exact hopens.receipts_stage
      · intro k hk
        left
        rw [← hopens.complete]
        exact hk
      · exact subset_of_eq hopens.complete.symm
      · exact subset_of_eq hopens.failed
  | false =>
      obtain ⟨hfinishes, hkept⟩ :=
        finishes_completeTx now .convert hkeyed1 hattempt hreceipt hterminal
      refine ⟨?_, ?_, ?_, ?_, ?_, ?_⟩
      · rw [hfinishes.receipts, hopens.receipts_stage]
      · exact hsub.trans hfinishes.rows_subset
      · rw [hkept rfl]
        exact hfresh
      · rw [hfinishes.complete, hopens.complete]
        rintro k (hold | ⟨heq, _⟩)
        · exact Or.inl hold
        · exact Or.inr heq
      · rw [hfinishes.complete, hopens.complete]
        exact Set.subset_union_left
      · rw [← hopens.failed]
        exact hfinishes.failed

/-- The document after the receipt of the conversion. -/
theorem status_completeTx_convert {attempt : Nat} {keys : List JobKey}
    {r r1 : DocumentRecord} (hopens : Opens keys r r1) (hkeyed1 : RowsWellKeyed r1)
    (hattempt : r1.document.attempt = attempt)
    (hterminal : r1.document.parseStatus.isTerminal = false) :
    let s := (r1.completeTx now attempt .convert).1.record.stage
    s.summary = r.stage.summary ∧ (s.clear <-> r.stage.clear) ∧
      (s.status = r.stage.status ∨ s.status = .completed) := by
  have hsame : r1.stage.summary = r.stage.summary ∧ (r1.stage.clear <-> r.stage.clear) ∧
      r1.stage.status = r.stage.status := by
    unfold stage
    dsimp only
    rw [hopens.document]
    exact ⟨rfl, Iff.rfl, rfl⟩
  cases hreceipt : r1.hasReceipt attempt .convert with
  | true =>
      rw [completeTx_of_receipt now attempt .convert hreceipt]
      exact ⟨hsame.1, hsame.2.1, Or.inl hsame.2.2⟩
  | false =>
      obtain ⟨hsummary, hclear, houtcome⟩ :=
        status_completeTx now .convert hkeyed1 hattempt hreceipt hterminal
      refine ⟨hsummary.trans hsame.1, hclear.trans hsame.2.1, ?_⟩
      rcases houtcome with ⟨hstatus, _⟩ | hpublished
      · exact Or.inl (hstatus.trans hsame.2.2)
      · exact Or.inr hpublished

/-- The jobs that take over from the conversion wait for their workers. -/
theorem flow_completeTx_convert {attempt : Nat} {keys : List JobKey} {r r1 : DocumentRecord}
    (hopens : Opens keys r r1) (hkeyed1 : RowsWellKeyed r1)
    (hkeys : forall k, k ∈ keys -> k = .postprocess ∨ k.isImage = true) (hnonempty : keys ≠ [])
    (hattempt : r1.document.attempt = attempt) (hworking : r.document.parseStatus.isWorking = true)
    (hr : r.stage.Flow) : (r1.completeTx now attempt .convert).1.record.stage.Flow := by
  have hbusy := hr.busy hworking
  have hterminal1 : r1.document.parseStatus.isTerminal = false := by
    rw [hopens.document]
    exact isTerminal_of_isWorking hworking
  have hfans := fansOut_completeTx now hopens hkeyed1 hkeys hattempt hterminal1
  obtain ⟨hsummary, hclear, hstatus | hpublished⟩ :=
    status_completeTx_convert now hopens hkeyed1 hattempt hterminal1
  · apply flow_fanout hfans hstatus hworking hclear hsummary _ hr
    intro hunplanned
    have hcarried : forall k, k.isImage = true -> k ∈ r.stage.rows -> k ∉ r.stage.complete ->
        (r1.completeTx now attempt .convert).1.record.stage.ImageWaits := by
      intro k himage hrow hwait
      refine ⟨k, hfans.rows hrow, himage, ?_⟩
      intro hcomplete
      rcases hfans.complete hcomplete with hold | hconvert
      · exact hwait hold
      · rw [Set.mem_singleton_iff.mp hconvert] at himage
        cases himage
    by_cases hconverted : r.stage.Converted
    · have hnot : r.stage.status ≠ .finalizing := by
        intro hfinal
        exact hunplanned (hbusy.finalizing hfinal).1
      rcases (hbusy.converted hnot).2 hconverted with hrow | ⟨k, hrow, himage, hwait⟩
      · exact Or.inl (hfans.rows hrow)
      · exact Or.inr (hcarried k himage hrow hwait)
    · obtain ⟨k, hk⟩ := List.exists_mem_of_ne_nil keys hnonempty
      have hkne : k ≠ .reconcile := by
        rcases hkeys k hk with hpost | himage
        · rw [hpost]
          simp
        · rintro rfl
          cases himage
      have hrow1 : k ∈ r1.stage.rows := hopens.mem_rows.mpr (Or.inr ⟨hkne, hk⟩)
      have hrow' : k ∈ (r1.completeTx now attempt .convert).1.record.stage.rows := by
        cases hreceipt : r1.hasReceipt attempt .convert with
        | true =>
            rw [completeTx_of_receipt now attempt .convert hreceipt]
            exact hrow1
        | false =>
            exact (finishes_completeTx now .convert hkeyed1 hattempt hreceipt
              hterminal1).1.rows_subset hrow1
      rcases hkeys k hk with hpost | himage
      · left
        rw [← hpost]
        exact hrow'
      · right
        refine ⟨k, hrow', himage, ?_⟩
        intro hcomplete
        rcases hfans.complete hcomplete with hold | hconvert
        · have honly := (hr.tidy.converting hconverted).2 k (complete_subset_rows r hold)
          rw [honly] at himage
          cases himage
        · rw [Set.mem_singleton_iff.mp hconvert] at himage
          cases himage
  · apply flow_of_tidy
    · rw [hpublished]
      rfl
    · exact hfans.tidy (isTerminal_of_isWorking hworking) hr.tidy

theorem opens_refl (r : DocumentRecord) : Opens [] r r :=
  ⟨rfl, rfl, fun _ _ => rfl, fun k hk => by rw [hk]; rfl⟩

theorem flow_fanoutImages (versionId : Uuid) (attempt : Nat) {images : List String}
    (himages : images ≠ []) (fileName : String) {r : DocumentRecord} (hkeyed : RowsWellKeyed r)
    (hr : r.stage.Flow) :
    (r.fanoutImages now versionId attempt images fileName).record.stage.Flow := by
  unfold fanoutImages
  split
  · exact hr
  · rename_i hlock
    rw [Bool.not_eq_true', Bool.not_eq_false] at hlock
    have hattempt := attempt_of_lockCurrent hlock
    refine flow_completeTx_convert now (opens_putAll now versionId _ hattempt)
      ((Grows.putAll now versionId attempt _ r).wellKeyed hkeyed) ?_ ?_ ?_
      (isWorking_of_lockCurrent hlock) hr
    · intro k hk
      simp only [List.map_map, List.mem_map, Function.comp_apply, Work.key] at hk
      obtain ⟨image, _, rfl⟩ := hk
      exact Or.inr rfl
    · simpa using himages
    · rw [document_putAll]
      exact hattempt

theorem flow_fanoutText (versionId : Uuid) (attempt textCount : Nat) {r : DocumentRecord}
    (hkeyed : RowsWellKeyed r) (hr : r.stage.Flow) :
    (r.fanoutText now versionId attempt textCount).record.stage.Flow := by
  by_cases hlock : r.lockCurrent attempt = true
  · have hattempt := attempt_of_lockCurrent hlock
    have hworking := isWorking_of_lockCurrent hlock
    rcases Nat.eq_zero_or_pos textCount with rfl | hpos
    · rw [fanoutText_zero now versionId hlock]
      have hpublished : (r.updateDocument now (publishAttempt now attempt)).record.stage.Flow :=
        flow_updateDocument_of_idle now rfl rfl
          (fun _ => isTerminal_of_isWorking hworking) hr
      have hkeyed1 := (Grows.updateDocument now (publishAttempt now attempt) r).wellKeyed hkeyed
      have hattempt1 : (r.updateDocument now
          (publishAttempt now attempt)).record.document.attempt = attempt := by
        rw [document_updateDocument]
        exact hattempt
      have hterminal1 : (r.updateDocument now
          (publishAttempt now attempt)).record.document.parseStatus.isTerminal = false := by
        rw [document_updateDocument]
        rfl
      obtain ⟨_, _, hstatus⟩ := status_completeTx_convert now
        (opens_refl (r.updateDocument now (publishAttempt now attempt)).record) hkeyed1
        hattempt1 hterminal1
      apply flow_of_tidy
      · rcases hstatus with hsame | hcompleted
        · rw [hsame]
          change (r.updateDocument now
            (publishAttempt now attempt)).record.document.parseStatus.isWorking = false
          rw [document_updateDocument]
          rfl
        · rw [hcompleted]
          rfl
      · apply (fansOut_completeTx now (opens_refl _) hkeyed1 _ hattempt1 hterminal1).tidy
          hterminal1 hpublished.tidy
        intro k hk
        cases hk
    · have hne : textCount ≠ 0 := Nat.pos_iff_ne_zero.mp hpos
      have hput : r.putTx now versionId attempt (.postprocess false) =
          r.putAll now versionId attempt [.postprocess false] := rfl
      simp only [fanoutText, hlock, Bool.not_true, Bool.false_eq_true, if_false, hpos, if_true,
        hne, Change.andThen]
      rw [hput]
      have hopens := opens_putAll now versionId [.postprocess false] hattempt
      have hkeyed1 := (Grows.putAll now versionId attempt [.postprocess false] r).wellKeyed hkeyed
      have hdocument1 := document_putAll now versionId attempt [.postprocess false] r
      generalize r.putAll now versionId attempt [.postprocess false] = r1 at *
      have hterminal1 : r1.document.parseStatus.isTerminal = false := by
        rw [hdocument1]
        exact isTerminal_of_isWorking hworking
      rw [updateDocument_eq_self now (terminalRowsRetired_of_not_terminal hterminal1) rfl]
      refine flow_completeTx_convert now hopens hkeyed1 ?_ ?_ ?_ hworking hr
      · intro k hk
        rw [List.mem_singleton.mp hk]
        exact Or.inl rfl
      · simp
      · exact hdocument1 ▸ hattempt
  · simp only [fanoutText, hlock, Bool.not_false, if_true]
    exact hr

/-!
# Failing, settling, claiming and putting
-/

theorem jobState_modify {attempt : Nat} {key : JobKey} {f : OutboxRow -> OutboxRow}
    {r r' : DocumentRecord} (houtbox : r'.outbox = r.outbox.modify (attempt, key) f)
    (hattempt : r'.document.attempt = r.document.attempt) (k : JobKey) :
    r'.jobState k = r.jobState k ∨
      (k = key ∧ exists row, r.jobState k = some row.state ∧
        r'.jobState k = some (f row).state) := by
  unfold jobState
  rw [hattempt, houtbox, Table.lookup_modify]
  split
  · rename_i heq
    cases heq
    cases r.outbox.lookup (r.document.attempt, key) with
    | none => exact Or.inl rfl
    | some row => exact Or.inr ⟨rfl, row, rfl, rfl⟩
  · exact Or.inl rfl

theorem state_failRow (error : String) (row : OutboxRow) :
    (failRow error row).state = row.state ∨ (failRow error row).state = .failed := by
  unfold failRow
  split
  · exact Or.inr rfl
  · exact Or.inl rfl

theorem flow_failJob (attempt : Nat) (key : JobKey) (error : String) {r : DocumentRecord}
    (hr : r.stage.Flow) : (r.failJob now attempt key error).record.stage.Flow := by
  by_cases hlock : r.lockOpen attempt = true
  · have hterminal := isTerminal_of_lockOpen hlock
    simp only [failJob, hlock, Bool.not_true, Bool.false_eq_true, if_false]
    split
    · generalize hr' : ({ r with
        outbox := r.outbox.modify (attempt, key) (failRow error)
        document := failDocument now error r.document } : DocumentRecord) = r'
      have houtbox : r'.outbox = r.outbox.modify (attempt, key) (failRow error) := by
        rw [← hr']
      have hdocument : r'.document = failDocument now error r.document := by
        rw [← hr']
      have hreceipts : r'.receipts = r.receipts := by
        rw [← hr']
      have hattempt' : r'.document.attempt = r.document.attempt := by
        rw [hdocument]
        rfl
      have hstates := jobState_modify houtbox hattempt'
      apply flow_recordDocumentChange
      · exact hattempt'.symm
      · rw [hdocument]
        rfl
      · refine flow_halt (s := r.stage) ?_ ?_ ?_ ?_ hr.tidy
        · ext k
          apply and_congr_right
          intro _
          rcases hstates k with hsame | ⟨_, row, hold, hnew⟩
          · rw [hsame]
          · rw [hold, hnew]
            simp
        · unfold stage
          dsimp only
          rw [hattempt', hreceipts]
        · unfold stage
          dsimp only
          rw [hdocument]
          rfl
        · rintro - k ⟨hk, hcomplete⟩
          have hold : k ∈ r.stage.complete := by
            refine ⟨hk, ?_⟩
            rcases hstates k with hsame | ⟨_, row, hold, hnew⟩
            · rw [← hsame]
              exact hcomplete
            · rw [hnew] at hcomplete
              rcases state_failRow error row with hstate | hfailed
              · rw [hold, ← hstate]
                exact hcomplete
              · rw [hfailed] at hcomplete
                cases hcomplete
          have hreceipt := hr.tidy.closed hterminal hold
          unfold stage at hreceipt ⊢
          dsimp only at hreceipt ⊢
          rw [hattempt', hreceipts]
          exact hreceipt
    · rename_i hdead
      have hsame : r.outbox.modify (attempt, key) (failRow error) = r.outbox := by
        apply Table.modify_eq_self
        intro row hrow
        unfold failRow
        rw [if_neg]
        intro hlive
        apply hdead
        unfold hasLiveRow
        rw [hrow]
        exact hlive
      rw [hsame]
      exact flow_recordDocumentChange now rfl hterminal hr
  · simp only [failJob, hlock, Bool.not_false, if_true]
    exact hr

theorem state_offered (revision : Nat) (error : Option String) (row : OutboxRow) :
    ((Settlement.offered error).settleRow now revision row).state = row.state ∨
      (row.state.isLive = true ∧
        ((Settlement.offered error).settleRow now revision row).state.isLive = true) := by
  unfold Settlement.settleRow
  split
  · exact Or.inl rfl
  · dsimp only
    split
    · rename_i hlive
      right
      refine ⟨hlive, ?_⟩
      dsimp only
      split <;> rfl
    · exact Or.inl rfl

theorem flow_settleDelivery (attempt : Nat) (key : JobKey) (revision : Nat) {s : Settlement}
    (hs : DispatchDecides key s) {r : DocumentRecord} (hr : r.stage.Flow) :
    (r.settleDelivery now attempt key revision s).record.stage.Flow := by
  unfold settleDelivery
  split
  · exact flow_failJob now attempt key _ hr
  · rename_i hexhaust
    dsimp only [Change.unchanged]
    generalize hr' : ({ r with
      outbox := r.outbox.modify (attempt, key) (s.settleRow now revision) } :
        DocumentRecord) = r'
    have houtbox : r'.outbox = r.outbox.modify (attempt, key) (s.settleRow now revision) := by
      rw [← hr']
    have hdocument : r'.document = r.document := by
      rw [← hr']
    have hreceipts : r'.receipts = r.receipts := by
      rw [← hr']
    have hview : forall k, k ≠ .reconcile -> r'.jobState k = r.jobState k ∨
        exists old new, r.jobState k = some old ∧ r'.jobState k = some new ∧
          old.isLive = true ∧ new.isLive = true := by
      intro k hk
      rcases jobState_modify houtbox (by rw [hdocument]) k with hsame | ⟨rfl, row, hold, hnew⟩
      · exact Or.inl hsame
      · rcases dispatchDecides_of_ne hs hk with heq | ⟨error, rfl⟩
        · exact absurd heq hexhaust
        · rcases state_offered now revision error row with hstate | ⟨hlive, hlive'⟩
          · left
            rw [hold, ← hstate]
            exact hnew
          · exact Or.inr ⟨_, _, hold, hnew, hlive, hlive'⟩
    have hdead : forall (k : JobKey) (state : OutboxState), state.isLive = false ->
        k ≠ .reconcile -> (r'.jobState k = some state <-> r.jobState k = some state) := by
      intro k state hdead hk
      rcases hview k hk with hsame | ⟨old, new, hold, hnew, hlive, hlive'⟩
      · rw [hsame]
      · rw [hold, hnew]
        apply iff_of_false
        · intro heq
          rw [← Option.some.inj heq, hlive'] at hdead
          cases hdead
        · intro heq
          rw [← Option.some.inj heq, hlive] at hdead
          cases hdead
    refine flow_stutter (s := r.stage) ⟨?_, ?_, ?_, ?_⟩ ?_ ?_ ?_ hr
    · ext k
      apply and_congr_right
      intro hk
      rcases hview k hk with hsame | ⟨old, new, hold, hnew, _, _⟩
      · rw [hsame]
      · rw [hold, hnew]
        simp
    · ext k
      apply and_congr_right
      intro hk
      exact hdead k .complete rfl hk
    · ext k
      apply and_congr_right
      intro hk
      exact hdead k .failed rfl hk
    · unfold stage
      dsimp only
      rw [hdocument, hreceipts]
    · exact congrArg Document.parseStatus hdocument
    · intro hclear
      unfold stage at hclear ⊢
      rw [hdocument]
      exact hclear
    · exact Or.inl (congrArg Document.summaryStatus hdocument)

/-- The obligation is checked and claimed in one step. -/
theorem flow_claim {attempt : Nat} {r : DocumentRecord}
    (hrequested : r.convertRequested attempt = true) (hr : r.stage.Flow) :
    (r.claim now attempt).1.record.stage.Flow := by
  simp only [convertRequested, Bool.and_eq_true, Bool.not_eq_true'] at hrequested
  obtain ⟨⟨hlock, hlive⟩, hreceipt⟩ := hrequested
  have hattempt := attempt_of_lockOpen hlock
  have hterminal := isTerminal_of_lockOpen hlock
  subst hattempt
  unfold claim
  dsimp only
  by_cases hclaimable : claimable r.document.attempt r.document = true
  · obtain ⟨row, hrow, hstate⟩ : exists row,
        r.outbox.lookup (r.document.attempt, .convert) = some row ∧
          row.state.isLive = true := by
      unfold hasLiveRow at hlive
      split at hlive
      · cases hlive
      · rename_i row hrow
        exact ⟨row, hrow, hlive⟩
    have hf : (if claimable r.document.attempt r.document then
        { r.document with
          parseStatus := ParseStatus.processing, errorMessage := some "", updatedAt := now }
      else r.document) =
        { r.document with
          parseStatus := ParseStatus.processing, errorMessage := some "", updatedAt := now } :=
      if_pos hclaimable
    have hdocument := document_updateDocument now (fun d =>
      if claimable r.document.attempt d then
        { d with parseStatus := .processing, errorMessage := some "", updatedAt := now }
      else d) r
    rw [hf] at hdocument
    refine Stage.flow_claim (s := r.stage) ?_ ?_ ?_ ?_ ?_ (failed_subset_rows r) ?_ hterminal hr
    · apply sameJobs_updateDocument
      · rw [hf]
      · rw [hf]
        rfl
    · exact congrArg Document.parseStatus hdocument
    · change Option.getD (Document.errorMessage _) "" = ""
      rw [hdocument]
      rfl
    · exact ⟨by simp, jobState_ne_none.mpr ⟨row, hrow⟩⟩
    · rintro ⟨_, hfailed⟩
      unfold jobState at hfailed
      rw [hrow] at hfailed
      rw [Option.some.inj hfailed] at hstate
      cases hstate
    · intro hmem
      rw [mem_receipts_stage, hreceipt] at hmem
      cases hmem
  · have hf : (if claimable r.document.attempt r.document then
        { r.document with
          parseStatus := ParseStatus.processing, errorMessage := some "", updatedAt := now }
      else r.document) = r.document := if_neg hclaimable
    apply flow_updateDocument_of_same now _ _ _ _ hr
    · rw [hf]
    · rw [hf]
    · rw [hf]
    · rw [hf]
      exact id

end DocumentRecord

end Workflow
end KnowledgeBrain
