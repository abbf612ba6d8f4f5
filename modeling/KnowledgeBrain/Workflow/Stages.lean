import Mathlib.Data.Set.Insert
import KnowledgeBrain.Workflow.Schema

/-!
# The stages of an attempt

What an attempt owes, without counters, revisions or delivery times: the jobs
it has, which of them are complete or failed, and which have a receipt.  A
conversion hands over to images or to post-processing, the last image to
post-processing, and post-processing to the derived jobs.  `Stage.Flow` is the
invariant of this hand-over; it leaves a live job in every stage of a document
that is still working.
-/

namespace KnowledgeBrain
namespace Workflow

/-- The jobs `is_derived` marks. -/
def JobKey.isDerived : JobKey -> Bool
  | summary | datatable | questions _ | extract _ | wiki => true
  | _ => false

structure Stage where
  status : ParseStatus
  summary : SummaryStatus
  clear : Prop
  rows : Set JobKey
  complete : Set JobKey
  failed : Set JobKey
  receipts : Set JobKey

namespace Stage

/-- The conversion has been handed over, or there never was one. -/
def Converted (s : Stage) : Prop :=
  .convert ∈ s.rows -> .convert ∈ s.receipts

/-- An image job is not complete yet. -/
def ImageWaits (s : Stage) : Prop :=
  exists k, k ∈ s.rows ∧ k.isImage = true ∧ k ∉ s.complete

/-- A derived job is not complete yet. -/
def DerivedWaits (s : Stage) : Prop :=
  exists k, k ∈ s.rows ∧ k.isDerived = true ∧ k ∉ s.complete

/-- What holds in every status. -/
structure Tidy (s : Stage) : Prop where
  closed : s.status.isTerminal = false -> s.complete ⊆ s.receipts
  converting : ¬ s.Converted ->
    .postprocess ∉ s.receipts ∧ forall k, k ∈ s.rows -> k = .convert
  underived : .postprocess ∉ s.receipts ->
    forall k, k ∈ s.rows -> k.isDerived = true -> k = .wiki

/-- What holds while the document is working. -/
structure Busy (s : Stage) : Prop where
  sound : s.failed = ∅
  clear : s.clear
  opened : s.status = .pending -> .convert ∈ s.rows
  converted : s.status ≠ .finalizing -> .postprocess ∉ s.receipts ∧
    (s.Converted -> .postprocess ∈ s.rows ∨ s.ImageWaits)
  finalizing : s.status = .finalizing -> .postprocess ∈ s.receipts ∧ s.DerivedWaits ∧
    (s.summary = .none ∨ s.summary = .completed ∨
      (s.summary = .pending ∧ .summary ∈ s.rows ∧ .summary ∉ s.complete))

structure Flow (s : Stage) : Prop where
  tidy : s.Tidy
  busy : s.status.isWorking = true -> s.Busy

/-- Some job is there, neither complete nor failed. -/
def Live (s : Stage) : Prop :=
  exists k, k ∈ s.rows ∧ k ∉ s.complete ∧ k ∉ s.failed

/-- A working document has a live job. -/
theorem Flow.live {s : Stage} (h : s.Flow) (hworking : s.status.isWorking = true) :
    s.Live := by
  have hbusy := h.busy hworking
  have hterminal : s.status.isTerminal = false := by
    cases hs : s.status <;> rw [hs] at hworking <;> first | rfl | cases hworking
  have hclosed := h.tidy.closed hterminal
  have hfailed : forall k, k ∉ s.failed := by
    intro k
    rw [hbusy.sound]
    exact Set.notMem_empty k
  by_cases hfinal : s.status = .finalizing
  · obtain ⟨_, ⟨k, hk, _, hcomplete⟩, _⟩ := hbusy.finalizing hfinal
    exact ⟨k, hk, hcomplete, hfailed k⟩
  · obtain ⟨hreceipt, hnext⟩ := hbusy.converted hfinal
    by_cases hconverted : s.Converted
    · rcases hnext hconverted with hrow | ⟨k, hk, _, hcomplete⟩
      · exact ⟨.postprocess, hrow, fun hc => hreceipt (hclosed hc), hfailed _⟩
      · exact ⟨k, hk, hcomplete, hfailed k⟩
    · obtain ⟨hrow, hopen⟩ := Classical.not_imp.mp hconverted
      exact ⟨.convert, hrow, fun hc => hopen (hclosed hc), hfailed _⟩

/-!
# Moves of a stage

Each lemma takes the stage before a transaction and the stage after it, related
the way one kind of transaction relates them.
-/

theorem flow_of_tidy {s : Stage} (hidle : s.status.isWorking = false) (h : s.Tidy) :
    s.Flow := by
  refine ⟨h, ?_⟩
  intro hworking
  rw [hidle] at hworking
  cases hworking

/-- The jobs, their states and the receipts are the same. -/
structure SameJobs (s s' : Stage) : Prop where
  rows : s'.rows = s.rows
  complete : s'.complete = s.complete
  failed : s'.failed = s.failed
  receipts : s'.receipts = s.receipts

theorem SameJobs.trans {s s' s'' : Stage} (h : SameJobs s s') (h' : SameJobs s' s'') :
    SameJobs s s'' :=
  ⟨h'.rows.trans h.rows, h'.complete.trans h.complete, h'.failed.trans h.failed,
    h'.receipts.trans h.receipts⟩

variable {s s' : Stage}

theorem SameJobs.converted (h : SameJobs s s') :
    s'.Converted <-> s.Converted := by
  unfold Converted
  rw [h.rows, h.receipts]

theorem SameJobs.imageWaits (h : SameJobs s s') :
    s'.ImageWaits <-> s.ImageWaits := by
  unfold ImageWaits
  rw [h.rows, h.complete]

theorem SameJobs.derivedWaits (h : SameJobs s s') :
    s'.DerivedWaits <-> s.DerivedWaits := by
  unfold DerivedWaits
  rw [h.rows, h.complete]

theorem SameJobs.tidy (h : SameJobs s s')
    (hterminal : s'.status.isTerminal = false -> s.status.isTerminal = false) (hs : s.Tidy) :
    s'.Tidy where
  closed := by
    intro hstatus
    rw [h.complete, h.receipts]
    exact hs.closed (hterminal hstatus)
  converting := by
    rw [h.converted, h.receipts, h.rows]
    exact hs.converting
  underived := by
    rw [h.receipts, h.rows]
    exact hs.underived

/-- The status stays; the error text stays empty and the summary may complete. -/
theorem flow_stutter (h : SameJobs s s') (hstatus : s'.status = s.status)
    (hclear : s.clear -> s'.clear) (hsummary : s'.summary = s.summary ∨ s'.summary = .completed)
    (hs : s.Flow) :
    s'.Flow where
  tidy := h.tidy (fun hterminal => hstatus ▸ hterminal) hs.tidy
  busy := by
    intro hworking
    rw [hstatus] at hworking
    have hbusy := hs.busy hworking
    constructor
    · rw [h.failed]
      exact hbusy.sound
    · exact hclear hbusy.clear
    · rw [hstatus, h.rows]
      exact hbusy.opened
    · rw [hstatus, h.receipts, h.rows, h.converted, h.imageWaits]
      exact hbusy.converted
    · rw [hstatus, h.receipts, h.derivedWaits, h.rows, h.complete]
      intro hfinal
      obtain ⟨hreceipt, hderived, hold⟩ := hbusy.finalizing hfinal
      refine ⟨hreceipt, hderived, ?_⟩
      rcases hsummary with hsame | hdone
      · rw [hsame]
        exact hold
      · exact Or.inr (Or.inl hdone)

theorem flow_halt (hrows : s'.rows = s.rows) (hreceipts : s'.receipts = s.receipts)
    (hidle : s'.status.isWorking = false)
    (hclosed : s'.status.isTerminal = false -> s'.complete ⊆ s'.receipts) (hs : s.Tidy) :
    s'.Flow := by
  apply flow_of_tidy hidle
  refine ⟨hclosed, ?_, ?_⟩
  · unfold Converted
    rw [hrows, hreceipts]
    exact hs.converting
  · rw [hrows, hreceipts]
    exact hs.underived

/-- A fresh attempt has its conversion and nothing else. -/
theorem flow_restart {s : Stage} (hstatus : s.status = .pending) (hclear : s.clear)
    (hrows : s.rows = {.convert}) (hcomplete : s.complete = ∅) (hfailed : s.failed = ∅)
    (hreceipts : s.receipts = ∅) : s.Flow where
  tidy := by
    refine ⟨?_, ?_, ?_⟩
    · intro _
      rw [hcomplete]
      exact Set.empty_subset _
    · intro _
      rw [hreceipts, hrows]
      exact ⟨Set.notMem_empty _, fun k hk => hk⟩
    · intro _ k hk hderived
      rw [hrows] at hk
      rw [Set.mem_singleton_iff.mp hk] at hderived
      cases hderived
  busy := by
    intro _
    refine ⟨hfailed, hclear, ?_, ?_, ?_⟩
    · intro _
      rw [hrows]
      exact Set.mem_singleton _
    · intro _
      rw [hreceipts]
      refine ⟨Set.notMem_empty _, ?_⟩
      intro hconverted
      have hreceipt := hconverted (by rw [hrows]; exact Set.mem_singleton _)
      rw [hreceipts] at hreceipt
      exact absurd hreceipt (Set.notMem_empty _)
    · intro hfinal
      rw [hstatus] at hfinal
      cases hfinal

/-- A kept copy starts at post-processing, with a wiki job at most beside it. -/
theorem flow_copy {s : Stage} (hstatus : s.status = .processing) (hclear : s.clear)
    (hpost : .postprocess ∈ s.rows)
    (hrows : forall k, k ∈ s.rows -> k = .postprocess ∨ k = .wiki)
    (hcomplete : s.complete = ∅) (hfailed : s.failed = ∅) (hreceipts : s.receipts = ∅) :
    s.Flow where
  tidy := by
    refine ⟨?_, ?_, ?_⟩
    · intro _
      rw [hcomplete]
      exact Set.empty_subset _
    · intro hopen
      obtain ⟨hrow, _⟩ := Classical.not_imp.mp hopen
      rcases hrows _ hrow with heq | heq <;> cases heq
    · intro _ k hk hderived
      rcases hrows k hk with heq | heq
      · rw [heq] at hderived
        cases hderived
      · exact heq
  busy := by
    intro _
    refine ⟨hfailed, hclear, ?_, ?_, ?_⟩
    · intro hpending
      rw [hstatus] at hpending
      cases hpending
    · intro _
      rw [hreceipts]
      exact ⟨Set.notMem_empty _, fun _ => Or.inl hpost⟩
    · intro hfinal
      rw [hstatus] at hfinal
      cases hfinal

/-- A claim starts a conversion that is still owed. -/
theorem flow_claim (h : SameJobs s s') (hstatus : s'.status = .processing) (hclear : s'.clear)
    (hrow : .convert ∈ s.rows) (hlive : .convert ∉ s.failed) (hsub : s.failed ⊆ s.rows)
    (hreceipt : .convert ∉ s.receipts) (hterminal : s.status.isTerminal = false) (hs : s.Flow) :
    s'.Flow where
  tidy := h.tidy (fun _ => hterminal) hs.tidy
  busy := by
    intro _
    have hopen : ¬ s.Converted := fun hconverted => hreceipt (hconverted hrow)
    obtain ⟨hpost, honly⟩ := hs.tidy.converting hopen
    refine ⟨?_, hclear, ?_, ?_, ?_⟩
    · rw [h.failed]
      apply Set.eq_empty_of_forall_notMem
      intro k hk
      rw [honly k (hsub hk)] at hk
      exact hlive hk
    · intro hpending
      rw [hstatus] at hpending
      cases hpending
    · intro _
      rw [h.receipts, h.converted]
      exact ⟨hpost, fun hconverted => absurd hconverted hopen⟩
    · intro hfinal
      rw [hstatus] at hfinal
      cases hfinal

/-- A job is handed in: its receipt is new and its row, if any, complete.  The
last image hands over to post-processing. -/
structure Finishes (k : JobKey) (s s' : Stage) : Prop where
  receipts : s'.receipts = insert k s.receipts
  rows : s'.rows = s.rows ∨ s'.rows = insert .postprocess s.rows
  complete : s'.complete = s.complete ∪ {k' | k' = k ∧ k ∈ s.rows}
  failed : s'.failed ⊆ s.failed
  images : k.isImage = true -> s'.ImageWaits ∨ .postprocess ∈ s'.rows

theorem Finishes.mem_rows {k k' : JobKey} (h : Finishes k s s') (hk' : k' ∈ s'.rows) :
    k' ∈ s.rows ∨ k' = .postprocess := by
  rcases h.rows with heq | heq
  · rw [heq] at hk'
    exact Or.inl hk'
  · rw [heq] at hk'
    rcases Set.mem_insert_iff.mp hk' with hpost | hold
    · exact Or.inr hpost
    · exact Or.inl hold

variable {k : JobKey}

theorem Finishes.rows_subset (h : Finishes k s s') :
    s.rows ⊆ s'.rows := by
  rcases h.rows with heq | heq
  · rw [heq]
  · rw [heq]
    exact Set.subset_insert _ _

theorem Finishes.mem_receipts {k k' : JobKey} (h : Finishes k s s') (hne : k ≠ k') :
    k' ∈ s'.receipts <-> k' ∈ s.receipts := by
  rw [h.receipts, Set.mem_insert_iff]
  constructor
  · rintro (heq | hold)
    · exact absurd heq.symm hne
    · exact hold
  · exact Or.inr

/-- A job other than the two that hand a stage over. -/
def Routine (k : JobKey) : Prop :=
  k ≠ .convert ∧ k ≠ .postprocess

theorem Finishes.converted (h : Finishes k s s') (hk : Routine k) :
    s'.Converted <-> s.Converted := by
  unfold Converted
  rw [h.mem_receipts hk.1]
  constructor
  · intro hc hrow
    exact hc (h.rows_subset hrow)
  · intro hc hrow
    rcases h.mem_rows hrow with hold | hpost
    · exact hc hold
    · cases hpost

theorem Finishes.tidy (h : Finishes k s s') (hk : Routine k)
    (hterminal : s.status.isTerminal = false) (himage : s'.rows ≠ s.rows -> s.Converted)
    (hs : s.Tidy) : s'.Tidy where
  closed := by
    intro _ k' hk'
    rw [h.complete] at hk'
    rw [h.receipts]
    rcases hk' with hold | ⟨heq, _⟩
    · exact Set.mem_insert_of_mem _ (hs.closed hterminal hold)
    · rw [heq]
      exact Set.mem_insert _ _
  converting := by
    rw [h.converted hk, h.mem_receipts hk.2]
    intro hopen
    have hsame : s'.rows = s.rows := by
      by_contra hne
      exact hopen (himage hne)
    rw [hsame]
    exact hs.converting hopen
  underived := by
    rw [h.mem_receipts hk.2]
    intro hpost k' hk' hderived
    rcases h.mem_rows hk' with hold | heq
    · exact hs.underived hpost k' hold hderived
    · rw [heq] at hderived
      cases hderived

/-- A routine job is handed in and the document goes on.  `hdrained` is the
reason why it was not published. -/
theorem flow_finish (h : Finishes k s s') (hk : Routine k) (hrow : k.isImage = true -> k ∈ s.rows)
    (hkept : k.isImage = false -> s'.rows = s.rows) (hstatus : s'.status = s.status)
    (hworking : s.status.isWorking = true) (hclear : s'.clear <-> s.clear)
    (hsummary : s'.summary = if k = .summary then .completed else s.summary)
    (hdrained : s'.status = .finalizing -> s'.DerivedWaits ∨
      s'.summary.isUnsettled = true ∨ ¬ s'.clear)
    (hs : s.Flow) : s'.Flow := by
  have hbusy := hs.busy hworking
  have hterminal : s.status.isTerminal = false := by
    cases hs : s.status <;> rw [hs] at hworking <;> first | rfl | cases hworking
  have hconverted : k.isImage = true -> s.Converted := by
    intro himage
    by_contra hopen
    have hk' := (hs.tidy.converting hopen).2 k (hrow himage)
    exact hk.1 hk'
  constructor
  · apply h.tidy hk hterminal _ hs.tidy
    intro hne
    cases himage : k.isImage with
    | false => exact absurd (hkept himage) hne
    | true => exact hconverted himage
  · intro _
    refine ⟨?_, hclear.mpr hbusy.clear, ?_, ?_, ?_⟩
    · apply Set.eq_empty_of_subset_empty
      rw [← hbusy.sound]
      exact h.failed
    · rw [hstatus]
      intro hpending
      exact h.rows_subset (hbusy.opened hpending)
    · rw [hstatus, h.converted hk, h.mem_receipts hk.2]
      intro hnot
      obtain ⟨hpost, hnext⟩ := hbusy.converted hnot
      refine ⟨hpost, ?_⟩
      intro hdone
      cases himage : k.isImage with
      | true => exact (h.images himage).symm
      | false =>
          rcases hnext hdone with hrow' | ⟨k', hk', himage', hwait⟩
          · exact Or.inl (h.rows_subset hrow')
          · right
            refine ⟨k', h.rows_subset hk', himage', ?_⟩
            rw [h.complete]
            rintro (hold | ⟨heq, _⟩)
            · exact hwait hold
            · rw [heq, himage] at himage'
              cases himage'
    · rw [hstatus]
      intro hfinal
      obtain ⟨hpost, _, hold⟩ := hbusy.finalizing hfinal
      have hwaits : s.summary = .pending -> k ≠ .summary ->
          JobKey.summary ∈ s'.rows ∧ JobKey.summary ∉ s'.complete := by
        intro hpending hne
        rcases hold with hnone | hcompleted | ⟨_, hrow', hwait⟩
        · rw [hnone] at hpending
          cases hpending
        · rw [hcompleted] at hpending
          cases hpending
        · refine ⟨h.rows_subset hrow', ?_⟩
          rw [h.complete]
          rintro (hdone | ⟨heq, _⟩)
          · exact hwait hdone
          · exact hne heq.symm
      refine ⟨(h.mem_receipts hk.2).mpr hpost, ?_, ?_⟩
      · rcases hdrained (hstatus.trans hfinal) with hderived | hunsettled | hmessage
        · exact hderived
        · by_cases hkey : k = .summary
          · rw [hsummary, if_pos hkey] at hunsettled
            cases hunsettled
          · rw [hsummary, if_neg hkey] at hunsettled
            have hpending : s.summary = .pending := by
              rcases hold with hnone | hcompleted | ⟨hpending, _⟩
              · rw [hnone] at hunsettled
                cases hunsettled
              · rw [hcompleted] at hunsettled
                cases hunsettled
              · exact hpending
            obtain ⟨hrow', hwait⟩ := hwaits hpending hkey
            exact ⟨.summary, hrow', rfl, hwait⟩
        · exact absurd (hclear.mpr hbusy.clear) hmessage
      · by_cases hkey : k = .summary
        · rw [hsummary, if_pos hkey]
          exact Or.inr (Or.inl rfl)
        · rw [hsummary, if_neg hkey]
          rcases hold with hnone | hcompleted | ⟨hpending, _⟩
          · exact Or.inl hnone
          · exact Or.inr (Or.inl hcompleted)
          · exact Or.inr (Or.inr ⟨hpending, hwaits hpending hkey⟩)

/-!
# Handing a stage over
-/

/-- Post-processing puts derived jobs and hands itself in. -/
structure Plans (s s' : Stage) : Prop where
  receipts : s'.receipts = insert .postprocess s.receipts
  rows : s.rows ⊆ s'.rows
  complete : s'.complete ⊆ s.complete ∪ {.postprocess}
  failed : s'.failed = ∅

theorem Plans.converted (h : Plans s s') (hrow : .postprocess ∈ s.rows)
    (hconvert : .convert ∈ s'.rows -> .convert ∈ s.rows) (hs : s.Tidy) : s'.Converted := by
  intro hrow'
  rw [h.receipts]
  apply Set.mem_insert_of_mem
  by_contra hreceipt
  have hopen : ¬ s.Converted := fun hconverted => hreceipt (hconverted (hconvert hrow'))
  have hne := (hs.converting hopen).2 _ hrow
  cases hne

theorem Plans.tidy (h : Plans s s') (hrow : .postprocess ∈ s.rows)
    (hconvert : .convert ∈ s'.rows -> .convert ∈ s.rows) (hterminal : s.status.isTerminal = false)
    (hs : s.Tidy) : s'.Tidy where
  closed := by
    intro _ k hk
    rw [h.receipts]
    rcases h.complete hk with hold | hpost
    · exact Set.mem_insert_of_mem _ (hs.closed hterminal hold)
    · rw [Set.mem_singleton_iff.mp hpost]
      exact Set.mem_insert _ _
  converting := fun hopen => absurd (h.converted hrow hconvert hs) hopen
  underived := by
    intro hpost
    rw [h.receipts] at hpost
    exact absurd (Set.mem_insert _ _) hpost

/-- Post-processing starts the derived jobs.  A planned summary has a row that
was not there before, so it is not complete. -/
theorem flow_plan (h : Plans s s') (hrow : .postprocess ∈ s.rows)
    (hconvert : .convert ∈ s'.rows -> .convert ∈ s.rows) (hreceipt : .postprocess ∉ s.receipts)
    (hterminal : s.status.isTerminal = false) (hstatus : s'.status = .finalizing)
    (hclear : s'.clear) (hsub : s.complete ⊆ s.rows)
    (hsummary : s'.summary = .none ∨ (s'.summary = .pending ∧ .summary ∈ s'.rows))
    (hdrained : s'.DerivedWaits ∨ s'.summary.isUnsettled = true ∨ ¬ s'.clear) (hs : s.Tidy) :
    s'.Flow := by
  have hfresh : JobKey.summary ∉ s'.complete := by
    intro hcomplete
    rcases h.complete hcomplete with hold | hpost
    · have hwiki := hs.underived hreceipt _ (hsub hold) rfl
      cases hwiki
    · cases hpost
  refine ⟨h.tidy hrow hconvert hterminal hs, ?_⟩
  intro _
  refine ⟨h.failed, hclear, ?_, ?_, ?_⟩
  · intro hpending
    rw [hstatus] at hpending
    cases hpending
  · intro hnot
    exact absurd hstatus hnot
  · intro _
    refine ⟨by rw [h.receipts]; exact Set.mem_insert _ _, ?_, ?_⟩
    · rcases hdrained with hderived | hunsettled | hmessage
      · exact hderived
      · rcases hsummary with hnone | ⟨_, hrow'⟩
        · rw [hnone] at hunsettled
          cases hunsettled
        · exact ⟨.summary, hrow', rfl, hfresh⟩
      · exact absurd hclear hmessage
    · rcases hsummary with hnone | ⟨hpending, hrow'⟩
      · exact Or.inl hnone
      · exact Or.inr (Or.inr ⟨hpending, hrow', hfresh⟩)

/-- A conversion puts image jobs or the post-processing job and is handed in,
if it was not before. -/
structure FansOut (s s' : Stage) : Prop where
  receipts : s'.receipts = insert .convert s.receipts
  rows : s.rows ⊆ s'.rows
  fresh : forall k, k ∈ s'.rows -> k ∈ s.rows ∨ k = .postprocess ∨ k.isImage = true
  complete : s'.complete ⊆ s.complete ∪ {.convert}
  kept : s.complete ⊆ s'.complete
  failed : s'.failed ⊆ s.failed

theorem FansOut.mem_postprocess (h : FansOut s s') :
    .postprocess ∈ s'.receipts <-> .postprocess ∈ s.receipts := by
  rw [h.receipts, Set.mem_insert_iff]
  constructor
  · rintro (heq | hold)
    · cases heq
    · exact hold
  · exact Or.inr

theorem FansOut.tidy (h : FansOut s s') (hterminal : s.status.isTerminal = false) (hs : s.Tidy) :
    s'.Tidy where
  closed := by
    intro _ k hk
    rw [h.receipts]
    rcases h.complete hk with hold | hconvert
    · exact Set.mem_insert_of_mem _ (hs.closed hterminal hold)
    · rw [Set.mem_singleton_iff.mp hconvert]
      exact Set.mem_insert _ _
  converting := by
    intro hopen
    apply absurd _ hopen
    intro _
    rw [h.receipts]
    exact Set.mem_insert _ _
  underived := by
    rw [h.mem_postprocess]
    intro hpost k hk hderived
    rcases h.fresh k hk with hold | heq | himage
    · exact hs.underived hpost k hold hderived
    · rw [heq] at hderived
      cases hderived
    · cases k <;> simp [JobKey.isDerived, JobKey.isImage] at hderived himage

/-- A conversion is handed over and the document goes on. -/
theorem flow_fanout (h : FansOut s s') (hstatus : s'.status = s.status)
    (hworking : s.status.isWorking = true) (hclear : s'.clear <-> s.clear)
    (hsummary : s'.summary = s.summary)
    (hnext : .postprocess ∉ s.receipts -> .postprocess ∈ s'.rows ∨ s'.ImageWaits) (hs : s.Flow) :
    s'.Flow := by
  have hbusy := hs.busy hworking
  have hterminal : s.status.isTerminal = false := by
    cases hs : s.status <;> rw [hs] at hworking <;> first | rfl | cases hworking
  refine ⟨h.tidy hterminal hs.tidy, ?_⟩
  intro _
  have hderived : forall k, k.isDerived = true -> k ∉ s.complete -> k ∉ s'.complete := by
    intro k hk hwait hcomplete
    rcases h.complete hcomplete with hold | hconvert
    · exact hwait hold
    · rw [Set.mem_singleton_iff.mp hconvert] at hk
      cases hk
  refine ⟨?_, hclear.mpr hbusy.clear, ?_, ?_, ?_⟩
  · apply Set.eq_empty_of_subset_empty
    rw [← hbusy.sound]
    exact h.failed
  · rw [hstatus]
    intro hpending
    exact h.rows (hbusy.opened hpending)
  · rw [hstatus, h.mem_postprocess]
    intro hnot
    obtain ⟨hpost, _⟩ := hbusy.converted hnot
    exact ⟨hpost, fun _ => hnext hpost⟩
  · rw [hstatus, h.mem_postprocess, hsummary]
    intro hfinal
    obtain ⟨hpost, ⟨k, hk, hk', hwait⟩, hold⟩ := hbusy.finalizing hfinal
    refine ⟨hpost, ⟨k, h.rows hk, hk', hderived k hk' hwait⟩, ?_⟩
    rcases hold with hnone | hcompleted | ⟨hpending, hrow, hwait'⟩
    · exact Or.inl hnone
    · exact Or.inr (Or.inl hcompleted)
    · exact Or.inr (Or.inr ⟨hpending, h.rows hrow, hderived _ rfl hwait'⟩)

/-- An attempt that has image jobs gets its post-processing job. -/
theorem flow_put (hrows : s'.rows = insert .postprocess s.rows)
    (hcomplete : s'.complete = s.complete) (hfailed : s'.failed = s.failed)
    (hreceipts : s'.receipts = s.receipts) (hstatus : s'.status = s.status)
    (hclear : s'.clear <-> s.clear) (hsummary : s'.summary = s.summary)
    (hworking : s.status.isWorking = true) (himage : exists k, k ∈ s.rows ∧ k.isImage = true)
    (hs : s.Flow) : s'.Flow := by
  have hbusy := hs.busy hworking
  have hconverted : s.Converted := by
    by_contra hopen
    obtain ⟨k, hk, hk'⟩ := himage
    rw [(hs.tidy.converting hopen).2 k hk] at hk'
    cases hk'
  have hsub : s.rows ⊆ s'.rows := by
    rw [hrows]
    exact Set.subset_insert _ _
  have hmem : forall k, k ∈ s'.rows -> k ∈ s.rows ∨ k = .postprocess := by
    intro k hk
    rw [hrows] at hk
    exact (Set.mem_insert_iff.mp hk).symm
  have hconverted' : s'.Converted := by
    intro hrow
    rw [hreceipts]
    rcases hmem _ hrow with hold | hpost
    · exact hconverted hold
    · cases hpost
  constructor
  · refine ⟨?_, fun hopen => absurd hconverted' hopen, ?_⟩
    · rw [hstatus, hcomplete, hreceipts]
      exact hs.tidy.closed
    · rw [hreceipts]
      intro hpost k hk hderived
      rcases hmem k hk with hold | heq
      · exact hs.tidy.underived hpost k hold hderived
      · rw [heq] at hderived
        cases hderived
  · intro _
    refine ⟨by rw [hfailed]; exact hbusy.sound, hclear.mpr hbusy.clear, ?_, ?_, ?_⟩
    · rw [hstatus]
      intro hpending
      exact hsub (hbusy.opened hpending)
    · rw [hstatus, hreceipts]
      intro hnot
      refine ⟨(hbusy.converted hnot).1, ?_⟩
      intro _
      left
      rw [hrows]
      exact Set.mem_insert _ _
    · rw [hstatus, hreceipts, hsummary, hcomplete]
      intro hfinal
      obtain ⟨hpost, ⟨k, hk, hk', hwait⟩, hold⟩ := hbusy.finalizing hfinal
      refine ⟨hpost, ⟨k, hsub hk, hk', by rw [hcomplete]; exact hwait⟩, ?_⟩
      rcases hold with hnone | hcompleted | ⟨hpending, hrow, hwait'⟩
      · exact Or.inl hnone
      · exact Or.inr (Or.inl hcompleted)
      · exact Or.inr (Or.inr ⟨hpending, hsub hrow, hwait'⟩)

end Stage

end Workflow
end KnowledgeBrain
