import KnowledgeBrain.Workflow.Attempts

/-!
# Deliveries of a conversion

`run_convert` checks its obligation in one transaction and claims the document
in another.  Any number of deliveries of the same conversion may stand between
the two, or be converting, while the rest of the workflow goes on.
-/

namespace KnowledgeBrain
namespace Workflow

open Foundation

variable (now : Time)

namespace DocumentRecord

/-!
# Statuses along the events
-/

/-- The handing over of a conversion keeps the status or completes it. -/
theorem document_afterIndexFanout (versionId : Uuid) (attempt textCount : Nat)
    (images : List String) (fileName : String) (r : DocumentRecord) :
    let d := (r.afterIndexFanout now versionId attempt textCount images fileName).record.document
    d.attempt = r.document.attempt ∧
      (d.parseStatus = r.document.parseStatus ∨ d.parseStatus = .completed) := by
  have hcomplete : forall s : DocumentRecord,
      (s.completeTx now attempt .convert).1.record.document.attempt = s.document.attempt ∧
        ((s.completeTx now attempt .convert).1.record.document.parseStatus =
            s.document.parseStatus ∨
          (s.completeTx now attempt .convert).1.record.document.parseStatus = .completed) := by
    intro s
    obtain ⟨hattempt, _, ⟨hstatus, _⟩ | ⟨_, hstatus, _⟩⟩ :=
      document_completeTx_cases now attempt .convert s
    · exact ⟨hattempt, Or.inl hstatus⟩
    · exact ⟨hattempt, Or.inr hstatus⟩
  unfold afterIndexFanout
  split
  · unfold fanoutText
    split
    · exact ⟨rfl, Or.inl rfl⟩
    · dsimp only [Change.andThen]
      generalize hput : (if 0 < textCount then
        r.putTx now versionId attempt (.postprocess false) else r) = r1
      have hdocument1 : r1.document = r.document := by
        rw [← hput]
        split <;> rfl
      generalize hr2 : (r1.updateDocument now fun d =>
        if textCount = 0 then publishAttempt now attempt d else d).record = r2
      have hdocument2 : r2.document = if textCount = 0 then
          publishAttempt now attempt r.document else r.document := by
        rw [← hr2, document_updateDocument, hdocument1]
      obtain ⟨hattempt, hstatus⟩ := hcomplete r2
      rw [hdocument2] at hattempt hstatus
      by_cases hempty : textCount = 0
      · rw [if_pos hempty] at hattempt hstatus
        refine ⟨hattempt, Or.inr ?_⟩
        rcases hstatus with hsame | hdone
        · exact hsame
        · exact hdone
      · rw [if_neg hempty] at hattempt hstatus
        exact ⟨hattempt, hstatus⟩
  · unfold fanoutImages
    split
    · exact ⟨rfl, Or.inl rfl⟩
    · have houtcome := hcomplete
        (r.putAll now versionId attempt (images.map fun k => .image k fileName))
      rw [document_putAll] at houtcome
      exact houtcome

/-- The document does not become pending. -/
def Unopened (d d' : Document) : Prop :=
  d'.parseStatus = .pending -> d.parseStatus = .pending

theorem Unopened.of_same {d d' : Document} (h : d'.parseStatus = d.parseStatus) :
    Unopened d d' :=
  fun hpending => h.symm.trans hpending

theorem Unopened.of_ne {d d' : Document} (h : d'.parseStatus ≠ .pending) : Unopened d d' :=
  fun hpending => absurd hpending h

theorem unopened_completeTx (attempt : Nat) (key : JobKey) (r : DocumentRecord) :
    Unopened r.document (r.completeTx now attempt key).1.record.document := by
  obtain ⟨_, _, ⟨hstatus, _⟩ | ⟨_, hstatus, _⟩⟩ := document_completeTx_cases now attempt key r
  · exact .of_same hstatus
  · exact .of_ne (by simp [hstatus])

theorem unopened_commitChunksRecord (attempt : Nat) (key : JobKey) (status : SummaryStatus)
    (description : String) (finish : Bool) (r : DocumentRecord) :
    Unopened r.document
      (r.commitChunksRecord now attempt key status description finish).record.document := by
  unfold commitChunksRecord
  simp only [Change.andThen, document_recordDocumentChange]
  have hstored : Unopened r.document (storeSummary key status description r.document) := by
    unfold storeSummary
    split <;> exact id
  unfold failSummary
  split
  · exact .of_ne (by simp)
  · cases finish with
    | true => exact fun hpending => hstored (unopened_completeTx now attempt key _ hpending)
    | false => exact hstored

theorem unopened_beginPostprocess (versionId : Uuid) (attempt : Nat) (work : List Work)
    (r : DocumentRecord) :
    Unopened r.document (r.beginPostprocess now versionId attempt work).1.record.document := by
  unfold beginPostprocess
  split
  · exact id
  · split
    · exact id
    · simp only [Change.andThen, document_recordDocumentChange]
      intro hpending
      cases unopened_completeTx now attempt .postprocess _ hpending

theorem unopened_failJob (attempt : Nat) (key : JobKey) (error : String) (r : DocumentRecord) :
    Unopened r.document (r.failJob now attempt key error).record.document := by
  unfold failJob
  split
  · exact id
  · simp only [document_recordDocumentChange]
    split
    · exact .of_ne (by simp [failDocument])
    · exact id

theorem unopened_onlySpans {r r' : DocumentRecord} (h : OnlySpans r r') :
    Unopened r.document r'.document := by
  obtain ⟨at', hdocument⟩ := h.document
  exact .of_same (by rw [hdocument])

/-- A document becomes pending only with a fresh attempt. -/
theorem pending_apply {e : DocumentOp} {r : DocumentRecord} (hlisted : e.InWorkflow)
    (hpending : (e.apply now r).record.document.parseStatus = .pending) :
    r.document.parseStatus = .pending ∨
      r.document.attempt < (e.apply now r).record.document.attempt := by
  have hkept : Unopened r.document (e.apply now r).record.document ->
      r.document.parseStatus = .pending ∨
        r.document.attempt < (e.apply now r).record.document.attempt :=
    fun h => Or.inl (h hpending)
  cases e with
  | claim attempt =>
      apply hkept
      simp only [DocumentOp.apply, claim, document_updateDocument]
      split
      · exact .of_ne (by simp)
      · exact id
  | afterIndexFanout versionId attempt textCount images fileName =>
      apply hkept
      rcases (document_afterIndexFanout now versionId attempt textCount images fileName r).2
        with hsame | hdone
      · exact .of_same hsame
      · exact .of_ne (by simp [DocumentOp.apply, hdone])
  | put versionId attempt work =>
      apply hkept
      simp only [DocumentOp.apply, put]
      split <;> exact id
  | complete attempt key =>
      apply hkept
      simp only [DocumentOp.apply, complete]
      split
      · exact unopened_completeTx now attempt key r
      · exact id
  | beginPostprocess versionId attempt work =>
      exact hkept (unopened_beginPostprocess now versionId attempt work r)
  | commitChunks attempt key status description finish =>
      apply hkept
      simp only [DocumentOp.apply]
      split
      · exact id
      · exact unopened_commitChunksRecord now attempt key status description finish r
  | updateStatus attempt status error =>
      cases hlisted
      apply hkept
      simp only [DocumentOp.apply, updateStatus, document_updateDocument]
      split
      · exact .of_ne (by simp)
      · exact id
  | failJob attempt key error => exact hkept (unopened_failJob now attempt key error r)
  | settleDelivery attempt key revision s =>
      apply hkept
      simp only [DocumentOp.apply, settleDelivery]
      split
      · exact unopened_failJob now attempt key exhaustedMessage r
      · exact id
  | recoverStale =>
      simp only [DocumentOp.apply] at hpending ⊢
      split
      · right
        simp [recoverStale, freshAttempt]
      · rename_i hfresh
        rw [if_neg hfresh] at hpending
        exact Or.inl hpending
  | bumpDocumentAttempt =>
      simp only [DocumentOp.apply, bumpDocumentAttempt] at hpending ⊢
      split
      · right
        simp [freshAttempt]
      · rename_i hclosed
        rw [if_neg hclosed] at hpending
        exact Or.inl hpending
  | markReparseQueued =>
      simp only [DocumentOp.apply, markReparseQueued] at hpending ⊢
      split
      · by_cases hkept : (r.document.parseStatus == .pending &&
            r.document.enableStatus == .disabled) = true
        · left
          simp only [Bool.and_eq_true, beq_iff_eq] at hkept
          exact hkept.1
        · right
          rw [Option.getD_some, document_updateDocument]
          simp only [freshAttempt]
          rw [if_neg hkept]
          exact Nat.lt_succ_self _
      · rename_i hclosed
        rw [if_neg hclosed] at hpending
        exact Or.inl hpending
  | setParseStatus status error =>
      apply hkept
      rcases hlisted with rfl | rfl <;> exact .of_ne (by simp [DocumentOp.apply, setParseStatus])
  | cancelActive versionIds =>
      apply hkept
      simp only [DocumentOp.apply]
      split
      · exact .of_ne (by simp [cancelActive])
      · exact id
  | finishDelete released =>
      apply hkept
      simp only [DocumentOp.apply, finishDelete, document_updateDocument]
      obtain ⟨deletedAt, updatedAt, heq⟩ := tombstone_eq now released r.document
      rw [heq]
      unfold Unopened
      dsimp only
      split
      · exact fun h => by cases h
      · exact id
  | housekeep staleSecs =>
      apply hkept
      simp only [DocumentOp.apply]
      split
      · exact .of_ne (by simp [housekeep])
      · exact id
  | setIndexReady ready =>
      apply hkept
      simp only [DocumentOp.apply, setIndexReady, document_updateDocument]
      exact id
  | publishEmpty | setSummaryStatus | setDocumentProgress | setFinalizing | trySetProcessing =>
      exact absurd hlisted id
  | _ => exact hkept (unopened_onlySpans (DocumentOp.onlySpans_apply now (by trivial) r))

end DocumentRecord

/-!
# Interleaved deliveries
-/

/-- The database and the deliveries of conversions, by document and attempt:
those between their check and their claim, and those that are converting. -/
structure Conversions where
  db : Database
  checked : List (Uuid × Nat)
  converting : List (Uuid × Nat)

namespace Conversions

def start : Conversions where
  db := Database.empty
  checked := []
  converting := []

inductive Event where
  | check (id : Uuid) (attempt : Nat)
  | claim (now : Time) (id : Uuid) (attempt : Nat)
  | stage (now : Time) (id : Uuid) (attempt : Nat) (chunks : List (Uuid × Chunk))
      (embeddings : List (Uuid × ChunkEmbedding)) (replaceChunks : Bool)
  | fanout (now : Time) (id : Uuid) (attempt : Nat) (versionId : Uuid) (textCount : Nat)
      (images : List String) (fileName : String)
  | leave (id : Uuid) (attempt : Nat)
  | abandon (id : Uuid) (attempt : Nat)
  | transaction (t : Operation.Timed)

/-- A delivery checks, claims, stages its index any number of times and hands
over; it may leave before its claim and abandon its conversion. -/
def step : Event -> Conversions -> Conversions
  | .check id attempt, s =>
      match s.db.find id with
      | none => s
      | some r =>
          if r.convertRequested attempt then
            { s with checked := (id, attempt) :: s.checked }
          else s
  | .claim now id attempt, s =>
      { s with
        db := Operation.step ⟨now, .document id (.claim attempt)⟩ s.db
        checked := s.checked.erase (id, attempt)
        converting :=
          match s.db.find id with
          | none => s.converting
          | some r =>
              if (r.claim now attempt).2 then (id, attempt) :: s.converting
              else s.converting }
  | .stage now id attempt chunks embeddings replaceChunks, s =>
      { s with
        db := Operation.step
          ⟨now, .stageIndex id attempt chunks embeddings replaceChunks⟩ s.db }
  | .fanout now id attempt versionId textCount images fileName, s =>
      { s with
        db := Operation.step
          ⟨now, .document id (.afterIndexFanout versionId attempt textCount images fileName)⟩
          s.db
        converting := s.converting.erase (id, attempt) }
  | .leave id attempt, s => { s with checked := s.checked.erase (id, attempt) }
  | .abandon id attempt, s => { s with converting := s.converting.erase (id, attempt) }
  | .transaction t, s => { s with db := Operation.step t s.db }

/-- The events of the rest of the workflow: conversions are claimed, staged and
handed in by their deliveries only. -/
def Elsewhere : DocumentOp -> Prop
  | .claim _ | .afterIndexFanout _ _ _ _ _ => False
  | e => e.InWorkflow ∧ ¬ e.HandsIn .convert

def Permits : Event -> Conversions -> Prop
  | .claim _ id attempt, s => (id, attempt) ∈ s.checked
  | .stage _ id attempt _ _ _, s => (id, attempt) ∈ s.converting
  | .fanout _ id attempt _ _ _ _, s => (id, attempt) ∈ s.converting
  | .transaction t, _ =>
      (forall id e, t.operation.event id = some e -> Elsewhere e) ∧
        forall id attempt chunks embeddings replaceChunks,
          t.operation ≠ .stageIndex id attempt chunks embeddings replaceChunks
  | _, _ => True

/-- The condition: when a conversion is handed in no other delivery of it is
converting, and a document whose conversion was handed in does not fail while a
delivery of that conversion stands between its check and its claim. -/
def Quiet : Event -> Conversions -> Prop
  | .fanout _ id attempt _ _ _ _, s => forall r, s.db.find id = some r ->
      r.lockCurrent attempt = true -> (id, attempt) ∉ s.converting.erase (id, attempt)
  | .transaction t, s => forall id e r, t.operation.event id = some e ->
      s.db.find id = some r -> r.hasReceipt r.document.attempt .convert = true ->
      r.document.parseStatus ≠ .failed ->
      (e.apply t.now r).record.document.parseStatus = .failed ->
        (id, r.document.attempt) ∉ s.checked
  | _, _ => True

/-!
# The invariant
-/

/-- No document of an attempt whose conversion was handed in is pending. -/
def HandedIn (r : DocumentRecord) : Prop :=
  r.hasReceipt r.document.attempt .convert = true -> r.document.parseStatus ≠ .pending

structure Sound (s : Conversions) : Prop where
  documents : forall id r, s.db.find id = some r -> r.Bounded ∧ HandedIn r
  checked : forall id attempt r, (id, attempt) ∈ s.checked -> s.db.find id = some r ->
    r.document.attempt = attempt -> r.hasReceipt attempt .convert = true ->
      r.document.parseStatus ≠ .failed
  converting : forall id attempt, (id, attempt) ∈ s.converting ->
    exists r, s.db.find id = some r ∧ attempt ≤ r.document.attempt ∧
      (attempt = r.document.attempt -> r.document.parseStatus ≠ .pending) ∧
      r.hasReceipt attempt .convert = false

theorem sound_start : Sound start where
  documents := by
    intro id r hfind
    cases hfind
  checked := by
    intro id attempt r hmem
    cases hmem
  converting := by
    intro id attempt hmem
    cases hmem

variable {attempt : Nat} {r : DocumentRecord}

theorem hasReceipt_iff {key : JobKey} :
    r.hasReceipt attempt key = true <-> (attempt, key) ∈ r.receipts := by
  unfold DocumentRecord.hasReceipt
  exact List.contains_iff_mem

theorem hasReceipt_apply {e : DocumentOp} (helsewhere : ¬ e.HandsIn .convert) (r : DocumentRecord)
    (attempt : Nat) :
    (e.apply now r).record.hasReceipt attempt .convert = r.hasReceipt attempt .convert := by
  apply Bool.eq_iff_iff.mpr
  rw [hasReceipt_iff, hasReceipt_iff]
  constructor
  · intro hmem
    rcases (DocumentRecord.adds_apply now e r).receipts _ hmem with hold | ⟨_, hkey⟩
    · exact hold
    · exact absurd hkey helsewhere
  · exact (DocumentRecord.grows_apply now e r).receipts _

theorem elsewhere_inWorkflow {e : DocumentOp} (h : Elsewhere e) :
    e.InWorkflow ∧ ¬ e.HandsIn .convert := by
  cases e <;> first | exact absurd h id | exact h

variable {id : Uuid} {now : Time}

theorem receipts_created {db : Database} {op : Operation}
    (hcreated : Operation.Created now db id op r) (attempt : Nat) :
    r.hasReceipt attempt .convert = false := by
  unfold DocumentRecord.hasReceipt
  cases hcreated with
  | inserted versionId kind passages =>
      unfold Database.insertedRecord
      rw [DocumentRecord.receipts_recordDocumentChange]
      rfl
  | cloned sourceId versionId copyKeep sourceHadWiki rename source hsource =>
      cases copyKeep <;> cases sourceHadWiki <;>
        simp [Database.clonedRecord, DocumentRecord.putTx, DocumentRecord.bare]

theorem find_document (now : Time) (id id' : Uuid) (e : DocumentOp) (db : Database) :
    (Operation.step ⟨now, .document id e⟩ db).find id' =
      if id' = id then (db.find id').map fun r => (e.apply now r).record
      else db.find id' :=
  Database.find_transact now id id' (e.apply now) db

theorem find_stageIndex (now : Time) (docId : Uuid) (attempt : Nat)
    (chunks : List (Uuid × Chunk)) (embeddings : List (Uuid × ChunkEmbedding))
    (replaceChunks : Bool) (db : Database) (id : Uuid) :
    (Operation.step ⟨now, .stageIndex docId attempt chunks embeddings replaceChunks⟩ db).find
      id = db.find id := by
  unfold Operation.step
  simp only [Operation.run]
  rcases hstage : db.stageIndex docId attempt chunks embeddings replaceChunks
    with error | result
  · rfl
  · exact Database.find_eq_of_documents (Database.documents_stageIndex hstage) id

variable {s : Conversions}

theorem sound_check (hs : Sound s) :
    Sound (step (.check id attempt) s) := by
  simp only [step]
  split
  · exact hs
  · rename_i r hfind
    split
    · rename_i hrequested
      refine ⟨hs.documents, ?_, hs.converting⟩
      intro id' attempt' r' hmem hfind' hattempt hreceipt
      rcases List.mem_cons.mp hmem with heq | hold
      · cases heq
        rw [hfind] at hfind'
        cases hfind'
        simp only [DocumentRecord.convertRequested, Bool.and_eq_true, Bool.not_eq_true',
          hreceipt] at hrequested
        cases hrequested.2
      · exact hs.checked id' attempt' r' hold hfind' hattempt hreceipt
    · exact hs

theorem document_claim (now : Time) (attempt : Nat) (r : DocumentRecord) :
    (r.claim now attempt).1.record.document =
      if DocumentRecord.claimable attempt r.document then
        { r.document with parseStatus := .processing, errorMessage := some "", updatedAt := now }
      else r.document := by
  unfold DocumentRecord.claim
  exact DocumentRecord.document_updateDocument now _ r

theorem sound_claim (hs : Sound s) (hpermits : (id, attempt) ∈ s.checked) :
    Sound (step (.claim now id attempt) s) := by
  have hreceipts : forall (r : DocumentRecord) a,
      ((DocumentOp.claim attempt).apply now r).record.hasReceipt a .convert =
        r.hasReceipt a .convert :=
    fun r a => hasReceipt_apply (e := .claim attempt) now (fun h => h) r a
  have hdocument : forall r : DocumentRecord,
      ((DocumentOp.claim attempt).apply now r).record.document =
        if DocumentRecord.claimable attempt r.document then
          { r.document with parseStatus := .processing, errorMessage := some "", updatedAt := now }
        else r.document := document_claim now attempt
  have hattempt : forall r : DocumentRecord,
      ((DocumentOp.claim attempt).apply now r).record.document.attempt = r.document.attempt := by
    intro r
    rw [hdocument]
    split <;> rfl
  have hstatus : forall r : DocumentRecord,
      ((DocumentOp.claim attempt).apply now r).record.document.parseStatus = .processing ∨
        (((DocumentOp.claim attempt).apply now r).record.document.parseStatus =
          r.document.parseStatus ∧ DocumentRecord.claimable attempt r.document = false) := by
    intro r
    rw [hdocument]
    split
    · exact Or.inl rfl
    · rename_i hclaimable
      exact Or.inr ⟨rfl, by simpa using hclaimable⟩
  have hopen : forall r, s.db.find id = some r ->
      DocumentRecord.claimable attempt r.document = true ->
      r.hasReceipt attempt .convert = false := by
    intro r hfind hclaimable
    simp only [DocumentRecord.claimable, Bool.and_eq_true, Bool.or_eq_true, beq_iff_eq]
      at hclaimable
    obtain ⟨⟨hcurrent, _⟩, hwaits⟩ := hclaimable
    cases hreceipt : r.hasReceipt attempt .convert with
    | false => rfl
    | true =>
        rcases hwaits with hpending | hfailed
        · have hhanded := (hs.documents id r hfind).2
          unfold HandedIn at hhanded
          rw [hcurrent] at hhanded
          exact absurd hpending (hhanded hreceipt)
        · exact absurd hfailed (hs.checked id attempt r hpermits hfind hcurrent hreceipt)
  refine ⟨?_, ?_, ?_⟩
  · intro id' r' hfind'
    simp only [step] at hfind'
    rw [find_document] at hfind'
    split at hfind'
    · obtain ⟨r, hfind, rfl⟩ := Option.map_eq_some_iff.mp hfind'
      obtain ⟨hbounded, hhanded⟩ := hs.documents id' r hfind
      refine ⟨DocumentRecord.bounded_apply now _ hbounded, ?_⟩
      unfold HandedIn
      rw [hattempt, hreceipts]
      intro hreceipt
      rcases hstatus r with hprocessing | ⟨hsame, _⟩
      · rw [hprocessing]
        simp
      · rw [hsame]
        exact hhanded hreceipt
    · exact hs.documents id' r' hfind'
  · intro id' attempt' r' hmem hfind' hcurrent hreceipt
    simp only [step] at hmem hfind'
    have hmem' := List.mem_of_mem_erase hmem
    rw [find_document] at hfind'
    split at hfind'
    · obtain ⟨r, hfind, rfl⟩ := Option.map_eq_some_iff.mp hfind'
      rw [hattempt] at hcurrent
      rw [hreceipts] at hreceipt
      rcases hstatus r with hprocessing | ⟨hsame, _⟩
      · rw [hprocessing]
        simp
      · rw [hsame]
        exact hs.checked id' attempt' r hmem' hfind hcurrent hreceipt
    · exact hs.checked id' attempt' r' hmem' hfind' hcurrent hreceipt
  · have hkept : forall id' attempt', (id', attempt') ∈ s.converting ->
        exists r, (step (.claim now id attempt) s).db.find id' = some r ∧
          attempt' ≤ r.document.attempt ∧
          (attempt' = r.document.attempt -> r.document.parseStatus ≠ .pending) ∧
          r.hasReceipt attempt' .convert = false := by
      intro id' attempt' hmem
      obtain ⟨r, hfind, hle, hpending, hreceipt⟩ := hs.converting id' attempt' hmem
      simp only [step]
      rw [find_document, hfind]
      split
      · refine ⟨_, rfl, by rw [hattempt]; exact hle, ?_, by rw [hreceipts]; exact hreceipt⟩
        rw [hattempt]
        intro heq
        rcases hstatus r with hprocessing | ⟨hsame, _⟩
        · rw [hprocessing]
          simp
        · rw [hsame]
          exact hpending heq
      · exact ⟨r, rfl, hle, hpending, hreceipt⟩
    intro id' attempt' hmem
    cases hfind : s.db.find id with
    | none =>
        simp only [step, hfind] at hmem
        exact hkept id' attempt' hmem
    | some r =>
        simp only [step, hfind] at hmem
        split at hmem
        · rename_i hclaimed
          change DocumentRecord.claimable attempt r.document = true at hclaimed
          rcases List.mem_cons.mp hmem with heq | hold
          · cases heq
            refine ⟨((DocumentOp.claim attempt).apply now r).record, ?_, ?_, ?_, ?_⟩
            · simp only [step]
              rw [find_document, if_pos rfl, hfind]
              rfl
            · rw [hattempt]
              simp only [DocumentRecord.claimable, Bool.and_eq_true, beq_iff_eq] at hclaimed
              exact Nat.le_of_eq hclaimed.1.1.symm
            · intro _
              rw [hdocument, if_pos hclaimed]
              simp
            · rw [hreceipts]
              exact hopen r hfind hclaimed
          · exact hkept id' attempt' hold
        · exact hkept id' attempt' hmem

theorem sound_stage {chunks : List (Uuid × Chunk)} {embeddings : List (Uuid × ChunkEmbedding)}
    {replaceChunks : Bool} (hs : Sound s) :
    Sound (step (.stage now id attempt chunks embeddings replaceChunks) s) where
  documents := by
    intro id' r hfind
    simp only [step] at hfind
    rw [find_stageIndex] at hfind
    exact hs.documents id' r hfind
  checked := by
    intro id' attempt' r hmem hfind
    simp only [step] at hmem hfind
    rw [find_stageIndex] at hfind
    exact hs.checked id' attempt' r hmem hfind
  converting := by
    intro id' attempt' hmem
    simp only [step] at hmem ⊢
    rw [find_stageIndex]
    exact hs.converting id' attempt' hmem

/-- The handing over changes nothing, or it is current, keeps a working status or
completes it, and commits the receipt of its own attempt. -/
theorem fanout_cases (now : Time) (versionId : Uuid) (attempt textCount : Nat)
    (images : List String) (fileName : String) (r : DocumentRecord) :
    let r' := ((DocumentOp.afterIndexFanout versionId attempt textCount images fileName).apply
      now r).record
    r' = r ∨ (r.lockCurrent attempt = true ∧
      r'.document.attempt = r.document.attempt ∧
      (r'.document.parseStatus = r.document.parseStatus ∨
        r'.document.parseStatus = .completed) ∧
      forall a, a ≠ attempt -> r'.hasReceipt a .convert = r.hasReceipt a .convert) := by
  dsimp only
  cases hlock : r.lockCurrent attempt with
  | false =>
      left
      simp only [DocumentOp.apply, DocumentRecord.afterIndexFanout]
      split
      · simp [DocumentRecord.fanoutText, hlock, Change.unchanged]
      · simp [DocumentRecord.fanoutImages, hlock, Change.unchanged]
  | true =>
      right
      obtain ⟨hattempt, hstatus⟩ := DocumentRecord.document_afterIndexFanout now versionId
        attempt textCount images fileName r
      refine ⟨rfl, hattempt, hstatus, ?_⟩
      intro a hother
      have hcurrent : r.document.attempt = attempt := by
        simp only [DocumentRecord.lockCurrent, Bool.and_eq_true, beq_iff_eq] at hlock
        exact hlock.1.1
      apply Bool.eq_iff_iff.mpr
      rw [hasReceipt_iff, hasReceipt_iff]
      constructor
      · intro hmem
        rcases (DocumentRecord.adds_apply now _ r).receipts _ hmem with hold | ⟨hnew, _⟩
        · exact hold
        · exact absurd ((hnew.trans hattempt).trans hcurrent) hother
      · exact (DocumentRecord.grows_apply now _ r).receipts _

theorem ne_failed_of_lockCurrent (hlock : r.lockCurrent attempt = true) :
    r.document.parseStatus ≠ .failed := by
  intro hfailed
  simp [DocumentRecord.lockCurrent, hfailed, ParseStatus.isWorking] at hlock

theorem sound_fanout {versionId : Uuid} {textCount : Nat} {images : List String}
    {fileName : String} (hs : Sound s) (hpermits : (id, attempt) ∈ s.converting)
    (hquiet : Quiet (.fanout now id attempt versionId textCount images fileName) s) :
    Sound (step (.fanout now id attempt versionId textCount images fileName) s) := by
  obtain ⟨r, hfind, _, hopened, _⟩ := hs.converting id attempt hpermits
  obtain ⟨hbounded, hhanded⟩ := hs.documents id r hfind
  have hcases := fanout_cases now versionId attempt textCount images fileName r
  dsimp only at hcases
  have hsame : forall id', id' ≠ id ->
      (step (.fanout now id attempt versionId textCount images fileName) s).db.find id' =
        s.db.find id' := by
    intro id' hne
    simp only [step]
    rw [find_document, if_neg hne]
  have hnew : (step (.fanout now id attempt versionId textCount images fileName) s).db.find id =
      some ((DocumentOp.afterIndexFanout versionId attempt textCount images fileName).apply
        now r).record := by
    simp only [step]
    rw [find_document, if_pos rfl, hfind]
    rfl
  have hbounded' := DocumentRecord.bounded_apply now
    (.afterIndexFanout versionId attempt textCount images fileName) hbounded
  generalize ((DocumentOp.afterIndexFanout versionId attempt textCount images fileName).apply
    now r).record = r' at hcases hnew hbounded'
  refine ⟨?_, ?_, ?_⟩
  · intro id' found hfound
    by_cases hid : id' = id
    · subst hid
      rw [hnew] at hfound
      cases hfound
      refine ⟨hbounded', ?_⟩
      rcases hcases with rfl | ⟨hlock, hattempt, hstatus, _⟩
      · exact hhanded
      · intro _
        have hcurrent : attempt = r.document.attempt := by
          simp only [DocumentRecord.lockCurrent, Bool.and_eq_true, beq_iff_eq] at hlock
          exact hlock.1.1.symm
        rcases hstatus with hkept | hdone
        · rw [hkept]
          exact hopened hcurrent
        · rw [hdone]
          simp
    · rw [hsame id' hid] at hfound
      exact hs.documents id' found hfound
  · intro id' attempt' found hmem hfound hcurrent hreceipt
    by_cases hid : id' = id
    · subst hid
      rw [hnew] at hfound
      cases hfound
      rcases hcases with rfl | ⟨hlock, hattempt, hstatus, _⟩
      · exact hs.checked id' attempt' _ hmem hfind hcurrent hreceipt
      · rcases hstatus with hkept | hdone
        · rw [hkept]
          exact ne_failed_of_lockCurrent hlock
        · rw [hdone]
          simp
    · rw [hsame id' hid] at hfound
      exact hs.checked id' attempt' found hmem hfound hcurrent hreceipt
  · intro id' attempt' hmem
    have hmem' : (id', attempt') ∈ s.converting.erase (id, attempt) := hmem
    obtain ⟨old, hold, hle, hopened', hreceipt⟩ :=
      hs.converting id' attempt' (List.mem_of_mem_erase hmem')
    by_cases hid : id' = id
    · subst hid
      rw [hfind] at hold
      cases hold
      refine ⟨r', hnew, ?_⟩
      rcases hcases with rfl | ⟨hlock, hattempt, hstatus, hreceipts⟩
      · exact ⟨hle, hopened', hreceipt⟩
      · have hother : attempt' ≠ attempt := by
          intro heq
          subst heq
          exact hquiet r hfind hlock hmem'
        rw [hreceipts attempt' hother, hattempt]
        refine ⟨hle, ?_, hreceipt⟩
        intro heq
        rcases hstatus with hkept | hdone
        · rw [hkept]
          exact hopened' heq
        · rw [hdone]
          simp
    · rw [hsame id' hid]
      exact ⟨old, hold, hle, hopened', hreceipt⟩

theorem sound_transaction {t : Operation.Timed} (hs : Sound s)
    (hpermits : Permits (.transaction t) s) (hquiet : Quiet (.transaction t) s) :
    Sound (step (.transaction t) s) := by
  have hlisted : forall id e, t.operation.event id = some e ->
      e.InWorkflow ∧ ¬ e.HandsIn .convert :=
    fun id e hevent => elsewhere_inWorkflow (hpermits.1 id e hevent)
  have hfresh : forall {r : DocumentRecord} {attempt : Nat}, r.Bounded ->
      r.hasReceipt attempt .convert = true -> attempt ≤ r.document.attempt :=
    fun hbounded hreceipt => hbounded.receipts _ (hasReceipt_iff.mp hreceipt)
  refine ⟨?_, ?_, ?_⟩
  · apply Operation.forall_find_step (P := fun _ r => r.Bounded ∧ HandedIn r) _ _ hs.documents
    · intro id r hcreated
      refine ⟨DocumentRecord.bounded_created hcreated, ?_⟩
      intro hreceipt
      rw [receipts_created hcreated] at hreceipt
      cases hreceipt
    · intro id e r hevent hfind hr
      obtain ⟨hbounded, hhanded⟩ := hr
      obtain ⟨hworkflow, hnone⟩ := hlisted id e hevent
      refine ⟨DocumentRecord.bounded_apply t.now e hbounded, ?_⟩
      intro hreceipt hpending
      rw [hasReceipt_apply t.now hnone] at hreceipt
      have hle := hfresh hbounded hreceipt
      have hadvance := (DocumentRecord.advances_apply t.now e r).attempt
      have hsame := Nat.le_antisymm hle hadvance
      rcases DocumentRecord.pending_apply t.now hworkflow hpending with hold | hlt
      · rw [hsame] at hreceipt
        exact hhanded hreceipt hold
      · omega
  · intro id attempt r' hmem hfind' hcurrent hreceipt
    simp only [step] at hmem hfind'
    cases hold : s.db.find id with
    | none =>
        rcases Operation.find_step_of_none (t := t) hold with hnone | ⟨found, hcreated, hnew⟩
        · rw [hnone] at hfind'
          cases hfind'
        · rw [hnew] at hfind'
          cases hfind'
          rw [receipts_created hcreated] at hreceipt
          cases hreceipt
    | some r =>
        rcases Operation.find_step_of_some (t := t) hold with hsame | ⟨e, hevent, hnew⟩
        · rw [hsame] at hfind'
          cases hfind'
          exact hs.checked id attempt _ hmem hold hcurrent hreceipt
        · rw [hnew] at hfind'
          cases hfind'
          obtain ⟨_, hnone⟩ := hlisted id e hevent
          rw [hasReceipt_apply t.now hnone] at hreceipt
          have hle := hfresh (hs.documents id r hold).1 hreceipt
          have hadvance := (DocumentRecord.advances_apply t.now e r).attempt
          have hattempt : r.document.attempt = attempt := by omega
          intro hfailed
          have hopen := hs.checked id attempt r hmem hold hattempt hreceipt
          subst hattempt
          exact hquiet id e r hevent hold hreceipt hopen hfailed hmem
  · intro id attempt hmem
    obtain ⟨r, hfind, hle, hopened, hreceipt⟩ := hs.converting id attempt hmem
    rcases Operation.find_step_of_some (t := t) hfind with hsame | ⟨e, hevent, hnew⟩
    · exact ⟨r, hsame, hle, hopened, hreceipt⟩
    · obtain ⟨hworkflow, hnone⟩ := hlisted id e hevent
      have hadvance := (DocumentRecord.advances_apply t.now e r).attempt
      refine ⟨_, hnew, Nat.le_trans hle hadvance, ?_, ?_⟩
      · intro heq hpending
        rcases DocumentRecord.pending_apply t.now hworkflow hpending with hold | hlt
        · exact hopened (by omega) hold
        · omega
      · rw [hasReceipt_apply t.now hnone]
        exact hreceipt

theorem sound_step {e : Event} (hs : Sound s) (hpermits : Permits e s) (hquiet : Quiet e s) :
    Sound (step e s) := by
  cases e with
  | check id attempt => exact sound_check hs
  | claim now id attempt => exact sound_claim hs hpermits
  | stage now id attempt chunks embeddings replaceChunks => exact sound_stage hs
  | fanout now id attempt versionId textCount images fileName =>
      exact sound_fanout hs hpermits hquiet
  | leave id attempt =>
      exact ⟨hs.documents,
        fun id' attempt' r hmem => hs.checked id' attempt' r (List.mem_of_mem_erase hmem),
        hs.converting⟩
  | abandon id attempt =>
      exact ⟨hs.documents, hs.checked,
        fun id' attempt' hmem => hs.converting id' attempt' (List.mem_of_mem_erase hmem)⟩
  | transaction t => exact sound_transaction hs hpermits hquiet

/-!
# Finished conversions
-/

/-- No delivery that may claim reopens the document of an attempt whose
conversion was handed in, and none that may stage touches the chunks of that
attempt. -/
structure KeepsFinished (s : Conversions) : Prop where
  claims : forall now id attempt r r', Permits (.claim now id attempt) s ->
    s.db.find id = some r -> r.document.attempt = attempt ->
    r.hasReceipt attempt .convert = true ->
    (step (.claim now id attempt) s).db.find id = some r' ->
      ¬ (r.document.parseStatus = .failed ∧ r'.document.parseStatus = .processing)
  stages : forall now id attempt chunks embeddings replaceChunks r,
    Permits (.stage now id attempt chunks embeddings replaceChunks) s ->
    s.db.find id = some r -> r.hasReceipt attempt .convert = true ->
    forall chunkId chunk, s.db.chunks.lookup chunkId = some chunk ->
      chunk.documentId = id -> chunk.generation = attempt ->
      (step (.stage now id attempt chunks embeddings replaceChunks) s).db.chunks.lookup
        chunkId = some chunk

theorem keepsFinished_of_sound (hs : Sound s) : KeepsFinished s where
  claims := by
    rintro now id attempt r r' hpermits hfind hcurrent hreceipt _ ⟨hfailed, _⟩
    exact hs.checked id attempt r hpermits hfind hcurrent hreceipt hfailed
  stages := by
    intro now id attempt chunks embeddings replaceChunks r hpermits hfind hreceipt
    obtain ⟨found, hfound, _, _, hnone⟩ := hs.converting id attempt hpermits
    rw [hfind] at hfound
    cases hfound
    rw [hreceipt] at hnone
    cases hnone

end Conversions

/-- In every run in which conversions are handed in alone and no document fails
under a delivery that has checked a finished conversion, finished conversions
are neither reopened nor run again. -/
theorem finished_conversion_stays_finished {s : Conversions}
    (hrun : Reaches Conversions.step (fun e s => Conversions.Permits e s ∧ Conversions.Quiet e s)
      Conversions.start s) :
    s.KeepsFinished := by
  apply Conversions.keepsFinished_of_sound
  exact Reaches.invariant (P := Conversions.Sound)
    (fun _ _ hs hguard => Conversions.sound_step hs hguard.1 hguard.2)
    Conversions.sound_start hrun

namespace Conversions

/-- Two deliveries check, one of them converts and hands in. -/
def handedInTrace : List Event :=
  [.transaction ⟨0, .insertDocument 1 7 .file []⟩,
    .check 1 1,
    .check 1 1,
    .claim 1 1 1,
    .stage 2 1 1 [(10, ⟨7, 1, 1, "text", "body", "", 0, 4, none, [], none⟩)] [] true,
    .fanout 3 1 1 7 1 [] "report.txt"]

def handedIn : Conversions :=
  perform step start handedInTrace

theorem permits_insertDocument {now : Time} {id versionId : Uuid} {kind : DocumentKind}
    {passages : List String} {s : Conversions} :
    Permits (.transaction ⟨now, .insertDocument id versionId kind passages⟩) s :=
  ⟨fun _ _ hevent => (by cases hevent), fun _ _ _ _ _ => (by simp)⟩

theorem quiet_insertDocument {now : Time} {id versionId : Uuid} {kind : DocumentKind}
    {passages : List String} {s : Conversions} :
    Quiet (.transaction ⟨now, .insertDocument id versionId kind passages⟩) s :=
  fun _ _ _ hevent => (by cases hevent)

/-- The derived job of the finished conversion fails. -/
def failedAfter : Conversions :=
  step (.transaction ⟨4, .document 1 (.failJob 1 .postprocess "summary failed")⟩) handedIn

/-- The second delivery claims the failed document. -/
def reopened : Conversions :=
  step (.claim 5 1 1) failedAfter

end Conversions

/-- A derived job fails between the check and the claim of a second delivery:
the claim reopens the finished conversion and its empty index replaces the
chunks of the first one. -/
theorem finished_conversion_reopened :
    Reaches Conversions.step Conversions.Permits Conversions.start Conversions.failedAfter ∧
      ¬ Conversions.failedAfter.KeepsFinished ∧
      Reaches Conversions.step Conversions.Permits Conversions.start Conversions.reopened ∧
      ¬ Conversions.reopened.KeepsFinished := by
  have hhanded : Reaches Conversions.step Conversions.Permits Conversions.start
      Conversions.handedIn :=
    reaches_perform (Reaches.refl _) ⟨Conversions.permits_insertDocument, trivial, trivial,
      (by decide : (1, 1) ∈ _), (by decide : (1, 1) ∈ _), (by decide : (1, 1) ∈ _), trivial⟩
  have hfailed : Reaches Conversions.step Conversions.Permits Conversions.start
      Conversions.failedAfter := by
    apply hhanded.snoc
    refine ⟨?_, fun _ _ _ _ _ => (by simp)⟩
    intro id e hevent
    simp only [Operation.event] at hevent
    split at hevent
    · cases hevent
      exact ⟨trivial, fun h => h⟩
    · cases hevent
  have hreopened : Reaches Conversions.step Conversions.Permits Conversions.start
      Conversions.reopened :=
    hfailed.snoc (by decide : (1, 1) ∈ Conversions.failedAfter.checked)
  refine ⟨hfailed, ?_, hreopened, ?_⟩
  · intro hkeeps
    exact hkeeps.claims 5 1 1 ((Conversions.failedAfter.db.find 1).get (by decide))
      ((Conversions.reopened.db.find 1).get (by decide))
      (by decide : (1, 1) ∈ Conversions.failedAfter.checked) (Option.some_get _).symm
      (by decide) (by decide) (Option.some_get _).symm ⟨by decide, by decide⟩
  · intro hkeeps
    have hkept := hkeeps.stages 6 1 1 [] [] true
      ((Conversions.reopened.db.find 1).get (by decide))
      (by decide : (1, 1) ∈ Conversions.reopened.converting) (Option.some_get _).symm
      (by decide) 10 ((Conversions.reopened.db.chunks.lookup 10).get (by decide))
      (Option.some_get _).symm (by decide) (by decide)
    revert hkept
    decide

/-- A second delivery that finds its conversion finished leaves it alone. -/
theorem finished_conversion_stays_finished_redelivered :
    Conversions.handedIn.KeepsFinished ∧
      (1, 1) ∈ Conversions.handedIn.checked ∧
      exists r, Conversions.handedIn.db.find 1 = some r ∧
        r.hasReceipt 1 .convert = true := by
  refine ⟨finished_conversion_stays_finished ?_, by decide,
    (Conversions.handedIn.db.find 1).get (by decide), (Option.some_get _).symm, by decide⟩
  refine reaches_perform (Reaches.refl _) ⟨⟨Conversions.permits_insertDocument,
    Conversions.quiet_insertDocument⟩, ⟨trivial, trivial⟩, ⟨trivial, trivial⟩,
    ⟨(by decide : (1, 1) ∈ _), trivial⟩, ⟨(by decide : (1, 1) ∈ _), trivial⟩,
    ⟨(by decide : (1, 1) ∈ _), ?_⟩, trivial⟩
  intro r _ _
  decide

end Workflow
end KnowledgeBrain
