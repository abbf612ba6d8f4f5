import KnowledgeBrain.Foundation.Runs
import KnowledgeBrain.Workflow.Effects
import KnowledgeBrain.Workflow.Growth

/-!
# Reachable workflow states

Any transaction may run at any time with any arguments, with one exception:
the write `dispatch` performs for a row it has read is the one it decides on.
A row is always read with the payload of its key, so `dispatch` acknowledges
or gives up reconcile rows only.
-/

namespace KnowledgeBrain
namespace Workflow

open Foundation ParseStatus

/-- `dispatch` decides on this write for a row of this key. -/
def DispatchDecides (key : JobKey) (s : Settlement) : Prop :=
  exists maxAttempts delivery versionLive preparation queueError,
    delivery.payload.key = key ∧
      s = settlement maxAttempts delivery versionLive preparation queueError

theorem Work.key_eq_reconcile {work : Work} :
    work.key = .reconcile <-> work = .reconcile := by
  cases work <;> simp [Work.key]

variable {s : Settlement}

theorem dispatchDecides_reconcile (h : DispatchDecides .reconcile s) :
    s ≠ .exhaust := by
  obtain ⟨maxAttempts, delivery, versionLive, preparation, queueError, hkey, rfl⟩ := h
  have hpayload : delivery.payload = .reconcile := Work.key_eq_reconcile.mp hkey
  unfold settlement
  simp only [hpayload, beq_self_eq_true, if_true]
  split
  · simp
  · cases preparation with
    | enqueue =>
        dsimp only
        split <;> simp
    | pendingDerived => simp
    | ready => simp
    | unbound => simp
    | superseded => simp
    | terminal => simp

theorem dispatchDecides_of_ne {key : JobKey} (h : DispatchDecides key s) (hkey : key ≠ .reconcile) :
    s = .exhaust ∨ exists error, s = .offered error := by
  obtain ⟨maxAttempts, delivery, versionLive, preparation, queueError, hpayload, rfl⟩ := h
  have hne : delivery.payload ≠ .reconcile := by
    intro heq
    apply hkey
    rw [← hpayload, heq]
    rfl
  unfold settlement
  rw [if_neg (by simpa using hne)]
  split
  · exact Or.inl rfl
  · exact Or.inr ⟨queueError, rfl⟩

def DocumentOp.Legal : DocumentOp -> Prop
  | settleDelivery _ key _ s => DispatchDecides key s
  | _ => True

def Operation.Legal : Operation -> Prop
  | .document _ op => op.Legal
  | _ => True

namespace Operation

variable {op : Operation}

theorem legal_event {id : Uuid} {e : DocumentOp} (hlegal : op.Legal)
    (hevent : op.event id = some e) : e.Legal := by
  unfold event at hevent
  split at hevent
  · split at hevent
    · cases hevent
      exact hlegal
    · cases hevent
  · split at hevent
    · cases hevent
      trivial
    · cases hevent
  · split at hevent
    · cases hevent
      trivial
    · cases hevent
  · cases hevent
    trivial
  · cases hevent
    trivial
  · cases hevent
    trivial
  · cases hevent

end Operation

/-- The databases any interleaving of transactions leads to. -/
def Reachable : Database -> Prop :=
  Reaches Operation.step (fun t _ => t.operation.Legal) Database.empty

theorem find_empty (id : Uuid) : Database.empty.find id = none := rfl

variable {db : Database}

/-- A property of single documents that creation establishes and the events of
the allowed transactions keep holds after every run. -/
theorem forall_find_of_reaches {guard : Operation.Timed -> Database -> Prop}
    {P : Uuid -> DocumentRecord -> Prop} (hcreated : forall t db id r, guard t db ->
      (forall id r, db.find id = some r -> P id r) ->
      Operation.Created t.now db id t.operation r -> P id r)
    (hevent : forall t db id e r, guard t db -> t.operation.event id = some e ->
      db.find id = some r -> P id r -> P id (e.apply t.now r).record)
    (hrun : Reaches Operation.step guard Database.empty db) :
    forall id r, db.find id = some r -> P id r := by
  apply Reaches.invariant (P := fun db => forall id r, db.find id = some r -> P id r)
    _ _ hrun
  · intro t s hinv hguard
    apply Operation.forall_find_step _ _ hinv
    · intro id r hr
      exact hcreated t s id r hguard hinv hr
    · intro id e r he hfind hr
      exact hevent t s id e r hguard he hfind hr
  · intro id r hfind
    rw [find_empty] at hfind
    cases hfind

/-!
# Rows are stored under the keys of their jobs
-/

variable (now : Time)

namespace DocumentRecord

def RowsWellKeyed (r : DocumentRecord) : Prop :=
  forall key row, r.outbox.lookup key = some row -> WellKeyed key row

theorem rowsWellKeyed_bare (before : Option DocumentState) (d : Document) :
    RowsWellKeyed ((bare d).recordDocumentChange now before).record := by
  apply (Grows.recordDocumentChange now before (bare d)).wellKeyed
  intro key row hrow
  cases hrow

theorem rowsWellKeyed_created {now : Time} {id : Uuid} {r : DocumentRecord}
    (hcreated : Operation.Created now db id op r) :
    RowsWellKeyed r := by
  cases hcreated with
  | inserted versionId kind passages =>
      exact rowsWellKeyed_bare now none _
  | cloned sourceId versionId copyKeep sourceHadWiki rename source hsource =>
      have hput : forall (work : Work) (s : DocumentRecord), RowsWellKeyed s ->
          RowsWellKeyed (s.putTx now versionId 1 work) :=
        fun work s hs => (Grows.putTx now versionId 1 work s).wellKeyed hs
      unfold Database.clonedRecord
      dsimp only
      split
      · split
        · exact hput .wiki _ (hput _ _ (rowsWellKeyed_bare now none _))
        · exact hput _ _ (rowsWellKeyed_bare now none _)
      · exact rowsWellKeyed_bare now none _

end DocumentRecord

/-!
# Generation isolation

A worker of an abandoned attempt, or of a document that was cancelled or
deleted, changes nothing.  Most operations lock the document and give up;
`update_status` and `publish_empty` match no row but still record a change,
which retires the jobs of a terminal document.  That the recording changes
nothing rests on the invariant that those jobs are retired already.
-/

namespace DocumentRecord

/-- The jobs of a cancelled or deleted document are all retired. -/
def TerminalRowsRetired (r : DocumentRecord) : Prop :=
  r.document.parseStatus.isTerminal = true -> forall key row, key.2 ≠ .reconcile ->
    r.outbox.lookup key = some row -> row.state = .complete

theorem terminalRowsRetired_of_not_terminal {r : DocumentRecord}
    (hstatus : r.document.parseStatus.isTerminal = false) : TerminalRowsRetired r := by
  intro hterminal
  rw [hstatus] at hterminal
  cases hterminal

theorem terminalRowsRetired_recordDocumentChange (before : Option DocumentState)
    (r : DocumentRecord) : TerminalRowsRetired (r.recordDocumentChange now before).record := by
  intro hterminal key row hkey hrow
  rw [document_recordDocumentChange] at hterminal
  rw [lookup_recordDocumentChange_of_terminal hterminal hkey] at hrow
  obtain ⟨old, _, hold⟩ := Option.map_eq_some_iff.mp hrow
  rw [← hold]

theorem terminalRowsRetired_updateDocument (f : Document -> Document) (r : DocumentRecord) :
    TerminalRowsRetired (r.updateDocument now f).record :=
  terminalRowsRetired_recordDocumentChange now _ _

theorem terminalRowsRetired_completeTx (attempt : Nat) (key : JobKey) {r : DocumentRecord}
    (hr : TerminalRowsRetired r) : TerminalRowsRetired (r.completeTx now attempt key).1.record := by
  cases hreceipt : r.hasReceipt attempt key with
  | true =>
      rw [completeTx_of_receipt now attempt key hreceipt]
      exact hr
  | false =>
      rw [completeTx_of_fresh now attempt key hreceipt]
      exact terminalRowsRetired_recordDocumentChange now _ _

theorem isTerminal_of_lockCurrent {attempt : Nat} {r : DocumentRecord}
    (hlock : r.lockCurrent attempt = true) : r.document.parseStatus.isTerminal = false := by
  unfold lockCurrent at hlock
  cases hstatus : r.document.parseStatus <;> simp [hstatus, isWorking] at hlock <;> rfl

theorem terminalRowsRetired_put (versionId : Uuid) (attempt : Nat) (work : Work)
    {r : DocumentRecord} (hr : TerminalRowsRetired r) :
    TerminalRowsRetired (r.put now versionId attempt work).record := by
  unfold put
  split
  · rename_i hlock
    exact terminalRowsRetired_of_not_terminal (isTerminal_of_lockCurrent hlock)
  · exact hr

theorem terminalRowsRetired_failJob (attempt : Nat) (key : JobKey) (error : String)
    {r : DocumentRecord} (hr : TerminalRowsRetired r) :
    TerminalRowsRetired (r.failJob now attempt key error).record := by
  unfold failJob
  split
  · exact hr
  · exact terminalRowsRetired_recordDocumentChange now _ _

theorem terminalRowsRetired_settleDelivery (attempt : Nat) (key : JobKey) (revision : Nat)
    (hs : DispatchDecides key s) {r : DocumentRecord} (hr : TerminalRowsRetired r) :
    TerminalRowsRetired (r.settleDelivery now attempt key revision s).record := by
  unfold settleDelivery
  split
  · exact terminalRowsRetired_failJob now attempt key _ hr
  · rename_i hexhaust
    intro hterminal key' row hkey' hrow
    simp only [Change.unchanged, Table.lookup_modify] at hterminal hrow
    split at hrow
    · rename_i heq
      subst heq
      obtain ⟨old, hold, rfl⟩ := Option.map_eq_some_iff.mp hrow
      have hcomplete := hr hterminal (attempt, key) old hkey' hold
      rcases dispatchDecides_of_ne hs hkey' with hs' | ⟨error, rfl⟩
      · exact absurd hs' hexhaust
      · unfold Settlement.settleRow
        split
        · exact hcomplete
        · simp [hcomplete, OutboxState.isLive]
    · exact hr hterminal key' row hkey' hrow

theorem terminalRowsRetired_onlySpans {r r' : DocumentRecord} (h : OnlySpans r r')
    (hr : TerminalRowsRetired r) : TerminalRowsRetired r' := by
  obtain ⟨at', hdocument⟩ := h.document
  unfold TerminalRowsRetired
  rw [hdocument, h.outbox]
  exact hr

theorem terminalRowsRetired_apply {e : DocumentOp} (hlegal : e.Legal) {r : DocumentRecord}
    (hr : TerminalRowsRetired r) : TerminalRowsRetired (e.apply now r).record := by
  by_cases hdocument : e.OnDocument
  · obtain ⟨_, rfl | ⟨f, rfl⟩, hspans⟩ := DocumentOp.onDocument_apply now hdocument r
    · exact terminalRowsRetired_onlySpans hspans hr
    · exact terminalRowsRetired_onlySpans hspans (terminalRowsRetired_updateDocument now f r)
  cases e with
  | afterIndexFanout versionId attempt textCount images fileName =>
      simp only [DocumentOp.apply, afterIndexFanout, fanoutText, fanoutImages]
      split
      · split
        · exact hr
        · apply terminalRowsRetired_completeTx
          exact terminalRowsRetired_updateDocument now _ _
      · split
        · exact hr
        · rename_i hlock
          apply terminalRowsRetired_completeTx
          apply terminalRowsRetired_of_not_terminal
          rw [document_putAll]
          exact isTerminal_of_lockCurrent (by simpa using hlock)
  | put versionId attempt work => exact terminalRowsRetired_put now versionId attempt work hr
  | complete attempt key =>
      simp only [DocumentOp.apply, complete]
      split
      · exact terminalRowsRetired_completeTx now attempt key hr
      · exact hr
  | beginPostprocess versionId attempt work =>
      simp only [DocumentOp.apply, beginPostprocess]
      split
      · exact hr
      · split
        · exact hr
        · exact terminalRowsRetired_recordDocumentChange now _ _
  | commitChunks attempt key status description finish =>
      simp only [DocumentOp.apply]
      split
      · exact hr
      · exact terminalRowsRetired_recordDocumentChange now _ _
  | failJob attempt key error => exact terminalRowsRetired_failJob now attempt key error hr
  | settleDelivery attempt key revision s =>
      exact terminalRowsRetired_settleDelivery now attempt key revision hlegal hr
  | _ => exact absurd trivial hdocument

/-!
# A stale call changes nothing
-/

/-- A worker of `attempt` no longer owns the document. -/
def Stale (attempt : Nat) (r : DocumentRecord) : Prop :=
  r.document.attempt ≠ attempt ∨ r.document.parseStatus.isTerminal = true

section Stale

variable {attempt : Nat} {r : DocumentRecord}

theorem lockCurrent_of_stale (hstale : Stale attempt r) : r.lockCurrent attempt = false := by
  unfold lockCurrent
  rcases hstale with hattempt | hterminal
  · simp [hattempt]
  · cases hstatus : r.document.parseStatus <;>
      simp [hstatus, isTerminal, isWorking] at hterminal ⊢

theorem lockOpen_of_stale (hstale : Stale attempt r) : r.lockOpen attempt = false := by
  unfold lockOpen
  rcases hstale with hattempt | hterminal
  · simp [hattempt]
  · cases hstatus : r.document.parseStatus <;>
      simp [hstatus, isTerminal, isOpen] at hterminal ⊢

theorem lockSpanDocument_of_stale (hstale : Stale attempt r) :
    r.lockSpanDocument attempt = false := by
  unfold lockSpanDocument
  rcases hstale with hattempt | hterminal
  · simp [hattempt]
  · simp [hterminal]

/-- Recording that nothing changed writes no row. -/
theorem recordDocumentChange_self (hr : TerminalRowsRetired r) :
    r.recordDocumentChange now (some (captureDocumentState r)) = Change.unchanged r := by
  have hsource : sourceChanged (some (captureDocumentState r)) r = false := by
    simp [sourceChanged, captureDocumentState]
  have hattempt : attemptChanged (some (captureDocumentState r)) r = false := by
    simp [attemptChanged, captureDocumentState]
  have hstatus : statusChanged (some (captureDocumentState r)) r = false := by
    simp [statusChanged, captureDocumentState]
  have hretire : r.document.parseStatus.isTerminal = true -> r.retireRows = r := by
    intro hterminal
    have houtbox : r.outbox.mapRows (fun key row =>
        if retiresRow r.document key then { row with state := .complete } else row) =
          r.outbox := by
      apply Table.mapRows_eq_self
      intro key row hrow
      split
      · rename_i hkey
        have hne : key.2 ≠ .reconcile := by
          intro heq
          simp [retiresRow, heq] at hkey
        rw [← hr hterminal key row hne hrow]
      · rfl
    unfold retireRows
    rw [houtbox]
  unfold recordDocumentChange Change.unchanged
  simp only [hsource, hattempt, hstatus, Bool.false_or, Bool.and_false, Option.isNone_some,
    Bool.false_eq_true, if_false]
  split
  · rename_i hterminal
    rw [hretire hterminal]
  · rfl

theorem updateDocument_eq_self {f : Document -> Document} (hr : TerminalRowsRetired r)
    (hf : f r.document = r.document) : r.updateDocument now f = Change.unchanged r := by
  unfold updateDocument
  rw [hf]
  exact recordDocumentChange_self now hr

theorem updateStatus_of_stale (status : ParseStatus) (error : String) (hr : TerminalRowsRetired r)
    (hstale : Stale attempt r) : r.updateStatus now attempt status error = Change.unchanged r := by
  apply updateDocument_eq_self now hr
  rw [lockOpen_of_stale hstale]
  rfl

theorem publishEmpty_of_stale (hr : TerminalRowsRetired r) (hstale : Stale attempt r) :
    r.publishEmpty now attempt = Change.unchanged r := by
  apply updateDocument_eq_self now hr
  rw [if_neg]
  rcases hstale with hattempt | hterminal
  · simp [hattempt]
  · cases hstatus : r.document.parseStatus <;>
      simp [hstatus, isTerminal] at hterminal ⊢

theorem startSpan_of_stale (spanId : Uuid) (name : String) (parentName : Option String)
    (input : Option (List (String × SpanValue))) (hstale : Stale attempt r) :
    r.startSpan now spanId attempt name parentName input = r := by
  unfold startSpan
  simp [lockSpanDocument_of_stale hstale]

theorem skipSpan_of_stale (spanId : Uuid) (name reason : String) (hstale : Stale attempt r) :
    r.skipSpan now spanId attempt name reason = r := by
  unfold skipSpan
  rw [startSpan_of_stale now spanId name _ _ hstale]
  unfold markSkipped
  simp [lockSpanDocument_of_stale hstale]

theorem cancelDependentStages_of_stale (failedStage : String) (hstale : Stale attempt r) :
    r.cancelDependentStages now attempt failedStage = r := by
  unfold cancelDependentStages
  simp [lockSpanDocument_of_stale hstale]

end Stale

end DocumentRecord

namespace Database

theorem setRecord_self {id : Uuid} {r : DocumentRecord} (hfind : db.find id = some r) :
    db.setRecord id r = db := by
  unfold setRecord
  rw [Table.modify_eq_self]
  intro v hv
  unfold find at hfind
  rw [hfind] at hv
  cases hv
  rfl

theorem transact_unchanged {now : Time} {id : Uuid} {r : DocumentRecord}
    {f : DocumentRecord -> Change} (hfind : db.find id = some r) (hf : f r = Change.unchanged r) :
    db.transact now id f = db := by
  unfold transact
  rw [hfind]
  dsimp only
  rw [hf]
  exact setRecord_self hfind

end Database

namespace Operation

/-- The calls that carry a document id and an attempt. -/
inductive Carries (id : Uuid) (attempt : Nat) : Operation -> Prop where
  | put (versionId : Uuid) (work : Work) :
      Carries id attempt (.document id (.put versionId attempt work))
  | complete (key : JobKey) : Carries id attempt (.document id (.complete attempt key))
  | beginPostprocess (versionId : Uuid) (work : List Work) :
      Carries id attempt (.document id (.beginPostprocess versionId attempt work))
  | commitChunks (job : DocJob) (key : JobKey) (types : List String)
      (imageKey : Option String) (parentIds : List Uuid) (finish : Bool)
      (hid : job.documentId = id) :
      Carries id attempt (.commitChunks job attempt key types imageKey parentIds finish)
  | commitGraph (job : DocJob) (key : JobKey) (hid : job.documentId = id) :
      Carries id attempt (.commitGraph job attempt key)
  | stageIndex (chunks : List (Uuid × Chunk)) (embeddings : List (Uuid × ChunkEmbedding))
      (replaceChunks : Bool) :
      Carries id attempt (.stageIndex id attempt chunks embeddings replaceChunks)
  | updateStatus (status : ParseStatus) (error : String) :
      Carries id attempt (.document id (.updateStatus attempt status error))
  | publishEmpty : Carries id attempt (.document id (.publishEmpty attempt))
  | failJob (key : JobKey) (error : String) :
      Carries id attempt (.document id (.failJob attempt key error))
  | startSpan (spanId : Uuid) (name : String) (parentName : Option String)
      (input : Option (List (String × SpanValue))) :
      Carries id attempt (.document id (.startSpan spanId attempt name parentName input))
  | finishSpan (spanId : Uuid) (name : String) (status : SpanStatus)
      (output : Option (List (String × SpanValue))) :
      Carries id attempt (.document id (.finishSpan spanId attempt name status output))
  | skipSpan (spanId : Uuid) (name reason : String) :
      Carries id attempt (.document id (.skipSpan spanId attempt name reason))
  | cancelDependentStages (failedStage : String) :
      Carries id attempt (.document id (.cancelDependentStages attempt failedStage))

open DocumentRecord in
/-- A call of a stale worker, run on rows whose terminal jobs are retired. -/
theorem run_of_stale {now : Time} {id : Uuid} {attempt : Nat} {r : DocumentRecord}
    (hcarries : Carries id attempt op) (hfind : db.find id = some r) (hr : TerminalRowsRetired r)
    (hstale : Stale attempt r) : op.run now db = .ok db := by
  have hlock := lockCurrent_of_stale hstale
  have hopen := lockOpen_of_stale hstale
  have hspan := lockSpanDocument_of_stale hstale
  have hdocument : forall e : DocumentOp, e.apply now r = Change.unchanged r ->
      (Operation.document id e).run now db = .ok db := by
    intro e he
    simp only [run]
    rw [Database.transact_unchanged hfind he]
  cases hcarries with
  | put versionId work =>
      apply hdocument
      simp [DocumentOp.apply, DocumentRecord.put, hlock]
  | complete key =>
      apply hdocument
      simp [DocumentOp.apply, DocumentRecord.complete, hlock]
  | beginPostprocess versionId work =>
      apply hdocument
      simp [DocumentOp.apply, DocumentRecord.beginPostprocess, hlock]
  | commitChunks job key types imageKey parentIds finish hid =>
      subst hid
      simp [run, Database.commitChunks, hfind, hlock, Except.map]
  | commitGraph job key hid =>
      subst hid
      simp [run, Database.commitGraph, hfind, DocumentRecord.complete, hlock]
  | stageIndex chunks embeddings replaceChunks =>
      simp [run, Database.stageIndex, hfind, hlock, Except.map]
  | updateStatus status error =>
      exact hdocument _ (updateStatus_of_stale now status error hr hstale)
  | publishEmpty =>
      exact hdocument _ (publishEmpty_of_stale now hr hstale)
  | failJob key error =>
      apply hdocument
      simp [DocumentOp.apply, DocumentRecord.failJob, hopen]
  | startSpan spanId name parentName input =>
      apply hdocument
      simp only [DocumentOp.apply]
      rw [startSpan_of_stale now spanId name parentName input hstale]
  | finishSpan spanId name status output =>
      apply hdocument
      simp [DocumentOp.apply, DocumentRecord.finishSpan, hspan]
  | skipSpan spanId name reason =>
      apply hdocument
      simp only [DocumentOp.apply]
      rw [skipSpan_of_stale now spanId name reason hstale]
  | cancelDependentStages failedStage =>
      apply hdocument
      simp only [DocumentOp.apply]
      rw [cancelDependentStages_of_stale now failedStage hstale]

end Operation

theorem terminalRowsRetired_created {now : Time} {id : Uuid} {r : DocumentRecord}
    (hcreated : Operation.Created now db id op r) :
    r.TerminalRowsRetired := by
  apply DocumentRecord.terminalRowsRetired_of_not_terminal
  cases hcreated with
  | inserted versionId kind passages =>
      simp [Database.insertedRecord, DocumentRecord.bare, Document.inserted,
        isTerminal]
  | cloned sourceId versionId copyKeep sourceHadWiki rename source hsource =>
      cases copyKeep <;> cases sourceHadWiki <;>
        simp [Database.clonedRecord, DocumentRecord.putTx, DocumentRecord.bare,
          Document.inserted, isTerminal]

theorem terminalRowsRetired_of_reachable (hreach : Reachable db) :
    forall id r, db.find id = some r -> r.TerminalRowsRetired := by
  apply forall_find_of_reaches (P := fun _ r => r.TerminalRowsRetired) _ _ hreach
  · intro t s id r _ _ hcreated
    exact terminalRowsRetired_created hcreated
  · intro t s id e r hlegal hevent _ hr
    exact DocumentRecord.terminalRowsRetired_apply t.now
      (Operation.legal_event hlegal hevent) hr

/-- In every reachable state, a call that carries an attempt other than the
current one, or addresses a cancelled or deleted document, leaves the whole
database as it was. -/
theorem stale_call_changes_nothing {db : Database} (hreach : Reachable db)
    (t : Operation.Timed) (id : Uuid) (attempt : Nat) (r : DocumentRecord)
    (hcarries : Operation.Carries id attempt t.operation) (hfind : db.find id = some r)
    (hstale : DocumentRecord.Stale attempt r) : Operation.step t db = db :=
  Operation.step_of_ok
    (Operation.run_of_stale hcarries hfind (terminalRowsRetired_of_reachable hreach id r hfind)
      hstale)

/-- A document that was claimed and then queued for a fresh attempt. -/
def reparsedTrace : List Operation.Timed :=
  [⟨0, .insertDocument 1 7 .file []⟩, ⟨1, .document 1 (.claim 1)⟩,
    ⟨2, .document 1 .bumpDocumentAttempt⟩]

def reparsedDatabase : Database :=
  perform Operation.step Database.empty reparsedTrace

theorem reparsedDatabase_reachable : Reachable reparsedDatabase :=
  reaches_perform (Reaches.refl _) ⟨trivial, trivial, trivial, trivial⟩

/-- The worker of the first attempt reports a failure too late. -/
theorem stale_call_changes_nothing_reparsed :
    Operation.step ⟨3, .document 1 (.updateStatus 1 .failed "late")⟩ reparsedDatabase =
      reparsedDatabase :=
  stale_call_changes_nothing reparsedDatabase_reachable _ 1 1
    ((reparsedDatabase.find 1).get (by decide))
    (Operation.Carries.updateStatus .failed "late") (Option.some_get _).symm
    (Or.inl (by decide))

end Workflow
end KnowledgeBrain
