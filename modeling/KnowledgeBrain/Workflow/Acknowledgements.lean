import KnowledgeBrain.Workflow.Reconcile

/-!
# Acknowledging reconcile rows

A dispatch pass reads a reconcile row, prepares the index and acknowledges the
row later, guarded by the revision it read.  The history below runs any number
of passes against any other transactions and notes when a row was read, when a
source column changed and which reads acknowledged a row.
-/

namespace KnowledgeBrain
namespace Workflow

open Foundation

/-- A row the dispatcher has read, and when. -/
structure Read where
  delivery : Delivery
  moment : Nat
deriving DecidableEq

/-- The read is one of the reconcile row of this attempt. -/
structure Read.Of (id : Uuid) (attempt : Nat) (read : Read) : Prop where
  jobKey : read.delivery.jobKey = .reconcile
  documentId : read.delivery.documentId = id
  attempt : read.delivery.attempt = attempt

/-- A committed change of a source column. -/
structure SourceChange where
  documentId : Uuid
  attempt : Nat
  moment : Nat

structure History where
  db : Database
  clock : Nat
  changes : List SourceChange
  reads : List Read
  acknowledgements : List Read

namespace History

def start : History where
  db := Database.empty
  clock := 0
  changes := []
  reads := []
  acknowledgements := []

inductive Event where
  | transaction (t : Operation.Timed)
  | read (now : Time)
  | settle (now : Time) (read : Read) (maxAttempts : Nat) (versionLive : Bool)
      (preparation : Preparation) (queueError : Option String)

/-- The documents whose source columns differ, with the attempt they are in now. -/
def sourceChanges (moment : Nat) (db db' : Database) : List SourceChange :=
  db'.documents.rows.filterMap fun entry =>
    match db.find entry.1 with
    | none => none
    | some r =>
        if entry.2.document.sourceState = r.document.sourceState then none
        else some ⟨entry.1, entry.2.document.attempt, moment⟩

def commit (t : Operation.Timed) (h : History) : History :=
  { h with
    db := Operation.step t h.db
    clock := h.clock + 1
    changes := sourceChanges h.clock h.db (Operation.step t h.db) ++ h.changes }

/-- The transaction that settles a row which was read. -/
def settling (now : Time) (d : Delivery) (s : Settlement) : Operation.Timed :=
  ⟨now, .document d.documentId (.settleDelivery d.attempt d.jobKey d.revision s)⟩

def step : Event -> History -> History
  | .transaction t, h => h.commit t
  | .read now, h =>
      { h with
        clock := h.clock + 1
        reads := (h.db.selectDeliveries now).map (fun d => ⟨d, h.clock⟩) ++ h.reads }
  | .settle now read maxAttempts versionLive preparation queueError, h =>
      let s := settlement maxAttempts read.delivery versionLive preparation queueError
      let h' := h.commit (settling now read.delivery s)
      if s = .acknowledge then
        { h' with acknowledgements := read :: h'.acknowledgements }
      else h'

/-- Transactions leave reconcile rows to the dispatcher, and the dispatcher
settles only rows it has read. -/
def Permits : Event -> History -> Prop
  | .transaction t, _ => forall id e, t.operation.event id = some e -> e.SparesReconcile
  | .read _, _ => True
  | .settle _ read _ _ _ _, h => read ∈ h.reads

/-!
# The invariant
-/

/-- The row that was read is still there; unless its revision has grown since,
every change of its document under its attempt is older than the read. -/
def ReadSound (h : History) (read : Read) : Prop :=
  forall id attempt, read.Of id attempt ->
    exists r row, h.db.find id = some r ∧ r.reconcileRow attempt = some row ∧
      read.delivery.revision ≤ row.revision ∧
      (read.delivery.revision = row.revision ->
        forall change, change ∈ h.changes -> change.documentId = id ->
          change.attempt = attempt -> change.moment < read.moment)

/-- A complete row was acknowledged under its revision. -/
def CompleteAcknowledged (h : History) : Prop :=
  forall id r attempt row, h.db.find id = some r -> r.reconcileRow attempt = some row ->
    row.state = .complete ->
      exists ack, ack ∈ h.acknowledgements ∧ ack.Of id attempt ∧
        ack.delivery.revision = row.revision

structure Sound (h : History) : Prop where
  keyed : forall id r, h.db.find id = some r -> r.RowsWellKeyed
  past : forall change, change ∈ h.changes -> change.moment < h.clock
  payloads : forall read, read ∈ h.reads ->
    read.delivery.payload.key = read.delivery.jobKey
  reads : forall read, read ∈ h.reads -> ReadSound h read
  acknowledged : forall ack, ack ∈ h.acknowledgements -> ack ∈ h.reads
  complete : CompleteAcknowledged h

theorem sound_start : Sound start where
  keyed := by
    intro id r hfind
    cases hfind
  past := by
    intro change hmem
    cases hmem
  payloads := by
    intro read hmem
    cases hmem
  reads := by
    intro read hmem
    cases hmem
  acknowledged := by
    intro ack hmem
    cases hmem
  complete := by
    intro id r attempt row hfind
    cases hfind

/-!
# Committed changes
-/

variable {change : SourceChange}

theorem mem_sourceChanges {moment : Nat} {db db' : Database}
    (hmem : change ∈ sourceChanges moment db db') :
    change.moment = moment ∧
      exists r r', db.find change.documentId = some r ∧
        db'.find change.documentId = some r' ∧ change.attempt = r'.document.attempt ∧
        r'.document.sourceState ≠ r.document.sourceState := by
  obtain ⟨⟨id, r'⟩, hrow, hchange⟩ := List.mem_filterMap.mp hmem
  have hfind' : db'.find id = some r' := Table.lookup_eq_some_iff_mem.mpr hrow
  dsimp only at hchange
  cases hfind : db.find id with
  | none =>
      rw [hfind] at hchange
      cases hchange
  | some r =>
      rw [hfind] at hchange
      dsimp only at hchange
      split at hchange
      · cases hchange
      · rename_i hne
        cases hchange
        exact ⟨rfl, r, r', hfind, hfind', rfl, hne⟩

theorem sourceChanges_eq_nil {moment : Nat} {db db' : Database}
    (hsame : forall id r r', db.find id = some r -> db'.find id = some r' ->
      r'.document.sourceState = r.document.sourceState) :
    sourceChanges moment db db' = [] := by
  apply List.eq_nil_iff_forall_not_mem.mpr
  intro change hmem
  obtain ⟨_, r, r', hfind, hfind', _, hne⟩ := mem_sourceChanges hmem
  exact hne (hsame _ r r' hfind hfind')

variable {t : Operation.Timed} {db : Database} {id : Uuid}

theorem reopens_step (hspares : forall id e, t.operation.event id = some e -> e.SparesReconcile)
    {r : DocumentRecord} (hfind : db.find id = some r) :
    exists r', (Operation.step t db).find id = some r' ∧ r.Reopens r' := by
  rcases Operation.find_step_of_some (t := t) hfind with hsame | ⟨e, hevent, hnew⟩
  · exact ⟨r, hsame, DocumentRecord.Reopens.refl r⟩
  · exact ⟨_, hnew, DocumentRecord.reopens_apply t.now r (hspares id e hevent)⟩

theorem keyed_step (hkeyed : forall id r, db.find id = some r -> r.RowsWellKeyed) :
    forall id r, (Operation.step t db).find id = some r -> r.RowsWellKeyed := by
  apply Operation.forall_find_step (P := fun _ r => r.RowsWellKeyed) _ _ hkeyed
  · intro id r hcreated
    exact DocumentRecord.rowsWellKeyed_created hcreated
  · intro id e r _ _ hr
    exact (DocumentRecord.grows_apply t.now e r).wellKeyed hr

theorem past_commit {h : History} (hsound : Sound h) :
    forall change, change ∈ (h.commit t).changes -> change.moment < (h.commit t).clock := by
  intro change hmem
  rcases List.mem_append.mp hmem with hnew | hold
  · rw [(mem_sourceChanges hnew).1]
    exact Nat.lt_succ_self h.clock
  · exact Nat.lt_succ_of_lt (hsound.past change hold)

/-- A change reopens the row, so no read in flight has its revision any more. -/
theorem readSound_commit {h : History} {read : Read}
    (hspares : forall id e, t.operation.event id = some e -> e.SparesReconcile)
    (hread : ReadSound h read) : ReadSound (h.commit t) read := by
  intro id attempt hof
  obtain ⟨r, row, hfind, hrow, hle, hcurrent⟩ := hread id attempt hof
  obtain ⟨r', hfind', hreopens⟩ := reopens_step hspares hfind
  obtain ⟨row', hrow', hkept⟩ := hreopens.rows.kept attempt row hrow
  refine ⟨r', row', hfind', hrow', ?_, ?_⟩
  · rcases hkept with heq | ⟨_, hlt⟩
    · rw [heq]
      exact hle
    · omega
  · intro hrevision change hmem hid hattempt
    rcases List.mem_append.mp hmem with hnew | hold
    · obtain ⟨_, old, new, hold, hnew', hattempt', hchanged⟩ := mem_sourceChanges hnew
      rw [hid, hfind] at hold
      cases hold
      rw [hid] at hnew'
      change (Operation.step t h.db).find id = some new at hnew'
      rw [hfind'] at hnew'
      cases hnew'
      obtain ⟨found, hfound, _, hlarger⟩ := hreopens.changed hchanged
      rw [← hattempt', hattempt] at hfound hlarger
      rw [hrow'] at hfound
      cases hfound
      have hlt := hlarger row hrow
      omega
    · rcases hkept with heq | ⟨_, hlt⟩
      · rw [heq] at hrevision
        exact hcurrent hrevision change hold hid hattempt
      · omega

theorem complete_commit {h : History}
    (hspares : forall id e, t.operation.event id = some e -> e.SparesReconcile)
    (hcomplete : CompleteAcknowledged h) : CompleteAcknowledged (h.commit t) := by
  intro id r' attempt row' hfind' hrow' hstate
  change (Operation.step t h.db).find id = some r' at hfind'
  cases hfind : h.db.find id with
  | none =>
      rcases Operation.find_step_of_none (t := t) hfind with hnone | ⟨r, hcreated, hnew⟩
      · rw [hnone] at hfind'
        cases hfind'
      · rw [hnew] at hfind'
        cases hfind'
        rw [DocumentRecord.reconcileRow_created hcreated] at hrow'
        cases hrow'
  | some r =>
      obtain ⟨found, hfound, hreopens⟩ := reopens_step (t := t) hspares hfind
      rw [hfind'] at hfound
      cases hfound
      cases hrow : r.reconcileRow attempt with
      | none =>
          rw [hreopens.rows.fresh attempt row' hrow hrow'] at hstate
          cases hstate
      | some row =>
          obtain ⟨found, hfound, heq | ⟨hpending, _⟩⟩ := hreopens.rows.kept attempt row hrow
          · rw [hrow'] at hfound
            cases hfound
            rw [heq] at hstate ⊢
            exact hcomplete id r attempt row hfind hrow hstate
          · rw [hrow'] at hfound
            cases hfound
            rw [hpending] at hstate
            cases hstate

theorem sound_commit {h : History}
    (hspares : forall id e, t.operation.event id = some e -> e.SparesReconcile) (hsound : Sound h) :
    Sound (h.commit t) where
  keyed := keyed_step hsound.keyed
  past := past_commit hsound
  payloads := hsound.payloads
  reads := fun read hmem => readSound_commit hspares (hsound.reads read hmem)
  acknowledged := hsound.acknowledged
  complete := complete_commit hspares hsound.complete

/-!
# Reading rows
-/

variable {d : Delivery}

theorem mem_selectDeliveries {now : Time} (hmem : d ∈ db.selectDeliveries now) :
    exists r row, db.find d.documentId = some r ∧
      r.outbox.lookup (d.attempt, d.jobKey) = some row ∧ d.payload = row.payload ∧
      d.revision = row.revision := by
  unfold Database.selectDeliveries at hmem
  obtain ⟨due, hdue, rfl⟩ := List.mem_map.mp hmem
  have hdue' : due ∈ db.dueRows now :=
    (List.mem_insertionSort _).mp (List.mem_of_mem_take hdue)
  obtain ⟨⟨id, r⟩, hentry, hrows⟩ := List.mem_flatMap.mp hdue'
  obtain ⟨⟨key, row⟩, hrow, rfl⟩ := List.mem_map.mp hrows
  exact ⟨r, row, Table.lookup_eq_some_iff_mem.mpr hentry,
    Table.lookup_eq_some_iff_mem.mpr (List.mem_filter.mp hrow).1, rfl, rfl⟩

theorem readSound_read {now : Time} {h : History} (hsound : Sound h)
    (hmem : d ∈ h.db.selectDeliveries now) : ReadSound h ⟨d, h.clock⟩ := by
  intro id attempt hof
  obtain ⟨r, row, hfind, hrow, _, hrevision⟩ := mem_selectDeliveries hmem
  have hkey := hof.jobKey
  have hid := hof.documentId
  have hattempt := hof.attempt
  dsimp only at hkey hid hattempt
  rw [hkey, hattempt] at hrow
  rw [hid] at hfind
  refine ⟨r, row, hfind, hrow, Nat.le_of_eq hrevision, ?_⟩
  intro _ change hchange _ _
  exact hsound.past change hchange

theorem sound_read {now : Time} {h : History} (hsound : Sound h) :
    Sound (step (.read now) h) where
  keyed := hsound.keyed
  past := fun change hmem => Nat.lt_succ_of_lt (hsound.past change hmem)
  payloads := by
    intro read hmem
    rcases List.mem_append.mp hmem with hnew | hold
    · obtain ⟨d, hd, rfl⟩ := List.mem_map.mp hnew
      obtain ⟨r, row, hfind, hrow, hpayload, _⟩ := mem_selectDeliveries hd
      dsimp only
      rw [hpayload]
      exact (hsound.keyed _ r hfind _ row hrow).1
    · exact hsound.payloads read hold
  reads := by
    intro read hmem
    rcases List.mem_append.mp hmem with hnew | hold
    · obtain ⟨d, hd, rfl⟩ := List.mem_map.mp hnew
      exact readSound_read hsound hd
    · exact hsound.reads read hold
  acknowledged := by
    intro ack hmem
    exact List.mem_append_right _ (hsound.acknowledged ack hmem)
  complete := hsound.complete

/-!
# Settling a reconcile row
-/

theorem revision_settleRow (now : Time) (revision : Nat) (s : Settlement) (row : OutboxRow) :
    (s.settleRow now revision row).revision = row.revision := by
  unfold Settlement.settleRow
  split
  · rfl
  · cases s with
    | exhaust => rfl
    | acknowledge => rfl
    | giveUp message => rfl
    | postpone =>
        dsimp only
        split <;> rfl
    | offered error =>
        dsimp only
        split <;> rfl

theorem complete_settleRow {now : Time} {revision : Nat} {s : Settlement} {row : OutboxRow}
    (hstate : (s.settleRow now revision row).state = .complete) :
    row.state = .complete ∨ (s = .acknowledge ∧ row.revision = revision) := by
  unfold Settlement.settleRow at hstate
  split at hstate
  · exact Or.inl hstate
  · rename_i hrevision
    cases s with
    | exhaust => exact Or.inl hstate
    | acknowledge => exact Or.inr ⟨rfl, by simpa using hrevision⟩
    | giveUp message => cases hstate
    | postpone =>
        dsimp only at hstate
        split at hstate
        · exact Or.inl hstate
        · exact Or.inl hstate
    | offered error =>
        dsimp only at hstate
        split at hstate
        · dsimp only at hstate
          split at hstate <;> cases hstate
        · exact Or.inl hstate

theorem find_settling {now : Time} {s : Settlement} (hs : s ≠ .exhaust) (db : Database)
    (id : Uuid) :
    (Operation.step (settling now d s) db).find id =
      if id = d.documentId then
        (db.find id).map fun r =>
          { r with
            outbox := r.outbox.modify (d.attempt, d.jobKey) (s.settleRow now d.revision) }
      else db.find id := by
  have hrun : Operation.step (settling now d s) db =
      db.transact now d.documentId
        ((DocumentOp.settleDelivery d.attempt d.jobKey d.revision s).apply now) := rfl
  rw [hrun, Database.find_transact]
  cases s with
  | exhaust => exact absurd rfl hs
  | acknowledge => rfl
  | giveUp message => rfl
  | postpone => rfl
  | offered error => rfl

section Settle

variable {now : Time} {h : History} {read : Read} {s : Settlement}

/-- The reconcile row of an attempt after the settlement of a reconcile row. -/
theorem reconcileRow_settling (hkey : read.delivery.jobKey = .reconcile) (hs : s ≠ .exhaust)
    {r' : DocumentRecord}
    (hfind' : (Operation.step (settling now read.delivery s) h.db).find id = some r') :
    exists r, h.db.find id = some r ∧ r'.document = r.document ∧
      forall attempt, r'.reconcileRow attempt =
        if id = read.delivery.documentId ∧ attempt = read.delivery.attempt then
          (r.reconcileRow attempt).map (s.settleRow now read.delivery.revision)
        else r.reconcileRow attempt := by
  rw [find_settling hs] at hfind'
  split at hfind'
  · rename_i hid
    obtain ⟨r, hfind, heq⟩ := Option.map_eq_some_iff.mp hfind'
    subst heq
    refine ⟨r, hfind, rfl, ?_⟩
    intro attempt
    unfold DocumentRecord.reconcileRow
    dsimp only
    rw [Table.lookup_modify, hkey]
    by_cases hattempt : attempt = read.delivery.attempt
    · simp [hattempt, hid]
    · simp [hattempt]
  · rename_i hid
    exact ⟨r', hfind', rfl, fun attempt => by simp [hid]⟩

theorem changes_settling (hkey : read.delivery.jobKey = .reconcile) (hs : s ≠ .exhaust) :
    (h.commit (settling now read.delivery s)).changes = h.changes := by
  unfold commit
  dsimp only
  rw [sourceChanges_eq_nil]
  · rfl
  · intro id r r' hfind hfind'
    obtain ⟨found, hfound, hdocument, _⟩ := reconcileRow_settling hkey hs hfind'
    rw [hfind] at hfound
    cases hfound
    rw [hdocument]

theorem readSound_settling (hkey : read.delivery.jobKey = .reconcile) (hs : s ≠ .exhaust)
    {other : Read} (hother : ReadSound h other) :
    ReadSound (h.commit (settling now read.delivery s)) other := by
  intro id attempt hof
  obtain ⟨r, row, hfind, hrow, hle, hcurrent⟩ := hother id attempt hof
  have hsome : exists r',
      (Operation.step (settling now read.delivery s) h.db).find id = some r' := by
    rw [find_settling hs, hfind]
    split <;> exact ⟨_, rfl⟩
  obtain ⟨r', hfind'⟩ := hsome
  obtain ⟨found, hfound, _, hrows⟩ := reconcileRow_settling hkey hs hfind'
  rw [hfind] at hfound
  cases hfound
  have hrow' : exists row', r'.reconcileRow attempt = some row' ∧
      row'.revision = row.revision := by
    rw [hrows, hrow]
    split
    · exact ⟨_, rfl, revision_settleRow now _ s row⟩
    · exact ⟨row, rfl, rfl⟩
  obtain ⟨row', hrow', hrevision⟩ := hrow'
  refine ⟨r', row', hfind', hrow', by rw [hrevision]; exact hle, ?_⟩
  rw [changes_settling hkey hs, hrevision]
  exact hcurrent

/-- Completed rows were complete before, or are completed by this read. -/
theorem complete_settling (hkey : read.delivery.jobKey = .reconcile) (hs : s ≠ .exhaust)
    (hcomplete : CompleteAcknowledged h) {r' : DocumentRecord} {attempt : Nat} {row' : OutboxRow}
    (hfind' : (Operation.step (settling now read.delivery s) h.db).find id = some r')
    (hrow' : r'.reconcileRow attempt = some row') (hstate : row'.state = .complete) :
    (exists ack, ack ∈ h.acknowledgements ∧ ack.Of id attempt ∧
        ack.delivery.revision = row'.revision) ∨
      (s = .acknowledge ∧ read.Of id attempt ∧
        read.delivery.revision = row'.revision) := by
  obtain ⟨r, hfind, _, hrows⟩ := reconcileRow_settling hkey hs hfind'
  rw [hrows] at hrow'
  split at hrow'
  · rename_i hhere
    obtain ⟨row, hrow, heq⟩ := Option.map_eq_some_iff.mp hrow'
    subst heq
    rw [revision_settleRow]
    rcases complete_settleRow hstate with hold | ⟨hack, hrevision⟩
    · exact Or.inl (hcomplete id r attempt row hfind hrow hold)
    · exact Or.inr ⟨hack, ⟨hkey, hhere.1.symm, hhere.2.symm⟩, hrevision.symm⟩
  · exact Or.inl (hcomplete id r attempt row' hfind hrow' hstate)

end Settle

theorem spares_settling {now : Time} {s : Settlement} (hkey : d.jobKey ≠ .reconcile) :
    forall id e, (settling now d s).operation.event id = some e -> e.SparesReconcile := by
  intro id e hevent
  simp only [settling, Operation.event] at hevent
  split at hevent
  · cases hevent
    exact hkey
  · cases hevent

theorem settlement_ne_acknowledge (maxAttempts : Nat) (versionLive : Bool)
    (preparation : Preparation) (queueError : Option String) (hkeyed : d.payload.key = d.jobKey)
    (hkey : d.jobKey ≠ .reconcile) :
    settlement maxAttempts d versionLive preparation queueError ≠ .acknowledge := by
  intro hack
  rcases dispatchDecides_of_ne ⟨maxAttempts, d, versionLive, preparation, queueError,
    hkeyed, rfl⟩ hkey with hexhaust | ⟨error, hoffered⟩
  · rw [hexhaust] at hack
    cases hack
  · rw [hoffered] at hack
    cases hack

theorem sound_settle {now : Time} {read : Read} {maxAttempts : Nat} {versionLive : Bool}
    {preparation : Preparation} {queueError : Option String} {h : History}
    (hsound : Sound h) (hread : read ∈ h.reads) :
    Sound (step (.settle now read maxAttempts versionLive preparation queueError) h) := by
  have hkeyed := hsound.payloads read hread
  unfold step
  by_cases hkey : read.delivery.jobKey = .reconcile
  · have hs : settlement maxAttempts read.delivery versionLive preparation queueError ≠
        .exhaust :=
      dispatchDecides_reconcile ⟨maxAttempts, read.delivery, versionLive, preparation,
        queueError, hkeyed.trans hkey, rfl⟩
    dsimp only
    generalize settlement maxAttempts read.delivery versionLive preparation queueError = s
      at hs ⊢
    have hpast := past_commit (t := settling now read.delivery s) hsound
    have hreads : forall other, other ∈ h.reads ->
        ReadSound (h.commit (settling now read.delivery s)) other :=
      fun other hmem => readSound_settling hkey hs (hsound.reads other hmem)
    split
    · rename_i hack
      refine ⟨keyed_step hsound.keyed, hpast, hsound.payloads, hreads, ?_, ?_⟩
      · intro ack hmem
        rcases List.mem_cons.mp hmem with heq | hold
        · rw [heq]
          exact hread
        · exact hsound.acknowledged ack hold
      · intro id r attempt row hfind hrow hstate
        rcases complete_settling hkey hs hsound.complete hfind hrow hstate with
          ⟨ack, hmem, hack'⟩ | ⟨_, hof, hrevision⟩
        · exact ⟨ack, List.mem_cons_of_mem _ hmem, hack'⟩
        · exact ⟨read, List.mem_cons_self, hof, hrevision⟩
    · rename_i hack
      refine ⟨keyed_step hsound.keyed, hpast, hsound.payloads, hreads, hsound.acknowledged, ?_⟩
      intro id r attempt row hfind hrow hstate
      rcases complete_settling hkey hs hsound.complete hfind hrow hstate with
        hfound | ⟨hack', _⟩
      · exact hfound
      · exact absurd hack' hack
  · have hne := settlement_ne_acknowledge maxAttempts versionLive preparation queueError
      hkeyed hkey
    dsimp only
    rw [if_neg hne]
    exact sound_commit (spares_settling hkey) hsound

theorem sound_step {e : Event} {h : History} (hsound : Sound h) (hpermits : Permits e h) :
    Sound (step e h) := by
  cases e with
  | transaction t => exact sound_commit hpermits hsound
  | read now => exact sound_read hsound
  | settle now read maxAttempts versionLive preparation queueError =>
      exact sound_settle hsound hpermits

/-!
# No change is lost
-/

/-- A change was committed after the read, under the attempt that was read. -/
def Superseded (h : History) (read : Read) : Prop :=
  exists id attempt change, read.Of id attempt ∧ change ∈ h.changes ∧
    change.documentId = id ∧ change.attempt = attempt ∧ read.moment < change.moment

structure AcknowledgementSafety (h : History) : Prop where
  /-- A complete row was acknowledged by a read of its revision, and every
  change of its document under its attempt is older than any such read. -/
  current : forall id r attempt row, h.db.find id = some r ->
    r.reconcileRow attempt = some row -> row.state = .complete ->
      (exists ack, ack ∈ h.acknowledgements ∧ ack.Of id attempt ∧
        ack.delivery.revision = row.revision) ∧
      forall ack, ack ∈ h.acknowledgements -> ack.Of id attempt ->
        ack.delivery.revision = row.revision ->
        forall change, change ∈ h.changes -> change.documentId = id ->
          change.attempt = attempt -> change.moment < ack.moment
  /-- A change leaves the row of its attempt pending under a revision larger
  than the one it had and than every revision read so far. -/
  reopened : forall e, Permits e h -> forall change, change ∈ (step e h).changes ->
    change.moment = h.clock ->
      exists r row, (step e h).db.find change.documentId = some r ∧
        r.reconcileRow change.attempt = some row ∧ row.state = .pending ∧
        (forall old oldRow, h.db.find change.documentId = some old ->
          old.reconcileRow change.attempt = some oldRow -> oldRow.revision < row.revision) ∧
        forall read, read ∈ h.reads -> read.Of change.documentId change.attempt ->
          read.delivery.revision < row.revision
  /-- Whatever the dispatcher decides for a superseded read, it writes nothing. -/
  ignored : forall read, read ∈ h.reads -> Superseded h read ->
    forall now maxAttempts versionLive preparation queueError,
      (step (.settle now read maxAttempts versionLive preparation queueError) h).db = h.db

theorem reopened_commit {h : History}
    (hspares : forall id e, t.operation.event id = some e -> e.SparesReconcile) (hsound : Sound h)
    (hmem : change ∈ (h.commit t).changes) (hmoment : change.moment = h.clock) :
    exists r row, (h.commit t).db.find change.documentId = some r ∧
      r.reconcileRow change.attempt = some row ∧ row.state = .pending ∧
      (forall old oldRow, h.db.find change.documentId = some old ->
        old.reconcileRow change.attempt = some oldRow -> oldRow.revision < row.revision) ∧
      forall read, read ∈ h.reads -> read.Of change.documentId change.attempt ->
        read.delivery.revision < row.revision := by
  rcases List.mem_append.mp hmem with hnew | hold
  · obtain ⟨_, old, r, hfind, hfind', hattempt, hchanged⟩ := mem_sourceChanges hnew
    obtain ⟨found, hfound, hreopens⟩ := reopens_step hspares hfind
    rw [hfind'] at hfound
    cases hfound
    obtain ⟨row, hrow, hstate, hlarger⟩ := hreopens.changed hchanged
    rw [← hattempt] at hrow hlarger
    refine ⟨r, row, hfind', hrow, hstate, ?_, ?_⟩
    · intro old' oldRow hfound hrow'
      rw [hfind] at hfound
      cases hfound
      exact hlarger oldRow hrow'
    · intro read hread hof
      obtain ⟨found, oldRow, hfound, holdRow, hle, _⟩ := hsound.reads read hread _ _ hof
      rw [hfind] at hfound
      cases hfound
      exact Nat.lt_of_le_of_lt hle (hlarger oldRow holdRow)
  · have hpast := hsound.past change hold
    omega

theorem reopened_step {e : Event} {h : History} (hsound : Sound h) (hpermits : Permits e h)
    (hmem : change ∈ (step e h).changes) (hmoment : change.moment = h.clock) :
    exists r row, (step e h).db.find change.documentId = some r ∧
      r.reconcileRow change.attempt = some row ∧ row.state = .pending ∧
      (forall old oldRow, h.db.find change.documentId = some old ->
        old.reconcileRow change.attempt = some oldRow -> oldRow.revision < row.revision) ∧
      forall read, read ∈ h.reads -> read.Of change.documentId change.attempt ->
        read.delivery.revision < row.revision := by
  cases e with
  | transaction t => exact reopened_commit hpermits hsound hmem hmoment
  | read now =>
      have hpast := hsound.past change hmem
      omega
  | settle now read maxAttempts versionLive preparation queueError =>
      have hkeyed := hsound.payloads read hpermits
      by_cases hkey : read.delivery.jobKey = .reconcile
      · have hs := dispatchDecides_reconcile ⟨maxAttempts, read.delivery, versionLive,
          preparation, queueError, hkeyed.trans hkey, rfl⟩
        have hold : change ∈ h.changes := by
          rw [← changes_settling (h := h) hkey hs]
          unfold step at hmem
          dsimp only at hmem
          split at hmem
          · exact hmem
          · exact hmem
        have hpast := hsound.past change hold
        omega
      · have hne := settlement_ne_acknowledge maxAttempts versionLive preparation queueError
          hkeyed hkey
        unfold step at hmem ⊢
        dsimp only at hmem ⊢
        rw [if_neg hne] at hmem ⊢
        exact reopened_commit (spares_settling hkey) hsound hmem hmoment

theorem settleRow_of_ne {now : Time} {revision : Nat} (s : Settlement) {row : OutboxRow}
    (hrevision : row.revision ≠ revision) : s.settleRow now revision row = row := by
  unfold Settlement.settleRow
  rw [if_pos (by simpa using hrevision)]

theorem ignored_of_superseded {h : History} (hsound : Sound h) {read : Read}
    (hread : read ∈ h.reads) (hsuperseded : Superseded h read) (now : Time)
    (maxAttempts : Nat) (versionLive : Bool) (preparation : Preparation)
    (queueError : Option String) :
    (step (.settle now read maxAttempts versionLive preparation queueError) h).db = h.db := by
  obtain ⟨id, attempt, change, hof, hmem, hid, hattempt, hlater⟩ := hsuperseded
  obtain ⟨r, row, hfind, hrow, _, hcurrent⟩ := hsound.reads read hread id attempt hof
  have hrevision : row.revision ≠ read.delivery.revision := by
    intro heq
    have holder := hcurrent heq.symm change hmem hid hattempt
    omega
  have hs := dispatchDecides_reconcile ⟨maxAttempts, read.delivery, versionLive, preparation,
    queueError, (hsound.payloads read hread).trans hof.jobKey, rfl⟩
  generalize hsettle : settlement maxAttempts read.delivery versionLive preparation
    queueError = s at hs
  have hdb : (step (.settle now read maxAttempts versionLive preparation queueError) h).db =
      Operation.step (settling now read.delivery s) h.db := by
    unfold step
    dsimp only
    rw [hsettle]
    split <;> rfl
  rw [hdb]
  refine Database.transact_unchanged (hof.documentId ▸ hfind) ?_
  have hsame : r.outbox.modify (read.delivery.attempt, read.delivery.jobKey)
      (s.settleRow now read.delivery.revision) = r.outbox := by
    apply Table.modify_eq_self
    intro found hfound
    rw [hof.jobKey, hof.attempt] at hfound
    change r.reconcileRow attempt = some found at hfound
    rw [hrow] at hfound
    cases hfound
    exact settleRow_of_ne s hrevision
  simp only [settling, DocumentOp.apply, DocumentRecord.settleDelivery]
  cases s with
  | exhaust => exact absurd rfl hs
  | acknowledge => rw [hsame]
  | giveUp message => rw [hsame]
  | postpone => rw [hsame]
  | offered error => rw [hsame]

end History

/-- Reconcile acknowledgements lose no source change, however dispatch passes
and other transactions interleave. -/
theorem acknowledgement_safety_of_reaches {h : History}
    (hrun : Reaches History.step History.Permits History.start h) :
    h.AcknowledgementSafety := by
  have hsound : h.Sound :=
    Reaches.invariant (P := History.Sound) (fun _ _ hs hpermits => History.sound_step hs hpermits)
      History.sound_start hrun
  constructor
  · intro id r attempt row hfind hrow hstate
    refine ⟨hsound.complete id r attempt row hfind hrow hstate, ?_⟩
    intro ack hack hof hrevision change hmem hid hattempt
    obtain ⟨found, foundRow, hfound, hfoundRow, _, hcurrent⟩ :=
      hsound.reads ack (hsound.acknowledged ack hack) id attempt hof
    rw [hfind] at hfound
    cases hfound
    rw [hrow] at hfoundRow
    cases hfoundRow
    exact hcurrent hrevision change hmem hid hattempt
  · intro e hpermits change hmem hmoment
    exact History.reopened_step hsound hpermits hmem hmoment
  · intro read hread hsuperseded now maxAttempts versionLive preparation queueError
    exact History.ignored_of_superseded hsound hread hsuperseded now maxAttempts versionLive
      preparation queueError

/-- The claim of a conversion asks for a reconciliation, and a pass reads it. -/
def readClaim : History :=
  perform History.step History.start
    [.transaction ⟨0, .insertDocument 1 7 .file []⟩,
      .transaction ⟨1, .document 1 (.claim 1)⟩, .read 2]

/-- The row of the claim, as the pass reads it. -/
def claimRead : Read :=
  ⟨⟨1, 7, 1, .reconcile, .reconcile, 0, 1⟩, 2⟩

/-- The pass finds the index up to date and acknowledges the row. -/
def acknowledgedClaim : History :=
  History.step (.settle 3 claimRead 5 true .ready none) readClaim

theorem acknowledgement_safety_of_claim :
    (((acknowledgedClaim.db.find 1).bind fun r => r.reconcileRow 1).map fun row =>
        row.state) = some .complete ∧ acknowledgedClaim.AcknowledgementSafety := by
  refine ⟨by decide, acknowledgement_safety_of_reaches ?_⟩
  have hread : Reaches History.step History.Permits History.start readClaim := by
    refine reaches_perform (Reaches.refl _) ⟨?_, ?_, trivial, trivial⟩
    · intro id e hevent
      cases hevent
    · intro id e hevent
      simp only [Operation.event] at hevent
      split at hevent
      · cases hevent
        trivial
      · cases hevent
  have hmem : claimRead ∈ readClaim.reads := by decide
  exact hread.snoc hmem

end Workflow
end KnowledgeBrain
