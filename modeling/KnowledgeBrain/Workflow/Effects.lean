import KnowledgeBrain.Foundation.Folds
import KnowledgeBrain.Workflow.Operations

/-!
# What a transaction does to one document

Looking a document up after a transaction gives back the rows it had, or the
rows the transaction's event leaves.  The theorems of this module replace the
definitions of the transactions in every proof about documents.
-/

namespace KnowledgeBrain
namespace Workflow

open Foundation

variable {r : DocumentRecord} {now : Time} {attempt : Nat}

theorem DocumentRecord.complete_false {key : JobKey} {c : Change}
    (hrun : r.complete now attempt key = (c, false)) : c.record = r := by
  unfold DocumentRecord.complete DocumentRecord.completeTx at hrun
  split at hrun
  · split at hrun
    · cases hrun
      rfl
    · cases hrun
  · cases hrun
    rfl

namespace Database

@[simp]
theorem documents_deleteChunks (p : Uuid -> Chunk -> Bool) (db : Database) :
    (db.deleteChunks p).documents = db.documents := rfl

@[simp]
theorem documents_invalidateWiki (now : Time) (versionId documentId : Uuid)
    (db : Database) :
    (db.invalidateWiki now versionId documentId).documents = db.documents := rfl

theorem find_setRecord (id id' : Uuid) (r : DocumentRecord) (db : Database) :
    (db.setRecord id r).find id' =
      if id' = id then (db.find id').map fun _ => r else db.find id' :=
  Table.lookup_modify db.documents id id' fun _ => r

theorem documents_applyChange (now : Time) (id : Uuid) (c : Change) (db : Database) :
    (db.applyChange now id c).documents = (db.setRecord id c.record).documents := by
  unfold applyChange
  by_cases hwiki : c.wikiStale
  · simp [hwiki]
  · simp [hwiki]

theorem find_applyChange (now : Time) (id id' : Uuid) (c : Change) (db : Database) :
    (db.applyChange now id c).find id' =
      if id' = id then (db.find id').map fun _ => c.record else db.find id' := by
  unfold find
  rw [documents_applyChange]
  exact find_setRecord id id' c.record db

theorem find_transact (now : Time) (id id' : Uuid) (f : DocumentRecord -> Change)
    (db : Database) :
    (db.transact now id f).find id' =
      if id' = id then (db.find id').map fun r => (f r).record else db.find id' := by
  unfold transact
  cases hfind : db.find id with
  | none =>
      by_cases hid : id' = id
      · subst hid
        simp [hfind]
      · simp [hid]
  | some r =>
      change (db.applyChange now id (f r)).find id' = _
      rw [find_applyChange]
      by_cases hid : id' = id
      · subst hid
        simp [hfind]
      · simp [hid]

theorem find_foldl_transact (now : Time) (f : DocumentRecord -> Change)
    (ids : List Uuid) (hnodup : ids.Nodup) (db : Database) (id : Uuid) :
    (ids.foldl (fun db id => db.transact now id f) db).find id =
      if id ∈ ids then (db.find id).map fun r => (f r).record else db.find id := by
  induction ids generalizing db with
  | nil =>
      rfl
  | cons first rest ih =>
      rw [List.nodup_cons] at hnodup
      rw [List.foldl_cons, ih hnodup.2, find_transact]
      by_cases hfirst : id = first
      · subst hfirst
        simp [hnodup.1]
      · simp [hfirst]

theorem nodup_idsWhere (p : DocumentRecord -> Bool) (db : Database) :
    (db.idsWhere p).Nodup :=
  (List.Sublist.map Prod.fst List.filter_sublist).nodup db.documents.nodup

variable {id : Uuid}

theorem mem_idsWhere {p : DocumentRecord -> Bool} {db : Database} :
    id ∈ db.idsWhere p <-> exists r, db.find id = some r ∧ p r = true := by
  unfold idsWhere
  constructor
  · intro hmem
    obtain ⟨⟨id', r⟩, hrow, hid⟩ := List.mem_map.mp hmem
    change id' = id at hid
    subst hid
    obtain ⟨hrow, hp⟩ := List.mem_filter.mp hrow
    exact ⟨r, Table.lookup_eq_some_iff_mem.mpr hrow, hp⟩
  · rintro ⟨r, hfind, hp⟩
    apply List.mem_map.mpr
    exact ⟨(id, r),
      List.mem_filter.mpr ⟨Table.lookup_eq_some_iff_mem.mp hfind, hp⟩, rfl⟩

theorem find_transactWhere (now : Time) (p : DocumentRecord -> Bool)
    (f : DocumentRecord -> Change) (db : Database) (id : Uuid) :
    (db.transactWhere now p f).find id =
      (db.find id).map fun r => if p r then (f r).record else r := by
  unfold transactWhere
  rw [find_foldl_transact now f _ (nodup_idsWhere p db)]
  cases hfind : db.find id with
  | none =>
      simp
  | some r =>
      by_cases hp : p r = true
      · have hmem : id ∈ db.idsWhere p := mem_idsWhere.mpr ⟨r, hfind, hp⟩
        simp [hmem, hp]
      · have hmem : id ∉ db.idsWhere p := by
          intro hmem
          obtain ⟨r', hfind', hp'⟩ := mem_idsWhere.mp hmem
          rw [hfind] at hfind'
          cases hfind'
          exact hp hp'
        simp [hmem, hp]

/-!
# Index writes leave documents alone
-/

variable {db db' : Database}

theorem documents_appendChunk {entry : Uuid × Chunk} (hrun : db.appendChunk entry = .ok db') :
    db'.documents = db.documents := by
  unfold appendChunk at hrun
  split at hrun
  · cases hrun
    rfl
  · split at hrun
    · cases hrun
    · split at hrun
      · cases hrun
        rfl
      · cases hrun

theorem documents_appendEmbedding {entry : Uuid × ChunkEmbedding}
    (hrun : db.appendEmbedding entry = .ok db') : db'.documents = db.documents := by
  unfold appendEmbedding at hrun
  split at hrun
  · cases hrun
    rfl
  · split at hrun
    · cases hrun
      rfl
    · cases hrun
  · cases hrun

theorem documents_appendDocumentChunksTx {chunks : List (Uuid × Chunk)}
    {embeddings : List (Uuid × ChunkEmbedding)}
    (hrun : db.appendDocumentChunksTx chunks embeddings = .ok db') :
    db'.documents = db.documents := by
  obtain ⟨db1, hchunks, hembeddings⟩ := bind_eq_ok hrun
  have h1 : db1.documents = db.documents := by
    apply foldlM_invariant (P := fun s : Database => s.documents = db.documents) _ rfl hchunks
    intro s entry s' hs hbody
    rw [documents_appendChunk hbody, hs]
  apply foldlM_invariant (P := fun s : Database => s.documents = db.documents) _ h1 hembeddings
  intro s entry s' hs hbody
  rw [documents_appendEmbedding hbody, hs]

theorem documents_setQuestions (job : DocJob) (attempt : Nat) (parent : Uuid)
    (db : Database) : (db.setQuestions job attempt parent).documents = db.documents := by
  unfold setQuestions
  split
  · rfl
  · rfl

theorem documents_persistNode (entry : NodeKey × List Uuid) (db : Database) :
    (db.persistNode entry).documents = db.documents := by
  unfold persistNode
  split
  · rfl
  · rfl

theorem documents_persistRelation (key : RelationKey) (db : Database) :
    (db.persistRelation key).documents = db.documents := by
  unfold persistRelation
  split
  · rfl
  · rfl

theorem documents_persistGraphMapsTx (job : DocJob) (db : Database) :
    (db.persistGraphMapsTx job).documents = db.documents := by
  unfold persistGraphMapsTx
  apply foldl_invariant (P := fun s : Database => s.documents = db.documents)
  · intro s key hs
    rw [documents_persistRelation, hs]
  · apply foldl_invariant (P := fun s : Database => s.documents = db.documents)
    · intro s entry hs
      rw [documents_persistNode, hs]
    · rfl

variable {rename : Uuid -> Uuid}

theorem documents_copyChunk {copied : List Uuid} {targetId targetVersionId targetGeneration : Nat}
    {row : Uuid × Chunk}
    (hrun : db.copyChunk rename copied targetId targetVersionId targetGeneration row =
      .ok db') :
    db'.documents = db.documents := by
  unfold copyChunk at hrun
  split at hrun
  · cases hrun
  · cases hrun
    rfl

theorem documents_copyEmbedding (rename : Uuid -> Uuid) (targetId targetVersionId : Uuid)
    (id : Uuid) (db : Database) :
    (db.copyEmbedding rename targetId targetVersionId id).documents = db.documents := by
  unfold copyEmbedding
  split
  · rfl
  · rfl

theorem documents_copyNode (rename : Uuid -> Uuid) (copied : List Uuid)
    (targetId targetVersionId targetGeneration : Nat) (row : NodeKey × List Uuid)
    (db : Database) :
    (db.copyNode rename copied targetId targetVersionId targetGeneration row).documents =
      db.documents := by
  unfold copyNode
  dsimp only
  split
  · rfl
  · rfl

theorem documents_copyRelation (names : List String)
    (targetId targetVersionId targetGeneration : Nat) (key : RelationKey)
    (db : Database) :
    (db.copyRelation names targetId targetVersionId targetGeneration key).documents =
      db.documents := by
  unfold copyRelation
  split
  · rfl
  · rfl

theorem documents_copyDocumentIndexTx {sourceId targetId targetVersionId : Uuid}
    (hrun : db.copyDocumentIndexTx rename sourceId targetId targetVersionId = .ok db') :
    db'.documents = db.documents := by
  unfold copyDocumentIndexTx at hrun
  split at hrun
  · split at hrun
    · cases hrun
      rfl
    · obtain ⟨db1, hchunks, hrest⟩ := bind_eq_ok hrun
      cases hrest
      have h1 : db1.documents = db.documents := by
        apply foldlM_invariant (P := fun s : Database => s.documents = db.documents) _ rfl hchunks
        intro s row s' hs hbody
        rw [documents_copyChunk hbody, hs]
      apply foldl_invariant (P := fun s : Database => s.documents = db.documents)
      · intro s key hs
        rw [documents_copyRelation, hs]
      apply foldl_invariant (P := fun s : Database => s.documents = db.documents)
      · intro s row hs
        rw [documents_copyNode, hs]
      apply foldl_invariant (P := fun s : Database => s.documents = db.documents)
      · intro s id hs
        rw [documents_copyEmbedding, hs]
      exact h1
  · cases hrun
    rfl
  · cases hrun

theorem find_eq_of_documents (hdocs : db'.documents = db.documents) (id : Uuid) :
    db'.find id = db.find id := by
  unfold find
  rw [hdocs]

/-!
# New documents
-/

theorem find_insertRecord (hrun : db.insertRecord id r = .ok db') (id' : Uuid) :
    db.find id = none ∧ db'.find id' = if id' = id then some r else db.find id' := by
  unfold insertRecord at hrun
  split at hrun
  · cases hrun
  · rename_i hnew
    cases hrun
    have hnone : db.find id = none := by
      simpa [Table.contains, find] using hnew
    refine ⟨hnone, ?_⟩
    change (db.documents.insertNew id r).lookup id' = _
    rw [Table.lookup_insertNew]
    change db.documents.lookup id = none at hnone
    rw [hnone]
    rfl

theorem find_cloneDocument {sourceId targetId versionId : Uuid} {copyKeep sourceHadWiki : Bool}
    (hrun : db.cloneDocument now sourceId targetId versionId copyKeep sourceHadWiki rename =
      .ok db') :
    db'.documents = db.documents ∨
      exists source, db.find sourceId = some source ∧ db.find targetId = none ∧
        forall id, db'.find id =
          if id = targetId then
            some (clonedRecord now versionId copyKeep sourceHadWiki source.document)
          else db.find id := by
  unfold cloneDocument at hrun
  split at hrun
  · cases hrun
    exact Or.inl rfl
  · rename_i source hsource
    split at hrun
    · cases hrun
      exact Or.inl rfl
    · obtain ⟨db1, hinsert, hcopy⟩ := bind_eq_ok hrun
      have hdocs : db'.documents = db1.documents := by
        split at hcopy
        · exact documents_copyDocumentIndexTx hcopy
        · cases hcopy
          rfl
      refine Or.inr ⟨source, hsource, (find_insertRecord hinsert targetId).1, ?_⟩
      intro id
      rw [find_eq_of_documents hdocs]
      exact (find_insertRecord hinsert id).2

/-!
# Commits across tables
-/

theorem find_commitChunks {job : DocJob} {key : JobKey} {types : List String}
    {imageKey : Option String} {parentIds : List Uuid} {finish : Bool} {db : Database}
    {result : Database × Bool}
    (hrun : db.commitChunks now job attempt key types imageKey parentIds finish =
      .ok result)
    (id : Uuid) :
    result.1.find id =
      if id = job.documentId ∧ job.summarySettled key then
        (db.find id).map fun r =>
          ((DocumentOp.commitChunks attempt key job.summaryStatus job.description
            finish).apply now r).record
      else db.find id := by
  unfold commitChunks at hrun
  split at hrun
  · rename_i hnone
    cases hrun
    by_cases hid : id = job.documentId
    · subst hid
      simp [hnone]
    · simp [hid]
  · rename_i r hfind
    split at hrun
    · rename_i hlock
      rw [Bool.not_eq_true'] at hlock
      cases hrun
      by_cases hid : id = job.documentId
      · subst hid
        simp [hfind, DocumentOp.apply, hlock, Change.unchanged]
      · simp [hid]
    · rename_i hlock
      rw [Bool.not_eq_true', Bool.not_eq_false] at hlock
      split at hrun
      · rename_i hreceipt
        cases hrun
        by_cases hid : id = job.documentId
        · subst hid
          simp [hfind, DocumentOp.apply, hreceipt, Change.unchanged]
        · simp [hid]
      · rename_i hreceipt
        obtain ⟨db2, happend, hrest⟩ := bind_eq_ok hrun
        split at hrest
        · obtain ⟨_, hthrow, _⟩ := bind_eq_ok hrest
          cases hthrow
        · rename_i hsettled
          rw [Bool.not_eq_true', Bool.not_eq_false] at hsettled
          cases hrest
          have hdocs : forall parents : List Uuid,
              (parents.foldl (fun db parent => setQuestions job attempt parent db)
                db2).documents = db.documents := by
            intro parents
            apply foldl_invariant (P := fun s : Database => s.documents = db.documents)
            · intro s parent hs
              rw [documents_setQuestions, hs]
            · rw [documents_appendDocumentChunksTx happend]
              rfl
          rw [find_applyChange, find_eq_of_documents (hdocs parentIds)]
          by_cases hid : id = job.documentId
          · subst hid
            simp [hfind, DocumentOp.apply, hlock, hreceipt, hsettled]
          · simp [hid]

theorem find_commitGraph (now : Time) (job : DocJob) (attempt : Nat) (key : JobKey)
    (db : Database) (id : Uuid) :
    (db.commitGraph now job attempt key).1.find id =
      if id = job.documentId then
        (db.find id).map fun r => ((DocumentOp.complete attempt key).apply now r).record
      else db.find id := by
  unfold commitGraph
  cases hfind : db.find job.documentId with
  | none =>
      by_cases hid : id = job.documentId
      · subst hid
        simp [hfind]
      · simp [hid]
  | some r =>
      dsimp only
      rcases hcomplete : r.complete now attempt key with ⟨c, fresh⟩
      cases fresh with
      | false =>
          by_cases hid : id = job.documentId
          · subst hid
            have hsame : c.record = r := DocumentRecord.complete_false hcomplete
            simp [hfind, DocumentOp.apply, hcomplete, hsame]
          · simp [hid]
      | true =>
          dsimp only
          rw [find_eq_of_documents (documents_persistGraphMapsTx job _), find_applyChange]
          by_cases hid : id = job.documentId
          · subst hid
            simp [hfind, DocumentOp.apply, hcomplete]
          · simp [hid]

theorem documents_stageIndex {chunks : List (Uuid × Chunk)}
    {embeddings : List (Uuid × ChunkEmbedding)} {replaceChunks : Bool} {db : Database}
    {result : Database × Bool}
    (hrun : db.stageIndex id attempt chunks embeddings replaceChunks = .ok result) :
    result.1.documents = db.documents := by
  unfold stageIndex at hrun
  split at hrun
  · cases hrun
    rfl
  · split at hrun
    · cases hrun
      rfl
    · obtain ⟨db2, happend, hrest⟩ := bind_eq_ok hrun
      cases hrest
      rw [documents_appendDocumentChunksTx happend]
      split
      · rfl
      · rfl

theorem documents_deleteGeneration (id : Uuid) (attempt : Nat) (db : Database) :
    (db.deleteGeneration id attempt).documents = db.documents := by
  unfold deleteGeneration
  split
  · rfl
  · split
    · rfl
    · rfl

theorem documents_purgeDocumentIndex (id : Uuid) (db : Database) :
    (db.purgeDocumentIndex id).documents = db.documents := by
  unfold purgeDocumentIndex
  split
  · rfl
  · split
    · rfl
    · rfl

end Database

/-!
# Every transaction, seen from one document
-/

namespace Operation

/-- The rows a transaction gives to a document that did not exist before. -/
inductive Created (now : Time) (db : Database) (id : Uuid) :
    Operation -> DocumentRecord -> Prop where
  | inserted (versionId : Uuid) (kind : DocumentKind) (passages : List String) :
      Created now db id (.insertDocument id versionId kind passages)
        (Database.insertedRecord now versionId kind passages)
  | cloned (sourceId versionId : Uuid) (copyKeep sourceHadWiki : Bool)
      (rename : Uuid -> Uuid) (source : DocumentRecord)
      (hsource : db.find sourceId = some source) :
      Created now db id
        (.cloneDocument sourceId id versionId copyKeep sourceHadWiki rename)
        (Database.clonedRecord now versionId copyKeep sourceHadWiki source.document)

variable {t : Timed}

theorem step_of_ok {db db' : Database} (hrun : t.operation.run t.now db = .ok db') :
    step t db = db' := by
  unfold step
  rw [hrun]

theorem step_of_error {db : Database} {e : String} (hrun : t.operation.run t.now db = .error e) :
    step t db = db := by
  unfold step
  rw [hrun]

/-- A committed transaction, seen from one document id. -/
theorem find_run {op : Operation} {db db' : Database} (hrun : op.run now db = .ok db') (id : Uuid) :
    (exists r, db.find id = none ∧ Created now db id op r ∧ db'.find id = some r) ∨
      (op.event id = none ∧ db'.find id = db.find id) ∨
      exists e, op.event id = some e ∧
        db'.find id = (db.find id).map fun r => (e.apply now r).record := by
  cases op with
  | insertDocument newId versionId kind passages =>
      have hinsert := Database.find_insertRecord hrun id
      by_cases hid : id = newId
      · subst hid
        left
        refine ⟨_, hinsert.1, Created.inserted versionId kind passages, ?_⟩
        simpa using hinsert.2
      · right
        left
        refine ⟨rfl, ?_⟩
        simpa [hid] using hinsert.2
  | cloneDocument sourceId targetId versionId copyKeep sourceHadWiki rename =>
      rcases Database.find_cloneDocument hrun with hsame | ⟨source, hsource, hnone, hfind⟩
      · right
        left
        exact ⟨rfl, Database.find_eq_of_documents hsame id⟩
      · by_cases hid : id = targetId
        · subst hid
          left
          refine ⟨_, hnone,
            Created.cloned sourceId versionId copyKeep sourceHadWiki rename source hsource, ?_⟩
          simpa using hfind id
        · right
          left
          refine ⟨rfl, ?_⟩
          simpa [hid] using hfind id
  | document docId docOp =>
      cases hrun
      right
      by_cases hid : id = docId
      · subst hid
        right
        refine ⟨docOp, by simp [event], ?_⟩
        simp [Database.find_transact]
      · left
        refine ⟨?_, ?_⟩
        · simp [event, Ne.symm hid]
        · simp [Database.find_transact, hid]
  | commitChunks job attempt key types imageKey parentIds finish =>
      rcases hcommit : db.commitChunks now job attempt key types imageKey parentIds finish
        with e | result
      · simp [run, hcommit, Except.map] at hrun
      · simp only [run, hcommit, Except.map, Except.ok.injEq] at hrun
        subst hrun
        have hfind := Database.find_commitChunks hcommit id
        right
        by_cases hid : id = job.documentId ∧ job.summarySettled key = true
        · right
          rw [if_pos hid] at hfind
          exact ⟨_, if_pos ⟨hid.1.symm, hid.2⟩, hfind⟩
        · left
          rw [if_neg hid] at hfind
          refine ⟨if_neg ?_, hfind⟩
          intro hevent
          exact hid ⟨hevent.1.symm, hevent.2⟩
  | commitGraph job attempt key =>
      cases hrun
      have hfind := Database.find_commitGraph now job attempt key db id
      right
      by_cases hid : id = job.documentId
      · subst hid
        right
        refine ⟨_, if_pos rfl, ?_⟩
        simpa using hfind
      · left
        refine ⟨if_neg (Ne.symm hid), ?_⟩
        simpa [hid] using hfind
  | stageIndex docId attempt chunks embeddings replaceChunks =>
      rcases hstage : db.stageIndex docId attempt chunks embeddings replaceChunks
        with e | result
      · simp [run, hstage, Except.map] at hrun
      · simp only [run, hstage, Except.map, Except.ok.injEq] at hrun
        subst hrun
        right
        left
        exact ⟨rfl, Database.find_eq_of_documents (Database.documents_stageIndex hstage) id⟩
  | deleteGeneration docId attempt =>
      cases hrun
      right
      left
      exact ⟨rfl, Database.find_eq_of_documents
        (Database.documents_deleteGeneration docId attempt db) id⟩
  | purgeDocumentIndex docId =>
      cases hrun
      right
      left
      exact ⟨rfl, Database.find_eq_of_documents
        (Database.documents_purgeDocumentIndex docId db) id⟩
  | recoverStale =>
      cases hrun
      right
      right
      refine ⟨.recoverStale, rfl, ?_⟩
      rw [Database.recoverStale, Database.find_transactWhere]
      congr 1
      funext r
      simp only [DocumentOp.apply]
      split <;> rfl
  | cancelActiveDocs versionIds =>
      cases hrun
      right
      right
      refine ⟨.cancelActive versionIds, rfl, ?_⟩
      rw [Database.cancelActiveDocsForVersions, Database.find_transactWhere]
      congr 1
      funext r
      simp only [DocumentOp.apply]
      split <;> rfl
  | housekeepDocuments staleSecs =>
      cases hrun
      right
      right
      refine ⟨.housekeep staleSecs, rfl, ?_⟩
      rw [Database.housekeepDocuments, Database.find_transactWhere]
      congr 1
      funext r
      simp only [DocumentOp.apply]
      split <;> rfl

theorem find_step_of_some {db : Database} {id : Uuid} (hfind : db.find id = some r) :
    (step t db).find id = some r ∨
      exists e, t.operation.event id = some e ∧
        (step t db).find id = some (e.apply t.now r).record := by
  rcases hrun : t.operation.run t.now db with error | db'
  · rw [step_of_error hrun]
    exact Or.inl hfind
  · rw [step_of_ok hrun]
    rcases find_run hrun id with ⟨r', hnone, _, _⟩ | ⟨_, hsame⟩ | ⟨e, hevent, happly⟩
    · rw [hfind] at hnone
      cases hnone
    · left
      rw [hsame, hfind]
    · right
      refine ⟨e, hevent, ?_⟩
      rw [happly, hfind]
      rfl

theorem find_step_of_none {db : Database} {id : Uuid} (hfind : db.find id = none) :
    (step t db).find id = none ∨
      exists r, Created t.now db id t.operation r ∧ (step t db).find id = some r := by
  rcases hrun : t.operation.run t.now db with error | db'
  · rw [step_of_error hrun]
    exact Or.inl hfind
  · rw [step_of_ok hrun]
    rcases find_run hrun id with ⟨r, _, hcreated, hnew⟩ | ⟨_, hsame⟩ | ⟨e, _, happly⟩
    · exact Or.inr ⟨r, hcreated, hnew⟩
    · left
      rw [hsame, hfind]
    · left
      rw [happly, hfind]
      rfl

/-- A property of the rows of single documents that creation establishes and
every event keeps is kept by every transaction. -/
theorem forall_find_step {P : Uuid -> DocumentRecord -> Prop} {db : Database}
    (hcreated : forall id r, Created t.now db id t.operation r -> P id r)
    (hevent : forall id e r, t.operation.event id = some e -> db.find id = some r ->
      P id r -> P id (e.apply t.now r).record)
    (hinv : forall id r, db.find id = some r -> P id r) :
    forall id r, (step t db).find id = some r -> P id r := by
  intro id r hfind
  cases hold : db.find id with
  | none =>
      rcases find_step_of_none (t := t) hold with hnone | ⟨r', hr', hnew⟩
      · rw [hnone] at hfind
        cases hfind
      · rw [hnew] at hfind
        cases hfind
        exact hcreated id _ hr'
  | some old =>
      rcases find_step_of_some (t := t) hold with hsame | ⟨e, he, hnew⟩
      · rw [hsame] at hfind
        cases hfind
        exact hinv id r hold
      · rw [hnew] at hfind
        cases hfind
        exact hevent id e old he hold (hinv id old hold)

end Operation

end Workflow
end KnowledgeBrain
