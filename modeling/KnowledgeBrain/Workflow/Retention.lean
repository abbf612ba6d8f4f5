import KnowledgeBrain.Workflow.Generations

/-!
# Retention of the active generation

Deletions of chunks are selected by generation.  Below, a transaction keeps a
chunk when the chunk is still stored afterwards, for the same document, in the
same generation and of the same type; the content of a chunk may be replaced
by an append under its id.
-/

namespace KnowledgeBrain
namespace Workflow

open Foundation
open Document (Advances)

/-- The same place in the index. -/
structure Chunk.SameSlot (c c' : Chunk) : Prop where
  documentId : c'.documentId = c.documentId
  generation : c'.generation = c.generation
  chunkType : c'.chunkType = c.chunkType

theorem Chunk.SameSlot.refl (c : Chunk) : c.SameSlot c :=
  ⟨rfl, rfl, rfl⟩

theorem Chunk.SameSlot.trans {c c' c'' : Chunk} (h : c.SameSlot c') (h' : c'.SameSlot c'') :
    c.SameSlot c'' :=
  ⟨h'.documentId.trans h.documentId, h'.generation.trans h.generation,
    h'.chunkType.trans h.chunkType⟩

namespace Database

/-- The chunk `c` is stored under `id`, perhaps with another content. -/
def Stores (id : Uuid) (c : Chunk) (db : Database) : Prop :=
  exists c', db.chunks.lookup id = some c' ∧ c.SameSlot c'

theorem stores_of_lookup {id : Uuid} {c : Chunk} {db : Database}
    (h : db.chunks.lookup id = some c) : db.Stores id c :=
  ⟨c, h, Chunk.SameSlot.refl c⟩

theorem stores_of_chunks_eq {id : Uuid} {c : Chunk} {db db' : Database}
    (hchunks : db'.chunks = db.chunks) (h : db.Stores id c) : db'.Stores id c := by
  unfold Stores
  rw [hchunks]
  exact h

/-!
# The index writes
-/

theorem sameSlot_clearParent (deleted : Uuid -> Bool) (c : Chunk) :
    c.SameSlot (clearParent deleted c) := by
  unfold clearParent
  split
  · exact Chunk.SameSlot.refl c
  · split
    · exact ⟨rfl, rfl, rfl⟩
    · exact Chunk.SameSlot.refl c

variable {p : Uuid -> Chunk -> Bool}

theorem lookup_deleteChunks {id : Uuid} {c : Chunk} {db : Database}
    (hlookup : db.chunks.lookup id = some c) (hp : p id c = false) :
    (db.deleteChunks p).chunks.lookup id = some (clearParent (selects p db) c) := by
  unfold deleteChunks
  dsimp only
  rw [Table.lookup_mapRows, Table.lookup_filter, hlookup]
  simp [hp]

theorem stores_deleteChunks {id : Uuid} {c : Chunk} {db : Database}
    (hp : forall c', c.SameSlot c' -> p id c' = false) (h : db.Stores id c) :
    (db.deleteChunks p).Stores id c := by
  obtain ⟨c', hlookup, hslot⟩ := h
  exact ⟨_, lookup_deleteChunks hlookup (hp c' hslot),
    hslot.trans (sameSlot_clearParent _ c')⟩

theorem stores_modify {id id' : Uuid} {c : Chunk} {f : Chunk -> Chunk} {db : Database}
    (hf : forall c' : Chunk, c'.SameSlot (f c')) (h : db.Stores id c) :
    ({ db with chunks := db.chunks.modify id' f } : Database).Stores id c := by
  obtain ⟨c', hlookup, hslot⟩ := h
  unfold Stores
  dsimp only
  rw [Table.lookup_modify, hlookup]
  split
  · exact ⟨f c', rfl, hslot.trans (hf c')⟩
  · exact ⟨c', rfl, hslot⟩

theorem stores_insertNew {id id' : Uuid} {c new : Chunk} {db : Database}
    (h : db.Stores id c) :
    ({ db with chunks := db.chunks.insertNew id' new } : Database).Stores id c := by
  obtain ⟨c', hlookup, hslot⟩ := h
  refine ⟨c', ?_, hslot⟩
  dsimp only
  rw [Table.lookup_insertNew]
  split
  · rename_i hid
    rw [← hid, hlookup]
    rfl
  · exact hlookup

theorem stores_appendChunk {entry : Uuid × Chunk} {id : Uuid} {c : Chunk}
    {db db' : Database} (hrun : db.appendChunk entry = .ok db') (h : db.Stores id c) :
    db'.Stores id c := by
  unfold appendChunk at hrun
  split at hrun
  · cases hrun
    exact stores_modify (fun _ => ⟨rfl, rfl, rfl⟩) h
  · split at hrun
    · cases hrun
    · split at hrun
      · cases hrun
        exact stores_insertNew h
      · cases hrun

theorem chunks_appendEmbedding {entry : Uuid × ChunkEmbedding} {db db' : Database}
    (hrun : db.appendEmbedding entry = .ok db') : db'.chunks = db.chunks := by
  unfold appendEmbedding at hrun
  split at hrun
  · cases hrun
    rfl
  · split at hrun
    · cases hrun
      rfl
    · cases hrun
  · cases hrun

variable {embeddings : List (Uuid × ChunkEmbedding)} {chunks : List (Uuid × Chunk)}

theorem stores_appendDocumentChunksTx {id : Uuid} {c : Chunk} {db db' : Database}
    (hrun : db.appendDocumentChunksTx chunks embeddings = .ok db') (h : db.Stores id c) :
    db'.Stores id c := by
  obtain ⟨db1, hchunks, hembeddings⟩ := bind_eq_ok hrun
  have h1 : db1.Stores id c := by
    apply foldlM_invariant (P := fun s : Database => s.Stores id c) _ h hchunks
    intro s entry s' hs hbody
    exact stores_appendChunk hbody hs
  apply foldlM_invariant (P := fun s : Database => s.Stores id c) _ h1 hembeddings
  intro s entry s' hs hbody
  exact stores_of_chunks_eq (chunks_appendEmbedding hbody) hs

variable {attempt : Nat}

theorem stores_setQuestions {job : DocJob} {parent id : Uuid} {c : Chunk} {db : Database}
    (h : db.Stores id c) :
    (db.setQuestions job attempt parent).Stores id c := by
  unfold setQuestions
  split
  · exact h
  · apply stores_modify _ h
    intro c'
    split
    · exact ⟨rfl, rfl, rfl⟩
    · exact Chunk.SameSlot.refl c'

theorem chunks_persistGraphMapsTx (job : DocJob) (db : Database) :
    (db.persistGraphMapsTx job).chunks = db.chunks := by
  have hnode : forall (entry : NodeKey × List Uuid) (s : Database),
      (s.persistNode entry).chunks = s.chunks := by
    intro entry s
    unfold persistNode
    split <;> rfl
  have hrelation : forall (key : RelationKey) (s : Database),
      (s.persistRelation key).chunks = s.chunks := by
    intro key s
    unfold persistRelation
    split <;> rfl
  unfold persistGraphMapsTx
  apply foldl_invariant (P := fun s : Database => s.chunks = db.chunks)
  · intro s key hs
    rw [hrelation, hs]
  · apply foldl_invariant (P := fun s : Database => s.chunks = db.chunks)
    · intro s entry hs
      rw [hnode, hs]
    · rfl

variable {now : Time}

theorem stores_applyChange {docId id : Uuid} {change : Change} {c : Chunk} {db : Database}
    (hwiki : c.chunkType ≠ wikiPageType) (h : db.Stores id c) :
    (db.applyChange now docId change).Stores id c := by
  have hset : (db.setRecord docId change.record).Stores id c :=
    stores_of_chunks_eq rfl h
  unfold applyChange
  dsimp only
  split
  · unfold invalidateWiki
    refine stores_of_chunks_eq rfl (stores_deleteChunks ?_ hset)
    intro c' hslot
    have hne : c'.chunkType ≠ wikiPageType := by
      rw [hslot.chunkType]
      exact hwiki
    simp [wikiChunkConcerns, hne]
  · exact hset

theorem stores_transact {docId id : Uuid} {f : DocumentRecord -> Change} {c : Chunk}
    {db : Database} (hwiki : c.chunkType ≠ wikiPageType) (h : db.Stores id c) :
    (db.transact now docId f).Stores id c := by
  unfold transact
  split
  · exact h
  · exact stores_applyChange hwiki h

theorem stores_transactWhere {p : DocumentRecord -> Bool} {id : Uuid}
    {f : DocumentRecord -> Change} {c : Chunk} {db : Database}
    (hwiki : c.chunkType ≠ wikiPageType) (h : db.Stores id c) :
    (db.transactWhere now p f).Stores id c := by
  unfold transactWhere
  apply foldl_invariant (P := fun s : Database => s.Stores id c)
  · intro s docId hs
    exact stores_transact hwiki hs
  · exact h

theorem stores_copyDocumentIndexTx {rename : Uuid -> Uuid}
    {sourceId targetId targetVersionId id : Uuid} {c : Chunk} {db db' : Database}
    (hrun : db.copyDocumentIndexTx rename sourceId targetId targetVersionId = .ok db')
    (h : db.Stores id c) : db'.Stores id c := by
  have hchunk : forall (row : Uuid × Chunk) (copied : List Uuid) (generation : Nat)
      (s s' : Database), s.Stores id c ->
      s.copyChunk rename copied targetId targetVersionId generation row = .ok s' ->
      s'.Stores id c := by
    intro row copied generation s s' hs hbody
    unfold copyChunk at hbody
    split at hbody
    · cases hbody
    · cases hbody
      exact stores_insertNew hs
  unfold copyDocumentIndexTx at hrun
  split at hrun
  · split at hrun
    · cases hrun
      exact h
    · obtain ⟨db1, hchunks, hrest⟩ := bind_eq_ok hrun
      cases hrest
      have h1 : db1.Stores id c := by
        apply foldlM_invariant (P := fun s : Database => s.Stores id c) _ h hchunks
        intro s row s' hs hbody
        exact hchunk row _ _ s s' hs hbody
      apply foldl_invariant (P := fun s : Database => s.Stores id c)
      · intro s key hs
        unfold copyRelation
        split
        · exact stores_of_chunks_eq rfl hs
        · exact hs
      apply foldl_invariant (P := fun s : Database => s.Stores id c)
      · intro s row hs
        unfold copyNode
        dsimp only
        split
        · exact hs
        · exact stores_of_chunks_eq rfl hs
      apply foldl_invariant (P := fun s : Database => s.Stores id c)
      · intro s chunkId hs
        unfold copyEmbedding
        split
        · exact hs
        · exact stores_of_chunks_eq rfl hs
      exact h1
  · cases hrun
    exact h
  · cases hrun

/-!
# The transactions
-/

/-- The chunk belongs to the active generation of a document that is being
parsed again and is not deleted. -/
structure ActiveChunk (db : Database) (c : Chunk) (r : DocumentRecord) : Prop where
  found : db.find c.documentId = some r
  generation : c.generation = r.document.activeGeneration
  reparsed : r.document.activeGeneration < r.document.attempt
  live : r.document.parseStatus.isTombstone = false
  notWiki : c.chunkType ≠ wikiPageType

section Active

variable {db : Database} {c : Chunk} {r : DocumentRecord}

variable {docId : Uuid} {r' : DocumentRecord}

theorem ActiveChunk.generation_ne (h : ActiveChunk db c r) (hfind : db.find docId = some r')
    (hlock : r'.lockCurrent attempt = true) (hdoc : c.documentId = docId) :
    c.generation ≠ attempt := by
  have hsame : r' = r := by
    have hfound := h.found
    rw [hdoc, hfind] at hfound
    exact Option.some.inj hfound
  have hattempt := DocumentRecord.attempt_of_lockCurrent hlock
  rw [hsame] at hattempt
  have hlt := h.reparsed
  rw [h.generation]
  omega

theorem ActiveChunk.not_ofGeneration_of_lock (h : ActiveChunk db c r)
    (hfind : db.find docId = some r') (hlock : r'.lockCurrent attempt = true) (id : Uuid)
    (c' : Chunk) (hdocument : c'.documentId = c.documentId)
    (hgeneration : c'.generation = c.generation) :
    ofGeneration docId attempt id c' = false := by
  by_cases hdoc : c.documentId = docId
  · have hne : c'.generation ≠ attempt := by
      rw [hgeneration]
      exact h.generation_ne hfind hlock hdoc
    simp [ofGeneration, hne]
  · have hdoc' : c'.documentId ≠ docId := by
      rw [hdocument]
      exact hdoc
    simp [ofGeneration, hdoc']

theorem stores_commitChunks {job : DocJob} {key : JobKey} {types : List String}
    {imageKey : Option String} {parentIds : List Uuid} {finish : Bool} {id : Uuid}
    {result : Database × Bool}
    (hrun : db.commitChunks now job attempt key types imageKey parentIds finish =
      .ok result)
    (hactive : ActiveChunk db c r) (h : db.Stores id c) :
    result.1.Stores id c := by
  unfold commitChunks at hrun
  split at hrun
  · cases hrun
    exact h
  · rename_i r' hfind
    split at hrun
    · cases hrun
      exact h
    · rename_i hlock
      rw [Bool.not_eq_true', Bool.not_eq_false] at hlock
      split at hrun
      · cases hrun
        exact h
      · obtain ⟨db2, happend, hrest⟩ := bind_eq_ok hrun
        split at hrest
        · obtain ⟨_, hthrow, _⟩ := bind_eq_ok hrest
          cases hthrow
        · cases hrest
          apply stores_applyChange hactive.notWiki
          apply foldl_invariant (P := fun s : Database => s.Stores id c)
          · intro s parent hs
            exact stores_setQuestions hs
          apply stores_appendDocumentChunksTx happend
          apply stores_deleteChunks _ h
          intro c' hslot
          by_cases hdoc : c.documentId = job.documentId
          · have hne : c'.generation ≠ attempt := by
              rw [hslot.generation]
              exact hactive.generation_ne hfind hlock hdoc
            simp [commitDeletes, hne]
          · have hne : c'.documentId ≠ job.documentId := by
              rw [hslot.documentId]
              exact hdoc
            simp [commitDeletes, hne]

theorem stores_stageIndex {replaceChunks : Bool} {id : Uuid} {result : Database × Bool}
    (hrun : db.stageIndex docId attempt chunks embeddings replaceChunks = .ok result)
    (hactive : ActiveChunk db c r) (h : db.Stores id c) : result.1.Stores id c := by
  unfold stageIndex at hrun
  split at hrun
  · cases hrun
    exact h
  · rename_i r' hfind
    split at hrun
    · cases hrun
      exact h
    · rename_i hlock
      rw [Bool.not_eq_true', Bool.not_eq_false] at hlock
      obtain ⟨db2, happend, hrest⟩ := bind_eq_ok hrun
      cases hrest
      apply stores_appendDocumentChunksTx happend
      split
      · apply stores_deleteChunks _ h
        intro c' hslot
        exact hactive.not_ofGeneration_of_lock hfind hlock id c' hslot.documentId
          hslot.generation
      · exact stores_of_chunks_eq rfl h

/-- The generations `delete_generation` accepts do not hold the chunk. -/
theorem ActiveChunk.not_ofGeneration_of_deletable (h : ActiveChunk db c r)
    (hfind : db.find docId = some r')
    (hdeletable : deletableGeneration attempt r'.document = true) (id : Uuid) (c' : Chunk)
    (hdocument : c'.documentId = c.documentId) (hgeneration : c'.generation = c.generation) :
    ofGeneration docId attempt id c' = false := by
  by_cases hdoc : c.documentId = docId
  · have hsame : r' = r := by
      have hfound := h.found
      rw [hdoc, hfind] at hfound
      exact Option.some.inj hfound
    subst hsame
    have hne : c'.generation ≠ attempt := by
      rw [hgeneration, h.generation]
      intro heq
      have hlt := h.reparsed
      simp only [deletableGeneration, h.live, Bool.and_false, Bool.or_false, Bool.and_eq_true,
        decide_eq_true_eq, bne_iff_ne] at hdeletable
      exact hdeletable.2 heq.symm
    simp [ofGeneration, hne]
  · have hdoc' : c'.documentId ≠ docId := by
      rw [hdocument]
      exact hdoc
    simp [ofGeneration, hdoc']

theorem stores_deleteGeneration {id : Uuid} (hactive : ActiveChunk db c r) (h : db.Stores id c) :
    (db.deleteGeneration docId attempt).Stores id c := by
  unfold deleteGeneration
  split
  · exact h
  · rename_i r' hfind
    split
    · rename_i hdeletable
      apply stores_deleteChunks _ h
      intro c' hslot
      exact hactive.not_ofGeneration_of_deletable hfind hdeletable id c' hslot.documentId
        hslot.generation
    · exact h

theorem stores_purgeDocumentIndex {docId id : Uuid} (hactive : ActiveChunk db c r)
    (h : db.Stores id c) : (db.purgeDocumentIndex docId).Stores id c := by
  unfold purgeDocumentIndex
  split
  · exact h
  · rename_i r' hfind
    split
    · rename_i htombstone
      refine stores_of_chunks_eq rfl (stores_deleteChunks ?_ (stores_of_chunks_eq rfl h))
      intro c' hslot
      have hdoc : c'.documentId ≠ docId := by
        intro hdoc
        have hfound := hactive.found
        rw [← hslot.documentId, hdoc, hfind] at hfound
        cases hfound
        rw [hactive.live] at htombstone
        cases htombstone
      simp [hdoc]
    · exact h

/-- No transaction removes a chunk of the active generation of a live document
that is being parsed again. -/
theorem stores_step {t : Operation.Timed} {id : Uuid} (hactive : ActiveChunk db c r)
    (h : db.Stores id c) : (Operation.step t db).Stores id c := by
  rcases hrun : t.operation.run t.now db with error | db'
  · rw [Operation.step_of_error hrun]
    exact h
  · rw [Operation.step_of_ok hrun]
    cases hop : t.operation with
    | insertDocument newId versionId kind passages =>
        rw [hop] at hrun
        simp only [Operation.run, insertDocument, insertRecord] at hrun
        split at hrun
        · cases hrun
        · cases hrun
          exact stores_of_chunks_eq rfl h
    | cloneDocument sourceId targetId versionId copyKeep sourceHadWiki rename =>
        rw [hop] at hrun
        simp only [Operation.run, cloneDocument] at hrun
        split at hrun
        · cases hrun
          exact h
        · split at hrun
          · cases hrun
            exact h
          · obtain ⟨db1, hinsert, hcopy⟩ := bind_eq_ok hrun
            have h1 : db1.Stores id c := by
              unfold insertRecord at hinsert
              split at hinsert
              · cases hinsert
              · cases hinsert
                exact stores_of_chunks_eq rfl h
            split at hcopy
            · exact stores_copyDocumentIndexTx hcopy h1
            · cases hcopy
              exact h1
    | document docId op =>
        rw [hop] at hrun
        cases hrun
        exact stores_transact hactive.notWiki h
    | commitChunks job attempt key types imageKey parentIds finish =>
        rw [hop] at hrun
        rcases hcommit : db.commitChunks t.now job attempt key types imageKey parentIds finish
          with error | result
        · simp [Operation.run, hcommit, Except.map] at hrun
        · simp only [Operation.run, hcommit, Except.map, Except.ok.injEq] at hrun
          subst hrun
          exact stores_commitChunks hcommit hactive h
    | commitGraph job attempt key =>
        rw [hop] at hrun
        cases hrun
        unfold commitGraph
        split
        · exact h
        · split
          · exact h
          · exact stores_of_chunks_eq (chunks_persistGraphMapsTx job _)
              (stores_applyChange hactive.notWiki h)
    | stageIndex docId attempt chunks embeddings replaceChunks =>
        rw [hop] at hrun
        rcases hstage : db.stageIndex docId attempt chunks embeddings replaceChunks
          with error | result
        · simp [Operation.run, hstage, Except.map] at hrun
        · simp only [Operation.run, hstage, Except.map, Except.ok.injEq] at hrun
          subst hrun
          exact stores_stageIndex hstage hactive h
    | deleteGeneration docId attempt =>
        rw [hop] at hrun
        cases hrun
        exact stores_deleteGeneration hactive h
    | purgeDocumentIndex docId =>
        rw [hop] at hrun
        cases hrun
        exact stores_purgeDocumentIndex hactive h
    | recoverStale =>
        rw [hop] at hrun
        cases hrun
        exact stores_transactWhere hactive.notWiki h
    | cancelActiveDocs versionIds =>
        rw [hop] at hrun
        cases hrun
        exact stores_transactWhere hactive.notWiki h
    | housekeepDocuments staleSecs =>
        rw [hop] at hrun
        cases hrun
        exact stores_transactWhere hactive.notWiki h

end Active

/-!
# Staging and delayed deletes do not touch the active generation
-/

/-- Both rows of a chunk are the same in two databases. -/
def SameRows (id : Uuid) (db db' : Database) : Prop :=
  db'.chunks.lookup id = db.chunks.lookup id ∧
    db'.embeddings.lookup id = db.embeddings.lookup id

theorem sameRows_appendChunk {entry : Uuid × Chunk} {id : Uuid} {db db' : Database}
    (hrun : db.appendChunk entry = .ok db') (hid : entry.1 ≠ id) : SameRows id db db' := by
  have hid' : id ≠ entry.1 := fun h => hid h.symm
  unfold appendChunk at hrun
  split at hrun
  · cases hrun
    exact ⟨Table.lookup_modify_of_ne _ _ hid', rfl⟩
  · split at hrun
    · cases hrun
    · split at hrun
      · cases hrun
        refine ⟨?_, rfl⟩
        rw [Table.lookup_insertNew, if_neg hid']
      · cases hrun

theorem sameRows_appendEmbedding {entry : Uuid × ChunkEmbedding} {id : Uuid}
    {db db' : Database} (hrun : db.appendEmbedding entry = .ok db') (hid : entry.1 ≠ id) :
    SameRows id db db' := by
  have hid' : id ≠ entry.1 := fun h => hid h.symm
  unfold appendEmbedding at hrun
  split at hrun
  · cases hrun
    exact ⟨rfl, Table.lookup_modify_of_ne _ _ hid'⟩
  · split at hrun
    · cases hrun
      refine ⟨rfl, ?_⟩
      rw [Table.lookup_insertNew, if_neg hid']
    · cases hrun
  · cases hrun

theorem SameRows.trans {id : Uuid} {db db' db'' : Database} (h : SameRows id db db')
    (h' : SameRows id db' db'') : SameRows id db db'' :=
  ⟨h'.1.trans h.1, h'.2.trans h.2⟩

theorem sameRows_foldlM {Entry : Type} {body : Database -> Uuid × Entry -> Except String Database}
    {id : Uuid}
    (hbody : forall s s' entry, entry.1 ≠ id -> body s entry = .ok s' -> SameRows id s s')
    {entries : List (Uuid × Entry)} (hids : forall entry, entry ∈ entries -> entry.1 ≠ id)
    {db db' : Database} (hrun : entries.foldlM body db = .ok db') : SameRows id db db' := by
  induction entries generalizing db with
  | nil =>
      cases hrun
      exact ⟨rfl, rfl⟩
  | cons entry rest ih =>
      rw [List.foldlM_cons] at hrun
      obtain ⟨next, hfirst, hrest⟩ := bind_eq_ok hrun
      exact (hbody db next entry (hids entry (by simp)) hfirst).trans
        (ih (fun entry hmem => hids entry (by simp [hmem])) hrest)

theorem sameRows_deleteChunks {id : Uuid} {c : Chunk} {db : Database}
    (hlookup : db.chunks.lookup id = some c) (hp : p id c = false)
    (hparent : forall parent, c.parentChunkId = some parent ->
      selects p db parent = false) :
    SameRows id db (db.deleteChunks p) := by
  constructor
  · rw [lookup_deleteChunks hlookup hp, hlookup]
    unfold clearParent
    split
    · rfl
    · rename_i parent hsome
      simp [hparent parent hsome]
  · unfold deleteChunks
    dsimp only
    rw [Table.lookup_filter]
    cases db.embeddings.lookup id with
    | none => rfl
    | some e => simp [selects, hlookup, hp]

/-- The parent of a chunk, when it has one, is a chunk of the same generation
of the same document. -/
def ParentInGeneration (c : Chunk) (db : Database) : Prop :=
  forall parent pc, c.parentChunkId = some parent -> db.chunks.lookup parent = some pc ->
    pc.documentId = c.documentId ∧ pc.generation = c.generation

theorem selects_parent_of_generation {c : Chunk} {db : Database}
    (hparent : ParentInGeneration c db)
    (hnot : forall id c', c'.documentId = c.documentId -> c'.generation = c.generation ->
      ofGeneration docId attempt id c' = false) :
    forall parent, c.parentChunkId = some parent ->
      selects (ofGeneration docId attempt) db parent = false := by
  intro parent hsome
  unfold selects
  split
  · rfl
  · rename_i pc hlookup
    obtain ⟨hdoc, hgeneration⟩ := hparent parent pc hsome hlookup
    exact hnot parent pc hdoc hgeneration

section Touch

variable {db : Database} {c : Chunk} {r : DocumentRecord} {id : Uuid}

theorem sameRows_deleteGeneration (hactive : ActiveChunk db c r)
    (hlookup : db.chunks.lookup id = some c) (hparent : ParentInGeneration c db) :
    SameRows id db (db.deleteGeneration docId attempt) := by
  unfold deleteGeneration
  split
  · exact ⟨rfl, rfl⟩
  · rename_i r' hfind
    split
    · rename_i hdeletable
      have hnot := hactive.not_ofGeneration_of_deletable hfind hdeletable
      exact sameRows_deleteChunks hlookup (hnot id c rfl rfl)
        (selects_parent_of_generation hparent hnot)
    · exact ⟨rfl, rfl⟩

theorem sameRows_stageIndex {replaceChunks : Bool} {result : Database × Bool}
    (hrun : db.stageIndex docId attempt chunks embeddings replaceChunks = .ok result)
    (hactive : ActiveChunk db c r) (hlookup : db.chunks.lookup id = some c)
    (hparent : ParentInGeneration c db) (hchunks : forall entry, entry ∈ chunks -> entry.1 ≠ id)
    (hembeddings : forall entry, entry ∈ embeddings -> entry.1 ≠ id) :
    SameRows id db result.1 := by
  unfold stageIndex at hrun
  split at hrun
  · cases hrun
    exact ⟨rfl, rfl⟩
  · rename_i r' hfind
    split at hrun
    · cases hrun
      exact ⟨rfl, rfl⟩
    · rename_i hlock
      rw [Bool.not_eq_true', Bool.not_eq_false] at hlock
      have hnot := hactive.not_ofGeneration_of_lock hfind hlock
      obtain ⟨db2, happend, hrest⟩ := bind_eq_ok hrun
      cases hrest
      obtain ⟨db1, hfirst, hsecond⟩ := bind_eq_ok happend
      have hstaged : forall entry : Uuid × Chunk,
          entry ∈ (if replaceChunks = true then chunks else []) -> entry.1 ≠ id := by
        intro entry hmem
        split at hmem
        · exact hchunks entry hmem
        · cases hmem
      refine SameRows.trans ?_
        ((sameRows_foldlM (fun s s' entry hid hbody => sameRows_appendChunk hbody hid)
          hstaged hfirst).trans
        (sameRows_foldlM (fun s s' entry hid hbody => sameRows_appendEmbedding hbody hid)
          hembeddings hsecond))
      split
      · exact sameRows_deleteChunks hlookup (hnot id c rfl rfl)
          (selects_parent_of_generation hparent hnot)
      · refine ⟨rfl, ?_⟩
        dsimp only
        rw [Table.lookup_filter]
        have hkept : selects (fun _ c => c.documentId == docId && c.generation == attempt)
            db id = false := by
          unfold selects
          rw [hlookup]
          by_cases hdoc : c.documentId = docId
          · simp [hactive.generation_ne hfind hlock hdoc]
          · simp [hdoc]
        rw [hkept]
        cases db.embeddings.lookup id <;> rfl

end Touch

end Database

/-!
# Whole runs
-/

/-- The generation columns of a document are in order. -/
def GenerationsOrdered (d : Document) : Prop :=
  1 ≤ d.activeGeneration ∧ d.activeGeneration ≤ d.attempt

theorem generationsOrdered_advances {d d' : Document} (h : GenerationsOrdered d)
    (hadvances : Advances d d') : GenerationsOrdered d' := by
  obtain ⟨hpos, hle⟩ := h
  obtain ⟨hattempt, hsame | ⟨hactive, hattempt', _⟩⟩ := hadvances
  · exact ⟨by omega, by omega⟩
  · exact ⟨by omega, by omega⟩

theorem generationsOrdered_created {db : Database} {id : Uuid} {op : Operation}
    {r : DocumentRecord} (hcreated : Operation.Created now db id op r) :
    GenerationsOrdered r.document := by
  cases hcreated with
  | inserted versionId kind passages =>
      simp [GenerationsOrdered, Database.insertedRecord, DocumentRecord.bare,
        Document.inserted]
  | cloned sourceId versionId copyKeep sourceHadWiki rename source hsource =>
      cases copyKeep <;> cases sourceHadWiki <;>
        simp [GenerationsOrdered, Database.clonedRecord, DocumentRecord.putTx,
          DocumentRecord.bare, Document.inserted]

theorem generationsOrdered_of_reachable {db : Database} (hreach : Reachable db) :
    forall id r, db.find id = some r -> GenerationsOrdered r.document := by
  apply forall_find_of_reaches (P := fun _ r => GenerationsOrdered r.document) _ _ hreach
  · intro t s id r _ _ hcreated
    exact generationsOrdered_created hcreated
  · intro t s id e r _ _ _ hr
    exact generationsOrdered_advances hr (DocumentRecord.advances_apply t.now e r)

theorem advances_step (t : Operation.Timed) {db : Database} {id : Uuid} {r : DocumentRecord}
    (hfind : db.find id = some r) :
    exists r', (Operation.step t db).find id = some r' ∧
      Advances r.document r'.document := by
  rcases Operation.find_step_of_some (t := t) hfind with hsame | ⟨e, _, hnew⟩
  · exact ⟨r, hsame, Advances.refl _⟩
  · exact ⟨_, hnew, DocumentRecord.advances_apply t.now e r⟩

/-- What holds of generations from a database on. -/
structure GenerationSafety (db : Database) : Prop where
  /-- Along every continuation documents stay, and neither their attempt nor
  their active generation decreases. -/
  monotone : forall db', Reaches Operation.step (fun t _ => t.operation.Legal) db db' ->
    forall id r, db.find id = some r -> exists r', db'.find id = some r' ∧
      r.document.attempt ≤ r'.document.attempt ∧
      r.document.activeGeneration ≤ r'.document.activeGeneration
  /-- The active generation is positive and changes only to the current attempt,
  together with the completed status. -/
  published : forall (t : Operation.Timed) id r r', t.operation.Legal ->
    db.find id = some r -> (Operation.step t db).find id = some r' ->
      1 ≤ r'.document.activeGeneration ∧
      (r'.document.activeGeneration ≠ r.document.activeGeneration ->
        r'.document.activeGeneration = r.document.attempt ∧
        r'.document.attempt = r.document.attempt ∧ r'.document.parseStatus = .completed)
  /-- No transaction removes a chunk of the active generation of a document that
  is being parsed again. -/
  retained : forall (t : Operation.Timed) id c r, t.operation.Legal ->
    Database.ActiveChunk db c r -> db.chunks.lookup id = some c ->
      (Operation.step t db).Stores id c
  /-- A delayed delete leaves the rows of such a chunk alone. -/
  undeleted : forall now docId attempt id c r,
    Database.ActiveChunk db c r -> db.chunks.lookup id = some c ->
    Database.ParentInGeneration c db ->
      Database.SameRows id db (Operation.step ⟨now, .deleteGeneration docId attempt⟩ db)
  /-- Staging chunks and embeddings with other ids leaves the rows of such a
  chunk alone. -/
  unstaged : forall now docId attempt chunks embeddings replaceChunks id c r,
    Database.ActiveChunk db c r -> db.chunks.lookup id = some c ->
    Database.ParentInGeneration c db ->
    (forall entry, entry ∈ chunks -> entry.1 ≠ id) ->
    (forall entry, entry ∈ embeddings -> entry.1 ≠ id) ->
      Database.SameRows id db
        (Operation.step ⟨now, .stageIndex docId attempt chunks embeddings replaceChunks⟩ db)

theorem monotone_of_reachable {db db' : Database} (hreach : Reachable db)
    (hrun : Reaches Operation.step (fun t _ => t.operation.Legal) db db') :
    forall id r, db.find id = some r -> exists r', db'.find id = some r' ∧
      r.document.attempt ≤ r'.document.attempt ∧
      r.document.activeGeneration ≤ r'.document.activeGeneration := by
  apply Reaches.preorder
    (P := fun s => forall id r, s.find id = some r -> GenerationsOrdered r.document)
    (R := fun s s' => forall id r, s.find id = some r -> exists r', s'.find id = some r' ∧
      r.document.attempt ≤ r'.document.attempt ∧
      r.document.activeGeneration ≤ r'.document.activeGeneration)
    _ _ _ _ (generationsOrdered_of_reachable hreach) hrun
  · intro s id r hfind
    exact ⟨r, hfind, Nat.le_refl _, Nat.le_refl _⟩
  · intro s s' s'' h h' id r hfind
    obtain ⟨r', hfind', hattempt, hactive⟩ := h id r hfind
    obtain ⟨r'', hfind'', hattempt', hactive'⟩ := h' id r' hfind'
    exact ⟨r'', hfind'', Nat.le_trans hattempt hattempt', Nat.le_trans hactive hactive'⟩
  · intro t s hs _
    apply Operation.forall_find_step (P := fun _ r => GenerationsOrdered r.document) _ _ hs
    · intro id r hcreated
      exact generationsOrdered_created hcreated
    · intro id e r _ _ hr
      exact generationsOrdered_advances hr (DocumentRecord.advances_apply t.now e r)
  · intro t s hs _ id r hfind
    obtain ⟨r', hfind', hattempt, hactive⟩ := advances_step t hfind
    have hle := (hs id r hfind).2
    refine ⟨r', hfind', hattempt, ?_⟩
    rcases hactive with hsame | ⟨hactive, _, _⟩
    · omega
    · omega

/-- Generations behave in every reachable state. -/
theorem generation_safety_of_reachable {db : Database} (hreach : Reachable db) :
    GenerationSafety db where
  monotone := fun db' hrun => monotone_of_reachable hreach hrun
  published := by
    intro t id r r' _ hfind hfind'
    obtain ⟨r'', hfind'', hadvances⟩ := advances_step t hfind
    rw [hfind'] at hfind''
    cases hfind''
    refine ⟨(generationsOrdered_advances
      (generationsOrdered_of_reachable hreach id r hfind) hadvances).1, ?_⟩
    intro hne
    rcases hadvances.active with hsame | hpublished
    · exact absurd hsame hne
    · exact hpublished
  retained := by
    intro t id c r _ hactive hlookup
    exact Database.stores_step hactive (Database.stores_of_lookup hlookup)
  undeleted := by
    intro now docId attempt id c r hactive hlookup hparent
    exact Database.sameRows_deleteGeneration hactive hlookup hparent
  unstaged := by
    intro now docId attempt chunks embeddings replaceChunks id c r hactive hlookup hparent
      hchunks hembeddings
    unfold Operation.step
    simp only [Operation.run]
    rcases hstage : db.stageIndex docId attempt chunks embeddings replaceChunks
      with error | result
    · exact ⟨rfl, rfl⟩
    · exact Database.sameRows_stageIndex hstage hactive hlookup hparent hchunks hembeddings

/-- A document with a published generation and a second attempt on its way. -/
def republishedTrace : List Operation.Timed :=
  [⟨0, .insertDocument 1 7 .file []⟩,
    ⟨1, .document 1 (.claim 1)⟩,
    ⟨2, .stageIndex 1 1 [(10, ⟨7, 1, 0, "text", "body", "", 0, 4, none, [], none⟩)] [] true⟩,
    ⟨3, .document 1 (.afterIndexFanout 7 1 0 [] "report.txt")⟩,
    ⟨4, .document 1 .bumpDocumentAttempt⟩]

def republishedDatabase : Database :=
  perform Operation.step Database.empty republishedTrace

theorem generation_safety_of_republished :
    republishedDatabase.chunks.contains 10 = true ∧ GenerationSafety republishedDatabase :=
  ⟨by decide, generation_safety_of_reachable
    (reaches_perform (Reaches.refl _) ⟨trivial, trivial, trivial, trivial, trivial, trivial⟩)⟩

end Workflow
end KnowledgeBrain
