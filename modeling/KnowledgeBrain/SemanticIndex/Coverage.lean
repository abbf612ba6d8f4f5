import KnowledgeBrain.SemanticIndex.Freshness

/-!
# Sidecars cover the chunks of their generation

A generation row is only a digest.  What makes it trustworthy is that it was
taken of a list of chunks, and that every chunk of the list which is still
stored has its sidecar rows.  Every operation keeps this, except that storing a
chunk of the list again, after its rows went with the old one, does not.
-/

namespace KnowledgeBrain
namespace SemanticIndex

open Foundation Table
open Workflow (Uuid Chunk Document)
open Chunker (Text)

variable {sha256 : Text -> Text}

section Statements

variable (sha256 : Text -> Text)

/-- The digest of the generation was taken of these inputs. -/
structure BuiltFrom (used : List Uuid) (g : Generation) (inputs : List (Uuid × Text)) :
    Prop where
  snapshot : g.sourceSnapshotSha256 =
    sourceSnapshotSha256 sha256 g.embeddingRevisionSha256 inputs
  used : forall input, input ∈ inputs -> input.1 ∈ used
  oneLine : forall input, input ∈ inputs -> '\n' ∉ input.2

def KeywordsCover (s : Store) (version : Uuid) (inputs : List (Uuid × Text)) : Prop :=
  forall id c, s.chunks.lookup id = some c -> c.productVersionId = version ->
    (id, inputDigest sha256 c) ∈ inputs ->
    s.keywordRows.lookup id = some (Store.keywordRow sha256 c)

def VectorsCover (s : Store) (version : Uuid) (g : Generation) (inputs : List (Uuid × Text)) :
    Prop :=
  forall id c, s.chunks.lookup id = some c -> c.productVersionId = version ->
    (id, inputDigest sha256 c) ∈ inputs ->
    s.vectorRows.lookup (id, g.embeddingRevisionSha256) =
      some ⟨version, g.sourceSnapshotSha256, inputDigest sha256 c⟩

/-- What a vector rebuild in flight has frozen. -/
structure FrozenFrom (used : List Uuid) (f : FrozenSnapshot) : Prop where
  snapshot : f.sourceSnapshotSha256 =
    sourceSnapshotSha256 sha256 f.revisionSha256 f.inputs
  used : forall input, input ∈ f.inputs -> input.1 ∈ used
  oneLine : forall input, input ∈ f.inputs -> '\n' ∉ input.2
  nodup : (f.inputs.map Prod.fst).Nodup

structure Covered (w : World) : Prop where
  used : forall id c, w.store.chunks.lookup id = some c -> id ∈ w.usedIds
  uuids : forall id, id ∈ w.usedIds -> IsUuid id
  owners : forall key row, w.store.vectorRows.lookup key = some row ->
    exists c, w.store.chunks.lookup key.1 = some c ∧
      c.productVersionId = row.productVersionId
  frozen : forall f, f ∈ w.frozen -> FrozenFrom sha256 w.usedIds f
  keywords : forall version g, w.store.keywordGenerations.lookup version = some g ->
    exists inputs, BuiltFrom sha256 w.usedIds g inputs ∧
      KeywordsCover sha256 w.store version inputs
  vectors : forall version g, w.store.vectorGenerations.lookup version = some g ->
    exists inputs, BuiltFrom sha256 w.usedIds g inputs ∧
      VectorsCover sha256 w.store version g inputs

/-- A generation of the chunk's version was taken of a list with this very chunk. -/
def Listed (s : Store) (row : Uuid × Chunk) : Prop :=
  exists g, (s.keywordGenerations.lookup row.2.productVersionId = some g ∨
      s.vectorGenerations.lookup row.2.productVersionId = some g) ∧
    exists inputs, g.sourceSnapshotSha256 =
        sourceSnapshotSha256 sha256 g.embeddingRevisionSha256 inputs ∧
      (row.1, inputDigest sha256 row.2) ∈ inputs

end Statements

theorem BuiltFrom.mono {used used' : List Uuid} {g : Generation} {inputs : List (Uuid × Text)}
    (h : BuiltFrom sha256 used g inputs) (hsub : forall id, id ∈ used -> id ∈ used') :
    BuiltFrom sha256 used' g inputs :=
  ⟨h.snapshot, fun input hmem => hsub _ (h.used input hmem), h.oneLine⟩

variable {f : FrozenSnapshot}

theorem FrozenFrom.mono {used used' : List Uuid} (h : FrozenFrom sha256 used f)
    (hsub : forall id, id ∈ used -> id ∈ used') :
    FrozenFrom sha256 used' f :=
  ⟨h.snapshot, fun input hmem => hsub _ (h.used input hmem), h.oneLine, h.nodup⟩

variable {used : List Uuid}

theorem FrozenFrom.builtFrom (h : FrozenFrom sha256 used f) (count : Nat) :
    BuiltFrom sha256 used ⟨f.revisionSha256, f.sourceSnapshotSha256, count⟩ f.inputs :=
  ⟨h.snapshot, h.used, h.oneLine⟩

/-!
# The inputs of a stored version
-/

variable {version : Uuid}

theorem Store.mem_inputs {s : Store} {input : Uuid × Text} :
    input ∈ s.inputs sha256 version <->
      exists c, s.chunks.lookup input.1 = some c ∧
        s.liveSource version input.1 c = true ∧ input.2 = inputDigest sha256 c := by
  unfold Store.inputs
  rw [List.mem_map]
  constructor
  · rintro ⟨row, hmem, rfl⟩
    obtain ⟨hlookup, hlive⟩ := Store.mem_liveSources.mp hmem
    exact ⟨row.2, hlookup, hlive, rfl⟩
  · rintro ⟨c, hlookup, hlive, hdigest⟩
    exact ⟨(input.1, c), Store.mem_liveSources.mpr ⟨hlookup, hlive⟩,
      Prod.ext rfl hdigest.symm⟩

theorem Store.nodup_inputs (s : Store) (version : Uuid) :
    ((s.inputs sha256 version).map Prod.fst).Nodup := by
  unfold Store.inputs
  rw [List.map_map]
  have hperm : (s.liveSources version).Perm
      (s.chunks.rows.filter fun row => s.liveSource version row.1 row.2) :=
    perm_sortBy _ _
  refine ((hperm.map Prod.fst).nodup_iff).mpr ?_
  exact (s.chunks.filter (s.liveSource version)).nodup

theorem Covered.frozenFrom_inputs (hsha : Collisionless sha256) {w : World}
    (h : Covered sha256 w) (version : Uuid) (revision : Text) :
    FrozenFrom sha256 w.usedIds ⟨version, revision, w.store.inputs sha256 version,
      (w.store.sourceSnapshot sha256 version revision).1⟩ := by
  refine ⟨rfl, ?_, ?_, w.store.nodup_inputs version⟩
  · intro input hmem
    obtain ⟨c, hlookup, _⟩ := Store.mem_inputs.mp hmem
    exact h.used input.1 c hlookup
  · intro input hmem
    obtain ⟨c, _, _, hdigest⟩ := Store.mem_inputs.mp hmem
    rw [hdigest]
    exact hsha.oneLine _

/-!
# Deleting and storing chunks
-/

variable {w : World}

theorem Covered.of_tables {s' : Store} (h : Covered sha256 w)
    (hchunks : s'.chunks = w.store.chunks) (hkeywords : s'.keywordRows = w.store.keywordRows)
    (hvectors : s'.vectorRows = w.store.vectorRows)
    (hkeywordGenerations : s'.keywordGenerations = w.store.keywordGenerations)
    (hvectorGenerations : s'.vectorGenerations = w.store.vectorGenerations) :
    Covered sha256 { w with store := s' } := by
  obtain ⟨hused, huuids, howners, hfrozen, hkeywordsCover, hvectorsCover⟩ := h
  refine ⟨?_, huuids, ?_, hfrozen, ?_, ?_⟩
  · rw [hchunks]
    exact hused
  · rw [hvectors, hchunks]
    exact howners
  · unfold KeywordsCover
    rw [hkeywordGenerations, hchunks, hkeywords]
    exact hkeywordsCover
  · unfold VectorsCover
    rw [hvectorGenerations, hchunks, hvectors]
    exact hvectorsCover

theorem Covered.of_used (h : Covered sha256 w) (hsub : forall id, id ∈ w.usedIds -> id ∈ used)
    (huuids : forall id, id ∈ used -> IsUuid id) :
    Covered sha256 { w with usedIds := used } := by
  refine ⟨?_, huuids, h.owners, ?_, ?_, ?_⟩
  · intro id c hlookup
    exact hsub id (h.used id c hlookup)
  · intro f hmem
    exact (h.frozen f hmem).mono hsub
  · intro version g hlookup
    obtain ⟨inputs, hbuilt, hcover⟩ := h.keywords version g hlookup
    exact ⟨inputs, hbuilt.mono hsub, hcover⟩
  · intro version g hlookup
    obtain ⟨inputs, hbuilt, hcover⟩ := h.vectors version g hlookup
    exact ⟨inputs, hbuilt.mono hsub, hcover⟩

variable {id : Uuid} {c : Chunk} {p : Uuid -> Chunk -> Bool}

theorem Store.lookup_deleteChunks {s : Store}
    (hlookup : (s.deleteChunks p).chunks.lookup id = some c) :
    s.chunks.lookup id = some c ∧ p id c = false := by
  change (s.chunks.filter fun id c => !p id c).lookup id = some c at hlookup
  rw [lookup_filter, Option.filter_eq_some_iff] at hlookup
  exact ⟨hlookup.1, by simpa using hlookup.2⟩

theorem Store.keywordRows_deleteChunks {s : Store}
    (hlookup : (s.deleteChunks p).chunks.lookup id = some c) :
    (s.deleteChunks p).keywordRows.lookup id = s.keywordRows.lookup id := by
  obtain ⟨hold, hp⟩ := lookup_deleteChunks hlookup
  apply lookup_filter_of_true
  intro _
  simp [hold, hp]

theorem Store.vectorRows_deleteChunks {s : Store}
    (hlookup : (s.deleteChunks p).chunks.lookup id = some c) (revision : Text) :
    (s.deleteChunks p).vectorRows.lookup (id, revision) =
      s.vectorRows.lookup (id, revision) := by
  obtain ⟨hold, hp⟩ := lookup_deleteChunks hlookup
  apply lookup_filter_of_true
  intro _
  simp [hold, hp]

theorem Covered.deleteChunks (h : Covered sha256 w) (p : Uuid -> Chunk -> Bool) :
    Covered sha256 { w with store := w.store.deleteChunks p } := by
  refine ⟨?_, h.uuids, ?_, h.frozen, ?_, ?_⟩
  · intro id c hlookup
    exact h.used id c (Store.lookup_deleteChunks hlookup).1
  · intro key row hlookup
    change (w.store.vectorRows.filter fun key _ =>
      !(w.store.chunks.lookup key.1).any (p key.1)).lookup key = some row at hlookup
    rw [lookup_filter, Option.filter_eq_some_iff] at hlookup
    obtain ⟨c, hchunk, hversion⟩ := h.owners key row hlookup.1
    refine ⟨c, ?_, hversion⟩
    change (w.store.chunks.filter fun id c => !p id c).lookup key.1 = some c
    rw [lookup_filter, hchunk, Option.filter_some, if_pos]
    simpa [hchunk] using hlookup.2
  · intro version g hgeneration
    obtain ⟨inputs, hbuilt, hcover⟩ := h.keywords version g hgeneration
    refine ⟨inputs, hbuilt, ?_⟩
    intro id c hlookup hversion hmem
    rw [Store.keywordRows_deleteChunks hlookup]
    exact hcover id c (Store.lookup_deleteChunks hlookup).1 hversion hmem
  · intro version g hgeneration
    obtain ⟨inputs, hbuilt, hcover⟩ := h.vectors version g hgeneration
    refine ⟨inputs, hbuilt, ?_⟩
    intro id c hlookup hversion hmem
    rw [Store.vectorRows_deleteChunks hlookup]
    exact hcover id c (Store.lookup_deleteChunks hlookup).1 hversion hmem

/-- A chunk may be stored if no generation was taken of it. -/
theorem Covered.insertNew (h : Covered sha256 w) (hsub : forall id, id ∈ w.usedIds -> id ∈ used)
    (huuids : forall id, id ∈ used -> IsUuid id) (hused : id ∈ used)
    (hnone : w.store.chunks.lookup id = none) (hunlisted : forall g inputs,
      w.store.keywordGenerations.lookup c.productVersionId = some g ∨
        w.store.vectorGenerations.lookup c.productVersionId = some g ->
      BuiltFrom sha256 w.usedIds g inputs -> (id, inputDigest sha256 c) ∉ inputs) :
    Covered sha256 { w with
      store := { w.store with chunks := w.store.chunks.insertNew id c }
      usedIds := used } := by
  have hcases : forall {id' c'}, (w.store.chunks.insertNew id c).lookup id' = some c' ->
      w.store.chunks.lookup id' = some c' ∨ id' = id ∧ c' = c := by
    intro id' c' hlookup
    rw [lookup_insertNew] at hlookup
    split at hlookup
    · rename_i heq
      rw [hnone] at hlookup
      cases hlookup
      exact Or.inr ⟨heq, rfl⟩
    · exact Or.inl hlookup
  refine ⟨?_, huuids, ?_, ?_, ?_, ?_⟩
  · intro id' c' hlookup
    rcases hcases hlookup with hold | ⟨rfl, _⟩
    · exact hsub id' (h.used id' c' hold)
    · exact hused
  · intro key row hlookup
    obtain ⟨c', hchunk, hversion⟩ := h.owners key row hlookup
    refine ⟨c', ?_, hversion⟩
    rw [lookup_insertNew_eq_or, hchunk]
    rfl
  · intro f hmem
    exact (h.frozen f hmem).mono hsub
  · intro version g hgeneration
    obtain ⟨inputs, hbuilt, hcover⟩ := h.keywords version g hgeneration
    refine ⟨inputs, hbuilt.mono hsub, ?_⟩
    intro id' c' hlookup hversion hmem
    rcases hcases hlookup with hold | ⟨rfl, rfl⟩
    · exact hcover id' c' hold hversion hmem
    · rw [← hversion] at hgeneration
      exact absurd hmem (hunlisted g inputs (Or.inl hgeneration) hbuilt)
  · intro version g hgeneration
    obtain ⟨inputs, hbuilt, hcover⟩ := h.vectors version g hgeneration
    refine ⟨inputs, hbuilt.mono hsub, ?_⟩
    intro id' c' hlookup hversion hmem
    rcases hcases hlookup with hold | ⟨rfl, rfl⟩
    · exact hcover id' c' hold hversion hmem
    · rw [← hversion] at hgeneration
      exact absurd hmem (hunlisted g inputs (Or.inr hgeneration) hbuilt)

theorem Covered.insertChunk (h : Covered sha256 w) (c : Chunk) (hid : IsUuid id)
    (hfresh : id ∉ w.usedIds) : Covered sha256 (change sha256 (.insertChunk id c) w) := by
  apply h.insertNew
  · intro id' hmem
    exact List.mem_cons_of_mem id hmem
  · intro id' hmem
    rcases List.mem_cons.mp hmem with rfl | hold
    · exact hid
    · exact h.uuids id' hold
  · exact List.mem_cons_self
  · cases hold : w.store.chunks.lookup id with
    | none => rfl
    | some c' => exact absurd (h.used id c' hold) hfresh
  · intro g inputs _ hbuilt hmem
    exact hfresh (hbuilt.used _ hmem)

theorem Covered.insertWikiChunk {row : Uuid × Chunk} {s' : Store} (h : Covered sha256 w)
    (hused : row.1 ∈ w.usedIds) (hlisted : ¬ Listed sha256 w.store row)
    (hrun : w.store.insertWikiChunk row = .ok s') :
    Covered sha256 { w with store := s' } ∧
      s'.keywordGenerations = w.store.keywordGenerations ∧
      s'.vectorGenerations = w.store.vectorGenerations := by
  obtain ⟨_, hfree, hrun⟩ := bind_eq_ok hrun
  cases hdocument : w.store.documents.lookup row.2.documentId with
  | none =>
      rw [hdocument] at hrun
      cases hrun
  | some d =>
      rw [hdocument] at hrun
      cases hrun
      refine ⟨?_, rfl, rfl⟩
      apply h.insertNew (fun _ hmem => hmem) h.uuids hused
      · have hcontains := reject_eq_ok.mp hfree
        rw [Table.contains] at hcontains
        simpa using hcontains
      · intro g inputs hgeneration hbuilt hmem
        exact hlisted ⟨g, hgeneration, inputs, hbuilt.snapshot, hmem⟩

/-- The insertions of a wiki job, one after the other. -/
theorem Covered.insertWikiChunks {rows : List (Uuid × Chunk)} {s' : Store}
    (h : Covered sha256 w) (hused : forall row, row ∈ rows -> row.1 ∈ w.usedIds)
    (hlisted : forall row, row ∈ rows -> ¬ Listed sha256 w.store row)
    (hrun : rows.foldlM Store.insertWikiChunk w.store = .ok s') :
    Covered sha256 { w with store := s' } := by
  induction rows generalizing w with
  | nil =>
      cases hrun
      exact h
  | cons row rest ih =>
      rw [List.foldlM_cons] at hrun
      obtain ⟨s1, hfirst, hrun⟩ := bind_eq_ok hrun
      obtain ⟨hcovered, hkeywords, hvectors⟩ := h.insertWikiChunk
        (hused row List.mem_cons_self) (hlisted row List.mem_cons_self) hfirst
      apply ih hcovered (fun row' hmem => hused row' (List.mem_cons_of_mem row hmem)) ?_ hrun
      intro row' hmem
      unfold Listed
      rw [hkeywords, hvectors]
      exact hlisted row' (List.mem_cons_of_mem row hmem)

theorem Covered.commit {result : Except IndexError Store} (h : Covered sha256 w)
    (hrun : forall s', result = .ok s' -> Covered sha256 { w with store := s' }) :
    Covered sha256 { w with store := commit w.store result } := by
  cases result with
  | error e => exact h
  | ok s' => exact hrun s' rfl

theorem Covered.persistWiki (h : Covered sha256 w) (version : Uuid) (slugs : List String)
    {rows : List (Uuid × Chunk)} (huuids : forall row, row ∈ rows -> IsUuid row.1)
    (hlisted : forall row, row ∈ rows -> ¬ Listed sha256 w.store row) :
    Covered sha256 (change sha256 (.persistWiki version slugs rows) w) := by
  have hused : Covered sha256 { w with usedIds := rows.map Prod.fst ++ w.usedIds } := by
    apply h.of_used
    · intro id hmem
      exact List.mem_append.mpr (Or.inr hmem)
    · intro id hmem
      rcases List.mem_append.mp hmem with hrow | hold
      · obtain ⟨row, hstored, rfl⟩ := List.mem_map.mp hrow
        exact huuids row hstored
      · exact h.uuids id hold
  apply hused.commit
  intro s' hrun
  have hdeleted := hused.deleteChunks fun _ c => Store.isChangedPage version slugs c
  apply hdeleted.insertWikiChunks ?_ hlisted hrun
  intro row hmem
  exact List.mem_append.mpr (Or.inl (List.mem_map.mpr ⟨row, hmem, rfl⟩))

/-!
# Building sidecars
-/

theorem Covered.freeze (hsha : Collisionless sha256) (h : Covered sha256 w) (version : Uuid)
    (expected : Option (Text × Text)) :
    Covered sha256 (change sha256 (.freeze version expected) w) := by
  refine ⟨h.used, h.uuids, h.owners, ?_, h.keywords, h.vectors⟩
  intro f hmem
  change f ∈ freezeFrom sha256 w.store version expected w.frozen at hmem
  unfold freezeFrom at hmem
  split at hmem
  · rename_i snapshot hfreeze
    rcases List.mem_cons.mp hmem with rfl | hold
    · obtain ⟨_, _, hfreeze⟩ := bind_eq_ok hfreeze
      split at hfreeze
      · rename_i revision hbinding
        cases expected with
        | none =>
            cases hfreeze
            exact h.frozenFrom_inputs hsha version revision
        | some expected =>
            obtain ⟨_, _, hfreeze⟩ := bind_eq_ok hfreeze
            obtain ⟨_, _, hfreeze⟩ := bind_eq_ok hfreeze
            cases hfreeze
            exact h.frozenFrom_inputs hsha version revision
      · cases hfreeze
    · exact h.frozen f hold
  · exact h.frozen f hmem

/-- After a keyword rebuild a chunk of the version has its own row, and a chunk of
another version the row it had. -/
theorem Store.lookup_rebuildKeywords {s s' : Store} {version id : Uuid}
    (hrun : s.rebuildKeywords sha256 version = .ok s') (hlookup : s.chunks.lookup id = some c) :
    s'.keywordRows.lookup id =
      if c.productVersionId = version then some (keywordRow sha256 c)
      else s.keywordRows.lookup id := by
  obtain ⟨_, _, hrun⟩ := bind_eq_ok hrun
  cases hrun
  rw [lookup_insertAll]
  have hrows : ((s.chunks.rows.filter fun row => row.2.productVersionId == version).map
      fun row => (row.1, keywordRow sha256 row.2)).lookup id =
        ((s.chunks.filter fun _ c => c.productVersionId == version).lookup id).map
          (keywordRow sha256) :=
    lookup_map_rows _ (fun _ c => keywordRow sha256 c) id
  rw [hrows, lookup_filter, lookup_filter, hlookup]
  by_cases hversion : c.productVersionId = version
  · simp [hversion]
  · cases s.keywordRows.lookup id <;> simp [hversion]

theorem Store.tables_rebuildKeywords {s s' : Store}
    (hrun : s.rebuildKeywords sha256 version = .ok s') :
    s'.chunks = s.chunks ∧ s'.vectorRows = s.vectorRows ∧
      s'.keywordGenerations = s.keywordGenerations ∧
      s'.vectorGenerations = s.vectorGenerations := by
  obtain ⟨_, _, hrun⟩ := bind_eq_ok hrun
  cases hrun
  exact ⟨rfl, rfl, rfl, rfl⟩

theorem Covered.rebuildKeywords {s' : Store} (h : Covered sha256 w)
    (hrun : w.store.rebuildKeywords sha256 version = .ok s') :
    Covered sha256 { w with store := s' } := by
  obtain ⟨hchunks, hvectorRows, hkeywordGenerations, hvectorGenerations⟩ :=
    Store.tables_rebuildKeywords hrun
  refine ⟨?_, h.uuids, ?_, h.frozen, ?_, ?_⟩
  · rw [hchunks]
    exact h.used
  · rw [hchunks, hvectorRows]
    exact h.owners
  · rw [hkeywordGenerations]
    intro version' g hgeneration
    obtain ⟨inputs, hbuilt, hcover⟩ := h.keywords version' g hgeneration
    refine ⟨inputs, hbuilt, ?_⟩
    intro id c hlookup hversion hmem
    rw [hchunks] at hlookup
    rw [Store.lookup_rebuildKeywords hrun hlookup]
    split
    · rfl
    · exact hcover id c hlookup hversion hmem
  · unfold VectorsCover
    rw [hvectorGenerations, hchunks, hvectorRows]
    exact h.vectors

theorem Store.lookup_setGeneration {generations : Table Uuid Generation} {version version' : Uuid}
    {g g' : Generation}
    (hlookup : (setGeneration generations version g).lookup version' = some g') :
    version' = version ∧ g' = g ∨
      version' ≠ version ∧ generations.lookup version' = some g' := by
  rw [setGeneration, lookup_upsert] at hlookup
  split at hlookup
  · rename_i hversion
    refine Or.inl ⟨hversion, ?_⟩
    cases hold : generations.lookup version with
    | none =>
        rw [hold] at hlookup
        exact (Option.some.inj hlookup).symm
    | some old =>
        rw [hold] at hlookup
        exact (Option.some.inj hlookup).symm
  · rename_i hversion
    exact Or.inr ⟨hversion, hlookup⟩

theorem Covered.rebuildSemanticKeywords (hsha : Collisionless sha256) {revision snapshot : Text}
    {s' : Store} (h : Covered sha256 w)
    (hrun : w.store.rebuildSemanticKeywords sha256 version revision snapshot = .ok s') :
    Covered sha256 { w with store := s' } := by
  obtain ⟨_, _, hrun⟩ := bind_eq_ok hrun
  obtain ⟨_, _, hrun⟩ := bind_eq_ok hrun
  obtain ⟨_, hsnapshot, hrun⟩ := bind_eq_ok hrun
  obtain ⟨s1, hrebuild, hrun⟩ := bind_eq_ok hrun
  cases hrun
  have hsame := not_not.mp (reject_eq_ok.mp hsnapshot)
  have h1 := h.rebuildKeywords hrebuild
  obtain ⟨hchunks, _, _, _⟩ := Store.tables_rebuildKeywords hrebuild
  refine ⟨h1.used, h1.uuids, h1.owners, h1.frozen, ?_, h1.vectors⟩
  intro version' g hgeneration
  rcases Store.lookup_setGeneration hgeneration with ⟨rfl, rfl⟩ | ⟨_, hold⟩
  · have hfrozen := h.frozenFrom_inputs hsha version' revision
    refine ⟨w.store.inputs sha256 version', ⟨hsame.symm, hfrozen.used, hfrozen.oneLine⟩, ?_⟩
    intro id c hlookup hversion _
    change s1.chunks.lookup id = some c at hlookup
    rw [hchunks] at hlookup
    change s1.keywordRows.lookup id = _
    rw [Store.lookup_rebuildKeywords hrebuild hlookup, if_pos hversion]
  · exact h1.keywords version' g hold

theorem Covered.owner (h : Covered sha256 w) {revision : Text} {row : VectorRow}
    (hlookup : w.store.chunks.lookup id = some c)
    (hrow : w.store.vectorRows.lookup (id, revision) = some row) :
    row.productVersionId = c.productVersionId := by
  obtain ⟨c', hchunk, hversion⟩ := h.owners _ _ hrow
  change w.store.chunks.lookup id = some c' at hchunk
  rw [hlookup] at hchunk
  cases hchunk
  exact hversion.symm

theorem Store.nodup_vectorRowsOf (hnodup : (f.inputs.map Prod.fst).Nodup) :
    ((vectorRowsOf f).map Prod.fst).Nodup := by
  have hkeys : (vectorRowsOf f).map Prod.fst =
      (f.inputs.map Prod.fst).map fun id => (id, f.revisionSha256) := by
    rw [vectorRowsOf, List.map_map, List.map_map]
    rfl
  rw [hkeys]
  apply hnodup.map
  intro a b heq
  exact congrArg Prod.fst heq

theorem Store.mem_vectorRowsOf {key : Uuid × Text} {row : VectorRow}
    (hmem : (key, row) ∈ vectorRowsOf f) :
    row.productVersionId = f.productVersionId ∧ exists digest, (key.1, digest) ∈ f.inputs := by
  obtain ⟨input, hinput, heq⟩ := List.mem_map.mp hmem
  cases heq
  exact ⟨rfl, input.2, hinput⟩

theorem Covered.publishVectorIndexes {s' : Store} (h : Covered sha256 w) (hfrozen : f ∈ w.frozen)
    (hrun : w.store.publishVectorIndexes sha256 f = .ok s') :
    Covered sha256 { w with store := s' } := by
  obtain ⟨_, _, hrun⟩ := bind_eq_ok hrun
  obtain ⟨_, _, hrun⟩ := bind_eq_ok hrun
  obtain ⟨_, hkeys, hrun⟩ := bind_eq_ok hrun
  cases hrun
  have hfrom := h.frozen f hfrozen
  have hstored : forall input, input ∈ f.inputs -> exists c,
      w.store.chunks.lookup input.1 = some c ∧ c.productVersionId = f.productVersionId := by
    intro input hmem
    have hall := reject_eq_ok.mp hkeys
    rw [Bool.not_eq_false, List.all_eq_true] at hall
    have hany := hall input hmem
    rw [Option.any_eq_true] at hany
    obtain ⟨c, hlookup, hversion⟩ := hany
    exact ⟨c, hlookup, by simpa using hversion⟩
  have hothers : forall key row,
      (w.store.vectorRows.filter fun _ row => row.productVersionId != f.productVersionId).lookup
        key = some row <->
      w.store.vectorRows.lookup key = some row ∧
        row.productVersionId ≠ f.productVersionId := by
    intro key row
    rw [lookup_filter, Option.filter_eq_some_iff]
    simp
  refine ⟨h.used, h.uuids, ?_, h.frozen, h.keywords, ?_⟩
  · intro key row hlookup
    rcases lookup_insertAll_cases hlookup with hold | hnew
    · exact h.owners key row ((hothers key row).mp hold).1
    · obtain ⟨hversion, digest, hinput⟩ := Store.mem_vectorRowsOf hnew
      obtain ⟨c, hchunk, howner⟩ := hstored _ hinput
      exact ⟨c, hchunk, howner.trans hversion.symm⟩
  · intro version g hgeneration
    rcases Store.lookup_setGeneration hgeneration with ⟨rfl, rfl⟩ | ⟨hne, hold⟩
    · refine ⟨f.inputs, hfrom.builtFrom _, ?_⟩
      intro id c hlookup hversion hmem
      apply lookup_insertAll_of_mem ?_ (Store.nodup_vectorRowsOf hfrom.nodup)
      · exact List.mem_map.mpr ⟨_, hmem, rfl⟩
      · cases hother : (w.store.vectorRows.filter fun _ row =>
            row.productVersionId != f.productVersionId).lookup (id, f.revisionSha256) with
        | none => rfl
        | some row =>
            obtain ⟨hrow, hforeign⟩ := (hothers _ row).mp hother
            exact absurd ((h.owner hlookup hrow).trans hversion) hforeign
    · obtain ⟨inputs, hbuilt, hcover⟩ := h.vectors version g hold
      refine ⟨inputs, hbuilt, ?_⟩
      intro id c hlookup hversion hmem
      apply lookup_insertAll_of_some
      exact (hothers _ _).mpr ⟨hcover id c hlookup hversion hmem, hne⟩

/-!
# Every change
-/

namespace Store

variable {s s' : Store}

/-- Only the intents of the store differ. -/
def OnlyIntents (s s' : Store) : Prop :=
  s' = { s with intents := s'.intents }

theorem onlyIntents_insertIntent {newId version : Uuid} {revision snapshot : Text}
    {state : SupportState} {answer : Preparation}
    (h : s.insertIntent newId version revision snapshot state = .ok (answer, s')) :
    OnlyIntents s s' := by
  obtain ⟨_, _, h⟩ := bind_eq_ok h
  cases h
  rfl

theorem onlyIntents_prepare {newId version : Uuid} {answer : Preparation}
    (h : s.prepare sha256 newId version = .ok (answer, s')) : OnlyIntents s s' := by
  obtain ⟨_, _, h⟩ := bind_eq_ok h
  split at h
  · cases h
    rfl
  split at h
  · cases h
    rfl
  simp only at h
  split at h
  · cases h
    rfl
  split at h
  · cases h
    rfl
  · have honly := onlyIntents_insertIntent h
    exact honly

theorem onlyIntents_preflight {target : Nat} {complete : Bool} :
    OnlyIntents s (s.preflight sha256 id target complete).2 := by
  unfold preflight
  split
  · rfl
  split
  · rfl
  split
  · rfl
  split
  · rfl
  unfold preflightPending
  simp only
  repeat' split
  all_goals rfl

theorem onlyIntents_recordSemanticIndexError {target : Nat} {disposition code detail : String}
    {updated : Bool}
    (h : s.recordSemanticIndexError id target disposition code detail = .ok (updated, s')) :
    OnlyIntents s s' := by
  obtain ⟨_, _, h⟩ := bind_eq_ok h
  split at h
  · cases h
    rfl
  split at h
  · cases h
    rfl
  · cases h
    rfl

end Store

theorem Covered.of_onlyIntents {s' : Store} (h : Covered sha256 w)
    (honly : w.store.OnlyIntents s') : Covered sha256 { w with store := s' } := by
  rw [honly]
  exact h.of_tables rfl rfl rfl rfl rfl

theorem Covered.commit_snd {A : Type} {result : Except IndexError (A × Store)}
    (h : Covered sha256 w)
    (honly : forall a s', result = .ok (a, s') -> w.store.OnlyIntents s') :
    Covered sha256 { w with store := SemanticIndex.commit w.store (result.map Prod.snd) } := by
  cases result with
  | error e => exact h
  | ok value => exact h.of_onlyIntents (honly value.1 value.2 rfl)

theorem Covered.transaction (hsha : Collisionless sha256) (h : Covered sha256 w) {e : Event}
    (hpermitted : Permitted (.transaction e) w) :
    Covered sha256 (change sha256 (.transaction e) w) := by
  cases e with
  | sourceChange sources => exact absurd hpermitted id
  | prepare newId version =>
      exact h.commit_snd fun _ _ hrun => Store.onlyIntents_prepare hrun
  | preflight id target complete => exact h.of_onlyIntents Store.onlyIntents_preflight
  | recordSemanticIndexError id target disposition code detail =>
      exact h.commit_snd fun _ _ hrun => Store.onlyIntents_recordSemanticIndexError hrun
  | rebuildKeywords version => exact h.commit fun _ hrun => h.rebuildKeywords hrun
  | rebuildSemanticKeywords version revision snapshot =>
      exact h.commit fun _ hrun => h.rebuildSemanticKeywords hsha hrun
  | publishVectorIndexes frozen =>
      exact h.commit fun _ hrun => h.publishVectorIndexes hpermitted hrun

theorem covered_of_fresh (hfresh : w.Fresh) : Covered sha256 w := by
  refine ⟨?_, ?_, ?_, ?_, ?_, ?_⟩
  · intro id c hlookup
    rw [hfresh.chunks] at hlookup
    cases hlookup
  · intro id hmem
    rw [hfresh.usedIds] at hmem
    cases hmem
  · intro key row hlookup
    rw [hfresh.vectorRows] at hlookup
    cases hlookup
  · intro f hmem
    rw [hfresh.frozen] at hmem
    cases hmem
  · intro version g hlookup
    rw [hfresh.keywordGenerations] at hlookup
    cases hlookup
  · intro version g hlookup
    rw [hfresh.vectorGenerations] at hlookup
    cases hlookup

end SemanticIndex
end KnowledgeBrain
