import KnowledgeBrain.Retrieval.Semantic
import KnowledgeBrain.Foundation.Keyed
import Mathlib.Data.List.Dedup

/-!
# Both scans read the same sources

The exact scan joins outwards from the versions, recall joins inwards from the
chunks.  Whatever either of them finds is backed by the same rows: the chunk,
its live document and an eligible version.  A chunk id therefore determines
the text, and the two scans cannot disagree about what a chunk says.
-/

namespace KnowledgeBrain
namespace Retrieval

open Foundation Snapshot
open Chunker (Text byteLen contains)
open Workflow (Uuid)

section

variable {lib : Library} {s : Snapshot} {kind : WorkspaceKind} {selected : List Uuid}

/-- The rows behind a candidate. -/
structure Backing (s : Snapshot) (kind : WorkspaceKind) (selected : List Uuid)
    (c : ExactCandidate) (row : ChunkRow) (d : DocumentRow) : Prop where
  chunk : s.chunks.lookup c.sourceChunkId = some row
  document : s.documents.lookup c.documentId = some d
  content : row.content = c.chunkUtf8
  documentId : row.documentId = c.documentId
  sourceType : row.chunkType.sourceType = some c.sourceType
  fileName : d.fileName = c.frozenDocumentDisplayName
  linked : s.isLinked c.sourceChunkId row = true
  eligible : c.key ∈ s.eligibleRows kind selected

def Backed (s : Snapshot) (kind : WorkspaceKind) (selected : List Uuid)
    (c : ExactCandidate) : Prop :=
  exists row d, Backing s kind selected c row d

theorem Backed.same_chunk {c c' : ExactCandidate} (hc : Backed s kind selected c)
    (hc' : Backed s kind selected c') (hid : c.sourceChunkId = c'.sourceChunkId) :
    c.chunkUtf8 = c'.chunkUtf8 ∧ c.documentId = c'.documentId := by
  obtain ⟨row, d, hrow⟩ := hc
  obtain ⟨row', d', hrow'⟩ := hc'
  have hsame := hrow'.chunk
  rw [← hid, hrow.chunk] at hsame
  cases hsame
  exact ⟨hrow.content.symm.trans hrow'.content, hrow.documentId.symm.trans hrow'.documentId⟩

/-!
# Eligible versions
-/

theorem eligibleKey_eq_some {row : Uuid × VersionRow} {key : Uuid × Uuid}
    (hkey : s.eligibleKey kind selected row = some key) :
    key = (row.2.productId, row.1) ∧ row.1 ∈ selected
      ∧ exists p w, s.products.lookup row.2.productId = some p
        ∧ s.workspaces.lookup p.workspaceId = some w ∧ w.kind = kind := by
  unfold eligibleKey at hkey
  obtain ⟨p, hp, hkey⟩ := Option.bind_eq_some_iff.mp hkey
  obtain ⟨w, hw, hkey⟩ := Option.bind_eq_some_iff.mp hkey
  split at hkey
  · rename_i hmatch
    cases hkey
    exact ⟨rfl, hmatch.2.2, p, w, hp, hw, hmatch.1⟩
  · cases hkey

theorem mem_eligibleRows {key : Uuid × Uuid} :
    key ∈ s.eligibleRows kind selected <->
      exists row, row ∈ s.versions.rows ∧ s.eligibleKey kind selected row = some key := by
  unfold eligibleRows
  rw [mem_sortBy, List.mem_filterMap]

theorem versionIds_sublist :
    ((s.versions.rows.filterMap (s.eligibleKey kind selected)).map Prod.snd).Sublist
      (s.versions.rows.map Prod.fst) := by
  apply sublist_filterMap
  intro row key hkey
  rw [(eligibleKey_eq_some hkey).1]

theorem nodup_versionIds :
    ((s.versions.rows.filterMap (s.eligibleKey kind selected)).map Prod.snd).Nodup :=
  s.versions.nodup.sublist versionIds_sublist

theorem eligible_of_version {versionId : Uuid} {v : VersionRow}
    (hv : s.versions.lookup versionId = some v)
    (hmem : versionId ∈ s.eligibleVersionIds kind selected) :
    (v.productId, versionId) ∈ s.eligibleRows kind selected := by
  unfold eligibleVersionIds at hmem
  rw [mem_sortBy, List.mem_dedup, List.mem_map] at hmem
  obtain ⟨key, hkey, hsnd⟩ := hmem
  obtain ⟨row, hrow, helig⟩ := mem_eligibleRows.mp hkey
  have hshape := (eligibleKey_eq_some helig).1
  subst hshape
  subst hsnd
  have hsame := Table.lookup_eq_some_iff_mem.mpr hrow
  rw [hv] at hsame
  cases hsame
  exact hkey

/-!
# The scope query
-/

def ScopeRow.key (row : ScopeRow) : Uuid × Uuid :=
  (row.productId, row.productVersionId)

/-- The ids of the chunks some rows show. -/
def chunkIds (rows : List ScopeRow) : List Uuid :=
  rows.filterMap fun row => row.chunk.map Prod.fst

variable (key : Uuid × Uuid)

theorem chunkIds_documentRows (d : Uuid × DocumentRow) :
    chunkIds (s.documentRows key d) = (s.trustedChunks key.2 d).map Prod.fst := by
  unfold documentRows chunkIds
  cases s.trustedChunks key.2 d with
  | nil =>
      rfl
  | cons c rest =>
      simp

theorem chunkIds_versionRows :
    chunkIds (s.versionRows key) =
      (s.liveDocuments key.2).flatMap fun d => (s.trustedChunks key.2 d).map Prod.fst := by
  unfold versionRows
  cases s.liveDocuments key.2 with
  | nil =>
      rfl
  | cons d rest =>
      unfold chunkIds
      rw [List.filterMap_flatMap]
      exact List.flatMap_congr fun d _ => chunkIds_documentRows key d

theorem trustedChunk_lookup {versionId : Uuid} {d : Uuid × DocumentRow} {id : Uuid}
    (hmem : id ∈ (s.trustedChunks versionId d).map Prod.fst) :
    exists c, s.chunks.lookup id = some c ∧ c.documentId = d.1
      ∧ c.productVersionId = versionId := by
  obtain ⟨⟨id', c⟩, hrow, hid⟩ := List.mem_map.mp hmem
  change id' = id at hid
  subst hid
  unfold trustedChunks at hrow
  rw [List.mem_filter] at hrow
  obtain ⟨hrow, hcond⟩ := hrow
  simp only [Bool.and_eq_true, decide_eq_true_eq] at hcond
  exact ⟨c, Table.lookup_eq_some_iff_mem.mpr hrow, hcond.1.1.1.1, hcond.1.1.1.2⟩

theorem nodup_versionRows : (chunkIds (s.versionRows key)).Nodup := by
  rw [chunkIds_versionRows]
  apply nodup_flatMap_of_owner Prod.fst
    (fun id => ((s.chunks.lookup id).map ChunkRow.documentId).getD 0)
  · exact s.documents.nodup.sublist (List.filter_sublist.map _)
  · intro d _
    exact s.chunks.nodup.sublist (List.filter_sublist.map _)
  · intro d id _ hid
    obtain ⟨c, hc, hdoc, _⟩ := trustedChunk_lookup hid
    simp [hc, hdoc]

theorem nodup_scopeRows : (chunkIds (s.scopeRows kind selected)).Nodup := by
  have hperm := (perm_sortBy compareRows
    ((s.versions.rows.filterMap (s.eligibleKey kind selected)).flatMap
      s.versionRows)).filterMap fun row => row.chunk.map Prod.fst
  apply hperm.nodup_iff.mpr
  rw [List.filterMap_flatMap]
  apply nodup_flatMap_of_owner Prod.snd
    (fun id => ((s.chunks.lookup id).map ChunkRow.productVersionId).getD 0)
  · exact nodup_versionIds
  · intro key _
    exact nodup_versionRows key
  · intro key id _ hid
    change id ∈ chunkIds (s.versionRows key) at hid
    rw [chunkIds_versionRows, List.mem_flatMap] at hid
    obtain ⟨d, _, hid⟩ := hid
    obtain ⟨c, hc, _, hversion⟩ := trustedChunk_lookup hid
    simp [hc, hversion]

/-- What a row of the scope query says about the tables. -/
structure InScope (s : Snapshot) (row : ScopeRow) : Prop where
  document : forall d, row.document = some d -> s.documents.lookup d.1 = some d.2
  chunk : forall c, row.chunk = some c ->
    s.chunks.lookup c.1 = some c.2 ∧ s.isLinked c.1 c.2 = true
      ∧ forall d, row.document = some d -> c.2.documentId = d.1

variable {row : ScopeRow}

theorem inScope_documentRows {key : Uuid × Uuid} {d : Uuid × DocumentRow}
    (hd : s.documents.lookup d.1 = some d.2) (hrow : row ∈ s.documentRows key d) :
    row.key = key ∧ InScope s row := by
  unfold documentRows at hrow
  have hdocument : forall d', some d = some d' -> s.documents.lookup d'.1 = some d'.2 := by
    intro d' hsome
    cases hsome
    exact hd
  split at hrow
  · rw [List.mem_singleton.mp hrow]
    exact ⟨rfl, hdocument, fun c hsome => by cases hsome⟩
  · obtain ⟨c, hc, hshape⟩ := List.mem_map.mp hrow
    rw [← hshape]
    refine ⟨rfl, hdocument, ?_⟩
    intro c' hsome
    cases hsome
    unfold trustedChunks at hc
    rw [List.mem_filter] at hc
    obtain ⟨hmem, hcond⟩ := hc
    simp only [Bool.and_eq_true, decide_eq_true_eq] at hcond
    refine ⟨Table.lookup_eq_some_iff_mem.mpr hmem, hcond.2, ?_⟩
    intro d' hsome
    cases hsome
    exact hcond.1.1.1.1

theorem inScope_versionRows {key : Uuid × Uuid} (hrow : row ∈ s.versionRows key) :
    row.key = key ∧ InScope s row := by
  unfold versionRows at hrow
  split at hrow
  · rw [List.mem_singleton.mp hrow]
    exact ⟨rfl, fun d hsome => (by cases hsome), fun c hsome => (by cases hsome)⟩
  · obtain ⟨d, hd, hrow⟩ := List.mem_flatMap.mp hrow
    have hlookup := Table.lookup_eq_some_iff_mem.mpr (List.mem_filter.mp hd).1
    exact inScope_documentRows hlookup hrow

theorem documentRows_ne_nil (d : Uuid × DocumentRow) : s.documentRows key d ≠ [] := by
  unfold documentRows
  cases s.trustedChunks key.2 d with
  | nil => exact List.cons_ne_nil _ _
  | cons c rest => exact List.cons_ne_nil _ _

theorem versionRows_ne_nil : s.versionRows key ≠ [] := by
  unfold versionRows
  cases s.liveDocuments key.2 with
  | nil => exact List.cons_ne_nil _ _
  | cons d rest =>
      intro hempty
      change (d :: rest).flatMap (s.documentRows key) = [] at hempty
      rw [List.flatMap_cons] at hempty
      exact documentRows_ne_nil key d (List.append_eq_nil_iff.mp hempty).1

theorem mem_scopeRows :
    row ∈ s.scopeRows kind selected <->
      exists key, key ∈ s.eligibleRows kind selected ∧ row ∈ s.versionRows key := by
  unfold scopeRows eligibleRows
  rw [mem_sortBy, List.mem_flatMap]
  simp only [mem_sortBy]

theorem eligible_iff_row {key : Uuid × Uuid} :
    key ∈ s.eligibleRows kind selected <->
      exists row, row ∈ s.scopeRows kind selected ∧ row.key = key := by
  constructor
  · intro hkey
    obtain ⟨row, hrow⟩ := List.exists_mem_of_ne_nil _ (versionRows_ne_nil (s := s) key)
    exact ⟨row, mem_scopeRows.mpr ⟨key, hkey, hrow⟩, (inScope_versionRows hrow).1⟩
  · rintro ⟨row, hrow, hkey⟩
    obtain ⟨key', hkey', hrow⟩ := mem_scopeRows.mp hrow
    rw [← hkey, (inScope_versionRows hrow).1]
    exact hkey'

/-!
# The exact scan
-/

/-- The candidate a matching row yields. -/
structure Shows (lib : Library) (requirement : Text) (row : ScopeRow) (c : ExactCandidate)
    (shown : ChunkRow) (d : DocumentRow) : Prop where
  chunk : row.chunk = some (c.sourceChunkId, shown)
  document : row.document = some (c.documentId, d)
  key : c.key = row.key
  content : shown.content = c.chunkUtf8
  sourceType : shown.chunkType.sourceType = some c.sourceType
  fileName : d.fileName = c.frozenDocumentDisplayName
  exact_match : contains (normalizeExactV2 lib c.chunkUtf8) requirement = true

variable {requirement : Text}

theorem scanRow_eq_ok {scan scan' : Scan} (hscan : scanRow lib requirement scan row = .ok scan') :
    scan'.eligible = scan.eligible.insert row.key
      ∧ (scan'.candidates = scan.candidates
        ∨ exists c chunk d, scan'.candidates = scan.candidates ++ [c]
          ∧ Shows lib requirement row c chunk d) := by
  unfold scanRow at hscan
  split at hscan
  · cases hscan
    exact ⟨rfl, Or.inl rfl⟩
  · rename_i id chunk hchunk
    split at hscan
    · cases hscan
    · rename_i documentId d hdocument
      split at hscan
      · cases hscan
        exact ⟨rfl, Or.inl rfl⟩
      · rename_i hmatch
        split at hscan
        · cases hscan
        · rename_i sourceType htype
          cases hscan
          refine ⟨rfl, Or.inr ⟨_, chunk, d, rfl, ?_⟩⟩
          exact ⟨hchunk, hdocument, rfl, rfl, htype, rfl, by simpa using hmatch⟩

/-- The scan of a whole list of rows. -/
structure Scanned (lib : Library) (requirement : Text) (rows : List ScopeRow)
    (scan scan' : Scan) (added : List ExactCandidate) : Prop where
  candidates : scan'.candidates = scan.candidates ++ added
  ids : (added.map ExactCandidate.sourceChunkId).Sublist (chunkIds rows)
  shown : forall c, c ∈ added ->
    exists row chunk d, row ∈ rows ∧ Shows lib requirement row c chunk d
  nodup : scan.eligible.Nodup -> scan'.eligible.Nodup
  eligible : forall key, key ∈ scan'.eligible <->
    key ∈ scan.eligible ∨ exists row, row ∈ rows ∧ row.key = key

theorem scanned_of_ok {rows : List ScopeRow} {scan scan' : Scan}
    (hscan : rows.foldlM (scanRow lib requirement) scan = .ok scan') :
    exists added, Scanned lib requirement rows scan scan' added := by
  induction rows generalizing scan with
  | nil =>
      cases hscan
      exact ⟨[], (List.append_nil _).symm, List.Sublist.refl _,
        fun _ hmem => absurd hmem List.not_mem_nil, id, fun key => by simp⟩
  | cons row rest ih =>
      rw [List.foldlM_cons] at hscan
      obtain ⟨next, hfirst, hrest⟩ := bind_eq_ok hscan
      obtain ⟨heligible, hstep⟩ := scanRow_eq_ok hfirst
      obtain ⟨added, hadded⟩ := ih hrest
      have hnodup : scan.eligible.Nodup -> scan'.eligible.Nodup := by
        intro h
        apply hadded.nodup
        rw [heligible]
        exact h.insert
      have hkeys : forall key, key ∈ scan'.eligible <->
          key ∈ scan.eligible ∨ exists row', row' ∈ row :: rest ∧ row'.key = key := by
        intro key
        rw [hadded.eligible key, heligible, List.mem_insert_iff]
        simp only [List.mem_cons, exists_eq_or_imp]
        tauto
      have hlater : forall c, c ∈ added ->
          exists row' chunk d, row' ∈ row :: rest ∧ Shows lib requirement row' c chunk d := by
        intro c hc
        obtain ⟨row', chunk, d, hrow', hshows⟩ := hadded.shown c hc
        exact ⟨row', chunk, d, List.mem_cons_of_mem _ hrow', hshows⟩
      rcases hstep with hskip | ⟨c, chunk, d, hpush, hshows⟩
      · refine ⟨added, ?_, ?_, hlater, hnodup, hkeys⟩
        · rw [hadded.candidates, hskip]
        · unfold chunkIds
          rw [List.filterMap_cons]
          cases row.chunk.map Prod.fst with
          | none => exact hadded.ids
          | some id => exact hadded.ids.cons id
      · refine ⟨c :: added, ?_, ?_, ?_, hnodup, hkeys⟩
        · rw [hadded.candidates, hpush, List.append_assoc, List.singleton_append]
        · unfold chunkIds
          rw [List.filterMap_cons, hshows.chunk]
          exact hadded.ids.cons_cons c.sourceChunkId
        · intro c' hc'
          rcases List.mem_cons.mp hc' with rfl | hc'
          · exact ⟨row, chunk, d, List.mem_cons_self, hshows⟩
          · exact hlater c' hc'

/-- The outcome of the exact scan over a snapshot. -/
structure ExactScan (lib : Library) (s : Snapshot) (kind : WorkspaceKind)
    (selected : List Uuid) (requirement : Text) (scan : Scan) : Prop where
  backed : forall c, c ∈ scan.candidates -> Backed s kind selected c
  matches_exactly : forall c, c ∈ scan.candidates ->
    contains (normalizeExactV2 lib c.chunkUtf8) requirement = true
  ids : (scan.candidates.map ExactCandidate.sourceChunkId).Nodup
  nodup : scan.eligible.Nodup
  eligible : forall key, key ∈ scan.eligible <-> key ∈ s.eligibleRows kind selected

theorem exactScan_of_ok {scan : Scan}
    (hscan : scanRows lib requirement (s.scopeRows kind selected) = .ok scan) :
    ExactScan lib s kind selected requirement scan := by
  obtain ⟨added, hadded⟩ := scanned_of_ok hscan
  have hcandidates : scan.candidates = added := hadded.candidates
  constructor
  · intro c hc
    rw [hcandidates] at hc
    obtain ⟨row, chunk, d, hrow, hshows⟩ := hadded.shown c hc
    obtain ⟨key, hkey, hversion⟩ := mem_scopeRows.mp hrow
    obtain ⟨hrowKey, hinScope⟩ := inScope_versionRows hversion
    obtain ⟨hchunk, hlinked, howner⟩ := hinScope.chunk _ hshows.chunk
    refine ⟨chunk, d, hchunk, hinScope.document _ hshows.document, hshows.content,
      howner _ hshows.document, hshows.sourceType, hshows.fileName, hlinked, ?_⟩
    rw [hshows.key, hrowKey]
    exact hkey
  · intro c hc
    rw [hcandidates] at hc
    obtain ⟨_, _, _, _, hshows⟩ := hadded.shown c hc
    exact hshows.exact_match
  · rw [hcandidates]
    exact nodup_scopeRows.sublist hadded.ids
  · exact hadded.nodup List.nodup_nil
  · intro key
    rw [hadded.eligible key, eligible_iff_row]
    simp

end

/-!
# What recall returns

Every candidate is a trusted source of an eligible version that does not match
the requirement exactly, no source comes twice, and the ranks count from one.
-/

variable {lib : Library} {s : Snapshot} {kind : WorkspaceKind} {selected : List Uuid}

theorem require_eq_ok {A : Type} {e : RetrievalError} {x : Option A} {a : A}
    (hrequire : require e x = .ok a) : x = some a := by
  cases x with
  | none =>
      cases hrequire
  | some a' =>
      cases hrequire
      rfl

/-!
# Sources
-/

theorem mem_of_findSource {sources : List Source} {id : Uuid} {source : Source}
    (hfind : findSource sources id = some source) : source ∈ sources ∧ source.id = id :=
  ⟨List.mem_of_find?_eq_some hfind, by simpa using List.find?_some hfind⟩

/-- A source of a known type, in the shape of an exact candidate. -/
def Source.asCandidate (source : Source) (sourceType : SourceType) : ExactCandidate where
  documentId := source.documentId
  sourceChunkId := source.id
  productId := source.productId
  productVersionId := source.versionId
  frozenDocumentDisplayName := source.fileName
  chunkUtf8 := source.content
  sourceType := sourceType

theorem backed_of_source {source : Source} {sourceType : SourceType}
    (hsource : source ∈ s.loadSources kind (s.eligibleVersionIds kind selected))
    (htype : source.chunkType.sourceType = some sourceType) :
    Backed s kind selected (source.asCandidate sourceType) := by
  unfold loadSources at hsource
  obtain ⟨⟨id, c⟩, hrow, hjoin⟩ := List.mem_filterMap.mp hsource
  unfold joinedChunk at hjoin
  obtain ⟨d, hd, hjoin⟩ := Option.bind_eq_some_iff.mp hjoin
  obtain ⟨v, hv, hjoin⟩ := Option.bind_eq_some_iff.mp hjoin
  obtain ⟨p, _, hjoin⟩ := Option.bind_eq_some_iff.mp hjoin
  obtain ⟨w, _, hjoin⟩ := Option.bind_eq_some_iff.mp hjoin
  split at hjoin
  · rename_i hcond
    obtain ⟨_, _, hversion, _, _, _, hlinked⟩ := hcond
    cases hjoin
    exact ⟨c, d, Table.lookup_eq_some_iff_mem.mpr hrow, hd, rfl, rfl, htype, rfl, hlinked,
      eligible_of_version hv hversion⟩
  · cases hjoin

/-!
# Folding keeps exact sources out
-/

theorem foldActive_excludes {scope : RecallScope} {folded folded' : Table Uuid FoldedRanks}
    {signalId : Uuid}
    (hfolded : forall id ranks, folded.lookup id = some ranks ->
      id ∉ scope.exactSourceChunkIds)
    (hstep : foldActive scope folded signalId = .ok folded') :
    forall id ranks, folded'.lookup id = some ranks -> id ∉ scope.exactSourceChunkIds := by
  unfold foldActive at hstep
  obtain ⟨signal, _, hstep⟩ := bind_eq_ok hstep
  obtain ⟨target, _, hstep⟩ := bind_eq_ok hstep
  cases target with
  | none =>
      cases hstep
      exact hfolded
  | some sourceId =>
      simp only at hstep
      split at hstep
      · cases hstep
        exact hfolded
      · rename_i hfresh
        cases hstep
        intro id ranks hlookup
        rw [Table.lookup_upsert] at hlookup
        split at hlookup
        · rename_i hid
          rw [hid]
          exact hfresh
        · exact hfolded id ranks hlookup

/-!
# Candidates
-/

/-- The identity and text of a semantic candidate. -/
def SemanticCandidate.source (c : SemanticCandidate) : ExactCandidate where
  documentId := c.documentId
  sourceChunkId := c.sourceChunkId
  productId := c.productId
  productVersionId := c.productVersionId
  frozenDocumentDisplayName := c.frozenDocumentDisplayName
  chunkUtf8 := c.chunkUtf8
  sourceType := c.sourceType

/-- The digest and the length are those of the text. -/
structure Measured (lib : Library) (c : SemanticCandidate) : Prop where
  sha256 : c.chunkSha256 = lib.sha256Hex c.chunkUtf8
  byteLength : c.chunkByteLength = byteLen c.chunkUtf8

variable {policy : RetrievalPolicy}

theorem semanticCandidate_eq_ok {sources : List Source} {entry : Uuid × FoldedRanks}
    {c : SemanticCandidate} (hcandidate : semanticCandidate lib policy sources entry = .ok c) :
    c.sourceChunkId = entry.1 ∧ Measured lib c
      ∧ exists source, source ∈ sources ∧ source.id = entry.1
        ∧ source.chunkType.sourceType = some c.sourceType
        ∧ c.source = source.asCandidate c.sourceType := by
  unfold semanticCandidate at hcandidate
  obtain ⟨source, hsource, hcandidate⟩ := bind_eq_ok hcandidate
  obtain ⟨score, _, hcandidate⟩ := bind_eq_ok hcandidate
  obtain ⟨sourceType, htype, hcandidate⟩ := bind_eq_ok hcandidate
  cases hcandidate
  obtain ⟨hmem, hid⟩ := mem_of_findSource (require_eq_ok hsource)
  exact ⟨hid, ⟨rfl, rfl⟩, source, hmem, hid, require_eq_ok htype, rfl⟩

/-- A candidate with its final rank. -/
def SemanticCandidate.ranked (c : SemanticCandidate) (rank : Nat) : SemanticCandidate :=
  { c with preRerankRrfRank := rank }

theorem numberCandidate_eq_ok {entry : SemanticCandidate × Nat} {c : SemanticCandidate}
    (hnumber : numberCandidate entry = .ok c) : c = entry.1.ranked (entry.2 + 1) := by
  unfold numberCandidate at hnumber
  split at hnumber
  · cases hnumber
    rfl
  · cases hnumber

/-- What a list of recalled candidates guarantees. -/
structure Recalled (lib : Library) (s : Snapshot) (kind : WorkspaceKind)
    (selected : List Uuid) (requirement : Text) (cs : List SemanticCandidate) : Prop where
  backed : forall c, c ∈ cs -> Backed s kind selected c.source
  measured : forall c, c ∈ cs -> Measured lib c
  inexact : forall c, c ∈ cs ->
    contains (normalizeExactV2 lib c.chunkUtf8) requirement = false
  ids : (cs.map SemanticCandidate.sourceChunkId).Nodup
  ranks : cs.map SemanticCandidate.preRerankRrfRank = List.range' 1 cs.length

theorem recalled_of_numbered {candidates cs : List SemanticCandidate}
    (hbacked : forall c, c ∈ candidates -> Backed s kind selected c.source)
    (hmeasured : forall c, c ∈ candidates -> Measured lib c)
    (hinexact : forall c, c ∈ candidates ->
      contains (normalizeExactV2 lib c.chunkUtf8) requirement = false)
    (hids : (candidates.map SemanticCandidate.sourceChunkId).Nodup)
    (hrank : rankCandidates policy candidates = .ok cs) :
    Recalled lib s kind selected requirement cs := by
  unfold rankCandidates at hrank
  let kept := (sortBy compareCandidates candidates).take policy.rerank.topK
  have hkept : forall c, c ∈ kept -> c ∈ candidates := fun c hc =>
    mem_sortBy.mp (List.mem_of_mem_take hc)
  have hnumber : cs.map id = kept.zipIdx.map fun entry => entry.1.ranked (entry.2 + 1) :=
    map_of_mapM (fun _ _ => numberCandidate_eq_ok) hrank
  rw [List.map_id] at hnumber
  have hfrom : forall c, c ∈ cs -> exists c' rank, c' ∈ candidates ∧ c = c'.ranked rank := by
    intro c hc
    rw [hnumber] at hc
    obtain ⟨entry, hentry, hshape⟩ := List.mem_map.mp hc
    exact ⟨entry.1, entry.2 + 1, hkept _ (List.fst_mem_of_mem_zipIdx hentry), hshape.symm⟩
  constructor
  · intro c hc
    obtain ⟨c', rank, hc', rfl⟩ := hfrom c hc
    exact hbacked c' hc'
  · intro c hc
    obtain ⟨c', rank, hc', rfl⟩ := hfrom c hc
    exact ⟨(hmeasured c' hc').sha256, (hmeasured c' hc').byteLength⟩
  · intro c hc
    obtain ⟨c', rank, hc', rfl⟩ := hfrom c hc
    exact hinexact c' hc'
  · have hsame : cs.map SemanticCandidate.sourceChunkId =
        kept.map SemanticCandidate.sourceChunkId := by
      rw [hnumber, List.map_map]
      conv_rhs => rw [← List.zipIdx_map_fst 0 kept, List.map_map]
      rfl
    rw [hsame]
    have hsorted := ((perm_sortBy compareCandidates candidates).map
      SemanticCandidate.sourceChunkId).nodup_iff.mpr hids
    exact hsorted.sublist ((List.take_sublist _ _).map _)
  · have hlength : cs.length = kept.length := by
      rw [hnumber, List.length_map, List.length_zipIdx]
    rw [hlength, hnumber, List.map_map]
    apply List.ext_getElem
    · simp
    · intro i hi hi'
      simp [SemanticCandidate.ranked, Nat.add_comm]

theorem recalled_of_ok {requirementText queryEmbedding : Text} {cs : List SemanticCandidate}
    (hrecall : recallInSnapshot lib s kind selected requirementText policy queryEmbedding
      = .ok cs) :
    Recalled lib s kind selected (normalizeExactV2 lib requirementText) cs := by
  unfold recallInSnapshot recallInOrder at hrecall
  obtain ⟨_, _, hrecall⟩ := bind_eq_ok hrecall
  obtain ⟨_, _, hrecall⟩ := bind_eq_ok hrecall
  obtain ⟨_, _, hrecall⟩ := bind_eq_ok hrecall
  obtain ⟨keywordRanks, _, hrecall⟩ := bind_eq_ok hrecall
  obtain ⟨vectorRanks, _, hrecall⟩ := bind_eq_ok hrecall
  obtain ⟨graphRefs, _, hrecall⟩ := bind_eq_ok hrecall
  obtain ⟨wikiRefs, _, hrecall⟩ := bind_eq_ok hrecall
  obtain ⟨folded, hfold, hrecall⟩ := bind_eq_ok hrecall
  obtain ⟨candidates, hmap, hrank⟩ := bind_eq_ok hrecall
  have hexcluded := foldlM_invariant (fun _ _ _ => foldActive_excludes)
    (fun id ranks hnone => by cases hnone) hfold
  have hdrawn : forall c, c ∈ candidates -> exists entry, entry ∈ folded.rows
      ∧ semanticCandidate lib policy _ entry = .ok c := fun c hc => mem_of_mapM hmap hc
  have hbacked : forall c, c ∈ candidates -> Backed s kind selected c.source := by
    intro c hc
    obtain ⟨entry, _, hentry⟩ := hdrawn c hc
    obtain ⟨_, _, source, hsource, _, htype, hshape⟩ := semanticCandidate_eq_ok hentry
    rw [hshape]
    exact backed_of_source hsource htype
  have hmeasured : forall c, c ∈ candidates -> Measured lib c := by
    intro c hc
    obtain ⟨entry, _, hentry⟩ := hdrawn c hc
    exact (semanticCandidate_eq_ok hentry).2.1
  refine recalled_of_numbered hbacked hmeasured ?_ ?_ hrank
  · intro c hc
    obtain ⟨⟨id, ranks⟩, hrow, hentry⟩ := hdrawn c hc
    obtain ⟨_, _, source, hsource, hid, _, hshape⟩ := semanticCandidate_eq_ok hentry
    have htext : c.chunkUtf8 = source.content := congrArg ExactCandidate.chunkUtf8 hshape
    rw [htext]
    apply Bool.eq_false_iff.mpr
    intro hmatch
    apply hexcluded id ranks (Table.lookup_eq_some_iff_mem.mpr hrow)
    exact List.mem_map.mpr ⟨source, List.mem_filter.mpr ⟨hsource, hmatch⟩, hid⟩
  · have hids : candidates.map SemanticCandidate.sourceChunkId = folded.rows.map Prod.fst :=
      map_of_mapM (fun _ _ h => (semanticCandidate_eq_ok h).1) hmap
    rw [hids]
    exact folded.nodup

end Retrieval
end KnowledgeBrain
