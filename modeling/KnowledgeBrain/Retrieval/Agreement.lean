import KnowledgeBrain.Retrieval.Validation

/-!
# The builder satisfies its validator

Over a well-formed snapshot every batch that `retrieve_v2` assembles passes
`validate_evidence_batch_v3` under the same policy.
-/

namespace KnowledgeBrain
namespace Retrieval

open Foundation
open Chunker (Text byteLen contains)
open Workflow (Uuid)

/-- No nil ids, no unnamed documents, and an available image behind every
linked image text. -/
structure Snapshot.WellFormed (s : Snapshot) : Prop where
  product : forall id row, s.products.lookup id = some row -> id ≠ 0
  version : forall id row, s.versions.lookup id = some row -> id ≠ 0
  document : forall id row, s.documents.lookup id = some row -> id ≠ 0 ∧ row.fileName ≠ []
  chunk : forall id row, s.chunks.lookup id = some row -> id ≠ 0
  artifact : forall id row, s.imageArtifacts.lookup id = some row -> id ≠ 0
  media : forall id row, s.chunks.lookup id = some row -> row.chunkType = .imageOcr ->
    s.imageLinks.contains id = true -> (s.mediaRow id).isSome = true

variable {lib : Library} {adapter : Adapter} {s : Snapshot} {kind : WorkspaceKind}
  {selected : List Uuid} {request : Request} {policy : RetrievalPolicyIdentity}

/-!
# Well-formed sources
-/

theorem ne_nil_of_eligible {key : Uuid × Uuid} (hwf : s.WellFormed)
    (hkey : key ∈ s.eligibleRows kind selected) : key.1 ≠ 0 ∧ key.2 ≠ 0 := by
  obtain ⟨row, hrow, helig⟩ := mem_eligibleRows.mp hkey
  obtain ⟨hshape, _, p, _, hp, _⟩ := eligibleKey_eq_some helig
  rw [hshape]
  exact ⟨hwf.product _ p hp, hwf.version _ row.2 (Table.lookup_eq_some_iff_mem.mpr hrow)⟩

/-- The facts about ids, names and media the validator asks of a source. -/
structure Presentable (s : Snapshot) (c : ExactCandidate) : Prop where
  documentId : c.documentId ≠ 0
  sourceChunkId : c.sourceChunkId ≠ 0
  productId : c.productId ≠ 0
  productVersionId : c.productVersionId ≠ 0
  displayName : c.frozenDocumentDisplayName ≠ []
  media : c.sourceType = .imageOcr -> (s.mediaRow c.sourceChunkId).isSome = true

theorem Backed.presentable {c : ExactCandidate} (hwf : s.WellFormed)
    (hc : Backed s kind selected c) : Presentable s c := by
  obtain ⟨row, d, hback⟩ := hc
  have hkey := ne_nil_of_eligible hwf hback.eligible
  have hdocument := hwf.document _ d hback.document
  refine ⟨hdocument.1, hwf.chunk _ row hback.chunk, hkey.1, hkey.2, ?_, ?_⟩
  · rw [← hback.fileName]
    exact hdocument.2
  · intro htype
    have himage : row.chunkType = .imageOcr := by
      apply ChunkType.sourceType_imageOcr
      rw [← htype]
      exact hback.sourceType
    have hlinked := hback.linked
    unfold Snapshot.isLinked at hlinked
    rw [himage] at hlinked
    exact hwf.media _ row hback.chunk himage (by simpa using hlinked)

theorem mediaRow_isValid {id : Uuid} {value : EvidenceMedia} {name : Text}
    (hwf : s.WellFormed) (hrow : s.mediaRow id = some value) :
    EvidenceMedia.isValid { value with frozenDocumentDisplayName := name } name = true := by
  unfold Snapshot.mediaRow at hrow
  obtain ⟨link, _, hrow⟩ := Option.bind_eq_some_iff.mp hrow
  obtain ⟨artifact, hartifact, hrow⟩ := Option.bind_eq_some_iff.mp hrow
  split at hrow
  · cases hrow
    have hid := hwf.artifact _ artifact hartifact
    have hwidth := artifact.width_check
    have hheight := artifact.height_check
    simp [EvidenceMedia.isValid, hid, artifact.objectRef_check, artifact.sha256_check,
      artifact.mediaType_check, artifact.boundingRegion_check, hwidth, hheight]
  · cases hrow

theorem attach_mediaValid (hit : EvidenceHit) (hwf : s.WellFormed)
    (hmedia : hit.sourceType = .imageOcr -> (s.mediaRow hit.sourceChunkId).isSome = true) :
    (s.attach hit).mediaValid = true := by
  unfold EvidenceHit.mediaValid Snapshot.attach Snapshot.mediaFor
  cases htype : hit.sourceType with
  | text => rfl
  | parentText => rfl
  | imageOcr =>
      obtain ⟨value, hvalue⟩ := Option.isSome_iff_exists.mp (hmedia htype)
      rw [hvalue]
      exact mediaRow_isValid hwf hvalue

/-!
# The semantic tail
-/

/-- What holds of the reranked candidates that were kept. -/
structure Kept (lib : Library) (s : Snapshot) (kind : WorkspaceKind) (selected : List Uuid)
    (requirement : Text) (kept : List RerankedCandidate) : Prop where
  backed : forall r, r ∈ kept -> Backed s kind selected r.candidate.source
  measured : forall r, r ∈ kept -> Measured lib r.candidate
  inexact : forall r, r ∈ kept ->
    contains (normalizeExactV2 lib r.candidate.chunkUtf8) requirement = false
  scores : forall r, r ∈ kept -> r.scoreMillionths ≤ million
  ranks : forall r, r ∈ kept -> r.candidate.preRerankRrfRank ≠ 0
  ids : (kept.map fun r => r.candidate.sourceChunkId).Nodup
  ranks_nodup : (kept.map fun r => r.candidate.preRerankRrfRank).Nodup
  ordered : kept.Pairwise Precedes

variable {requirement : Text}

theorem kept_nil : Kept lib s kind selected requirement [] := by
  constructor <;> simp

theorem kept_of_sublist {cs : List SemanticCandidate} {reranked kept : List RerankedCandidate}
    (hrecalled : Recalled lib s kind selected requirement cs) (hreranked : Reranked cs reranked)
    (hsub : kept.Sublist reranked) :
    Kept lib s kind selected requirement kept := by
  have hmem : forall r, r ∈ kept -> r.candidate ∈ cs := fun r hr =>
    hreranked.perm.mem_iff.mp (List.mem_map_of_mem (hsub.subset hr))
  have hranks : forall c, c ∈ cs -> c.preRerankRrfRank ≠ 0 := by
    intro c hc hzero
    have hin := List.mem_map_of_mem (f := SemanticCandidate.preRerankRrfRank) hc
    rw [hrecalled.ranks, List.mem_range'_1, hzero] at hin
    omega
  have hnodup : forall {B : Type} (f : SemanticCandidate -> B), (cs.map f).Nodup ->
      (kept.map fun r => f r.candidate).Nodup := by
    intro B f hf
    have hperm := (hreranked.perm.map f).nodup_iff.mpr hf
    rw [List.map_map] at hperm
    exact hperm.sublist (hsub.map _)
  constructor
  · exact fun r hr => hrecalled.backed _ (hmem r hr)
  · exact fun r hr => hrecalled.measured _ (hmem r hr)
  · exact fun r hr => hrecalled.inexact _ (hmem r hr)
  · exact fun r hr => hreranked.scores r (hsub.subset hr)
  · exact fun r hr => hranks _ (hmem r hr)
  · exact hnodup SemanticCandidate.sourceChunkId hrecalled.ids
  · apply hnodup SemanticCandidate.preRerankRrfRank
    rw [hrecalled.ranks]
    exact List.nodup_range'
  · exact hreranked.ordered.sublist hsub

/-- The semantic part only appends kept candidates, within the quotas. -/
theorem retrieveSemantic_spec {p : RetrievalPolicy} {revision : RerankRevision}
    {eligible : List (Uuid × Uuid)} {hits hits' : List EvidenceHit} {truncated : Nat}
    (hbudget : Budgeted request.policy
      ⟨hits, (hits.map EvidenceHit.chunkByteLength).sum, 0⟩)
    (hsemantic : retrieveSemantic lib adapter s kind request p revision eligible hits
      = .ok (hits', truncated)) :
    exists kept, hits' = hits ++ semanticHits kind hits.length kept
      ∧ Budgeted request.policy ⟨hits', (hits'.map EvidenceHit.chunkByteLength).sum, 0⟩
      ∧ Kept lib s kind request.selectedVersions
        (normalizeExactV2 lib request.requirementText) kept := by
  have hnone : hits' = hits -> exists kept, hits' = hits ++ semanticHits kind hits.length kept
      ∧ Budgeted request.policy ⟨hits', (hits'.map EvidenceHit.chunkByteLength).sum, 0⟩
      ∧ Kept lib s kind request.selectedVersions
        (normalizeExactV2 lib request.requirementText) kept := by
    intro hsame
    rw [hsame]
    exact ⟨[], (List.append_nil _).symm, hbudget, kept_nil⟩
  unfold retrieveSemantic at hsemantic
  split at hsemantic
  · cases hsemantic
    exact hnone rfl
  · split at hsemantic
    · split at hsemantic
      · cases hsemantic
        exact hnone rfl
      · cases hsemantic
    · obtain ⟨embedding, _, hsemantic⟩ := bind_eq_ok hsemantic
      obtain ⟨cs, hrecall, hsemantic⟩ := bind_eq_ok hsemantic
      split at hsemantic
      · cases hsemantic
        exact hnone rfl
      · obtain ⟨response, _, hsemantic⟩ := bind_eq_ok hsemantic
        obtain ⟨reranked, happly, hsemantic⟩ := bind_eq_ok hsemantic
        cases hsemantic
        obtain ⟨hafter, kept, hsub, hhits⟩ := appendAll_spec reranked hbudget
        refine ⟨kept, hhits, ?_, kept_of_sublist (recalled_of_ok hrecall)
          (reranked_of_ok happly) hsub⟩
        exact ⟨rfl, hafter.length, hafter.chunk, hafter.bytes ▸ hafter.total⟩

/-!
# The hits of the batch
-/

/-- The numbered hits of the exact prefix. -/
def exactHits (lib : Library) (kind : WorkspaceKind) (start : Nat)
    (hits : List ExactCandidate) : List EvidenceHit :=
  (hits.zipIdx start).map fun entry => exactCandidateHitV2 lib kind entry.1 entry.2

@[simp]
theorem length_exactHits (lib : Library) (kind : WorkspaceKind) (start : Nat)
    (hits : List ExactCandidate) :
    (exactHits lib kind start hits).length = hits.length := by
  simp [exactHits]

theorem zipIdx_map_zipIdx {A B : Type} (f : A -> Nat -> B) (items : List A) (start : Nat) :
    ((items.zipIdx start).map fun entry => f entry.1 entry.2).zipIdx start =
      (items.zipIdx start).map fun entry => (f entry.1 entry.2, entry.2) := by
  induction items generalizing start with
  | nil =>
      rfl
  | cons a rest ih =>
      rw [List.zipIdx_cons, List.map_cons, List.zipIdx_cons, ih, List.map_cons]

theorem map_zipIdx_of_fst {A B C : Type} (f : A -> Nat -> B) {g : B -> C} {h : A -> C}
    (hfst : forall a i, g (f a i) = h a) (items : List A) (start : Nat) :
    ((items.zipIdx start).map fun entry => f entry.1 entry.2).map g = items.map h := by
  induction items generalizing start with
  | nil =>
      rfl
  | cons a rest ih =>
      rw [List.zipIdx_cons, List.map_cons, List.map_cons, ih, hfst, List.map_cons]

/-- The hits before media are attached. -/
def draftHits (lib : Library) (kind : WorkspaceKind) (hits : List ExactCandidate)
    (kept : List RerankedCandidate) : List EvidenceHit :=
  exactHits lib kind 0 hits ++ semanticHits kind hits.length kept

theorem draftHits_cases {hits : List ExactCandidate} {kept : List RerankedCandidate}
    {hit : EvidenceHit} {i : Nat} (hentry : (hit, i) ∈ (draftHits lib kind hits kept).zipIdx) :
    (exists c, c ∈ hits ∧ i < hits.length ∧ hit = exactCandidateHitV2 lib kind c i)
      ∨ exists r, r ∈ kept ∧ hits.length ≤ i ∧ hit = semanticCandidateHitV2 kind r i := by
  unfold draftHits exactHits semanticHits at hentry
  rw [List.zipIdx_append, List.mem_append, zipIdx_map_zipIdx, List.length_map,
    List.length_zipIdx, Nat.zero_add, zipIdx_map_zipIdx, List.mem_map, List.mem_map] at hentry
  rcases hentry with ⟨⟨c, j⟩, hmem, hshape⟩ | ⟨⟨r, j⟩, hmem, hshape⟩
  all_goals cases hshape
  · exact Or.inl ⟨c, List.fst_mem_of_mem_zipIdx hmem,
      by simpa using List.snd_lt_add_of_mem_zipIdx hmem, rfl⟩
  · have hle := List.le_snd_of_mem_zipIdx hmem
    exact Or.inr ⟨r, List.fst_mem_of_mem_zipIdx hmem, hle, rfl⟩

theorem draftHits_sources (lib : Library) (kind : WorkspaceKind) (hits : List ExactCandidate)
    (kept : List RerankedCandidate) :
    (draftHits lib kind hits kept).map EvidenceHit.source =
      hits ++ kept.map fun r => r.candidate.source := by
  have hexact : (exactHits lib kind 0 hits).map EvidenceHit.source = hits.map id :=
    map_zipIdx_of_fst (exactCandidateHitV2 lib kind) (fun _ _ => rfl) hits 0
  have hsemantic : (semanticHits kind hits.length kept).map EvidenceHit.source =
      kept.map fun r => r.candidate.source :=
    map_zipIdx_of_fst (semanticCandidateHitV2 kind) (fun _ _ => rfl) kept hits.length
  rw [draftHits, List.map_append, hexact, hsemantic, List.map_id]

theorem draftHits_ids {hits : List ExactCandidate} {kept : List RerankedCandidate}
    (hbacked : forall c, c ∈ hits -> Backed s kind selected c) (hexact : forall c, c ∈ hits ->
      contains (normalizeExactV2 lib c.chunkUtf8) requirement = true)
    (hids : (hits.map ExactCandidate.sourceChunkId).Nodup)
    (hkept : Kept lib s kind selected requirement kept) :
    ((draftHits lib kind hits kept).map EvidenceHit.sourceChunkId).Nodup := by
  have hsources : (draftHits lib kind hits kept).map EvidenceHit.sourceChunkId =
      hits.map ExactCandidate.sourceChunkId
        ++ kept.map fun r => r.candidate.sourceChunkId := by
    have hmap := congrArg (List.map ExactCandidate.sourceChunkId)
      (draftHits_sources lib kind hits kept)
    rw [List.map_map, List.map_append, List.map_map] at hmap
    exact hmap
  rw [hsources, List.nodup_append]
  refine ⟨hids, hkept.ids, ?_⟩
  intro id hid id' hid' heq
  subst heq
  obtain ⟨c, hc, rfl⟩ := List.mem_map.mp hid
  obtain ⟨r, hr, hsame⟩ := List.mem_map.mp hid'
  have htext := ((hbacked c hc).same_chunk (hkept.backed r hr) hsame.symm).1
  have hinexact := hkept.inexact r hr
  change contains (normalizeExactV2 lib r.candidate.source.chunkUtf8) requirement = false
    at hinexact
  rw [← htext, hexact c hc] at hinexact
  cases hinexact

/-- The quotas and the scope a request was accepted with. -/
structure AcceptedRequest (lib : Library) (request : Request) : Prop where
  contract : request.policy.contractVersion = contractV2
  requirement : normalizeExactV2 lib request.requirementText ≠ []
  maxHits_pos : 0 < request.policy.maxHits
  maxHits_le : request.policy.maxHits ≤ maxHitsV2
  maxChunkBytes_pos : 0 < request.policy.maxChunkBytes
  maxTotalBytes_pos : 0 < request.policy.maxTotalBytes
  maxTotalBytes_le : request.policy.maxTotalBytes ≤ maxTotalBytesV2

theorem acceptedRequest_of_ok (hrequest : validateRequestV2 lib request = .ok ()) :
    AcceptedRequest lib request := by
  unfold validateRequestV2 at hrequest
  dsimp only at hrequest
  split at hrequest
  · cases hrequest
  · rename_i hvalid
    simp only [not_or, ne_eq, not_not] at hvalid
    obtain ⟨_, hcontract, _, _, hrequirement, hhits, hhitsLe, hchunk, _, htotal, htotalLe, _⟩ :=
      hvalid
    exact ⟨hcontract, hrequirement, Nat.pos_of_ne_zero hhits, Nat.le_of_not_lt hhitsLe,
      Nat.pos_of_ne_zero hchunk, Nat.pos_of_ne_zero htotal, Nat.le_of_not_lt htotalLe⟩

/-- Every hit of the draft, with its media, passes the checks on single hits. -/
theorem soundHit_of_draft {hits : List ExactCandidate} {kept : List RerankedCandidate}
    {eligible : List (Uuid × Uuid)} {hit : EvidenceHit} {i : Nat} (hwf : s.WellFormed)
    (hbacked : forall c, c ∈ hits -> Backed s kind selected c)
    (hchunk : forall hit, hit ∈ draftHits lib kind hits kept ->
      hit.chunkByteLength ≤ policy.maxChunkBytes)
    (hkept : Kept lib s kind selected requirement kept)
    (heligible : forall key, key ∈ s.eligibleRows kind selected -> key ∈ eligible)
    (hentry : (hit, i) ∈ (draftHits lib kind hits kept).zipIdx) :
    SoundHit lib kind policy eligible hits.length (s.attach hit, i) := by
  have hle := hchunk hit (List.fst_mem_of_mem_zipIdx hentry)
  rcases draftHits_cases hentry with ⟨c, hc, hindex, hshape⟩ | ⟨r, hr, hindex, hshape⟩
  · have hpresent := (hbacked c hc).presentable hwf
    have hkey : c.key ∈ eligible := by
      obtain ⟨row, d, hback⟩ := hbacked c hc
      exact heligible _ hback.eligible
    have hmedia := attach_mediaValid hit hwf
      (by rw [hshape]; exact hpresent.media)
    rw [hshape] at hle hmedia ⊢
    have hscore : scoreValid hits.length i
        (s.attach (exactCandidateHitV2 lib kind c i)) = true := by
      unfold scoreValid
      rw [if_pos hindex]
      rfl
    exact ⟨rfl, hmedia, rfl, hpresent.documentId, hpresent.sourceChunkId, hpresent.productId,
      hpresent.productVersionId, hpresent.displayName, rfl, rfl, rfl, hle, rfl, rfl, rfl, rfl,
      hscore, hkey⟩
  · have hpresent := (hkept.backed r hr).presentable hwf
    have hmeasured := hkept.measured r hr
    have hkey : r.candidate.source.key ∈ eligible := by
      obtain ⟨row, d, hback⟩ := hkept.backed r hr
      exact heligible _ hback.eligible
    have hmedia := attach_mediaValid hit hwf
      (by rw [hshape]; exact hpresent.media)
    rw [hshape] at hle hmedia ⊢
    have hscore : scoreValid hits.length i
        (s.attach (semanticCandidateHitV2 kind r i)) = true := by
      unfold scoreValid
      rw [if_neg (Nat.not_lt.mpr hindex)]
      simp only [Bool.and_eq_true]
      exact ⟨isUnitIntervalMillionths_fixedScore (hkept.scores r hr),
        decide_eq_true (hkept.ranks r hr)⟩
    exact ⟨rfl, hmedia, rfl, hpresent.documentId, hpresent.sourceChunkId, hpresent.productId,
      hpresent.productVersionId, hpresent.displayName, rfl, rfl, hmeasured.byteLength, hle,
      hmeasured.sha256, rfl, hmeasured.byteLength, rfl, hscore, hkey⟩

/-- Reranked candidates in order give hits in the validator's order. -/
theorem semanticHits_ordered {start : Nat} {kept : List RerankedCandidate}
    (hscores : forall r, r ∈ kept -> r.scoreMillionths ≤ million)
    (hordered : kept.Pairwise Precedes) :
    ((semanticHits kind start kept).map s.attach).Pairwise
      fun previous hit => incorrectlyOrdered previous hit = false := by
  induction kept generalizing start with
  | nil =>
      exact List.Pairwise.nil
  | cons r rest ih =>
      rw [List.pairwise_cons] at hordered
      rw [semanticHits_cons, List.map_cons, List.pairwise_cons]
      refine ⟨?_, ih (fun r' hr' => hscores r' (List.mem_cons_of_mem _ hr')) hordered.2⟩
      intro hit hmem
      obtain ⟨draft, hdraft, rfl⟩ := List.mem_map.mp hmem
      obtain ⟨⟨r', i⟩, hentry, rfl⟩ := List.mem_map.mp hdraft
      have hr' := List.fst_mem_of_mem_zipIdx hentry
      have hle := hscores r List.mem_cons_self
      have hle' := hscores r' (List.mem_cons_of_mem _ hr')
      have hbefore : Precedes r r' := hordered.1 r' hr'
      unfold Precedes at hbefore
      have hlt : ¬ fixedScore r.scoreMillionths < fixedScore r'.scoreMillionths := by
        rw [fixedScore_lt_iff hle hle']
        omega
      have hties : fixedScore r.scoreMillionths = fixedScore r'.scoreMillionths ->
          r.candidate.preRerankRrfRank ≤ r'.candidate.preRerankRrfRank := by
        intro heq
        have hsame := fixedScore_injective hle hle' heq
        omega
      have hfixed : incorrectlyOrdered (s.attach (semanticCandidateHitV2 kind r start))
          (s.attach (semanticCandidateHitV2 kind r' i)) =
          (decide (fixedScore r.scoreMillionths < fixedScore r'.scoreMillionths)
            || (decide (fixedScore r.scoreMillionths = fixedScore r'.scoreMillionths)
              && decide (r'.candidate.preRerankRrfRank < r.candidate.preRerankRrfRank))) := rfl
      rw [hfixed, decide_eq_false hlt, Bool.false_or, Bool.and_eq_false_iff]
      by_cases heq : fixedScore r.scoreMillionths = fixedScore r'.scoreMillionths
      · exact Or.inr (decide_eq_false (Nat.not_lt.mpr (hties heq)))
      · exact Or.inl (decide_eq_false heq)

/-!
# The assembled batch
-/

/-- The exact part of a request: scan, then select. -/
def exactSelection (lib : Library) (s : Snapshot) (kind : WorkspaceKind) (request : Request) :
    Except RetrievalError ExactSelection := do
  let scan ← scanRows lib (normalizeExactV2 lib request.requirementText)
    (s.scopeRows kind request.selectedVersions)
  selectExactPrefixV2 scan.candidates request.policy

theorem budgeted_exactHits {candidates : List ExactCandidate} {selection : ExactSelection}
    (hselected : Selected candidates policy selection) :
    Budgeted policy ⟨exactHits lib kind 0 selection.hits,
      ((exactHits lib kind 0 selection.hits).map EvidenceHit.chunkByteLength).sum, 0⟩ where
  bytes := rfl
  length := by
    rw [length_exactHits]
    exact hselected.length_le
  chunk := by
    intro hit hmem
    obtain ⟨⟨c, i⟩, hentry, rfl⟩ := List.mem_map.mp hmem
    exact hselected.chunk_le c (List.fst_mem_of_mem_zipIdx hentry)
  total := by
    have hbytes : (exactHits lib kind 0 selection.hits).map EvidenceHit.chunkByteLength =
        selection.hits.map ExactCandidate.byteLength :=
      map_zipIdx_of_fst (exactCandidateHitV2 lib kind) (fun _ _ => rfl) selection.hits 0
    dsimp only
    rw [hbytes]
    exact hselected.total_le

/-- The counters of a selection within an eligible scope. -/
structure Counted (policy : RetrievalPolicyIdentity) (eligible : Nat)
    (selection : ExactSelection) : Prop where
  versions : selection.exactVersionsTruncated ≤ eligible - policy.maxHits
  le : selection.exactVersionsTruncated ≤ selection.exactHitsTruncated
  none : selection.hits.length = 0 ->
    selection.exactVersionsTruncated = 0 ∧ selection.exactHitsTruncated = 0
  full : 0 < selection.exactVersionsTruncated -> selection.hits.length = policy.maxHits

theorem counted_of_selected {scan : Scan} {selection : ExactSelection}
    (hscan : ExactScan lib s kind selected requirement scan)
    (hselected : Selected scan.candidates policy selection) :
    Counted policy scan.eligible.length selection := by
  have hkeys : (versionKeys scan.candidates).length ≤ scan.eligible.length := by
    apply (List.subperm_of_subset (nodup_versionKeys scan.candidates) ?_).length_le
    intro key hkey
    obtain ⟨c, hc, rfl⟩ := mem_versionKeys.mp hkey
    obtain ⟨row, d, hback⟩ := hscan.backed c hc
    exact (hscan.eligible _).mpr hback.eligible
  have hcandidates := length_versionKeys_le scan.candidates
  have hversions := hselected.versions
  have htruncated := hselected.truncated
  have hfull : policy.maxHits < (versionKeys scan.candidates).length ->
      selection.hits.length = policy.maxHits := fun hmore => (hselected.complete hmore).1
  refine ⟨by omega, by omega, ?_, by omega⟩
  intro hzero
  have hempty : scan.candidates.length = 0 := by
    by_contra hne
    apply hselected.nonempty (List.ne_nil_of_length_pos (Nat.pos_of_ne_zero hne))
    exact List.eq_nil_of_length_eq_zero hzero
  omega

/-- What a batch for a request promises its reader. -/
structure Consistent (lib : Library) (request : Request) (batch : EvidenceBatch) : Prop where
  ranks : batch.hits.map EvidenceHit.retrievalRank = List.range' 1 batch.hits.length
  chunks_nodup : (batch.hits.map EvidenceHit.sourceChunkId).Nodup
  exact_prefix : forall hit, hit ∈ batch.hits.take batch.exactPrefixHitCount ->
    contains (normalizeExactV2 lib hit.chunkUtf8)
      (normalizeExactV2 lib request.requirementText) = true
  semantic_suffix : forall hit, hit ∈ batch.hits.drop batch.exactPrefixHitCount ->
    contains (normalizeExactV2 lib hit.chunkUtf8)
      (normalizeExactV2 lib request.requirementText) = false
  hits_le : batch.hits.length ≤ request.policy.maxHits
  chunk_le : forall hit, hit ∈ batch.hits -> byteLen hit.chunkUtf8 ≤ request.policy.maxChunkBytes
  total_le : (batch.hits.map fun hit => byteLen hit.chunkUtf8).sum
    ≤ request.policy.maxTotalBytes
  suffix_ordered : (batch.hits.drop batch.exactPrefixHitCount).Pairwise
    fun previous hit => incorrectlyOrdered previous hit = false
  counters_le : batch.exactVersionsTruncated ≤ batch.exactHitsTruncated
  counters_none : batch.exactPrefixHitCount = 0 ->
    batch.exactVersionsTruncated = 0 ∧ batch.exactHitsTruncated = 0
  counters_full : 0 < batch.exactVersionsTruncated ->
    batch.exactPrefixHitCount = request.policy.maxHits

/-- The batch built from a scan, a selection and the kept candidates. -/
def builtBatch (lib : Library) (s : Snapshot) (kind : WorkspaceKind) (scan : Scan)
    (selection : ExactSelection) (kept : List RerankedCandidate) (truncated : Nat) :
    EvidenceBatch where
  schemaVersion := schemaV3
  eligibleVersions := (sortBy compareKeys scan.eligible).map (eligibleVersion kind)
  hits := (draftHits lib kind selection.hits kept).map s.attach
  exactPrefixHitCount := selection.hits.length
  exactVersionsTruncated := selection.exactVersionsTruncated
  exactHitsTruncated := selection.exactHitsTruncated
  semanticHitsTruncated := truncated

theorem builtBatch_drop {scan : Scan} {selection : ExactSelection}
    {kept : List RerankedCandidate} {truncated : Nat} :
    (builtBatch lib s kind scan selection kept truncated).hits.drop
      (builtBatch lib s kind scan selection kept truncated).exactPrefixHitCount =
      (semanticHits kind selection.hits.length kept).map s.attach := by
  have hlength := length_exactHits lib kind 0 selection.hits
  rw [builtBatch, ← List.map_drop, draftHits, List.drop_left' hlength]

theorem builtBatch_take {scan : Scan} {selection : ExactSelection}
    {kept : List RerankedCandidate} {truncated : Nat} :
    (builtBatch lib s kind scan selection kept truncated).hits.take
      (builtBatch lib s kind scan selection kept truncated).exactPrefixHitCount =
      (exactHits lib kind 0 selection.hits).map s.attach := by
  have hlength := length_exactHits lib kind 0 selection.hits
  rw [builtBatch, ← List.map_take, draftHits, List.take_left' hlength]

theorem uuidToString_ne_nil (id : Uuid) : uuidToString id ≠ [] := by
  simp [uuidToString]

section Built

variable {scan : Scan} {selection : ExactSelection} {kept : List RerankedCandidate}
  {truncated : Nat}

/-- The stages of a request that have succeeded. -/
structure Stages (lib : Library) (s : Snapshot) (kind : WorkspaceKind) (request : Request)
    (scan : Scan) (selection : ExactSelection) (kept : List RerankedCandidate) : Prop where
  wellFormed : s.WellFormed
  accepted : AcceptedRequest lib request
  scanned : ExactScan lib s kind request.selectedVersions
    (normalizeExactV2 lib request.requirementText) scan
  selected : Selected scan.candidates request.policy selection
  appended : Kept lib s kind request.selectedVersions
    (normalizeExactV2 lib request.requirementText) kept
  budget : Budgeted request.policy ⟨draftHits lib kind selection.hits kept,
    ((draftHits lib kind selection.hits kept).map EvidenceHit.chunkByteLength).sum, 0⟩

variable (hstages : Stages lib s kind request scan selection kept)

include hstages

theorem Stages.counted : Counted request.policy scan.eligible.length selection :=
  counted_of_selected hstages.scanned hstages.selected

theorem Stages.backed :
    forall c, c ∈ selection.hits -> Backed s kind request.selectedVersions c :=
  fun c hc => hstages.scanned.backed c (hstages.selected.subset c hc)

theorem Stages.ids :
    ((builtBatch lib s kind scan selection kept truncated).hits.map
      EvidenceHit.sourceChunkId).Nodup := by
  rw [builtBatch, List.map_map]
  exact draftHits_ids hstages.backed
    (fun c hc => hstages.scanned.matches_exactly c (hstages.selected.subset c hc))
    hstages.selected.nodup hstages.appended

theorem Stages.soundHit {entry : EvidenceHit × Nat}
    (hentry : entry ∈ (builtBatch lib s kind scan selection kept truncated).hits.zipIdx) :
    SoundHit lib kind request.policy (sortBy compareKeys scan.eligible)
      selection.hits.length entry := by
  rw [builtBatch, List.zipIdx_map, List.mem_map] at hentry
  obtain ⟨⟨draft, i⟩, hdraft, rfl⟩ := hentry
  apply soundHit_of_draft hstages.wellFormed hstages.backed hstages.budget.chunk hstages.appended
    (fun key hkey => ?_) hdraft
  rw [mem_sortBy]
  exact (hstages.scanned.eligible key).mpr hkey

theorem Stages.total_le :
    ((builtBatch lib s kind scan selection kept truncated).hits.map
      fun hit => byteLen hit.chunkUtf8).sum ≤ request.policy.maxTotalBytes := by
  have hbytes : ((builtBatch lib s kind scan selection kept truncated).hits.map
      fun hit => byteLen hit.chunkUtf8) =
      (builtBatch lib s kind scan selection kept truncated).hits.map
        EvidenceHit.chunkByteLength := by
    rw [← map_fst_zipIdx _ fun hit => byteLen hit.chunkUtf8,
      ← map_fst_zipIdx _ EvidenceHit.chunkByteLength]
    apply List.map_congr_left
    intro entry hentry
    exact (hstages.soundHit hentry).byteLength.symm
  rw [hbytes, builtBatch, List.map_map]
  exact hstages.budget.total

/-- A full prefix leaves no room for a tail. -/
theorem Stages.full (hpos : 0 < selection.exactVersionsTruncated) :
    ((builtBatch lib s kind scan selection kept truncated).hits.map EvidenceHit.key).Nodup := by
  have hmore : request.policy.maxHits < (versionKeys scan.candidates).length := by
    have hversions := hstages.selected.versions
    omega
  obtain ⟨hlength, hnodup⟩ := hstages.selected.complete hmore
  have hnone : kept = [] := by
    have hle := hstages.budget.length
    rw [draftHits, List.length_append, length_exactHits, length_semanticHits, hlength] at hle
    exact List.eq_nil_of_length_eq_zero (by omega)
  have hkeys : (builtBatch lib s kind scan selection kept truncated).hits.map EvidenceHit.key =
      ((draftHits lib kind selection.hits kept).map EvidenceHit.source).map
        ExactCandidate.key := by
    rw [builtBatch, List.map_map, List.map_map]
    rfl
  rw [hkeys, draftHits_sources, hnone, List.map_nil, List.append_nil]
  exact hnodup

theorem Stages.sound :
    SoundBatch lib kind request.policy
      (builtBatch lib s kind scan selection kept truncated) := by
  have hcounted := hstages.counted
  have hkeys : (builtBatch lib s kind scan selection kept truncated).eligibleVersions.map
      EligibleVersion.key = sortBy compareKeys scan.eligible := by
    rw [builtBatch, List.map_map]
    exact List.map_id _
  have hnodup : (sortBy compareKeys scan.eligible).Nodup :=
    (perm_sortBy _ _).nodup_iff.mpr hstages.scanned.nodup
  constructor
  · rfl
  · exact hstages.accepted.contract
  · exact hstages.accepted.maxHits_pos
  · exact hstages.accepted.maxChunkBytes_pos
  · exact hstages.accepted.maxTotalBytes_pos
  · exact Nat.lt_of_le_of_lt hstages.accepted.maxTotalBytes_le (by decide)
  · rw [builtBatch, List.length_map]
    exact hstages.budget.length
  · rw [builtBatch, List.length_map, draftHits, List.length_append, length_exactHits]
    exact Nat.le_add_right _ _
  · intro version hmem
    obtain ⟨key, hkey, rfl⟩ := List.mem_map.mp hmem
    have hne := ne_nil_of_eligible hstages.wellFormed
      ((hstages.scanned.eligible key).mp (mem_sortBy.mp hkey))
    exact ⟨hne.1, hne.2, rfl, uuidToString_ne_nil _⟩
  · rw [hkeys]
    exact hnodup
  · rw [builtBatch, List.length_map, length_sortBy]
    exact hcounted.versions
  · exact hcounted.le
  · exact hcounted.none
  · exact fun hpos => ⟨hcounted.full hpos, hstages.full hpos⟩
  · rw [hkeys]
    exact fun entry hentry => hstages.soundHit hentry
  · have hids : ((builtBatch lib s kind scan selection kept truncated).hits.map
        EvidenceHit.sourceChunkId).Nodup := hstages.ids
    have hsnd : (builtBatch lib s kind scan selection kept truncated).hits.map
        EvidenceHit.sourceChunkId =
        ((builtBatch lib s kind scan selection kept truncated).hits.map
          EvidenceHit.identity).map Prod.snd := by
      rw [List.map_map]
      rfl
    rw [hsnd] at hids
    exact List.Nodup.of_map _ hids
  · exact hstages.total_le
  · intro hit hmem
    rw [builtBatch_drop] at hmem
    obtain ⟨draft, hdraft, rfl⟩ := List.mem_map.mp hmem
    obtain ⟨entry, _, rfl⟩ := List.mem_map.mp hdraft
    rfl
  · have hranks : (semanticHits kind selection.hits.length kept).map
        (fun hit => (s.attach hit).preRerankRrfRank) =
        kept.map fun r => some r.candidate.preRerankRrfRank :=
      map_zipIdx_of_fst (semanticCandidateHitV2 kind) (fun _ _ => rfl) kept
        selection.hits.length
    rw [builtBatch_drop, List.map_map]
    change ((semanticHits kind selection.hits.length kept).map
      (fun hit => (s.attach hit).preRerankRrfRank)).Nodup
    rw [hranks]
    have hsome := hstages.appended.ranks_nodup.map (Option.some_injective _)
    rw [List.map_map] at hsome
    exact hsome
  · rw [builtBatch_drop]
    exact semanticHits_ordered hstages.appended.scores hstages.appended.ordered

theorem Stages.ranks :
    (builtBatch lib s kind scan selection kept truncated).hits.map EvidenceHit.retrievalRank =
      List.range' 1 (builtBatch lib s kind scan selection kept truncated).hits.length := by
  generalize hbatch : builtBatch lib s kind scan selection kept truncated = batch
  have hsound : SoundBatch lib kind request.policy batch := hbatch ▸ hstages.sound
  have hle : batch.hits.length ≤ maxHitsV2 :=
    hsound.hits_le.trans hstages.accepted.maxHits_le
  have hrank : batch.hits.zipIdx.map (fun entry => entry.1.retrievalRank) =
      batch.hits.zipIdx.map fun entry => entry.2 + 1 := by
    apply List.map_congr_left
    intro entry hentry
    have hindex := List.snd_lt_of_mem_zipIdx hentry
    have hsmall : entry.2 < 2 ^ 32 := by
      unfold maxHitsV2 at hle
      omega
    rw [(hsound.hits entry hentry).rank, asU32, Nat.mod_eq_of_lt hsmall]
  have hindices : batch.hits.zipIdx.map (fun entry => entry.2 + 1) =
      (batch.hits.zipIdx.map Prod.snd).map fun i => i + 1 := by
    rw [List.map_map]
    rfl
  rw [← map_fst_zipIdx, hrank, hindices, List.zipIdx_map_snd]
  apply List.ext_getElem
  · simp
  · intro i hi hi'
    simp [Nat.add_comm]

theorem Stages.consistent :
    Consistent lib request (builtBatch lib s kind scan selection kept truncated) := by
  have hsound : SoundBatch lib kind request.policy
    (builtBatch lib s kind scan selection kept truncated) := hstages.sound
  constructor
  · exact hstages.ranks
  · exact hstages.ids
  · intro hit hmem
    rw [builtBatch_take] at hmem
    obtain ⟨draft, hdraft, rfl⟩ := List.mem_map.mp hmem
    obtain ⟨⟨c, i⟩, hentry, rfl⟩ := List.mem_map.mp hdraft
    exact hstages.scanned.matches_exactly c
      (hstages.selected.subset c (List.fst_mem_of_mem_zipIdx hentry))
  · intro hit hmem
    rw [builtBatch_drop] at hmem
    obtain ⟨draft, hdraft, rfl⟩ := List.mem_map.mp hmem
    obtain ⟨⟨r, i⟩, hentry, rfl⟩ := List.mem_map.mp hdraft
    exact hstages.appended.inexact r (List.fst_mem_of_mem_zipIdx hentry)
  · exact hsound.hits_le
  · intro hit hmem
    obtain ⟨i, hi⟩ := List.mem_iff_getElem?.mp hmem
    have hhit := hsound.hits (hit, i) (List.mem_zipIdx_iff_getElem?.mpr hi)
    rw [← hhit.byteLength]
    exact hhit.chunk_le
  · exact hsound.total_le
  · exact hsound.ordered
  · exact hsound.truncated_le
  · exact hsound.none_truncated
  · exact fun hpos => (hsound.full_prefix hpos).1

end Built

/-!
# Agreement
-/

theorem retrieveSemantic_congr {p : RetrievalPolicy} {revision : RerankRevision}
    {eligible eligible' : List (Uuid × Uuid)} {hits : List EvidenceHit}
    (hsame : forall key, key ∈ eligible <-> key ∈ eligible') :
    retrieveSemantic lib adapter s kind request p revision eligible hits =
      retrieveSemantic lib adapter s kind request p revision eligible' hits := by
  have hempty : eligible = [] <-> eligible' = [] := by
    rw [List.eq_nil_iff_forall_not_mem, List.eq_nil_iff_forall_not_mem]
    exact forall_congr' fun key => not_congr (hsame key)
  unfold retrieveSemantic
  simp only [hempty]

theorem sameIds_iff {left right : List Uuid} :
    sameIds left right = true <-> forall id, id ∈ left <-> id ∈ right := by
  unfold sameIds
  simp only [Bool.and_eq_true, List.all_eq_true, decide_eq_true_eq]
  constructor
  · rintro ⟨hleft, hright⟩ id
    exact ⟨hleft id, hright id⟩
  · intro hsame
    exact ⟨fun id => (hsame id).mp, fun id => (hsame id).mpr⟩

/-- Media can be attached to every hit of a draft. -/
theorem Stages.hydrate {scan : Scan} {selection : ExactSelection}
    {kept : List RerankedCandidate}
    (hstages : Stages lib s kind request scan selection kept) :
    hydrateEvidenceMediaV3 s (draftHits lib kind selection.hits kept) =
      .ok ((draftHits lib kind selection.hits kept).map s.attach) := by
  apply hydrate_eq
  · intro hit hmem
    obtain ⟨i, hi⟩ := List.mem_iff_getElem?.mp hmem
    have hentry : (hit, i) ∈ (draftHits lib kind selection.hits kept).zipIdx :=
      List.mem_zipIdx_iff_getElem?.mpr hi
    rcases draftHits_cases hentry with ⟨c, _, _, hshape⟩ | ⟨r, _, _, hshape⟩
    · rw [hshape]
      rfl
    · rw [hshape]
      rfl
  · intro hit hmem
    obtain ⟨i, hi⟩ := List.mem_iff_getElem?.mp hmem
    have hentry : (hit, i) ∈ (draftHits lib kind selection.hits kept).zipIdx :=
      List.mem_zipIdx_iff_getElem?.mpr hi
    rcases draftHits_cases hentry with ⟨c, hc, _, hshape⟩ | ⟨r, hr, _, hshape⟩
    · rw [hshape]
      exact ((hstages.backed c hc).presentable hstages.wellFormed).media
    · rw [hshape]
      exact ((hstages.appended.backed r hr).presentable hstages.wellFormed).media

/-- Once the exact selection and the semantic part have succeeded, the request
is answered, and with a batch that its validator accepts. -/
theorem retrieveV2_accepts_its_batch {p : RetrievalPolicy} {revision : RerankRevision}
    {selection : ExactSelection} {hits : List EvidenceHit} {truncated : Nat}
    (hwf : s.WellFormed) (hrequest : validateRequestV2 lib request = .ok ())
    (hscope : forall id, id ∈ request.selectedVersions <->
      id ∈ s.eligibleVersionIds kind request.selectedVersions)
    (hpolicy : adapter.supportedPolicyV2 request.policy = .ok (p, revision))
    (hselect : exactSelection lib s kind request = .ok selection)
    (hsemantic : retrieveSemantic lib adapter s kind request p revision
      (s.eligibleRows kind request.selectedVersions) (exactHits lib kind 0 selection.hits)
        = .ok (hits, truncated)) :
    exists batch, assembleBatchV2 lib adapter s kind request = .ok batch
      ∧ validateEvidenceBatchV3 lib kind request.policy batch = .ok ()
      ∧ retrieveV2 lib adapter s kind request = .ok batch
      ∧ Consistent lib request batch := by
  have haccepted := acceptedRequest_of_ok hrequest
  obtain ⟨scan, hscan, hselect⟩ := bind_eq_ok hselect
  have hscanned := exactScan_of_ok hscan
  have hselected := selected_of_ok haccepted.maxHits_pos hscanned.ids hselect
  obtain ⟨kept, hhits, hbudget, hkept⟩ :=
    retrieveSemantic_spec (budgeted_exactHits hselected) hsemantic
  rw [length_exactHits] at hhits
  subst hhits
  have hstages : Stages lib s kind request scan selection kept :=
    ⟨hwf, haccepted, hscanned, hselected, hkept, hbudget⟩
  have hkeys : forall key, key ∈ sortBy compareKeys scan.eligible <->
      key ∈ s.eligibleRows kind request.selectedVersions := by
    intro key
    rw [mem_sortBy]
    exact hscanned.eligible key
  have hsame : sameIds ((sortBy compareKeys scan.eligible).map Prod.snd)
      request.selectedVersions = true := by
    rw [sameIds_iff]
    intro id
    rw [hscope id, Snapshot.eligibleVersionIds, mem_sortBy, List.mem_dedup, List.mem_map,
      List.mem_map]
    simp only [hkeys]
  have hsmall : ¬ 2 ^ 32 ≤ (exactHits lib kind 0 selection.hits).length := by
    have hle := hselected.length_le.trans haccepted.maxHits_le
    rw [length_exactHits]
    unfold maxHitsV2 at hle
    omega
  have hassemble : assembleBatchV2 lib adapter s kind request =
      .ok (builtBatch lib s kind scan selection kept truncated) := by
    have hrest := (retrieveSemantic_congr hkeys).trans hsemantic
    unfold assembleBatchV2
    rw [ok_bind hrequest, ok_bind hpolicy]
    dsimp only
    rw [ok_bind hscan, reject_bind (by simp [hsame]), ok_bind hselect]
    change (reject (2 ^ 32 ≤ (exactHits lib kind 0 selection.hits).length) _ >>= _) = _
    rw [reject_bind hsmall]
    change (retrieveSemantic lib adapter s kind request p revision _
      (exactHits lib kind 0 selection.hits) >>= _) = _
    rw [ok_bind hrest]
    change (hydrateEvidenceMediaV3 s (draftHits lib kind selection.hits kept) >>= _) = _
    rw [ok_bind hstages.hydrate]
    rfl
  have haccepts : validateEvidenceBatchV3 lib kind request.policy
      (builtBatch lib s kind scan selection kept truncated) = .ok () := hstages.sound.accepted
  refine ⟨_, hassemble, haccepts, ?_, hstages.consistent⟩
  rw [retrieveV2, ok_bind hassemble, ok_bind haccepts]
  rfl

/-!
# A request with one exact and one semantic hit
-/

def manualText : Text := "Torque limit".toList

def photoText : Text := "flange".toList

/-- The library functions on the texts of the example. -/
def manualLibrary : Library where
  toLowercase c := [c.toLower]
  sha256Hex t :=
    if t = manualText then
      "31cda90d24f4aad77662a45e307e62396c1f456777fbcea6eb89a9bf1c33a6de".toList
    else if t = photoText then
      "653fc7600244b6904e1e8c5dcf0b22f427de58a4836603865341efe25d04a708".toList
    else []
  decimalFromStr t := if t = "0.5".toList then some (1 / 2) else none
  parseUuid _ := none

def photoArtifact : ImageArtifactRow where
  productVersionId := 3
  documentId := 4
  objectRef := ("objects/" ++
    "55c64d0fcd6f9d5f7c828093857e3fdfda68478bb4e9bd24d481ef391c7804e8").toList
  contentSha256 :=
    "55c64d0fcd6f9d5f7c828093857e3fdfda68478bb4e9bd24d481ef391c7804e8".toList
  mediaType := "image/png".toList
  width := 8
  height := 6
  pageOrdinal := some 0
  boundingRegion := none
  sha256_check := by decide +kernel
  objectRef_check := by decide +kernel
  mediaType_check := by decide +kernel
  width_check := by decide
  height_check := by decide
  boundingRegion_check := rfl

def photoLink : ImageLinkRow where
  productVersionId := 3
  documentId := 4
  imageArtifactRevisionId := 7
  objectRef := photoArtifact.objectRef
  contentSha256 := photoArtifact.contentSha256
  mediaType := photoArtifact.mediaType

/-- Both channels rank the photo first. -/
def photoIndex : SearchIndex where
  freshness _ _ := .ok ()
  keywordRanks _ _ _ _ := .ok ⟨[(6, 1)], by decide⟩
  vectorRanks _ _ _ _ := .ok ⟨[(6, 1)], by decide⟩

def manualSnapshot : Snapshot where
  workspaces := ⟨[(1, ⟨.productLine⟩)], by decide⟩
  products := ⟨[(2, ⟨1, .product⟩)], by decide⟩
  versions := ⟨[(3, ⟨2⟩)], by decide⟩
  documents := ⟨[(4, ⟨3, "manual.pdf".toList, .completed, .enabled, true, 1, none⟩)], by decide⟩
  chunks := ⟨[(5, ⟨3, 4, 1, .text, manualText, [], none⟩),
    (6, ⟨3, 4, 1, .imageOcr, photoText, [], none⟩)], by decide⟩
  imageLinks := ⟨[(6, photoLink)], by decide⟩
  imageArtifacts := ⟨[(7, photoArtifact)], by decide⟩
  availableObjects :=
    [⟨photoArtifact.objectRef, photoArtifact.contentSha256, photoArtifact.mediaType⟩]
  graphNodes := Table.empty
  wikiPages := Table.empty
  index := photoIndex

def manualRuntime : Runtime where
  embed _ _ := .ok "[1]".toList
  rerank _ _ _ _ := .ok ⟨"model".toList, "config".toList, [⟨0, .number "0.5".toList⟩]⟩

def manualAdapter : Adapter where
  semanticRuntimeV2 := some manualRuntime
  allowExactOnlyV2ContractTests := false
  supportedPolicyV2 _ := .ok (manualPolicy, manualRevision)

def manualRequest : Request where
  schemaVersion := 1
  requirementIdentitySha256 :=
    "77c1f0ad5be9d1388324a5c46aa14923f6baa71d48b1a1a629808a13f2028ce6".toList
  requirementText := "torque".toList
  selectedVersions := [3]
  policy := {
    contractVersion := contractV2
    policySha256 :=
      "823412d1eacb67956220e532959f0104603057c88704863ca38e7cd188fda812".toList
    maxHits := 2
    maxChunkBytes := 64
    maxTotalBytes := 128 }

def manualCandidate : ExactCandidate where
  documentId := 4
  sourceChunkId := 5
  productId := 2
  productVersionId := 3
  frozenDocumentDisplayName := "manual.pdf".toList
  chunkUtf8 := manualText
  sourceType := .text

theorem manualSnapshot_wellFormed : manualSnapshot.WellFormed := by
  have hrows : forall {V : Type} {P : Uuid -> V -> Prop} (t : Table Uuid V),
      (forall row, row ∈ t.rows -> P row.1 row.2) ->
        forall id row, t.lookup id = some row -> P id row :=
    fun t hall id row hlookup => hall (id, row) (Table.mem_rows_of_lookup hlookup)
  constructor
  · exact hrows _ (by simp [manualSnapshot])
  · exact hrows _ (by simp [manualSnapshot])
  · exact hrows _ (by simp [manualSnapshot])
  · exact hrows _ (by simp [manualSnapshot])
  · exact hrows _ (by simp [manualSnapshot])
  · apply hrows
    have hphoto : (manualSnapshot.mediaRow 6).isSome = true := by decide +kernel
    have hmanual : ChunkType.text ≠ ChunkType.imageOcr := by decide
    simp [manualSnapshot, hmanual]
    intro _
    exact hphoto

theorem retrieveV2_accepts_manual :
    exists batch, assembleBatchV2 manualLibrary manualAdapter manualSnapshot .productLine
        manualRequest = .ok batch
      ∧ validateEvidenceBatchV3 manualLibrary .productLine manualRequest.policy batch = .ok ()
      ∧ retrieveV2 manualLibrary manualAdapter manualSnapshot .productLine manualRequest
        = .ok batch
      ∧ Consistent manualLibrary manualRequest batch := by
  have hscope : forall id, id ∈ manualRequest.selectedVersions <->
      id ∈ manualSnapshot.eligibleVersionIds .productLine manualRequest.selectedVersions :=
    sameIds_iff.mp (by decide +kernel)
  have hselect : exactSelection manualLibrary manualSnapshot .productLine manualRequest =
      .ok ⟨[manualCandidate], 0, 0⟩ := by
    decide +kernel
  have hran : (retrieveSemantic manualLibrary manualAdapter manualSnapshot .productLine
      manualRequest manualPolicy manualRevision
      (manualSnapshot.eligibleRows .productLine manualRequest.selectedVersions)
      (exactHits manualLibrary .productLine 0 [manualCandidate])).toOption.map
        (fun result => result.1.map EvidenceHit.sourceChunkId) = some [5, 6] := by
    decide +kernel
  cases hsemantic : retrieveSemantic manualLibrary manualAdapter manualSnapshot .productLine
      manualRequest manualPolicy manualRevision
      (manualSnapshot.eligibleRows .productLine manualRequest.selectedVersions)
      (exactHits manualLibrary .productLine 0 [manualCandidate]) with
  | error e =>
      rw [hsemantic] at hran
      cases hran
  | ok result =>
      exact retrieveV2_accepts_its_batch manualSnapshot_wellFormed (by decide +kernel) hscope
        rfl hselect hsemantic

end Retrieval
end KnowledgeBrain
