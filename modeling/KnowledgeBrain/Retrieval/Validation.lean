import KnowledgeBrain.Retrieval.Fair
import KnowledgeBrain.Retrieval.Reranking

/-!
# The hits of a batch

The exact hits are numbered from one, the tail appends a sublist of the
reranked candidates under the numbers that follow, and attaching media changes
nothing else.
-/

namespace KnowledgeBrain
namespace Retrieval

open Foundation
open Chunker (Text byteLen)
open Workflow (Uuid)

section

variable {lib : Library} {s : Snapshot} {kind : WorkspaceKind}
  {policy : RetrievalPolicyIdentity}

/-!
# Appending the tail
-/

/-- The hits of reranked candidates numbered from a start. -/
def semanticHits (kind : WorkspaceKind) (start : Nat) (kept : List RerankedCandidate) :
    List EvidenceHit :=
  (kept.zipIdx start).map fun entry => semanticCandidateHitV2 kind entry.1 entry.2

theorem semanticHits_cons (start : Nat) (r : RerankedCandidate)
    (kept : List RerankedCandidate) :
    semanticHits kind start (r :: kept) =
      semanticCandidateHitV2 kind r start :: semanticHits kind (start + 1) kept := rfl

@[simp]
theorem length_semanticHits (start : Nat) (kept : List RerankedCandidate) :
    (semanticHits kind start kept).length = kept.length := by
  simp [semanticHits]

/-- The quotas of a tail under construction. -/
structure Budgeted (policy : RetrievalPolicyIdentity) (tail : Tail) : Prop where
  bytes : tail.totalBytes = (tail.hits.map EvidenceHit.chunkByteLength).sum
  length : tail.hits.length ≤ policy.maxHits
  chunk : forall hit, hit ∈ tail.hits -> hit.chunkByteLength ≤ policy.maxChunkBytes
  total : tail.totalBytes ≤ policy.maxTotalBytes

theorem appendReranked_cases (tail : Tail) (r : RerankedCandidate) :
    (exists truncated, appendReranked kind policy tail r = { tail with truncated := truncated })
      ∨ (exists next, appendReranked kind policy tail r = next
        ∧ next.hits = tail.hits ++ [semanticCandidateHitV2 kind r tail.hits.length]
        ∧ next.totalBytes = tail.totalBytes + r.candidate.chunkByteLength
        ∧ tail.hits.length < policy.maxHits
        ∧ r.candidate.chunkByteLength ≤ policy.maxChunkBytes
        ∧ tail.totalBytes + r.candidate.chunkByteLength ≤ policy.maxTotalBytes) := by
  unfold appendReranked
  split
  · rename_i heligible
    unfold tailEligible at heligible
    simp only [Bool.and_eq_true, decide_eq_true_eq] at heligible
    obtain ⟨⟨hroom, hchunk⟩, hrequired⟩ := heligible
    cases hadd : checkedAdd 64 tail.totalBytes r.candidate.chunkByteLength with
    | none =>
        rw [hadd] at hrequired
        cases hrequired
    | some required =>
        rw [hadd, Option.any_some, decide_eq_true_eq, checkedAdd_eq_some hadd] at hrequired
        exact Or.inr ⟨_, rfl, rfl, rfl, hroom, hchunk, hrequired⟩
  · exact Or.inl ⟨_, rfl⟩

theorem Budgeted.append {tail next : Tail} {r : RerankedCandidate}
    (htail : Budgeted policy tail)
    (hhits : next.hits = tail.hits ++ [semanticCandidateHitV2 kind r tail.hits.length])
    (hbytes : next.totalBytes = tail.totalBytes + r.candidate.chunkByteLength)
    (hroom : tail.hits.length < policy.maxHits)
    (hchunk : r.candidate.chunkByteLength ≤ policy.maxChunkBytes)
    (htotal : tail.totalBytes + r.candidate.chunkByteLength ≤ policy.maxTotalBytes) :
    Budgeted policy next where
  bytes := by
    rw [hbytes, hhits, htail.bytes]
    simp [semanticCandidateHitV2]
  length := by
    rw [hhits, List.length_append, List.length_singleton]
    exact hroom
  chunk := by
    intro hit hmem
    rw [hhits] at hmem
    rcases List.mem_append.mp hmem with hold | hnew
    · exact htail.chunk hit hold
    · rw [List.mem_singleton.mp hnew]
      exact hchunk
  total := by
    rw [hbytes]
    exact htotal

theorem appendAll_spec {tail : Tail} (reranked : List RerankedCandidate)
    (htail : Budgeted policy tail) :
    Budgeted policy (reranked.foldl (appendReranked kind policy) tail)
      ∧ exists kept, kept.Sublist reranked
        ∧ (reranked.foldl (appendReranked kind policy) tail).hits
          = tail.hits ++ semanticHits kind tail.hits.length kept := by
  induction reranked generalizing tail with
  | nil =>
      exact ⟨htail, [], List.Sublist.refl _, (List.append_nil _).symm⟩
  | cons r rest ih =>
      rw [List.foldl_cons]
      rcases appendReranked_cases tail r with
        ⟨truncated, hskip⟩ | ⟨next, hnext, hhits, hbytes, hroom, hchunk, htotal⟩
      · rw [hskip]
        have hsame : Budgeted policy { tail with truncated := truncated } :=
          ⟨htail.bytes, htail.length, htail.chunk, htail.total⟩
        obtain ⟨hafter, kept, hsub, hkept⟩ := ih hsame
        exact ⟨hafter, kept, hsub.cons r, hkept⟩
      · rw [hnext]
        obtain ⟨hafter, kept, hsub, hkept⟩ :=
          ih (htail.append hhits hbytes hroom hchunk htotal)
        refine ⟨hafter, r :: kept, hsub.cons_cons r, ?_⟩
        rw [hkept, hhits, semanticHits_cons, List.length_append, List.length_singleton,
          List.append_assoc, List.singleton_append]

/-!
# Attaching media
-/

/-- The candidate a hit was made from. -/
def EvidenceHit.source (hit : EvidenceHit) : ExactCandidate where
  documentId := hit.documentId
  sourceChunkId := hit.sourceChunkId
  productId := hit.productId
  productVersionId := hit.productVersionId
  frozenDocumentDisplayName := hit.frozenDocumentDisplayName
  chunkUtf8 := hit.chunkUtf8
  sourceType := hit.sourceType

/-- The media of a chunk, under the name of the document. -/
def Snapshot.mediaFor (s : Snapshot) (hit : EvidenceHit) : Option EvidenceMedia :=
  match hit.sourceType with
  | .imageOcr => (s.mediaRow hit.sourceChunkId).map fun value =>
      { value with frozenDocumentDisplayName := hit.frozenDocumentDisplayName }
  | _ => none

def Snapshot.attach (s : Snapshot) (hit : EvidenceHit) : EvidenceHit :=
  { hit with media := s.mediaFor hit }

theorem hydrateHit_eq {hit : EvidenceHit}
    (hmedia : hit.sourceType = .imageOcr -> (s.mediaRow hit.sourceChunkId).isSome = true) :
    hydrateHit s hit = .ok (s.attach hit) := by
  unfold hydrateHit Snapshot.attach Snapshot.mediaFor
  cases htype : hit.sourceType with
  | text => rfl
  | parentText => rfl
  | imageOcr =>
      obtain ⟨value, hvalue⟩ := Option.isSome_iff_exists.mp (hmedia htype)
      rw [hvalue]
      rfl

theorem hydrate_eq {hits : List EvidenceHit} (hbare : forall hit, hit ∈ hits -> hit.media = none)
    (hmedia : forall hit, hit ∈ hits -> hit.sourceType = .imageOcr ->
      (s.mediaRow hit.sourceChunkId).isSome = true) :
    hydrateEvidenceMediaV3 s hits = .ok (hits.map s.attach) := by
  unfold hydrateEvidenceMediaV3
  split
  · rename_i htext
    rw [List.all_eq_true] at htext
    have hsame : hits.map s.attach = hits.map id := by
      apply List.map_congr_left
      intro hit hmem
      have hnone : s.mediaFor hit = none := by
        have hne := of_decide_eq_true (htext hit hmem)
        unfold Snapshot.mediaFor
        split
        · contradiction
        · rfl
      rw [Snapshot.attach, hnone, ← hbare hit hmem]
      rfl
    rw [hsame, List.map_id]
  · exact mapM_of_ok fun hit hmem => hydrateHit_eq (hmedia hit hmem)

end

/-!
# When the validator accepts

The loops of the validator succeed on batches that meet a list of conditions,
one for each thing it checks.
-/

variable {lib : Library} {kind : WorkspaceKind} {policy : RetrievalPolicyIdentity}

/-!
## Versions
-/

structure SoundVersion (kind : WorkspaceKind) (version : EligibleVersion) : Prop where
  productId : version.productId ≠ 0
  productVersionId : version.productVersionId ≠ 0
  workspaceKind : version.workspaceKind = kind
  displayName : version.frozenDisplayName ≠ []

theorem validateVersions_eq_ok {versions : List EligibleVersion}
    (eligible : List (Uuid × Uuid))
    (hsound : forall version, version ∈ versions -> SoundVersion kind version)
    (hnodup : (versions.map EligibleVersion.key).Nodup)
    (hfresh : forall version, version ∈ versions -> version.key ∉ eligible) :
    exists eligible', versions.foldlM (validateVersion kind) eligible = .ok eligible'
      ∧ eligible'.length = eligible.length + versions.length
      ∧ forall key, key ∈ eligible' <->
        key ∈ eligible ∨ key ∈ versions.map EligibleVersion.key := by
  induction versions generalizing eligible with
  | nil =>
      exact ⟨eligible, rfl, rfl, fun key => by simp⟩
  | cons version rest ih =>
      have hversion := hsound version List.mem_cons_self
      have hnew := hfresh version List.mem_cons_self
      rw [List.map_cons, List.nodup_cons] at hnodup
      have hfirst : validateVersion kind eligible version =
          .ok (eligible.insert version.key) := by
        unfold validateVersion
        rw [if_neg]
        simp [hversion.productId, hversion.productVersionId, hversion.workspaceKind,
          hversion.displayName, hnew]
      have hrestFresh : forall version', version' ∈ rest ->
          version'.key ∉ eligible.insert version.key := by
        intro version' hmem hin
        rcases List.mem_insert_iff.mp hin with heq | hold
        · exact hnodup.1 (heq ▸ List.mem_map_of_mem hmem)
        · exact hfresh version' (List.mem_cons_of_mem _ hmem) hold
      obtain ⟨eligible', hrest, hlength, hkeys⟩ :=
        ih _ (fun version' hmem => hsound version' (List.mem_cons_of_mem _ hmem)) hnodup.2
          hrestFresh
      refine ⟨eligible', ?_, ?_, ?_⟩
      · rw [List.foldlM_cons, ok_bind hfirst, hrest]
      · rw [hlength, List.length_insert_of_not_mem hnew, List.length_cons]
        omega
      · intro key
        rw [hkeys key, List.mem_insert_iff, List.map_cons, List.mem_cons]
        tauto

/-!
## Hits
-/

/-- Everything the validator asks of one hit but that its identity is new. -/
structure SoundHit (lib : Library) (kind : WorkspaceKind) (policy : RetrievalPolicyIdentity)
    (eligible : List (Uuid × Uuid)) (exactPrefixHitCount : Nat)
    (entry : EvidenceHit × Nat) : Prop where
  schemaVersion : entry.1.schemaVersion = schemaV3
  media : entry.1.mediaValid = true
  workspaceKind : entry.1.workspaceKind = kind
  documentId : entry.1.documentId ≠ 0
  sourceChunkId : entry.1.sourceChunkId ≠ 0
  productId : entry.1.productId ≠ 0
  productVersionId : entry.1.productVersionId ≠ 0
  displayName : entry.1.frozenDocumentDisplayName ≠ []
  contract : entry.1.retrievalContractVersion = contractV2
  offsetUnit : entry.1.offsetUnit = utf8ByteOffsetUnit
  byteLength : entry.1.chunkByteLength = byteLen entry.1.chunkUtf8
  chunk_le : entry.1.chunkByteLength ≤ policy.maxChunkBytes
  sha256 : entry.1.chunkSha256 = lib.sha256Hex entry.1.chunkUtf8
  quoteStart : entry.1.quoteStartOffset = 0
  quoteEnd : entry.1.quoteEndOffset = byteLen entry.1.chunkUtf8
  rank : entry.1.retrievalRank = asU32 entry.2 + 1
  score : scoreValid exactPrefixHitCount entry.2 entry.1 = true
  eligible : entry.1.key ∈ eligible

theorem SoundHit.hitValid {eligible identities : List (Uuid × Uuid)} {count : Nat}
    {entry : EvidenceHit × Nat} (hsound : SoundHit lib kind policy eligible count entry)
    (hnew : entry.1.identity ∉ identities) :
    hitValid lib kind policy eligible count identities entry.2 entry.1 = true := by
  unfold Retrieval.hitValid
  simp only [Bool.and_eq_true, decide_eq_true_eq]
  exact ⟨⟨⟨⟨⟨⟨⟨⟨⟨⟨⟨⟨⟨⟨⟨⟨⟨⟨hsound.schemaVersion, hsound.media⟩, hsound.workspaceKind⟩,
    hsound.documentId⟩, hsound.sourceChunkId⟩, hsound.productId⟩, hsound.productVersionId⟩,
    hsound.displayName⟩, hsound.contract⟩, hsound.offsetUnit⟩, hsound.byteLength⟩,
    hsound.chunk_le⟩, hsound.sha256⟩, hsound.quoteStart⟩, hsound.quoteEnd⟩, hsound.rank⟩,
    hsound.score⟩, hsound.eligible⟩, hnew⟩

/-- The scan after a hit that passed. -/
def HitScan.note (count : Nat) (scan : HitScan) (entry : EvidenceHit × Nat) : HitScan where
  identities := scan.identities.insert entry.1.identity
  hitVersions :=
    if entry.2 < count then scan.hitVersions.insert entry.1.key else scan.hitVersions
  totalBytes := scan.totalBytes + byteLen entry.1.chunkUtf8

theorem validateHit_eq_ok {eligible : List (Uuid × Uuid)} {count : Nat} {scan : HitScan}
    {entry : EvidenceHit × Nat} (hsound : SoundHit lib kind policy eligible count entry)
    (hnew : entry.1.identity ∉ scan.identities)
    (hbytes : scan.totalBytes + byteLen entry.1.chunkUtf8 < 2 ^ 64) :
    validateHit lib kind policy eligible count scan entry = .ok (scan.note count entry) := by
  unfold validateHit
  rw [checkedAdd_of_lt hbytes]
  simp only [hsound.hitValid hnew, Bool.true_eq_false, if_false]
  rfl

theorem validateHits_eq_ok {eligible : List (Uuid × Uuid)} {count : Nat}
    {entries : List (EvidenceHit × Nat)} (scan : HitScan)
    (hsound : forall entry, entry ∈ entries -> SoundHit lib kind policy eligible count entry)
    (hnodup : (entries.map fun entry => entry.1.identity).Nodup)
    (hfresh : forall entry, entry ∈ entries -> entry.1.identity ∉ scan.identities)
    (hbytes : scan.totalBytes + (entries.map fun entry => byteLen entry.1.chunkUtf8).sum
      < 2 ^ 64) :
    exists scan', entries.foldlM (validateHit lib kind policy eligible count) scan = .ok scan'
      ∧ scan'.totalBytes = scan.totalBytes
        + (entries.map fun entry => byteLen entry.1.chunkUtf8).sum
      ∧ ((forall entry, entry ∈ entries -> entry.2 < count) ->
          (entries.map fun entry => entry.1.key).Nodup ->
          (forall entry, entry ∈ entries -> entry.1.key ∉ scan.hitVersions) ->
          scan'.hitVersions.length = scan.hitVersions.length + entries.length) := by
  induction entries generalizing scan with
  | nil =>
      exact ⟨scan, rfl, rfl, fun _ _ _ => rfl⟩
  | cons entry rest ih =>
      rw [List.map_cons, List.nodup_cons] at hnodup
      rw [List.map_cons, List.sum_cons] at hbytes
      have hfirst := validateHit_eq_ok (hsound entry List.mem_cons_self)
        (hfresh entry List.mem_cons_self) (by omega)
      have hrestFresh : forall entry', entry' ∈ rest ->
          entry'.1.identity ∉ (scan.note count entry).identities := by
        intro entry' hmem hin
        rcases List.mem_insert_iff.mp hin with heq | hold
        · exact hnodup.1 (List.mem_map.mpr ⟨entry', hmem, heq⟩)
        · exact hfresh entry' (List.mem_cons_of_mem _ hmem) hold
      obtain ⟨scan', hrest, htotal, hversions⟩ :=
        ih (scan.note count entry) (fun entry' hmem => hsound entry' (List.mem_cons_of_mem _ hmem))
          hnodup.2 hrestFresh (by rw [HitScan.note, Nat.add_assoc]; exact hbytes)
      refine ⟨scan', ?_, ?_, ?_⟩
      · rw [List.foldlM_cons, ok_bind hfirst, hrest]
      · rw [htotal, HitScan.note, List.map_cons, List.sum_cons, Nat.add_assoc]
      · intro hexact hkeys hnew
        rw [List.map_cons, List.nodup_cons] at hkeys
        have hnewEntry := hnew entry List.mem_cons_self
        simp only [HitScan.note, hexact entry List.mem_cons_self, if_true] at hversions
        rw [hversions (fun entry' hmem => hexact entry' (List.mem_cons_of_mem _ hmem)) hkeys.2,
          List.length_insert_of_not_mem hnewEntry, List.length_cons]
        · omega
        · intro entry' hmem hin
          rcases List.mem_insert_iff.mp hin with heq | hold
          · exact hkeys.1 (List.mem_map.mpr ⟨entry', hmem, heq⟩)
          · exact hnew entry' (List.mem_cons_of_mem _ hmem) hold

/-!
## The semantic suffix
-/

theorem validateSuffix_eq_ok {hits : List EvidenceHit} (scan : SuffixScan)
    (hranks : forall hit, hit ∈ hits -> hit.preRerankRrfRank.isSome = true)
    (hnodup : (hits.map EvidenceHit.preRerankRrfRank).Nodup)
    (hfresh : forall hit rank, hit ∈ hits -> hit.preRerankRrfRank = some rank ->
      rank ∉ scan.semanticRrfRanks)
    (hordered : (scan.previous.toList ++ hits).Pairwise
      fun previous hit => incorrectlyOrdered previous hit = false) :
    exists scan', hits.foldlM validateSemantic scan = .ok scan' := by
  induction hits generalizing scan with
  | nil =>
      exact ⟨scan, rfl⟩
  | cons hit rest ih =>
      obtain ⟨rank, hrank⟩ := Option.isSome_iff_exists.mp (hranks hit List.mem_cons_self)
      have hnew := hfresh hit rank List.mem_cons_self hrank
      rw [List.map_cons, List.nodup_cons] at hnodup
      rw [List.pairwise_append, List.pairwise_cons] at hordered
      obtain ⟨_, ⟨hhead, htail⟩, hprevious⟩ := hordered
      have hfirst : validateSemantic scan hit =
          .ok ⟨scan.semanticRrfRanks.insert rank, some hit⟩ := by
        have horder : scan.previous.any (fun previous => incorrectlyOrdered previous hit)
            = false := by
          cases hscan : scan.previous with
          | none => rfl
          | some previous =>
              exact hprevious previous (by simp [hscan]) hit List.mem_cons_self
        unfold validateSemantic
        rw [hrank, ok_bind (show require _ (some rank) = .ok rank from rfl), reject_bind hnew,
          reject_bind (Bool.eq_false_iff.mp horder)]
        rfl
      have hrestFresh : forall hit' rank', hit' ∈ rest -> hit'.preRerankRrfRank = some rank' ->
          rank' ∉ scan.semanticRrfRanks.insert rank := by
        intro hit' rank' hmem hrank' hin
        rcases List.mem_insert_iff.mp hin with heq | hold
        · apply hnodup.1
          rw [hrank, ← heq, ← hrank']
          exact List.mem_map_of_mem hmem
        · exact hfresh hit' rank' (List.mem_cons_of_mem _ hmem) hrank' hold
      obtain ⟨scan', hrest⟩ :=
        ih ⟨scan.semanticRrfRanks.insert rank, some hit⟩ (fun hit' hmem => hranks hit'
          (List.mem_cons_of_mem _ hmem)) hnodup.2 hrestFresh (List.pairwise_cons.mpr ⟨hhead, htail⟩)
      exact ⟨scan', by rw [List.foldlM_cons, ok_bind hfirst, hrest]⟩

/-!
## The whole batch
-/

/-- The conditions under which a batch is accepted. -/
structure SoundBatch (lib : Library) (kind : WorkspaceKind) (policy : RetrievalPolicyIdentity)
    (batch : EvidenceBatch) : Prop where
  schemaVersion : batch.schemaVersion = schemaV3
  contract : policy.contractVersion = contractV2
  maxHits_pos : 0 < policy.maxHits
  maxChunkBytes_pos : 0 < policy.maxChunkBytes
  maxTotalBytes_pos : 0 < policy.maxTotalBytes
  maxTotalBytes_lt : policy.maxTotalBytes < 2 ^ 64
  hits_le : batch.hits.length ≤ policy.maxHits
  prefix_le : batch.exactPrefixHitCount ≤ batch.hits.length
  versions : forall version, version ∈ batch.eligibleVersions -> SoundVersion kind version
  versions_nodup : (batch.eligibleVersions.map EligibleVersion.key).Nodup
  versions_truncated : batch.exactVersionsTruncated
    ≤ batch.eligibleVersions.length - policy.maxHits
  truncated_le : batch.exactVersionsTruncated ≤ batch.exactHitsTruncated
  none_truncated : batch.exactPrefixHitCount = 0 ->
    batch.exactVersionsTruncated = 0 ∧ batch.exactHitsTruncated = 0
  full_prefix : 0 < batch.exactVersionsTruncated ->
    batch.exactPrefixHitCount = policy.maxHits
      ∧ (batch.hits.map EvidenceHit.key).Nodup
  hits : forall entry, entry ∈ batch.hits.zipIdx ->
    SoundHit lib kind policy (batch.eligibleVersions.map EligibleVersion.key)
      batch.exactPrefixHitCount entry
  identities : (batch.hits.map EvidenceHit.identity).Nodup
  total_le : (batch.hits.map fun hit => byteLen hit.chunkUtf8).sum ≤ policy.maxTotalBytes
  ranked : forall hit, hit ∈ batch.hits.drop batch.exactPrefixHitCount ->
    hit.preRerankRrfRank.isSome = true
  ranks_nodup : ((batch.hits.drop batch.exactPrefixHitCount).map
    EvidenceHit.preRerankRrfRank).Nodup
  ordered : (batch.hits.drop batch.exactPrefixHitCount).Pairwise
    fun previous hit => incorrectlyOrdered previous hit = false

theorem SoundHit.weaken {eligible eligible' : List (Uuid × Uuid)} {count : Nat}
    {entry : EvidenceHit × Nat} (hsound : SoundHit lib kind policy eligible count entry)
    (hsub : forall key, key ∈ eligible -> key ∈ eligible') :
    SoundHit lib kind policy eligible' count entry :=
  { hsound with eligible := hsub _ hsound.eligible }

theorem map_fst_zipIdx {B : Type} (hits : List EvidenceHit) (f : EvidenceHit -> B) :
    (hits.zipIdx.map fun entry => f entry.1) = hits.map f := by
  conv_rhs => rw [← List.zipIdx_map_fst 0 hits, List.map_map]
  rfl

theorem SoundBatch.accepted {batch : EvidenceBatch}
    (hsound : SoundBatch lib kind policy batch) :
    validateEvidenceBatchV3 lib kind policy batch = .ok () := by
  obtain ⟨eligible, hversions, hlength, hkeys⟩ :=
    validateVersions_eq_ok [] hsound.versions hsound.versions_nodup
      (fun _ _ => List.not_mem_nil)
  have hsoundHits : forall entry, entry ∈ batch.hits.zipIdx ->
      SoundHit lib kind policy eligible batch.exactPrefixHitCount entry := by
    intro entry hmem
    exact (hsound.hits entry hmem).weaken fun key hkey => (hkeys key).mpr (Or.inr hkey)
  have hsum : (batch.hits.zipIdx.map fun entry => byteLen entry.1.chunkUtf8).sum
      ≤ policy.maxTotalBytes := by
    rw [map_fst_zipIdx batch.hits fun hit => byteLen hit.chunkUtf8]
    exact hsound.total_le
  obtain ⟨scan, hhits, htotal, hhitVersions⟩ :=
    validateHits_eq_ok ⟨[], [], 0⟩ hsoundHits
      (by rw [map_fst_zipIdx]; exact hsound.identities) (fun _ _ => List.not_mem_nil)
      (by rw [Nat.zero_add]; exact Nat.lt_of_le_of_lt hsum hsound.maxTotalBytes_lt)
  obtain ⟨suffix, hsuffix⟩ := validateSuffix_eq_ok ⟨[], none⟩ hsound.ranked
    hsound.ranks_nodup (fun _ _ _ _ => List.not_mem_nil) hsound.ordered
  rw [List.length_nil, Nat.zero_add] at hlength
  rw [Nat.zero_add] at htotal
  have hcomplete : 0 < batch.exactVersionsTruncated ->
      scan.hitVersions.length = policy.maxHits := by
    intro hpos
    obtain ⟨hcount, hnodup⟩ := hsound.full_prefix hpos
    have hall : batch.hits.length = policy.maxHits :=
      Nat.le_antisymm hsound.hits_le (hcount ▸ hsound.prefix_le)
    rw [hhitVersions ?_ ?_ (fun _ _ => List.not_mem_nil), List.length_nil, Nat.zero_add,
      List.length_zipIdx, hall]
    · intro entry hmem
      rw [hcount, ← hall]
      have hindex := List.snd_lt_of_mem_zipIdx hmem
      omega
    · rw [map_fst_zipIdx]
      exact hnodup
  have hfirst : ¬ (batch.schemaVersion ≠ schemaV3 ∨ policy.contractVersion ≠ contractV2
      ∨ policy.maxHits = 0 ∨ policy.maxChunkBytes = 0 ∨ policy.maxTotalBytes = 0
      ∨ policy.maxHits < batch.hits.length
      ∨ batch.hits.length < batch.exactPrefixHitCount) := by
    have hmaxHits := hsound.maxHits_pos
    have hmaxChunk := hsound.maxChunkBytes_pos
    have hmaxTotal := hsound.maxTotalBytes_pos
    have hhitsLe := hsound.hits_le
    have hprefixLe := hsound.prefix_le
    simp only [hsound.schemaVersion, hsound.contract, ne_eq, not_true_eq_false, false_or]
    omega
  have hmetrics : ¬ (eligible.length - policy.maxHits < batch.exactVersionsTruncated
      ∨ batch.exactHitsTruncated < batch.exactVersionsTruncated
      ∨ (batch.exactPrefixHitCount = 0
          ∧ (batch.exactVersionsTruncated ≠ 0 ∨ batch.exactHitsTruncated ≠ 0))
      ∨ (0 < batch.exactVersionsTruncated
          ∧ batch.exactPrefixHitCount ≠ policy.maxHits)) := by
    have hversionsLe := hsound.versions_truncated
    have htruncatedLe := hsound.truncated_le
    have hnone := hsound.none_truncated
    have hfull := fun hpos => (hsound.full_prefix hpos).1
    rw [hlength]
    omega
  unfold validateEvidenceBatchV3
  rw [reject_bind hfirst, ok_bind hversions, reject_bind hmetrics, ok_bind hhits,
    ok_bind hsuffix, reject_bind (by omega)]
  exact reject_eq_ok.mpr fun hbad => hbad.2 (hcomplete hbad.1)

end Retrieval
end KnowledgeBrain
