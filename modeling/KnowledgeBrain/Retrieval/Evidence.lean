import KnowledgeBrain.Retrieval.Semantic

/-!
# Applying a rerank response

The decoded answer of the provider gives every candidate one score in the unit
interval, which is cut to millionths; the candidates are then put in the order
of the semantic suffix.
-/

namespace KnowledgeBrain
namespace Retrieval

open Foundation
open Chunker (Text byteLen)
open Workflow (Uuid)

structure RerankResult where
  index : Nat
  score : JsonValue

structure RerankResponse where
  modelRevisionSha256 : Text
  configRevisionSha256 : Text
  results : List RerankResult

structure RerankedCandidate where
  candidate : SemanticCandidate
  scoreMillionths : Nat
deriving DecidableEq

/-- Millionths as a decimal text with six places. -/
def fixedScore (scoreMillionths : Nat) : Text :=
  Nat.toDigits 10 (scoreMillionths / million) ++ '.' ::
    fixedDigits 10 6 (scoreMillionths % million)

def scoreMillionths (lib : Library) (value : JsonValue) : Except RetrievalError Nat := do
  let number ← require (.unavailable "rerank score is not a JSON number") value.asNumber
  let decimal ← require (.unavailable "rerank score is not finite decimal")
    (lib.decimalFromStr number)
  reject (decimal < 0 ∨ 1 < decimal) (.unavailable "rerank score is outside unit interval")
  return (decimal * million).floor.toNat

def compareReranked : RerankedCandidate -> RerankedCandidate -> Ordering :=
  compareLex (fun left right => compareOn RerankedCandidate.scoreMillionths right left)
    (compareLex (compareOn fun r => r.candidate.preRerankRrfRank)
      (compareLex (compareOn fun r => r.candidate.productId)
        (compareLex (compareOn fun r => r.candidate.productVersionId)
          (compareLex (compareOn fun r => r.candidate.documentId)
            (compareOn fun r => r.candidate.sourceChunkId)))))

/-- One pass of the loop that files the scores under their indices. -/
def recordScore (lib : Library) (scores : List (Option Nat)) (result : RerankResult) :
    Except RetrievalError (List (Option Nat)) :=
  if scores.length ≤ result.index ∨ (scores[result.index]?.join).isSome = true then
    .error (.unavailable "rerank response index is duplicate or out of range")
  else do
    let score ← scoreMillionths lib result.score
    return scores.set result.index (some score)

def withScore (entry : SemanticCandidate × Option Nat) :
    Except RetrievalError RerankedCandidate := do
  let score ← require (.panicked "complete index coverage checked") entry.2
  return ⟨entry.1, score⟩

def applyResponse (lib : Library) (response : RerankResponse)
    (candidates : List SemanticCandidate) (policy : RetrievalPolicy)
    (revision : RerankRevision) : Except RetrievalError (List RerankedCandidate) := do
  reject (revision.sha256 ≠ some policy.rerank.revisionSha256
      ∨ response.modelRevisionSha256 ≠ policy.rerank.modelRevisionSha256
      ∨ response.modelRevisionSha256 ≠ revision.providerModelRevisionSha256
      ∨ response.configRevisionSha256 ≠ policy.rerank.configRevisionSha256
      ∨ response.configRevisionSha256 ≠ revision.configRevisionSha256)
    (.invalidRequest "rerank provider identity mismatch")
  reject (response.results.length ≠ candidates.length)
    (.unavailable "rerank response does not cover every input index")
  let scores ← response.results.foldlM (recordScore lib)
    (List.replicate candidates.length none)
  reject (scores.any Option.isNone = true)
    (.unavailable "rerank response is missing an input index")
  let output ← (candidates.zip scores).mapM withScore
  return sortBy compareReranked output

/-!
# Evidence batches and their validator

The batch a request answers with, and `validate_evidence_batch_v3`, which
checks it against the policy: schema and quotas, the eligible versions, the
truncation counters, every hit, the order of the semantic suffix and the
bytes.  Each loop of the source is a fold that may fail.
-/

def schemaV3 : Nat := 3

def utf8ByteOffsetUnit : Text := "utf8_byte".toList

def fullScore : Text := "1.000000".toList

structure EligibleVersion where
  productId : Uuid
  productVersionId : Uuid
  workspaceKind : WorkspaceKind
  frozenDisplayName : Text
deriving DecidableEq

structure EvidenceMedia where
  imageArtifactRevisionId : Uuid
  objectRef : Text
  sha256 : Text
  mediaType : Text
  width : Nat
  height : Nat
  pageOrdinal : Option Nat
  boundingRegion : Option JsonValue
  frozenDocumentDisplayName : Text

structure EvidenceHit where
  schemaVersion : Nat
  documentId : Uuid
  sourceChunkId : Uuid
  productId : Uuid
  productVersionId : Uuid
  workspaceKind : WorkspaceKind
  frozenDocumentDisplayName : Text
  chunkUtf8 : Text
  chunkSha256 : Text
  chunkByteLength : Nat
  quoteStartOffset : Nat
  quoteEndOffset : Nat
  offsetUnit : Text
  retrievalRank : Nat
  retrievalRawScore : Text
  preRerankRrfRank : Option Nat
  retrievalContractVersion : Text
  sourceType : SourceType
  media : Option EvidenceMedia

structure EvidenceBatch where
  schemaVersion : Nat
  eligibleVersions : List EligibleVersion
  hits : List EvidenceHit
  exactPrefixHitCount : Nat
  exactVersionsTruncated : Nat
  exactHitsTruncated : Nat
  semanticHitsTruncated : Nat

def EvidenceHit.key (hit : EvidenceHit) : Uuid × Uuid :=
  (hit.productId, hit.productVersionId)

def EvidenceHit.identity (hit : EvidenceHit) : Uuid × Uuid :=
  (hit.documentId, hit.sourceChunkId)

def EligibleVersion.key (version : EligibleVersion) : Uuid × Uuid :=
  (version.productId, version.productVersionId)

/-!
# Checks
-/

def isUnitIntervalMillionths (value : Text) : Bool :=
  decide (value = fullScore) ||
    (byteLen value == 8 && "0.".toList.isPrefixOf value && (value.drop 2).all Char.isDigit)

def validateVersion (expectedWorkspaceKind : WorkspaceKind) (eligible : List (Uuid × Uuid))
    (version : EligibleVersion) : Except RetrievalError (List (Uuid × Uuid)) :=
  if version.productId = 0 ∨ version.productVersionId = 0
      ∨ version.workspaceKind ≠ expectedWorkspaceKind
      ∨ version.frozenDisplayName = [] ∨ version.key ∈ eligible then
    .error (.invalidHit "invalid or duplicate eligible v2 evidence version")
  else .ok (eligible.insert version.key)

def EvidenceMedia.isValid (media : EvidenceMedia) (displayName : Text) : Bool :=
  decide (media.imageArtifactRevisionId ≠ 0)
    && decide (media.objectRef = "objects/".toList ++ media.sha256)
    && isSha256 media.sha256
    && decide (media.mediaType ∈ mediaTypes)
    && decide (0 < media.width)
    && decide (0 < media.height)
    && decide (media.frozenDocumentDisplayName = displayName)
    && media.boundingRegion.all JsonValue.isObject

def EvidenceHit.mediaValid (hit : EvidenceHit) : Bool :=
  match hit.sourceType, hit.media with
  | .imageOcr, some media => media.isValid hit.frozenDocumentDisplayName
  | .imageOcr, none => false
  | _, none => true
  | _, some _ => false

/-- The counters and sets of the loop over the hits. -/
structure HitScan where
  identities : List (Uuid × Uuid)
  hitVersions : List (Uuid × Uuid)
  totalBytes : Nat

section Validator

variable (lib : Library) (expectedWorkspaceKind : WorkspaceKind)
  (policy : RetrievalPolicyIdentity)

/-- Hits of the exact prefix have the full score, later ones the provenance of
a reranked candidate. -/
def scoreValid (exactPrefixHitCount index : Nat) (hit : EvidenceHit) : Bool :=
  if index < exactPrefixHitCount then
    decide (hit.retrievalRawScore = fullScore) && hit.preRerankRrfRank.isNone
  else
    isUnitIntervalMillionths hit.retrievalRawScore &&
      hit.preRerankRrfRank.any fun rank => decide (rank ≠ 0)

/-- The end of a text is always a character boundary, so the source's last
offset check needs no counterpart. -/
def hitValid (eligible : List (Uuid × Uuid)) (exactPrefixHitCount : Nat)
    (identities : List (Uuid × Uuid)) (index : Nat) (hit : EvidenceHit) : Bool :=
  decide (hit.schemaVersion = schemaV3)
    && hit.mediaValid
    && decide (hit.workspaceKind = expectedWorkspaceKind)
    && decide (hit.documentId ≠ 0)
    && decide (hit.sourceChunkId ≠ 0)
    && decide (hit.productId ≠ 0)
    && decide (hit.productVersionId ≠ 0)
    && decide (hit.frozenDocumentDisplayName ≠ [])
    && decide (hit.retrievalContractVersion = contractV2)
    && decide (hit.offsetUnit = utf8ByteOffsetUnit)
    && decide (hit.chunkByteLength = byteLen hit.chunkUtf8)
    && decide (hit.chunkByteLength ≤ policy.maxChunkBytes)
    && decide (hit.chunkSha256 = lib.sha256Hex hit.chunkUtf8)
    && decide (hit.quoteStartOffset = 0)
    && decide (hit.quoteEndOffset = byteLen hit.chunkUtf8)
    && decide (hit.retrievalRank = asU32 index + 1)
    && scoreValid exactPrefixHitCount index hit
    && decide (hit.key ∈ eligible)
    && decide (hit.identity ∉ identities)

def validateHit (eligible : List (Uuid × Uuid)) (exactPrefixHitCount : Nat) (scan : HitScan)
    (entry : EvidenceHit × Nat) : Except RetrievalError HitScan :=
  match checkedAdd 64 scan.totalBytes (byteLen entry.1.chunkUtf8) with
  | none => .error (.invalidHit "v2 hit byte quota overflow")
  | some totalBytes =>
      if hitValid lib expectedWorkspaceKind policy eligible exactPrefixHitCount
          scan.identities entry.2 entry.1 = false then
        .error (.invalidHit
          "v2 evidence scope, source, bytes, digest, offset, rank, score, or identity is invalid")
      else .ok {
        identities := scan.identities.insert entry.1.identity
        hitVersions :=
          if entry.2 < exactPrefixHitCount then scan.hitVersions.insert entry.1.key
          else scan.hitVersions
        totalBytes := totalBytes }

/-- `>` on optional ranks: an absent rank is below every other. -/
def optionGreater : Option Nat -> Option Nat -> Bool
  | some left, some right => decide (right < left)
  | some _, none => true
  | none, _ => false

def incorrectlyOrdered (previous hit : EvidenceHit) : Bool :=
  decide (previous.retrievalRawScore < hit.retrievalRawScore) ||
    (decide (previous.retrievalRawScore = hit.retrievalRawScore) &&
      optionGreater previous.preRerankRrfRank hit.preRerankRrfRank)

/-- The ranks seen in the semantic suffix, and its previous hit. -/
structure SuffixScan where
  semanticRrfRanks : List Nat
  previous : Option EvidenceHit

def validateSemantic (scan : SuffixScan) (hit : EvidenceHit) :
    Except RetrievalError SuffixScan := do
  let rrfRank ← require (.panicked "semantic provenance was validated above")
    hit.preRerankRrfRank
  reject (rrfRank ∈ scan.semanticRrfRanks)
    (.invalidHit "duplicate v2 semantic pre-rerank rank")
  reject (scan.previous.any (fun previous => incorrectlyOrdered previous hit) = true)
    (.invalidHit "v2 semantic suffix violates the rerank total order")
  return ⟨scan.semanticRrfRanks.insert rrfRank, some hit⟩

def validateEvidenceBatchV3 (batch : EvidenceBatch) : Except RetrievalError Unit := do
  reject (batch.schemaVersion ≠ schemaV3 ∨ policy.contractVersion ≠ contractV2
      ∨ policy.maxHits = 0 ∨ policy.maxChunkBytes = 0 ∨ policy.maxTotalBytes = 0
      ∨ policy.maxHits < batch.hits.length
      ∨ batch.hits.length < batch.exactPrefixHitCount)
    (.invalidHit "invalid v2 evidence schema, contract, scope, quota, or metric")
  let eligible ← batch.eligibleVersions.foldlM (validateVersion expectedWorkspaceKind) []
  reject (eligible.length - policy.maxHits < batch.exactVersionsTruncated
      ∨ batch.exactHitsTruncated < batch.exactVersionsTruncated
      ∨ (batch.exactPrefixHitCount = 0
          ∧ (batch.exactVersionsTruncated ≠ 0 ∨ batch.exactHitsTruncated ≠ 0))
      ∨ (0 < batch.exactVersionsTruncated
          ∧ batch.exactPrefixHitCount ≠ policy.maxHits))
    (.invalidHit "inconsistent v2 exact truncation metrics")
  let scan ← batch.hits.zipIdx.foldlM
    (validateHit lib expectedWorkspaceKind policy eligible batch.exactPrefixHitCount)
    ⟨[], [], 0⟩
  let _ ← (batch.hits.drop batch.exactPrefixHitCount).foldlM validateSemantic ⟨[], none⟩
  reject (policy.maxTotalBytes < scan.totalBytes)
    (.invalidHit "returned v2 hit byte quota exceeded")
  reject (0 < batch.exactVersionsTruncated ∧ scan.hitVersions.length ≠ policy.maxHits)
    (.invalidHit "v2 truncated exact versions require a complete distinct primary prefix")

end Validator

/-!
# Assembling a batch

`retrieve_v2`: validate the request, scan for exact matches, select the exact
prefix, append the reranked semantic tail, attach the media of image hits and
validate the batch.  The registry of policies, the embedding and rerank
providers are parameters of the adapter.
-/

/-!
## Hits
-/

def exactCandidateHitV2 (lib : Library) (workspaceKind : WorkspaceKind)
    (candidate : ExactCandidate) (index : Nat) : EvidenceHit where
  schemaVersion := schemaV3
  documentId := candidate.documentId
  sourceChunkId := candidate.sourceChunkId
  productId := candidate.productId
  productVersionId := candidate.productVersionId
  workspaceKind := workspaceKind
  frozenDocumentDisplayName := candidate.frozenDocumentDisplayName
  chunkUtf8 := candidate.chunkUtf8
  chunkSha256 := lib.sha256Hex candidate.chunkUtf8
  chunkByteLength := candidate.byteLength
  quoteStartOffset := 0
  quoteEndOffset := candidate.byteLength
  offsetUnit := utf8ByteOffsetUnit
  retrievalRank := asU32 index + 1
  retrievalRawScore := fullScore
  preRerankRrfRank := none
  retrievalContractVersion := contractV2
  sourceType := candidate.sourceType
  media := none

def semanticCandidateHitV2 (workspaceKind : WorkspaceKind) (reranked : RerankedCandidate)
    (index : Nat) : EvidenceHit where
  schemaVersion := schemaV3
  documentId := reranked.candidate.documentId
  sourceChunkId := reranked.candidate.sourceChunkId
  productId := reranked.candidate.productId
  productVersionId := reranked.candidate.productVersionId
  workspaceKind := workspaceKind
  frozenDocumentDisplayName := reranked.candidate.frozenDocumentDisplayName
  chunkUtf8 := reranked.candidate.chunkUtf8
  chunkSha256 := reranked.candidate.chunkSha256
  chunkByteLength := reranked.candidate.chunkByteLength
  quoteStartOffset := 0
  quoteEndOffset := reranked.candidate.chunkByteLength
  offsetUnit := utf8ByteOffsetUnit
  retrievalRank := asU32 index + 1
  retrievalRawScore := fixedScore reranked.scoreMillionths
  preRerankRrfRank := some reranked.candidate.preRerankRrfRank
  retrievalContractVersion := contractV2
  sourceType := reranked.candidate.sourceType
  media := none

/-- The hits, their bytes and the candidates left out, while the tail is appended. -/
structure Tail where
  hits : List EvidenceHit
  totalBytes : Nat
  truncated : Nat

/-- `u64::saturating_add`. -/
def saturatingAdd (a b : Nat) : Nat :=
  min (a + b) (2 ^ 64 - 1)

def tailEligible (policy : RetrievalPolicyIdentity) (tail : Tail)
    (candidate : SemanticCandidate) : Bool :=
  decide (tail.hits.length < policy.maxHits)
    && decide (candidate.chunkByteLength ≤ policy.maxChunkBytes)
    && (checkedAdd 64 tail.totalBytes candidate.chunkByteLength).any
      fun required => decide (required ≤ policy.maxTotalBytes)

def appendReranked (workspaceKind : WorkspaceKind) (policy : RetrievalPolicyIdentity)
    (tail : Tail) (reranked : RerankedCandidate) : Tail :=
  if tailEligible policy tail reranked.candidate then
    { tail with
      hits := tail.hits ++ [semanticCandidateHitV2 workspaceKind reranked tail.hits.length]
      totalBytes := tail.totalBytes + reranked.candidate.chunkByteLength }
  else { tail with truncated := saturatingAdd tail.truncated 1 }

def appendSemanticTailV2 (hits : List EvidenceHit) (reranked : List RerankedCandidate)
    (workspaceKind : WorkspaceKind) (policy : RetrievalPolicyIdentity) : Tail :=
  reranked.foldl (appendReranked workspaceKind policy)
    ⟨hits, (hits.map EvidenceHit.chunkByteLength).sum, 0⟩

/-!
## Media
-/

namespace Snapshot

/-- The available image linked to a chunk. -/
def mediaRow (s : Snapshot) (chunkId : Uuid) : Option EvidenceMedia := do
  let link ← s.imageLinks.lookup chunkId
  let media ← s.imageArtifacts.lookup link.imageArtifactRevisionId
  if media.productVersionId = link.productVersionId ∧ media.documentId = link.documentId
      ∧ media.objectRef = link.objectRef ∧ media.contentSha256 = link.contentSha256
      ∧ media.mediaType = link.mediaType
      ∧ ⟨media.objectRef, media.contentSha256, media.mediaType⟩ ∈ s.availableObjects then
    some {
      imageArtifactRevisionId := link.imageArtifactRevisionId
      objectRef := media.objectRef
      sha256 := media.contentSha256
      mediaType := media.mediaType
      width := media.width.toNat
      height := media.height.toNat
      pageOrdinal := media.pageOrdinal.bind fun value =>
        if 0 ≤ value then some value.toNat else none
      boundingRegion := media.boundingRegion
      frozenDocumentDisplayName := [] }
  else none

end Snapshot

def hydrateHit (s : Snapshot) (hit : EvidenceHit) : Except RetrievalError EvidenceHit :=
  match hit.sourceType with
  | .imageOcr => do
      let value ← require (.unavailable "image OCR hit lacks immutable media mapping")
        (s.mediaRow hit.sourceChunkId)
      return { hit with
        media := some { value with
          frozenDocumentDisplayName := hit.frozenDocumentDisplayName } }
  | _ => .ok { hit with media := none }

def hydrateEvidenceMediaV3 (s : Snapshot) (hits : List EvidenceHit) :
    Except RetrievalError (List EvidenceHit) :=
  if hits.all fun hit => decide (hit.sourceType ≠ .imageOcr) then .ok hits
  else hits.mapM (hydrateHit s)

/-!
## Retrieval
-/

/-- The embedding and rerank providers, as far as their answers are decoded. -/
structure Runtime where
  embed : Text -> RetrievalPolicy -> Except RetrievalError Text
  rerank : Text -> List SemanticCandidate -> RetrievalPolicy -> RerankRevision ->
    Except RetrievalError RerankResponse

structure Adapter where
  semanticRuntimeV2 : Option Runtime
  allowExactOnlyV2ContractTests : Bool
  supportedPolicyV2 : RetrievalPolicyIdentity ->
    Except RetrievalError (RetrievalPolicy × RerankRevision)

section Retrieve

variable (lib : Library) (adapter : Adapter) (s : Snapshot) (kind : WorkspaceKind)
  (request : Request)

/-- The semantic part of a request, with the hits of the exact prefix. -/
def retrieveSemantic (policy : RetrievalPolicy) (revision : RerankRevision)
    (eligible : List (Uuid × Uuid)) (hits : List EvidenceHit) :
    Except RetrievalError (List EvidenceHit × Nat) :=
  if eligible = [] ∨ request.policy.maxHits ≤ hits.length then .ok (hits, 0)
  else
    match adapter.semanticRuntimeV2 with
    | none =>
        if adapter.allowExactOnlyV2ContractTests then .ok (hits, 0)
        else .error (.invalidRequest
          "complete knowledge-evidence-v2 semantic runtime is not configured")
    | some runtime => do
        let queryEmbedding ← runtime.embed request.requirementText policy
        let candidates ← recallInSnapshot lib s kind request.selectedVersions
          request.requirementText policy queryEmbedding
        if candidates = [] then .ok (hits, 0)
        else do
          let response ← runtime.rerank request.requirementText candidates policy revision
          let reranked ← applyResponse lib response candidates policy revision
          let tail := appendSemanticTailV2 hits reranked kind request.policy
          return (tail.hits, saturatingAdd 0 tail.truncated)

def eligibleVersion (key : Uuid × Uuid) : EligibleVersion where
  productId := key.1
  productVersionId := key.2
  workspaceKind := kind
  frozenDisplayName := uuidToString key.2

/-- The batch before it is validated. -/
def assembleBatchV2 : Except RetrievalError EvidenceBatch := do
  validateRequestV2 lib request
  let (policy, revision) ← adapter.supportedPolicyV2 request.policy
  let scan ← scanRows lib (normalizeExactV2 lib request.requirementText)
    (s.scopeRows kind request.selectedVersions)
  let eligible := sortBy compareKeys scan.eligible
  reject (request.selectedVersions ≠ []
      ∧ sameIds (eligible.map Prod.snd) request.selectedVersions = false)
    (.invalidRequest "selected versions are not the exact current eligible workspace scope")
  let selection ← selectExactPrefixV2 scan.candidates request.policy
  let hits := selection.hits.zipIdx.map fun entry =>
    exactCandidateHitV2 lib kind entry.1 entry.2
  reject (2 ^ 32 ≤ hits.length)
    (.invalidHit "v2 exact prefix length cannot be represented")
  let (hits, semanticHitsTruncated) ←
    retrieveSemantic lib adapter s kind request policy revision eligible hits
  let hits ← hydrateEvidenceMediaV3 s hits
  return {
    schemaVersion := schemaV3
    eligibleVersions := eligible.map (eligibleVersion kind)
    hits := hits
    exactPrefixHitCount := selection.hits.length
    exactVersionsTruncated := selection.exactVersionsTruncated
    exactHitsTruncated := selection.exactHitsTruncated
    semanticHitsTruncated := semanticHitsTruncated }

def retrieveV2 : Except RetrievalError EvidenceBatch := do
  let batch ← assembleBatchV2 lib adapter s kind request
  validateEvidenceBatchV3 lib kind request.policy batch
  return batch

end Retrieve

end Retrieval
end KnowledgeBrain
