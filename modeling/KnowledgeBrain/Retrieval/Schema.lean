import KnowledgeBrain.Workflow.Schema
import KnowledgeBrain.Foundation.Sorting
import KnowledgeBrain.Foundation.Digits
import KnowledgeBrain.Chunker.Text
import Mathlib.Data.Rat.Floor

/-!
# The retrieval snapshot

The tables one evidence request reads in its repeatable-read transaction, the
frozen policies and the errors.  A join along a foreign key is a lookup by
primary key.  What the source takes from libraries and from the index tables
is a parameter: lower-casing, digests, decimal and UUID parsing, the freshness
of the index and the two rank channels.
-/

namespace KnowledgeBrain
namespace Retrieval

open Foundation
open Chunker (Text byteLen contains isWhitespace)
open Workflow (Uuid Time ParseStatus EnableStatus WikiStatus)

/-!
# Errors
-/

/-- `KnowledgeRetrievalError`, and the panic of an `expect`. -/
inductive RetrievalError where
  | invalidRequest (message : String)
  | unavailable (message : String)
  | policyRevoked (message : String)
  | digestMismatch (message : String)
  | quotaExceeded (message : String)
  | invalidHit (message : String)
  | panicked (message : String)
deriving DecidableEq

/-- `u64::checked_add` and its narrower and wider siblings. -/
def checkedAdd (bits a b : Nat) : Option Nat :=
  if a + b < 2 ^ bits then some (a + b) else none

def checkedMul (bits a b : Nat) : Option Nat :=
  if a * b < 2 ^ bits then some (a * b) else none

/-- `as u32`. -/
def asU32 (n : Nat) : Nat :=
  n % 2 ^ 32

/-!
# Enumerations and values
-/

inductive WorkspaceKind where
  | productLine
  | company
deriving DecidableEq

inductive ProductKind where
  | product
  | library
deriving DecidableEq

/-- Product lines hold products, companies hold libraries. -/
def ProductKind.fits : ProductKind -> WorkspaceKind -> Bool
  | product, .productLine => true
  | library, .company => true
  | _, _ => false

/-- `KnowledgeSourceTypeV2`. -/
inductive SourceType where
  | text
  | parentText
  | imageOcr
deriving DecidableEq

/-- The `chunk_type` column; only the signal types are told apart. -/
inductive ChunkType where
  | text
  | parentText
  | imageOcr
  | question
  | summary
  | imageCaption
  | graphNode
  | wikiPage
  | other (name : String)
deriving DecidableEq

namespace ChunkType

def sourceType : ChunkType -> Option SourceType
  | text => some .text
  | parentText => some .parentText
  | imageOcr => some .imageOcr
  | _ => none

def isTrusted : ChunkType -> Bool
  | text | parentText | imageOcr => true
  | _ => false

/-- `SIGNAL_TYPES`. -/
def isSignal : ChunkType -> Bool
  | other _ => false
  | _ => true

theorem sourceType_imageOcr {t : ChunkType}
    (htype : t.sourceType = some .imageOcr) : t = .imageOcr := by
  cases t <;> simp_all [sourceType]

end ChunkType

/-- `serde_json::Value`; a number is the text it prints as. -/
inductive JsonValue where
  | null
  | bool (value : Bool)
  | number (text : Text)
  | string (text : Text)
  | array (items : List JsonValue)
  | object (fields : List (Text × JsonValue))

namespace JsonValue

def isObject : JsonValue -> Bool
  | object _ => true
  | _ => false

def asNumber : JsonValue -> Option Text
  | number text => some text
  | _ => none

end JsonValue

/-- A lower-case hexadecimal digit. -/
def isHexDigit (c : Char) : Bool :=
  c.isDigit || ('a' ≤ c && c ≤ 'f')

def isSha256 (value : Text) : Bool :=
  byteLen value == 64 && value.all isHexDigit

/-- The hyphenated form of a UUID. -/
def uuidToString (id : Uuid) : Text :=
  let digits := fixedDigits 16 32 id
  digits.take 8 ++ ['-'] ++ (digits.drop 8).take 4 ++ ['-'] ++ (digits.drop 12).take 4 ++
    ['-'] ++ (digits.drop 16).take 4 ++ ['-'] ++ digits.drop 20

/-!
# Policies
-/

/-- `RetrievalPolicyIdentityV1`. -/
structure RetrievalPolicyIdentity where
  contractVersion : Text
  policySha256 : Text
  maxHits : Nat
  maxChunkBytes : Nat
  maxTotalBytes : Nat
deriving DecidableEq

structure KeywordPolicy where
  tokenizer : Text
  tokenizerVersion : Text
  topK : Nat
  thresholdMillionths : Nat
deriving DecidableEq

structure EmbeddingPolicy where
  modelRevisionSha256 : Text
  topK : Nat
  thresholdMillionths : Nat
deriving DecidableEq

structure RrfPolicy where
  k : Nat
  keywordWeightMillionths : Nat
  vectorWeightMillionths : Nat
deriving DecidableEq

structure RerankPolicy where
  revisionSha256 : Text
  modelRevisionSha256 : Text
  configRevisionSha256 : Text
  topK : Nat
deriving DecidableEq

/-- The parts of `RetrievalPolicyV2` that recall and reranking read. -/
structure RetrievalPolicy where
  keyword : KeywordPolicy
  embedding : EmbeddingPolicy
  rrf : RrfPolicy
  rerank : RerankPolicy
deriving DecidableEq

/-- `RerankRevisionV2`, with the digest of its canonical bytes. -/
structure RerankRevision where
  sha256 : Option Text
  providerModelRevisionSha256 : Text
  configRevisionSha256 : Text
deriving DecidableEq

/-!
# Rows
-/

structure WorkspaceRow where
  kind : WorkspaceKind
deriving DecidableEq

structure ProductRow where
  workspaceId : Uuid
  kind : ProductKind
deriving DecidableEq

structure VersionRow where
  productId : Uuid
deriving DecidableEq

structure DocumentRow where
  productVersionId : Uuid
  fileName : Text
  parseStatus : ParseStatus
  enableStatus : EnableStatus
  indexReady : Bool
  activeGeneration : Nat
  deletedAt : Option Time
deriving DecidableEq

/-- The documents every retrieval query is confined to. -/
def DocumentRow.isLive (d : DocumentRow) : Bool :=
  d.deletedAt.isNone && !d.parseStatus.isTerminal &&
    decide (d.enableStatus = .enabled) && d.indexReady

structure ChunkRow where
  productVersionId : Uuid
  documentId : Uuid
  generation : Nat
  chunkType : ChunkType
  content : Text
  contextHeader : Text
  parentChunkId : Option Uuid
deriving DecidableEq

structure ImageLinkRow where
  productVersionId : Uuid
  documentId : Uuid
  imageArtifactRevisionId : Uuid
  objectRef : Text
  contentSha256 : Text
  mediaType : Text
deriving DecidableEq

def mediaTypes : List Text :=
  ["image/png".toList, "image/jpeg".toList, "image/webp".toList]

/-- A row of `knowledge_image_artifact_revisions` with the table's checks. -/
structure ImageArtifactRow where
  productVersionId : Uuid
  documentId : Uuid
  objectRef : Text
  contentSha256 : Text
  mediaType : Text
  width : Int
  height : Int
  pageOrdinal : Option Int
  boundingRegion : Option JsonValue
  sha256_check : isSha256 contentSha256 = true
  objectRef_check : objectRef = "objects/".toList ++ contentSha256
  mediaType_check : mediaType ∈ mediaTypes
  width_check : 0 < width
  height_check : 0 < height
  boundingRegion_check : boundingRegion.all JsonValue.isObject = true

structure AvailableObject where
  objectRef : Text
  contentSha256 : Text
  mediaType : Text
deriving DecidableEq

/-- The primary key of `knowledge_graph_nodes`. -/
structure GraphNodeKey where
  productVersionId : Uuid
  documentId : Uuid
  name : Text
  generation : Nat
deriving DecidableEq

structure WikiPageRow where
  content : Text
  status : WikiStatus
  deletedAt : Option Time
  chunkRefs : JsonValue

/-!
# The snapshot
-/

/-- What the index tables answer: whether they are fresh for the eligible
versions, and the ranks of the two channels. -/
structure SearchIndex where
  freshness : List Uuid -> RetrievalPolicy -> Except RetrievalError Unit
  keywordRanks : WorkspaceKind -> List Uuid -> Text -> RetrievalPolicy ->
    Except RetrievalError (Table Uuid Nat)
  vectorRanks : WorkspaceKind -> List Uuid -> Text -> RetrievalPolicy ->
    Except RetrievalError (Table Uuid Nat)

structure Snapshot where
  workspaces : Table Uuid WorkspaceRow
  products : Table Uuid ProductRow
  versions : Table Uuid VersionRow
  documents : Table Uuid DocumentRow
  chunks : Table Uuid ChunkRow
  imageLinks : Table Uuid ImageLinkRow
  imageArtifacts : Table Uuid ImageArtifactRow
  availableObjects : List AvailableObject
  graphNodes : Table GraphNodeKey (List (Option Uuid))
  wikiPages : Table (Uuid × Text) WikiPageRow
  index : SearchIndex

/-- Functions of the libraries: `char::to_lowercase`, the hexadecimal SHA-256
digest, `Decimal::from_str` and `Uuid::parse_str`. -/
structure Library where
  toLowercase : Char -> Text
  sha256Hex : Text -> Text
  decimalFromStr : Text -> Option Rat
  parseUuid : Text -> Option Uuid

namespace Snapshot

/-- Image text counts only when an image is linked to it. -/
def isLinked (s : Snapshot) (id : Uuid) (c : ChunkRow) : Bool :=
  decide (c.chunkType ≠ .imageOcr) || s.imageLinks.contains id

end Snapshot

/-!
# The exact prefix

Requests, the scan of every trusted chunk in scope for the normalised
requirement, and the selection of the exact hits within the quotas.
-/

def contractV2 : Text := "knowledge-evidence-v2".toList

def schemaV1 : Nat := 1

def maxHitsV2 : Nat := 1000000

def maxChunkBytesV2 : Nat := 1073741824

def maxTotalBytesV2 : Nat := 1099511627776

def normalizeExactV2 (lib : Library) (value : Text) : Text :=
  (value.filter fun c => !isWhitespace c).flatMap lib.toLowercase

/-- An evidence request of either scope. -/
structure Request where
  schemaVersion : Nat
  requirementIdentitySha256 : Text
  requirementText : Text
  selectedVersions : List Uuid
  policy : RetrievalPolicyIdentity
deriving DecidableEq

def validateRequestV2 (lib : Library) (request : Request) : Except RetrievalError Unit :=
  let selectedVersionIds := request.selectedVersions.dedup
  if request.schemaVersion ≠ schemaV1
      ∨ request.policy.contractVersion ≠ contractV2
      ∨ isSha256 request.requirementIdentitySha256 = false
      ∨ isSha256 request.policy.policySha256 = false
      ∨ normalizeExactV2 lib request.requirementText = []
      ∨ request.policy.maxHits = 0
      ∨ maxHitsV2 < request.policy.maxHits
      ∨ request.policy.maxChunkBytes = 0
      ∨ maxChunkBytesV2 < request.policy.maxChunkBytes
      ∨ request.policy.maxTotalBytes = 0
      ∨ maxTotalBytesV2 < request.policy.maxTotalBytes
      ∨ selectedVersionIds.length ≠ request.selectedVersions.length
      ∨ 0 ∈ selectedVersionIds then
    .error (.invalidRequest "invalid v2 evidence scope, policy, or quota")
  else .ok ()

/-!
# The scope query
-/

/-- SQL's order of a nullable column: absent values last. -/
def compareNullable : Option Nat -> Option Nat -> Ordering
  | some left, some right => compare left right
  | some _, none => .lt
  | none, some _ => .gt
  | none, none => .eq

def compareKeys : Uuid × Uuid -> Uuid × Uuid -> Ordering :=
  compareLex (compareOn Prod.fst) (compareOn Prod.snd)

/-- One row of the scope query; the joins to documents and chunks are outer. -/
structure ScopeRow where
  productId : Uuid
  productVersionId : Uuid
  document : Option (Uuid × DocumentRow)
  chunk : Option (Uuid × ChunkRow)

def compareRows (left right : ScopeRow) : Ordering :=
  (compareKeys (left.productId, left.productVersionId)
    (right.productId, right.productVersionId)).then
  ((compareNullable (left.document.map Prod.fst) (right.document.map Prod.fst)).then
    (compareNullable (left.chunk.map Prod.fst) (right.chunk.map Prod.fst)))

namespace Snapshot

variable (s : Snapshot) (kind : WorkspaceKind) (selected : List Uuid)

/-- The product of a selected version that belongs to the workspace kind. -/
def eligibleKey (row : Uuid × VersionRow) : Option (Uuid × Uuid) := do
  let p ← s.products.lookup row.2.productId
  let w ← s.workspaces.lookup p.workspaceId
  if w.kind = kind ∧ p.kind.fits kind = true ∧ row.1 ∈ selected then
    some (row.2.productId, row.1)
  else none

def eligibleRows : List (Uuid × Uuid) :=
  sortBy compareKeys (s.versions.rows.filterMap (s.eligibleKey kind selected))

def liveDocuments (versionId : Uuid) : List (Uuid × DocumentRow) :=
  s.documents.rows.filter fun row =>
    decide (row.2.productVersionId = versionId) && row.2.isLive

def trustedChunks (versionId : Uuid) (d : Uuid × DocumentRow) : List (Uuid × ChunkRow) :=
  s.chunks.rows.filter fun row =>
    decide (row.2.documentId = d.1) && decide (row.2.productVersionId = versionId) &&
      decide (row.2.generation = d.2.activeGeneration) && row.2.chunkType.isTrusted &&
      s.isLinked row.1 row.2

def documentRows (key : Uuid × Uuid) (d : Uuid × DocumentRow) : List ScopeRow :=
  match s.trustedChunks key.2 d with
  | [] => [⟨key.1, key.2, some d, none⟩]
  | chunks => chunks.map fun c => ⟨key.1, key.2, some d, some c⟩

def versionRows (key : Uuid × Uuid) : List ScopeRow :=
  match s.liveDocuments key.2 with
  | [] => [⟨key.1, key.2, none, none⟩]
  | documents => documents.flatMap (s.documentRows key)

def scopeRows : List ScopeRow :=
  sortBy compareRows
    ((s.versions.rows.filterMap (s.eligibleKey kind selected)).flatMap s.versionRows)

end Snapshot

/-!
# The exact scan
-/

structure ExactCandidate where
  documentId : Uuid
  sourceChunkId : Uuid
  productId : Uuid
  productVersionId : Uuid
  frozenDocumentDisplayName : Text
  chunkUtf8 : Text
  sourceType : SourceType
deriving DecidableEq

namespace ExactCandidate

def byteLength (c : ExactCandidate) : Nat :=
  byteLen c.chunkUtf8

def key (c : ExactCandidate) : Uuid × Uuid :=
  (c.productId, c.productVersionId)

end ExactCandidate

/-- What the loop over the rows collects. -/
structure Scan where
  eligible : List (Uuid × Uuid)
  candidates : List ExactCandidate

/-- `eligible_versions.entry(..).or_insert_with(..)`. -/
def Scan.enter (scan : Scan) (key : Uuid × Uuid) : Scan :=
  { scan with eligible := scan.eligible.insert key }

def scanRow (lib : Library) (requirement : Text) (scan : Scan) (row : ScopeRow) :
    Except RetrievalError Scan :=
  let scan := scan.enter (row.productId, row.productVersionId)
  match row.chunk with
  | none => .ok scan
  | some (sourceChunkId, c) =>
      match row.document with
      | none =>
          .error (.unavailable "v2 retrieval query returned a partial hit projection")
      | some (documentId, d) =>
          if contains (normalizeExactV2 lib c.content) requirement = false then .ok scan
          else
            match c.chunkType.sourceType with
            | none =>
                .error (.unavailable "v2 retrieval query returned an untrusted source type")
            | some sourceType =>
                .ok { scan with
                  candidates := scan.candidates ++
                    [{ documentId := documentId
                       sourceChunkId := sourceChunkId
                       productId := row.productId
                       productVersionId := row.productVersionId
                       frozenDocumentDisplayName := d.fileName
                       chunkUtf8 := c.content
                       sourceType := sourceType }] }

def scanRows (lib : Library) (requirement : Text) (rows : List ScopeRow) :
    Except RetrievalError Scan :=
  rows.foldlM (scanRow lib requirement) ⟨[], []⟩

/-!
# Selection
-/

def comparePrimaryV2 : ExactCandidate -> ExactCandidate -> Ordering :=
  compareLex (compareOn ExactCandidate.byteLength)
    (compareLex (compareOn ExactCandidate.documentId)
      (compareOn ExactCandidate.sourceChunkId))

def compareBV2 : ExactCandidate -> ExactCandidate -> Ordering :=
  compareLex (compareOn ExactCandidate.productId)
    (compareLex (compareOn ExactCandidate.productVersionId) comparePrimaryV2)

structure ExactSelection where
  hits : List ExactCandidate
  exactVersionsTruncated : Nat
  exactHitsTruncated : Nat
deriving DecidableEq

/-- The keys of `by_version`, in order. -/
def versionKeys (candidates : List ExactCandidate) : List (Uuid × Uuid) :=
  sortBy compareKeys (candidates.map ExactCandidate.key).dedup

def versionGroup (candidates : List ExactCandidate) (key : Uuid × Uuid) :
    List ExactCandidate :=
  sortBy comparePrimaryV2 (candidates.filter fun c => decide (c.key = key))

/-- The hits chosen so far and their bytes. -/
structure ExactPick where
  hits : List ExactCandidate
  chosenBytes : Nat

def takePrimary (policy : RetrievalPolicyIdentity) (pick : ExactPick)
    (versionCandidates : List ExactCandidate) : Except RetrievalError ExactPick :=
  match versionCandidates with
  | [] => .error (.panicked "an exact-bearing version has a candidate")
  | primary :: _ =>
      if policy.maxChunkBytes < primary.byteLength then
        .error (.quotaExceeded ("exact primary chunk " ++
          String.ofList (uuidToString primary.sourceChunkId) ++ " exceeds max_chunk_bytes"))
      else
        match checkedAdd 64 pick.chosenBytes primary.byteLength with
        | none => .error (.quotaExceeded "exact primary prefix byte length overflow")
        | some chosenBytes =>
            if policy.maxTotalBytes < chosenBytes then
              .error (.quotaExceeded "exact primary prefix exceeds max_total_bytes")
            else .ok ⟨pick.hits ++ [primary], chosenBytes⟩

def fillExact (policy : RetrievalPolicyIdentity) (pick : ExactPick)
    (candidate : ExactCandidate) : ExactPick :=
  if policy.maxHits ≤ pick.hits.length ∨ policy.maxChunkBytes < candidate.byteLength then pick
  else
    match checkedAdd 64 pick.chosenBytes candidate.byteLength with
    | none => pick
    | some nextBytes =>
        if policy.maxTotalBytes < nextBytes then pick
        else ⟨pick.hits ++ [candidate], nextBytes⟩

/-- The candidates of every version that are no primary, in the order of the fill. -/
def remainingExact (candidates : List ExactCandidate) (primaries : List ExactCandidate) :
    List ExactCandidate :=
  sortBy compareBV2
    (((versionKeys candidates).flatMap (versionGroup candidates)).filter fun c =>
      decide (c.sourceChunkId ∉ primaries.map ExactCandidate.sourceChunkId))

def selectExactPrefixV2 (candidates : List ExactCandidate)
    (policy : RetrievalPolicyIdentity) : Except RetrievalError ExactSelection := do
  let byVersion := (versionKeys candidates).map (versionGroup candidates)
  let primaries ← (byVersion.take policy.maxHits).foldlM (takePrimary policy) ⟨[], 0⟩
  let chosen := (remainingExact candidates primaries.hits).foldl (fillExact policy) primaries
  return {
    hits := chosen.hits
    exactVersionsTruncated := byVersion.length - policy.maxHits
    exactHitsTruncated := candidates.length - chosen.hits.length }

end Retrieval
end KnowledgeBrain
