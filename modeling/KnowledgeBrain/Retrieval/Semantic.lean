import KnowledgeBrain.Retrieval.Schema
import Mathlib.Data.Nat.GCD.Basic

/-!
# Exact rank fusion

Reciprocal ranks are added as reduced fractions over 128-bit integers and
compared by their continued fractions, so that no product can overflow.  A
fraction carries the proof that its denominator is positive, and the descent
hands that proof on to the remainders it divides by next.
-/

namespace KnowledgeBrain
namespace Retrieval

open Foundation
open Chunker (Text byteLen contains)
open Workflow (Uuid)

/-- The error of a checked step that has no value. -/
def require {A : Type} (error : RetrievalError) : Option A -> Except RetrievalError A
  | some a => .ok a
  | none => .error error

def integrity (message : String) : RetrievalError :=
  .unavailable message

/-!
# Greatest common divisors
-/

def gcdLoop (left right : Nat) : Nat :=
  if _hzero : right = 0 then left else gcdLoop right (left % right)
termination_by right
decreasing_by exact Nat.mod_lt _ (Nat.pos_of_ne_zero _hzero)

def gcd (left right : Nat) : Nat :=
  max (gcdLoop left right) 1

theorem gcdLoop_eq (left right : Nat) : gcdLoop left right = Nat.gcd right left := by
  induction left, right using gcdLoop.induct with
  | case1 left =>
      rw [gcdLoop]
      simp
  | case2 left right hzero ih =>
      rw [gcdLoop, dif_neg hzero, ih, Nat.gcd_rec right left]

theorem gcd_dvd {left right : Nat} (hpos : 0 < right) : gcd left right ∣ right := by
  have hgcd : 0 < Nat.gcd right left := Nat.gcd_pos_of_pos_left left hpos
  rw [gcd, gcdLoop_eq, max_eq_left hgcd]
  exact Nat.gcd_dvd_left right left

/-!
# Fractions
-/

structure ExactRational where
  numerator : Nat
  denominator : Nat
  denominator_pos : 0 < denominator
deriving DecidableEq

def million : Nat := 1000000

namespace ExactRational

/-- Reduction to lowest terms. -/
def reduce (numerator denominator : Nat) (hpos : 0 < denominator) : ExactRational where
  numerator := numerator / gcd numerator denominator
  denominator := denominator / gcd numerator denominator
  denominator_pos :=
    Nat.div_pos (Nat.le_of_dvd hpos (gcd_dvd hpos))
      (Nat.lt_of_lt_of_le Nat.zero_lt_one (Nat.le_max_right _ 1))

def new (numerator denominator : Nat) : Except RetrievalError ExactRational :=
  if hzero : denominator = 0 then .error (integrity "zero RRF denominator")
  else .ok (reduce numerator denominator (Nat.pos_of_ne_zero hzero))

def channel (weightMillionths k rank : Nat) : Except RetrievalError ExactRational := do
  let rankDenominator ←
    require (integrity "RRF rank denominator overflow") (checkedAdd 128 k rank)
  let denominator ←
    require (integrity "RRF weight denominator overflow")
      (checkedMul 128 million rankDenominator)
  new weightMillionths denominator

def add (a b : ExactRational) : Except RetrievalError ExactRational := do
  let left ←
    require (integrity "RRF numerator overflow") (checkedMul 128 a.numerator b.denominator)
  let right ←
    require (integrity "RRF numerator overflow") (checkedMul 128 b.numerator a.denominator)
  let numerator ← require (integrity "RRF numerator overflow") (checkedAdd 128 left right)
  let denominator ←
    require (integrity "RRF denominator overflow")
      (checkedMul 128 a.denominator b.denominator)
  new numerator denominator

end ExactRational

/-!
# Comparison
-/

def oriented (inverted : Bool) (ordering : Ordering) : Ordering :=
  if inverted then ordering.swap else ordering

def compareFractionsWithoutProducts (leftNumerator leftDenominator rightNumerator
    rightDenominator : Nat) (_hleft : 0 < leftDenominator) (_hright : 0 < rightDenominator)
    (inverted : Bool) : Ordering :=
  if leftNumerator / leftDenominator ≠ rightNumerator / rightDenominator then
    oriented inverted
      (compare (leftNumerator / leftDenominator) (rightNumerator / rightDenominator))
  else if hrest : leftNumerator % leftDenominator = 0 ∨ rightNumerator % rightDenominator = 0 then
    oriented inverted
      (compare (leftNumerator % leftDenominator) (rightNumerator % rightDenominator))
  else
    compareFractionsWithoutProducts leftDenominator (leftNumerator % leftDenominator)
      rightDenominator (rightNumerator % rightDenominator)
      (Nat.pos_of_ne_zero fun h => hrest (Or.inl h))
      (Nat.pos_of_ne_zero fun h => hrest (Or.inr h)) (!inverted)
termination_by leftDenominator
decreasing_by exact Nat.mod_lt _ _hleft

def ExactRational.cmpExact (a b : ExactRational) : Ordering :=
  compareFractionsWithoutProducts a.numerator a.denominator b.numerator b.denominator
    a.denominator_pos b.denominator_pos false

/-!
# The fused score
-/

def rrfScore (policy : RetrievalPolicy) (vectorRank keywordRank : Option Nat) :
    Except RetrievalError ExactRational := do
  let vector ← vectorRank.mapM
    (ExactRational.channel policy.rrf.vectorWeightMillionths policy.rrf.k)
  let keyword ← keywordRank.mapM
    (ExactRational.channel policy.rrf.keywordWeightMillionths policy.rrf.k)
  match vector, keyword with
  | some old, some part => old.add part
  | some old, none => .ok old
  | none, some part => .ok part
  | none, none => .error (integrity "folded source has no channel rank")

/-!
# Semantic recall

Ranked signals are folded to the trusted source chunk they stand for, sources
that match the requirement exactly are left to the exact prefix, and the rest
is ranked by its fused score.  A hash map is a list of its entries in the
order it is iterated in.
-/

structure Signal where
  id : Uuid
  productId : Uuid
  versionId : Uuid
  documentId : Uuid
  chunkType : ChunkType
  contextHeader : Text
  parentChunkId : Option Uuid
deriving DecidableEq

structure Source where
  productId : Uuid
  versionId : Uuid
  documentId : Uuid
  id : Uuid
  chunkType : ChunkType
  content : Text
  fileName : Text
  contextHeader : Text
  parentChunkId : Option Uuid
deriving DecidableEq

def Source.toSignal (source : Source) : Signal where
  id := source.id
  productId := source.productId
  versionId := source.versionId
  documentId := source.documentId
  chunkType := source.chunkType
  contextHeader := source.contextHeader
  parentChunkId := source.parentChunkId

def findSignal (signals : List Signal) (id : Uuid) : Option Signal :=
  signals.find? fun signal => decide (signal.id = id)

def findSource (sources : List Source) (id : Uuid) : Option Source :=
  sources.find? fun source => decide (source.id = id)

/-!
# Loading
-/

namespace Snapshot

variable (lib : Library) (s : Snapshot) (kind : WorkspaceKind) (versions : List Uuid)

/-- A live chunk of an accepted type, joined up to its workspace. -/
def joinedChunk (accept : ChunkType -> Bool) (row : Uuid × ChunkRow) : Option Source := do
  let d ← s.documents.lookup row.2.documentId
  let v ← s.versions.lookup row.2.productVersionId
  let p ← s.products.lookup v.productId
  let w ← s.workspaces.lookup p.workspaceId
  if d.productVersionId = row.2.productVersionId ∧ w.kind = kind
      ∧ row.2.productVersionId ∈ versions ∧ d.isLive = true
      ∧ row.2.generation = d.activeGeneration ∧ accept row.2.chunkType = true
      ∧ s.isLinked row.1 row.2 = true then
    some {
      productId := v.productId
      versionId := row.2.productVersionId
      documentId := row.2.documentId
      id := row.1
      chunkType := row.2.chunkType
      content := row.2.content
      fileName := d.fileName
      contextHeader := row.2.contextHeader
      parentChunkId := row.2.parentChunkId }
  else none

def loadSignals : List Signal :=
  (s.chunks.rows.filterMap (s.joinedChunk kind versions ChunkType.isSignal)).map
    Source.toSignal

def loadSources : List Source :=
  s.chunks.rows.filterMap (s.joinedChunk kind versions ChunkType.isTrusted)

/-- The graph node a signal is about. -/
def graphRow (id : Uuid) : Option (Uuid × List (Option Uuid)) := do
  let c ← s.chunks.lookup id
  let chunkIds ← s.graphNodes.lookup
    ⟨c.productVersionId, c.documentId, c.contextHeader, c.generation⟩
  if c.content = c.contextHeader then some (id, chunkIds) else none

def loadGraphRefs (signals : List Signal) (active : List Uuid) :
    Except RetrievalError (List (Uuid × List Uuid)) :=
  let ids := active.filter fun id =>
    (findSignal signals id).any fun signal => decide (signal.chunkType = .graphNode)
  (ids.filterMap s.graphRow).mapM fun row => do
    let parsed ← row.2.mapM (require (integrity "graph chunk_ids contains NULL"))
    return (row.1, parsed)

/-- The published wiki page a signal is about. -/
def wikiRow (id : Uuid) : Option (Uuid × JsonValue) := do
  let c ← s.chunks.lookup id
  let page ← s.wikiPages.lookup (c.productVersionId, c.contextHeader)
  if c.content = page.content ∧ page.status = .published ∧ page.deletedAt = none then
    some (id, page.chunkRefs)
  else none

def parseWikiRef (item : JsonValue) : Except RetrievalError Uuid :=
  match item with
  | .string text =>
      require (integrity "wiki chunk_refs contains an invalid UUID") (lib.parseUuid text)
  | _ => .error (integrity "wiki chunk_refs contains a non-string")

def parseWikiRefs (value : JsonValue) : Except RetrievalError (List Uuid) :=
  match value with
  | .array items => items.mapM (parseWikiRef lib)
  | _ => .error (integrity "wiki chunk_refs is not an array")

def loadWikiRefs (signals : List Signal) (active : List Uuid) :
    Except RetrievalError (List (Uuid × List Uuid)) :=
  let ids := active.filter fun id =>
    (findSignal signals id).any fun signal => decide (signal.chunkType = .wikiPage)
  (ids.filterMap s.wikiRow).mapM fun row => do
    let parsed ← parseWikiRefs lib row.2
    return (row.1, parsed)

end Snapshot

/-!
# Folding signals to sources
-/

/-- The source ids a signal points at. -/
def signalTargets (signal : Signal) (sources : List Source)
    (graphRefs wikiRefs : List (Uuid × List Uuid)) : List Uuid :=
  match signal.chunkType with
  | .text | .parentText | .imageOcr => [signal.id]
  | .question | .summary => signal.parentChunkId.toList
  | .imageCaption =>
      if signal.contextHeader = [] then []
      else
        (sources.filter fun source =>
          decide (source.chunkType = .imageOcr)
            && decide (source.versionId = signal.versionId)
            && decide (source.documentId = signal.documentId)
            && decide (source.contextHeader = signal.contextHeader)
            && decide (source.parentChunkId = signal.parentChunkId)).map Source.id
  | .graphNode => (graphRefs.lookup signal.id).getD []
  | .wikiPage => (wikiRefs.lookup signal.id).getD []
  | .other _ => []

def foldSignal (signal : Signal) (signals : List Signal) (sources : List Source)
    (graphRefs wikiRefs : List (Uuid × List Uuid)) : Except RetrievalError (Option Uuid) :=
  match signalTargets signal sources graphRefs wikiRefs with
  | [id] =>
      match findSource sources id with
      | none => .ok none
      | some source =>
          if source.versionId ≠ signal.versionId ∨ source.documentId ≠ signal.documentId
              ∨ source.productId ≠ signal.productId then .ok none
          else if (signal.chunkType = .question ∨ signal.chunkType = .summary)
              ∧ findSignal signals signal.id = none then
            .error (integrity "derived signal missing")
          else .ok (some id)
  | _ => .ok none

structure FoldedRanks where
  vectorRank : Option Nat
  keywordRank : Option Nat
deriving DecidableEq

/-- The smaller of an old and a new rank, where there is a new one. -/
def improve (old new : Option Nat) : Option Nat :=
  match new with
  | none => old
  | some rank => some (old.elim rank fun best => min best rank)

def FoldedRanks.improve (ranks : FoldedRanks) (vectorRank keywordRank : Option Nat) :
    FoldedRanks where
  vectorRank := Retrieval.improve ranks.vectorRank vectorRank
  keywordRank := Retrieval.improve ranks.keywordRank keywordRank

/-- What the folding loop reads. -/
structure RecallScope where
  signals : List Signal
  sources : List Source
  keywordRanks : Table Uuid Nat
  vectorRanks : Table Uuid Nat
  graphRefs : List (Uuid × List Uuid)
  wikiRefs : List (Uuid × List Uuid)
  exactSourceChunkIds : List Uuid

def foldActive (scope : RecallScope) (folded : Table Uuid FoldedRanks) (signalId : Uuid) :
    Except RetrievalError (Table Uuid FoldedRanks) := do
  let signal ← require (integrity "ranked signal left snapshot scope")
    (findSignal scope.signals signalId)
  match ← foldSignal signal scope.signals scope.sources scope.graphRefs scope.wikiRefs with
  | none => return folded
  | some sourceId =>
      if sourceId ∈ scope.exactSourceChunkIds then return folded
      else
        let vectorRank := scope.vectorRanks.lookup signalId
        let keywordRank := scope.keywordRanks.lookup signalId
        return folded.upsert sourceId
          (FoldedRanks.improve ⟨none, none⟩ vectorRank keywordRank)
          (fun ranks => ranks.improve vectorRank keywordRank)

/-!
# Candidates
-/

structure SemanticCandidate where
  documentId : Uuid
  sourceChunkId : Uuid
  productId : Uuid
  productVersionId : Uuid
  frozenDocumentDisplayName : Text
  chunkUtf8 : Text
  chunkSha256 : Text
  chunkByteLength : Nat
  sourceType : SourceType
  vectorRank : Option Nat
  keywordRank : Option Nat
  exactRrfScore : ExactRational
  preRerankRrfRank : Nat
deriving DecidableEq

def semanticCandidate (lib : Library) (policy : RetrievalPolicy) (sources : List Source)
    (entry : Uuid × FoldedRanks) : Except RetrievalError SemanticCandidate := do
  let source ← require (integrity "folded source left snapshot scope")
    (findSource sources entry.1)
  let score ← rrfScore policy entry.2.vectorRank entry.2.keywordRank
  let sourceType ← require (integrity "folded source is not trusted")
    source.chunkType.sourceType
  return {
    documentId := source.documentId
    sourceChunkId := source.id
    productId := source.productId
    productVersionId := source.versionId
    frozenDocumentDisplayName := source.fileName
    chunkUtf8 := source.content
    chunkSha256 := lib.sha256Hex source.content
    chunkByteLength := byteLen source.content
    sourceType := sourceType
    vectorRank := entry.2.vectorRank
    keywordRank := entry.2.keywordRank
    exactRrfScore := score
    preRerankRrfRank := 0 }

def optionRank : Option Nat -> Option Nat -> Ordering :=
  compareNullable

def compareCandidates (left right : SemanticCandidate) : Ordering :=
  (right.exactRrfScore.cmpExact left.exactRrfScore).then
  ((optionRank left.vectorRank right.vectorRank).then
  ((optionRank left.keywordRank right.keywordRank).then
  ((compare left.productId right.productId).then
  ((compare left.productVersionId right.productVersionId).then
  ((compare left.documentId right.documentId).then
  (compare left.sourceChunkId right.sourceChunkId))))))

def numberCandidate (entry : SemanticCandidate × Nat) :
    Except RetrievalError SemanticCandidate :=
  if entry.2 + 1 < 2 ^ 32 then .ok { entry.1 with preRerankRrfRank := entry.2 + 1 }
  else .error (integrity "pre-rerank rank overflow")

/-- Sorting, truncation and renumbering of the folded candidates. -/
def rankCandidates (policy : RetrievalPolicy) (candidates : List SemanticCandidate) :
    Except RetrievalError (List SemanticCandidate) :=
  ((sortBy compareCandidates candidates).take policy.rerank.topK).zipIdx.mapM numberCandidate

/-- Two collections hold the same ids. -/
def sameIds (left right : List Uuid) : Bool :=
  left.all (fun id => decide (id ∈ right)) && right.all (fun id => decide (id ∈ left))

/-- The eligible version ids, as the ordered set recall keeps. -/
def Snapshot.eligibleVersionIds (s : Snapshot) (kind : WorkspaceKind)
    (selected : List Uuid) : List Uuid :=
  sortBy compare ((s.eligibleRows kind selected).map Prod.snd).dedup

/-!
# Recall

The orders in which the hash collections are iterated are parameters.
-/

/-- The orders in which the hash collections are iterated. -/
structure IterationOrder where
  signals : List Uuid -> List Uuid
  sources : List Source -> List Source
  folded : List (Uuid × FoldedRanks) -> List (Uuid × FoldedRanks)
  signals_perm : forall ids, (signals ids).Perm ids
  sources_perm : forall items, (sources items).Perm items
  folded_perm : forall rows, (folded rows).Perm rows

/-- Every collection in the order of its rows. -/
def rowOrder : IterationOrder where
  signals := id
  sources := id
  folded := id
  signals_perm _ := List.Perm.refl _
  sources_perm _ := List.Perm.refl _
  folded_perm _ := List.Perm.refl _

/-- What the folding loop reads, with the sources that match the requirement exactly. -/
def recallScope (lib : Library) (normalizedRequirement : Text) (signals : List Signal)
    (sources : List Source) (keywordRanks vectorRanks : Table Uuid Nat)
    (graphRefs wikiRefs : List (Uuid × List Uuid)) : RecallScope where
  signals := signals
  sources := sources
  keywordRanks := keywordRanks
  vectorRanks := vectorRanks
  graphRefs := graphRefs
  wikiRefs := wikiRefs
  exactSourceChunkIds :=
    (sources.filter fun source =>
      contains (normalizeExactV2 lib source.content) normalizedRequirement).map Source.id

def recallInOrder (order : IterationOrder) (lib : Library) (s : Snapshot) (kind : WorkspaceKind)
    (selectedVersions : List Uuid) (requirementText : Text) (policy : RetrievalPolicy)
    (queryEmbedding : Text) : Except RetrievalError (List SemanticCandidate) := do
  let normalizedRequirement := normalizeExactV2 lib requirementText
  reject (normalizedRequirement = [])
    (.invalidRequest "semantic requirement must not be empty or whitespace")
  let eligible := s.eligibleVersionIds kind selectedVersions
  reject (sameIds selectedVersions eligible = false)
    (.digestMismatch "selected versions differ from the frozen eligible workspace scope")
  s.index.freshness eligible policy
  let signals := s.loadSignals kind eligible
  let keywordRanks ← s.index.keywordRanks kind eligible requirementText policy
  let vectorRanks ← s.index.vectorRanks kind eligible queryEmbedding policy
  let activeSignalIds := order.signals
    (keywordRanks.rows.map Prod.fst ++ vectorRanks.rows.map Prod.fst).dedup
  let graphRefs ← s.loadGraphRefs signals activeSignalIds
  let wikiRefs ← s.loadWikiRefs lib signals activeSignalIds
  let sources := order.sources (s.loadSources kind eligible)
  let scope := recallScope lib normalizedRequirement signals sources keywordRanks vectorRanks
    graphRefs wikiRefs
  let folded ← activeSignalIds.foldlM (foldActive scope) Table.empty
  let candidates ← (order.folded folded.rows).mapM (semanticCandidate lib policy sources)
  rankCandidates policy candidates

def recallInSnapshot (lib : Library) (s : Snapshot) (kind : WorkspaceKind)
    (selectedVersions : List Uuid) (requirementText : Text) (policy : RetrievalPolicy)
    (queryEmbedding : Text) : Except RetrievalError (List SemanticCandidate) :=
  recallInOrder rowOrder lib s kind selectedVersions requirementText policy queryEmbedding

end Retrieval
end KnowledgeBrain
