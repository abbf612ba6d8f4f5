import KnowledgeBrain.Retrieval.Schema

/-!
# The semantic index tables

A product version is searchable through two sidecar tables, one keyword row
and one vector row for each live source chunk.  An intent names a frozen source
snapshot; the generation rows say which snapshot the sidecars were last built
for.  A snapshot is a digest over the live chunks, with SHA-256 a parameter.
-/

namespace KnowledgeBrain
namespace SemanticIndex

open Foundation
open Workflow (Uuid Document Chunk)
open Chunker (Text)
open Retrieval (uuidToString)

inductive SupportState where
  | supported
  | revoked
deriving DecidableEq

inductive IntentStatus where
  | pending
  | completed
  | terminal
  | superseded
deriving DecidableEq

/-- `SemanticIndexIntentV2`. -/
structure Intent where
  productVersionId : Uuid
  embeddingRevisionSha256 : Text
  sourceSnapshotSha256 : Text
  targetRevision : Nat
  status : IntentStatus
  generationMarkerSha256 : Option Text
  lastErrorCode : Option String
  lastErrorDetail : Option String
deriving DecidableEq

/-- A row of either generation table. -/
structure Generation where
  embeddingRevisionSha256 : Text
  sourceSnapshotSha256 : Text
  chunkCount : Nat
deriving DecidableEq

/-- A row of `knowledge_chunk_keyword_indexes`; the tokenizer columns are fixed. -/
structure KeywordRow where
  indexedContent : Text
  indexedContentSha256 : Text
deriving DecidableEq

/-- A row of `knowledge_chunk_vector_indexes` without its vector. -/
structure VectorRow where
  productVersionId : Uuid
  sourceSnapshotSha256 : Text
  indexedContentSha256 : Text
deriving DecidableEq

structure Store where
  /-- The product versions, with whether they are live. -/
  versions : Table Uuid Bool
  bindings : Table Uuid Text
  revisions : Table Text SupportState
  documents : Table Uuid Document
  chunks : Table Uuid Chunk
  /-- The OCR chunks linked to an image. -/
  imageLinks : List Uuid
  intents : Table Uuid Intent
  keywordRows : Table Uuid KeywordRow
  vectorRows : Table (Uuid × Text) VectorRow
  keywordGenerations : Table Uuid Generation
  vectorGenerations : Table Uuid Generation

/-!
# Live sources
-/

def signalTypes : List String :=
  ["text", "parent_text", "image_ocr", "question", "summary", "image_caption",
    "graph_node", "wiki_page"]

/-- The document columns a live source must have. -/
def documentLive (c : Chunk) (d : Document) : Bool :=
  d.productVersionId == c.productVersionId && d.deletedAt == none &&
    !d.parseStatus.isTerminal && c.generation == d.activeGeneration &&
    d.enableStatus == .enabled && d.indexReady

def isUnsettled (d : Document) : Bool :=
  d.deletedAt == none && !d.parseStatus.isTerminal &&
    (d.parseStatus.isWorking || d.pendingSubtasksCount != 0 ||
      d.summaryStatus == .pending || d.summaryStatus == .processing)

namespace Store

/-- The chunk counts as a source of the version. -/
def liveSource (s : Store) (version : Uuid) (id : Uuid) (c : Chunk) : Bool :=
  c.productVersionId == version && (s.documents.lookup c.documentId).any (documentLive c) &&
    signalTypes.contains c.chunkType &&
    (c.chunkType != "image_ocr" || s.imageLinks.contains id)

/-- The live chunks of a version in the order of their ids. -/
def liveSources (s : Store) (version : Uuid) : List (Uuid × Chunk) :=
  sortBy (fun a b => compare a.1 b.1)
    (s.chunks.rows.filter fun row => s.liveSource version row.1 row.2)

def pendingDerived (s : Store) (version : Uuid) : Bool :=
  s.documents.any fun _ d => d.productVersionId == version && isUnsettled d

/-- `lock_version`: the version exists and is live. -/
def versionLive (s : Store) (version : Uuid) : Bool :=
  s.versions.lookup version == some true

def binding (s : Store) (version : Uuid) : Option (Text × SupportState) := do
  let revision ← s.bindings.lookup version
  let state ← s.revisions.lookup revision
  return (revision, state)

def supportedBinding (s : Store) (version : Uuid) (revision : Text) : Bool :=
  s.binding version == some (revision, .supported)

theorem mem_liveSources {s : Store} {version : Uuid} {row : Uuid × Chunk} :
    row ∈ s.liveSources version <->
      s.chunks.lookup row.1 = some row.2 ∧ s.liveSource version row.1 row.2 = true := by
  obtain ⟨id, c⟩ := row
  rw [liveSources, mem_sortBy, List.mem_filter, Table.lookup_eq_some_iff_mem]

end Store

/-!
# Snapshots
-/

/-- `canonical_embedding_input_v2`. -/
def canonicalEmbeddingInput (contextHeader content : String) : Text :=
  contextHeader.toList ++ '\n' :: content.toList

/-- One line of the text a snapshot digests. -/
def sourceLine (input : Uuid × Text) : Text :=
  uuidToString input.1 ++ ':' :: (input.2 ++ ['\n'])

def sourceText (revision : Text) (inputs : List (Uuid × Text)) : Text :=
  revision ++ '\n' :: inputs.flatMap sourceLine

section Snapshots

variable (sha256 : Text -> Text)

/-- The `indexed_content_sha256` of a chunk's vector. -/
def inputDigest (c : Chunk) : Text :=
  sha256 (canonicalEmbeddingInput c.contextHeader c.content)

/-- `source_snapshot_sha256_v2`, on chunk ids and input digests. -/
def sourceSnapshotSha256 (revision : Text) (inputs : List (Uuid × Text)) : Text :=
  sha256 (sourceText revision inputs)

/-- The embedding inputs of a version. -/
def Store.inputs (s : Store) (version : Uuid) : List (Uuid × Text) :=
  (s.liveSources version).map fun row => (row.1, inputDigest sha256 row.2)

/-- `source_snapshot_v2`: the digest and the number of live chunks. -/
def Store.sourceSnapshot (s : Store) (version : Uuid) (revision : Text) : Text × Nat :=
  (sourceSnapshotSha256 sha256 revision (s.inputs sha256 version),
    (s.inputs sha256 version).length)

end Snapshots

/-!
# Intents and index publication

The transactions of the semantic index.  Each locks the row of its product
version first.  A vector rebuild calls the embedding provider in the middle:
it freezes its inputs, and compares them with the source again before it
publishes.
-/

/-- `SemanticIndexPreparationV2`, with the id of the intent. -/
inductive Preparation where
  | unbound
  | pendingDerived
  | enqueue (id : Uuid) (intent : Intent)
  | ready (id : Uuid) (intent : Intent)
  | terminal (id : Uuid) (intent : Intent)
deriving DecidableEq

/-- The answers of `preflight`. -/
inductive Preflight where
  | duplicate
  | completed
  | terminal
  | superseded
  | pendingDerived
  | current
  | notReady
deriving DecidableEq

inductive IndexError where
  | rowNotFound
  | protocol (message : String)
  | constraint (name : String)
  | invalidConfiguration (message : String)
  | pendingDerived (message : String)
  | snapshotChanged (message : String)
deriving DecidableEq

/-- The inputs a vector rebuild froze before it called the provider. -/
structure FrozenSnapshot where
  productVersionId : Uuid
  revisionSha256 : Text
  inputs : List (Uuid × Text)
  sourceSnapshotSha256 : Text
deriving DecidableEq

namespace Store

/-!
# Preparing an intent
-/

/-- A pending intent for another source or binding is superseded. -/
def supersedeIntent (version : Uuid) (revision snapshot : Text) (state : SupportState)
    (intent : Intent) : Intent :=
  if intent.productVersionId = version ∧ intent.status = .pending ∧
      (intent.embeddingRevisionSha256 ≠ revision ∨
        intent.sourceSnapshotSha256 ≠ snapshot ∨ state ≠ .supported) then
    { intent with
      status := .superseded
      lastErrorCode := some "SOURCE_GENERATION_SUPERSEDED"
      lastErrorDetail := some "a newer settled source or binding generation exists" }
  else intent

def supersede (s : Store) (version : Uuid) (revision snapshot : Text)
    (state : SupportState) : Store :=
  { s with
    intents := s.intents.mapRows fun _ intent =>
      supersedeIntent version revision snapshot state intent }

/-- The intents for one source snapshot, the latest first. -/
def intentsFor (s : Store) (version : Uuid) (revision snapshot : Text) :
    List (Uuid × Intent) :=
  sortBy (fun a b => compare b.2.targetRevision a.2.targetRevision)
    (s.intents.rows.filter fun row =>
      row.2.productVersionId == version && row.2.embeddingRevisionSha256 == revision &&
        row.2.sourceSnapshotSha256 == snapshot)

def generationsMatch (s : Store) (version : Uuid) (generation : Generation) : Bool :=
  s.keywordGenerations.lookup version == some generation &&
    s.vectorGenerations.lookup version == some generation

/-- `COALESCE(max(target_revision),0)+1`. -/
def nextTarget (s : Store) (version : Uuid) : Nat :=
  ((s.intents.rows.filter fun row => row.2.productVersionId == version).map fun row =>
    row.2.targetRevision).foldl max 0 + 1

def newIntent (s : Store) (version : Uuid) (revision snapshot : Text)
    (state : SupportState) : Intent where
  productVersionId := version
  embeddingRevisionSha256 := revision
  sourceSnapshotSha256 := snapshot
  targetRevision := s.nextTarget version
  status := if state = .supported then .pending else .terminal
  generationMarkerSha256 := none
  lastErrorCode :=
    if state = .supported then none else some "EMBEDDING_REVISION_REVOKED"
  lastErrorDetail :=
    if state = .supported then none else some "embedding revision is revoked"

def insertIntent (s : Store) (id version : Uuid) (revision snapshot : Text)
    (state : SupportState) : Except IndexError (Preparation × Store) := do
  reject (s.intents.contains id = true) (.constraint "knowledge_semantic_index_intents_pkey")
  let intent := s.newIntent version revision snapshot state
  return (if state = .supported then .enqueue id intent else .terminal id intent,
    { s with intents := s.intents.insertNew id intent })

def findStatus (intents : List (Uuid × Intent)) (status : IntentStatus) :
    Option (Uuid × Intent) :=
  intents.find? fun row => row.2.status == status

/-- The intent that already answers for the snapshot. -/
def settled (s : Store) (version : Uuid) (state : SupportState) (generation : Generation)
    (intents : List (Uuid × Intent)) : Option Preparation :=
  if state = .supported ∧ s.generationsMatch version generation = true then
    (findStatus intents .completed).map fun row => .ready row.1 row.2
  else if state ≠ .supported then
    (findStatus intents .terminal).map fun row => .terminal row.1 row.2
  else none

section Digests

variable (sha256 : Text -> Text)

def prepare (newId version : Uuid) (s : Store) : Except IndexError (Preparation × Store) := do
  reject (s.versionLive version = false) .rowNotFound
  match s.binding version with
  | none => return (.unbound, s)
  | some (revision, state) =>
      if s.pendingDerived version then
        return (.pendingDerived, s)
      else
        let (snapshot, count) := s.sourceSnapshot sha256 version revision
        let s1 := s.supersede version revision snapshot state
        let intents := s1.intentsFor version revision snapshot
        match findStatus intents .pending with
        | some row => return (.enqueue row.1 row.2, s1)
        | none =>
            match s1.settled version state ⟨revision, snapshot, count⟩ intents with
            | some answer => return (answer, s1)
            | none => s1.insertIntent newId version revision snapshot state

/-!
# Preflight and completion
-/

def withStatus (status : IntentStatus) (code detail : String) (intent : Intent) : Intent :=
  { intent with
    status := status
    lastErrorCode := some code
    lastErrorDetail := some detail }

def setStatus (s : Store) (id : Uuid) (status : IntentStatus) (code detail : String) : Store :=
  { s with intents := s.intents.modify id (withStatus status code detail) }

def completeIntent (intent : Intent) : Intent :=
  if intent.status = .pending then
    { intent with
      status := .completed
      generationMarkerSha256 := some intent.sourceSnapshotSha256
      lastErrorCode := none
      lastErrorDetail := none }
  else intent

/-- The statement that publishes an intent. -/
def markCompleted (s : Store) (id : Uuid) : Store :=
  { s with intents := s.intents.modify id completeIntent }

def statusAnswer : IntentStatus -> Preflight
  | .pending => .current
  | .completed => .completed
  | .terminal => .terminal
  | .superseded => .superseded

/-- The part of `preflight` that finds its intent pending. -/
def preflightPending (id : Uuid) (intent : Intent) (complete : Bool) (s : Store) :
    Preflight × Store :=
  let version := intent.productVersionId
  let revision := intent.embeddingRevisionSha256
  if s.versionLive version = false then
    (.superseded, s.setStatus id .superseded "SOURCE_GENERATION_SUPERSEDED"
      "product version is no longer live")
  else if s.supportedBinding version revision = false then
    (.terminal, s.setStatus id .terminal "EMBEDDING_REVISION_UNSUPPORTED"
      "embedding binding or revision is unsupported")
  else if s.pendingDerived version then (.pendingDerived, s)
  else
    let (snapshot, count) := s.sourceSnapshot sha256 version revision
    if snapshot ≠ intent.sourceSnapshotSha256 then
      (.superseded, s.setStatus id .superseded "SOURCE_GENERATION_SUPERSEDED"
        "source snapshot changed before index publication")
    else if complete = false then (.current, s)
    else if s.generationsMatch version ⟨revision, snapshot, count⟩ = false then (.notReady, s)
    else (.completed, s.markCompleted id)

def preflight (id : Uuid) (target : Nat) (complete : Bool) (s : Store) : Preflight × Store :=
  match s.intents.lookup id with
  | none => (.duplicate, s)
  | some intent =>
      if intent.targetRevision ≠ target then (.duplicate, s)
      else if complete = true ∧ intent.status = .completed then (.duplicate, s)
      else if intent.status ≠ .pending then (statusAnswer intent.status, s)
      else s.preflightPending sha256 id intent complete

/-!
# Errors of a job
-/

/-- The dispositions `record_semantic_index_error_v2` accepts. -/
def parseDisposition (status : IntentStatus) : String -> Option IntentStatus
  | "retryable" => some status
  | "terminal" => some .terminal
  | "superseded" => some .superseded
  | _ => none

def recordSemanticIndexError (id : Uuid) (target : Nat) (disposition code detail : String)
    (s : Store) : Except IndexError (Bool × Store) := do
  reject
    ((parseDisposition .pending disposition).isNone = true ∨
      code.utf8ByteSize = 0 ∨ 96 < code.utf8ByteSize ∨
      detail.utf8ByteSize = 0 ∨ 512 < detail.utf8ByteSize)
    (.protocol "invalid semantic index error disposition")
  match s.intents.lookup id with
  | none => return (false, s)
  | some intent =>
      if intent.targetRevision = target ∧ intent.status = .pending then
        let status := (parseDisposition intent.status disposition).getD intent.status
        return (true, s.setStatus id status code detail)
      else return (false, s)

/-!
# Sidecars
-/

def keywordRow (c : Chunk) : KeywordRow :=
  ⟨c.content.toList, sha256 c.content.toList⟩

/-- `rebuild_keywords`: every chunk of the version gets its keyword row. -/
def rebuildKeywords (version : Uuid) (s : Store) : Except IndexError Store := do
  reject (s.versionLive version = false) .rowNotFound
  let others := s.keywordRows.filter fun id _ =>
    !(s.chunks.lookup id).any fun c => c.productVersionId == version
  return { s with
    keywordRows := others.insertAll
      ((s.chunks.rows.filter fun row => row.2.productVersionId == version).map fun row =>
        (row.1, keywordRow sha256 row.2)) }

def setGeneration (generations : Table Uuid Generation) (version : Uuid)
    (generation : Generation) : Table Uuid Generation :=
  generations.upsert version generation fun _ => generation

def rebuildSemanticKeywords (version : Uuid) (revision snapshot : Text) (s : Store) :
    Except IndexError Store := do
  reject (s.versionLive version = false ∨ s.supportedBinding version revision = false)
    (.invalidConfiguration "semantic embedding revision is unsupported")
  reject (s.pendingDerived version = true)
    (.pendingDerived "semantic source has pending work")
  let (actual, count) := s.sourceSnapshot sha256 version revision
  reject (actual ≠ snapshot) (.snapshotChanged "semantic source snapshot changed")
  let s1 ← s.rebuildKeywords sha256 version
  return { s1 with
    keywordGenerations :=
      setGeneration s1.keywordGenerations version ⟨revision, snapshot, count⟩ }

/-- The first half of a vector rebuild, up to the call of the provider. -/
def freezeVectorIndexSnapshot (version : Uuid) (expected : Option (Text × Text)) (s : Store) :
    Except IndexError FrozenSnapshot := do
  reject (s.versionLive version = false)
    (.invalidConfiguration
      "product version has no supported immutable V2 embedding binding")
  match s.binding version with
  | some (revision, .supported) =>
      let frozen : FrozenSnapshot :=
        ⟨version, revision, s.inputs sha256 version,
          (s.sourceSnapshot sha256 version revision).1⟩
      match expected with
      | none => return frozen
      | some (expectedRevision, expectedSnapshot) =>
          reject
            (frozen.revisionSha256 ≠ expectedRevision ∨
              frozen.sourceSnapshotSha256 ≠ expectedSnapshot)
            (.snapshotChanged
              "vector source no longer matches the immutable semantic target")
          reject (s.pendingDerived version = true)
            (.pendingDerived "semantic source has pending derived work")
          return frozen
  | _ => throw (.invalidConfiguration
      "product version has no supported immutable V2 embedding binding")

/-- The vector rows of a frozen snapshot. -/
def vectorRowsOf (frozen : FrozenSnapshot) : List ((Uuid × Text) × VectorRow) :=
  frozen.inputs.map fun input =>
    ((input.1, frozen.revisionSha256),
      ⟨frozen.productVersionId, frozen.sourceSnapshotSha256, input.2⟩)

/-- The second half, after the provider has answered for every input. -/
def publishVectorIndexes (frozen : FrozenSnapshot) (s : Store) : Except IndexError Store := do
  let version := frozen.productVersionId
  reject
    (s.versionLive version = false ∨ s.supportedBinding version frozen.revisionSha256 = false)
    (.invalidConfiguration "vector binding is unsupported")
  let (actual, count) := s.sourceSnapshot sha256 version frozen.revisionSha256
  reject (actual ≠ frozen.sourceSnapshotSha256 ∨ count ≠ frozen.inputs.length)
    (.snapshotChanged "vector source snapshot changed")
  reject
    ((frozen.inputs.all fun input =>
      (s.chunks.lookup input.1).any fun c => c.productVersionId == version) = false)
    (.constraint "knowledge_chunk_vector_indexes_chunk_id_fkey")
  let others := s.vectorRows.filter fun _ row => row.productVersionId != version
  return { s with
    vectorRows := others.insertAll (vectorRowsOf frozen)
    vectorGenerations := setGeneration s.vectorGenerations version
      ⟨frozen.revisionSha256, frozen.sourceSnapshotSha256, count⟩ }

end Digests

end Store

end SemanticIndex
end KnowledgeBrain
