import KnowledgeBrain.SemanticIndex.Protocol

/-!
# A snapshot determines its sources

With a digest that never collides, the snapshot of a version is as good as the
list of its live chunks: their ids, and for each the digest of its header and
content.
-/

namespace KnowledgeBrain
namespace SemanticIndex

open Foundation
open Workflow (Uuid Chunk Document)
open Chunker (Text)
open Retrieval (uuidToString RetrievalError)

section

/-- A UUID has 128 bits. -/
def IsUuid (id : Uuid) : Prop :=
  id < 16 ^ 32

instance (id : Uuid) : Decidable (IsUuid id) :=
  inferInstanceAs (Decidable (id < 16 ^ 32))

/-- What is assumed of SHA-256: no collisions, and a text without line feeds. -/
structure Collisionless (sha256 : Text -> Text) : Prop where
  injective : Function.Injective sha256
  oneLine : forall t, '\n' ∉ sha256 t

theorem length_uuidToString (id : Uuid) : (uuidToString id).length = 36 := by
  simp [uuidToString]

theorem groups_eq (digits : List Char) :
    digits.take 8 ++ ((digits.drop 8).take 4 ++ ((digits.drop 12).take 4 ++
      ((digits.drop 16).take 4 ++ digits.drop 20))) = digits := by
  have hjoin : forall n m, (digits.drop n).take m ++ digits.drop (n + m) = digits.drop n := by
    intro n m
    rw [← List.drop_drop]
    exact List.take_append_drop m (digits.drop n)
  rw [hjoin 16 4, hjoin 12 4, hjoin 8 4]
  exact List.take_append_drop 8 digits

theorem uuidToString_injective {a b : Uuid} (ha : IsUuid a) (hb : IsUuid b)
    (heq : uuidToString a = uuidToString b) : a = b := by
  apply fixedDigits_injective (Nat.le_refl 16) ha hb
  simp only [uuidToString, List.append_assoc] at heq
  obtain ⟨h8, heq⟩ := List.append_inj heq (by simp)
  obtain ⟨h12, heq⟩ := List.append_inj (List.append_cancel_left heq) (by simp)
  obtain ⟨h16, heq⟩ := List.append_inj (List.append_cancel_left heq) (by simp)
  obtain ⟨h20, heq⟩ := List.append_inj (List.append_cancel_left heq) (by simp)
  have h32 := List.append_cancel_left heq
  rw [← groups_eq (fixedDigits 16 32 a), h8, h12, h16, h20, h32, groups_eq]

/-- A text up to a line feed that it does not hold. -/
theorem line_injective {a b r r' : Text} (ha : '\n' ∉ a) (hb : '\n' ∉ b)
    (heq : a ++ '\n' :: r = b ++ '\n' :: r') : a = b ∧ r = r' := by
  induction a generalizing b with
  | nil =>
      cases b with
      | nil =>
          rw [List.nil_append, List.nil_append, List.cons.injEq] at heq
          exact ⟨rfl, heq.2⟩
      | cons c b =>
          rw [List.nil_append, List.cons_append, List.cons.injEq] at heq
          exact absurd (List.mem_cons.mpr (Or.inl heq.1)) hb
  | cons c a ih =>
      cases b with
      | nil =>
          rw [List.nil_append, List.cons_append, List.cons.injEq] at heq
          exact absurd (List.mem_cons.mpr (Or.inl heq.1.symm)) ha
      | cons c' b =>
          rw [List.cons_append, List.cons_append, List.cons.injEq] at heq
          obtain ⟨hab, hr⟩ := ih (fun h => ha (List.mem_cons_of_mem c h))
            (fun h => hb (List.mem_cons_of_mem c' h)) heq.2
          rw [heq.1, hab]
          exact ⟨rfl, hr⟩

/-- The inputs a snapshot is taken of: UUIDs with digests on one line. -/
def WellFormed (inputs : List (Uuid × Text)) : Prop :=
  forall input, input ∈ inputs -> IsUuid input.1 ∧ '\n' ∉ input.2

theorem WellFormed.tail {input : Uuid × Text} {inputs : List (Uuid × Text)}
    (h : WellFormed (input :: inputs)) : WellFormed inputs :=
  fun input' hmem => h input' (List.mem_cons_of_mem input hmem)

theorem sourceLine_append_injective {a b : Uuid × Text} {r r' : Text}
    (ha : IsUuid a.1 ∧ '\n' ∉ a.2) (hb : IsUuid b.1 ∧ '\n' ∉ b.2)
    (heq : sourceLine a ++ r = sourceLine b ++ r') : a = b ∧ r = r' := by
  obtain ⟨id, digest⟩ := a
  obtain ⟨id', digest'⟩ := b
  simp only [sourceLine, List.append_assoc, List.cons_append, List.nil_append] at heq
  have hlength : (uuidToString id).length = (uuidToString id').length := by
    rw [length_uuidToString, length_uuidToString]
  obtain ⟨hid, hrest⟩ := List.append_inj heq hlength
  rw [List.cons.injEq] at hrest
  obtain ⟨hdigest, hr⟩ := line_injective ha.2 hb.2 hrest.2
  have hsame : id = id' := uuidToString_injective ha.1 hb.1 hid
  exact ⟨Prod.ext hsame hdigest, hr⟩

theorem sourceLine_ne_nil (input : Uuid × Text) (r : Text) : sourceLine input ++ r ≠ [] := by
  simp [sourceLine]

theorem flatMap_sourceLine_injective {inputs inputs' : List (Uuid × Text)}
    (h : WellFormed inputs) (h' : WellFormed inputs')
    (heq : inputs.flatMap sourceLine = inputs'.flatMap sourceLine) : inputs = inputs' := by
  induction inputs generalizing inputs' with
  | nil =>
      cases inputs' with
      | nil => rfl
      | cons input' inputs' => exact absurd heq.symm (sourceLine_ne_nil input' _)
  | cons input inputs ih =>
      cases inputs' with
      | nil => exact absurd heq (sourceLine_ne_nil input _)
      | cons input' inputs' =>
          rw [List.flatMap_cons, List.flatMap_cons] at heq
          obtain ⟨hsame, hrest⟩ := sourceLine_append_injective
            (h input List.mem_cons_self) (h' input' List.mem_cons_self) heq
          rw [hsame, ih h.tail h'.tail hrest]

variable {sha256 : Text -> Text}

theorem sourceSnapshotSha256_injective (hsha : Collisionless sha256) {revision : Text}
    {inputs inputs' : List (Uuid × Text)} (h : WellFormed inputs) (h' : WellFormed inputs')
    (heq : sourceSnapshotSha256 sha256 revision inputs =
      sourceSnapshotSha256 sha256 revision inputs') : inputs = inputs' := by
  have htext := List.append_cancel_left (hsha.injective heq)
  rw [List.cons.injEq] at htext
  exact flatMap_sourceLine_injective h h' htext.2

/-!
# Digests of known texts

A digest given on finitely many texts extends to one without collisions: the
other texts are spelled out, and marked as no digest is.
-/

def spellOut (t : Text) : Text :=
  t.flatMap fun c => fixedDigits 10 7 c.toNat

def tabledSha256 (known : List (Text × Text)) (t : Text) : Text :=
  (known.lookup t).getD ('x' :: spellOut t)

theorem toNat_lt (c : Char) : c.toNat < 10 ^ 7 := by
  have hvalid := c.valid
  have hbound : c.toNat < 1114112 := by
    rcases hvalid with hlow | hhigh
    · exact Nat.lt_trans hlow (by decide)
    · exact hhigh.2
  exact Nat.lt_trans hbound (by decide)

theorem spellOut_injective : Function.Injective spellOut := by
  intro a b heq
  induction a generalizing b with
  | nil =>
      cases b with
      | nil => rfl
      | cons c b => simp [spellOut, fixedDigits] at heq
  | cons c a ih =>
      cases b with
      | nil => simp [spellOut, fixedDigits] at heq
      | cons c' b =>
          simp only [spellOut, List.flatMap_cons] at heq
          obtain ⟨hdigits, hrest⟩ := List.append_inj heq (by simp)
          have hnat : c.toNat = c'.toNat :=
            fixedDigits_injective (by decide) (toNat_lt c) (toNat_lt c') hdigits
          rw [Char.toNat_inj.mp hnat, ih hrest]

theorem newline_not_mem_spellOut (t : Text) : '\n' ∉ spellOut t := by
  intro hmem
  obtain ⟨c, _, hdigit⟩ := List.mem_flatMap.mp hmem
  have hisDigit := isDigit_of_mem_fixedDigits hdigit
  revert hisDigit
  decide

theorem tabledSha256_cases (known : List (Text × Text)) (t : Text) :
    (t, tabledSha256 known t) ∈ known ∨ tabledSha256 known t = 'x' :: spellOut t := by
  unfold tabledSha256
  cases hlookup : known.lookup t with
  | none => exact Or.inr rfl
  | some digest =>
      obtain ⟨before, after, hrows, _⟩ := List.lookup_eq_some_iff.mp hlookup
      rw [hrows]
      exact Or.inl (by simp)

/-- Distinct known digests, none of them marked and each on one line. -/
theorem collisionless_tabledSha256 {known : List (Text × Text)}
    (hdistinct : (known.map Prod.snd).Nodup)
    (hform : forall row, row ∈ known -> row.2.head? ≠ some 'x' ∧ '\n' ∉ row.2) :
    Collisionless (tabledSha256 known) := by
  refine ⟨?_, ?_⟩
  · intro a b heq
    rcases tabledSha256_cases known a with ha | ha
    · rcases tabledSha256_cases known b with hb | hb
      · rw [heq] at ha
        exact congrArg Prod.fst (List.inj_on_of_nodup_map hdistinct ha hb rfl)
      · have hhead := (hform _ ha).1
        rw [heq, hb] at hhead
        exact absurd rfl hhead
    · rcases tabledSha256_cases known b with hb | hb
      · have hhead := (hform _ hb).1
        rw [← heq, ha] at hhead
        exact absurd rfl hhead
      · rw [ha, hb, List.cons.injEq] at heq
        exact spellOut_injective heq.2
  · intro t
    rcases tabledSha256_cases known t with ht | ht
    · exact (hform _ ht).2
    · rw [ht, List.mem_cons]
      rintro (hx | hmem)
      · exact absurd hx (by decide)
      · exact newline_not_mem_spellOut t hmem

end

/-!
# What a search checks before it answers

A recall joins the generation rows with the completed intents, one marker for
each version, and then compares every live chunk with its sidecar rows.  It
answers only if all of them agree.
-/

namespace Store

/-- The intent publishes the generation of the version. -/
def publishes (version : Uuid) (g : Generation) (intent : Intent) : Bool :=
  intent.productVersionId == version &&
    intent.embeddingRevisionSha256 == g.embeddingRevisionSha256 &&
    intent.sourceSnapshotSha256 == g.sourceSnapshotSha256 &&
    intent.generationMarkerSha256 == some g.sourceSnapshotSha256 &&
    intent.status == .completed

/-- The rows of the marker query for one version: one for each completed intent. -/
def markersOf (s : Store) (version : Uuid) : List (Uuid × Generation) :=
  match s.vectorGenerations.lookup version with
  | none => []
  | some g =>
      if s.keywordGenerations.lookup version = some g ∧ s.pendingDerived version = false then
        (s.intents.rows.filter fun row => publishes version g row.2).map fun _ => (version, g)
      else []

def markerRows (s : Store) (eligible : List Uuid) : List (Uuid × Generation) :=
  eligible.flatMap s.markersOf

/-- The live chunks of the eligible versions in the order of their ids. -/
def sidecars (s : Store) (eligible : List Uuid) : List (Uuid × Chunk) :=
  sortBy (fun a b => compare a.1 b.1)
    (s.chunks.rows.filter fun row =>
      eligible.contains row.2.productVersionId &&
        s.liveSource row.2.productVersionId row.1 row.2)

section Digests

variable (sha256 : Text -> Text)

def keywordOk (s : Store) (id : Uuid) (c : Chunk) : Bool :=
  (s.keywordRows.lookup id).any fun row =>
    row.indexedContent == c.content.toList &&
      row.indexedContentSha256 == sha256 c.content.toList

def vectorOk (s : Store) (revision snapshot : Text) (id : Uuid) (c : Chunk) : Bool :=
  (s.vectorRows.lookup (id, revision)).any fun row =>
    row.productVersionId == c.productVersionId &&
      row.indexedContentSha256 == inputDigest sha256 c &&
      row.sourceSnapshotSha256 == snapshot

def checkSidecar (s : Store) (revision : Text) (markers : List (Uuid × Generation))
    (row : Uuid × Chunk) : Except RetrievalError Unit :=
  match markers.lookup row.2.productVersionId with
  | none => throw (.unavailable "missing complete V2 vector generation")
  | some marker =>
      reject
        (s.keywordOk sha256 row.1 row.2 = false ∨
          s.vectorOk sha256 revision marker.sourceSnapshotSha256 row.1 row.2 = false)
        (.unavailable "missing or stale V2 semantic sidecar")

def staleGeneration (marker : Generation) (count : Nat) (snapshot : Text) : String :=
  "missing or stale V2 vector generation (marker_count=" ++ toString marker.chunkCount ++
    ", input_count=" ++ toString count ++ ", marker_snapshot=" ++
    String.ofList marker.sourceSnapshotSha256 ++ ", computed_snapshot=" ++
    String.ofList snapshot ++ ")"

def checkGeneration (revision : Text) (markers : List (Uuid × Generation))
    (rows : List (Uuid × Chunk)) (version : Uuid) : Except RetrievalError Unit :=
  match markers.lookup version with
  | none => throw (.unavailable "missing complete V2 vector generation")
  | some marker =>
      let inputs := (rows.filter fun row => row.2.productVersionId == version).map fun row =>
        (row.1, inputDigest sha256 row.2)
      let snapshot := sourceSnapshotSha256 sha256 marker.embeddingRevisionSha256 inputs
      reject
        (marker.embeddingRevisionSha256 ≠ revision ∨ marker.chunkCount ≠ inputs.length ∨
          marker.sourceSnapshotSha256 ≠ snapshot)
        (.unavailable (staleGeneration marker inputs.length snapshot))

/-- The freshness checks of `recall_in_snapshot` for a policy's embedding revision. -/
def checkFreshness (s : Store) (revision : Text) (eligible : List Uuid) :
    Except RetrievalError Unit := do
  reject ((eligible.all fun version => s.bindings.lookup version == some revision) = false)
    (.invalidRequest "eligible version embedding binding is missing or mismatched")
  let markers := s.markerRows eligible
  reject (markers.length ≠ eligible.length)
    (.unavailable "missing complete V2 vector generation")
  let rows := s.sidecars eligible
  rows.forM (s.checkSidecar sha256 revision markers)
  eligible.forM (checkGeneration sha256 revision markers rows)

/-- `prepare` answers for the version that its index is ready. -/
def Ready (s : Store) (version : Uuid) (revision : Text) : Prop :=
  exists newId id intent s', s.prepare sha256 newId version = .ok (.ready id intent, s') ∧
    intent.embeddingRevisionSha256 = revision

end Digests

/-!
# Changes of the sources
-/

/-- Delete chunks; their sidecar rows and image links go with them. -/
def deleteChunks (s : Store) (p : Uuid -> Chunk -> Bool) : Store :=
  let gone id := (s.chunks.lookup id).any (p id)
  { s with
    chunks := s.chunks.filter fun id c => !p id c
    imageLinks := s.imageLinks.filter fun id => !gone id
    keywordRows := s.keywordRows.filter fun id _ => !gone id
    vectorRows := s.vectorRows.filter fun key _ => !gone key.1 }

/-- One insertion of `persist_wiki_changes_atomic`. -/
def insertWikiChunk (s : Store) (row : Uuid × Chunk) : Except IndexError Store := do
  reject (s.chunks.contains row.1 = true) (.constraint "knowledge_chunks_pkey")
  match s.documents.lookup row.2.documentId with
  | none => throw (.constraint "knowledge_chunks.generation")
  | some d =>
      return { s with
        chunks := s.chunks.insertNew row.1 { row.2 with generation := d.attempt } }

def isChangedPage (version : Uuid) (changedSlugs : List String) (c : Chunk) : Bool :=
  c.productVersionId == version && c.chunkType == "wiki_page" &&
    changedSlugs.contains c.contextHeader

/-- The chunk statements of `persist_wiki_changes_atomic`. -/
def persistWikiChunks (version : Uuid) (changedSlugs : List String)
    (chunks : List (Uuid × Chunk)) (s : Store) : Except IndexError Store :=
  chunks.foldlM insertWikiChunk
    (s.deleteChunks fun _ c => isChangedPage version changedSlugs c)

end Store

/-!
# The system

The store, the chunk ids ever handed out, and the snapshots that vector
rebuilds have frozen and may still publish.
-/

structure World where
  store : Store
  usedIds : List Uuid
  frozen : List FrozenSnapshot

inductive Change where
  | documents (documents : Table Uuid Document)
  | versions (versions : Table Uuid Bool)
  | bindings (bindings : Table Uuid Text) (revisions : Table Text SupportState)
  | imageLinks (links : List Uuid)
  | insertChunk (id : Uuid) (c : Chunk)
  | deleteChunks (ids : List Uuid)
  | persistWiki (version : Uuid) (changedSlugs : List String) (chunks : List (Uuid × Chunk))
  | freeze (version : Uuid) (expected : Option (Text × Text))
  /-- A transaction of the index itself. -/
  | transaction (e : Event)

section Digests

variable (sha256 : Text -> Text)

/-- The snapshots in flight after a freeze. -/
def freezeFrom (s : Store) (version : Uuid) (expected : Option (Text × Text))
    (frozen : List FrozenSnapshot) : List FrozenSnapshot :=
  match s.freezeVectorIndexSnapshot sha256 version expected with
  | .ok snapshot => snapshot :: frozen
  | .error _ => frozen

def change : Change -> World -> World
  | .documents documents, w => { w with store := { w.store with documents := documents } }
  | .versions versions, w => { w with store := { w.store with versions := versions } }
  | .bindings bindings revisions, w =>
      { w with store := { w.store with bindings := bindings, revisions := revisions } }
  | .imageLinks links, w => { w with store := { w.store with imageLinks := links } }
  | .insertChunk id c, w =>
      { w with
        store := { w.store with chunks := w.store.chunks.insertNew id c }
        usedIds := id :: w.usedIds }
  | .deleteChunks ids, w =>
      { w with store := w.store.deleteChunks fun id _ => ids.contains id }
  | .persistWiki version changedSlugs chunks, w =>
      { w with
        store := commit w.store (w.store.persistWikiChunks version changedSlugs chunks)
        usedIds := chunks.map Prod.fst ++ w.usedIds }
  | .freeze version expected, w =>
      { w with frozen := freezeFrom sha256 w.store version expected w.frozen }
  | .transaction e, w => { w with store := step sha256 e w.store }

/-- What the system is promised: chunks are inserted under fresh ids, a wiki job
under its own, and a vector rebuild publishes what it froze. -/
def Permitted : Change -> World -> Prop
  | .insertChunk id _, w => IsUuid id ∧ id ∉ w.usedIds
  | .persistWiki _ _ chunks, _ => forall row, row ∈ chunks -> IsUuid row.1
  | .transaction (.sourceChange _), _ => False
  | .transaction (.publishVectorIndexes frozen), w => frozen ∈ w.frozen
  | _, _ => True

/-- A system that has neither chunks nor an index yet. -/
structure World.Fresh (w : World) : Prop where
  chunks : w.store.chunks = Table.empty
  intents : w.store.intents = Table.empty
  keywordRows : w.store.keywordRows = Table.empty
  vectorRows : w.store.vectorRows = Table.empty
  keywordGenerations : w.store.keywordGenerations = Table.empty
  vectorGenerations : w.store.vectorGenerations = Table.empty
  usedIds : w.usedIds = []
  frozen : w.frozen = []

/-- Versions that `prepare` calls ready pass every check of a search. -/
def ReadyIsSearchable (s : Store) : Prop :=
  forall (revision : Text) (eligible : List Uuid), eligible.Nodup ->
    (forall version, version ∈ eligible -> s.Ready sha256 version revision) ->
    s.checkFreshness sha256 revision eligible = .ok ()

end Digests

end SemanticIndex
end KnowledgeBrain
