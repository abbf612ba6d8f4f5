import KnowledgeBrain.SemanticIndex.Coverage

/-!
# Ready means searchable, and when it does not

A search wants one completed intent for the generation it finds, and the
sidecar rows of every live chunk.  A source that returns to an earlier snapshot
completes a second intent for it; a wiki job that stores a page's chunk again
loses its sidecar rows while the snapshot stays.  Without these two, ready means
searchable.
-/

namespace KnowledgeBrain
namespace SemanticIndex

open Foundation
open Workflow (Uuid Chunk Document)
open Chunker (Text)

section Digests

variable {sha256 : Text -> Text}

/-!
# Which intents get completed
-/

namespace Store

variable {s s' : Store} {version : Uuid}

variable {i : Intent}

theorem completed_supersede {revision snapshot : Text} {state : SupportState} {id : Uuid}
    (hcompleted : i.status = .completed)
    (hlookup : (s.supersede version revision snapshot state).intents.lookup id = some i) :
    s.intents.lookup id = some i := by
  rw [supersede, Table.lookup_mapRows, Option.map_eq_some_iff] at hlookup
  obtain ⟨old, hold, heq⟩ := hlookup
  unfold supersedeIntent at heq
  split at heq
  · rw [← heq] at hcompleted
    cases hcompleted
  · rwa [← heq]

theorem completed_insertIntent {newId id : Uuid} {revision snapshot : Text} {state : SupportState}
    {answer : Preparation}
    (h : s.insertIntent newId version revision snapshot state = .ok (answer, s'))
    (hcompleted : i.status = .completed) (hlookup : s'.intents.lookup id = some i) :
    s.intents.lookup id = some i := by
  obtain ⟨_, hfresh, h⟩ := bind_eq_ok h
  cases h
  rw [Table.lookup_insertNew_eq_or] at hlookup
  cases hold : s.intents.lookup id with
  | some old =>
      rw [hold] at hlookup
      exact hlookup
  | none =>
      rw [hold, Option.none_or] at hlookup
      split at hlookup
      · cases hlookup
        rw [newIntent] at hcompleted
        split at hcompleted <;> cases hcompleted
      · cases hlookup

theorem completed_prepare {newId id : Uuid} {answer : Preparation}
    (h : s.prepare sha256 newId version = .ok (answer, s')) (hcompleted : i.status = .completed)
    (hlookup : s'.intents.lookup id = some i) : s.intents.lookup id = some i := by
  obtain ⟨_, _, h⟩ := bind_eq_ok h
  split at h
  · cases h
    exact hlookup
  split at h
  · cases h
    exact hlookup
  simp only at h
  split at h
  · cases h
    exact completed_supersede hcompleted hlookup
  split at h
  · cases h
    exact completed_supersede hcompleted hlookup
  · exact completed_supersede hcompleted (completed_insertIntent h hcompleted hlookup)

theorem completed_setStatus {id id' : Uuid} {status : IntentStatus} {code detail : String}
    (hstatus : status ≠ .completed) (hcompleted : i.status = .completed)
    (hlookup : (s.setStatus id status code detail).intents.lookup id' = some i) :
    s.intents.lookup id' = some i := by
  rcases Table.lookup_modify_cases hlookup with ⟨_, old, _, heq⟩ | ⟨_, hsame⟩
  · rw [heq] at hcompleted
    exact absurd hcompleted hstatus
  · exact hsame

/-- The only intent a preflight completes is its own, found pending. -/
theorem completed_preflight {id id' : Uuid} {target : Nat} {complete : Bool} {i' : Intent}
    (hcompleted : i'.status = .completed)
    (hlookup : (s.preflight sha256 id target complete).2.intents.lookup id' = some i') :
    s.intents.lookup id' = some i' ∨
      complete = true ∧ id' = id ∧ exists i, s.intents.lookup id = some i ∧
        i.status = .pending ∧ i' = completeIntent i := by
  unfold preflight at hlookup
  cases hown : s.intents.lookup id with
  | none =>
      rw [hown] at hlookup
      exact Or.inl hlookup
  | some i =>
      simp only [hown] at hlookup
      split at hlookup
      · exact Or.inl hlookup
      split at hlookup
      · exact Or.inl hlookup
      split at hlookup
      · exact Or.inl hlookup
      rename_i hpending
      unfold preflightPending at hlookup
      simp only at hlookup
      split at hlookup
      · exact Or.inl (completed_setStatus (by simp) hcompleted hlookup)
      split at hlookup
      · exact Or.inl (completed_setStatus (by simp) hcompleted hlookup)
      split at hlookup
      · exact Or.inl hlookup
      split at hlookup
      · exact Or.inl (completed_setStatus (by simp) hcompleted hlookup)
      split at hlookup
      · exact Or.inl hlookup
      rename_i hcomplete
      split at hlookup
      · exact Or.inl hlookup
      rcases Table.lookup_modify_cases hlookup with ⟨hid, old, hold, heq⟩ | ⟨_, hsame⟩
      · rw [hown] at hold
        cases hold
        exact Or.inr ⟨by simpa using hcomplete, hid, i, rfl, not_not.mp hpending, heq⟩
      · exact Or.inl hsame

theorem completed_recordSemanticIndexError {id id' : Uuid} {target : Nat}
    {disposition code detail : String} {updated : Bool}
    (h : s.recordSemanticIndexError id target disposition code detail = .ok (updated, s'))
    (hcompleted : i.status = .completed) (hlookup : s'.intents.lookup id' = some i) :
    s.intents.lookup id' = some i := by
  obtain ⟨_, _, h⟩ := bind_eq_ok h
  cases hown : s.intents.lookup id with
  | none =>
      rw [hown] at h
      cases h
      exact hlookup
  | some own =>
      simp only [hown] at h
      split at h
      · rename_i hcurrent
        cases h
        apply completed_setStatus ?_ hcompleted hlookup
        have hne : own.status ≠ .completed := by
          rw [hcurrent.2]
          simp
        cases hparse : parseDisposition own.status disposition with
        | none => exact hne
        | some result => exact parseDisposition_ne_completed hne hparse
      · cases h
        exact hlookup

end Store

theorem completed_commit_snd {A : Type} {s : Store} {result : Except IndexError (A × Store)}
    {id : Uuid} (h : forall a s', result = .ok (a, s') -> s'.intents.lookup id = some i ->
      s.intents.lookup id = some i)
    (hlookup : (commit s (result.map Prod.snd)).intents.lookup id = some i) :
    s.intents.lookup id = some i := by
  cases result with
  | error e => exact hlookup
  | ok value => exact h value.1 value.2 rfl hlookup

theorem completed_commit {s : Store} {result : Except IndexError Store} {id : Uuid}
    (h : forall s', result = .ok s' -> s'.intents = s.intents)
    (hlookup : (commit s result).intents.lookup id = some i) : s.intents.lookup id = some i := by
  cases result with
  | error e => exact hlookup
  | ok s' =>
      rw [← h s' rfl]
      exact hlookup

theorem completed_step {e : Event} {s : Store} {id : Uuid} {i' : Intent}
    (hcompleted : i'.status = .completed)
    (hlookup : (step sha256 e s).intents.lookup id = some i') :
    s.intents.lookup id = some i' ∨
      exists target i, e = .preflight id target true ∧ s.intents.lookup id = some i ∧
        i.status = .pending ∧ i' = Store.completeIntent i := by
  cases e with
  | sourceChange sources => exact Or.inl hlookup
  | prepare newId version =>
      exact Or.inl (completed_commit_snd
        (fun _ _ h hlookup => Store.completed_prepare h hcompleted hlookup) hlookup)
  | preflight own target complete =>
      rcases Store.completed_preflight hcompleted hlookup with hsame | ⟨hcomplete, hid, i, hi⟩
      · exact Or.inl hsame
      · subst hcomplete hid
        exact Or.inr ⟨target, i, rfl, hi⟩
  | recordSemanticIndexError own target disposition code detail =>
      exact Or.inl (completed_commit_snd
        (fun _ _ h hlookup => Store.completed_recordSemanticIndexError h hcompleted hlookup)
        hlookup)
  | rebuildKeywords version =>
      exact Or.inl (completed_commit
        (fun _ h => Store.intents_rebuildKeywords sha256 h) hlookup)
  | rebuildSemanticKeywords version revision snapshot =>
      exact Or.inl (completed_commit
        (fun _ h => Store.intents_rebuildSemanticKeywords sha256 h) hlookup)
  | publishVectorIndexes frozen =>
      exact Or.inl (completed_commit
        (fun _ h => Store.intents_publishVectorIndexes sha256 h) hlookup)

/-!
# What holds of the intents
-/

/-- Two intents for one source snapshot of a version. -/
structure Intent.SameSource (i i' : Intent) : Prop where
  version : i'.productVersionId = i.productVersionId
  revision : i'.embeddingRevisionSha256 = i.embeddingRevisionSha256
  snapshot : i'.sourceSnapshotSha256 = i.sourceSnapshotSha256

/-- A completed intent carries its marker and is alone with its source. -/
structure Distinct (s : Store) : Prop where
  marked : forall id i, s.intents.lookup id = some i -> i.status = .completed ->
    i.generationMarkerSha256 = some i.sourceSnapshotSha256
  alone : forall id id' i i', s.intents.lookup id = some i -> s.intents.lookup id' = some i' ->
    i.status = .completed -> i'.status = .completed -> i.SameSource i' -> id' = id

theorem Distinct.of_intents {s s' : Store} (h : Distinct s) (heq : s'.intents = s.intents) :
    Distinct s' := by
  refine ⟨?_, ?_⟩
  · rw [heq]
    exact h.marked
  · rw [heq]
    exact h.alone

theorem Distinct.step {s : Store} (h : Distinct s) {e : Event}
    (halone : forall id target i id' i', e = .preflight id target true ->
      s.intents.lookup id = some i -> i.status = .pending ->
      s.intents.lookup id' = some i' -> i'.status = .completed -> ¬ i.SameSource i') :
    Distinct (step sha256 e s) := by
  refine ⟨?_, ?_⟩
  · intro id i hlookup hcompleted
    rcases completed_step hcompleted hlookup with hold | ⟨_, old, _, _, hpending, heq⟩
    · exact h.marked id i hold hcompleted
    · rw [heq, Store.completeIntent, if_pos hpending]
  · intro id id' i i' hlookup hlookup' hcompleted hcompleted' hsame
    rcases completed_step hcompleted hlookup with hold | ⟨target, old, he, hown, hpending, heq⟩
    · rcases completed_step hcompleted' hlookup' with hold' | ⟨target', old', he', hown', hp', heq'⟩
      · exact h.alone id id' i i' hold hold' hcompleted hcompleted' hsame
      · rw [heq', Store.completeIntent, if_pos hp'] at hsame
        exact absurd ⟨hsame.version.symm, hsame.revision.symm, hsame.snapshot.symm⟩
          (halone id' target' old' id i he' hown' hp' hold hcompleted)
    · rcases completed_step hcompleted' hlookup' with hold' | ⟨target', old', he', hown', hp', heq'⟩
      · rw [heq, Store.completeIntent, if_pos hpending] at hsame
        exact absurd ⟨hsame.version, hsame.revision, hsame.snapshot⟩
          (halone id target old id' i' he hown hpending hold' hcompleted')
      · rw [he] at he'
        cases he'
        rfl

end Digests

section Harmless

variable (sha256 : Text -> Text)

/-- No stored chunk was part of a current generation before, and no second intent
is completed for one source. -/
def Harmless : Change -> World -> Prop
  | .persistWiki _ _ chunks, w => forall row, row ∈ chunks -> ¬ Listed sha256 w.store row
  | .transaction (.preflight id _ true), w => forall i id' i',
      w.store.intents.lookup id = some i -> i.status = .pending ->
      w.store.intents.lookup id' = some i' -> i'.status = .completed -> ¬ i.SameSource i'
  | _, _ => True

def Guarded (e : Change) (w : World) : Prop :=
  Permitted e w ∧ Harmless sha256 e w

structure Consistent (w : World) : Prop where
  covered : Covered sha256 w
  distinct : Distinct w.store

end Harmless

variable {sha256 : Text -> Text}

theorem Store.intents_insertWikiChunks {rows : List (Uuid × Chunk)} {s s' : Store}
    (hrun : rows.foldlM Store.insertWikiChunk s = .ok s') : s'.intents = s.intents := by
  apply foldlM_invariant (P := fun t : Store => t.intents = s.intents) ?_ rfl hrun
  intro t row t' ht hstep
  obtain ⟨_, _, hstep⟩ := bind_eq_ok hstep
  split at hstep
  · cases hstep
  · cases hstep
    exact ht

theorem Store.intents_persistWikiChunks {version : Uuid} {slugs : List String}
    {rows : List (Uuid × Chunk)} {s s' : Store}
    (hrun : s.persistWikiChunks version slugs rows = .ok s') : s'.intents = s.intents := by
  have hintents := Store.intents_insertWikiChunks hrun
  exact hintents

theorem consistent_change (hsha : Collisionless sha256) {w : World} (h : Consistent sha256 w)
    {e : Change} (hguard : Guarded sha256 e w) : Consistent sha256 (change sha256 e w) := by
  obtain ⟨hcovered, hdistinct⟩ := h
  obtain ⟨hpermitted, hharmless⟩ := hguard
  cases e with
  | documents documents =>
      exact ⟨hcovered.of_tables rfl rfl rfl rfl rfl, hdistinct.of_intents rfl⟩
  | versions versions =>
      exact ⟨hcovered.of_tables rfl rfl rfl rfl rfl, hdistinct.of_intents rfl⟩
  | bindings bindings revisions =>
      exact ⟨hcovered.of_tables rfl rfl rfl rfl rfl, hdistinct.of_intents rfl⟩
  | imageLinks links =>
      exact ⟨hcovered.of_tables rfl rfl rfl rfl rfl, hdistinct.of_intents rfl⟩
  | insertChunk id c =>
      exact ⟨hcovered.insertChunk c hpermitted.1 hpermitted.2, hdistinct.of_intents rfl⟩
  | deleteChunks ids => exact ⟨hcovered.deleteChunks _, hdistinct.of_intents rfl⟩
  | persistWiki version slugs rows =>
      refine ⟨hcovered.persistWiki version slugs hpermitted hharmless, ?_⟩
      apply hdistinct.of_intents
      cases hrun : w.store.persistWikiChunks version slugs rows with
      | error e =>
          simp only [change, hrun]
          rfl
      | ok s' =>
          simp only [change, hrun]
          exact Store.intents_persistWikiChunks hrun
  | freeze version expected =>
      exact ⟨hcovered.freeze hsha version expected, hdistinct.of_intents rfl⟩
  | transaction e =>
      refine ⟨hcovered.transaction hsha hpermitted, hdistinct.step ?_⟩
      intro id target i id' i' he
      subst he
      exact hharmless i id' i'

theorem consistent_of_reaches (hsha : Collisionless sha256) {start w : World}
    (hfresh : start.Fresh) (hrun : Reaches (change sha256) (Guarded sha256) start w) :
    Consistent sha256 w := by
  apply Reaches.invariant (P := Consistent sha256) ?_ ?_ hrun
  · intro e w h hguard
    exact consistent_change hsha h hguard
  · refine ⟨covered_of_fresh hfresh, ?_, ?_⟩
    · intro id i hlookup
      rw [hfresh.intents] at hlookup
      cases hlookup
    · intro id id' i i' hlookup
      rw [hfresh.intents] at hlookup
      cases hlookup

/-!
# What a ready answer says
-/

namespace Store

section Generations

variable (sha256 : Text -> Text)

/-- The generation row a version's current source calls for. -/
def currentGeneration (s : Store) (revision : Text) (version : Uuid) : Generation :=
  ⟨revision, (s.sourceSnapshot sha256 version revision).1,
    (s.sourceSnapshot sha256 version revision).2⟩

structure ReadyFacts (s : Store) (revision : Text) (version : Uuid) : Prop where
  bound : s.bindings.lookup version = some revision
  settled : s.pendingDerived version = false
  keywords : s.keywordGenerations.lookup version =
    some (s.currentGeneration sha256 revision version)
  vectors : s.vectorGenerations.lookup version =
    some (s.currentGeneration sha256 revision version)
  published : exists id i, s.intents.lookup id = some i ∧ i.status = .completed ∧
    i.productVersionId = version ∧ i.embeddingRevisionSha256 = revision ∧
    i.sourceSnapshotSha256 = (s.currentGeneration sha256 revision version).sourceSnapshotSha256

end Generations

theorem mem_intentsFor {s : Store} {version : Uuid} {revision snapshot : Text}
    {row : Uuid × Intent} (hmem : row ∈ s.intentsFor version revision snapshot) :
    s.intents.lookup row.1 = some row.2 ∧ row.2.productVersionId = version ∧
      row.2.embeddingRevisionSha256 = revision ∧ row.2.sourceSnapshotSha256 = snapshot := by
  rw [intentsFor, mem_sortBy, List.mem_filter, Bool.and_eq_true, Bool.and_eq_true, beq_iff_eq,
    beq_iff_eq, beq_iff_eq] at hmem
  exact ⟨Table.lookup_eq_some_iff_mem.mpr hmem.1, hmem.2.1.1, hmem.2.1.2, hmem.2.2⟩

theorem settled_ready {s : Store} {version : Uuid} {state : SupportState} {g : Generation}
    {intents : List (Uuid × Intent)} {id : Uuid} {i : Intent}
    (h : s.settled version state g intents = some (.ready id i)) :
    s.generationsMatch version g = true ∧ (id, i) ∈ intents ∧ i.status = .completed := by
  unfold settled at h
  split at h
  · rename_i hmatch
    obtain ⟨row, hfind, heq⟩ := Option.map_eq_some_iff.mp h
    cases heq
    refine ⟨hmatch.2, List.mem_of_find?_eq_some hfind, ?_⟩
    simpa using List.find?_some hfind
  · split at h
    · obtain ⟨row, _, heq⟩ := Option.map_eq_some_iff.mp h
      cases heq
    · cases h

theorem insertIntent_ne_ready {s s' : Store} {newId version id : Uuid} {revision snapshot : Text}
    {state : SupportState} {i : Intent} :
    s.insertIntent newId version revision snapshot state ≠ .ok (.ready id i, s') := by
  intro h
  obtain ⟨_, _, h⟩ := bind_eq_ok h
  split at h <;> cases h

theorem Ready.facts {s : Store} {version : Uuid} {revision : Text}
    (h : s.Ready sha256 version revision) : s.ReadyFacts sha256 revision version := by
  obtain ⟨newId, id, i, s', hprepare, hrevision⟩ := h
  obtain ⟨_, _, hprepare⟩ := bind_eq_ok hprepare
  split at hprepare
  · cases hprepare
  rename_i bound state hbinding
  split at hprepare
  · cases hprepare
  rename_i hsettled
  simp only at hprepare
  split at hprepare
  · cases hprepare
  split at hprepare
  · rename_i answer hanswer
    cases hprepare
    obtain ⟨hmatch, hmem, hcompleted⟩ := settled_ready hanswer
    obtain ⟨hlookup, hversion, hbound, hsnapshot⟩ := mem_intentsFor hmem
    have hsame : bound = revision := hbound.symm.trans hrevision
    subst hsame
    rw [generationsMatch, Bool.and_eq_true, beq_iff_eq, beq_iff_eq] at hmatch
    refine ⟨?_, by simpa using hsettled, hmatch.1, hmatch.2, ?_⟩
    · unfold binding at hbinding
      cases hbindings : s.bindings.lookup version with
      | none =>
          rw [hbindings] at hbinding
          cases hbinding
      | some revision' =>
          rw [hbindings] at hbinding
          cases hstate : s.revisions.lookup revision' with
          | none => simp [hstate] at hbinding
          | some state' =>
              simp only [hstate, Option.bind_eq_bind, Option.bind_some] at hbinding
              cases hbinding
              rfl
    · exact ⟨id, i, completed_supersede hcompleted hlookup, hcompleted, hversion, hbound,
        hsnapshot⟩
  · exact absurd hprepare insertIntent_ne_ready

/-!
# The checks
-/

theorem markersOf_eq {s : Store} {version : Uuid} {revision : Text} (h : Distinct s)
    (hready : s.ReadyFacts sha256 revision version) :
    s.markersOf version = [(version, s.currentGeneration sha256 revision version)] := by
  obtain ⟨id, i, hlookup, hcompleted, hversion, hrevision, hsnapshot⟩ := hready.published
  have hfilter : (s.intents.rows.filter fun row =>
      publishes version (s.currentGeneration sha256 revision version) row.2) = [(id, i)] := by
    apply filter_eq_singleton (List.Nodup.of_map Prod.fst s.intents.nodup)
      (Table.lookup_eq_some_iff_mem.mp hlookup)
    · have hmarked := h.marked id i hlookup hcompleted
      simp [publishes, hversion, hrevision, hsnapshot, hmarked, hcompleted, currentGeneration]
    · rintro ⟨id', i'⟩ hmem hpublishes
      have hlookup' := Table.lookup_eq_some_iff_mem.mpr hmem
      simp only [publishes, Bool.and_eq_true, beq_iff_eq] at hpublishes
      obtain ⟨⟨⟨⟨hversion', hrevision'⟩, hsnapshot'⟩, _⟩, hcompleted'⟩ := hpublishes
      have hid : id' = id := by
        apply h.alone id id' i i' hlookup hlookup' hcompleted hcompleted'
        exact ⟨hversion'.trans hversion.symm, hrevision'.trans hrevision.symm,
          hsnapshot'.trans hsnapshot.symm⟩
      subst hid
      rw [hlookup] at hlookup'
      cases hlookup'
      rfl
  unfold markersOf
  rw [hready.vectors]
  simp only
  rw [if_pos ⟨hready.keywords, hready.settled⟩, hfilter]
  rfl

variable {eligible : List Uuid}

theorem markerRows_eq {s : Store} {revision : Text} (h : Distinct s)
    (hready : forall version, version ∈ eligible -> s.ReadyFacts sha256 revision version) :
    s.markerRows eligible =
      eligible.map fun version => (version, s.currentGeneration sha256 revision version) := by
  unfold markerRows
  rw [← List.flatMap_singleton' (eligible.map _), List.flatMap_map]
  apply List.flatMap_congr
  intro version hmem
  exact markersOf_eq h (hready version hmem)

/-- The rows a search reads for one version are the live sources of it. -/
theorem filter_sidecars {s : Store} {version : Uuid} (hmem : version ∈ eligible) :
    ((s.sidecars eligible).filter fun row => row.2.productVersionId == version) =
      s.liveSources version := by
  have hcmp : Std.TransCmp fun a b : Uuid × Chunk => compare a.1 b.1 :=
    inferInstanceAs (Std.TransCmp (compareOn Prod.fst))
  apply List.Perm.eq_of_pairwise ?_ (List.Pairwise.filter _ (pairwise_sortBy _ _))
    (pairwise_sortBy _ _)
  · have hperm := (perm_sortBy (fun a b => compare a.1 b.1) (s.chunks.rows.filter fun row =>
      eligible.contains row.2.productVersionId &&
        s.liveSource row.2.productVersionId row.1 row.2)).filter
      fun row => row.2.productVersionId == version
    refine hperm.trans ?_
    refine List.Perm.trans ?_ (perm_sortBy _ _).symm
    rw [List.filter_filter]
    apply List.Perm.of_eq
    apply List.filter_congr
    intro row _
    by_cases hversion : row.2.productVersionId = version
    · simp [hversion, hmem]
    · simp [liveSource, beq_eq_false_iff_ne.mpr hversion]
  · -- Rows with one id are one row of the table.
    intro a b ha hb hab hba
    have hid : a.1 = b.1 := by
      have hle := Nat.isLE_compare.mp hab
      have hge := Nat.isLE_compare.mp hba
      exact Nat.le_antisymm hle hge
    have hlookup := (mem_liveSources.mp hb).1
    have hrow : a ∈ s.sidecars eligible := (List.mem_filter.mp ha).1
    rw [sidecars, mem_sortBy, List.mem_filter] at hrow
    have hlookup' := Table.lookup_eq_some_iff_mem.mpr hrow.1
    rw [hid, hlookup] at hlookup'
    exact Prod.ext hid (Option.some.inj hlookup').symm

theorem mem_sidecars (sha256 : Text -> Text) {s : Store} {row : Uuid × Chunk}
    (hmem : row ∈ s.sidecars eligible) :
    row.2.productVersionId ∈ eligible ∧ s.chunks.lookup row.1 = some row.2 ∧
      (row.1, inputDigest sha256 row.2) ∈ s.inputs sha256 row.2.productVersionId := by
  rw [sidecars, mem_sortBy, List.mem_filter, Bool.and_eq_true] at hmem
  obtain ⟨hrow, heligible, hlive⟩ := hmem
  have hlookup := Table.lookup_eq_some_iff_mem.mpr hrow
  exact ⟨by simpa using heligible, hlookup, mem_inputs.mpr ⟨row.2, hlookup, hlive, rfl⟩⟩

end Store

theorem Covered.built_eq (hsha : Collisionless sha256) {w : World} (h : Covered sha256 w)
    {revision : Text} {version : Uuid} {inputs : List (Uuid × Text)}
    (hbuilt : BuiltFrom sha256 w.usedIds
      (w.store.currentGeneration sha256 revision version) inputs) :
    inputs = w.store.inputs sha256 version := by
  have hfrozen := h.frozenFrom_inputs hsha version revision
  apply sourceSnapshotSha256_injective hsha ?_ ?_ hbuilt.snapshot.symm
  · intro input hmem
    exact ⟨h.uuids _ (hbuilt.used input hmem), hbuilt.oneLine input hmem⟩
  · intro input hmem
    exact ⟨h.uuids _ (hfrozen.used input hmem), hfrozen.oneLine input hmem⟩

theorem Consistent.checkSidecar (hsha : Collisionless sha256) {w : World}
    (h : Consistent sha256 w) {revision : Text}
    (hready : forall version, version ∈ eligible -> w.store.ReadyFacts sha256 revision version)
    {row : Uuid × Chunk} (hmem : row ∈ w.store.sidecars eligible) :
    w.store.checkSidecar sha256 revision (w.store.markerRows eligible) row = .ok () := by
  obtain ⟨heligible, hlookup, hinput⟩ := Store.mem_sidecars sha256 hmem
  have hfacts := hready _ heligible
  obtain ⟨keywordInputs, hkeywordBuilt, hkeywords⟩ := h.covered.keywords _ _ hfacts.keywords
  obtain ⟨vectorInputs, hvectorBuilt, hvectors⟩ := h.covered.vectors _ _ hfacts.vectors
  have hkeyword : w.store.keywordRows.lookup row.1 = some (Store.keywordRow sha256 row.2) := by
    apply hkeywords row.1 row.2 hlookup rfl
    rw [h.covered.built_eq hsha hkeywordBuilt]
    exact hinput
  have hvector := hvectors row.1 row.2 hlookup rfl (by
    rw [h.covered.built_eq hsha hvectorBuilt]
    exact hinput)
  have hmarker := lookup_map_keys
    (fun version => w.store.currentGeneration sha256 revision version) heligible
  unfold Store.checkSidecar
  rw [Store.markerRows_eq h.distinct hready, hmarker]
  apply reject_eq_ok.mpr
  have hrevision : (w.store.currentGeneration sha256 revision
    row.2.productVersionId).embeddingRevisionSha256 = revision := rfl
  rw [hrevision] at hvector
  simp [Store.keywordOk, Store.vectorOk, hkeyword, hvector, Store.keywordRow]

theorem Consistent.checkGeneration {w : World} (h : Consistent sha256 w) {revision : Text}
    (hready : forall version, version ∈ eligible -> w.store.ReadyFacts sha256 revision version)
    {version : Uuid} (hmem : version ∈ eligible) :
    Store.checkGeneration sha256 revision (w.store.markerRows eligible)
      (w.store.sidecars eligible) version = .ok () := by
  have hmarker := lookup_map_keys
    (fun version => w.store.currentGeneration sha256 revision version) hmem
  unfold Store.checkGeneration
  rw [Store.markerRows_eq h.distinct hready, hmarker, Store.filter_sidecars hmem]
  apply reject_eq_ok.mpr
  simp [Store.currentGeneration, Store.sourceSnapshot, Store.inputs]

/-- In every run in which no wiki job stores a chunk again that a current
generation lists, and no second intent is completed for one source, versions
called ready are searchable. -/
theorem ready_is_searchable (hsha : Collisionless sha256) {start w : World}
    (hfresh : start.Fresh) (hrun : Reaches (change sha256) (Guarded sha256) start w) :
    ReadyIsSearchable sha256 w.store := by
  have h := consistent_of_reaches hsha hfresh hrun
  intro revision eligible hnodup hprepared
  have hready : forall version, version ∈ eligible ->
      w.store.ReadyFacts sha256 revision version :=
    fun version hmem => (hprepared version hmem).facts
  have hbound : ¬ (eligible.all fun version =>
      w.store.bindings.lookup version == some revision) = false := by
    rw [Bool.not_eq_false, List.all_eq_true]
    intro version hmem
    rw [beq_iff_eq]
    exact (hready version hmem).bound
  have hlength : ¬ (w.store.markerRows eligible).length ≠ eligible.length := by
    rw [not_not, Store.markerRows_eq h.distinct hready, List.length_map]
  unfold Store.checkFreshness
  rw [reject_bind hbound]
  simp only
  rw [reject_bind hlength]
  rw [ok_bind (forM_eq_ok fun row hmem => h.checkSidecar hsha hready hmem)]
  exact forM_eq_ok fun version hmem => h.checkGeneration hready hmem

/-!
# A page stored twice
-/

def acmeChunk : Chunk where
  productVersionId := 1
  documentId := 2
  generation := 1
  chunkType := "wiki_page"
  content := "Acme builds pumps."
  contextHeader := "entity/acme"
  startOffset := 0
  endOffset := 18
  parentChunkId := none
  generatedQuestions := []
  sourceLocator := none

def acmeDocument : Document where
  productVersionId := 1
  documentKind := .file
  parseStatus := .completed
  pendingSubtasksCount := 0
  summaryStatus := .completed
  enableStatus := .enabled
  indexReady := true
  description := ""
  attempt := 1
  activeGeneration := 1
  sourcePassages := none
  errorMessage := none
  updatedAt := 0
  deletedAt := none

def acmeContentDigest : Text :=
  "b6f4ea6632f75c25344ed2b8212847f8bf2c589da7de5417a74cad4153112dcf".toList

def acmeInputDigest : Text :=
  "78a11cdb6621ea13eb07fad43756079c0ef3221e304f54273465811b336efdcd".toList

def acmeSnapshot : Text :=
  "9bdb18258c233ebc95ab273d418802e0c8b4d8457f1838feca789954913bbf56".toList

/-- SHA-256 on the texts of a version with this one chunk. -/
def acmeSha256 : Text -> Text :=
  tabledSha256
    [("Acme builds pumps.".toList, acmeContentDigest),
      ("entity/acme\nAcme builds pumps.".toList, acmeInputDigest),
      (sourceText bareRevision [(3, acmeInputDigest)], acmeSnapshot),
      (bareRevision ++ ['\n'], bareDigest)]

theorem collisionless_acmeSha256 : Collisionless acmeSha256 :=
  collisionless_tabledSha256 (by decide +kernel) (by decide +kernel)

def acmeWorld : World where
  store := { bareStore with documents := Table.empty.insertNew 2 acmeDocument }
  usedIds := []
  frozen := []

/-- A wiki job stores the page's chunk; the version is indexed and published. -/
def acmeChanges : List Change :=
  [.persistWiki 1 ["entity/acme"] [(3, acmeChunk)],
    .transaction (.prepare 7 1),
    .transaction (.rebuildSemanticKeywords 1 bareRevision acmeSnapshot),
    .freeze 1 (some (bareRevision, acmeSnapshot)),
    .transaction (.publishVectorIndexes ⟨1, bareRevision, [(3, acmeInputDigest)], acmeSnapshot⟩),
    .transaction (.preflight 7 1 true)]

def acmeIndexed : World :=
  perform (change acmeSha256) acmeWorld acmeChanges

/-- Another wiki job stores the same page again, with its chunk as it was. -/
def acmeStoredAgain : World :=
  change acmeSha256 (.persistWiki 1 ["entity/acme"] [(3, acmeChunk)]) acmeIndexed

theorem acmeWorld_fresh : acmeWorld.Fresh :=
  ⟨rfl, rfl, rfl, rfl, rfl, rfl, rfl, rfl⟩

theorem acmeIndexed_permitted : Allowed (change acmeSha256) Permitted acmeWorld acmeChanges := by
  refine ⟨?_, trivial, trivial, trivial, ?_, trivial, trivial⟩
  · intro row hmem
    rw [List.mem_singleton] at hmem
    rw [hmem]
    decide
  · have hfrozen : (perform (change acmeSha256) acmeWorld (acmeChanges.take 4)).frozen =
        [⟨1, bareRevision, [(3, acmeInputDigest)], acmeSnapshot⟩] := by decide +kernel
    change _ ∈ (perform (change acmeSha256) acmeWorld (acmeChanges.take 4)).frozen
    rw [hfrozen]
    exact List.mem_singleton.mpr rfl

theorem acmeIndexed_harmless :
    Allowed (change acmeSha256) (Harmless acmeSha256) acmeWorld acmeChanges := by
  refine ⟨?_, trivial, trivial, trivial, trivial, ?_, trivial⟩
  · rintro row _ ⟨g, hgeneration | hgeneration, _⟩ <;> cases hgeneration
  · intro i id' i' _ _ hlookup hcompleted
    have hnone : ((perform (change acmeSha256) acmeWorld (acmeChanges.take 5)).store.intents.any
        fun _ i => i.status == .completed) = false := by decide +kernel
    have hother := Table.any_eq_false.mp hnone id' i' hlookup
    rw [hcompleted] at hother
    cases hother

theorem acmeIndexed_guarded :
    Allowed (change acmeSha256) (Guarded acmeSha256) acmeWorld acmeChanges := by
  obtain ⟨p1, p2, p3, p4, p5, p6, _⟩ := acmeIndexed_permitted
  obtain ⟨h1, h2, h3, h4, h5, h6, _⟩ := acmeIndexed_harmless
  exact ⟨⟨p1, h1⟩, ⟨p2, h2⟩, ⟨p3, h3⟩, ⟨p4, h4⟩, ⟨p5, h5⟩, ⟨p6, h6⟩, trivial⟩

/-- The answer of `prepare`, as far as `Ready` looks at it. -/
def readyRevision (result : Except IndexError (Preparation × Store)) : Option Text :=
  match result with
  | .ok (.ready _ intent, _) => some intent.embeddingRevisionSha256
  | _ => none

theorem ready_of_readyRevision {sha256 : Text -> Text} {s : Store} (newId : Uuid)
    {version : Uuid} {revision : Text}
    (h : readyRevision (s.prepare sha256 newId version) = some revision) :
    s.Ready sha256 version revision := by
  unfold readyRevision at h
  split at h
  · rename_i id intent s' hprepare
    exact ⟨newId, id, intent, s', hprepare, Option.some.inj h⟩
  · cases h

theorem acme_ready_is_searchable :
    acmeIndexed.store.Ready acmeSha256 1 bareRevision ∧
      acmeIndexed.store.checkFreshness acmeSha256 bareRevision [1] = .ok () := by
  have hready : acmeIndexed.store.Ready acmeSha256 1 bareRevision := by
    apply ready_of_readyRevision 8
    decide +kernel
  refine ⟨hready, ?_⟩
  apply ready_is_searchable collisionless_acmeSha256 acmeWorld_fresh
    (reaches_perform (Reaches.refl acmeWorld) acmeIndexed_guarded) bareRevision [1]
    (List.nodup_singleton 1)
  intro version hmem
  rw [List.mem_singleton] at hmem
  rw [hmem]
  exact hready

/-- The version is ready, and a search finds its sidecar missing. -/
theorem acme_stored_again_not_searchable :
    ¬ forall (sha256 : Text -> Text) (start w : World), Collisionless sha256 -> start.Fresh ->
      Reaches (change sha256) Permitted start w -> ReadyIsSearchable sha256 w.store := by
  intro hclaim
  have hrun : Reaches (change acmeSha256) Permitted acmeWorld acmeStoredAgain := by
    apply Reaches.snoc (reaches_perform (Reaches.refl acmeWorld) acmeIndexed_permitted)
    intro row hmem
    rw [List.mem_singleton] at hmem
    rw [hmem]
    decide
  have hready : acmeStoredAgain.store.Ready acmeSha256 1 bareRevision := by
    apply ready_of_readyRevision 8
    decide +kernel
  have hstale : acmeStoredAgain.store.checkFreshness acmeSha256 bareRevision [1] =
      .error (.unavailable "missing or stale V2 semantic sidecar") := by decide +kernel
  have hfresh := hclaim acmeSha256 acmeWorld acmeStoredAgain collisionless_acmeSha256
    acmeWorld_fresh hrun bareRevision [1] (List.nodup_singleton 1) (by
      intro version hmem
      rw [List.mem_singleton] at hmem
      rw [hmem]
      exact hready)
  rw [hstale] at hfresh
  cases hfresh

end SemanticIndex
end KnowledgeBrain
