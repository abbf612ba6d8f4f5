import KnowledgeBrain.Foundation.Runs
import KnowledgeBrain.SemanticIndex.Storage

/-!
# The publication protocol

Sources change under the index at any time, jobs are delivered late or twice,
and several jobs of one version run at once.  What one transaction can do to
the intents is said once, in `Progress`; the guarantees of the protocol follow
for every run.
-/

namespace KnowledgeBrain
namespace SemanticIndex

open Foundation
open Workflow (Uuid Chunk)
open Chunker (Text)

variable (sha256 : Text -> Text)

/-!
# Events
-/

inductive Event where
  /-- Documents, chunks, versions, bindings and sidecar rows become anything. -/
  | sourceChange (sources : Store)
  | prepare (newId version : Uuid)
  | preflight (id : Uuid) (target : Nat) (complete : Bool)
  | recordSemanticIndexError (id : Uuid) (target : Nat) (disposition code detail : String)
  | rebuildKeywords (version : Uuid)
  | rebuildSemanticKeywords (version : Uuid) (revision snapshot : Text)
  | publishVectorIndexes (frozen : FrozenSnapshot)

/-- Commit a transaction; a failed one is rolled back. -/
def commit (s : Store) (result : Except IndexError Store) : Store :=
  match result with
  | .ok s' => s'
  | .error _ => s

def step : Event -> Store -> Store
  | .sourceChange sources, s =>
      { sources with
        intents := s.intents
        keywordGenerations := s.keywordGenerations
        vectorGenerations := s.vectorGenerations }
  | .prepare newId version, s => commit s ((s.prepare sha256 newId version).map Prod.snd)
  | .preflight id target complete, s => (s.preflight sha256 id target complete).2
  | .recordSemanticIndexError id target disposition code detail, s =>
      commit s ((s.recordSemanticIndexError id target disposition code detail).map Prod.snd)
  | .rebuildKeywords version, s => commit s (s.rebuildKeywords sha256 version)
  | .rebuildSemanticKeywords version revision snapshot, s =>
      commit s (s.rebuildSemanticKeywords sha256 version revision snapshot)
  | .publishVectorIndexes frozen, s => commit s (s.publishVectorIndexes sha256 frozen)

/-- Anything may happen at any time. -/
def Anytime : Event -> Store -> Prop :=
  fun _ _ => True

/-!
# What a transaction does to the intents
-/

/-- The source is settled and both sidecars were built for exactly the snapshot
of the intent. -/
structure Published (s : Store) (intent : Intent) : Prop where
  settled : s.pendingDerived intent.productVersionId = false
  snapshot : (s.sourceSnapshot sha256 intent.productVersionId
    intent.embeddingRevisionSha256).1 = intent.sourceSnapshotSha256
  keywords : s.keywordGenerations.lookup intent.productVersionId =
    some ⟨intent.embeddingRevisionSha256, intent.sourceSnapshotSha256,
      (s.sourceSnapshot sha256 intent.productVersionId intent.embeddingRevisionSha256).2⟩
  vectors : s.vectorGenerations.lookup intent.productVersionId =
    some ⟨intent.embeddingRevisionSha256, intent.sourceSnapshotSha256,
      (s.sourceSnapshot sha256 intent.productVersionId intent.embeddingRevisionSha256).2⟩

/-- The columns that never change. -/
structure Intent.SameTarget (i i' : Intent) : Prop where
  version : i'.productVersionId = i.productVersionId
  revision : i'.embeddingRevisionSha256 = i.embeddingRevisionSha256
  snapshot : i'.sourceSnapshotSha256 = i.sourceSnapshotSha256
  target : i'.targetRevision = i.targetRevision

theorem Intent.SameTarget.refl (i : Intent) : i.SameTarget i :=
  ⟨rfl, rfl, rfl, rfl⟩

theorem Intent.SameTarget.trans {i j k : Intent} (hij : i.SameTarget j)
    (hjk : j.SameTarget k) : i.SameTarget k :=
  ⟨hjk.version.trans hij.version, hjk.revision.trans hij.revision,
    hjk.snapshot.trans hij.snapshot, hjk.target.trans hij.target⟩

/-- What becomes of an intent in one transaction. -/
structure Follows (s' : Store) (i i' : Intent) : Prop where
  same : i.SameTarget i'
  final : i.status ≠ .pending -> i' = i
  published : i.status = .pending -> i'.status = .completed -> Published sha256 s' i'

theorem Follows.refl (s' : Store) (i : Intent) : Follows sha256 s' i i := by
  refine ⟨Intent.SameTarget.refl i, fun _ => rfl, ?_⟩
  intro hpending hcompleted
  rw [hpending] at hcompleted
  cases hcompleted

structure Progress (s s' : Store) : Prop where
  kept : forall id i, s.intents.lookup id = some i ->
    exists i', s'.intents.lookup id = some i' ∧ Follows sha256 s' i i'
  later : forall id i', s.intents.lookup id = none -> s'.intents.lookup id = some i' ->
    i'.status ≠ .completed ∧
    forall id' i, s.intents.lookup id' = some i ->
      i.productVersionId = i'.productVersionId -> i.targetRevision < i'.targetRevision
  alone : forall id i', s.intents.lookup id = none -> s'.intents.lookup id = some i' ->
    i'.status = .pending -> forall id' j, s'.intents.lookup id' = some j ->
      j.productVersionId = i'.productVersionId -> j.status = .pending -> id' = id

theorem Progress.of_intents_eq {s s' : Store} (h : s'.intents = s.intents) :
    Progress sha256 s s' := by
  refine ⟨?_, ?_, ?_⟩
  · intro id i hlookup
    exact ⟨i, h ▸ hlookup, Follows.refl sha256 s' i⟩
  · intro id i' hnone hsome
    rw [h, hnone] at hsome
    cases hsome
  · intro id i' hnone hsome
    rw [h, hnone] at hsome
    cases hsome

theorem Progress.of_mapRows {s s' : Store} {f : Uuid -> Intent -> Intent}
    (h : s'.intents = s.intents.mapRows f)
    (hf : forall id i, s.intents.lookup id = some i -> Follows sha256 s' i (f id i)) :
    Progress sha256 s s' := by
  have hfresh : forall id i', s.intents.lookup id = none -> s'.intents.lookup id ≠ some i' := by
    intro id i' hnone hsome
    rw [h, Table.lookup_mapRows, hnone] at hsome
    cases hsome
  refine ⟨?_, ?_, ?_⟩
  · intro id i hlookup
    refine ⟨f id i, ?_, hf id i hlookup⟩
    rw [h, Table.lookup_mapRows, hlookup]
    rfl
  · intro id i' hnone hsome
    exact absurd hsome (hfresh id i' hnone)
  · intro id i' hnone hsome
    exact absurd hsome (hfresh id i' hnone)

variable {id : Uuid} {i : Intent}

theorem Progress.of_modify {s s' : Store} {f : Intent -> Intent}
    (hlookup : s.intents.lookup id = some i) (h : s'.intents = s.intents.modify id f)
    (hf : Follows sha256 s' i (f i)) : Progress sha256 s s' := by
  apply Progress.of_mapRows sha256 h
  intro id' i' hlookup'
  by_cases hid : id' = id
  · subst hid
    rw [if_pos rfl]
    have hsame : i = i' := Option.some.inj (hlookup.symm.trans hlookup')
    subst hsame
    exact hf
  · rw [if_neg hid]
    exact Follows.refl sha256 s' i'

/-!
# Preparation
-/

theorem le_foldl_max (items : List Nat) (start : Nat) : start ≤ items.foldl max start := by
  induction items generalizing start with
  | nil => exact Nat.le_refl start
  | cons n rest ih => exact Nat.le_trans (Nat.le_max_left start n) (ih (max start n))

theorem le_foldl_max_of_mem {items : List Nat} {n : Nat} (hmem : n ∈ items) (start : Nat) :
    n ≤ items.foldl max start := by
  induction items generalizing start with
  | nil => cases hmem
  | cons m rest ih =>
      rcases List.mem_cons.mp hmem with rfl | hrest
      · exact Nat.le_trans (Nat.le_max_right start n) (le_foldl_max rest (max start n))
      · exact ih hrest (max start m)

namespace Store

variable {s s' : Store} {version newId : Uuid} {revision snapshot : Text}
variable {state : SupportState}

theorem target_lt_nextTarget (id : Uuid) (hlookup : s.intents.lookup id = some i)
    (hversion : i.productVersionId = version) : i.targetRevision < s.nextTarget version := by
  unfold nextTarget
  apply Nat.lt_succ_of_le
  apply le_foldl_max_of_mem
  apply List.mem_map.mpr
  refine ⟨(id, i), ?_, rfl⟩
  apply List.mem_filter.mpr
  exact ⟨Table.lookup_eq_some_iff_mem.mp hlookup, by simpa using hversion⟩

theorem supersedeIntent_cases (version : Uuid) (revision snapshot : Text)
    (state : SupportState) (i : Intent) :
    (i.status = .pending ∧ (supersedeIntent version revision snapshot state i).status =
      .superseded ∧ i.SameTarget (supersedeIntent version revision snapshot state i)) ∨
    (supersedeIntent version revision snapshot state i = i ∧
      (i.productVersionId = version -> i.status = .pending ->
        i.embeddingRevisionSha256 = revision ∧ i.sourceSnapshotSha256 = snapshot)) := by
  unfold supersedeIntent
  by_cases hstale : i.productVersionId = version ∧ i.status = .pending ∧
      (i.embeddingRevisionSha256 ≠ revision ∨
        i.sourceSnapshotSha256 ≠ snapshot ∨ state ≠ .supported)
  · rw [if_pos hstale]
    exact Or.inl ⟨hstale.2.1, rfl, rfl, rfl, rfl, rfl⟩
  · rw [if_neg hstale]
    refine Or.inr ⟨rfl, ?_⟩
    intro hversion hpending
    by_contra hne
    apply hstale
    refine ⟨hversion, hpending, ?_⟩
    by_cases hrevision : i.embeddingRevisionSha256 = revision
    · exact Or.inr (Or.inl fun hsnapshot => hne ⟨hrevision, hsnapshot⟩)
    · exact Or.inl hrevision

theorem follows_supersedeIntent (t : Store) (i : Intent) :
    Follows sha256 t i (supersedeIntent version revision snapshot state i) := by
  rcases supersedeIntent_cases version revision snapshot state i with
    ⟨hpending, hstatus, hsame⟩ | ⟨hsame, _⟩
  · refine ⟨hsame, ?_, ?_⟩
    · intro hfinal
      exact absurd hpending hfinal
    · intro _ hcompleted
      rw [hstatus] at hcompleted
      cases hcompleted
  · rw [hsame]
    exact Follows.refl sha256 t i

@[simp]
theorem lookup_supersede (s : Store) (id : Uuid) :
    (s.supersede version revision snapshot state).intents.lookup id =
      (s.intents.lookup id).map (supersedeIntent version revision snapshot state) :=
  Table.lookup_mapRows _ _ _

theorem progress_supersede : Progress sha256 s (s.supersede version revision snapshot state) :=
  Progress.of_mapRows sha256 rfl fun _ i _ => follows_supersedeIntent sha256 _ i

/-- A pending intent that survives the statement is one for the current
snapshot of a supported binding. -/
theorem pending_of_supersede
    (hlookup : (s.supersede version revision snapshot state).intents.lookup id = some i)
    (hversion : i.productVersionId = version) (hpending : i.status = .pending) :
    (id, i) ∈ (s.supersede version revision snapshot state).intentsFor version revision
      snapshot := by
  have hmatches : i.embeddingRevisionSha256 = revision ∧ i.sourceSnapshotSha256 = snapshot := by
    rw [lookup_supersede, Option.map_eq_some_iff] at hlookup
    obtain ⟨old, _, hi⟩ := hlookup
    rcases supersedeIntent_cases version revision snapshot state old with
      ⟨_, hstatus, _⟩ | ⟨hsame, hmatches⟩
    · rw [hi, hpending] at hstatus
      cases hstatus
    · rw [hsame] at hi
      subst hi
      exact hmatches hversion hpending
  rw [intentsFor, mem_sortBy, List.mem_filter]
  refine ⟨Table.lookup_eq_some_iff_mem.mp hlookup, ?_⟩
  simp [hversion, hmatches.1, hmatches.2]

theorem progress_insertIntent {answer : Preparation}
    (hnone : findStatus ((s.supersede version revision snapshot state).intentsFor version
      revision snapshot) .pending = none)
    (h : (s.supersede version revision snapshot state).insertIntent newId version revision
      snapshot state = .ok (answer, s')) : Progress sha256 s s' := by
  obtain ⟨_, hfresh, h⟩ := bind_eq_ok h
  rw [reject_eq_ok, Table.contains, Option.isSome_iff_ne_none, not_not] at hfresh
  cases h
  set s1 := s.supersede version revision snapshot state with hs1
  have hold : forall id i, s1.intents.lookup id = some i ->
      (s1.intents.insertNew newId (s1.newIntent version revision snapshot state)).lookup id =
        some i := by
    intro id i hlookup
    have hne : id ≠ newId := by
      intro hid
      rw [hid, hfresh] at hlookup
      cases hlookup
    rw [Table.lookup_insertNew, if_neg hne, hlookup]
  have hnew : forall id i', s.intents.lookup id = none ->
      (s1.intents.insertNew newId (s1.newIntent version revision snapshot state)).lookup id =
        some i' -> id = newId ∧ i' = s1.newIntent version revision snapshot state := by
    intro id i' hbefore hafter
    rw [Table.lookup_insertNew] at hafter
    by_cases hid : id = newId
    · rw [if_pos hid, hfresh] at hafter
      exact ⟨hid, (Option.some.inj hafter).symm⟩
    · rw [if_neg hid, hs1, lookup_supersede, hbefore] at hafter
      cases hafter
  refine ⟨?_, ?_, ?_⟩
  · intro id i hlookup
    refine ⟨supersedeIntent version revision snapshot state i, hold id _ ?_,
      follows_supersedeIntent sha256 _ i⟩
    rw [hs1, lookup_supersede, hlookup]
    rfl
  · intro id i' hbefore hafter
    obtain ⟨_, rfl⟩ := hnew id i' hbefore hafter
    refine ⟨?_, ?_⟩
    · unfold newIntent
      by_cases hstate : state = .supported <;> simp [hstate]
    · intro id' i hlookup hversion
      have hfollows : Follows sha256 s1 i (supersedeIntent version revision snapshot state i) :=
        follows_supersedeIntent sha256 s1 i
      rw [← hfollows.same.target]
      apply target_lt_nextTarget id'
      · rw [hs1, lookup_supersede, hlookup]
        rfl
      · exact hfollows.same.version.trans hversion
  · intro id i' hbefore hafter _ id' j hj hversion hpending
    obtain ⟨rfl, rfl⟩ := hnew id i' hbefore hafter
    by_contra hne
    rw [Table.lookup_insertNew, if_neg hne] at hj
    have hmem := pending_of_supersede hj hversion hpending
    have hnotfound := List.find?_eq_none.mp hnone _ hmem
    rw [hpending] at hnotfound
    exact hnotfound rfl

theorem progress_prepare {answer : Preparation}
    (h : s.prepare sha256 newId version = .ok (answer, s')) : Progress sha256 s s' := by
  obtain ⟨_, _, h⟩ := bind_eq_ok h
  cases hbinding : s.binding version with
  | none =>
      rw [hbinding] at h
      cases h
      exact Progress.of_intents_eq sha256 rfl
  | some bound =>
      obtain ⟨revision, state⟩ := bound
      rw [hbinding] at h
      by_cases hunsettled : s.pendingDerived version = true
      · simp only [hunsettled, if_true] at h
        cases h
        exact Progress.of_intents_eq sha256 rfl
      · simp only [if_neg hunsettled] at h
        cases hpending : findStatus ((s.supersede version revision
            (s.sourceSnapshot sha256 version revision).1 state).intentsFor version revision
            (s.sourceSnapshot sha256 version revision).1) .pending with
        | some row =>
            rw [hpending] at h
            cases h
            exact progress_supersede sha256
        | none =>
            simp only [hpending] at h
            split at h
            · cases h
              exact progress_supersede sha256
            · exact progress_insertIntent sha256 hpending h

/-!
# Preflight, completion and errors
-/

theorem progress_setStatus {status : IntentStatus} {code detail : String}
    (hlookup : s.intents.lookup id = some i) (hpending : i.status = .pending)
    (hstatus : status ≠ .completed) :
    Progress sha256 s (s.setStatus id status code detail) := by
  apply Progress.of_modify sha256 (f := withStatus status code detail) hlookup rfl
  refine ⟨⟨rfl, rfl, rfl, rfl⟩, ?_, ?_⟩
  · intro hfinal
    exact absurd hpending hfinal
  · intro _ hcompleted
    exact absurd hcompleted hstatus

theorem progress_markCompleted (hlookup : s.intents.lookup id = some i)
    (hpending : i.status = .pending) (hpublished : Published sha256 s i) :
    Progress sha256 s (s.markCompleted id) := by
  apply Progress.of_modify sha256 (f := completeIntent) hlookup rfl
  rw [completeIntent, if_pos hpending]
  refine ⟨⟨rfl, rfl, rfl, rfl⟩, ?_, ?_⟩
  · intro hfinal
    exact absurd hpending hfinal
  · intro _ _
    exact ⟨hpublished.settled, hpublished.snapshot, hpublished.keywords, hpublished.vectors⟩

theorem progress_preflightPending {complete : Bool} (hlookup : s.intents.lookup id = some i)
    (hpending : i.status = .pending) :
    Progress sha256 s (s.preflightPending sha256 id i complete).2 := by
  unfold preflightPending
  simp only
  split
  · exact progress_setStatus sha256 hlookup hpending (by simp)
  split
  · exact progress_setStatus sha256 hlookup hpending (by simp)
  split
  · exact Progress.of_intents_eq sha256 rfl
  rename_i hsettled
  split
  · exact progress_setStatus sha256 hlookup hpending (by simp)
  rename_i hsnapshot
  split
  · exact Progress.of_intents_eq sha256 rfl
  split
  · exact Progress.of_intents_eq sha256 rfl
  rename_i hgenerations
  rw [not_not] at hsnapshot
  rw [Bool.not_eq_false, generationsMatch, Bool.and_eq_true, beq_iff_eq, beq_iff_eq, hsnapshot]
    at hgenerations
  apply progress_markCompleted sha256 hlookup hpending
  exact
    { settled := by simpa using hsettled
      snapshot := hsnapshot
      keywords := hgenerations.1
      vectors := hgenerations.2 }

theorem progress_preflight {target : Nat} {complete : Bool} :
    Progress sha256 s (s.preflight sha256 id target complete).2 := by
  unfold preflight
  cases hlookup : s.intents.lookup id with
  | none => exact Progress.of_intents_eq sha256 rfl
  | some i =>
      simp only
      split
      · exact Progress.of_intents_eq sha256 rfl
      split
      · exact Progress.of_intents_eq sha256 rfl
      split
      · exact Progress.of_intents_eq sha256 rfl
      rename_i hpending
      exact progress_preflightPending sha256 hlookup (not_not.mp hpending)

theorem parseDisposition_ne_completed {status result : IntentStatus} {disposition : String}
    (hstatus : status ≠ .completed) (h : parseDisposition status disposition = some result) :
    result ≠ .completed := by
  unfold parseDisposition at h
  split at h
  · cases h
    exact hstatus
  · cases h
    simp
  · cases h
    simp
  · cases h

theorem progress_recordSemanticIndexError {target : Nat} {disposition code detail : String}
    {updated : Bool}
    (h : s.recordSemanticIndexError id target disposition code detail = .ok (updated, s')) :
    Progress sha256 s s' := by
  obtain ⟨_, _, h⟩ := bind_eq_ok h
  cases hlookup : s.intents.lookup id with
  | none =>
      rw [hlookup] at h
      cases h
      exact Progress.of_intents_eq sha256 rfl
  | some i =>
      simp only [hlookup] at h
      split at h
      · rename_i hcurrent
        cases h
        have hne : i.status ≠ .completed := by
          rw [hcurrent.2]
          simp
        apply progress_setStatus sha256 hlookup hcurrent.2
        cases hparse : parseDisposition i.status disposition with
        | none => exact hne
        | some result => exact parseDisposition_ne_completed hne hparse
      · cases h
        exact Progress.of_intents_eq sha256 rfl

/-!
# Sidecars leave the intents alone
-/

theorem intents_rebuildKeywords (h : s.rebuildKeywords sha256 version = .ok s') :
    s'.intents = s.intents := by
  obtain ⟨_, _, h⟩ := bind_eq_ok h
  cases h
  rfl

theorem intents_rebuildSemanticKeywords
    (h : s.rebuildSemanticKeywords sha256 version revision snapshot = .ok s') :
    s'.intents = s.intents := by
  obtain ⟨_, _, h⟩ := bind_eq_ok h
  obtain ⟨_, _, h⟩ := bind_eq_ok h
  obtain ⟨_, _, h⟩ := bind_eq_ok h
  obtain ⟨s1, hrebuild, h⟩ := bind_eq_ok h
  cases h
  have hintents : s1.intents = s.intents := intents_rebuildKeywords sha256 hrebuild
  exact hintents

theorem intents_publishVectorIndexes {frozen : FrozenSnapshot}
    (h : s.publishVectorIndexes sha256 frozen = .ok s') : s'.intents = s.intents := by
  obtain ⟨_, _, h⟩ := bind_eq_ok h
  obtain ⟨_, _, h⟩ := bind_eq_ok h
  obtain ⟨_, _, h⟩ := bind_eq_ok h
  cases h
  rfl

end Store

/-!
# Every event
-/

theorem progress_commit {s : Store} {result : Except IndexError Store}
    (h : forall s', result = .ok s' -> Progress sha256 s s') :
    Progress sha256 s (commit s result) := by
  cases result with
  | error e => exact Progress.of_intents_eq sha256 rfl
  | ok s' => exact h s' rfl

theorem progress_commit_snd {A : Type} {s : Store} {result : Except IndexError (A × Store)}
    (h : forall a s', result = .ok (a, s') -> Progress sha256 s s') :
    Progress sha256 s (commit s (result.map Prod.snd)) := by
  cases result with
  | error e => exact Progress.of_intents_eq sha256 rfl
  | ok value => exact h value.1 value.2 rfl

theorem progress_step (e : Event) (s : Store) : Progress sha256 s (step sha256 e s) := by
  cases e with
  | sourceChange sources => exact Progress.of_intents_eq sha256 rfl
  | prepare newId version =>
      exact progress_commit_snd sha256 fun _ _ h => Store.progress_prepare sha256 h
  | preflight id target complete => exact Store.progress_preflight sha256
  | recordSemanticIndexError id target disposition code detail =>
      exact progress_commit_snd sha256 fun _ _ h =>
        Store.progress_recordSemanticIndexError sha256 h
  | rebuildKeywords version =>
      exact progress_commit sha256 fun _ h =>
        Progress.of_intents_eq sha256 (Store.intents_rebuildKeywords sha256 h)
  | rebuildSemanticKeywords version revision snapshot =>
      exact progress_commit sha256 fun _ h =>
        Progress.of_intents_eq sha256 (Store.intents_rebuildSemanticKeywords sha256 h)
  | publishVectorIndexes frozen =>
      exact progress_commit sha256 fun _ h =>
        Progress.of_intents_eq sha256 (Store.intents_publishVectorIndexes sha256 h)

/-!
# Every run
-/

/-- At most one intent of a version is pending. -/
def SinglePending (s : Store) : Prop :=
  forall id id' i i', s.intents.lookup id = some i -> s.intents.lookup id' = some i' ->
    i.productVersionId = i'.productVersionId -> i.status = .pending ->
    i'.status = .pending -> id = id'

theorem Progress.origin {s s' : Store} (h : Progress sha256 s s') {i' : Intent}
    (hlookup : s'.intents.lookup id = some i') :
    s.intents.lookup id = none ∨
      exists i, s.intents.lookup id = some i ∧ Follows sha256 s' i i' := by
  cases hbefore : s.intents.lookup id with
  | none => exact Or.inl rfl
  | some i =>
      obtain ⟨i1, hafter, hfollows⟩ := h.kept id i hbefore
      rw [hlookup] at hafter
      cases hafter
      exact Or.inr ⟨i, rfl, hfollows⟩

theorem Follows.pending {s' : Store} {i i' : Intent} (h : Follows sha256 s' i i')
    (hpending : i'.status = .pending) : i.status = .pending := by
  by_contra hfinal
  rw [h.final hfinal] at hpending
  exact hfinal hpending

theorem Progress.singlePending {s s' : Store} (h : Progress sha256 s s')
    (hs : SinglePending s) : SinglePending s' := by
  intro id id' i i' hlookup hlookup' hversion hpending hpending'
  rcases h.origin sha256 hlookup with hfresh | ⟨old, hold, hfollows⟩
  · exact (h.alone id i hfresh hlookup hpending id' i' hlookup' hversion.symm hpending').symm
  · rcases h.origin sha256 hlookup' with hfresh' | ⟨old', hold', hfollows'⟩
    · exact h.alone id' i' hfresh' hlookup' hpending' id i hlookup hversion hpending
    · apply hs id id' old old' hold hold'
      · rw [← hfollows.same.version, ← hfollows'.same.version, hversion]
      · exact hfollows.pending sha256 hpending
      · exact hfollows'.pending sha256 hpending'

/-- What a run keeps of the intents it finds, and where it puts new ones. -/
structure Extends (s t : Store) : Prop where
  kept : forall id i, s.intents.lookup id = some i ->
    exists i', t.intents.lookup id = some i' ∧ i.SameTarget i' ∧
      (i.status ≠ .pending -> i'.status = i.status)
  later : forall id i', s.intents.lookup id = none -> t.intents.lookup id = some i' ->
    forall id' i, s.intents.lookup id' = some i ->
      i.productVersionId = i'.productVersionId -> i.targetRevision < i'.targetRevision

theorem Extends.refl (s : Store) : Extends s s := by
  refine ⟨?_, ?_⟩
  · intro id i hlookup
    exact ⟨i, hlookup, Intent.SameTarget.refl i, fun _ => rfl⟩
  · intro id i' hnone hsome
    rw [hnone] at hsome
    cases hsome

theorem Extends.trans {s t u : Store} (hst : Extends s t) (htu : Extends t u) :
    Extends s u := by
  refine ⟨?_, ?_⟩
  · intro id i hlookup
    obtain ⟨i1, hlookup1, hsame1, hfinal1⟩ := hst.kept id i hlookup
    obtain ⟨i2, hlookup2, hsame2, hfinal2⟩ := htu.kept id i1 hlookup1
    refine ⟨i2, hlookup2, hsame1.trans hsame2, ?_⟩
    intro hfinal
    have hstatus := hfinal1 hfinal
    rw [← hstatus] at hfinal
    exact (hfinal2 hfinal).trans hstatus
  · intro id i' hbefore hafter id' i hlookup hversion
    cases hmiddle : t.intents.lookup id with
    | some i1 =>
        obtain ⟨i2, hlookup2, hsame, _⟩ := htu.kept id i1 hmiddle
        rw [hafter] at hlookup2
        cases hlookup2
        rw [hsame.target]
        exact hst.later id i1 hbefore hmiddle id' i hlookup (hversion.trans hsame.version)
    | none =>
        obtain ⟨i1, hlookup1, hsame, _⟩ := hst.kept id' i hlookup
        rw [← hsame.target]
        exact htu.later id i' hmiddle hafter id' i1 hlookup1 (hsame.version.trans hversion)

theorem Progress.extends {s s' : Store} (h : Progress sha256 s s') : Extends s s' := by
  refine ⟨?_, ?_⟩
  · intro id i hlookup
    obtain ⟨i', hlookup', hfollows⟩ := h.kept id i hlookup
    refine ⟨i', hlookup', hfollows.same, ?_⟩
    intro hfinal
    rw [hfollows.final hfinal]
  · intro id i' hnone hsome
    exact (h.later id i' hnone hsome).2

theorem extends_of_reaches {s t : Store} (hrun : Reaches (step sha256) Anytime s t) :
    Extends s t :=
  Reaches.preorder (P := fun _ => True) (R := Extends) Extends.refl
    (fun _ _ _ => Extends.trans) (fun _ _ _ _ => trivial)
    (fun e s _ _ => (progress_step sha256 e s).extends) trivial hrun

theorem singlePending_of_reaches {start s : Store} (hstart : start.intents = Table.empty)
    (hrun : Reaches (step sha256) Anytime start s) : SinglePending s := by
  apply Reaches.invariant (P := SinglePending) ?_ ?_ hrun
  · intro e s hs _
    exact (progress_step sha256 e s).singlePending sha256 hs
  · intro id id' i i' hlookup
    rw [hstart] at hlookup
    cases hlookup

/-- Whatever the sources do and however jobs are delivered: one pending intent a
version, growing targets, final statuses, and publication only of a settled
source whose sidecars are both built for it. -/
theorem intents_publish_safely {start s : Store} (hstart : start.intents = Table.empty)
    (hrun : Reaches (step sha256) Anytime start s) :
    SinglePending s ∧
    (forall t, Reaches (step sha256) Anytime s t -> forall id i',
      s.intents.lookup id = none -> t.intents.lookup id = some i' ->
      forall id' i, s.intents.lookup id' = some i ->
        i.productVersionId = i'.productVersionId -> i.targetRevision < i'.targetRevision) ∧
    (forall t, Reaches (step sha256) Anytime s t -> forall id i,
      s.intents.lookup id = some i -> i.status ≠ .pending ->
      exists i', t.intents.lookup id = some i' ∧ i'.status = i.status) ∧
    (forall e id i', (step sha256 e s).intents.lookup id = some i' ->
      i'.status = .completed ->
      (forall i, s.intents.lookup id = some i -> i.status ≠ .completed) ->
      Published sha256 (step sha256 e s) i') := by
  refine ⟨singlePending_of_reaches sha256 hstart hrun, ?_, ?_, ?_⟩
  · intro t hlater
    exact (extends_of_reaches sha256 hlater).later
  · intro t hlater id i hlookup hfinal
    obtain ⟨i', hlookup', _, hstatus⟩ := (extends_of_reaches sha256 hlater).kept id i hlookup
    exact ⟨i', hlookup', hstatus hfinal⟩
  · intro e id i' hlookup hcompleted hbefore
    have hprogress := progress_step sha256 e s
    rcases hprogress.origin sha256 hlookup with hfresh | ⟨i, hold, hfollows⟩
    · exact absurd hcompleted (hprogress.later id i' hfresh hlookup).1
    · apply hfollows.published ?_ hcompleted
      by_contra hfinal
      rw [hfollows.final hfinal] at hcompleted
      exact hbefore i hold hcompleted

/-!
# A version without sources
-/

def bareRevision : Text := List.replicate 64 'a'

/-- The SHA-256 of the bound revision and a line feed. -/
def bareDigest : Text :=
  "44c2336fedab8ff6a85c74c2b94165377b0981f526adb9487895ca6314165e86".toList

/-- SHA-256 on the one text a version without chunks digests. -/
def bareSha256 (t : Text) : Text :=
  if t = bareRevision ++ ['\n'] then bareDigest else []

def bareStore : Store where
  versions := Table.empty.insertNew 1 true
  bindings := Table.empty.insertNew 1 bareRevision
  revisions := Table.empty.insertNew bareRevision .supported
  documents := Table.empty
  chunks := Table.empty
  imageLinks := []
  intents := Table.empty
  keywordRows := Table.empty
  vectorRows := Table.empty
  keywordGenerations := Table.empty
  vectorGenerations := Table.empty

def bareEvents : List Event :=
  [.prepare 7 1, .rebuildSemanticKeywords 1 bareRevision bareDigest,
    .publishVectorIndexes ⟨1, bareRevision, [], bareDigest⟩]

theorem bare_intents_publish_safely :
    ((step bareSha256 (.preflight 7 1 true)
      (perform (step bareSha256) bareStore bareEvents)).intents.lookup 7).map Intent.status =
        some .completed ∧
    exists i, (step bareSha256 (.preflight 7 1 true)
      (perform (step bareSha256) bareStore bareEvents)).intents.lookup 7 = some i ∧
      Published bareSha256 (step bareSha256 (.preflight 7 1 true)
        (perform (step bareSha256) bareStore bareEvents)) i := by
  have hstatus : ((step bareSha256 (.preflight 7 1 true)
      (perform (step bareSha256) bareStore bareEvents)).intents.lookup 7).map Intent.status =
        some .completed := by decide +kernel
  have hbefore : ((perform (step bareSha256) bareStore bareEvents).intents.lookup 7).map
      Intent.status = some .pending := by decide +kernel
  refine ⟨hstatus, ?_⟩
  obtain ⟨i, hlookup, hcompleted⟩ := Option.map_eq_some_iff.mp hstatus
  refine ⟨i, hlookup, ?_⟩
  have hrun : Reaches (step bareSha256) Anytime bareStore
      (perform (step bareSha256) bareStore bareEvents) :=
    reaches_perform (Reaches.refl bareStore) ⟨trivial, trivial, trivial, trivial⟩
  obtain ⟨_, _, _, hpublished⟩ := intents_publish_safely bareSha256 rfl hrun
  apply hpublished (.preflight 7 1 true) 7 i hlookup hcompleted
  intro old hold hfinal
  rw [hold, Option.map_some, hfinal] at hbefore
  cases hbefore

end SemanticIndex
end KnowledgeBrain
