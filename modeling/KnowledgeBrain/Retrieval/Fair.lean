import KnowledgeBrain.Retrieval.Schema
import KnowledgeBrain.Foundation.Thinning
import Mathlib.Data.List.Dedup

/-!
# What the exact prefix selects

The primaries are the heads of the first version groups, one for each key; the
fill only appends candidates that are no primary.  Both passes keep the same
account of the bytes.
-/

namespace KnowledgeBrain
namespace Retrieval

open Foundation
open Workflow (Uuid)

theorem checkedAdd_eq_some {bits a b n : Nat} (hadd : checkedAdd bits a b = some n) :
    n = a + b := by
  unfold checkedAdd at hadd
  split at hadd
  · cases hadd
    rfl
  · cases hadd

theorem checkedAdd_of_lt {bits a b : Nat} (hlt : a + b < 2 ^ bits) :
    checkedAdd bits a b = some (a + b) :=
  if_pos hlt

/-!
# The two passes
-/

/-- The byte account of the hits chosen so far. -/
structure Affordable (policy : RetrievalPolicyIdentity) (pick : ExactPick) : Prop where
  bytes : pick.chosenBytes = (pick.hits.map ExactCandidate.byteLength).sum
  chunk : forall c, c ∈ pick.hits -> c.byteLength ≤ policy.maxChunkBytes
  total : pick.chosenBytes ≤ policy.maxTotalBytes

/-- The pick with one more hit. -/
def ExactPick.push (pick : ExactPick) (c : ExactCandidate) : ExactPick :=
  ⟨pick.hits ++ [c], pick.chosenBytes + c.byteLength⟩

variable {c : ExactCandidate} {pick : ExactPick}

theorem Affordable.push {policy : RetrievalPolicyIdentity} (hpick : Affordable policy pick)
    (hchunk : c.byteLength ≤ policy.maxChunkBytes)
    (htotal : pick.chosenBytes + c.byteLength ≤ policy.maxTotalBytes) :
    Affordable policy (pick.push c) where
  bytes := by
    simp [ExactPick.push, hpick.bytes]
  chunk := by
    intro c' hmem
    rcases List.mem_append.mp hmem with hold | hnew
    · exact hpick.chunk c' hold
    · rw [List.mem_singleton.mp hnew]
      exact hchunk
  total := htotal

theorem takePrimary_eq_ok {policy : RetrievalPolicyIdentity} {pick pick' : ExactPick}
    {group : List ExactCandidate} (htake : takePrimary policy pick group = .ok pick') :
    exists primary, group.head? = some primary ∧ pick' = pick.push primary
      ∧ primary.byteLength ≤ policy.maxChunkBytes
      ∧ pick.chosenBytes + primary.byteLength ≤ policy.maxTotalBytes := by
  cases group with
  | nil =>
      cases htake
  | cons primary rest =>
      simp only [takePrimary] at htake
      split at htake
      · cases htake
      · rename_i hchunk
        split at htake
        · cases htake
        · rename_i bytes hadd
          split at htake
          · cases htake
          · rename_i htotal
            cases htake
            have hbytes := checkedAdd_eq_some hadd
            subst hbytes
            exact ⟨primary, rfl, rfl, Nat.le_of_not_lt hchunk, Nat.le_of_not_lt htotal⟩

theorem takePrimaries_eq_ok {policy : RetrievalPolicyIdentity} {pick pick' : ExactPick}
    {groups : List (List ExactCandidate)}
    (htake : groups.foldlM (takePrimary policy) pick = .ok pick')
    (hpick : Affordable policy pick) :
    Affordable policy pick' ∧ exists primaries, pick'.hits = pick.hits ++ primaries
      ∧ List.Forall₂ (fun group primary => group.head? = some primary) groups primaries := by
  induction groups generalizing pick with
  | nil =>
      cases htake
      exact ⟨hpick, [], (List.append_nil _).symm, .nil⟩
  | cons group rest ih =>
      rw [List.foldlM_cons] at htake
      obtain ⟨next, hfirst, hrest⟩ := bind_eq_ok htake
      obtain ⟨primary, hhead, rfl, hchunk, htotal⟩ := takePrimary_eq_ok hfirst
      obtain ⟨hpick', primaries, hhits, hheads⟩ := ih hrest (hpick.push hchunk htotal)
      refine ⟨hpick', primary :: primaries, ?_, .cons hhead hheads⟩
      rw [hhits, ExactPick.push, List.append_assoc, List.singleton_append]

theorem fillExact_cases (policy : RetrievalPolicyIdentity) (pick : ExactPick)
    (c : ExactCandidate) :
    fillExact policy pick c = pick
      ∨ fillExact policy pick c = pick.push c ∧ pick.hits.length < policy.maxHits
        ∧ c.byteLength ≤ policy.maxChunkBytes
        ∧ pick.chosenBytes + c.byteLength ≤ policy.maxTotalBytes := by
  unfold fillExact
  split
  · exact Or.inl rfl
  · rename_i hquota
    rw [not_or, Nat.not_le, Nat.not_lt] at hquota
    split
    · exact Or.inl rfl
    · rename_i bytes hadd
      have hbytes := checkedAdd_eq_some hadd
      subst hbytes
      split
      · exact Or.inl rfl
      · rename_i htotal
        exact Or.inr ⟨rfl, hquota.1, hquota.2, Nat.le_of_not_lt htotal⟩

theorem fillAll_spec {policy : RetrievalPolicyIdentity} (remaining : List ExactCandidate)
    (hpick : Affordable policy pick) (hlength : pick.hits.length ≤ policy.maxHits) :
    Affordable policy (remaining.foldl (fillExact policy) pick)
      ∧ exists added, added.Sublist remaining
        ∧ (remaining.foldl (fillExact policy) pick).hits = pick.hits ++ added
        ∧ pick.hits.length + added.length ≤ policy.maxHits := by
  induction remaining generalizing pick with
  | nil =>
      exact ⟨hpick, [], List.Sublist.refl _, (List.append_nil _).symm, hlength⟩
  | cons c rest ih =>
      rw [List.foldl_cons]
      rcases fillExact_cases policy pick c with hskip | ⟨hpush, hroom, hchunk, htotal⟩
      · rw [hskip]
        obtain ⟨hafter, added, hsub, hhits, hcount⟩ := ih hpick hlength
        exact ⟨hafter, added, hsub.cons c, hhits, hcount⟩
      · rw [hpush]
        have hlength' : (pick.push c).hits.length ≤ policy.maxHits := by
          simp [ExactPick.push]
          omega
        obtain ⟨hafter, added, hsub, hhits, hcount⟩ := ih (hpick.push hchunk htotal) hlength'
        refine ⟨hafter, c :: added, hsub.cons_cons c, ?_, ?_⟩
        · rw [hhits, ExactPick.push, List.append_assoc, List.singleton_append]
        · simp only [ExactPick.push, List.length_append, List.length_singleton] at hcount
          rw [List.length_cons]
          omega

/-!
# The version groups
-/

theorem nodup_versionKeys (candidates : List ExactCandidate) :
    (versionKeys candidates).Nodup :=
  (perm_sortBy _ _).nodup_iff.mpr (List.nodup_dedup _)

variable {key : Uuid × Uuid}

theorem mem_versionKeys {candidates : List ExactCandidate} :
    key ∈ versionKeys candidates <-> exists c, c ∈ candidates ∧ c.key = key := by
  simp [versionKeys]

theorem length_versionKeys_le (candidates : List ExactCandidate) :
    (versionKeys candidates).length ≤ candidates.length := by
  have hdedup := (List.dedup_sublist (candidates.map ExactCandidate.key)).length_le
  rw [List.length_map] at hdedup
  rw [versionKeys, length_sortBy]
  exact hdedup

theorem mem_versionGroup {candidates : List ExactCandidate} :
    c ∈ versionGroup candidates key <-> c ∈ candidates ∧ c.key = key := by
  simp [versionGroup]

theorem nodup_versionGroups {candidates : List ExactCandidate} (hnodup : candidates.Nodup) :
    ((versionKeys candidates).flatMap (versionGroup candidates)).Nodup := by
  rw [List.nodup_flatMap]
  constructor
  · intro key _
    exact (perm_sortBy _ _).nodup_iff.mpr (hnodup.filter _)
  · apply (nodup_versionKeys candidates).imp
    intro key key' hne c hc hc'
    exact hne ((mem_versionGroup.mp hc).2.symm.trans (mem_versionGroup.mp hc').2)

theorem mem_remainingExact {candidates primaries : List ExactCandidate} :
    c ∈ remainingExact candidates primaries <->
      c ∈ candidates ∧ c.sourceChunkId ∉ primaries.map ExactCandidate.sourceChunkId := by
  unfold remainingExact
  rw [mem_sortBy, List.mem_filter, decide_eq_true_eq, List.mem_flatMap]
  constructor
  · rintro ⟨⟨key, _, hgroup⟩, hnot⟩
    exact ⟨(mem_versionGroup.mp hgroup).1, hnot⟩
  · rintro ⟨hmem, hnot⟩
    exact ⟨⟨c.key, mem_versionKeys.mpr ⟨c, hmem, rfl⟩, mem_versionGroup.mpr ⟨hmem, rfl⟩⟩, hnot⟩

theorem nodup_remainingExact {candidates primaries : List ExactCandidate}
    (hnodup : candidates.Nodup) : (remainingExact candidates primaries).Nodup :=
  (perm_sortBy _ _).nodup_iff.mpr ((nodup_versionGroups hnodup).filter _)

/-- The primaries of some version groups are candidates, one for each key. -/
theorem primaries_of_heads {candidates primaries : List ExactCandidate}
    {keys : List (Uuid × Uuid)}
    (hheads : List.Forall₂ (fun group primary => group.head? = some primary)
      (keys.map (versionGroup candidates)) primaries) :
    primaries.map ExactCandidate.key = keys
      ∧ forall c, c ∈ primaries -> c ∈ candidates := by
  induction keys generalizing primaries with
  | nil =>
      cases hheads
      exact ⟨rfl, fun _ hmem => absurd hmem List.not_mem_nil⟩
  | cons key rest ih =>
      rw [List.map_cons] at hheads
      cases hheads with
      | cons hhead htail =>
          rename_i primary others
          have hprimary := mem_versionGroup.mp (List.mem_of_mem_head? hhead)
          obtain ⟨hkeys, hmem⟩ := ih htail
          constructor
          · rw [List.map_cons, hkeys, hprimary.2]
          · intro c hc
            rcases List.mem_cons.mp hc with rfl | hc
            · exact hprimary.1
            · exact hmem c hc

/-!
# The selection
-/

/-- What a selection promises about its candidates and the quotas. -/
structure Selected (candidates : List ExactCandidate) (policy : RetrievalPolicyIdentity)
    (selection : ExactSelection) : Prop where
  subset : forall c, c ∈ selection.hits -> c ∈ candidates
  nodup : (selection.hits.map ExactCandidate.sourceChunkId).Nodup
  length_le : selection.hits.length ≤ policy.maxHits
  chunk_le : forall c, c ∈ selection.hits -> c.byteLength ≤ policy.maxChunkBytes
  total_le : (selection.hits.map ExactCandidate.byteLength).sum ≤ policy.maxTotalBytes
  nonempty : candidates ≠ [] -> selection.hits ≠ []
  versions : selection.exactVersionsTruncated =
    (versionKeys candidates).length - policy.maxHits
  truncated : selection.exactHitsTruncated = candidates.length - selection.hits.length
  complete : policy.maxHits < (versionKeys candidates).length ->
    selection.hits.length = policy.maxHits ∧ (selection.hits.map ExactCandidate.key).Nodup

theorem selected_of_ok {candidates : List ExactCandidate} {policy : RetrievalPolicyIdentity}
    {selection : ExactSelection} (hmax : 0 < policy.maxHits)
    (hids : (candidates.map ExactCandidate.sourceChunkId).Nodup)
    (hselect : selectExactPrefixV2 candidates policy = .ok selection) :
    Selected candidates policy selection := by
  unfold selectExactPrefixV2 at hselect
  obtain ⟨pick, hprimaries, hrest⟩ := bind_eq_ok hselect
  cases hrest
  have hstart : Affordable policy ⟨[], 0⟩ :=
    ⟨rfl, fun _ hmem => absurd hmem List.not_mem_nil, Nat.zero_le _⟩
  obtain ⟨hpick, primaries, hhits, hheads⟩ := takePrimaries_eq_ok hprimaries hstart
  rw [List.nil_append] at hhits
  rw [← List.map_take] at hheads
  obtain ⟨hkeys, hsubset⟩ := primaries_of_heads hheads
  have hlength : primaries.length = min policy.maxHits (versionKeys candidates).length := by
    rw [← List.length_take, ← hkeys, List.length_map]
  have hprimaryKeys : (primaries.map ExactCandidate.key).Nodup := by
    rw [hkeys]
    exact (nodup_versionKeys candidates).sublist (List.take_sublist _ _)
  obtain ⟨hchosen, added, hsub, hall, hcount⟩ :=
    fillAll_spec (remainingExact candidates pick.hits) hpick
      (by rw [hhits, hlength]; exact Nat.min_le_left _ _)
  have hadded : forall c, c ∈ added -> c ∈ candidates
      ∧ c.sourceChunkId ∉ pick.hits.map ExactCandidate.sourceChunkId :=
    fun c hc => mem_remainingExact.mp (hsub.subset hc)
  have hmem : forall c, c ∈ pick.hits ++ added -> c ∈ candidates := by
    intro c hc
    rcases List.mem_append.mp hc with hc | hc
    · rw [hhits] at hc
      exact hsubset c hc
    · exact (hadded c hc).1
  have hnodup : (pick.hits ++ added).Nodup := by
    rw [List.nodup_append]
    refine ⟨?_, (nodup_remainingExact (List.Nodup.of_map _ hids)).sublist hsub, ?_⟩
    · rw [hhits]
      exact List.Nodup.of_map _ hprimaryKeys
    · intro c hc c' hc' heq
      subst heq
      exact (hadded c hc').2 (List.mem_map_of_mem hc)
  constructor
  · rw [hall]
    exact hmem
  · rw [hall]
    apply hnodup.map_on
    intro c hc c' hc' heq
    exact List.inj_on_of_nodup_map hids (hmem c hc) (hmem c' hc') heq
  · rw [hall, List.length_append]
    exact hcount
  · exact hchosen.chunk
  · rw [← hchosen.bytes]
    exact hchosen.total
  · intro hne hempty
    rw [hall] at hempty
    have hnone : primaries = [] := by
      rw [← hhits]
      exact (List.append_eq_nil_iff.mp hempty).1
    obtain ⟨c, hc⟩ := List.exists_mem_of_ne_nil candidates hne
    have hkey := List.length_pos_of_mem (mem_versionKeys.mpr ⟨c, hc, rfl⟩)
    rw [hnone, List.length_nil] at hlength
    omega
  · rw [List.length_map]
  · rfl
  · intro hmore
    have hfull : added = [] := by
      apply List.eq_nil_of_length_eq_zero
      rw [hhits] at hcount
      omega
    rw [hall, hfull, List.append_nil, hhits]
    exact ⟨hlength.trans (Nat.min_eq_left (Nat.le_of_lt hmore)), hprimaryKeys⟩

/-!
# Fairness of the exact prefix

Every one of the first version groups gives its smallest candidate, and the
quotas that are left are filled greedily with the others.  The selection depends
on the set of candidates only.
-/

/-!
## What is to be selected
-/

/-- The keys of the version groups, in id order. -/
structure Groups (candidates : List ExactCandidate) (keys : List (Uuid × Uuid)) : Prop where
  ordered : keys.Pairwise fun a b => compareKeys a b = .lt
  mem : forall key, key ∈ keys <-> exists c, c ∈ candidates ∧ c.key = key

/-- The smallest candidate of a version group. -/
structure Primary (candidates : List ExactCandidate) (key : Uuid × Uuid) (c : ExactCandidate) :
    Prop where
  mem : c ∈ candidates
  ofKey : c.key = key
  least : forall c', c' ∈ candidates -> c'.key = key -> (comparePrimaryV2 c c').isLE = true

/-- The candidates that are no primary, in the order of the fill. -/
structure Others (candidates primaries others : List ExactCandidate) : Prop where
  ordered : others.Pairwise fun a b => compareBV2 a b = .lt
  mem : forall c, c ∈ others <-> c ∈ candidates ∧ c ∉ primaries

def bytesOf (hits : List ExactCandidate) : Nat :=
  (hits.map ExactCandidate.byteLength).sum

/-- The primaries are over a byte quota. -/
def Unaffordable (policy : RetrievalPolicyIdentity) (primaries : List ExactCandidate) : Prop :=
  (exists c, c ∈ primaries ∧ policy.maxChunkBytes < c.byteLength) ∨
    policy.maxTotalBytes < bytesOf primaries

/-- A candidate is within what the hits chosen so far leave of the quotas. -/
def FitsQuota (policy : RetrievalPolicyIdentity) (chosen : List ExactCandidate)
    (c : ExactCandidate) : Prop :=
  chosen.length < policy.maxHits ∧ c.byteLength ≤ policy.maxChunkBytes ∧
    bytesOf chosen + c.byteLength ≤ policy.maxTotalBytes

instance (policy : RetrievalPolicyIdentity) (chosen : List ExactCandidate) (c : ExactCandidate) :
    Decidable (FitsQuota policy chosen c) :=
  inferInstanceAs (Decidable (_ ∧ _ ∧ _))

/-- A selection that is fair to the version groups and as full as their order
lets it be. -/
structure Fair (candidates : List ExactCandidate) (policy : RetrievalPolicyIdentity)
    (keys : List (Uuid × Uuid)) (primaries others : List ExactCandidate)
    (selection : ExactSelection) : Prop where
  starts : primaries <+: selection.hits
  hits : selection.hits = fill (FitsQuota policy) primaries others
  turn : forall before c after, others = before ++ c :: after ->
    (c ∈ selection.hits <-> FitsQuota policy (fill (FitsQuota policy) primaries before) c)
  nodup : (selection.hits.map ExactCandidate.sourceChunkId).Nodup
  length_le : selection.hits.length ≤ policy.maxHits
  chunk_le : forall c, c ∈ selection.hits -> c.byteLength ≤ policy.maxChunkBytes
  total_le : bytesOf selection.hits ≤ policy.maxTotalBytes
  hitsTruncated : selection.exactHitsTruncated + selection.hits.length = candidates.length
  versionsTruncated : selection.exactVersionsTruncated = (keys.drop policy.maxHits).length

/-!
## The orders
-/

instance : Std.TransCmp compareKeys := by
  unfold compareKeys
  infer_instance

instance : Std.TransCmp comparePrimaryV2 := by
  unfold comparePrimaryV2
  infer_instance

instance : Std.TransCmp compareBV2 := by
  unfold compareBV2
  infer_instance

theorem compareKeys_separates {a b : Uuid × Uuid} (h : compareKeys a b = .eq) : a = b := by
  simp only [compareKeys, compareLex, compareOn, Ordering.then_eq_eq, compare_eq_iff_eq] at h
  exact Prod.ext h.1 h.2

variable {a b : ExactCandidate}

theorem comparePrimary_id (h : comparePrimaryV2 a b = .eq) :
    a.sourceChunkId = b.sourceChunkId := by
  simp only [comparePrimaryV2, compareLex, compareOn, Ordering.then_eq_eq,
    compare_eq_iff_eq] at h
  exact h.2.2

theorem compareB_id (h : compareBV2 a b = .eq) :
    a.sourceChunkId = b.sourceChunkId := by
  simp only [compareBV2, compareLex, Ordering.then_eq_eq] at h
  exact comparePrimary_id h.2.2

/-!
## The parts of the selection
-/

section Candidates

variable {candidates : List ExactCandidate} {policy : RetrievalPolicyIdentity}

theorem groups_versionKeys (candidates : List ExactCandidate) :
    Groups candidates (versionKeys candidates) where
  ordered := strict_sortBy (List.nodup_dedup _) fun _ _ _ _ => compareKeys_separates
  mem _ := mem_versionKeys

/-- The head of a group is its smallest candidate. -/
theorem primary_of_head (hhead : (versionGroup candidates key).head? = some c) :
    Primary candidates key c := by
  have hmem := mem_versionGroup.mp (List.mem_of_mem_head? hhead)
  refine ⟨hmem.1, hmem.2, ?_⟩
  intro c' hc' hkey
  have hgroup : c' ∈ versionGroup candidates key := mem_versionGroup.mpr ⟨hc', hkey⟩
  have hsorted := pairwise_sortBy comparePrimaryV2
    (candidates.filter fun c => decide (c.key = key))
  change (versionGroup candidates key).Pairwise _ at hsorted
  cases hcut : versionGroup candidates key with
  | nil =>
      rw [hcut] at hgroup
      exact absurd hgroup List.not_mem_nil
  | cons first rest =>
      rw [hcut] at hhead hgroup hsorted
      cases hhead
      rcases List.mem_cons.mp hgroup with rfl | hrest
      · have hself : comparePrimaryV2 c' c' = .eq := Std.ReflCmp.compare_self
        rw [hself]
        rfl
      · exact List.rel_of_pairwise_cons hsorted hrest

/-- Every key of a group has a smallest candidate. -/
theorem exists_heads (candidates : List ExactCandidate) :
    forall keys : List (Uuid × Uuid), (forall key, key ∈ keys -> key ∈ versionKeys candidates) ->
      exists primaries, List.Forall₂ (fun group primary => group.head? = some primary)
        (keys.map (versionGroup candidates)) primaries := by
  intro keys
  induction keys with
  | nil =>
      intro _
      exact ⟨[], .nil⟩
  | cons key keys ih =>
      intro hkeys
      rcases ih fun key' hmem => hkeys key' (List.mem_cons_of_mem key hmem) with
        ⟨primaries, hheads⟩
      rcases mem_versionKeys.mp (hkeys key List.mem_cons_self) with ⟨c, hc, hkey⟩
      have hgroup : c ∈ versionGroup candidates key := mem_versionGroup.mpr ⟨hc, hkey⟩
      cases hcut : versionGroup candidates key with
      | nil =>
          rw [hcut] at hgroup
          exact absurd hgroup List.not_mem_nil
      | cons first rest =>
          refine ⟨first :: primaries, ?_⟩
          rw [List.map_cons, hcut]
          exact .cons rfl hheads

variable {primaries : List ExactCandidate}

theorem primaries_smallest {keys : List (Uuid × Uuid)}
    (hheads : List.Forall₂ (fun group primary => group.head? = some primary)
      (keys.map (versionGroup candidates)) primaries) :
    List.Forall₂ (Primary candidates) keys primaries := by
  rw [List.forall₂_map_left_iff] at hheads
  exact hheads.imp fun _ _ => primary_of_head

theorem eq_of_id (hids : (candidates.map ExactCandidate.sourceChunkId).Nodup)
    (ha : a ∈ candidates) (hb : b ∈ candidates) (heq : a.sourceChunkId = b.sourceChunkId) : a = b :=
  List.inj_on_of_nodup_map hids ha hb heq

theorem others_remaining (hids : (candidates.map ExactCandidate.sourceChunkId).Nodup)
    (hsubset : forall c, c ∈ primaries -> c ∈ candidates) :
    Others candidates primaries (remainingExact candidates primaries) := by
  have hnodup : (((versionKeys candidates).flatMap (versionGroup candidates)).filter fun c =>
      decide (c.sourceChunkId ∉ primaries.map ExactCandidate.sourceChunkId)).Nodup :=
    (nodup_versionGroups (List.Nodup.of_map _ hids)).filter _
  have hmem : forall c, c ∈ remainingExact candidates primaries <->
      c ∈ candidates ∧ c ∉ primaries := by
    intro c
    rw [mem_remainingExact]
    constructor
    · rintro ⟨hc, hnot⟩
      exact ⟨hc, fun hprimary => hnot (List.mem_map_of_mem hprimary)⟩
    · rintro ⟨hc, hnot⟩
      refine ⟨hc, ?_⟩
      intro hid
      rcases List.mem_map.mp hid with ⟨c', hc', heq⟩
      exact hnot (eq_of_id hids (hsubset c' hc') hc heq ▸ hc')
  constructor
  · apply strict_sortBy hnodup
    intro a b ha hb heq
    exact eq_of_id hids ((hmem a).mp (mem_sortBy.mpr ha)).1 ((hmem b).mp (mem_sortBy.mpr hb)).1
      (compareB_id heq)
  · exact hmem

/-!
## The two passes
-/

theorem bytesOf_append (hits : List ExactCandidate) (c : ExactCandidate) :
    bytesOf (hits ++ [c]) = bytesOf hits + c.byteLength := by
  simp [bytesOf]

/-- Primaries that go over a byte quota when some bytes are already chosen. -/
def OverQuota (policy : RetrievalPolicyIdentity) (chosenBytes : Nat)
    (primaries : List ExactCandidate) : Prop :=
  (exists c, c ∈ primaries ∧ policy.maxChunkBytes < c.byteLength) ∨
    policy.maxTotalBytes < chosenBytes + bytesOf primaries

theorem overQuota_cons {chosenBytes : Nat} {primary : ExactCandidate}
    (hchunk : ¬ policy.maxChunkBytes < primary.byteLength) :
    OverQuota policy chosenBytes (primary :: primaries) <->
      OverQuota policy (chosenBytes + primary.byteLength) primaries := by
  unfold OverQuota
  rw [show bytesOf (primary :: primaries) = primary.byteLength + bytesOf primaries from rfl,
    Nat.add_assoc]
  simp only [List.mem_cons, exists_eq_or_imp, hchunk, false_or]

theorem takePrimary_refuses (pick : ExactPick) (primary : ExactCandidate)
    (rest : List ExactCandidate)
    (hover : policy.maxChunkBytes < primary.byteLength ∨
      policy.maxTotalBytes < pick.chosenBytes + primary.byteLength) :
    exists reason, takePrimary policy pick (primary :: rest) = .error (.quotaExceeded reason) := by
  unfold takePrimary
  dsimp only
  split
  · exact ⟨_, rfl⟩
  · rename_i hchunk
    have htotal := hover.resolve_left hchunk
    unfold checkedAdd
    by_cases hlt : pick.chosenBytes + primary.byteLength < 2 ^ 64
    · rw [if_pos hlt]
      dsimp only
      rw [if_pos htotal]
      exact ⟨_, rfl⟩
    · rw [if_neg hlt]
      exact ⟨_, rfl⟩

theorem takePrimary_takes (hbound : policy.maxTotalBytes < 2 ^ 64) (pick : ExactPick)
    (primary : ExactCandidate) (rest : List ExactCandidate)
    (hchunk : ¬ policy.maxChunkBytes < primary.byteLength)
    (htotal : ¬ policy.maxTotalBytes < pick.chosenBytes + primary.byteLength) :
    takePrimary policy pick (primary :: rest) = .ok (pick.push primary) := by
  have hroom := Nat.lt_of_le_of_lt (Nat.le_of_not_lt htotal) hbound
  unfold takePrimary
  dsimp only
  rw [if_neg hchunk, checkedAdd_of_lt hroom]
  dsimp only
  rw [if_neg htotal]
  rfl

/-- The first pass takes all primaries, or fails on a quota. -/
theorem takePrimaries_cases (hbound : policy.maxTotalBytes < 2 ^ 64)
    {groups : List (List ExactCandidate)}
    (hheads : List.Forall₂ (fun group primary => group.head? = some primary) groups primaries)
    (pick : ExactPick) (hpick : pick.chosenBytes ≤ policy.maxTotalBytes) :
    (OverQuota policy pick.chosenBytes primaries ∧
      exists reason, groups.foldlM (takePrimary policy) pick = .error (.quotaExceeded reason)) ∨
    (¬ OverQuota policy pick.chosenBytes primaries ∧
      groups.foldlM (takePrimary policy) pick =
        .ok ⟨pick.hits ++ primaries, pick.chosenBytes + bytesOf primaries⟩) := by
  induction hheads generalizing pick with
  | nil =>
      right
      constructor
      · rintro (⟨c, hc, _⟩ | hover)
        · exact absurd hc List.not_mem_nil
        · exact absurd hover (Nat.not_lt.mpr hpick)
      · rw [List.append_nil]
        rfl
  | @cons group primary groups primaries hhead hheads ih =>
      rcases List.head?_eq_some_iff.mp hhead with ⟨rest, rfl⟩
      rw [List.foldlM_cons]
      by_cases hover : policy.maxChunkBytes < primary.byteLength ∨
          policy.maxTotalBytes < pick.chosenBytes + primary.byteLength
      · left
        rcases takePrimary_refuses pick primary rest hover with ⟨reason, hfail⟩
        constructor
        · rcases hover with hchunk | htotal
          · exact Or.inl ⟨primary, List.mem_cons_self, hchunk⟩
          · have hsum : bytesOf (primary :: primaries) =
                primary.byteLength + bytesOf primaries := rfl
            exact Or.inr (by omega)
        · rw [hfail]
          exact ⟨reason, rfl⟩
      · rw [not_or] at hover
        rw [takePrimary_takes hbound pick primary rest hover.1 hover.2, overQuota_cons hover.1]
        have hnext := ih (pick.push primary) (Nat.le_of_not_lt hover.2)
        rw [show (pick.push primary).hits ++ primaries = pick.hits ++ primary :: primaries by
              rw [ExactPick.push, List.append_assoc, List.singleton_append],
          show (pick.push primary).chosenBytes + bytesOf primaries =
              pick.chosenBytes + bytesOf (primary :: primaries) from Nat.add_assoc _ _ _] at hnext
        exact hnext

/-- The fill of the source keeps the account of the bytes it has chosen. -/
theorem fillExact_eq (hbound : policy.maxTotalBytes < 2 ^ 64)
    (hcount : pick.chosenBytes = bytesOf pick.hits) (c : ExactCandidate) :
    fillExact policy pick c =
      ⟨offer (FitsQuota policy) pick.hits c, bytesOf (offer (FitsQuota policy) pick.hits c)⟩ := by
  by_cases hfits : FitsQuota policy pick.hits c
  · rcases hfits with ⟨hroom, hchunk, htotal⟩
    rw [offer_of_fits ⟨hroom, hchunk, htotal⟩, bytesOf_append]
    have hquota : ¬ (policy.maxHits ≤ pick.hits.length ∨
        policy.maxChunkBytes < c.byteLength) := by
      omega
    rw [← hcount] at htotal ⊢
    unfold fillExact
    rw [if_neg hquota, checkedAdd_of_lt (Nat.lt_of_le_of_lt htotal hbound)]
    dsimp only
    rw [if_neg (Nat.not_lt.mpr htotal)]
  · rw [offer_of_not_fits hfits]
    have hkept : fillExact policy pick c = pick := by
      rcases fillExact_cases policy pick c with hskip | ⟨_, hroom, hchunk, htotal⟩
      · exact hskip
      · rw [hcount] at htotal
        exact absurd ⟨hroom, hchunk, htotal⟩ hfits
    rw [hkept, ← hcount]

theorem fillAll_eq (hbound : policy.maxTotalBytes < 2 ^ 64) (others : List ExactCandidate)
    (hcount : pick.chosenBytes = bytesOf pick.hits) :
    (others.foldl (fillExact policy) pick).hits = fill (FitsQuota policy) pick.hits others := by
  induction others generalizing pick with
  | nil =>
      rfl
  | cons c others ih =>
      rw [List.foldl_cons, fillExact_eq hbound hcount]
      exact ih rfl

/-!
## The selection
-/

variable {candidates' : List ExactCandidate}

theorem versionKeys_perm (hperm : candidates'.Perm candidates) :
    versionKeys candidates' = versionKeys candidates :=
  sortBy_eq_of_perm (hperm.map ExactCandidate.key).dedup fun _ _ _ _ => compareKeys_separates

theorem versionGroup_perm (hids : (candidates.map ExactCandidate.sourceChunkId).Nodup)
    (hperm : candidates'.Perm candidates) :
    versionGroup candidates' = versionGroup candidates := by
  funext key
  apply sortBy_eq_of_perm (hperm.filter _)
  intro a b ha hb heq
  have hmem : forall c, c ∈ candidates'.filter (fun c => decide (c.key = key)) ->
      c ∈ candidates :=
    fun c hc => hperm.mem_iff.mp (List.mem_of_mem_filter hc)
  exact eq_of_id hids (hmem a ha) (hmem b hb) (comparePrimary_id heq)

theorem selectExactPrefix_perm (hids : (candidates.map ExactCandidate.sourceChunkId).Nodup)
    (hperm : candidates'.Perm candidates) :
    selectExactPrefixV2 candidates' policy = selectExactPrefixV2 candidates policy := by
  unfold selectExactPrefixV2 remainingExact
  rw [versionKeys_perm hperm, versionGroup_perm hids hperm, hperm.length_eq]

/-- A fill of affordable primaries with the other candidates is fair. -/
theorem fair_fill (hids : (candidates.map ExactCandidate.sourceChunkId).Nodup)
    (keys : List (Uuid × Uuid)) {primaries others : List ExactCandidate}
    (hsubset : forall c, c ∈ primaries -> c ∈ candidates) (hnodup : primaries.Nodup)
    (hothers : Others candidates primaries others) (hlength : primaries.length ≤ policy.maxHits)
    (hafford : ¬ Unaffordable policy primaries) :
    Fair candidates policy keys primaries others
      ⟨fill (FitsQuota policy) primaries others, keys.length - policy.maxHits,
        candidates.length - (fill (FitsQuota policy) primaries others).length⟩ := by
  have hnodupOthers : others.Nodup := by
    apply hothers.ordered.imp
    rintro a b hlt rfl
    have hself : compareBV2 a a = .eq := Std.ReflCmp.compare_self
    rw [hself] at hlt
    cases hlt
  have hmem : forall c, c ∈ fill (FitsQuota policy) primaries others -> c ∈ candidates := by
    intro c hc
    rcases mem_fill hc with hprimary | hother
    · exact hsubset c hprimary
    · exact ((hothers.mem c).mp hother).1
  have hnodupHits : (fill (FitsQuota policy) primaries others).Nodup :=
    nodup_fill hnodup hnodupOthers fun c hc => ((hothers.mem c).mp hc).2
  have hquotas : (fill (FitsQuota policy) primaries others).length ≤ policy.maxHits ∧
      (forall c, c ∈ fill (FitsQuota policy) primaries others ->
        c.byteLength ≤ policy.maxChunkBytes) ∧
      bytesOf (fill (FitsQuota policy) primaries others) ≤ policy.maxTotalBytes := by
    apply fill_invariant (P := fun hits : List ExactCandidate => hits.length ≤ policy.maxHits ∧
      (forall c, c ∈ hits -> c.byteLength ≤ policy.maxChunkBytes) ∧
      bytesOf hits ≤ policy.maxTotalBytes)
    · rintro chosen c ⟨_, hchunks, _⟩ ⟨hroom, hchunk, htotal⟩
      refine ⟨?_, ?_, ?_⟩
      · rw [List.length_append, List.length_singleton]
        exact hroom
      · intro c' hc'
        rcases List.mem_append.mp hc' with hold | hnew
        · exact hchunks c' hold
        · rw [List.mem_singleton.mp hnew]
          exact hchunk
      · rw [bytesOf_append]
        exact htotal
    · refine ⟨hlength, ?_, ?_⟩
      · intro c hc
        exact Nat.le_of_not_lt fun hlt => hafford (Or.inl ⟨c, hc, hlt⟩)
      · exact Nat.le_of_not_lt fun hlt => hafford (Or.inr hlt)
  constructor
  · rcases fill_eq_append (FitsQuota policy) primaries others with ⟨added, _, heq⟩
    rw [heq]
    exact List.prefix_append primaries added
  · rfl
  · intro before c after hsplit
    have hc : c ∉ primaries := by
      apply ((hothers.mem c).mp _).2
      rw [hsplit]
      exact List.mem_append_right before List.mem_cons_self
    have hparts := hnodupOthers
    rw [hsplit, List.nodup_append, List.nodup_cons] at hparts
    rw [hsplit]
    apply mem_fill_iff hc
    · intro hbefore
      exact hparts.2.2 c hbefore c List.mem_cons_self rfl
    · exact hparts.2.1.1
  · apply hnodupHits.map_on
    intro c hc c' hc' heq
    exact eq_of_id hids (hmem c hc) (hmem c' hc') heq
  · exact hquotas.1
  · exact hquotas.2.1
  · exact hquotas.2.2
  · exact Nat.sub_add_cancel (List.subperm_of_subset hnodupHits hmem).length_le
  · rw [List.length_drop]

end Candidates

/-- The selection fails exactly when its primaries are over a byte quota, is fair
otherwise, and does not depend on the order of the candidates. -/
theorem selectExactPrefixV2_fair (candidates : List ExactCandidate)
    (policy : RetrievalPolicyIdentity)
    (hids : (candidates.map ExactCandidate.sourceChunkId).Nodup)
    (hbound : policy.maxTotalBytes < 2 ^ 64) :
    (exists keys primaries others, Groups candidates keys ∧
      List.Forall₂ (Primary candidates) (keys.take policy.maxHits) primaries ∧
      Others candidates primaries others ∧
      ((Unaffordable policy primaries ∧
          exists reason, selectExactPrefixV2 candidates policy = .error (.quotaExceeded reason)) ∨
        (¬ Unaffordable policy primaries ∧
          exists selection, selectExactPrefixV2 candidates policy = .ok selection ∧
            Fair candidates policy keys primaries others selection))) ∧
    forall candidates', candidates'.Perm candidates ->
      selectExactPrefixV2 candidates' policy = selectExactPrefixV2 candidates policy := by
  constructor
  · rcases exists_heads candidates ((versionKeys candidates).take policy.maxHits)
      (fun key hmem => List.mem_of_mem_take hmem) with ⟨primaries, hheads⟩
    rcases primaries_of_heads hheads with ⟨hkeys, hsubset⟩
    refine ⟨versionKeys candidates, primaries, remainingExact candidates primaries,
      groups_versionKeys candidates, primaries_smallest hheads, others_remaining hids hsubset, ?_⟩
    rw [List.map_take] at hheads
    have hpass := takePrimaries_cases hbound hheads ⟨[], 0⟩ (Nat.zero_le _)
    unfold OverQuota at hpass
    rw [Nat.zero_add, List.nil_append] at hpass
    rcases hpass with ⟨hover, reason, hfail⟩ | ⟨hafford, htake⟩
    · left
      refine ⟨hover, reason, ?_⟩
      unfold selectExactPrefixV2
      dsimp only
      rw [hfail]
      rfl
    · right
      have hhits := fillAll_eq hbound (remainingExact candidates primaries)
        (show (⟨primaries, bytesOf primaries⟩ : ExactPick).chosenBytes = bytesOf primaries from rfl)
      have hnodup : primaries.Nodup := by
        apply List.Nodup.of_map ExactCandidate.key
        rw [hkeys]
        exact (nodup_versionKeys candidates).sublist (List.take_sublist _ _)
      have hlength : primaries.length ≤ policy.maxHits := by
        rw [← List.length_map (f := ExactCandidate.key), hkeys]
        exact List.length_take_le _ _
      refine ⟨hafford, _, ?_, fair_fill hids (versionKeys candidates) hsubset hnodup
        (others_remaining hids hsubset) hlength hafford⟩
      unfold selectExactPrefixV2
      dsimp only
      rw [htake]
      show Except.ok _ = Except.ok _
      rw [hhits, List.length_map]
  · intro candidates' hperm
    exact selectExactPrefix_perm hids hperm

/-- A document with one chunk in one version of a product. -/
def exactCandidate (id : Uuid) (chunk : String) : ExactCandidate where
  documentId := id
  sourceChunkId := id
  productId := 1
  productVersionId := 1
  frozenDocumentDisplayName := "manual".toList
  chunkUtf8 := chunk.toList
  sourceType := .text

def smallQuota : RetrievalPolicyIdentity where
  contractVersion := contractV2
  policySha256 := []
  maxHits := 2
  maxChunkBytes := 10
  maxTotalBytes := 10

/-- The shorter chunk comes first, whichever was found first. -/
theorem selectExactPrefixV2_fair_two :
    selectExactPrefixV2 [exactCandidate 2 "30 kg", exactCandidate 1 "30 kg."] smallQuota =
      selectExactPrefixV2 [exactCandidate 1 "30 kg.", exactCandidate 2 "30 kg"] smallQuota :=
  (selectExactPrefixV2_fair [exactCandidate 1 "30 kg.", exactCandidate 2 "30 kg"] smallQuota
    (by decide) (by decide)).2 _ (List.Perm.swap _ _ _)

end Retrieval
end KnowledgeBrain
