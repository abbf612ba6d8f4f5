import KnowledgeBrain.Retrieval.Fusion

/-!
# Recall does not depend on iteration orders

Recall iterates over a hash set of signals, a hash map of sources and a hash map
of folded ranks.  Here these orders are parameters.  A signal contributes ranks
to one source at most, the smallest ranks do not depend on the order of the
contributions, and the candidates are put in a strict order.
-/

namespace KnowledgeBrain
namespace Retrieval

open Foundation
open Chunker (Text contains)
open Workflow (Uuid)

/-!
# The order of the candidates
-/

/-- A comparison that is a strict total order on items of different ids. -/
structure StrictTotal {A : Type} (cmp : A -> A -> Ordering) (id : A -> Uuid) : Prop where
  irrefl : forall a, cmp a a ≠ .lt
  trans : forall a b c, cmp a b = .lt -> cmp b c = .lt -> cmp a c = .lt
  total : forall a b, id a ≠ id b -> cmp a b = .lt ∨ cmp b a = .lt

theorem optionRank_eq (left right : Option Nat) :
    optionRank left right =
      compareLex (compareOn Option.isNone) (compareOn fun rank => rank.getD 0) left right := by
  cases left with
  | none =>
      cases right with
      | none => rfl
      | some r => rfl
  | some l =>
      cases right with
      | none => rfl
      | some r => rfl

theorem compareCandidates_eq : compareCandidates =
    compareLex (fun left right => compareOn (fun c => c.exactRrfScore.value) right left)
      (compareLex (compareOn fun c => c.vectorRank.isNone)
      (compareLex (compareOn fun c => c.vectorRank.getD 0)
      (compareLex (compareOn fun c => c.keywordRank.isNone)
      (compareLex (compareOn fun c => c.keywordRank.getD 0)
      (compareLex (compareOn SemanticCandidate.productId)
      (compareLex (compareOn SemanticCandidate.productVersionId)
      (compareLex (compareOn SemanticCandidate.documentId)
        (compareOn SemanticCandidate.sourceChunkId)))))))) := by
  funext left right
  unfold compareCandidates
  rw [cmpExact_eq, optionRank_eq, optionRank_eq]
  simp only [compareLex, compareOn, Ordering.then_assoc]

instance : Std.TransCmp compareCandidates := by
  rw [compareCandidates_eq]
  infer_instance

theorem compareCandidates_id {a b : SemanticCandidate} (h : compareCandidates a b = .eq) :
    a.sourceChunkId = b.sourceChunkId := by
  unfold compareCandidates at h
  simp only [Ordering.then_eq_eq, compare_eq_iff_eq] at h
  exact h.2.2.2.2.2.2

theorem compareCandidates_strictTotal :
    StrictTotal compareCandidates SemanticCandidate.sourceChunkId where
  irrefl a h := by
    have hself : compareCandidates a a = .eq := Std.ReflCmp.compare_self
    rw [hself] at h
    cases h
  trans _ _ _ hab hbc := Std.TransCmp.lt_trans hab hbc
  total a b hne := by
    cases hcmp : compareCandidates a b with
    | lt =>
        exact Or.inl rfl
    | eq =>
        exact absurd (compareCandidates_id hcmp) hne
    | gt =>
        exact Or.inr (Std.OrientedCmp.lt_of_gt hcmp)

/-!
# Contributions
-/

/-- The source that a signal contributes ranks to, and these ranks. -/
def contribution (scope : RecallScope) (signalId : Uuid) :
    Except RetrievalError (Option (Uuid × FoldedRanks)) := do
  let signal ← require (integrity "ranked signal left snapshot scope")
    (findSignal scope.signals signalId)
  match ← foldSignal signal scope.signals scope.sources scope.graphRefs scope.wikiRefs with
  | none => return none
  | some sourceId =>
      if sourceId ∈ scope.exactSourceChunkIds then return none
      else return some (sourceId,
        ⟨scope.vectorRanks.lookup signalId, scope.keywordRanks.lookup signalId⟩)

def contribute (folded : Table Uuid FoldedRanks) : Option (Uuid × FoldedRanks) ->
    Table Uuid FoldedRanks
  | none => folded
  | some (sourceId, ranks) =>
      folded.upsert sourceId (FoldedRanks.improve ⟨none, none⟩ ranks.vectorRank ranks.keywordRank)
        (fun old => old.improve ranks.vectorRank ranks.keywordRank)

theorem foldActive_eq (scope : RecallScope) (folded : Table Uuid FoldedRanks)
    (signalId : Uuid) :
    foldActive scope folded signalId =
      (contribution scope signalId).map (contribute folded) := by
  unfold foldActive contribution
  cases findSignal scope.signals signalId with
  | none =>
      rfl
  | some signal =>
      show (foldSignal signal _ _ _ _ >>= _) = Except.map _ (foldSignal signal _ _ _ _ >>= _)
      cases foldSignal signal scope.signals scope.sources scope.graphRefs scope.wikiRefs with
      | error e =>
          rfl
      | ok target =>
          cases target with
          | none =>
              rfl
          | some sourceId =>
              show (if sourceId ∈ scope.exactSourceChunkIds then _ else _) =
                Except.map _ (if sourceId ∈ scope.exactSourceChunkIds then _ else _)
              split
              · rfl
              · rfl

/-- The loop over the signals collects their contributions. -/
theorem foldlM_foldActive {scope : RecallScope} {active : List Uuid}
    {folded folded' : Table Uuid FoldedRanks} :
    active.foldlM (foldActive scope) folded = .ok folded' <->
      exists parts, active.mapM (contribution scope) = .ok parts ∧
        folded' = parts.foldl contribute folded := by
  induction active generalizing folded with
  | nil =>
      constructor
      · intro h
        cases h
        exact ⟨[], rfl, rfl⟩
      · rintro ⟨parts, hparts, rfl⟩
        cases hparts
        rfl
  | cons signalId active ih =>
      rw [List.foldlM_cons, List.mapM_cons, foldActive_eq]
      cases contribution scope signalId with
      | error e =>
          constructor
          · intro h
            cases h
          · rintro ⟨parts, hparts, _⟩
            cases hparts
      | ok part =>
          show active.foldlM (foldActive scope) (contribute folded part) = .ok folded' <-> _
          rw [ih]
          constructor
          · rintro ⟨parts, hparts, rfl⟩
            refine ⟨part :: parts, ?_, rfl⟩
            show (active.mapM (contribution scope) >>= _) = _
            rw [hparts]
            rfl
          · rintro ⟨parts, hparts, rfl⟩
            rcases bind_eq_ok hparts with ⟨first, hfirst, hrest⟩
            cases hfirst
            rcases bind_eq_ok hrest with ⟨rest, hothers, hlast⟩
            cases hlast
            exact ⟨rest, hothers, rfl⟩

/-- The ranks of a source after one more contribution. -/
def merged (ranks : Option FoldedRanks) (part : FoldedRanks) : Option FoldedRanks :=
  some ((ranks.getD ⟨none, none⟩).improve part.vectorRank part.keywordRank)

/-- The ranks that a contribution has for a source. -/
def partFor (sourceId : Uuid) (part : Option (Uuid × FoldedRanks)) : Option FoldedRanks :=
  part.bind fun entry => if sourceId = entry.1 then some entry.2 else none

theorem lookup_contribute (folded : Table Uuid FoldedRanks) (part : Option (Uuid × FoldedRanks))
    (sourceId : Uuid) :
    (contribute folded part).lookup sourceId =
      match partFor sourceId part with
      | none => folded.lookup sourceId
      | some ranks => merged (folded.lookup sourceId) ranks := by
  cases part with
  | none =>
      rfl
  | some entry =>
      unfold contribute partFor
      rw [Table.lookup_upsert]
      by_cases hid : sourceId = entry.1
      · subst hid
        simp only [if_true, Option.bind_some]
        unfold merged
        cases folded.lookup entry.1 with
        | none => rfl
        | some old => rfl
      · simp only [if_neg hid, Option.bind_some]

theorem lookup_foldl_contribute (parts : List (Option (Uuid × FoldedRanks)))
    (folded : Table Uuid FoldedRanks) (sourceId : Uuid) :
    (parts.foldl contribute folded).lookup sourceId =
      (parts.filterMap (partFor sourceId)).foldl merged (folded.lookup sourceId) := by
  induction parts generalizing folded with
  | nil =>
      rfl
  | cons part parts ih =>
      rw [List.foldl_cons, ih, lookup_contribute, List.filterMap_cons]
      cases partFor sourceId part with
      | none => rfl
      | some ranks => rfl

theorem improve_right_comm (old a b : Option Nat) :
    improve (improve old a) b = improve (improve old b) a := by
  cases a with
  | none => rfl
  | some a =>
      cases b with
      | none => rfl
      | some b =>
          cases old with
          | none =>
              exact congrArg some (Nat.min_comm a b)
          | some old =>
              exact congrArg some (Nat.min_right_comm old a b)

theorem merged_right_comm (ranks : Option FoldedRanks) (a b : FoldedRanks) :
    merged (merged ranks a) b = merged (merged ranks b) a := by
  unfold merged
  rw [Option.getD_some, Option.getD_some]
  unfold FoldedRanks.improve
  rw [improve_right_comm _ a.vectorRank, improve_right_comm _ a.keywordRank]

theorem lookup_contributions_of_perm {parts parts' : List (Option (Uuid × FoldedRanks))}
    (hperm : parts.Perm parts') (sourceId : Uuid) :
    (parts'.foldl contribute Table.empty).lookup sourceId =
      (parts.foldl contribute Table.empty).lookup sourceId := by
  rw [lookup_foldl_contribute, lookup_foldl_contribute]
  apply (hperm.filterMap (partFor sourceId)).symm.foldl_eq'
  intro a _ b _ ranks
  exact merged_right_comm ranks a b

/-!
# Scopes that differ in their orders
-/

/-- Two scopes with the same entries in different orders. -/
structure SameScope (scope scope' : RecallScope) : Prop where
  signals : scope'.signals = scope.signals
  sources : scope.sources.Perm scope'.sources
  ids : (scope.sources.map Source.id).Nodup
  keywordRanks : scope'.keywordRanks = scope.keywordRanks
  vectorRanks : scope'.vectorRanks = scope.vectorRanks
  graphRefs : forall id, scope'.graphRefs.lookup id = scope.graphRefs.lookup id
  wikiRefs : forall id, scope'.wikiRefs.lookup id = scope.wikiRefs.lookup id
  exactIds : forall id, id ∈ scope'.exactSourceChunkIds <-> id ∈ scope.exactSourceChunkIds

variable {sources sources' : List Source}

theorem sameScope_recallScope (lib : Library) (normalizedRequirement : Text)
    (signals : List Signal) (keywordRanks vectorRanks : Table Uuid Nat)
    (hsources : sources.Perm sources') (hids : (sources.map Source.id).Nodup)
    {graphRefs graphRefs' wikiRefs wikiRefs' : List (Uuid × List Uuid)}
    (hgraph : forall id, graphRefs'.lookup id = graphRefs.lookup id)
    (hwiki : forall id, wikiRefs'.lookup id = wikiRefs.lookup id) :
    SameScope
      (recallScope lib normalizedRequirement signals sources keywordRanks vectorRanks graphRefs
        wikiRefs)
      (recallScope lib normalizedRequirement signals sources' keywordRanks vectorRanks graphRefs'
        wikiRefs') where
  signals := rfl
  sources := hsources
  ids := hids
  keywordRanks := rfl
  vectorRanks := rfl
  graphRefs := hgraph
  wikiRefs := hwiki
  exactIds _ := ((hsources.filter _).map Source.id).mem_iff.symm

theorem findSource_of_perm (hperm : sources.Perm sources') (hids : (sources.map Source.id).Nodup)
    (id : Uuid) :
    findSource sources' id = findSource sources id := by
  apply find?_of_perm hperm
  intro a b ha hb hida hidb
  rw [decide_eq_true_eq] at hida hidb
  exact List.inj_on_of_nodup_map hids ha hb (hida.trans hidb.symm)

variable {scope scope' : RecallScope}

theorem signalTargets_perm (h : SameScope scope scope') (signal : Signal) :
    (signalTargets signal scope.sources scope.graphRefs scope.wikiRefs).Perm
      (signalTargets signal scope'.sources scope'.graphRefs scope'.wikiRefs) := by
  unfold signalTargets
  rw [h.graphRefs, h.wikiRefs]
  split
  · exact List.Perm.refl _
  · exact List.Perm.refl _
  · exact List.Perm.refl _
  · exact List.Perm.refl _
  · exact List.Perm.refl _
  · split
    · exact List.Perm.refl _
    · exact (h.sources.filter _).map Source.id
  · exact List.Perm.refl _
  · exact List.Perm.refl _
  · exact List.Perm.refl _

/-- Only whether there is one target matters, and which. -/
theorem foldSignal_same (h : SameScope scope scope') (signal : Signal) :
    foldSignal signal scope'.signals scope'.sources scope'.graphRefs scope'.wikiRefs =
      foldSignal signal scope.signals scope.sources scope.graphRefs scope.wikiRefs := by
  have hperm := signalTargets_perm h signal
  unfold foldSignal
  rw [h.signals]
  generalize signalTargets signal scope.sources scope.graphRefs scope.wikiRefs = targets at hperm
  generalize signalTargets signal scope'.sources scope'.graphRefs scope'.wikiRefs = targets'
    at hperm
  have hlength := hperm.length_eq
  cases targets with
  | nil =>
      rw [List.nil_perm.mp hperm]
  | cons id rest =>
      cases rest with
      | nil =>
          rw [← List.singleton_perm.mp hperm]
          have hsource := findSource_of_perm h.sources h.ids id
          simp only [hsource]
      | cons second rest =>
          cases targets' with
          | nil =>
              cases hlength
          | cons id' rest' =>
              cases rest' with
              | nil =>
                  cases hlength
              | cons second' rest' =>
                  rfl

theorem contribution_same (h : SameScope scope scope') (signalId : Uuid) :
    contribution scope' signalId = contribution scope signalId := by
  unfold contribution
  rw [h.signals, h.vectorRanks, h.keywordRanks]
  congr 1
  funext signal
  have hfold := foldSignal_same h signal
  rw [h.signals] at hfold
  rw [hfold]
  congr 1
  funext target
  cases target with
  | none =>
      rfl
  | some sourceId =>
      dsimp only
      by_cases hexact : sourceId ∈ scope.exactSourceChunkIds
      · rw [if_pos hexact, if_pos ((h.exactIds sourceId).mpr hexact)]
      · rw [if_neg hexact, if_neg fun hmem => hexact ((h.exactIds sourceId).mp hmem)]

variable {active active' : List Uuid}

theorem folded_of_perm (h : SameScope scope scope') (hactive : active.Perm active')
    {folded : Table Uuid FoldedRanks}
    (hrun : active.foldlM (foldActive scope) Table.empty = .ok folded) :
    exists folded', active'.foldlM (foldActive scope') Table.empty = .ok folded' ∧
      folded'.rows.Perm folded.rows := by
  rcases foldlM_foldActive.mp hrun with ⟨parts, hparts, rfl⟩
  have hsame : contribution scope' = contribution scope := funext (contribution_same h)
  rw [← hsame] at hparts
  rcases mapM_of_perm hactive hparts with ⟨parts', hparts', hperm⟩
  refine ⟨_, foldlM_foldActive.mpr ⟨parts', hparts', rfl⟩, ?_⟩
  exact rows_perm_of_lookup (lookup_contributions_of_perm hperm.symm)

/-!
# Loading
-/

theorem nodup_loadSources (s : Snapshot) (kind : WorkspaceKind) (versions : List Uuid) :
    ((s.loadSources kind versions).map Source.id).Nodup := by
  have hid : forall row source, s.joinedChunk kind versions ChunkType.isTrusted row = some source ->
      source.id = row.1 := by
    intro row source hjoin
    unfold Snapshot.joinedChunk at hjoin
    rcases Option.bind_eq_some_iff.mp hjoin with ⟨d, _, hjoin⟩
    rcases Option.bind_eq_some_iff.mp hjoin with ⟨v, _, hjoin⟩
    rcases Option.bind_eq_some_iff.mp hjoin with ⟨p, _, hjoin⟩
    rcases Option.bind_eq_some_iff.mp hjoin with ⟨w, _, hjoin⟩
    split at hjoin
    · cases hjoin
      rfl
    · cases hjoin
  exact s.chunks.nodup.sublist (sublist_filterMap hid s.chunks.rows)

variable {refs : List (Uuid × List Uuid)}

/-- References of distinct signals are looked up the same in any order. -/
theorem refs_of_perm {Row : Type} {row : Uuid -> Option (Uuid × Row)}
    (hrow : forall id entry, row id = some entry -> entry.1 = id)
    {parse : Uuid × Row -> Except RetrievalError (Uuid × List Uuid)}
    (hparse : forall entry refs, parse entry = .ok refs -> refs.1 = entry.1) {p : Uuid -> Bool}
    (hactive : active.Perm active') (hnodup : active.Nodup)
    (hrun : ((active.filter p).filterMap row).mapM parse = .ok refs) :
    exists refs', ((active'.filter p).filterMap row).mapM parse = .ok refs' ∧
      forall id, refs'.lookup id = refs.lookup id := by
  rcases mapM_of_perm ((hactive.filter p).filterMap row) hrun with ⟨refs', hrun', hperm⟩
  refine ⟨refs', hrun', ?_⟩
  intro id
  apply lookup_of_perm hperm.symm
  have hkeys : refs.map Prod.fst = ((active.filter p).filterMap row).map Prod.fst :=
    map_of_mapM hparse hrun
  rw [hkeys]
  have hids := sublist_filterMap hrow (active.filter p)
  rw [List.map_id'] at hids
  exact (hnodup.filter p).sublist hids

variable {s : Snapshot}

theorem graphRefs_of_perm {signals : List Signal} (hactive : active.Perm active')
    (hnodup : active.Nodup) (hrun : s.loadGraphRefs signals active = .ok refs) :
    exists refs', s.loadGraphRefs signals active' = .ok refs' ∧
      forall id, refs'.lookup id = refs.lookup id := by
  unfold Snapshot.loadGraphRefs at hrun ⊢
  refine refs_of_perm ?_ ?_ hactive hnodup hrun
  · intro id entry hentry
    unfold Snapshot.graphRow at hentry
    rcases Option.bind_eq_some_iff.mp hentry with ⟨c, _, hentry⟩
    rcases Option.bind_eq_some_iff.mp hentry with ⟨ids, _, hentry⟩
    split at hentry
    · cases hentry
      rfl
    · cases hentry
  · intro entry refs hparse
    rcases bind_eq_ok hparse with ⟨parsed, _, hparse⟩
    cases hparse
    rfl

variable {lib : Library}

theorem wikiRefs_of_perm {signals : List Signal} (hactive : active.Perm active')
    (hnodup : active.Nodup) (hrun : s.loadWikiRefs lib signals active = .ok refs) :
    exists refs', s.loadWikiRefs lib signals active' = .ok refs' ∧
      forall id, refs'.lookup id = refs.lookup id := by
  unfold Snapshot.loadWikiRefs at hrun ⊢
  refine refs_of_perm ?_ ?_ hactive hnodup hrun
  · intro id entry hentry
    unfold Snapshot.wikiRow at hentry
    rcases Option.bind_eq_some_iff.mp hentry with ⟨c, _, hentry⟩
    rcases Option.bind_eq_some_iff.mp hentry with ⟨page, _, hentry⟩
    split at hentry
    · cases hentry
      rfl
    · cases hentry
  · intro entry refs hparse
    rcases bind_eq_ok hparse with ⟨parsed, _, hparse⟩
    cases hparse
    rfl

/-!
# The list before reranking
-/

variable {policy : RetrievalPolicy}

theorem rankCandidates_of_perm {candidates candidates' : List SemanticCandidate}
    (hperm : candidates.Perm candidates')
    (hids : (candidates.map SemanticCandidate.sourceChunkId).Nodup) :
    rankCandidates policy candidates' = rankCandidates policy candidates := by
  unfold rankCandidates
  rw [sortBy_eq_of_perm hperm]
  intro a b ha hb heq
  exact List.inj_on_of_nodup_map hids ha hb (compareCandidates_id heq)

theorem semanticCandidate_same (hperm : sources.Perm sources')
    (hids : (sources.map Source.id).Nodup) :
    semanticCandidate lib policy sources' = semanticCandidate lib policy sources := by
  funext entry
  unfold semanticCandidate
  rw [findSource_of_perm hperm hids]

/-- A recall that succeeds in one order returns the same list in every order. -/
theorem recallInOrder_same {order order' : IterationOrder} {kind : WorkspaceKind}
    {selectedVersions : List Uuid} {requirementText : Text} {queryEmbedding : Text}
    {candidates : List SemanticCandidate}
    (hrun : recallInOrder order lib s kind selectedVersions requirementText policy queryEmbedding =
      .ok candidates) :
    recallInOrder order' lib s kind selectedVersions requirementText policy queryEmbedding =
      .ok candidates := by
  unfold recallInOrder at hrun
  rcases bind_eq_ok hrun with ⟨_, hnonempty, hrun⟩
  rcases bind_eq_ok hrun with ⟨_, hscope, hrun⟩
  rcases bind_eq_ok hrun with ⟨_, hfresh, hrun⟩
  rcases bind_eq_ok hrun with ⟨keywordRanks, hkeyword, hrun⟩
  rcases bind_eq_ok hrun with ⟨vectorRanks, hvector, hrun⟩
  rcases bind_eq_ok hrun with ⟨graphRefs, hgraph, hrun⟩
  rcases bind_eq_ok hrun with ⟨wikiRefs, hwiki, hrun⟩
  rcases bind_eq_ok hrun with ⟨folded, hfolded, hrun⟩
  rcases bind_eq_ok hrun with ⟨unsorted, hunsorted, hranked⟩
  have hactive := (order.signals_perm
    (keywordRanks.rows.map Prod.fst ++ vectorRanks.rows.map Prod.fst).dedup).trans
    (order'.signals_perm
      (keywordRanks.rows.map Prod.fst ++ vectorRanks.rows.map Prod.fst).dedup).symm
  have hdistinct : (order.signals
      (keywordRanks.rows.map Prod.fst ++ vectorRanks.rows.map Prod.fst).dedup).Nodup :=
    (order.signals_perm _).nodup_iff.mpr (List.nodup_dedup _)
  have hsources := (order.sources_perm (s.loadSources kind
    (s.eligibleVersionIds kind selectedVersions))).trans (order'.sources_perm (s.loadSources kind
      (s.eligibleVersionIds kind selectedVersions))).symm
  have hids : ((order.sources (s.loadSources kind
      (s.eligibleVersionIds kind selectedVersions))).map Source.id).Nodup :=
    ((order.sources_perm _).map Source.id).nodup_iff.mpr (nodup_loadSources s kind _)
  rcases graphRefs_of_perm hactive hdistinct hgraph with ⟨graphRefs', hgraph', hgraphSame⟩
  rcases wikiRefs_of_perm hactive hdistinct hwiki with ⟨wikiRefs', hwiki', hwikiSame⟩
  have hsame := sameScope_recallScope lib (normalizeExactV2 lib requirementText)
    (s.loadSignals kind (s.eligibleVersionIds kind selectedVersions)) keywordRanks vectorRanks
    hsources hids hgraphSame hwikiSame
  rcases folded_of_perm hsame hactive hfolded with ⟨folded', hfolded', hrows⟩
  have hentries := (order.folded_perm folded.rows).trans
    (hrows.symm.trans (order'.folded_perm folded'.rows).symm)
  rcases mapM_of_perm hentries hunsorted with ⟨unsorted', hunsorted', hcandidates⟩
  have hcandidateIds : (unsorted.map SemanticCandidate.sourceChunkId).Nodup := by
    have hkeys : unsorted.map SemanticCandidate.sourceChunkId =
        (order.folded folded.rows).map Prod.fst :=
      map_of_mapM (fun _ _ h => (semanticCandidate_eq_ok h).1) hunsorted
    rw [hkeys]
    exact ((order.folded_perm folded.rows).map Prod.fst).nodup_iff.mpr folded.nodup
  unfold recallInOrder
  rw [ok_bind hnonempty, ok_bind hscope, ok_bind hfresh, ok_bind hkeyword, ok_bind hvector,
    ok_bind hgraph', ok_bind hwiki', ok_bind hfolded', semanticCandidate_same hsources hids,
    ok_bind hunsorted', rankCandidates_of_perm hcandidates.symm hcandidateIds]
  exact hranked

/-- Rank fusion is exact: scores of an accepted policy are the sums of their
reciprocal ranks, candidates are strictly ordered, and the list before reranking
does not depend on the order of any hash collection. -/
theorem rank_fusion_is_exact :
    (forall policy : RetrievalPolicyV2, policy.validate = .ok () ->
      forall vectorRank keywordRank : Option Nat,
        (forall rank, vectorRank = some rank -> rank ≤ policy.embedding.topK) ->
        (forall rank, keywordRank = some rank -> rank ≤ policy.keyword.topK) ->
        vectorRank ≠ none ∨ keywordRank ≠ none ->
        exists score, rrfScore policy.readPart vectorRank keywordRank = .ok score ∧
          score.Represents
            (reciprocal policy.rrf.vectorWeightMillionths policy.rrf.k vectorRank +
              reciprocal policy.rrf.keywordWeightMillionths policy.rrf.k keywordRank)) ∧
    StrictTotal compareCandidates SemanticCandidate.sourceChunkId ∧
    forall order order' lib s kind selectedVersions requirementText policy queryEmbedding
        candidates,
      recallInOrder order lib s kind selectedVersions requirementText policy queryEmbedding =
          .ok candidates ->
        recallInOrder order' lib s kind selectedVersions requirementText policy queryEmbedding =
          .ok candidates := by
  refine ⟨?_, compareCandidates_strictTotal, ?_⟩
  · intro policy hvalid vectorRank keywordRank hvector hkeyword hsome
    exact rrfScore_represents (inRange_of_validate hvalid) hvector hkeyword hsome
  · intro order order' lib s kind selectedVersions requirementText policy queryEmbedding
      candidates hrun
    exact recallInOrder_same hrun

end Retrieval
end KnowledgeBrain
