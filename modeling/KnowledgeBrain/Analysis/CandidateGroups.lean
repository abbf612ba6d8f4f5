import KnowledgeBrain.Foundation.UnionFind
import Mathlib.Data.Finset.Union

/-!
# Groups of issues

Issues that depend on each other are located together: the groups are the
components of the links between the issues of a list.
-/

namespace KnowledgeBrain
namespace Analysis

open Foundation

/-!
# Issues
-/

structure Finding where
  code : String
  detail : String
  blocking : Bool := true
  rangeId : Option String := none
  itemIds : List String := []
  relatedIssueIds : List String := []
  needsSource : Option Bool := none
deriving DecidableEq

/-- A finding with the identity that the host gave it. -/
structure Issue where
  issueId : String
  finding : Finding
deriving DecidableEq

/-!
# Candidates
-/

structure SectionRef where
  documentId : String
  sectionId : Option String
deriving DecidableEq

structure PageRef where
  documentId : String
  pageOrdinal : Int
deriving DecidableEq

structure Candidate where
  candidateId : String
  issueIds : List String
  rangeIds : List String
  itemIds : List String
  reason : String
  sectionRefs : List SectionRef := []
  pageRefs : List PageRef := []
deriving DecidableEq

/-!
# The groups
-/

/-- One link of an issue, if it is in the list; `fuel` bounds the way to a root. -/
def joinLinked (ids : List String) (fuel : Nat) (problem : Issue) (parents : String -> String)
    (linked : String) : String -> String :=
  if linked ∈ ids then UnionFind.join fuel parents linked problem.issueId else parents

def joinIssue (ids : List String) (fuel : Nat) (parents : String -> String) (problem : Issue) :
    String -> String :=
  problem.finding.relatedIssueIds.foldl (joinLinked ids fuel problem) parents

def groupIssue (fuel : Nat) (state : (String -> String) × List (String × List Issue))
    (problem : Issue) : (String -> String) × List (String × List Issue) :=
  let found := UnionFind.root fuel state.1 problem.issueId
  (found.1, addTo state.2 found.2 problem)

/-- `_issue_groups`.  No way to a root is longer than the number of links. -/
def issueGroups (problems : List Issue) : List (List Issue) :=
  let ids := problems.map Issue.issueId
  let fuel := (problems.flatMap fun problem => problem.finding.relatedIssueIds).length
  let parents := problems.foldl (joinIssue ids fuel) id
  let state := problems.foldl (groupIssue fuel) (parents, [])
  state.2.map Prod.snd

/-- Two issues are one, or one of them names the other. -/
def issueLink (p q : Issue) : Prop :=
  p.issueId = q.issueId ∨ q.issueId ∈ p.finding.relatedIssueIds ∨
    p.issueId ∈ q.finding.relatedIssueIds

theorem issueLink_symm (p q : Issue) (h : issueLink p q) : issueLink q p := by
  rcases h with h | h | h
  · exact Or.inl h.symm
  · exact Or.inr (Or.inr h)
  · exact Or.inr (Or.inl h)

/-!
# The joined issues
-/

section Joins

variable (problems : List Issue)

/-- The links of the list in the order in which they are joined. -/
def issueLinks : List (String × String) :=
  problems.flatMap fun problem =>
    (problem.finding.relatedIssueIds.filter (· ∈ problems.map Issue.issueId)).map fun linked =>
      (linked, problem.issueId)

theorem length_links_le (ids : List String) (rest : List Issue) :
    (rest.flatMap fun problem => (problem.finding.relatedIssueIds.filter (· ∈ ids)).map
      fun linked => (linked, problem.issueId)).length ≤
        (rest.flatMap fun problem => problem.finding.relatedIssueIds).length := by
  induction rest with
  | nil =>
      exact Nat.le_refl 0
  | cons problem rest ih =>
      rw [List.flatMap_cons, List.flatMap_cons, List.length_append, List.length_append,
        List.length_map]
      exact Nat.add_le_add (List.length_filter_le _ _) ih

theorem foldl_joinIssue (ids : List String) (fuel : Nat) (parents : String -> String)
    (rest : List Issue) :
    rest.foldl (joinIssue ids fuel) parents =
      (rest.flatMap fun problem => (problem.finding.relatedIssueIds.filter (· ∈ ids)).map
        fun linked => (linked, problem.issueId)).foldl
          (fun parents link => UnionFind.join fuel parents link.1 link.2) parents := by
  induction rest generalizing parents with
  | nil =>
      rfl
  | cons problem rest ih =>
      rw [List.foldl_cons, List.flatMap_cons, List.foldl_append, ih]
      congr 1
      unfold joinIssue
      generalize problem.finding.relatedIssueIds = related
      induction related generalizing parents with
      | nil =>
          rfl
      | cons linked related ihRelated =>
          rw [List.foldl_cons, ihRelated]
          by_cases hlinked : linked ∈ ids
          · rw [List.filter_cons_of_pos (by simpa using hlinked), List.map_cons, List.foldl_cons]
            simp only [joinLinked, if_pos hlinked]
          · rw [List.filter_cons_of_neg (by simpa using hlinked)]
            simp only [joinLinked, if_neg hlinked]

theorem mem_issueLinks {a b : String} : (a, b) ∈ issueLinks problems <->
    exists p q, p ∈ problems ∧ q ∈ problems ∧ p.issueId = b ∧ q.issueId = a ∧
      a ∈ p.finding.relatedIssueIds := by
  unfold issueLinks
  rw [List.mem_flatMap]
  constructor
  · rintro ⟨p, hp, hmem⟩
    rcases List.mem_map.mp hmem with ⟨linked, hlinked, heq⟩
    cases heq
    rcases List.mem_filter.mp hlinked with ⟨hrelated, hid⟩
    rcases List.mem_map.mp (of_decide_eq_true hid) with ⟨q, hq, hqid⟩
    exact ⟨p, q, hp, hq, rfl, hqid, hrelated⟩
  · rintro ⟨p, q, hp, hq, rfl, rfl, hrelated⟩
    refine ⟨p, hp, List.mem_map.mpr ⟨q.issueId, ?_, rfl⟩⟩
    exact List.mem_filter.mpr ⟨hrelated, decide_eq_true (List.mem_map_of_mem hq)⟩

/-- Identities are related exactly when their issues are joined. -/
theorem related_iff_joined {p q : Issue} (hp : p ∈ problems) (hq : q ∈ problems) :
    Relation.EqvGen (fun a b => (a, b) ∈ issueLinks problems) p.issueId q.issueId <->
      Joined issueLink problems p q := by
  constructor
  · intro hrelated
    have hids : forall a b, Relation.EqvGen (fun a b => (a, b) ∈ issueLinks problems) a b ->
        a = b ∨ (exists r, r ∈ problems ∧ r.issueId = a) ∧
          (exists r, r ∈ problems ∧ r.issueId = b) ∧
          forall x y, x ∈ problems -> y ∈ problems -> x.issueId = a -> y.issueId = b ->
            Joined issueLink problems x y := by
      intro a b hab
      induction hab with
      | rel a b hlink =>
          rcases (mem_issueLinks problems).mp hlink with ⟨x, y, hx, hy, hxb, hya, hmem⟩
          right
          refine ⟨⟨y, hy, hya⟩, ⟨x, hx, hxb⟩, ?_⟩
          intro x' y' hx' hy' hxa' hyb'
          have hfirst : Joined issueLink problems x' y :=
            .rel _ _ ⟨hx', hy, Or.inl (hxa'.trans hya.symm)⟩
          have hmiddle : Joined issueLink problems y x :=
            .rel _ _ ⟨hy, hx, Or.inr (Or.inr (hya ▸ hmem))⟩
          have hlast : Joined issueLink problems x y' :=
            .rel _ _ ⟨hx, hy', Or.inl (hxb.trans hyb'.symm)⟩
          exact (hfirst.trans _ _ _ hmiddle).trans _ _ _ hlast
      | refl a =>
          exact Or.inl rfl
      | symm a b _ ih =>
          rcases ih with rfl | ⟨ha, hb, hall⟩
          · exact Or.inl rfl
          · right
            exact ⟨hb, ha, fun x y hx hy hxb hya => (hall y x hy hx hya hxb).symm _ _⟩
      | trans a b c _ _ ihab ihbc =>
          rcases ihab with rfl | ⟨ha, hb, hab⟩
          · exact ihbc
          · rcases ihbc with rfl | ⟨_, hc, hbc⟩
            · exact Or.inr ⟨ha, hb, hab⟩
            · right
              refine ⟨ha, hc, ?_⟩
              intro x y hx hy hxa hyc
              rcases hb with ⟨r, hr, hrb⟩
              exact (hab x r hx hr hxa hrb).trans _ _ _ (hbc r y hr hy hrb hyc)
    rcases hids _ _ hrelated with heq | ⟨_, _, hall⟩
    · exact .rel _ _ ⟨hp, hq, Or.inl heq⟩
    · exact hall p q hp hq rfl rfl
  · intro hjoined
    clear hp hq
    induction hjoined with
    | rel x y hlink =>
        rcases hlink with ⟨hx, hy, hid | hfirst | hsecond⟩
        · rw [hid]
          exact .refl _
        · exact .symm _ _ (.rel _ _ ((mem_issueLinks problems).mpr
            ⟨x, y, hx, hy, rfl, rfl, hfirst⟩))
        · exact .rel _ _ ((mem_issueLinks problems).mpr ⟨y, x, hy, hx, rfl, rfl, hsecond⟩)
    | refl x =>
        exact .refl _
    | symm x y _ ih =>
        exact ih.symm _ _
    | trans x y z _ _ ihxy ihyz =>
        exact ihxy.trans _ _ _ ihyz

end Joins

variable (problems : List Issue)

theorem components_issueGroups : Components issueLink problems (issueGroups problems) := by
  have hfuel : (issueLinks problems).length ≤
      (problems.flatMap fun problem => problem.finding.relatedIssueIds).length :=
    length_links_le _ problems
  rcases @UnionFind.bucketed_links _ _ _ Issue.issueId _ _ hfuel problems with
    ⟨rep, hrep, hgroups⟩
  unfold issueGroups
  simp only
  rw [foldl_joinIssue]
  apply components_of_bucketed hgroups
  intro p q hp hq
  rw [hrep, related_iff_joined problems hp hq]

/-!
# Groups of candidates

Candidates about issues that depend on each other are associated together.  A
new candidate may join groups that were apart until then.
-/

/-!
## Dependencies
-/

/-- `self.problem_dependencies` of one frozen group. -/
def dependGroup (dependencies : String -> Option (Finset String)) (group : List Issue) :
    String -> Option (Finset String) :=
  let identities := group.map Issue.issueId
  identities.foldl (fun dependencies identity =>
    Function.update dependencies identity (some identities.toFinset)) dependencies

def problemDependencies (groups : List (List Issue)) : String -> Option (Finset String) :=
  groups.foldl dependGroup fun _ => none

/-!
## Grouping
-/

/-- The issues that a candidate depends on. -/
def candidateKeys (dependencies : String -> Option (Finset String)) (candidate : Candidate) :
    Finset String :=
  candidate.issueIds.toFinset.biUnion fun identity => (dependencies identity).getD {identity}

/-- Candidates with the issues they depend on. -/
abbrev KeyedGroup := List Candidate × Finset String

def shareKeys (group previous : KeyedGroup) : Prop :=
  (group.2 ∩ previous.2).Nonempty

instance (group previous : KeyedGroup) : Decidable (shareKeys group previous) :=
  inferInstanceAs (Decidable (group.2 ∩ previous.2).Nonempty)

def mergeGroup (group previous : KeyedGroup) : KeyedGroup :=
  (group.1 ++ previous.1, group.2 ∪ previous.2)

/-- The loop over the earlier groups. -/
def absorb (state : KeyedGroup × List KeyedGroup) (previous : KeyedGroup) :
    KeyedGroup × List KeyedGroup :=
  if shareKeys state.1 previous then (mergeGroup state.1 previous, state.2)
  else (state.1, state.2 ++ [previous])

/-- The first group that shares a key, and the others. -/
def takeShared (group : KeyedGroup) : List KeyedGroup -> Option (KeyedGroup × List KeyedGroup)
  | [] => none
  | previous :: rest =>
      if shareKeys group previous then some (previous, rest)
      else (takeShared group rest).map fun found => (found.1, previous :: found.2)

variable {group previous : KeyedGroup}

theorem takeShared_eq_some {rest others : List KeyedGroup}
    (hfound : takeShared group rest = some (previous, others)) :
    shareKeys group previous ∧ exists front back, rest = front ++ previous :: back ∧
      others = front ++ back := by
  induction rest generalizing others with
  | nil =>
      cases hfound
  | cons first rest ih =>
      rw [takeShared] at hfound
      by_cases hshare : shareKeys group first
      · rw [if_pos hshare] at hfound
        cases hfound
        exact ⟨hshare, [], rest, rfl, rfl⟩
      · rw [if_neg hshare] at hfound
        rcases Option.map_eq_some_iff.mp hfound with ⟨⟨previous', others'⟩, hrest, heq⟩
        cases heq
        rcases ih hrest with ⟨hprevious, front, back, hsplit, hothers⟩
        exact ⟨hprevious, first :: front, back, by rw [hsplit]; rfl, by rw [hothers]; rfl⟩

theorem takeShared_eq_none {group : KeyedGroup} {rest : List KeyedGroup}
    (hfound : takeShared group rest = none) :
    forall previous, previous ∈ rest -> ¬ shareKeys group previous := by
  induction rest with
  | nil =>
      intro previous hmem
      cases hmem
  | cons first rest ih =>
      rw [takeShared] at hfound
      by_cases hshare : shareKeys group first
      · rw [if_pos hshare] at hfound
        cases hfound
      · rw [if_neg hshare] at hfound
        intro previous hmem
        rcases List.mem_cons.mp hmem with rfl | hrest
        · exact hshare
        · exact ih (Option.map_eq_none_iff.mp hfound) previous hrest

theorem length_of_takeShared {rest others : List KeyedGroup}
    (hfound : takeShared group rest = some (previous, others)) : others.length < rest.length := by
  rcases takeShared_eq_some hfound with ⟨_, front, back, hsplit, hothers⟩
  rw [hsplit, hothers]
  simp

/-- A merged group may share a key with an earlier one too. -/
def absorbRest (group : KeyedGroup) (rest : List KeyedGroup) : KeyedGroup × List KeyedGroup :=
  match _hfound : takeShared group rest with
  | none => (group, rest)
  | some (previous, others) => absorbRest (mergeGroup group previous) others
termination_by rest.length
decreasing_by exact length_of_takeShared _hfound

def addCandidate (dependencies : String -> Option (Finset String)) (groups : List KeyedGroup)
    (candidate : Candidate) : List KeyedGroup :=
  let start := (([candidate], candidateKeys dependencies candidate), [])
  let first := groups.foldl absorb start
  let final := absorbRest first.1 first.2
  final.2 ++ [final.1]

/-- The groups of `association_requests`. -/
def candidateGroups (dependencies : String -> Option (Finset String))
    (candidates : List Candidate) : List KeyedGroup :=
  candidates.foldl (addCandidate dependencies) []

/-!
## Clusters
-/

section Clusters

variable (keys : Candidate -> Finset String) (candidates : List Candidate)

/-- Two candidates depend on an issue that is the same. -/
def sharesIssue (a b : Candidate) : Prop :=
  exists k, k ∈ keys a ∧ k ∈ keys b

/-- Joined candidates with their issues. -/
structure Cluster (group : KeyedGroup) : Prop where
  inhabited : group.1 ≠ []
  mem_keys : forall k, k ∈ group.2 <-> exists a, a ∈ group.1 ∧ k ∈ keys a
  joined : forall a b, a ∈ group.1 -> b ∈ group.1 -> Joined (sharesIssue keys) candidates a b

/-- A group, those that were compared with it and those that were not. -/
structure Absorbing (group : KeyedGroup) (rest pending : List KeyedGroup) : Prop where
  perm : (group.1 ++ (rest ++ pending).flatMap Prod.fst).Perm candidates
  cluster : Cluster keys candidates group
  clusters : forall other, other ∈ rest ++ pending -> Cluster keys candidates other
  apart : (rest ++ pending).Pairwise fun x y => ¬ shareKeys x y

variable {keys candidates}

theorem Cluster.mono {group : KeyedGroup} {candidates' : List Candidate}
    (h : Cluster keys candidates group) (hsub : forall a, a ∈ candidates -> a ∈ candidates') :
    Cluster keys candidates' group where
  inhabited := h.inhabited
  mem_keys := h.mem_keys
  joined := fun a b ha hb => (h.joined a b ha hb).mono hsub

/-- Groups that share a key are one cluster. -/
theorem Cluster.merge (h : Cluster keys candidates group) (h' : Cluster keys candidates previous)
    (hshare : shareKeys group previous) (hgroup : forall a, a ∈ group.1 -> a ∈ candidates)
    (hprevious : forall a, a ∈ previous.1 -> a ∈ candidates) :
    Cluster keys candidates (mergeGroup group previous) where
  inhabited := List.append_ne_nil_of_left_ne_nil h.inhabited _
  mem_keys := by
    intro k
    show k ∈ group.2 ∪ previous.2 <-> _
    rw [Finset.mem_union, h.mem_keys, h'.mem_keys]
    constructor
    · rintro (⟨a, ha, hk⟩ | ⟨a, ha, hk⟩)
      · exact ⟨a, List.mem_append_left _ ha, hk⟩
      · exact ⟨a, List.mem_append_right _ ha, hk⟩
    · rintro ⟨a, ha, hk⟩
      rcases List.mem_append.mp ha with ha | ha
      · exact Or.inl ⟨a, ha, hk⟩
      · exact Or.inr ⟨a, ha, hk⟩
  joined := by
    rcases hshare with ⟨k, hk⟩
    rcases Finset.mem_inter.mp hk with ⟨hk, hk'⟩
    rcases (h.mem_keys k).mp hk with ⟨a, ha, hka⟩
    rcases (h'.mem_keys k).mp hk' with ⟨b, hb, hkb⟩
    have hab : Joined (sharesIssue keys) candidates a b :=
      .rel a b ⟨hgroup a ha, hprevious b hb, k, hka, hkb⟩
    have hcross : forall x y, x ∈ group.1 -> y ∈ previous.1 ->
        Joined (sharesIssue keys) candidates x y := fun x y hx hy =>
      ((h.joined x a hx ha).trans _ _ _ hab).trans _ _ _ (h'.joined b y hb hy)
    intro x y hx hy
    rcases List.mem_append.mp hx with hx | hx
    · rcases List.mem_append.mp hy with hy | hy
      · exact h.joined x y hx hy
      · exact hcross x y hx hy
    · rcases List.mem_append.mp hy with hy | hy
      · exact (hcross y x hy hx).symm _ _
      · exact h'.joined x y hx hy

theorem Absorbing.mem {group : KeyedGroup} {rest pending : List KeyedGroup}
    (h : Absorbing keys candidates group rest pending) :
    (forall a, a ∈ group.1 -> a ∈ candidates) ∧
      forall other, other ∈ rest ++ pending -> forall a, a ∈ other.1 -> a ∈ candidates := by
  constructor
  · exact fun a ha => h.perm.mem_iff.mp (List.mem_append_left _ ha)
  · intro other hother a ha
    apply h.perm.mem_iff.mp
    exact List.mem_append_right _ (List.mem_flatMap.mpr ⟨other, hother, ha⟩)

/-- A group that shares a key is absorbed, wherever it stands. -/
theorem Absorbing.merge {rest front back : List KeyedGroup}
    (h : Absorbing keys candidates group rest (front ++ previous :: back))
    (hshare : shareKeys group previous) :
    Absorbing keys candidates (mergeGroup group previous) rest (front ++ back) := by
  have hmem : previous ∈ rest ++ (front ++ previous :: back) :=
    List.mem_append_right _ (List.mem_append_right _ List.mem_cons_self)
  have hsub : (rest ++ (front ++ back)).Sublist (rest ++ (front ++ previous :: back)) :=
    List.Sublist.append_left
      (List.Sublist.append_left (List.sublist_cons_self previous back) front) rest
  constructor
  · apply List.Perm.trans _ h.perm
    show (group.1 ++ previous.1 ++ _).Perm _
    rw [List.append_assoc]
    apply List.Perm.append_left
    simp only [List.flatMap_append, List.flatMap_cons]
    have hmove : (previous.1 ++ (rest.flatMap Prod.fst ++
        (front.flatMap Prod.fst ++ back.flatMap Prod.fst))).Perm
        (rest.flatMap Prod.fst ++ (front.flatMap Prod.fst ++
          (previous.1 ++ back.flatMap Prod.fst))) := by
      rw [← List.append_assoc, ← List.append_assoc, ← List.append_assoc, ← List.append_assoc]
      apply List.Perm.append_right
      rw [List.append_assoc]
      exact List.perm_append_comm
    exact hmove
  · exact h.cluster.merge (h.clusters previous hmem) hshare h.mem.1 (h.mem.2 previous hmem)
  · exact fun other hother => h.clusters other (hsub.subset hother)
  · exact h.apart.sublist hsub

theorem absorbing_foldl {rest pending : List KeyedGroup} {group : KeyedGroup}
    (h : Absorbing keys candidates group rest pending) :
    Absorbing keys candidates (pending.foldl absorb (group, rest)).1
      (pending.foldl absorb (group, rest)).2 [] := by
  induction pending generalizing group rest with
  | nil =>
      exact h
  | cons previous pending ih =>
      rw [List.foldl_cons]
      unfold absorb
      by_cases hshare : shareKeys group previous
      · simp only [if_pos hshare]
        exact ih (@Absorbing.merge group previous keys candidates rest [] pending h hshare)
      · simp only [if_neg hshare]
        apply ih
        have hsame : rest ++ [previous] ++ pending = rest ++ previous :: pending := by simp
        constructor
        · rw [hsame]
          exact h.perm
        · exact h.cluster
        · rw [hsame]
          exact h.clusters
        · rw [hsame]
          exact h.apart

/-- At the end no other group shares a key. -/
theorem absorbing_absorbRest {group : KeyedGroup} {rest : List KeyedGroup}
    (h : Absorbing keys candidates group [] rest) :
    Absorbing keys candidates (absorbRest group rest).1 [] (absorbRest group rest).2 ∧
      forall other, other ∈ (absorbRest group rest).2 ->
        ¬ shareKeys (absorbRest group rest).1 other := by
  induction group, rest using absorbRest.induct with
  | case1 group rest hfound =>
      rw [absorbRest]
      split
      · exact ⟨h, takeShared_eq_none hfound⟩
      · rename_i heq
        rw [hfound] at heq
        cases heq
  | case2 group rest previous others hfound ih =>
      rw [absorbRest]
      split
      · rename_i heq
        rw [hfound] at heq
        cases heq
      · rename_i heq
        rw [hfound] at heq
        cases heq
        rcases takeShared_eq_some hfound with ⟨hshare, front, back, rfl, rfl⟩
        exact ih (h.merge hshare)

/-- Groups of the candidates so far. -/
structure Grouped (keys : Candidate -> Finset String) (candidates : List Candidate)
    (groups : List KeyedGroup) : Prop where
  perm : (groups.flatMap Prod.fst).Perm candidates
  clusters : forall group, group ∈ groups -> Cluster keys candidates group
  apart : groups.Pairwise fun x y => ¬ shareKeys x y

theorem shareKeys_symm {x y : KeyedGroup} (h : shareKeys x y) : shareKeys y x := by
  unfold shareKeys at h ⊢
  rw [Finset.inter_comm]
  exact h

theorem cluster_singleton (keys : Candidate -> Finset String) (candidates : List Candidate)
    (candidate : Candidate) : Cluster keys candidates ([candidate], keys candidate) where
  inhabited := List.cons_ne_nil _ _
  mem_keys := by
    intro k
    simp
  joined := by
    intro a b ha hb
    rw [List.mem_singleton.mp ha, List.mem_singleton.mp hb]
    exact .refl candidate

/-- The next candidate joins the groups that it connects. -/
theorem grouped_addCandidate {dependencies : String -> Option (Finset String)}
    {candidates : List Candidate} {groups : List KeyedGroup}
    (h : Grouped (candidateKeys dependencies) candidates groups) (candidate : Candidate) :
    Grouped (candidateKeys dependencies) (candidates ++ [candidate])
      (addCandidate dependencies groups candidate) := by
  have hstart : Absorbing (candidateKeys dependencies) (candidates ++ [candidate])
      ([candidate], candidateKeys dependencies candidate) [] groups := by
    constructor
    · rw [List.nil_append]
      exact List.perm_append_comm.trans (h.perm.append_right [candidate])
    · exact cluster_singleton _ _ candidate
    · exact fun other hother => (h.clusters other hother).mono fun a ha =>
        List.mem_append_left _ ha
    · exact h.apart
  have hfirst := absorbing_foldl hstart
  have hpending : Absorbing (candidateKeys dependencies) (candidates ++ [candidate])
      (groups.foldl absorb (([candidate], candidateKeys dependencies candidate), [])).1 []
      (groups.foldl absorb (([candidate], candidateKeys dependencies candidate), [])).2 := by
    have hsame := List.append_nil
      (groups.foldl absorb (([candidate], candidateKeys dependencies candidate), [])).2
    constructor
    · have hperm := hfirst.perm
      rw [hsame] at hperm
      exact hperm
    · exact hfirst.cluster
    · have hclusters := hfirst.clusters
      rw [hsame] at hclusters
      exact hclusters
    · have hapart := hfirst.apart
      rw [hsame] at hapart
      exact hapart
  rcases absorbing_absorbRest hpending with ⟨hfinal, hnone⟩
  unfold addCandidate
  simp only
  constructor
  · rw [List.flatMap_append, List.flatMap_singleton]
    exact List.perm_append_comm.trans hfinal.perm
  · intro group hgroup
    rcases List.mem_append.mp hgroup with hgroup | hgroup
    · exact hfinal.clusters group hgroup
    · rw [List.mem_singleton.mp hgroup]
      exact hfinal.cluster
  · rw [List.pairwise_append]
    refine ⟨hfinal.apart, List.pairwise_singleton _ _, ?_⟩
    intro x hx y hy
    rw [List.mem_singleton.mp hy]
    exact fun hshare => hnone x hx (shareKeys_symm hshare)

theorem grouped_candidateGroups (dependencies : String -> Option (Finset String))
    (candidates : List Candidate) :
    Grouped (candidateKeys dependencies) candidates (candidateGroups dependencies candidates) := by
  have hrun : forall (rest done : List Candidate) (groups : List KeyedGroup),
      Grouped (candidateKeys dependencies) done groups ->
        Grouped (candidateKeys dependencies) (done ++ rest)
          (rest.foldl (addCandidate dependencies) groups) := by
    intro rest
    induction rest with
    | nil =>
        intro done groups h
        rw [List.append_nil]
        exact h
    | cons candidate rest ih =>
        intro done groups h
        have hnext := ih _ _ (grouped_addCandidate h candidate)
        rw [List.append_assoc] at hnext
        exact hnext
  have hstart : Grouped (candidateKeys dependencies) [] [] := by
    constructor
    · exact List.Perm.refl []
    · intro group hgroup
      cases hgroup
    · exact List.Pairwise.nil
  exact hrun candidates [] [] hstart

/-- The groups are the components of the candidates that share an issue. -/
theorem components_candidateGroups (dependencies : String -> Option (Finset String))
    (candidates : List Candidate) :
    Components (sharesIssue (candidateKeys dependencies)) candidates
      ((candidateGroups dependencies candidates).map Prod.fst) := by
  have h := grouped_candidateGroups dependencies candidates
  constructor
  · rw [← List.flatMap_def]
    exact h.perm
  · intro group hgroup
    rcases List.mem_map.mp hgroup with ⟨keyed, hkeyed, rfl⟩
    exact (h.clusters keyed hkeyed).inhabited
  · intro group hgroup
    rcases List.mem_map.mp hgroup with ⟨keyed, hkeyed, rfl⟩
    exact (h.clusters keyed hkeyed).joined
  · rw [List.pairwise_map]
    apply h.apart.imp_of_mem
    intro x y hx hy hnot a b ha hb hshare
    rcases hshare with ⟨k, hka, hkb⟩
    apply hnot
    exact ⟨k, Finset.mem_inter.mpr ⟨((h.clusters x hx).mem_keys k).mpr ⟨a, ha, hka⟩,
      ((h.clusters y hy).mem_keys k).mpr ⟨b, hb, hkb⟩⟩⟩

/-!
## Frozen dependencies
-/

/-- Two issues depend on each other: they are one, or joined in the list. -/
def Depend (problems : List Issue) (i j : String) : Prop :=
  i = j ∨ exists p q, p ∈ problems ∧ q ∈ problems ∧ p.issueId = i ∧ q.issueId = j ∧
    Joined issueLink problems p q

/-- Candidates name issues that depend on each other. -/
def sharesDependency (problems : List Issue) (a b : Candidate) : Prop :=
  exists i j, i ∈ a.issueIds ∧ j ∈ b.issueIds ∧ Depend problems i j

theorem dependGroup_apply (dependencies : String -> Option (Finset String)) (group : List Issue)
    (i : String) : dependGroup dependencies group i =
      if i ∈ group.map Issue.issueId then some (group.map Issue.issueId).toFinset
      else dependencies i := by
  unfold dependGroup
  generalize (group.map Issue.issueId).toFinset = value
  generalize group.map Issue.issueId = identities
  induction identities generalizing dependencies with
  | nil =>
      simp
  | cons identity identities ih =>
      rw [List.foldl_cons, ih]
      by_cases hrest : i ∈ identities
      · rw [if_pos hrest, if_pos (List.mem_cons_of_mem _ hrest)]
      · rw [if_neg hrest]
        by_cases hfirst : i = identity
        · subst hfirst
          rw [Function.update_self, if_pos List.mem_cons_self]
        · rw [Function.update_of_ne hfirst, if_neg]
          intro hmem
          rcases List.mem_cons.mp hmem with heq | hmem
          · exact hfirst heq
          · exact hrest hmem

/-- The dependencies of an issue are those of a group that has it. -/
theorem problemDependencies_apply (groups : List (List Issue)) (i : String) :
    (problemDependencies groups i = none ∧
      forall group, group ∈ groups -> i ∉ group.map Issue.issueId) ∨
    exists group, group ∈ groups ∧ i ∈ group.map Issue.issueId ∧
      problemDependencies groups i = some (group.map Issue.issueId).toFinset := by
  have hrun : forall (rest done : List (List Issue)) dependencies,
      ((dependencies i = none ∧ forall group, group ∈ done -> i ∉ group.map Issue.issueId) ∨
        exists group, group ∈ done ∧ i ∈ group.map Issue.issueId ∧
          dependencies i = some (group.map Issue.issueId).toFinset) ->
      ((rest.foldl dependGroup dependencies i = none ∧
        forall group, group ∈ done ++ rest -> i ∉ group.map Issue.issueId) ∨
        exists group, group ∈ done ++ rest ∧ i ∈ group.map Issue.issueId ∧
          rest.foldl dependGroup dependencies i = some (group.map Issue.issueId).toFinset) := by
    intro rest
    induction rest with
    | nil =>
        intro done dependencies h
        rw [List.append_nil]
        exact h
    | cons group rest ih =>
        intro done dependencies h
        have hnext := ih (done ++ [group]) (dependGroup dependencies group) ?_
        · rw [List.append_assoc] at hnext
          exact hnext
        · by_cases hmem : i ∈ group.map Issue.issueId
          · right
            refine ⟨group, List.mem_append_right _ List.mem_cons_self, hmem, ?_⟩
            rw [dependGroup_apply, if_pos hmem]
          · rw [dependGroup_apply, if_neg hmem]
            rcases h with ⟨hnone, hall⟩ | ⟨group', hgroup', hi, hsome⟩
            · left
              refine ⟨hnone, ?_⟩
              intro group' hgroup'
              rcases List.mem_append.mp hgroup' with hgroup' | hgroup'
              · exact hall group' hgroup'
              · rw [List.mem_singleton.mp hgroup']
                exact hmem
            · right
              exact ⟨group', List.mem_append_left _ hgroup', hi, hsome⟩
  have hall := hrun groups [] (fun _ => none) (Or.inl ⟨rfl, fun group hgroup => by cases hgroup⟩)
  rw [List.nil_append] at hall
  exact hall

end Clusters

theorem Depend.symm {problems : List Issue} {i j : String} (h : Depend problems i j) :
    Depend problems j i := by
  rcases h with rfl | ⟨p, q, hp, hq, hpi, hqj, hjoined⟩
  · exact Or.inl rfl
  · exact Or.inr ⟨q, p, hq, hp, hqj, hpi, hjoined.symm _ _⟩

theorem Depend.trans {problems : List Issue} {i j k : String} (hij : Depend problems i j)
    (hjk : Depend problems j k) : Depend problems i k := by
  rcases hij with rfl | ⟨p, q, hp, hq, hpi, hqj, hpq⟩
  · exact hjk
  · rcases hjk with rfl | ⟨p', q', hp', hq', hpj, hqk, hpq'⟩
    · exact Or.inr ⟨p, q, hp, hq, hpi, hqj, hpq⟩
    · have hmiddle : Joined issueLink problems q p' :=
        .rel _ _ ⟨hq, hp', Or.inl (hqj.trans hpj.symm)⟩
      exact Or.inr ⟨p, q', hp, hq', hpi, hqk, (hpq.trans _ _ _ hmiddle).trans _ _ _ hpq'⟩

/-- The frozen dependencies of an issue are the issues it depends on. -/
theorem mem_dependencies (i k : String) :
    k ∈ (problemDependencies (issueGroups problems) i).getD {i} <-> Depend problems i k := by
  have hcomponents := components_issueGroups problems
  rcases problemDependencies_apply (issueGroups problems) i with
    ⟨hnone, hall⟩ | ⟨group, hgroup, hi, hsome⟩
  · rw [hnone, Option.getD_none, Finset.mem_singleton]
    constructor
    · rintro rfl
      exact Or.inl rfl
    · rintro (heq | ⟨p, q, hp, _, hpi, _⟩)
      · exact heq.symm
      · rcases hcomponents.exists_group hp with ⟨group, hgroup, hmem⟩
        exact absurd (hpi ▸ List.mem_map_of_mem hmem) (hall group hgroup)
  · rw [hsome, Option.getD_some, List.mem_toFinset]
    rcases List.mem_map.mp hi with ⟨p, hp, hpi⟩
    have hproblems : forall q, q ∈ group -> q ∈ problems := fun q hq =>
      hcomponents.perm.mem_iff.mp (List.mem_flatten.mpr ⟨group, hgroup, hq⟩)
    constructor
    · intro hk
      rcases List.mem_map.mp hk with ⟨q, hq, hqk⟩
      exact Or.inr ⟨p, q, hproblems p hp, hproblems q hq, hpi, hqk,
        hcomponents.joined group hgroup p q hp hq⟩
    · rintro (rfl | ⟨p', q, hp', hq, hpi', hqk, hjoined⟩)
      · exact hi
      · have hmem : p' ∈ group := hcomponents.mem_of_link issueLink_symm hgroup hp hp'
          (Or.inl (hpi.trans hpi'.symm))
        rw [← hqk]
        exact List.mem_map_of_mem ((hcomponents.mem_iff issueLink_symm hgroup hmem).mpr hjoined)

/-- Candidates share a key exactly when they name issues that depend on each other. -/
theorem sharesIssue_eq :
    sharesIssue (candidateKeys (problemDependencies (issueGroups problems))) =
      sharesDependency problems := by
  have hkeys : forall (a : Candidate) k,
      k ∈ candidateKeys (problemDependencies (issueGroups problems)) a <->
        exists i, i ∈ a.issueIds ∧ Depend problems i k := by
    intro a k
    unfold candidateKeys
    rw [Finset.mem_biUnion]
    constructor
    · rintro ⟨i, hi, hk⟩
      exact ⟨i, List.mem_toFinset.mp hi, (mem_dependencies problems i k).mp hk⟩
    · rintro ⟨i, hi, hdepend⟩
      exact ⟨i, List.mem_toFinset.mpr hi, (mem_dependencies problems i k).mpr hdepend⟩
  funext a b
  apply propext
  constructor
  · rintro ⟨k, ha, hb⟩
    rcases (hkeys a k).mp ha with ⟨i, hi, hik⟩
    rcases (hkeys b k).mp hb with ⟨j, hj, hjk⟩
    exact ⟨i, j, hi, hj, hik.trans hjk.symm⟩
  · rintro ⟨i, j, hi, hj, hdepend⟩
    exact ⟨j, (hkeys a j).mpr ⟨i, hi, hdepend⟩, (hkeys b j).mpr ⟨j, hj, Or.inl rfl⟩⟩

theorem sharesDependency_symm {problems : List Issue} (a b : Candidate)
    (h : sharesDependency problems a b) : sharesDependency problems b a := by
  rcases h with ⟨i, j, hi, hj, hdepend⟩
  exact ⟨j, i, hj, hi, hdepend.symm⟩

/-- Groups of issues and of candidates are connected components, in any order. -/
theorem association_groups (problems : List Issue) (candidates : List Candidate) :
    (Components issueLink problems (issueGroups problems) ∧
      forall group, group ∈ issueGroups problems -> forall p q, p ∈ group ->
        (q ∈ group <-> Joined issueLink problems p q)) ∧
    (Components (sharesDependency problems) candidates
        ((candidateGroups (problemDependencies (issueGroups problems)) candidates).map Prod.fst) ∧
      forall candidates', candidates'.Perm candidates -> forall group, group ∈
        (candidateGroups (problemDependencies (issueGroups problems)) candidates').map Prod.fst ->
          forall a b, a ∈ group ->
            (b ∈ group <-> Joined (sharesDependency problems) candidates a b)) := by
  have hissues := components_issueGroups problems
  have hcandidates : forall candidates' : List Candidate,
      Components (sharesDependency problems) candidates'
        ((candidateGroups (problemDependencies (issueGroups problems)) candidates').map
          Prod.fst) := by
    intro candidates'
    rw [← sharesIssue_eq]
    exact components_candidateGroups _ candidates'
  refine ⟨⟨hissues, ?_⟩, hcandidates candidates, ?_⟩
  · exact fun group hgroup p q hp => hissues.mem_iff issueLink_symm hgroup hp
  · intro candidates' hperm group hgroup a b ha
    rw [(hcandidates candidates').mem_iff sharesDependency_symm hgroup ha]
    constructor
    · exact fun hjoined => hjoined.mono fun c hc => hperm.mem_iff.mp hc
    · exact fun hjoined => hjoined.mono fun c hc => hperm.mem_iff.mpr hc

end Analysis
end KnowledgeBrain
