import KnowledgeBrain.Outline.Edit

/-!
# Edits one after the other

What an accepted edit makes of an outline, and what is known of every position
after any number of accepted edits: the last outline that held it is the one it
is in, or the one it was removed from.
-/

namespace KnowledgeBrain
namespace Outline

open Foundation

variable {Selector : Type}

/-- The issues of one code about one position. -/
def issuesFor (code identity : String) (issues : List OutlineIssue) : List OutlineIssue :=
  issues.filter fun issue => decide (issue.code = code ∧ issue.targetId = some identity)

theorem issuesFor_append (code identity : String) (issues later : List OutlineIssue) :
    issuesFor code identity (issues ++ later) =
      issuesFor code identity issues ++ issuesFor code identity later :=
  List.filter_append ..

theorem issuesFor_other {code code' identity : String} {issues : List OutlineIssue}
    (hcode : forall issue, issue ∈ issues -> issue.code = code') (hne : code' ≠ code) :
    issuesFor code identity issues = [] := by
  unfold issuesFor
  rw [List.filter_eq_nil_iff]
  intro issue hmem htrue
  exact hne ((hcode issue hmem).symm.trans (of_decide_eq_true htrue).1)

theorem issuesFor_map {code : String} {issueOf : ResponseTarget Selector -> OutlineIssue}
    (hcode : forall target, (issueOf target).code = code)
    (hid : forall target, (issueOf target).targetId = some target.targetId)
    (targets : List (ResponseTarget Selector)) (identity : String) :
    issuesFor code identity (targets.map issueOf) =
      (targets.filter fun target => decide (target.targetId = identity)).map issueOf := by
  unfold issuesFor
  rw [List.filter_map]
  apply congrArg (List.map issueOf)
  apply List.filter_congr
  intro target _
  simp only [Function.comp, hcode, hid, Option.some.injEq, true_and]

theorem targetRemoved_ne_referenceUnbound : targetRemoved ≠ referenceUnbound := by
  decide

/-!
# The issues of an edit
-/

section Issues

variable {order : SetOrder} {issues : List OutlineIssue}
variable {originals targets : List (ResponseTarget Selector)} {identity : String}

theorem issuesFor_kept_of_mem (hmem : identity ∈ targets.map ResponseTarget.targetId) :
    issuesFor targetRemoved identity
      (issues.filter (keepsIssue (targets.map ResponseTarget.targetId))) = [] := by
  unfold issuesFor
  rw [List.filter_eq_nil_iff]
  intro issue hkept htrue
  have hkeeps := (List.mem_filter.mp hkept).2
  rcases of_decide_eq_true htrue with ⟨hcode, hid⟩
  unfold keepsIssue at hkeeps
  rw [hcode, hid] at hkeeps
  simp only [Option.all_some, List.contains_eq_mem, hmem, decide_true, Bool.not_true,
    Bool.or_false, bne_self_eq_false, Bool.and_false, Bool.false_eq_true] at hkeeps

theorem issuesFor_kept_of_not_mem (habsent : identity ∉ targets.map ResponseTarget.targetId) :
    issuesFor targetRemoved identity
      (issues.filter (keepsIssue (targets.map ResponseTarget.targetId))) =
      issuesFor targetRemoved identity issues := by
  unfold issuesFor
  rw [List.filter_filter]
  apply List.filter_congr
  intro issue _
  by_cases hissue : issue.code = targetRemoved ∧ issue.targetId = some identity
  · have hkeeps : keepsIssue (targets.map ResponseTarget.targetId) issue = true := by
      unfold keepsIssue
      rw [hissue.1, hissue.2]
      simp only [Option.all_some, List.contains_eq_mem, habsent, decide_false, Bool.not_false,
        Bool.or_true, Bool.and_true]
      decide
    rw [hkeeps, Bool.and_true]
  · rw [decide_eq_false hissue, Bool.false_and]

theorem removed_perm (hunique : (originals.map ResponseTarget.targetId).Nodup) :
    ((order.order ((originals.map ResponseTarget.targetId).filter fun identity =>
        !(targets.map ResponseTarget.targetId).contains identity)).filterMap
      (findBy ResponseTarget.targetId originals)).Perm
      (originals.filter fun target =>
        !(targets.map ResponseTarget.targetId).contains target.targetId) := by
  rw [← filterMap_findBy hunique fun identity =>
    !(targets.map ResponseTarget.targetId).contains identity]
  exact (order.perm _).filterMap _

/-- The new removal issues of a position. -/
theorem issuesFor_removed (hunique : (originals.map ResponseTarget.targetId).Nodup)
    {removed : List (ResponseTarget Selector)}
    (hremoved : removed.Perm (originals.filter fun target =>
      !(targets.map ResponseTarget.targetId).contains target.targetId)) :
    issuesFor targetRemoved identity (removed.map removalIssue) =
      if identity ∈ targets.map ResponseTarget.targetId then []
      else (findBy ResponseTarget.targetId originals identity).toList.map removalIssue := by
  rw [@issuesFor_map Selector targetRemoved removalIssue (fun _ => rfl) (fun _ => rfl)]
  have hperm := hremoved.filter fun target => decide (target.targetId = identity)
  rw [List.filter_filter] at hperm
  split
  · rename_i hmem
    have hnone : (originals.filter fun target => decide (target.targetId = identity) &&
        !(targets.map ResponseTarget.targetId).contains target.targetId) = [] := by
      rw [List.filter_eq_nil_iff]
      intro target _ htrue
      rw [Bool.and_eq_true, decide_eq_true_eq] at htrue
      rw [htrue.1] at htrue
      simp only [List.contains_eq_mem, hmem, decide_true, Bool.not_true, Bool.false_eq_true,
        and_false] at htrue
    rw [hnone] at hperm
    rw [hperm.eq_nil, List.map_nil]
  · rename_i habsent
    have hsome : (originals.filter fun target => decide (target.targetId = identity) &&
        !(targets.map ResponseTarget.targetId).contains target.targetId) =
          (findBy ResponseTarget.targetId originals identity).toList := by
      rw [← filter_key_eq hunique]
      apply List.filter_congr
      intro target _
      by_cases hid : target.targetId = identity
      · rw [hid, List.contains_eq_mem, decide_eq_false habsent, Bool.not_false, Bool.and_true]
      · rw [decide_eq_false hid, Bool.false_and]
    rw [hsome] at hperm
    cases hfind : findBy ResponseTarget.targetId originals identity with
    | none =>
        rw [hfind, Option.toList_none] at hperm
        rw [hperm.eq_nil, Option.toList_none]
    | some target =>
        rw [hfind, Option.toList_some] at hperm
        rw [hperm.eq_singleton, Option.toList_some]

theorem issuesFor_removal_unbound (some : List (ResponseTarget Selector)) :
    issuesFor targetRemoved identity (some.map unboundIssue) = [] := by
  apply issuesFor_other _ targetRemoved_ne_referenceUnbound.symm
  intro issue hmem
  rcases List.mem_map.mp hmem with ⟨target, _, rfl⟩
  rfl

theorem removals_of_mem (hunique : (originals.map ResponseTarget.targetId).Nodup)
    (hmem : identity ∈ targets.map ResponseTarget.targetId) :
    issuesFor targetRemoved identity (editedIssues order issues originals targets) = [] := by
  unfold editedIssues
  simp only
  rw [issuesFor_append, issuesFor_append, issuesFor_kept_of_mem hmem,
    issuesFor_removed hunique (removed_perm hunique), if_pos hmem, issuesFor_removal_unbound]
  rfl

theorem removals_of_not_mem (hunique : (originals.map ResponseTarget.targetId).Nodup)
    (habsent : identity ∉ targets.map ResponseTarget.targetId) :
    issuesFor targetRemoved identity (editedIssues order issues originals targets) =
      issuesFor targetRemoved identity issues ++
        (findBy ResponseTarget.targetId originals identity).toList.map removalIssue := by
  unfold editedIssues
  simp only
  rw [issuesFor_append, issuesFor_append, issuesFor_kept_of_not_mem habsent,
    issuesFor_removed hunique (removed_perm hunique), if_neg habsent, issuesFor_removal_unbound,
    List.append_nil]

/-- The issues about references that lead nowhere are made anew. -/
theorem unbounds_eq (hunique : (targets.map ResponseTarget.targetId).Nodup) :
    issuesFor referenceUnbound identity (editedIssues order issues originals targets) =
      ((findBy ResponseTarget.targetId targets identity).toList.filter
        (isUnbound (targets.map ResponseTarget.targetId))).map unboundIssue := by
  unfold editedIssues
  simp only
  have hkept : issuesFor referenceUnbound identity
      (issues.filter (keepsIssue (targets.map ResponseTarget.targetId))) = [] := by
    unfold issuesFor
    rw [List.filter_eq_nil_iff]
    intro issue hkept htrue
    have hkeeps := (List.mem_filter.mp hkept).2
    unfold keepsIssue at hkeeps
    rw [(of_decide_eq_true htrue).1, bne_self_eq_false, Bool.false_and] at hkeeps
    cases hkeeps
  have hremovals : forall removed : List (ResponseTarget Selector),
      issuesFor referenceUnbound identity (removed.map removalIssue) = [] := by
    intro removed
    apply issuesFor_other _ targetRemoved_ne_referenceUnbound
    intro issue hmem
    rcases List.mem_map.mp hmem with ⟨target, _, rfl⟩
    rfl
  rw [issuesFor_append, issuesFor_append, hkept, hremovals,
    @issuesFor_map Selector referenceUnbound unboundIssue (fun _ => rfl) (fun _ => rfl),
    List.nil_append, List.nil_append, List.filter_comm, filter_key_eq hunique]

theorem mem_editedIssues {issue : OutlineIssue}
    (hmem : issue ∈ editedIssues order issues originals targets) :
    (issue ∈ issues ∧ issue.code ≠ referenceUnbound) ∨ issue.targetId.isSome = true := by
  unfold editedIssues at hmem
  simp only [List.mem_append] at hmem
  rcases hmem with (hkept | hremoved) | hunbound
  · rcases List.mem_filter.mp hkept with ⟨hold, hkeeps⟩
    unfold keepsIssue at hkeeps
    rw [Bool.and_eq_true, bne_iff_ne] at hkeeps
    exact Or.inl ⟨hold, hkeeps.1⟩
  · rcases List.mem_map.mp hremoved with ⟨target, _, rfl⟩
    exact Or.inr rfl
  · rcases List.mem_map.mp hunbound with ⟨target, _, rfl⟩
    exact Or.inr rfl

end Issues

/-!
# What an accepted edit does
-/

def AuthoringOutline.normalized (outline : AuthoringOutline Selector) :
    AuthoringOutline Selector :=
  { outline with chapters := outline.chapters.map OutlineChapter.normalize }

theorem targetsOf_normalize (chapters : List (OutlineChapter Selector)) :
    targetsOf (chapters.map OutlineChapter.normalize) =
      (targetsOf chapters).map ResponseTarget.normalize := by
  unfold targetsOf
  rw [List.flatMap_map, List.map_flatMap]
  rfl

theorem targets_normalized (outline : AuthoringOutline Selector) :
    outline.normalized.targets = outline.targets.map ResponseTarget.normalize := by
  unfold AuthoringOutline.targets AuthoringOutline.normalized
  simp only
  rw [Forest.values_map, targetsOf_normalize]

theorem map_targetId_normalize (targets : List (ResponseTarget Selector)) :
    (targets.map ResponseTarget.normalize).map ResponseTarget.targetId =
      targets.map ResponseTarget.targetId := by
  rw [List.map_map]
  rfl

variable {selectorValid : Selector -> Bool}

theorem validate_eq_ok {outline result : AuthoringOutline Selector}
    (hrun : outline.validate selectorValid = .ok result) : result = outline.normalized := by
  unfold AuthoringOutline.validate at hrun
  split at hrun
  · cases hrun
    rfl
  · cases hrun

/-- The tree that the nodes of an accepted edit are bound to. -/
structure Accepted (base : AuthoringOutline Selector) (edit : OutlineEdit Selector)
    (result : AuthoringOutline Selector) (bound : Forest (OutlineChapter Selector)) : Prop where
  unique : (base.targets.map ResponseTarget.targetId).Nodup
  walk : exists seen, edit.chapters.walk (bindingOf base.normalized edit.targetCatalog).enter
    (bindingOf base.normalized edit.targetCatalog).leave [] = .ok (bound, seen)
  uniqueBound : ((targetsOf bound.values).map ResponseTarget.targetId).Nodup
  chapters : result.chapters = bound.map OutlineChapter.normalize
  issues : result.issues =
    editedIssues edit.order base.issues base.normalized.targets (targetsOf bound.values)

theorem applyOutlineEdit_eq_ok {base result : AuthoringOutline Selector}
    {edit : OutlineEdit Selector} (hrun : applyOutlineEdit selectorValid base edit = .ok result) :
    exists bound, Accepted base edit result bound := by
  unfold applyOutlineEdit at hrun
  rcases bind_eq_ok hrun with ⟨_, _, hrun⟩
  rcases bind_eq_ok hrun with ⟨base', hbase, hrun⟩
  rcases reject_bind_eq_ok hrun with ⟨hunique, hrun⟩
  rcases reject_bind_eq_ok hrun with ⟨_, hrun⟩
  rcases bind_eq_ok hrun with ⟨⟨bound, seen⟩, hwalk, hrun⟩
  rcases reject_bind_eq_ok hrun with ⟨huniqueBound, hrun⟩
  have hresult := validate_eq_ok hrun
  subst hresult
  have hnormal := validate_eq_ok hbase
  subst hnormal
  refine ⟨bound, ?_, ⟨seen, hwalk⟩, Decidable.not_not.mp huniqueBound, rfl, rfl⟩
  have hids := Decidable.not_not.mp fun hrepeat => hunique (Or.inr hrepeat)
  rw [targets_normalized, map_targetId_normalize] at hids
  exact hids

namespace Accepted

variable {base result : AuthoringOutline Selector} {edit : OutlineEdit Selector}
variable {bound : Forest (OutlineChapter Selector)}

theorem targets (h : Accepted base edit result bound) :
    result.targets = (targetsOf bound.values).map ResponseTarget.normalize := by
  unfold AuthoringOutline.targets
  rw [h.chapters, Forest.values_map, targetsOf_normalize]

theorem targetIds (h : Accepted base edit result bound) :
    result.targets.map ResponseTarget.targetId =
      (targetsOf bound.values).map ResponseTarget.targetId := by
  rw [h.targets, map_targetId_normalize]

theorem uniqueNormalized (h : Accepted base edit result bound) :
    (base.normalized.targets.map ResponseTarget.targetId).Nodup := by
  rw [targets_normalized, map_targetId_normalize]
  exact h.unique

theorem heading (h : Accepted base edit result bound) :
    result.chapters.map OutlineChapter.heading =
      edit.chapters.map OutlineEditChapter.heading := by
  rcases h.walk with ⟨seen, hwalk⟩
  rw [h.chapters, Forest.map_map]
  exact heading_of_walk hwalk

theorem chapterIds (h : Accepted base edit result bound) :
    (result.chapters.values.map OutlineChapter.chapterId).Nodup := by
  rcases h.walk with ⟨seen, hwalk⟩
  have hentered := (nodup_of_enter (Forest.foldlM_values_of_walk hwalk)).1
  have hsame : result.chapters.values.map OutlineChapter.chapterId =
      edit.chapters.values.map OutlineEditChapter.chapterId := by
    have hheadings := congrArg (fun forest => forest.values.map Prod.fst) h.heading
    simp only [Forest.values_map, List.map_map] at hheadings
    exact hheadings
  rw [hsame]
  exact hentered

end Accepted

/-- The position of a writing goal of a manual chapter. -/
def IsManualResponse (identity : String) : Prop :=
  exists chapterId, manualId chapterId = true ∧ identity = responseId chapterId

/-- A position that stays is the one there was, with at least its sources. -/
theorem Accepted.grown {base result : AuthoringOutline Selector} {edit : OutlineEdit Selector}
    {bound : Forest (OutlineChapter Selector)} (h : Accepted base edit result bound)
    {target target' : ResponseTarget Selector} (htarget : target ∈ base.targets)
    (htarget' : target' ∈ targetsOf bound.values) (hid : target'.targetId = target.targetId)
    (hmanual : ¬ IsManualResponse target.targetId) : Grown target.normalize target' := by
  rcases h.walk with ⟨seen, hwalk⟩
  rcases offers_of_walk hwalk htarget' with ⟨identity, origin, hoffer, hgrown⟩
  have horigin : origin.targetId = target.targetId := hgrown.targetId.symm.trans hid
  have hmem : target.normalize ∈ base.normalized.targets := by
    rw [targets_normalized]
    exact List.mem_map_of_mem htarget
  have hsame : origin ∈ base.normalized.targets -> Grown target.normalize target' := by
    intro hbase
    have heq := List.inj_on_of_nodup_map h.uniqueNormalized hbase hmem horigin
    rw [← heq]
    exact hgrown
  rcases hoffer with hknown | havailable | ⟨hchapter, hresponse⟩
  · exact hsame hknown
  · rcases mem_latestBy_append havailable with hbase | ⟨_, hnew⟩
    · exact hsame hbase
    · exfalso
      apply hnew
      rw [horigin]
      exact List.mem_map.mpr ⟨target.normalize, hmem, rfl⟩
  · exact absurd ⟨identity, hchapter, horigin.symm.trans hresponse⟩ hmanual

/-!
# Histories
-/

/-- The outlines of a sequence of accepted edits, the last one first. -/
inductive Edited (selectorValid : Selector -> Bool) (base : AuthoringOutline Selector) :
    List (AuthoringOutline Selector) -> Prop where
  | start : Edited selectorValid base [base]
  | accept {outline result : AuthoringOutline Selector} {earlier : List (AuthoringOutline Selector)}
      {edit : OutlineEdit Selector} (hearlier : Edited selectorValid base (outline :: earlier))
      (hrun : applyOutlineEdit selectorValid outline edit = .ok result) :
      Edited selectorValid base (result :: outline :: earlier)

/-- The position as the last outline that held it had it. -/
def lastHeld : List (AuthoringOutline Selector) -> String -> Option (ResponseTarget Selector)
  | [], _ => none
  | outline :: earlier, identity =>
      match findBy ResponseTarget.targetId outline.targets identity with
      | some target => some target
      | none => lastHeld earlier identity

/-- A position that was held is in the outline and not said to be removed, or it
is not in the outline and one issue says so, with the rules it had. -/
def Placed (outline : AuthoringOutline Selector) (identity : String)
    (target : ResponseTarget Selector) : Prop :=
  (identity ∈ outline.targets.map ResponseTarget.targetId ∧
    issuesFor targetRemoved identity outline.issues = []) ∨
  (identity ∉ outline.targets.map ResponseTarget.targetId ∧
    exists issue, issuesFor targetRemoved identity outline.issues = [issue] ∧
      issue.ruleRefs = target.ruleRefs)

/-- What is known of the last outline of a history. -/
structure Accounted (history : List (AuthoringOutline Selector))
    (outline : AuthoringOutline Selector) : Prop where
  placed : forall identity target, lastHeld history identity = some target ->
    Placed outline identity target
  held : forall identity, lastHeld history identity = none ->
    issuesFor targetRemoved identity outline.issues = []
  named : forall issue, issue ∈ outline.issues -> issue.code = targetRemoved ->
    issue.targetId.isSome = true

variable {earlier : List (AuthoringOutline Selector)} {outline : AuthoringOutline Selector}

theorem lastHeld_of_mem {identity : String}
    (hmem : identity ∈ outline.targets.map ResponseTarget.targetId) :
    exists target, findBy ResponseTarget.targetId outline.targets identity = some target ∧
      lastHeld (outline :: earlier) identity = some target := by
  cases hfind : findBy ResponseTarget.targetId outline.targets identity with
  | none =>
      exact absurd hmem (findBy_eq_none.mp hfind)
  | some target =>
      refine ⟨target, rfl, ?_⟩
      rw [lastHeld, hfind]

theorem lastHeld_of_not_mem {identity : String}
    (habsent : identity ∉ outline.targets.map ResponseTarget.targetId) :
    lastHeld (outline :: earlier) identity = lastHeld earlier identity := by
  rw [lastHeld, findBy_eq_none.mpr habsent]

/-- The outline has no issue about a removed position. -/
def NoRemovals (outline : AuthoringOutline Selector) : Prop :=
  forall issue, issue ∈ outline.issues -> issue.code ≠ targetRemoved

theorem Accounted.start {base : AuthoringOutline Selector} (hbase : NoRemovals base) :
    Accounted [base] base := by
  have hnone : forall identity, issuesFor targetRemoved identity base.issues = [] := by
    intro identity
    unfold issuesFor
    rw [List.filter_eq_nil_iff]
    intro issue hmem htrue
    exact hbase issue hmem (of_decide_eq_true htrue).1
  constructor
  · intro identity target hheld
    by_cases hmem : identity ∈ base.targets.map ResponseTarget.targetId
    · exact Or.inl ⟨hmem, hnone identity⟩
    · rw [lastHeld_of_not_mem hmem] at hheld
      cases hheld
  · intro identity _
    exact hnone identity
  · intro issue hmem hcode
    exact absurd hcode (hbase issue hmem)

theorem Accepted.removals_of_absent {base result : AuthoringOutline Selector}
    {edit : OutlineEdit Selector} {bound : Forest (OutlineChapter Selector)}
    (h : Accepted base edit result bound) {identity : String}
    (habsent : identity ∉ result.targets.map ResponseTarget.targetId) :
    issuesFor targetRemoved identity result.issues =
      issuesFor targetRemoved identity base.issues ++
        ((findBy ResponseTarget.targetId base.targets identity).map fun target =>
          removalIssue target.normalize).toList := by
  rw [h.targetIds] at habsent
  rw [h.issues, removals_of_not_mem h.uniqueNormalized habsent, targets_normalized,
    @findBy_map _ _ _ ResponseTarget.targetId ResponseTarget.normalize fun _ => rfl]
  cases findBy ResponseTarget.targetId base.targets identity with
  | none =>
      rfl
  | some target =>
      rfl

/-- One accepted edit keeps the account of the positions. -/
theorem Accounted.accept {base result : AuthoringOutline Selector} {edit : OutlineEdit Selector}
    {bound : Forest (OutlineChapter Selector)} (hbefore : Accounted (base :: earlier) base)
    (h : Accepted base edit result bound) :
    Accounted (result :: base :: earlier) result := by
  constructor
  · intro identity target hheld
    by_cases hmem : identity ∈ result.targets.map ResponseTarget.targetId
    · apply Or.inl
      constructor
      · exact hmem
      · rw [h.issues]
        rw [h.targetIds] at hmem
        exact removals_of_mem h.uniqueNormalized hmem
    · rw [lastHeld_of_not_mem hmem] at hheld
      have hissues := h.removals_of_absent hmem
      apply Or.inr
      constructor
      · exact hmem
      · rcases hbefore.placed identity target hheld with
          ⟨hthere, hnone⟩ | ⟨hgone, issue, hissue, hrules⟩
        · -- The position is removed by this edit.
          rcases @lastHeld_of_mem Selector earlier base identity hthere with ⟨found, hfind, hlast⟩
          rw [hlast] at hheld
          cases hheld
          rw [hnone, hfind] at hissues
          exact ⟨removalIssue target.normalize, hissues, rfl⟩
        · -- It was removed by an earlier one.
          rw [hissue, findBy_eq_none.mpr hgone] at hissues
          exact ⟨issue, hissues, hrules⟩
  · intro identity hheld
    have hmem : identity ∉ result.targets.map ResponseTarget.targetId := by
      intro hmem
      rcases @lastHeld_of_mem Selector (base :: earlier) result identity hmem with ⟨found, _, hlast⟩
      rw [hlast] at hheld
      cases hheld
    rw [lastHeld_of_not_mem hmem] at hheld
    have hbase : identity ∉ base.targets.map ResponseTarget.targetId := by
      intro hthere
      rcases @lastHeld_of_mem Selector earlier base identity hthere with ⟨found, _, hlast⟩
      rw [hlast] at hheld
      cases hheld
    rw [h.removals_of_absent hmem, hbefore.held identity hheld, findBy_eq_none.mpr hbase]
    rfl
  · intro issue hmem hcode
    rw [h.issues] at hmem
    rcases mem_editedIssues hmem with ⟨hold, _⟩ | hnamed
    · exact hbefore.named issue hold hcode
    · exact hnamed

theorem Edited.accounted {base outline : AuthoringOutline Selector} (hbase : NoRemovals base)
    (hrun : Edited selectorValid base (outline :: earlier)) :
    Accounted (outline :: earlier) outline := by
  generalize hhistory : outline :: earlier = history at hrun
  induction hrun generalizing outline earlier with
  | start =>
      cases hhistory
      exact Accounted.start hbase
  | accept hearlier happly ih =>
      cases hhistory
      rcases applyOutlineEdit_eq_ok happly with ⟨bound, haccepted⟩
      exact (ih rfl).accept haccepted

/-!
# What every edit keeps
-/

/-- A position of the outline refers to one that is not in it. -/
def RefersAway (outline : AuthoringOutline Selector) (identity : String) : Prop :=
  exists target, target ∈ outline.targets ∧ target.targetId = identity ∧
    exists related, related ∈ target.relatedTargetIds ∧
      related ∉ outline.targets.map ResponseTarget.targetId

/-- The outline that an accepted edit makes, after the outlines of the history,
of which `base` is the last. -/
structure Outcome (history : List (AuthoringOutline Selector)) (base : AuthoringOutline Selector)
    (edit : OutlineEdit Selector) (result : AuthoringOutline Selector) : Prop where
  chapters : result.chapters.map OutlineChapter.heading =
    edit.chapters.map OutlineEditChapter.heading
  chapterIds : (result.chapters.values.map OutlineChapter.chapterId).Nodup
  targetIds : (result.targets.map ResponseTarget.targetId).Nodup
  placed : forall identity target, lastHeld (result :: history) identity = some target ->
    Placed result identity target
  removals : forall issue, issue ∈ result.issues -> issue.code = targetRemoved ->
    exists identity target, issue.targetId = some identity ∧
      identity ∉ result.targets.map ResponseTarget.targetId ∧
      lastHeld history identity = some target ∧ issue.ruleRefs = target.ruleRefs
  kept : forall target target', target ∈ base.targets -> target' ∈ result.targets ->
    target'.targetId = target.targetId -> ¬ IsManualResponse target.targetId ->
    target'.ruleRefs = target.ruleRefs ∧ target'.templateRefs = target.templateRefs ∧
      target'.sourceExcerpts = target.sourceExcerpts ∧
      target'.responseTable = target.responseTable ∧ target.sourceRefs <+: target'.sourceRefs
  unbound : forall identity, RefersAway result identity ->
    exists issue, issuesFor referenceUnbound identity result.issues = [issue]
  bound : forall identity, ¬ RefersAway result identity ->
    issuesFor referenceUnbound identity result.issues = []
  named : forall issue, issue ∈ result.issues -> issue.code = referenceUnbound ->
    issue.targetId.isSome = true

theorem Accepted.kept {base result : AuthoringOutline Selector} {edit : OutlineEdit Selector}
    {bound : Forest (OutlineChapter Selector)} (h : Accepted base edit result bound)
    {target target' : ResponseTarget Selector} (htarget : target ∈ base.targets)
    (htarget' : target' ∈ result.targets) (hid : target'.targetId = target.targetId)
    (hmanual : ¬ IsManualResponse target.targetId) :
    target'.ruleRefs = target.ruleRefs ∧ target'.templateRefs = target.templateRefs ∧
      target'.sourceExcerpts = target.sourceExcerpts ∧
      target'.responseTable = target.responseTable ∧ target.sourceRefs <+: target'.sourceRefs := by
  rw [h.targets] at htarget'
  rcases List.mem_map.mp htarget' with ⟨between, hbetween, rfl⟩
  have hgrown := h.grown htarget hbetween hid hmanual
  have hsame := hgrown.same
  refine ⟨?_, ?_, ?_, ?_, hgrown.sources⟩
  · exact (congrArg ResponseTarget.ruleRefs hsame :)
  · exact (congrArg ResponseTarget.templateRefs hsame :)
  · exact (congrArg ResponseTarget.sourceExcerpts hsame :)
  · exact (congrArg ResponseTarget.responseTable hsame :)

theorem Accounted.removals {history : List (AuthoringOutline Selector)}
    {result : AuthoringOutline Selector} (h : Accounted (result :: history) result)
    {issue : OutlineIssue} (hmem : issue ∈ result.issues) (hcode : issue.code = targetRemoved) :
    exists identity target, issue.targetId = some identity ∧
      identity ∉ result.targets.map ResponseTarget.targetId ∧
      lastHeld history identity = some target ∧ issue.ruleRefs = target.ruleRefs := by
  rcases Option.isSome_iff_exists.mp (h.named issue hmem hcode) with ⟨identity, hid⟩
  have hfor : issue ∈ issuesFor targetRemoved identity result.issues := by
    unfold issuesFor
    rw [List.mem_filter]
    exact ⟨hmem, decide_eq_true ⟨hcode, hid⟩⟩
  cases hheld : lastHeld (result :: history) identity with
  | none =>
      rw [h.held identity hheld] at hfor
      cases hfor
  | some target =>
      rcases h.placed identity target hheld with ⟨_, hnone⟩ | ⟨habsent, only, honly, hrules⟩
      · rw [hnone] at hfor
        cases hfor
      · rw [honly, List.mem_singleton] at hfor
        subst hfor
        rw [lastHeld_of_not_mem habsent] at hheld
        exact ⟨identity, target, hid, habsent, hheld, hrules⟩

theorem isUnbound_iff {remaining : List String} {target : ResponseTarget Selector} :
    isUnbound remaining target = true <->
      exists related, related ∈ target.relatedTargetIds ∧ related ∉ remaining := by
  unfold isUnbound
  simp only [List.any_eq_true, List.contains_eq_mem, Bool.not_eq_true', decide_eq_false_iff_not]

theorem Accepted.refersAway {base result : AuthoringOutline Selector} {edit : OutlineEdit Selector}
    {bound : Forest (OutlineChapter Selector)} (h : Accepted base edit result bound)
    {identity : String} :
    RefersAway result identity <->
      exists target,
        findBy ResponseTarget.targetId (targetsOf bound.values) identity = some target ∧
        isUnbound ((targetsOf bound.values).map ResponseTarget.targetId) target = true := by
  unfold RefersAway
  rw [h.targetIds, h.targets]
  constructor
  · rintro ⟨target, hmem, rfl, hrelated⟩
    rcases List.mem_map.mp hmem with ⟨between, hbetween, rfl⟩
    exact ⟨between, findBy_of_mem h.uniqueBound hbetween, isUnbound_iff.mpr hrelated⟩
  · rintro ⟨target, hfind, hunbound⟩
    rcases findBy_eq_some hfind with ⟨hmem, hid⟩
    exact ⟨target.normalize, List.mem_map_of_mem hmem, hid, isUnbound_iff.mp hunbound⟩

theorem Accepted.unbounds {base result : AuthoringOutline Selector} {edit : OutlineEdit Selector}
    {bound : Forest (OutlineChapter Selector)} (h : Accepted base edit result bound)
    (identity : String) :
    (RefersAway result identity ->
      exists issue, issuesFor referenceUnbound identity result.issues = [issue]) ∧
    (¬ RefersAway result identity ->
      issuesFor referenceUnbound identity result.issues = []) := by
  rw [h.issues, unbounds_eq h.uniqueBound, h.refersAway]
  cases hfind : findBy ResponseTarget.targetId (targetsOf bound.values) identity with
  | none =>
      constructor
      · rintro ⟨target, hnone, _⟩
        cases hnone
      · intro _
        rfl
  | some target =>
      rw [Option.toList_some]
      constructor
      · rintro ⟨found, hfound, hunbound⟩
        cases hfound
        rw [List.filter_cons_of_pos hunbound]
        exact ⟨unboundIssue target, rfl⟩
      · intro hnot
        have hbound : ¬ isUnbound ((targetsOf bound.values).map ResponseTarget.targetId) target =
            true := fun hunbound => hnot ⟨target, rfl, hunbound⟩
        rw [List.filter_cons_of_neg hbound]
        rfl

/-- From a base without removal issues, after any number of accepted edits: the
next edit is refused and changes nothing, or it gives its own tree of chapters
with every position accounted for. -/
theorem outline_edits_keep_positions (selectorValid : Selector -> Bool)
    (base outline : AuthoringOutline Selector) (earlier : List (AuthoringOutline Selector))
    (hbase : NoRemovals base) (hrun : Edited selectorValid base (outline :: earlier))
    (edit : OutlineEdit Selector) :
    (forall result, applyOutlineEdit selectorValid outline edit = .ok result ->
      Outcome (outline :: earlier) outline edit result ∧
        afterEdit selectorValid outline edit = result) ∧
    (forall refusal, applyOutlineEdit selectorValid outline edit = .error refusal ->
      afterEdit selectorValid outline edit = outline) := by
  constructor
  · intro result happly
    rcases applyOutlineEdit_eq_ok happly with ⟨bound, h⟩
    have haccounted := (Edited.accounted hbase hrun).accept h
    constructor
    · constructor
      · exact h.heading
      · exact h.chapterIds
      · rw [h.targetIds]
        exact h.uniqueBound
      · exact haccounted.placed
      · exact fun issue hmem hcode => haccounted.removals hmem hcode
      · exact fun target target' htarget htarget' hid hmanual => h.kept htarget htarget' hid hmanual
      · exact fun identity => (h.unbounds identity).1
      · exact fun identity => (h.unbounds identity).2
      · intro issue hmem hcode
        rw [h.issues] at hmem
        rcases mem_editedIssues hmem with ⟨_, hother⟩ | hnamed
        · exact absurd hcode hother
        · exact hnamed
    · unfold afterEdit
      rw [happly]
  · intro refusal happly
    unfold afterEdit
    rw [happly]

theorem applyOutlineEdit_of_isOk {edit : OutlineEdit Selector}
    (hok : (applyOutlineEdit selectorValid outline edit).isOk = true) :
    applyOutlineEdit selectorValid outline edit = .ok (afterEdit selectorValid outline edit) := by
  unfold afterEdit
  cases hrun : applyOutlineEdit selectorValid outline edit with
  | error refusal =>
      rw [hrun] at hok
      cases hok
  | ok result =>
      rfl

def contentsTarget (identity : String) (related : List String) : ResponseTarget Unit :=
  { targetId := identity, kind := .form, purpose := "投标函", ruleRefs := [], sourceRefs := []
    sourceExcerpts := [], templateRefs := [], subject := none, responseTable := none
    manualFill := false, supportOrigins := [.tender], relatedTargetIds := related }

def contents : AuthoringOutline Unit :=
  { chapters :=
      .cons ⟨"a", "商务", [contentsTarget "form" ["price"]], some false, some .body⟩ .nil
        (.cons ⟨"b", "报价", [contentsTarget "price" []], some false, some .body⟩ .nil .nil)
    issues := [], submissionRefs := [] }

/-- Leaves out the chapter of the price. -/
def leaveOutPrice : OutlineEdit Unit :=
  { chapters := .cons ⟨"a", "商务", none, none, none, none, []⟩ .nil .nil
    targetCatalog := [], order := ⟨id, fun _ => .rfl⟩ }

/-- Puts the price below the other position. -/
def bringBackPrice : OutlineEdit Unit :=
  { chapters := .cons ⟨"a", "商务", none, none, none, some ["form", "price"], []⟩ .nil .nil
    targetCatalog := contents.targets, order := ⟨id, fun _ => .rfl⟩ }

/-- A position is left out and brought back from the catalog. -/
theorem price_is_brought_back :
    (afterEdit (fun _ => true) contents leaveOutPrice).issues.map OutlineIssue.targetId =
      [some "price", some "form"] ∧
    (afterEdit (fun _ => true) (afterEdit (fun _ => true) contents leaveOutPrice)
      bringBackPrice).issues = [] ∧
    Outcome [afterEdit (fun _ => true) contents leaveOutPrice, contents]
      (afterEdit (fun _ => true) contents leaveOutPrice) bringBackPrice
      (afterEdit (fun _ => true) (afterEdit (fun _ => true) contents leaveOutPrice)
        bringBackPrice) := by
  have hfirst : applyOutlineEdit (fun _ => true) contents leaveOutPrice =
      .ok (afterEdit (fun _ => true) contents leaveOutPrice) :=
    applyOutlineEdit_of_isOk (by decide +kernel)
  have hsecond : applyOutlineEdit (fun _ => true)
      (afterEdit (fun _ => true) contents leaveOutPrice) bringBackPrice =
        .ok (afterEdit (fun _ => true) (afterEdit (fun _ => true) contents leaveOutPrice)
          bringBackPrice) :=
    applyOutlineEdit_of_isOk (by decide +kernel)
  have hbase : NoRemovals contents := by
    intro issue hmem
    cases hmem
  refine ⟨by decide +kernel, by decide +kernel, ?_⟩
  exact ((outline_edits_keep_positions (fun _ => true) contents _ [contents] hbase
    (.accept .start hfirst) bringBackPrice).1 _ hsecond).1

end Outline
end KnowledgeBrain
