import KnowledgeBrain.Foundation.Keyed
import KnowledgeBrain.Tender.Revisions
import KnowledgeBrain.Foundation.Forests
import Mathlib.Algebra.Ring.Nat

/-!
# Outline edits

An outline is a tree of chapters with response positions in them.  A person
sends back the tree as it should be: chapters and which positions stand in
them.  Everything else about a position is taken from the outline itself or
from a catalog of earlier positions, and what the new tree leaves out is
recorded as an issue.
-/

namespace KnowledgeBrain
namespace Outline

open Foundation
open Tender.Store (isBlank)

section

/-!
# References
-/

structure ArtifactRef where
  sha256 : String
  relativePath : String
  size : Nat
  mediaType : String
deriving DecidableEq

structure ItemRef where
  artifactRef : ArtifactRef
  itemId : String
deriving DecidableEq

structure EffectiveItemRef where
  itemRef : ItemRef
  decisionId : Option String
  ruleIndex : Option Nat
deriving DecidableEq

structure SourceUnitRef where
  sourceIndexRef : ArtifactRef
  unitId : String
deriving DecidableEq

/-- The edit never looks into a selector. -/
structure SourceExcerptRef (Selector : Type) where
  sourceRef : SourceUnitRef
  selectors : List Selector

structure TemplatePartRef (Selector : Type) where
  sourceRef : SourceUnitRef
  selectors : List Selector
  headerRowCount : Option Nat

structure ResponseTableRow (Selector : Type) where
  rowId : String
  sourceExcerpts : List (SourceExcerptRef Selector)
  ruleRefs : List EffectiveItemRef

structure ResponseTable (Selector : Type) where
  contextSourceExcerpts : List (SourceExcerptRef Selector)
  rows : List (ResponseTableRow Selector)

/-!
# Outlines
-/

inductive ResponseTargetKind where
  | narrative
  | form
  | attachment
deriving DecidableEq

inductive ChapterPresentationRole where
  | body
  | cover
  | submissionNote
deriving DecidableEq

inductive SupportOrigin where
  | tender
  | knowledge
deriving DecidableEq

structure ResponseTarget (Selector : Type) where
  targetId : String
  kind : ResponseTargetKind
  purpose : String
  ruleRefs : List EffectiveItemRef
  sourceRefs : List SourceUnitRef
  sourceExcerpts : List (SourceExcerptRef Selector)
  templateRefs : List (TemplatePartRef Selector)
  subject : Option String
  responseTable : Option (ResponseTable Selector)
  manualFill : Bool
  supportOrigins : List SupportOrigin
  relatedTargetIds : List String

/-- `OutlineChapter` without its children, which are the forest's.  A role or
volume mark of `none` is the `null` that an edit can set. -/
structure OutlineChapter (Selector : Type) where
  chapterId : String
  title : String
  targets : List (ResponseTarget Selector)
  isVolume : Option Bool
  presentationRole : Option ChapterPresentationRole

structure OutlineIssue where
  code : String
  detail : String
  ruleRefs : List EffectiveItemRef
  targetId : Option String
deriving DecidableEq

structure AuthoringOutline (Selector : Type) where
  chapters : Forest (OutlineChapter Selector)
  issues : List OutlineIssue
  submissionRefs : List SourceUnitRef

def targetRemoved : String := "outline_edit_target_removed"

def referenceUnbound : String := "outline_edit_reference_unbound"

variable {Selector : Type}

/-- The response positions of chapters, in the order of the outline. -/
def targetsOf (chapters : List (OutlineChapter Selector)) : List (ResponseTarget Selector) :=
  chapters.flatMap OutlineChapter.targets

def AuthoringOutline.targets (outline : AuthoringOutline Selector) :
    List (ResponseTarget Selector) :=
  targetsOf outline.chapters.values

/-!
# The edit
-/

structure OutlineSourceAddition where
  targetId : String
  sourceRefs : List SourceUnitRef
deriving DecidableEq

/-- `OutlineEditChapter` without its children.  A field that may be left unset
is an option; a mark or role that is set may still be `null`. -/
structure OutlineEditChapter where
  chapterId : String
  title : String
  isVolume : Option (Option Bool) := none
  presentationRole : Option (Option ChapterPresentationRole) := none
  writingGoal : Option String := none
  targetIds : Option (List String) := none
  sourceAdditions : List OutlineSourceAddition := []
deriving DecidableEq

inductive Refusal where
  | tooDeep
  | tooMany
  | unfinished
  | invalid
  | ambiguousBase
  | repeatedChapter
  | unknownChapter
  | unknownTarget
  | keepTargets
  | misplacedSource
  | unknownSource
  | repeatedTarget
deriving DecidableEq

/-- The texts of the source; an invalid value has the text of its own check. -/
def Refusal.message : Refusal -> Option String
  | .tooDeep => some "大纲层级最多16层，请先简化章节结构。"
  | .tooMany => some "大纲最多1000章，请先合并部分章节。"
  | .unfinished => none
  | .invalid => none
  | .ambiguousBase => some "原大纲存在重复标识，无法确定章节或响应位置，请重新生成大纲。"
  | .repeatedChapter => some "章节标识重复或循环，请调整章节结构。"
  | .unknownChapter => some "新增章节须使用独立的manual-UUID标识。"
  | .unknownTarget => some "响应位置不属于此大纲快照，请载入对应历史修订后重新安排。"
  | .keepTargets => some "既有响应位置须保留原说明和引用；可新增章节填写编写说明。"
  | .misplacedSource => some "追加来源只能选择本章已有或选入的响应位置。"
  | .unknownSource => some "追加来源不属于此大纲快照，请选择已有的完整来源引用。"
  | .repeatedTarget => some "响应位置标识重复，请重新选择章节标识。"

/-!
# `_check_size`
-/

abbrev Stack (A : Type) := List (Forest A × Nat)

/-- The pass over the nodes of one list. -/
def scanNodes {A : Type} (depth : Nat) :
    Forest A -> Stack A -> Nat -> Except Refusal (Stack A × Nat)
  | .nil, stack, count => .ok (stack, count)
  | .cons _ children rest, stack, count =>
      if count + 1 > 1000 then .error .tooMany
      else scanNodes depth rest
        (if children.isEmpty then stack else (children, depth + 1) :: stack) (count + 1)

/-- The loop over the stack; the last list put on it is taken first. -/
def checkLoop {A : Type} : Nat -> Stack A -> Nat -> Except Refusal Unit
  | _, [], _ => .ok ()
  | 0, _ :: _, _ => .error .unfinished
  | fuel + 1, (nodes, depth) :: stack, count =>
      if depth > 16 then .error .tooDeep
      else do
        let (stack, count) <- scanNodes depth nodes stack count
        checkLoop fuel stack count

/-- Every list but the first belongs to a chapter of its own. -/
def checkSize {A : Type} (chapters : Forest A) : Except Refusal Unit :=
  checkLoop (chapters.values.length + 1) [(chapters, 1)] 0

/-!
# Validation

The checks of the field contracts.  Validating also drops repeated origins.
-/

def isIdentity (text : String) : Bool :=
  !text.isEmpty

def isText (text : String) : Bool :=
  !isBlank text

def isLowerHex (c : Char) : Bool :=
  ('0' ≤ c && c ≤ '9') || ('a' ≤ c && c ≤ 'f')

def ArtifactRef.valid (ref : ArtifactRef) : Bool :=
  ref.sha256.length == 64 && ref.sha256.toList.all isLowerHex && isIdentity ref.mediaType &&
    ref.relativePath == String.ofList (ref.sha256.toList.take 2) ++ "/" ++ ref.sha256

def EffectiveItemRef.valid (ref : EffectiveItemRef) : Bool :=
  ref.itemRef.artifactRef.valid && isText ref.itemRef.itemId &&
    ref.decisionId.all isIdentity && ref.decisionId.isNone == ref.ruleIndex.isNone

def SourceUnitRef.valid (ref : SourceUnitRef) : Bool :=
  ref.sourceIndexRef.valid && isIdentity ref.unitId

section Validation

variable (selectorValid : Selector -> Bool)

def SourceExcerptRef.valid (ref : SourceExcerptRef Selector) : Bool :=
  ref.sourceRef.valid && !ref.selectors.isEmpty && ref.selectors.all selectorValid

def TemplatePartRef.valid (ref : TemplatePartRef Selector) : Bool :=
  ref.sourceRef.valid && ref.selectors.all selectorValid

def ResponseTableRow.valid (row : ResponseTableRow Selector) : Bool :=
  isIdentity row.rowId && !row.sourceExcerpts.isEmpty &&
    row.sourceExcerpts.all (SourceExcerptRef.valid selectorValid) &&
    row.ruleRefs.all EffectiveItemRef.valid

def ResponseTable.valid (table : ResponseTable Selector) : Bool :=
  table.contextSourceExcerpts.all (SourceExcerptRef.valid selectorValid) &&
    !table.rows.isEmpty && table.rows.all (ResponseTableRow.valid selectorValid)

def ResponseTarget.valid (target : ResponseTarget Selector) : Bool :=
  isIdentity target.targetId && isText target.purpose &&
    target.ruleRefs.all EffectiveItemRef.valid && target.sourceRefs.all SourceUnitRef.valid &&
    target.sourceExcerpts.all (SourceExcerptRef.valid selectorValid) &&
    target.templateRefs.all (TemplatePartRef.valid selectorValid) &&
    target.subject.all isText && target.responseTable.all (ResponseTable.valid selectorValid) &&
    (1 ≤ target.supportOrigins.length && target.supportOrigins.length ≤ 2) &&
    target.relatedTargetIds.all isIdentity

def OutlineChapter.valid (chapter : OutlineChapter Selector) : Bool :=
  isIdentity chapter.chapterId && isText chapter.title &&
    chapter.targets.all (ResponseTarget.valid selectorValid) &&
    chapter.isVolume.isSome && chapter.presentationRole.isSome

def OutlineIssue.valid (issue : OutlineIssue) : Bool :=
  isText issue.code && isText issue.detail && issue.ruleRefs.all EffectiveItemRef.valid &&
    issue.targetId.all isIdentity

def AuthoringOutline.valid (outline : AuthoringOutline Selector) : Bool :=
  outline.chapters.values.all (OutlineChapter.valid selectorValid) &&
    outline.issues.all OutlineIssue.valid && outline.submissionRefs.all SourceUnitRef.valid

def ResponseTarget.normalize (target : ResponseTarget Selector) : ResponseTarget Selector :=
  { target with supportOrigins := target.supportOrigins.eraseDups }

def OutlineChapter.normalize (chapter : OutlineChapter Selector) : OutlineChapter Selector :=
  { chapter with targets := chapter.targets.map ResponseTarget.normalize }

/-- `AuthoringOutline.model_validate(..).model_dump(exclude_unset=True)`. -/
def AuthoringOutline.validate (outline : AuthoringOutline Selector) :
    Except Refusal (AuthoringOutline Selector) :=
  if outline.valid selectorValid then
    .ok { outline with chapters := outline.chapters.map OutlineChapter.normalize }
  else .error .invalid

end Validation

def OutlineSourceAddition.valid (addition : OutlineSourceAddition) : Bool :=
  isIdentity addition.targetId && addition.sourceRefs.all SourceUnitRef.valid &&
    (1 ≤ addition.sourceRefs.length && addition.sourceRefs.length ≤ 1000)

def OutlineEditChapter.valid (node : OutlineEditChapter) : Bool :=
  isIdentity node.chapterId && node.chapterId.length ≤ 256 &&
    isText node.title && node.title.length ≤ 1000 &&
    node.writingGoal.all (fun goal => goal.length ≤ 20000) &&
    node.targetIds.all (fun ids => ids.all isIdentity && ids.length ≤ 1000) &&
    node.sourceAdditions.all OutlineSourceAddition.valid && node.sourceAdditions.length ≤ 1000

/-!
# `bind`
-/

/-- The lengths of the parts of a UUID between its hyphens. -/
def uuidParts : List Nat := [8, 4, 4, 4, 12]

/-- `str(UUID(text)) == text`. -/
def isUuid (text : List Char) : Bool :=
  let parts := text.splitOn '-'
  parts.map List.length == uuidParts && parts.all fun part => part.all isLowerHex

/-- `_manual_id`. -/
def manualId (identity : String) : Bool :=
  "manual-".toList.isPrefixOf identity.toList && isUuid (identity.toList.drop 7)

def responseId (identity : String) : String :=
  "manual-response-" ++ identity

/-- What a node is bound to: the outline as it is, and the catalog. -/
structure Binding (Selector : Type) where
  known : List (OutlineChapter Selector)
  available : List (ResponseTarget Selector)
  sources : List SourceUnitRef

namespace Binding

variable (binding : Binding Selector)

def chapter? (identity : String) : Option (OutlineChapter Selector) :=
  findBy OutlineChapter.chapterId binding.known identity

def target? (identity : String) : Option (ResponseTarget Selector) :=
  findBy ResponseTarget.targetId binding.available identity

/-- The checks before the children of a node are bound. -/
def enter (seen : List String) (node : OutlineEditChapter) : Except Refusal (List String) := do
  reject (node.chapterId ∈ seen) .repeatedChapter
  reject ((binding.chapter? node.chapterId).isNone = true ∧ manualId node.chapterId = false)
    .unknownChapter
  return node.chapterId :: seen

/-- The chapter a node starts from, with its title. -/
def start (node : OutlineEditChapter) : OutlineChapter Selector :=
  match binding.chapter? node.chapterId with
  | some original => { original with title := node.title }
  | none =>
      { chapterId := node.chapterId, title := node.title, targets := [], isVolume := some false
        presentationRole := some .body }

def available? (identity : String) : Except Refusal (ResponseTarget Selector) :=
  match binding.target? identity with
  | none => .error .unknownTarget
  | some target => .ok target

def select (node : OutlineEditChapter) (chapter : OutlineChapter Selector) :
    Except Refusal (OutlineChapter Selector) :=
  match node.targetIds with
  | none => .ok chapter
  | some ids => do
      let targets <- ids.mapM binding.available?
      return { chapter with targets := targets }

def setFields (node : OutlineEditChapter) (chapter : OutlineChapter Selector) :
    OutlineChapter Selector :=
  { chapter with
    isVolume := node.isVolume.getD chapter.isVolume
    presentationRole := node.presentationRole.getD chapter.presentationRole }

/-- The position that a writing goal of a manual chapter is. -/
def manualTarget (identity purpose : String) : ResponseTarget Selector :=
  { targetId := responseId identity, kind := .narrative, purpose := purpose, ruleRefs := []
    sourceRefs := [], sourceExcerpts := [], templateRefs := [], subject := none
    responseTable := none, manualFill := false, supportOrigins := [.knowledge]
    relatedTargetIds := [] }

def isPlain (identity : String) (target : ResponseTarget Selector) : Bool :=
  target.targetId == responseId identity && target.ruleRefs.isEmpty &&
    target.sourceRefs.isEmpty && target.templateRefs.isEmpty

def setGoal (node : OutlineEditChapter) (chapter : OutlineChapter Selector) :
    Except Refusal (OutlineChapter Selector) :=
  match node.writingGoal with
  | none => .ok chapter
  | some goal => do
      reject (manualId node.chapterId = false ∨
        chapter.targets.any (fun target => !isPlain node.chapterId target) = true) .keepTargets
      return { chapter with
        targets := if isBlank goal then [] else [manualTarget node.chapterId goal] }

/-- One reference for a position that may have it already. -/
def addSource (target : ResponseTarget Selector) (reference : SourceUnitRef) :
    ResponseTarget Selector :=
  if reference ∈ target.sourceRefs then target
  else { target with sourceRefs := target.sourceRefs ++ [reference] }

def addSources (chapter : OutlineChapter Selector) (addition : OutlineSourceAddition) :
    Except Refusal (OutlineChapter Selector) := do
  reject ((binding.target? addition.targetId).isNone = true ∨
    addition.targetId ∉ chapter.targets.map ResponseTarget.targetId) .misplacedSource
  reject (addition.sourceRefs.any (fun reference => !binding.sources.contains reference) = true)
    .unknownSource
  return { chapter with
    targets := modifyLast ResponseTarget.targetId addition.targetId
      (fun target => addition.sourceRefs.foldl addSource target) chapter.targets }

/-- The rest of `bind`, once the children are bound. -/
def leave (node : OutlineEditChapter) : Except Refusal (OutlineChapter Selector) := do
  let chapter <- binding.select node (binding.start node)
  let chapter <- setGoal node (setFields node chapter)
  node.sourceAdditions.foldlM binding.addSources chapter

end Binding

/-!
# `apply_outline_edit`
-/

/-- The order in which a set of identities is gone through. -/
structure SetOrder where
  order : List String -> List String
  perm : forall ids, (order ids).Perm ids

/-- Whether an issue is still true of the positions that remain. -/
def keepsIssue (remaining : List String) (issue : OutlineIssue) : Bool :=
  issue.code != referenceUnbound &&
    (issue.code != targetRemoved || issue.targetId.all fun identity => !remaining.contains identity)

def removalIssue (target : ResponseTarget Selector) : OutlineIssue :=
  { code := targetRemoved, targetId := some target.targetId
    detail := "大纲编排已移出响应位置“" ++ target.purpose ++
      "”；原要求和来源仍保留，须重新安排或核对。"
    ruleRefs := target.ruleRefs }

def unboundIssue (target : ResponseTarget Selector) : OutlineIssue :=
  { code := referenceUnbound, targetId := some target.targetId
    detail := "此响应位置引用的部分位置已移出大纲，需重新安排或核对。"
    ruleRefs := target.ruleRefs }

/-- A position refers to one that does not remain. -/
def isUnbound (remaining : List String) (target : ResponseTarget Selector) : Bool :=
  target.relatedTargetIds.any fun identity => !remaining.contains identity

/-- The issues once the positions `targets` remain of `originals`. -/
def editedIssues (order : SetOrder) (issues : List OutlineIssue)
    (originals targets : List (ResponseTarget Selector)) : List OutlineIssue :=
  let remaining := targets.map ResponseTarget.targetId
  let removed := (originals.map ResponseTarget.targetId).filter fun identity =>
    !remaining.contains identity
  issues.filter (keepsIssue remaining) ++
    ((order.order removed).filterMap (findBy ResponseTarget.targetId originals)).map removalIssue ++
    (targets.filter (isUnbound remaining)).map unboundIssue

def bindingOf (base : AuthoringOutline Selector) (targetCatalog : List (ResponseTarget Selector)) :
    Binding Selector :=
  let available := latestBy ResponseTarget.targetId (targetCatalog ++ base.targets)
  { known := base.chapters.values, available := available
    sources := base.submissionRefs ++ available.flatMap ResponseTarget.sourceRefs }

/-- One call: the tree as it should be, the catalog, and the order in which the
removed positions are gone through. -/
structure OutlineEdit (Selector : Type) where
  chapters : Forest OutlineEditChapter
  targetCatalog : List (ResponseTarget Selector)
  order : SetOrder

def applyOutlineEdit (selectorValid : Selector -> Bool) (base : AuthoringOutline Selector)
    (edit : OutlineEdit Selector) : Except Refusal (AuthoringOutline Selector) := do
  checkSize edit.chapters
  let base <- base.validate selectorValid
  reject (¬ (base.chapters.values.map OutlineChapter.chapterId).Nodup ∨
    ¬ (base.targets.map ResponseTarget.targetId).Nodup) .ambiguousBase
  reject (edit.chapters.values.all OutlineEditChapter.valid = false) .invalid
  let binding := bindingOf base edit.targetCatalog
  let (chapters, _) <- edit.chapters.walk binding.enter binding.leave []
  let targets := targetsOf chapters.values
  reject (¬ (targets.map ResponseTarget.targetId).Nodup) .repeatedTarget
  let result : AuthoringOutline Selector :=
    { base with
      chapters := chapters
      issues := editedIssues edit.order base.issues base.targets targets }
  result.validate selectorValid

/-- The outline after a call: a call that is refused leaves it as it is. -/
def afterEdit (selectorValid : Selector -> Bool) (base : AuthoringOutline Selector)
    (edit : OutlineEdit Selector) : AuthoringOutline Selector :=
  match applyOutlineEdit selectorValid base edit with
  | .ok result => result
  | .error _ => base

end

/-!
# Where every response position is

An edit binds every node of its tree to a chapter whose positions come from
the outline, from the catalog or from a writing goal.  Over any sequence of
edits a position that was ever in the outline is in it, or an issue says that
it was removed.
-/

variable {Selector : Type}

/-!
## Binding a node
-/

/-- A position with at least its sources, and otherwise the same. -/
structure Grown (target target' : ResponseTarget Selector) : Prop where
  sources : target.sourceRefs <+: target'.sourceRefs
  same : target' = { target with sourceRefs := target'.sourceRefs }

variable (target : ResponseTarget Selector)

theorem Grown.refl : Grown target target := by
  constructor
  · exact List.prefix_rfl
  · rfl

theorem Grown.trans {t1 t2 t3 : ResponseTarget Selector} (h12 : Grown t1 t2) (h23 : Grown t2 t3) :
    Grown t1 t3 := by
  constructor
  · exact h12.sources.trans h23.sources
  · rw [h23.same, h12.same]

theorem Grown.targetId {target target' : ResponseTarget Selector} (h : Grown target target') :
    target'.targetId = target.targetId := by
  rw [h.same]

theorem addSource_grown (reference : SourceUnitRef) :
    Grown target (Binding.addSource target reference) := by
  unfold Binding.addSource
  split
  · exact Grown.refl target
  · constructor
    · exact List.prefix_append _ _
    · rfl

theorem foldl_addSource_grown (refs : List SourceUnitRef) :
    Grown target (refs.foldl Binding.addSource target) :=
  foldl_invariant (fun s reference hgrown => hgrown.trans (addSource_grown s reference))
    (Grown.refl target)

/-- A position of the outline or the catalog, or the one of a writing goal. -/
def Binding.Offers (binding : Binding Selector) (identity : String)
    (target : ResponseTarget Selector) : Prop :=
  target ∈ targetsOf binding.known ∨ target ∈ binding.available ∨
    (manualId identity = true ∧ target.targetId = responseId identity)

/-- What is known of a chapter while its node is bound. -/
structure Bound (binding : Binding Selector) (node : OutlineEditChapter)
    (chapter : OutlineChapter Selector) : Prop where
  chapterId : chapter.chapterId = node.chapterId
  title : chapter.title = node.title
  targets : forall target', target' ∈ chapter.targets ->
    exists target, binding.Offers node.chapterId target ∧ Grown target target'

variable {binding : Binding Selector} {node : OutlineEditChapter}
variable {chapter chapter' : OutlineChapter Selector}

theorem start_bound : Bound binding node (binding.start node) := by
  unfold Binding.start
  cases hfind : binding.chapter? node.chapterId with
  | none =>
      constructor
      · rfl
      · rfl
      · intro target' hmem
        cases hmem
  | some original =>
      rcases findBy_eq_some hfind with ⟨hmem, hid⟩
      constructor
      · exact hid
      · rfl
      · intro target' htarget
        refine ⟨target', Or.inl ?_, Grown.refl target'⟩
        exact List.mem_flatMap.mpr ⟨original, hmem, htarget⟩

theorem available?_eq_ok {identity : String} {target : ResponseTarget Selector}
    (hrun : binding.available? identity = .ok target) : target ∈ binding.available := by
  unfold Binding.available? at hrun
  split at hrun
  · cases hrun
  · rename_i found hfind
    cases hrun
    exact (findBy_eq_some hfind).1

theorem select_bound (h : Bound binding node chapter)
    (hrun : binding.select node chapter = .ok chapter') : Bound binding node chapter' := by
  unfold Binding.select at hrun
  split at hrun
  · cases hrun
    exact h
  · rename_i ids _
    rcases bind_eq_ok hrun with ⟨targets, htargets, hrun⟩
    cases hrun
    constructor
    · exact h.chapterId
    · exact h.title
    · intro target' hmem
      rcases mem_of_mapM htargets hmem with ⟨identity, _, havailable⟩
      refine ⟨target', Or.inr (Or.inl ?_), Grown.refl target'⟩
      exact available?_eq_ok havailable

theorem setFields_bound (h : Bound binding node chapter) :
    Bound binding node (Binding.setFields node chapter) := by
  constructor
  · exact h.chapterId
  · exact h.title
  · exact h.targets

theorem setGoal_bound (h : Bound binding node chapter)
    (hrun : Binding.setGoal node chapter = .ok chapter') : Bound binding node chapter' := by
  unfold Binding.setGoal at hrun
  split at hrun
  · cases hrun
    exact h
  · rename_i goal _
    rcases reject_bind_eq_ok hrun with ⟨hallowed, hrun⟩
    have hmanual : manualId node.chapterId = true := by
      cases hmanual : manualId node.chapterId with
      | true =>
          rfl
      | false =>
          exact absurd (Or.inl hmanual) hallowed
    cases hrun
    constructor
    · exact h.chapterId
    · exact h.title
    · intro target' hmem
      change target' ∈ (if isBlank goal then [] else _) at hmem
      split at hmem
      · cases hmem
      · rw [List.mem_singleton] at hmem
        subst hmem
        exact ⟨_, Or.inr (Or.inr ⟨hmanual, rfl⟩), Grown.refl _⟩

theorem addSources_bound {addition : OutlineSourceAddition} (h : Bound binding node chapter)
    (hrun : binding.addSources chapter addition = .ok chapter') : Bound binding node chapter' := by
  unfold Binding.addSources at hrun
  rcases reject_bind_eq_ok hrun with ⟨_, hrun⟩
  rcases reject_bind_eq_ok hrun with ⟨_, hrun⟩
  cases hrun
  constructor
  · exact h.chapterId
  · exact h.title
  · intro target' hmem
    rcases mem_modifyLast Grown.refl
      (fun target _ => foldl_addSource_grown target addition.sourceRefs) hmem with
      ⟨between, hbetween, hgrown⟩
    rcases h.targets between hbetween with ⟨target, hoffer, hearlier⟩
    exact ⟨target, hoffer, hearlier.trans hgrown⟩

theorem leave_bound (hrun : binding.leave node = .ok chapter) : Bound binding node chapter := by
  unfold Binding.leave at hrun
  rcases bind_eq_ok hrun with ⟨selected, hselect, hrun⟩
  rcases bind_eq_ok hrun with ⟨aimed, hgoal, hrun⟩
  have hselected := select_bound start_bound hselect
  have haimed := setGoal_bound (setFields_bound hselected) hgoal
  exact foldlM_invariant (fun _ _ _ h hadd => addSources_bound h hadd) haimed hrun

/-!
## Binding the tree
-/

theorem enter_eq_ok {seen seen' : List String} (hrun : binding.enter seen node = .ok seen') :
    node.chapterId ∉ seen ∧ seen' = node.chapterId :: seen := by
  unfold Binding.enter at hrun
  rcases reject_bind_eq_ok hrun with ⟨hnew, hrun⟩
  rcases reject_bind_eq_ok hrun with ⟨_, hrun⟩
  cases hrun
  exact ⟨hnew, rfl⟩

/-- The nodes that are entered one after the other have different identities. -/
theorem nodup_of_enter {nodes : List OutlineEditChapter} {seen seen' : List String}
    (hrun : nodes.foldlM binding.enter seen = .ok seen') :
    (nodes.map OutlineEditChapter.chapterId).Nodup ∧
      forall node, node ∈ nodes -> node.chapterId ∉ seen := by
  induction nodes generalizing seen with
  | nil =>
      constructor
      · exact List.nodup_nil
      · intro node hmem
        cases hmem
  | cons node nodes ih =>
      rw [List.foldlM_cons] at hrun
      rcases bind_eq_ok hrun with ⟨next, henter, hrun⟩
      rcases enter_eq_ok henter with ⟨hnew, rfl⟩
      rcases ih hrun with ⟨hunique, hlater⟩
      constructor
      · rw [List.map_cons, List.nodup_cons]
        constructor
        · intro hrepeat
          rcases List.mem_map.mp hrepeat with ⟨other, hmem, hsame⟩
          apply hlater other hmem
          rw [hsame]
          exact List.mem_cons_self
        · exact hunique
      · intro other hmem hseen
        rcases List.mem_cons.mp hmem with rfl | hmem
        · exact hnew hseen
        · exact hlater other hmem (List.mem_cons_of_mem _ hseen)

def OutlineChapter.heading (chapter : OutlineChapter Selector) : String × String :=
  (chapter.chapterId, chapter.title)

def OutlineEditChapter.heading (node : OutlineEditChapter) : String × String :=
  (node.chapterId, node.title)

section Walk

variable {nodes : Forest OutlineEditChapter} {chapters : Forest (OutlineChapter Selector)}
variable {seen : List String}

theorem heading_of_walk
    (hwalk : nodes.walk binding.enter binding.leave [] = .ok (chapters, seen)) :
    chapters.map OutlineChapter.heading = nodes.map OutlineEditChapter.heading := by
  apply Forest.map_eq_of_walk _ hwalk
  intro node chapter hleave
  have hbound := leave_bound hleave
  unfold OutlineChapter.heading OutlineEditChapter.heading
  rw [hbound.chapterId, hbound.title]

theorem offers_of_walk
    (hwalk : nodes.walk binding.enter binding.leave [] = .ok (chapters, seen))
    {target' : ResponseTarget Selector} (hmem : target' ∈ targetsOf chapters.values) :
    exists identity target, binding.Offers identity target ∧ Grown target target' := by
  have hleaves := Forest.forall₂_values_of_walk hwalk
  rcases List.mem_flatMap.mp hmem with ⟨chapter, hchapter, htarget⟩
  rcases exists_of_forall₂ hleaves hchapter with ⟨node, _, hleave⟩
  rcases (leave_bound hleave).targets target' htarget with ⟨target, hoffer, hgrown⟩
  exact ⟨node.chapterId, target, hoffer, hgrown⟩

end Walk

end Outline
end KnowledgeBrain
