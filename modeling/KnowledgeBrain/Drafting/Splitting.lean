import KnowledgeBrain.Evidence.Context
import KnowledgeBrain.Outline.Edit
import Mathlib.Algebra.Order.Group.Nat

/-!
# Writing tasks

The positions of an outline become tasks.  Forms, attachments and positions that
people fill in stand alone; the other positions of a chapter are written
together.  A task whose request does not fit is split, between its positions
first and then inside of one.
-/

namespace KnowledgeBrain
namespace Drafting

open Foundation
open Outline (OutlineChapter ResponseTable ResponseTableRow ResponseTarget EffectiveItemRef
  SourceUnitRef SourceExcerptRef)

deriving instance DecidableEq for SourceExcerptRef

abbrev Target := ResponseTarget Evidence.Selector

abbrev ExcerptRef := SourceExcerptRef Evidence.Selector

abbrev Chapter := OutlineChapter Evidence.Selector

abbrev TableRow := ResponseTableRow Evidence.Selector

structure WritingTask where
  taskId : String
  chapterId : String
  titlePath : List String
  targets : List Target

/-!
# Planning
-/

/-- A narrative that only collects other positions is written with them. -/
def isCollected (identities : List String) (target : Target) : Bool :=
  target.kind == .narrative && !target.manualFill &&
    (target.ruleRefs.isEmpty && target.sourceRefs.isEmpty && target.templateRefs.isEmpty) &&
    !target.relatedTargetIds.isEmpty &&
    target.relatedTargetIds.all fun identity =>
      identities.contains identity && identity != target.targetId

/-- A position that no other is written with. -/
def standsAlone (target : Target) : Bool :=
  target.kind != .narrative || target.manualFill

structure PlanState where
  result : List WritingTask
  group : List Target

/-- `emit`. -/
def emitGroup (chapterId : String) (path : List String) (s : PlanState) : PlanState :=
  if s.group = [] then s
  else
    { result := s.result ++
        [⟨"w" ++ toString (s.result.length + 1), chapterId, path, s.group⟩]
      group := [] }

def planTarget (identities : List String) (chapterId : String) (path : List String)
    (s : PlanState) (target : Target) : PlanState :=
  if isCollected identities target = true then s
  else if standsAlone target = true then
    let emitted := emitGroup chapterId path s
    emitGroup chapterId path { emitted with group := emitted.group ++ [target] }
  else { s with group := s.group ++ [target] }

def planChapter (identities : List String) (path : List String) (result : List WritingTask)
    (chapter : Chapter) : List WritingTask :=
  (emitGroup chapter.chapterId path
    (chapter.targets.foldl (planTarget identities chapter.chapterId path) ⟨result, []⟩)).result

/-- `walk`; the chapters below a submission note are left out with it. -/
def planWalk (identities : List String) : Forest Chapter -> List String -> List WritingTask ->
    List WritingTask
  | .nil, _, result => result
  | .cons chapter children rest, titles, result =>
      if chapter.presentationRole = some .submissionNote then
        planWalk identities rest titles result
      else
        let path := titles ++ [chapter.title]
        planWalk identities rest titles
          (planWalk identities children path (planChapter identities path result chapter))

/-- `plan_writing_tasks`. -/
def planWritingTasks (chapters : Forest Chapter) : List WritingTask :=
  planWalk ((Outline.targetsOf chapters.values).map Outline.ResponseTarget.targetId) chapters []
    []

/-!
# Splitting
-/

/-- `_source_inventory`, on the sources of the excerpts. -/
def sourceInventory (original selected allSelected common : List SourceUnitRef) :
    List SourceUnitRef :=
  let result := original.filter fun ref =>
    !(allSelected.contains ref && !selected.contains ref && !common.contains ref)
  (result ++ selected.eraseDups ++ common).eraseDups

def excerptSources (excerpts : List ExcerptRef) : List SourceUnitRef :=
  excerpts.map Outline.SourceExcerptRef.sourceRef

def rowRules (rows : List TableRow) : List EffectiveItemRef :=
  rows.flatMap ResponseTableRow.ruleRefs

def rowExcerpts (rows : List TableRow) : List ExcerptRef :=
  rows.flatMap ResponseTableRow.sourceExcerpts

/-- The position with some of its rows. -/
def narrowRows (target : Target) (table : ResponseTable Evidence.Selector)
    (selected : List TableRow) : Target :=
  let rules := target.ruleRefs.eraseDups
  { target with
    responseTable := some { table with rows := selected }
    ruleRefs := (rules.filter (fun ref => !(rowRules table.rows).contains ref) ++
      rowRules selected).eraseDups
    sourceRefs := sourceInventory target.sourceRefs (excerptSources (rowExcerpts selected))
      (excerptSources (rowExcerpts table.rows))
      (excerptSources (target.sourceExcerpts ++ table.contextSourceExcerpts)) }

/-- The position with some of its excerpts. -/
def narrowExcerpts (target : Target) (selected : List ExcerptRef) : Target :=
  { target with
    sourceExcerpts := selected
    sourceRefs := sourceInventory target.sourceRefs (excerptSources selected)
      (excerptSources target.sourceExcerpts) [] }

/-- The halves of a list that has two entries at least. -/
def halves {A : Type} (groups : List A) : List (List A) :=
  if groups.length < 2 then []
  else [groups.take (groups.length / 2), groups.drop (groups.length / 2)]

/-- The smaller positions of `split_writing_task`. -/
def splitTarget (target : Target) : List Target :=
  if target.manualFill = true ∨ target.templateRefs ≠ [] ∨
      (target.kind ≠ .narrative ∧ target.responseTable.isNone) then []
  else
    match target.responseTable with
    | some table => (halves table.rows).map (narrowRows target table)
    | none =>
        let rules := target.ruleRefs.eraseDups
        if 1 < rules.length then
          (halves rules).map fun selected => { target with ruleRefs := selected }
        else if rules = [] then (halves target.sourceExcerpts).map (narrowExcerpts target)
        else []

/-- `split_writing_task`. -/
def splitWritingTask (task : WritingTask) : List WritingTask :=
  match task.targets with
  | [target] => (splitTarget target).map fun part => { task with targets := [part] }
  | _ => []

/-!
# Fitting
-/

/-- What the host finds out about the request of a task. -/
structure Capacity where
  /-- `_has_allowed_support` of the request. -/
  hasAllowedSupport : WritingTask -> Bool
  /-- An answer to the same request is stored. -/
  hit : WritingTask -> Bool
  /-- `_fits`. -/
  fits : WritingTask -> Bool
  /-- The beginning of the digest of the positions. -/
  scope : List Target -> String

/-- `task_id.split(':part-')[0]`. -/
def beforePart : List Char -> List Char
  | [] => []
  | c :: rest => if ":part-".toList.isPrefixOf (c :: rest) = true then [] else c :: beforePart rest

def renamePart (capacity : Capacity) (task part : WritingTask) : WritingTask :=
  { part with taskId := String.ofList (beforePart task.taskId.toList) ++ ":part-" ++
      capacity.scope part.targets }

/-- The task is planned as it is. -/
def plannedWhole (capacity : Capacity) (task : WritingTask) : Bool :=
  task.targets.all Outline.ResponseTarget.manualFill || !capacity.hasAllowedSupport task ||
    capacity.hit task || capacity.fits task

def partsOf (task : WritingTask) : List WritingTask :=
  if 1 < task.targets.length then
    (halves task.targets).map fun targets => { task with targets := targets }
  else splitWritingTask task

/-- `fit_task`: what it plans, if it is done before the fuel is. -/
def fitTask (capacity : Capacity) : Nat -> WritingTask -> Option (List WritingTask)
  | 0, _ => none
  | fuel + 1, task =>
      if plannedWhole capacity task = true then some [task]
      else if partsOf task = [] then some [task]
      else
        ((partsOf task).mapM fun part => fitTask capacity fuel (renamePart capacity task part)).map
          List.flatten

/-- The tasks of `generate_document` that are written. -/
def fitTasks (capacity : Capacity) (fuel : Nat) (tasks : List WritingTask) :
    Option (List WritingTask) :=
  (tasks.mapM (fitTask capacity fuel)).map List.flatten

/-!
# Parts of a position

However often a position is split, its parts hold all of it: the rows follow one
another, every rule, excerpt and source is in a part, and what belongs to all
rows is in all parts.
-/

/-!
## Lists
-/

variable {A : Type}

theorem eraseDups_of_nodup [BEq A] [LawfulBEq A] {list : List A} (h : list.Nodup) :
    list.eraseDups = list := by
  induction list with
  | nil =>
      rfl
  | cons a rest ih =>
      rcases List.nodup_cons.mp h with ⟨hfirst, hrest⟩
      rw [List.eraseDups_cons, List.filter_eq_self.mpr, ih hrest]
      intro b hb
      rw [Bool.not_eq_true']
      exact beq_eq_false_iff_ne.mpr fun heq => hfirst (heq ▸ hb)

theorem nodup_eraseDups [BEq A] [LawfulBEq A] (list : List A) :
    list.eraseDups.Nodup := by
  induction hn : list.length using Nat.strong_induction_on generalizing list with
  | _ n ih =>
      cases list with
      | nil =>
          exact List.nodup_nil
      | cons a rest =>
          rw [List.eraseDups_cons]
          apply List.nodup_cons.mpr
          constructor
          · rw [List.mem_eraseDups, List.mem_filter]
            simp
          · apply ih _ _ _ rfl
            rw [← hn, List.length_cons]
            exact Nat.lt_succ_of_le (List.length_filter_le _ _)

theorem halves_cases (groups : List A) :
    (groups.length < 2 ∧ halves groups = []) ∨
      exists first second, first ++ second = groups ∧ first ≠ [] ∧ second ≠ [] ∧
        halves groups = [first, second] := by
  unfold halves
  split
  · next hless =>
      exact .inl ⟨hless, rfl⟩
  · next hmore =>
      refine .inr ⟨_, _, List.take_append_drop _ _, ?_, ?_, rfl⟩
      · intro hnil
        have hlength := congrArg List.length hnil
        rw [List.length_take, List.length_nil] at hlength
        omega
      · intro hnil
        have hlength := congrArg List.length hnil
        rw [List.length_drop, List.length_nil] at hlength
        omega

/-!
## What parts hold
-/

def rowsOf (target : Target) : List TableRow :=
  (target.responseTable.map ResponseTable.rows).getD []

/-- The excerpts that all rows of a position share. -/
def sharedExcerpts (target : Target) : List ExcerptRef :=
  match target.responseTable with
  | some table => target.sourceExcerpts ++ table.contextSourceExcerpts
  | none => []

/-- The excerpts that are divided among the parts of a position: those of its rows, or,
where it has neither rows nor rules, its own. -/
def dividedExcerpts (target : Target) : List ExcerptRef :=
  match target.responseTable with
  | some table => rowExcerpts table.rows
  | none => if target.ruleRefs = [] then target.sourceExcerpts else []

/-- A source that does not belong to divided excerpts only. -/
def SharedSource (target : Target) (ref : SourceUnitRef) : Prop :=
  ref ∉ excerptSources (dividedExcerpts target) ∨ ref ∈ excerptSources (sharedExcerpts target)

/-- What the parts of a position hold. -/
structure Covers (target : Target) (parts : List Target) : Prop where
  nonempty : parts ≠ []
  same : forall part, part ∈ parts -> part.targetId = target.targetId ∧ part.kind = target.kind ∧
    part.manualFill = target.manualFill ∧ part.responseTable.isSome = target.responseTable.isSome
  rows : parts.flatMap rowsOf = rowsOf target
  rules : forall ref, ref ∈ target.ruleRefs -> exists part, part ∈ parts ∧ ref ∈ part.ruleRefs
  rulesOnly : forall part, part ∈ parts -> forall ref, ref ∈ part.ruleRefs ->
    ref ∈ target.ruleRefs ∨ ref ∈ rowRules (rowsOf target)
  excerpts : forall ref, ref ∈ target.sourceExcerpts <->
    exists part, part ∈ parts ∧ ref ∈ part.sourceExcerpts
  sources : forall ref, ref ∈ target.sourceRefs ->
    exists part, part ∈ parts ∧ ref ∈ part.sourceRefs
  owned : forall part, part ∈ parts -> forall excerpt,
    excerpt ∈ rowExcerpts (rowsOf part) ++ part.sourceExcerpts ->
    excerpt.sourceRef ∈ target.sourceRefs -> excerpt.sourceRef ∈ part.sourceRefs
  sharedRules : target.responseTable.isSome = true -> forall ref, ref ∈ target.ruleRefs ->
    ref ∉ rowRules (rowsOf target) -> forall part, part ∈ parts -> ref ∈ part.ruleRefs
  sharedSources : forall ref, ref ∈ target.sourceRefs -> SharedSource target ref ->
    forall part, part ∈ parts -> ref ∈ part.sourceRefs

theorem Covers.whole (target : Target) : Covers target [target] := by
  constructor
  · exact List.cons_ne_nil _ _
  · intro part hpart
    rw [List.mem_singleton.mp hpart]
    exact ⟨rfl, rfl, rfl, rfl⟩
  · exact List.flatMap_singleton ..
  · exact fun ref href => ⟨target, List.mem_singleton.mpr rfl, href⟩
  · intro part hpart ref href
    rw [List.mem_singleton.mp hpart] at href
    exact .inl href
  · intro ref
    simp
  · exact fun ref href => ⟨target, List.mem_singleton.mpr rfl, href⟩
  · intro part hpart excerpt _ hsource
    rw [List.mem_singleton.mp hpart]
    exact hsource
  · intro _ ref href _ part hpart
    rw [List.mem_singleton.mp hpart]
    exact href
  · intro ref href _ part hpart
    rw [List.mem_singleton.mp hpart]
    exact href

/-- A source that is shared stays shared in a part. -/
structure Narrows (target part : Target) : Prop where
  rows : forall row, row ∈ rowsOf part -> row ∈ rowsOf target
  divided : dividedExcerpts part ⊆ dividedExcerpts target
  shared : sharedExcerpts target ⊆ sharedExcerpts part

theorem Narrows.sharedSource {target part : Target} (h : Narrows target part)
    {ref : SourceUnitRef} (hshared : SharedSource target ref) : SharedSource part ref :=
  hshared.imp (mt fun hmem => List.map_subset _ h.divided hmem)
    fun hmem => List.map_subset _ h.shared hmem

/-- Parts of the halves are parts of the position. -/
theorem Covers.split {target first second : Target} (h : Covers target [first, second])
    (hfirst : Narrows target first) (hsecond : Narrows target second) {parts more : List Target}
    (hparts : Covers first parts) (hmore : Covers second more) :
    Covers target (parts ++ more) := by
  have hone : first ∈ [first, second] := List.mem_cons_self
  have htwo : second ∈ [first, second] := List.mem_cons_of_mem _ List.mem_cons_self
  have hrule : forall half, half ∈ [first, second] -> Narrows target half ->
      forall ref, ref ∉ rowRules (rowsOf target) -> ref ∉ rowRules (rowsOf half) := by
    intro half _ hnarrows ref hnot hmem
    rcases List.mem_flatMap.mp hmem with ⟨row, hrow, href⟩
    exact hnot (List.mem_flatMap.mpr ⟨row, hnarrows.rows row hrow, href⟩)
  have hall : forall {P : Target -> Prop}, (forall part, part ∈ parts -> P part) ->
      (forall part, part ∈ more -> P part) -> forall part, part ∈ parts ++ more -> P part := by
    intro P hp hm part hpart
    rcases List.mem_append.mp hpart with hpart | hpart
    · exact hp part hpart
    · exact hm part hpart
  have hsome : forall {P : Target -> Prop}, (exists half, half ∈ [first, second] ∧ P half) ->
      (P first -> exists part, part ∈ parts ∧ P part) ->
      (P second -> exists part, part ∈ more ∧ P part) ->
      exists part, part ∈ parts ++ more ∧ P part := by
    rintro P ⟨half, hhalf, hP⟩ hp hm
    rcases List.mem_cons.mp hhalf with rfl | hhalf
    · rcases hp hP with ⟨part, hpart, hPpart⟩
      exact ⟨part, List.mem_append_left _ hpart, hPpart⟩
    · rw [List.mem_singleton.mp hhalf] at hP
      rcases hm hP with ⟨part, hpart, hPpart⟩
      exact ⟨part, List.mem_append_right _ hpart, hPpart⟩
  constructor
  · intro hnil
    exact hparts.nonempty (List.append_eq_nil_iff.mp hnil).1
  · apply hall
    · intro part hpart
      rcases hparts.same part hpart with ⟨hid, hkind, hmanual, htable⟩
      rcases h.same first hone with ⟨hid', hkind', hmanual', htable'⟩
      exact ⟨hid.trans hid', hkind.trans hkind', hmanual.trans hmanual', htable.trans htable'⟩
    · intro part hpart
      rcases hmore.same part hpart with ⟨hid, hkind, hmanual, htable⟩
      rcases h.same second htwo with ⟨hid', hkind', hmanual', htable'⟩
      exact ⟨hid.trans hid', hkind.trans hkind', hmanual.trans hmanual', htable.trans htable'⟩
  · rw [List.flatMap_append, hparts.rows, hmore.rows, ← h.rows]
    simp
  · intro ref href
    exact hsome (h.rules ref href) (hparts.rules ref) (hmore.rules ref)
  · have honly : forall half, half ∈ [first, second] -> Narrows target half -> forall ref,
        ref ∈ half.ruleRefs ∨ ref ∈ rowRules (rowsOf half) ->
        ref ∈ target.ruleRefs ∨ ref ∈ rowRules (rowsOf target) := by
      intro half hhalf hnarrows ref href
      rcases href with href | href
      · exact h.rulesOnly half hhalf ref href
      · rcases List.mem_flatMap.mp href with ⟨row, hrow, href⟩
        exact .inr (List.mem_flatMap.mpr ⟨row, hnarrows.rows row hrow, href⟩)
    apply hall
    · exact fun part hpart ref href =>
        honly first hone hfirst ref (hparts.rulesOnly part hpart ref href)
    · exact fun part hpart ref href =>
        honly second htwo hsecond ref (hmore.rulesOnly part hpart ref href)
  · intro ref
    constructor
    · intro href
      exact hsome ((h.excerpts ref).mp href) (hparts.excerpts ref).mp (hmore.excerpts ref).mp
    · rintro ⟨part, hpart, href⟩
      rcases List.mem_append.mp hpart with hpart | hpart
      · exact (h.excerpts ref).mpr ⟨first, hone, (hparts.excerpts ref).mpr ⟨part, hpart, href⟩⟩
      · exact (h.excerpts ref).mpr ⟨second, htwo, (hmore.excerpts ref).mpr ⟨part, hpart, href⟩⟩
  · intro ref href
    exact hsome (h.sources ref href) (hparts.sources ref) (hmore.sources ref)
  · have hexcerpt : forall {half : Target} {others : List Target}, half ∈ [first, second] ->
        Covers half others -> forall part, part ∈ others -> forall excerpt,
        excerpt ∈ rowExcerpts (rowsOf part) ++ part.sourceExcerpts ->
        excerpt.sourceRef ∈ target.sourceRefs -> excerpt.sourceRef ∈ part.sourceRefs := by
      intro half others hhalf hothers part hpart excerpt hmem hsource
      apply hothers.owned part hpart excerpt hmem
      apply h.owned half hhalf excerpt _ hsource
      rcases List.mem_append.mp hmem with hmem | hmem
      · apply List.mem_append_left
        rcases List.mem_flatMap.mp hmem with ⟨row, hrow, hmem⟩
        apply List.mem_flatMap.mpr
        refine ⟨row, ?_, hmem⟩
        rw [← hothers.rows]
        exact List.mem_flatMap.mpr ⟨part, hpart, hrow⟩
      · exact List.mem_append_right _ ((hothers.excerpts excerpt).mpr ⟨part, hpart, hmem⟩)
    exact hall (hexcerpt hone hparts) (hexcerpt htwo hmore)
  · intro htable ref href hnot
    have hshared := h.sharedRules htable ref href hnot
    apply hall
    · exact hparts.sharedRules ((h.same first hone).2.2.2.trans htable) ref (hshared first hone)
        (hrule first hone hfirst ref hnot)
    · exact hmore.sharedRules ((h.same second htwo).2.2.2.trans htable) ref (hshared second htwo)
        (hrule second htwo hsecond ref hnot)
  · intro ref href hshared
    have hhalves := h.sharedSources ref href hshared
    apply hall
    · exact hparts.sharedSources ref (hhalves first hone) (hfirst.sharedSource hshared)
    · exact hmore.sharedSources ref (hhalves second htwo) (hsecond.sharedSource hshared)

/-!
## One split
-/

theorem mem_sourceInventory {original selected allSelected common : List SourceUnitRef}
    {ref : SourceUnitRef} :
    ref ∈ sourceInventory original selected allSelected common <->
      (ref ∈ original ∧ (ref ∈ allSelected -> ref ∈ selected ∨ ref ∈ common)) ∨
        ref ∈ selected ∨ ref ∈ common := by
  have hkeeps : (!(allSelected.contains ref && !selected.contains ref && !common.contains ref)) =
      true <-> (ref ∈ allSelected -> ref ∈ selected ∨ ref ∈ common) := by
    by_cases hall : ref ∈ allSelected
    · by_cases hselected : ref ∈ selected
      · simp [hselected]
      · simp [hall, hselected]
    · simp [hall]
  unfold sourceInventory
  simp only [List.mem_eraseDups, List.mem_append, List.mem_filter, hkeeps, or_assoc]

variable {target : Target}

theorem mem_narrowRules {table : ResponseTable Evidence.Selector} {selected : List TableRow}
    {ref : EffectiveItemRef} :
    ref ∈ (narrowRows target table selected).ruleRefs <->
      (ref ∈ target.ruleRefs ∧ ref ∉ rowRules table.rows) ∨ ref ∈ rowRules selected := by
  unfold narrowRows
  simp only [List.mem_eraseDups, List.mem_append, List.mem_filter, Bool.not_eq_true',
    ← Bool.not_eq_true, List.contains_iff_mem]

theorem rowsOf_none (htable : target.responseTable = none) : rowsOf target = [] := by
  unfold rowsOf
  rw [htable]
  rfl

theorem forall_pair {P : A -> Prop} {first second : A} (hfirst : P first) (hsecond : P second) :
    forall part, part ∈ [first, second] -> P part :=
  List.forall_mem_cons.mpr ⟨hfirst, List.forall_mem_singleton.mpr hsecond⟩

section Rows

variable {table : ResponseTable Evidence.Selector} (htable : target.responseTable = some table)

include htable

theorem rowsOf_some : rowsOf target = table.rows := by
  unfold rowsOf
  rw [htable]
  rfl

theorem sharedExcerpts_some :
    sharedExcerpts target = target.sourceExcerpts ++ table.contextSourceExcerpts := by
  unfold sharedExcerpts
  rw [htable]

theorem dividedExcerpts_some : dividedExcerpts target = rowExcerpts table.rows := by
  unfold dividedExcerpts
  rw [htable]

theorem narrows_rows {selected : List TableRow} (hsub : selected ⊆ table.rows) :
    Narrows target (narrowRows target table selected) := by
  constructor
  · intro row hrow
    rw [rowsOf_some htable]
    exact hsub hrow
  · rw [dividedExcerpts_some htable]
    intro excerpt hexcerpt
    rcases List.mem_flatMap.mp hexcerpt with ⟨row, hrow, hexcerpt⟩
    exact List.mem_flatMap.mpr ⟨row, hsub hrow, hexcerpt⟩
  · rw [sharedExcerpts_some htable]
    exact List.Subset.refl _

theorem covers_rows {first second : List TableRow} (hrows : first ++ second = table.rows) :
    Covers target [narrowRows target table first, narrowRows target table second] := by
  have hpart : forall part, part ∈ [narrowRows target table first, narrowRows target table second]
      -> exists selected, (selected = first ∨ selected = second) ∧ selected ⊆ table.rows ∧
        part = narrowRows target table selected := by
    intro part hpart
    rw [← hrows]
    rcases List.mem_cons.mp hpart with rfl | hpart
    · exact ⟨first, .inl rfl, List.subset_append_left _ _, rfl⟩
    · exact ⟨second, .inr rfl, List.subset_append_right _ _, List.mem_singleton.mp hpart⟩
  have hfirst : narrowRows target table first ∈
      [narrowRows target table first, narrowRows target table second] := List.mem_cons_self
  have hsecond : narrowRows target table second ∈
      [narrowRows target table first, narrowRows target table second] :=
    List.mem_cons_of_mem _ List.mem_cons_self
  constructor
  · exact List.cons_ne_nil _ _
  · intro part hmem
    rcases hpart part hmem with ⟨selected, _, _, rfl⟩
    exact ⟨rfl, rfl, rfl, by rw [htable]; rfl⟩
  · rw [rowsOf_some htable, ← hrows]
    simp [rowsOf, narrowRows]
  · intro ref href
    by_cases hrow : ref ∈ rowRules table.rows
    · rw [← hrows] at hrow
      unfold rowRules at hrow
      rw [List.flatMap_append] at hrow
      rcases List.mem_append.mp hrow with hrow | hrow
      · exact ⟨_, hfirst, mem_narrowRules.mpr (.inr hrow)⟩
      · exact ⟨_, hsecond, mem_narrowRules.mpr (.inr hrow)⟩
    · exact ⟨_, hfirst, mem_narrowRules.mpr (.inl ⟨href, hrow⟩)⟩
  · intro part hmem ref href
    rcases hpart part hmem with ⟨selected, _, hsub, rfl⟩
    rcases mem_narrowRules.mp href with ⟨href, _⟩ | href
    · exact .inl href
    · right
      rw [rowsOf_some htable]
      rcases List.mem_flatMap.mp href with ⟨row, hrow, href⟩
      exact List.mem_flatMap.mpr ⟨row, hsub hrow, href⟩
  · intro ref
    constructor
    · exact fun href => ⟨_, hfirst, href⟩
    · rintro ⟨part, hmem, href⟩
      rcases hpart part hmem with ⟨selected, _, _, rfl⟩
      exact href
  · intro ref href
    by_cases hrow : ref ∈ excerptSources (rowExcerpts table.rows)
    · rw [← hrows] at hrow
      unfold excerptSources rowExcerpts at hrow
      rw [List.flatMap_append, List.map_append] at hrow
      rcases List.mem_append.mp hrow with hrow | hrow
      · exact ⟨_, hfirst, mem_sourceInventory.mpr (.inr (.inl hrow))⟩
      · exact ⟨_, hsecond, mem_sourceInventory.mpr (.inr (.inl hrow))⟩
    · exact ⟨_, hfirst, mem_sourceInventory.mpr (.inl ⟨href, fun h => absurd h hrow⟩)⟩
  · intro part hmem excerpt hexcerpt _
    rcases hpart part hmem with ⟨selected, _, _, rfl⟩
    apply mem_sourceInventory.mpr
    right
    rcases List.mem_append.mp hexcerpt with hexcerpt | hexcerpt
    · exact .inl (List.mem_map.mpr ⟨excerpt, hexcerpt, rfl⟩)
    · exact .inr (List.mem_map.mpr ⟨excerpt, List.mem_append_left _ hexcerpt, rfl⟩)
  · intro _ ref href hnot part hmem
    rcases hpart part hmem with ⟨selected, _, _, rfl⟩
    rw [rowsOf_some htable] at hnot
    exact mem_narrowRules.mpr (.inl ⟨href, hnot⟩)
  · intro ref href hshared part hmem
    rcases hpart part hmem with ⟨selected, _, _, rfl⟩
    apply mem_sourceInventory.mpr
    unfold SharedSource at hshared
    rw [dividedExcerpts_some htable, sharedExcerpts_some htable] at hshared
    rcases hshared with hnot | hshared
    · exact .inl ⟨href, fun h => absurd h hnot⟩
    · exact .inr (.inr hshared)

end Rows

theorem narrows_rules (htable : target.responseTable = none) {selected : List EffectiveItemRef}
    (hselected : selected ≠ []) : Narrows target { target with ruleRefs := selected } := by
  refine ⟨fun row hrow => hrow, ?_, List.Subset.refl _⟩
  simp [dividedExcerpts, htable, hselected]

theorem covers_rules (htable : target.responseTable = none) {first second : List EffectiveItemRef}
    (hrules : first ++ second = target.ruleRefs.eraseDups) :
    Covers target [{ target with ruleRefs := first }, { target with ruleRefs := second }] := by
  have hmem : forall ref, ref ∈ target.ruleRefs <-> ref ∈ first ∨ ref ∈ second := by
    intro ref
    rw [← List.mem_eraseDups, ← hrules, List.mem_append]
  constructor
  · exact List.cons_ne_nil _ _
  · exact forall_pair ⟨rfl, rfl, rfl, rfl⟩ ⟨rfl, rfl, rfl, rfl⟩
  · show rowsOf target ++ (rowsOf target ++ []) = rowsOf target
    rw [rowsOf_none htable]
    rfl
  · intro ref href
    rcases (hmem ref).mp href with href | href
    · exact ⟨_, List.mem_cons_self, href⟩
    · exact ⟨_, List.mem_cons_of_mem _ List.mem_cons_self, href⟩
  · exact forall_pair (fun ref href => .inl ((hmem ref).mpr (.inl href)))
      (fun ref href => .inl ((hmem ref).mpr (.inr href)))
  · intro ref
    constructor
    · exact fun href => ⟨_, List.mem_cons_self, href⟩
    · rintro ⟨part, hmem, href⟩
      revert href
      revert part
      exact forall_pair (fun href => href) (fun href => href)
  · exact fun ref href => ⟨_, List.mem_cons_self, href⟩
  · exact forall_pair (fun _ _ hsource => hsource) (fun _ _ hsource => hsource)
  · intro hsome
    rw [htable] at hsome
    cases hsome
  · exact fun ref href _ => forall_pair href href

theorem dividedExcerpts_own (htable : target.responseTable = none)
    (hrules : target.ruleRefs = []) : dividedExcerpts target = target.sourceExcerpts := by
  simp [dividedExcerpts, htable, hrules]

theorem narrows_excerpts (htable : target.responseTable = none) (hrules : target.ruleRefs = [])
    {selected : List ExcerptRef} (hsub : selected ⊆ target.sourceExcerpts) :
    Narrows target (narrowExcerpts target selected) := by
  constructor
  · exact fun row hrow => hrow
  · rw [dividedExcerpts_own htable hrules]
    simpa [dividedExcerpts, narrowExcerpts, htable, hrules] using hsub
  · simp [sharedExcerpts, htable]

theorem covers_excerpts (htable : target.responseTable = none) (hrules : target.ruleRefs = [])
    {first second : List ExcerptRef} (hexcerpts : first ++ second = target.sourceExcerpts) :
    Covers target [narrowExcerpts target first, narrowExcerpts target second] := by
  have howned : forall selected excerpt, excerpt ∈ rowExcerpts (rowsOf target) ++ selected ->
      excerpt.sourceRef ∈ target.sourceRefs ->
      excerpt.sourceRef ∈ (narrowExcerpts target selected).sourceRefs := by
    intro selected excerpt hexcerpt _
    rw [rowsOf_none htable] at hexcerpt
    exact mem_sourceInventory.mpr (.inr (.inl (List.mem_map.mpr ⟨excerpt, hexcerpt, rfl⟩)))
  constructor
  · exact List.cons_ne_nil _ _
  · exact forall_pair ⟨rfl, rfl, rfl, rfl⟩ ⟨rfl, rfl, rfl, rfl⟩
  · show rowsOf target ++ (rowsOf target ++ []) = rowsOf target
    rw [rowsOf_none htable]
    rfl
  · exact fun ref href => ⟨_, List.mem_cons_self, href⟩
  · exact forall_pair (fun ref href => .inl href) (fun ref href => .inl href)
  · intro ref
    rw [← hexcerpts, List.mem_append]
    constructor
    · rintro (href | href)
      · exact ⟨_, List.mem_cons_self, href⟩
      · exact ⟨_, List.mem_cons_of_mem _ List.mem_cons_self, href⟩
    · rintro ⟨part, hmem, href⟩
      revert href
      revert part
      exact forall_pair (fun href => .inl href) (fun href => .inr href)
  · intro ref href
    by_cases hmem : ref ∈ excerptSources target.sourceExcerpts
    · rw [← hexcerpts] at hmem
      unfold excerptSources at hmem
      rw [List.map_append] at hmem
      rcases List.mem_append.mp hmem with hmem | hmem
      · exact ⟨_, List.mem_cons_self, mem_sourceInventory.mpr (.inr (.inl hmem))⟩
      · exact ⟨_, List.mem_cons_of_mem _ List.mem_cons_self,
          mem_sourceInventory.mpr (.inr (.inl hmem))⟩
    · exact ⟨_, List.mem_cons_self,
        mem_sourceInventory.mpr (.inl ⟨href, fun h => absurd h hmem⟩)⟩
  · exact forall_pair (howned first) (howned second)
  · intro hsome
    rw [htable] at hsome
    cases hsome
  · intro ref href hshared
    have hkept : forall selected, ref ∈ (narrowExcerpts target selected).sourceRefs := by
      intro selected
      apply mem_sourceInventory.mpr
      rcases hshared with hnot | hshared
      · rw [dividedExcerpts_own htable hrules] at hnot
        exact .inl ⟨href, fun hmem => absurd hmem hnot⟩
      · simp [sharedExcerpts, htable, excerptSources] at hshared
    exact forall_pair (hkept first) (hkept second)

/-!
## The size of a position
-/

/-- How often a position can be split, and one. -/
def splitSize (target : Target) : Nat :=
  match target.responseTable with
  | some table => table.rows.length + 1
  | none => target.ruleRefs.eraseDups.length + target.sourceExcerpts.length + 1

theorem one_le_splitSize (target : Target) : 1 ≤ splitSize target := by
  unfold splitSize
  split <;> omega

theorem halves_target {groups : List A} {part : List A -> Target}
    (hcovers : forall first second, first ++ second = groups ->
      Covers target [part first, part second])
    (hpart : forall selected, selected.Sublist groups -> selected ≠ [] ->
      selected.length < groups.length ->
      Narrows target (part selected) ∧ splitSize (part selected) < splitSize target) :
    (halves groups).map part = [] ∨ exists first second,
      (halves groups).map part = [first, second] ∧ Covers target [first, second] ∧
      (Narrows target first ∧ Narrows target second) ∧
      splitSize first < splitSize target ∧ splitSize second < splitSize target := by
  rcases halves_cases groups with ⟨_, hnil⟩ | ⟨first, second, rfl, hone, htwo, hsome⟩
  · rw [hnil]
    exact .inl rfl
  · have hfirst := List.length_pos_of_ne_nil hone
    have hsecond := List.length_pos_of_ne_nil htwo
    rcases hpart first (List.sublist_append_left _ _) hone (by simpa using hsecond) with
      ⟨hnarrows, hless⟩
    rcases hpart second (List.sublist_append_right _ _) htwo (by simpa using hfirst) with
      ⟨hnarrows', hless'⟩
    rw [hsome]
    exact .inr ⟨_, _, rfl, hcovers first second rfl, ⟨hnarrows, hnarrows'⟩, hless, hless'⟩

/-- A position is not split, or into two smaller ones that hold all of it. -/
theorem splitTarget_cases (target : Target) :
    splitTarget target = [] ∨ exists first second, splitTarget target = [first, second] ∧
      Covers target [first, second] ∧ (Narrows target first ∧ Narrows target second) ∧
      splitSize first < splitSize target ∧ splitSize second < splitSize target := by
  unfold splitTarget
  split
  · exact .inl rfl
  · split
    · next table htable =>
        apply halves_target
        · exact fun first second => covers_rows htable
        · intro selected hsub _ hless
          refine ⟨narrows_rows htable hsub.subset, ?_⟩
          unfold splitSize
          rw [htable]
          exact Nat.succ_lt_succ hless
    · next htable =>
        have hsize : splitSize target =
            target.ruleRefs.eraseDups.length + target.sourceExcerpts.length + 1 := by
          unfold splitSize
          rw [htable]
        simp only
        split
        · apply halves_target
          · exact fun first second => covers_rules htable
          · intro selected hsub hselected hless
            refine ⟨narrows_rules htable hselected, ?_⟩
            rw [hsize]
            unfold splitSize
            simp only [htable]
            rw [eraseDups_of_nodup ((nodup_eraseDups target.ruleRefs).sublist hsub)]
            omega
        · split
          · next hnone =>
            have hrules : target.ruleRefs = [] := by
              apply List.eq_nil_iff_forall_not_mem.mpr
              intro ref href
              rw [← List.mem_eraseDups, hnone] at href
              cases href
            apply halves_target
            · exact fun first second => covers_excerpts htable hrules
            · intro selected hsub _ hless
              refine ⟨narrows_excerpts htable hrules hsub.subset, ?_⟩
              rw [hsize]
              unfold splitSize narrowExcerpts
              simp only [htable]
              omega
          · exact .inl rfl

end Drafting
end KnowledgeBrain
