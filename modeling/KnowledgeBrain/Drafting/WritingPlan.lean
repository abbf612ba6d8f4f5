import KnowledgeBrain.Drafting.Splitting

/-!
# The writing plan

Every position outside of submission notes is in one task, unless it only
collects others, and the parts that are written for it hold all of it.
-/

namespace KnowledgeBrain
namespace Drafting

open Foundation
open Outline (EffectiveItemRef SourceUnitRef)

/-!
# Tasks
-/

def taskTargets (tasks : List WritingTask) : List Target :=
  tasks.flatMap WritingTask.targets

/-- The positions of chapters that are no submission notes and stand in none. -/
def bodyTargets : Forest Chapter -> List Target
  | .nil => []
  | .cons chapter children rest =>
      if chapter.presentationRole = some .submissionNote then bodyTargets rest
      else chapter.targets ++ bodyTargets children ++ bodyTargets rest

/-- A position that stands alone shares its task with no other. -/
def Alone (task : WritingTask) : Prop :=
  forall target, target ∈ task.targets -> standsAlone target = true -> task.targets = [target]

/-- What holds between two positions of a chapter. -/
structure Grouped (s : PlanState) : Prop where
  alone : forall task, task ∈ s.result -> Alone task
  group : forall target, target ∈ s.group -> standsAlone target = false

section

variable {identities : List String} {chapterId : String} {path : List String} {s : PlanState}

theorem emitGroup_targets :
    taskTargets (emitGroup chapterId path s).result = taskTargets s.result ++ s.group ∧
      (emitGroup chapterId path s).group = [] := by
  unfold emitGroup taskTargets
  split
  · next hnil =>
      rw [hnil, List.append_nil]
      exact ⟨rfl, rfl⟩
  · simp

theorem emitGroup_alone (hresult : forall task, task ∈ s.result -> Alone task)
    (hgroup : forall target, target ∈ s.group -> standsAlone target = true -> s.group = [target])
    (task : WritingTask) (htask : task ∈ (emitGroup chapterId path s).result) : Alone task := by
  unfold emitGroup at htask
  split at htask
  · exact hresult task htask
  · rcases List.mem_append.mp htask with htask | htask
    · exact hresult task htask
    · rw [List.mem_singleton.mp htask]
      exact hgroup

theorem Grouped.emit (h : Grouped s) : Grouped (emitGroup chapterId path s) := by
  constructor
  · apply emitGroup_alone h.alone
    intro target htarget hstands
    rw [h.group target htarget] at hstands
    cases hstands
  · rw [emitGroup_targets.2]
    intro target htarget
    cases htarget

variable {target : Target}

theorem planTarget_alone (hcollected : ¬ isCollected identities target = true)
    (hstands : standsAlone target = true) :
    planTarget identities chapterId path s target =
      emitGroup chapterId path ⟨(emitGroup chapterId path s).result, [target]⟩ := by
  unfold planTarget
  rw [if_neg hcollected, if_pos hstands]
  show emitGroup chapterId path ⟨(emitGroup chapterId path s).result,
    (emitGroup chapterId path s).group ++ [target]⟩ = _
  rw [emitGroup_targets.2]
  rfl

theorem planTarget_targets (target : Target) :
    taskTargets (planTarget identities chapterId path s target).result ++
        (planTarget identities chapterId path s target).group =
      taskTargets s.result ++ s.group ++
        [target].filter fun target => !isCollected identities target := by
  by_cases hcollected : isCollected identities target = true
  · unfold planTarget
    simp [hcollected]
  · have hkept : ([target].filter fun target => !isCollected identities target) = [target] := by
      simp [hcollected]
    rw [hkept]
    by_cases hstands : standsAlone target = true
    · rw [planTarget_alone hcollected hstands, emitGroup_targets.1, emitGroup_targets.2,
        List.append_nil, emitGroup_targets.1]
    · unfold planTarget
      rw [if_neg hcollected, if_neg hstands, List.append_assoc]

theorem planTarget_grouped (h : Grouped s) (target : Target) :
    Grouped (planTarget identities chapterId path s target) := by
  by_cases hcollected : isCollected identities target = true
  · unfold planTarget
    rw [if_pos hcollected]
    exact h
  · by_cases hstands : standsAlone target = true
    · rw [planTarget_alone hcollected hstands]
      constructor
      · have hgroup : forall other, other ∈ [target] -> standsAlone other = true ->
            [target] = [other] := by
          intro other hother _
          rw [List.mem_singleton.mp hother]
        exact @emitGroup_alone chapterId path ⟨(emitGroup chapterId path s).result, [target]⟩
          (@Grouped.emit chapterId path s h).alone hgroup
      · rw [emitGroup_targets.2]
        intro other hother
        cases hother
    · unfold planTarget
      rw [if_neg hcollected, if_neg hstands]
      constructor
      · exact h.alone
      · intro other hother
        rcases List.mem_append.mp hother with hother | hother
        · exact h.group other hother
        · rw [List.mem_singleton.mp hother]
          exact Bool.eq_false_of_not_eq_true hstands

theorem foldl_planTarget (targets : List Target) (hgrouped : Grouped s) :
    Grouped (targets.foldl (planTarget identities chapterId path) s) ∧
      taskTargets (targets.foldl (planTarget identities chapterId path) s).result ++
          (targets.foldl (planTarget identities chapterId path) s).group =
        taskTargets s.result ++ s.group ++
          targets.filter fun target => !isCollected identities target := by
  induction targets generalizing s with
  | nil =>
      rw [List.filter_nil, List.append_nil]
      exact ⟨hgrouped, rfl⟩
  | cons target rest ih =>
      rcases ih (@planTarget_grouped identities chapterId path s hgrouped target) with
        ⟨hrest, hall⟩
      refine ⟨hrest, hall.trans ?_⟩
      rw [planTarget_targets, List.append_assoc _ _ (rest.filter _), ← List.filter_append]
      rfl

end

theorem planChapter_spec {identities : List String} (path : List String)
    {result : List WritingTask} (hresult : forall task, task ∈ result -> Alone task)
    (chapter : Chapter) :
    (forall task, task ∈ planChapter identities path result chapter -> Alone task) ∧
      taskTargets (planChapter identities path result chapter) = taskTargets result ++
        chapter.targets.filter fun target => !isCollected identities target := by
  have hstart : Grouped ⟨result, []⟩ := by
    constructor
    · exact hresult
    · intro target htarget
      cases htarget
  rcases @foldl_planTarget identities chapter.chapterId path _ chapter.targets hstart with
    ⟨hgrouped, htargets⟩
  constructor
  · exact (@Grouped.emit chapter.chapterId path _ hgrouped).alone
  · unfold planChapter
    rw [emitGroup_targets.1, htargets, List.append_nil]

theorem planWalk_spec {identities : List String} (chapters : Forest Chapter)
    (titles : List String) {result : List WritingTask}
    (hresult : forall task, task ∈ result -> Alone task) :
    (forall task, task ∈ planWalk identities chapters titles result -> Alone task) ∧
      taskTargets (planWalk identities chapters titles result) = taskTargets result ++
        (bodyTargets chapters).filter fun target => !isCollected identities target := by
  induction chapters generalizing titles result with
  | nil =>
      refine ⟨hresult, ?_⟩
      exact (List.append_nil _).symm
  | cons chapter children rest ihChildren ihRest =>
      unfold planWalk bodyTargets
      split
      · exact ihRest titles hresult
      · rcases planChapter_spec (titles ++ [chapter.title]) hresult chapter with
          ⟨halone1, htargets1⟩
        rcases ihChildren (titles ++ [chapter.title]) halone1 with ⟨halone2, htargets2⟩
        rcases ihRest titles halone2 with ⟨halone3, htargets3⟩
        refine ⟨halone3, ?_⟩
        rw [htargets3, htargets2, htargets1, List.filter_append, List.filter_append]
        simp only [List.append_assoc]

/-!
# Blocks
-/

/-- The parts of one position after the other. -/
def Blocks (targets parts : List Target) : Prop :=
  exists blocks, List.Forall₂ Covers targets blocks ∧ blocks.flatten = parts

theorem Blocks.append {targets more parts others : List Target} (h : Blocks targets parts)
    (hmore : Blocks more others) : Blocks (targets ++ more) (parts ++ others) := by
  rcases h with ⟨blocks, hblocks, rfl⟩
  rcases hmore with ⟨blocks', hblocks', rfl⟩
  exact ⟨blocks ++ blocks', List.rel_append hblocks hblocks', List.flatten_append ..⟩

theorem Blocks.whole (targets : List Target) : Blocks targets targets := by
  induction targets with
  | nil =>
      exact ⟨[], .nil, rfl⟩
  | cons target rest ih =>
      exact Blocks.append ⟨[[target]], .cons (.whole target) .nil, rfl⟩ ih

theorem Blocks.single {parts : List Target} :
    Blocks [target] parts <-> Covers target parts := by
  constructor
  · rintro ⟨blocks, hblocks, rfl⟩
    cases hblocks with
    | cons hcovers hrest =>
        cases hrest
        rw [List.flatten_cons, List.flatten_nil, List.append_nil]
        exact hcovers
  · intro h
    exact ⟨[parts], .cons h .nil, List.append_nil parts⟩

def partsFor (planned : List Target) (targetId : String) : List Target :=
  planned.filter fun part => part.targetId == targetId

/-- The parts under the identity of a position are its parts. -/
theorem Blocks.covers {targets parts : List Target} (h : Blocks targets parts)
    (hunique : (targets.map Outline.ResponseTarget.targetId).Nodup) (htarget : target ∈ targets) :
    Covers target (partsFor parts target.targetId) := by
  rcases h with ⟨blocks, hblocks, rfl⟩
  have hother : forall {targets : List Target} {blocks : List (List Target)},
      List.Forall₂ Covers targets blocks -> forall {targetId : String},
      targetId ∉ targets.map Outline.ResponseTarget.targetId ->
      partsFor blocks.flatten targetId = [] := by
    intro targets blocks hblocks
    induction hblocks with
    | nil =>
        intro targetId _
        rfl
    | cons hcovers _ ih =>
        intro targetId hnot
        rw [List.map_cons, List.mem_cons, not_or] at hnot
        unfold partsFor at ih ⊢
        rw [List.flatten_cons, List.filter_append, ih hnot.2, List.append_nil]
        apply List.filter_eq_nil_iff.mpr
        intro part hpart
        rw [(hcovers.same part hpart).1, beq_iff_eq]
        exact fun heq => hnot.1 heq.symm
  induction hblocks with
  | nil =>
      cases htarget
  | cons hcovers hrest ih =>
      rename_i first block rest others
      rw [List.map_cons] at hunique
      rcases List.nodup_cons.mp hunique with ⟨hfirst, hunique⟩
      unfold partsFor
      rw [List.flatten_cons, List.filter_append]
      rcases List.mem_cons.mp htarget with rfl | htarget
      · have hnone := hother hrest hfirst
        unfold partsFor at hnone
        have hself : (block.filter fun part => part.targetId == target.targetId) = block := by
          apply List.filter_eq_self.mpr
          intro part hpart
          rw [(hcovers.same part hpart).1]
          exact beq_self_eq_true _
        rw [hnone, hself, List.append_nil]
        exact hcovers
      · have hnone : (block.filter fun part => part.targetId == target.targetId) = [] := by
          apply List.filter_eq_nil_iff.mpr
          intro part hpart
          rw [(hcovers.same part hpart).1, beq_iff_eq]
          intro heq
          exact hfirst (heq ▸ List.mem_map.mpr ⟨target, htarget, rfl⟩)
        rw [hnone, List.nil_append]
        exact ih hunique htarget

/-!
# Fitting
-/

def taskSize (task : WritingTask) : Nat :=
  (task.targets.map splitSize).sum

theorem sum_pos_of_ne_nil {targets : List Target} (h : targets ≠ []) :
    0 < (targets.map splitSize).sum := by
  cases targets with
  | nil =>
      exact absurd rfl h
  | cons target rest =>
      have hsize := one_le_splitSize target
      rw [List.map_cons, List.sum_cons]
      omega

/-- A task is not split, or into two smaller ones that hold all of it. -/
theorem partsOf_cases (task : WritingTask) :
    partsOf task = [] ∨ exists first second, partsOf task = [first, second] ∧
      (taskSize first < taskSize task ∧ taskSize second < taskSize task) ∧
      forall {parts more : List Target}, Blocks first.targets parts ->
        Blocks second.targets more -> Blocks task.targets (parts ++ more) := by
  unfold partsOf
  split
  · rcases halves_cases task.targets with ⟨_, hnil⟩ | ⟨first, second, happend, hone, htwo, hsome⟩
    · rw [hnil]
      exact .inl rfl
    · rw [hsome]
      right
      have hsum : (task.targets.map splitSize).sum =
          (first.map splitSize).sum + (second.map splitSize).sum := by
        rw [← happend, List.map_append, List.sum_append]
      have hfirst := sum_pos_of_ne_nil hone
      have hsecond := sum_pos_of_ne_nil htwo
      refine ⟨_, _, rfl, ⟨?_, ?_⟩, ?_⟩
      · show (first.map splitSize).sum < (task.targets.map splitSize).sum
        omega
      · show (second.map splitSize).sum < (task.targets.map splitSize).sum
        omega
      · intro parts more hparts hmore
        rw [← happend]
        exact hparts.append hmore
  · unfold splitWritingTask
    split
    · next target htargets =>
        rcases splitTarget_cases target with
          hnil | ⟨first, second, hsplit, hcovers, ⟨hnarrows, hnarrows'⟩, hless, hless'⟩
        · rw [hnil]
          exact .inl rfl
        · rw [hsplit]
          right
          refine ⟨_, _, rfl, ⟨?_, ?_⟩, ?_⟩
          · simp [taskSize, htargets, hless]
          · simp [taskSize, htargets, hless']
          · intro parts more hparts hmore
            rw [htargets]
            exact Blocks.single.mpr (hcovers.split hnarrows hnarrows' (Blocks.single.mp hparts)
              (Blocks.single.mp hmore))
    · exact .inl rfl

/-- A task is planned with any fuel above its size, and its parts hold all of it. -/
theorem fitTask_spec (capacity : Capacity) (task : WritingTask) :
    exists parts, (forall fuel, taskSize task < fuel ->
      fitTask capacity fuel task = some parts) ∧ Blocks task.targets (taskTargets parts) := by
  induction hn : taskSize task using Nat.strong_induction_on generalizing task with
  | _ n ih =>
      have hwhole : Blocks task.targets (taskTargets [task]) := by
        unfold taskTargets
        rw [List.flatMap_singleton]
        exact .whole _
      by_cases hplanned : plannedWhole capacity task = true
      · refine ⟨[task], ?_, hwhole⟩
        intro fuel hfuel
        cases fuel with
        | zero =>
            omega
        | succ fuel =>
            unfold fitTask
            rw [if_pos hplanned]
      · rcases partsOf_cases task with hnil | ⟨first, second, hparts, ⟨hone, htwo⟩, hblocks⟩
        · refine ⟨[task], ?_, hwhole⟩
          intro fuel hfuel
          cases fuel with
          | zero =>
              omega
          | succ fuel =>
              unfold fitTask
              rw [if_neg hplanned, if_pos hnil]
        · rcases ih (taskSize first) (hn ▸ hone) (renamePart capacity task first) rfl with
            ⟨parts1, hrun1, hblocks1⟩
          rcases ih (taskSize second) (hn ▸ htwo) (renamePart capacity task second) rfl with
            ⟨parts2, hrun2, hblocks2⟩
          refine ⟨parts1 ++ parts2, ?_, ?_⟩
          · intro fuel hfuel
            cases fuel with
            | zero =>
                omega
            | succ fuel =>
                unfold fitTask
                rw [if_neg hplanned, hparts, if_neg (List.cons_ne_nil _ _)]
                simp [hrun1 fuel (by omega), hrun2 fuel (by omega)]
          · unfold taskTargets
            rw [List.flatMap_append]
            exact hblocks hblocks1 hblocks2

theorem fitTasks_spec (capacity : Capacity) (tasks : List WritingTask) :
    exists planned bound, (forall fuel, bound < fuel ->
      fitTasks capacity fuel tasks = some planned) ∧
        Blocks (taskTargets tasks) (taskTargets planned) := by
  induction tasks with
  | nil =>
      exact ⟨[], 0, fun fuel _ => rfl, .whole []⟩
  | cons task rest ih =>
      rcases ih with ⟨planned, bound, hrest, hblocks⟩
      rcases fitTask_spec capacity task with ⟨parts, hrun, hparts⟩
      refine ⟨parts ++ planned, max (taskSize task) bound, ?_, ?_⟩
      · intro fuel hfuel
        have hrest := hrest fuel (by omega)
        unfold fitTasks at hrest ⊢
        rcases Option.map_eq_some_iff.mp hrest with ⟨lists, hlists, hflatten⟩
        rw [List.mapM_cons, hrun fuel (by omega), hlists]
        show some (parts ++ lists.flatten) = some (parts ++ planned)
        rw [hflatten]
      · unfold taskTargets at hblocks hparts ⊢
        rw [List.flatMap_cons, List.flatMap_append]
        exact hparts.append hblocks

/-!
# The plan
-/

/-- The positions that are written. -/
def plannedTargets (chapters : Forest Chapter) : List Target :=
  (bodyTargets chapters).filter fun target =>
    !isCollected ((Outline.targetsOf chapters.values).map Outline.ResponseTarget.targetId) target

theorem bodyTargets_sublist (chapters : Forest Chapter) :
    (bodyTargets chapters).Sublist (Outline.targetsOf chapters.values) := by
  induction chapters with
  | nil =>
      exact .slnil
  | cons chapter children rest ihChildren ihRest =>
      unfold bodyTargets Outline.targetsOf Forest.values
      rw [List.flatMap_cons, List.flatMap_append]
      split
      · apply List.Sublist.trans ihRest
        rw [← List.append_assoc]
        exact List.sublist_append_right _ _
      · rw [List.append_assoc]
        exact (List.Sublist.refl _).append (ihChildren.append ihRest)

/-- Every position that is written is in one task, and its parts hold all of it. -/
theorem writingPlan_covers (chapters : Forest Chapter)
    (hunique : ((Outline.targetsOf chapters.values).map Outline.ResponseTarget.targetId).Nodup)
    (capacity : Capacity) :
    (taskTargets (planWritingTasks chapters) = plannedTargets chapters ∧
      forall target, target ∈ plannedTargets chapters ->
        ((planWritingTasks chapters).countP fun task =>
          (task.targets.map Outline.ResponseTarget.targetId).contains target.targetId) = 1) ∧
    (forall task, task ∈ planWritingTasks chapters -> Alone task) ∧
    exists planned bound,
      (forall fuel, bound < fuel ->
        fitTasks capacity fuel (planWritingTasks chapters) = some planned) ∧
      forall target, target ∈ plannedTargets chapters ->
        Covers target (partsFor (taskTargets planned) target.targetId) := by
  have hnone : forall task, task ∈ ([] : List WritingTask) -> Alone task := by
    intro task htask
    cases htask
  rcases planWalk_spec chapters [] hnone with ⟨halone, htargets⟩
  have hplanned : taskTargets (planWritingTasks chapters) = plannedTargets chapters := htargets
  have hnodup : ((plannedTargets chapters).map Outline.ResponseTarget.targetId).Nodup :=
    hunique.sublist ((List.filter_sublist.trans (bodyTargets_sublist chapters)).map _)
  have htasks : ((planWritingTasks chapters).flatMap fun task =>
      task.targets.map Outline.ResponseTarget.targetId).Nodup := by
    rw [← hplanned] at hnodup
    unfold taskTargets at hnodup
    rw [List.map_flatMap] at hnodup
    exact hnodup
  rcases fitTasks_spec capacity (planWritingTasks chapters) with ⟨planned, bound, hrun, hblocks⟩
  rw [hplanned] at hblocks
  refine ⟨⟨hplanned, ?_⟩, halone, planned, bound, hrun, ?_⟩
  · intro target htarget
    apply Nat.le_antisymm
    · apply countP_le_one
      apply (List.nodup_flatMap.mp htasks).2.imp
      intro a b hdisjoint hboth
      exact hdisjoint (List.contains_iff_mem.mp hboth.1) (List.contains_iff_mem.mp hboth.2)
    · rw [← hplanned] at htarget
      rcases List.mem_flatMap.mp htarget with ⟨task, htask, hmem⟩
      exact List.countP_pos_iff.mpr ⟨task, htask,
        List.contains_iff_mem.mpr (List.mem_map.mpr ⟨target, hmem, rfl⟩)⟩
  · intro target htarget
    exact hblocks.covers hnodup htarget

/-!
# A plan that is split
-/

def sampleArtifact : Outline.ArtifactRef :=
  ⟨"a", "a", 1, "application/json"⟩

def sampleRule (itemId : String) : EffectiveItemRef :=
  ⟨⟨sampleArtifact, itemId⟩, none, none⟩

def sampleSource (unitId : String) : SourceUnitRef :=
  ⟨sampleArtifact, unitId⟩

def sampleExcerpt (unitId : String) : ExcerptRef where
  sourceRef := sampleSource unitId
  selectors := [⟨"r", "s", none, 0, 1, none, none, [], none, none, ⟨false, false⟩⟩]

/-- Two rules, to be answered in one text with an excerpt of a source that is not listed. -/
def sampleNarrative : Target where
  targetId := "t1"
  kind := .narrative
  purpose := "text"
  ruleRefs := [sampleRule "1", sampleRule "2"]
  sourceRefs := []
  sourceExcerpts := [sampleExcerpt "unit-1"]
  templateRefs := []
  subject := none
  responseTable := none
  manualFill := false
  supportOrigins := [.knowledge]
  relatedTargetIds := []

/-- Two rows, of which the first has a rule that the position does not list. -/
def sampleForm : Target :=
  { sampleNarrative with
    targetId := "t2"
    kind := .form
    ruleRefs := []
    sourceRefs := [sampleSource "unit-1"]
    responseTable := some {
      contextSourceExcerpts := []
      rows := [⟨"row-1", [sampleExcerpt "unit-1"], [sampleRule "3"]⟩,
        ⟨"row-2", [sampleExcerpt "unit-1"], []⟩] } }

/-- Two excerpts of different sources, and no rules. -/
def sampleExcerpts : Target :=
  { sampleNarrative with
    targetId := "t3"
    ruleRefs := []
    sourceRefs := [sampleSource "unit-1", sampleSource "unit-2"]
    sourceExcerpts := [sampleExcerpt "unit-1", sampleExcerpt "unit-2"] }

def sampleChapters : Forest Chapter :=
  .cons ⟨"chapter-1", "chapter", [sampleNarrative, sampleForm, sampleExcerpts], none, none⟩
    .nil .nil

/-- Nothing fits. -/
def noCapacity : Capacity where
  hasAllowedSupport := fun _ => true
  hit := fun _ => false
  fits := fun _ => false
  scope := fun _ => "0"

theorem writingPlan_covers_sample :
    (taskTargets (planWritingTasks sampleChapters) = plannedTargets sampleChapters ∧
      forall target, target ∈ plannedTargets sampleChapters ->
        ((planWritingTasks sampleChapters).countP fun task =>
          (task.targets.map Outline.ResponseTarget.targetId).contains target.targetId) = 1) ∧
    (forall task, task ∈ planWritingTasks sampleChapters -> Alone task) ∧
    exists planned bound,
      (forall fuel, bound < fuel ->
        fitTasks noCapacity fuel (planWritingTasks sampleChapters) = some planned) ∧
      forall target, target ∈ plannedTargets sampleChapters ->
        Covers target (partsFor (taskTargets planned) target.targetId) :=
  writingPlan_covers sampleChapters (by decide) noCapacity

/-- A rule of the text is in one of its parts only, and so is a source of the excerpts; a
rule that the form does not list is in a part of it; and a part has an excerpt without its
source, which the text does not list. -/
theorem split_plan_differs :
    ((Outline.targetsOf sampleChapters.values).map Outline.ResponseTarget.targetId).Nodup ∧
      exists planned,
        fitTasks noCapacity 9 (planWritingTasks sampleChapters) = some planned ∧
        (sampleRule "1" ∈ sampleNarrative.ruleRefs ∧ rowsOf sampleNarrative = [] ∧
          exists part, part ∈ partsFor (taskTargets planned) "t1" ∧
            sampleRule "1" ∉ part.ruleRefs) ∧
        (sampleRule "3" ∉ sampleForm.ruleRefs ∧
          exists part, part ∈ partsFor (taskTargets planned) "t2" ∧
            sampleRule "3" ∈ part.ruleRefs) ∧
        (sampleSource "unit-1" ∈ sampleExcerpts.sourceRefs ∧ rowsOf sampleExcerpts = [] ∧
          exists part, part ∈ partsFor (taskTargets planned) "t3" ∧
            sampleSource "unit-1" ∉ part.sourceRefs) ∧
        exists part, part ∈ partsFor (taskTargets planned) "t1" ∧
          sampleExcerpt "unit-1" ∈ part.sourceExcerpts ∧
            sampleSource "unit-1" ∉ part.sourceRefs := by
  refine ⟨by decide, _, rfl, ⟨by decide, rfl, ?_⟩, ⟨by decide, ?_⟩, ⟨by decide, rfl, ?_⟩, ?_⟩
  · decide +kernel
  · decide +kernel
  · decide +kernel
  · decide +kernel

end Drafting
end KnowledgeBrain
