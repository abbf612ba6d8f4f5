import KnowledgeBrain.Evidence.Coverage

/-!
# What a body asks for

Every lookup of `select` succeeds on an index of the source.  The one thing that
can go wrong is a condition that the context already has as a plain range.
Otherwise every character of the context is supplied once.
-/

namespace KnowledgeBrain
namespace Evidence

open Foundation

namespace SupportingIndex

/-!
# The demands of an entry
-/

/-- What is asked for is a part of the source; a plain range has no binding. -/
def Demand.Sound (source : SourceIndex) : Demand -> Prop
  | .give entry _ => source.Has entry ∧ entry.scopeBinding = none
  | .bind candidate => source.Has candidate.entry

variable {source : SourceIndex} {index : SupportingIndex}

theorem range?_of_mem (h : SoundIndex source index) {base : Entry} (hmem : base ∈ source.ranges) :
    index.range? base.rangeId = .ok base := by
  unfold range?
  rw [h.ranges, findBy_of_mem source.distinct hmem]

theorem position?_of_mem (h : SoundIndex source index) {base : Entry}
    (hmem : base ∈ source.ranges) :
    exists position, index.position? base.rangeId = .ok position := by
  unfold position?
  rw [h.ranges]
  cases hfind : source.ranges.findIdx? fun entry => entry.rangeId == base.rangeId with
  | none =>
      rw [List.findIdx?_eq_none_iff] at hfind
      have hfalse := hfind base hmem
      rw [beq_self_eq_true] at hfalse
      cases hfalse
  | some position =>
      exact ⟨position, rfl⟩

theorem visitConditions_ok (h : SoundIndex source index) (position : Nat) (entry : Entry)
    {conditions : List (Nat × Condition)}
    (hconditions : forall item, item ∈ conditions -> source.Has item.2.entry) :
    exists demands, index.visitConditions position entry conditions = .ok demands ∧
      forall demand, demand ∈ demands -> demand.Sound source := by
  have hnone : forall demand, demand ∈ ([] : List Demand) -> demand.Sound source := by
    intro demand hmem
    cases hmem
  induction conditions with
  | nil =>
      exact ⟨[], rfl, hnone⟩
  | cons item rest ih =>
      rcases item with ⟨place, candidate⟩
      rcases ih fun item hmem => hconditions item (List.mem_cons_of_mem _ hmem) with
        ⟨demands, hrest, hsound⟩
      have hcandidate : source.Has candidate.entry :=
        hconditions (place, candidate) List.mem_cons_self
      rw [visitConditions]
      split
      · exact ⟨demands, hrest, hsound⟩
      · split
        · exact ⟨[], rfl, hnone⟩
        · split
          · exact ⟨demands, hrest, hsound⟩
          · split
            · rcases hcandidate with ⟨base, hbase, hsource, _⟩
              rw [hsource, ok_bind (range?_of_mem h hbase), ok_bind hrest]
              refine ⟨_, rfl, ?_⟩
              intro demand hmem
              rcases List.mem_cons.mp hmem with rfl | hmem
              · exact ⟨SourceIndex.has_of_mem hbase, source.unscoped base hbase⟩
              · exact hsound demand hmem
            · split
              · exact ⟨demands, hrest, hsound⟩
              · rw [ok_bind hrest]
                refine ⟨_, rfl, ?_⟩
                intro demand hmem
                rcases List.mem_cons.mp hmem with rfl | hmem
                · exact hcandidate
                · exact hsound demand hmem

theorem introduction_ok (h : SoundIndex source index) (position : Nat) (sectionId : String) :
    exists demands, index.introduction position sectionId = .ok demands ∧
      forall demand, demand ∈ demands -> demand.Sound source := by
  unfold introduction
  cases hlookup : index.introductions.lookup sectionId with
  | none =>
      refine ⟨[], rfl, ?_⟩
      intro demand hmem
      cases hmem
  | some entry =>
      have hexcerpt : IsExcerpt source entry := by
        rcases List.lookup_eq_some_iff.mp hlookup with ⟨before, after, hsplit, _⟩
        apply h.introductions (sectionId, entry)
        rw [hsplit]
        exact List.mem_append_right _ List.mem_cons_self
      rcases hexcerpt.parent with ⟨base, hbase, hparent⟩
      rcases position?_of_mem h hbase with ⟨place, hplace⟩
      simp only [hparent]
      rw [ok_bind hplace]
      refine ⟨_, rfl, ?_⟩
      intro demand hmem
      split at hmem
      · rcases List.mem_singleton.mp hmem with rfl
        exact ⟨hexcerpt.has, hexcerpt.unscoped⟩
      · cases hmem

theorem visitSection_ok (h : SoundIndex source index) (position : Nat) (entry : Entry)
    (sectionId : String) :
    exists demands, index.visitSection position entry sectionId = .ok demands ∧
      forall demand, demand ∈ demands -> demand.Sound source := by
  rcases introduction_ok h position sectionId with ⟨introductions, hintroductions, hfirst⟩
  have hconditions : forall item, item ∈ (index.conditions.filter fun item =>
      item.1 == sectionId).map Prod.snd -> source.Has item.2.entry := by
    intro item hmem
    rcases List.mem_map.mp hmem with ⟨origin, horigin, rfl⟩
    exact h.conditions origin (List.mem_filter.mp horigin).1
  rcases visitConditions_ok h position entry hconditions with ⟨conditions, hrun, hsecond⟩
  unfold visitSection
  rw [ok_bind hintroductions, ok_bind hrun]
  refine ⟨_, rfl, ?_⟩
  intro demand hmem
  rcases List.mem_append.mp hmem with hmem | hmem
  · exact hfirst demand hmem
  · exact hsecond demand hmem

theorem visitTable_sound (h : SoundIndex source index) (entry : Entry) (tableId : Option String)
    {demand : Demand} (hmem : demand ∈ index.visitTable entry tableId) : demand.Sound source := by
  have hgive : forall range reason, range ∈ index.ranges ->
      (Demand.give range reason).Sound source := by
    intro range reason hrange
    rw [h.ranges] at hrange
    exact ⟨SourceIndex.has_of_mem hrange, source.unscoped range hrange⟩
  unfold visitTable at hmem
  rcases List.mem_append.mp hmem with hheader | hmerged
  · rcases List.mem_map.mp hheader with ⟨range, hrange, rfl⟩
    apply hgive
    unfold headers at hrange
    split at hrange
    · cases hrange
    · exact (List.mem_filter.mp hrange).1
  · rcases List.mem_map.mp hmerged with ⟨item, hitem, rfl⟩
    apply hgive
    unfold merged at hitem
    rcases List.mem_flatMap.mp (List.mem_filter.mp hitem).1 with ⟨range, hrange, hcells⟩
    split at hcells
    · cases hcells
    · rcases List.mem_map.mp hcells with ⟨cell, _, rfl⟩
      exact (List.mem_filter.mp hrange).1

theorem bound_has (h : SoundIndex source index) {original : String} {candidate : Condition}
    (hmem : candidate ∈ index.pendingByParent original ++ index.reviewedTargets original) :
    source.Has candidate.entry := by
  have hgrouped : forall candidate, candidate ∈ (grouped index.conditions).map Prod.snd ->
      source.Has candidate.entry := by
    intro candidate hmem
    rcases List.mem_map.mp hmem with ⟨item, hitem, rfl⟩
    unfold grouped at hitem
    rcases List.mem_flatMap.mp hitem with ⟨key, _, hgroup⟩
    rcases List.mem_map.mp hgroup with ⟨origin, horigin, rfl⟩
    exact h.conditions origin (List.mem_filter.mp horigin).1
  rcases List.mem_append.mp hmem with hpending | hreviewed
  · exact hgrouped candidate (List.mem_filter.mp hpending).1
  · rcases List.mem_flatMap.mp hreviewed with ⟨origin, horigin, hnamed⟩
    split at hnamed
    · rcases List.mem_map.mp hnamed with ⟨_, _, rfl⟩
      exact hgrouped origin horigin
    · cases hnamed

/-- An entry of the source never asks for something that is not there. -/
theorem demandsOf_ok (h : SoundIndex source index) {entry : Entry} (hentry : source.Has entry) :
    exists demands, index.demandsOf entry = .ok demands ∧
      forall demand, demand ∈ demands -> demand.Sound source := by
  rcases hentry with ⟨base, hbase, hsource, _⟩
  rcases position?_of_mem h hbase with ⟨position, hposition⟩
  have hsections : exists sections, (sectionAncestors base index.sections).mapM
      (index.visitSection position entry) = .ok sections ∧
        forall demand, demand ∈ sections.flatten -> demand.Sound source := by
    induction sectionAncestors base index.sections with
    | nil =>
        refine ⟨[], rfl, ?_⟩
        intro demand hmem
        cases hmem
    | cons sectionId rest ih =>
        rcases ih with ⟨sections, hrest, hsound⟩
        rcases visitSection_ok h position entry sectionId with ⟨demands, hfirst, hdemands⟩
        refine ⟨demands :: sections, ?_, ?_⟩
        · rw [List.mapM_cons, ok_bind hfirst, ok_bind hrest]
          rfl
        · intro demand hmem
          rw [List.flatten_cons] at hmem
          rcases List.mem_append.mp hmem with hmem | hmem
          · exact hdemands demand hmem
          · exact hsound demand hmem
  rcases hsections with ⟨sections, hrun, hsound⟩
  unfold demandsOf
  simp only [hsource]
  rw [ok_bind (range?_of_mem h hbase), ok_bind hposition, ok_bind hrun]
  refine ⟨_, rfl, ?_⟩
  intro demand hmem
  rcases List.mem_append.mp hmem with hmem | htable
  · rcases List.mem_append.mp hmem with hbound | hsection
    · rcases List.mem_map.mp hbound with ⟨candidate, hcandidate, rfl⟩
      exact bound_has h hcandidate
    · exact hsound demand hsection
  · rcases List.mem_flatMap.mp htable with ⟨tableId, _, htable⟩
    exact visitTable_sound h entry tableId htable

/-!
# Meeting the demands
-/

/-- How an identity came into the context: plainly, or with a binding. -/
def owner : List Demand -> String -> Option Bool
  | [], _ => none
  | .give entry _ :: rest, id => if entry.rangeId = id then some false else owner rest id
  | .bind candidate :: rest, id =>
      if isIncomplete candidate = false ∧ candidate.entry.rangeId = id then some true
      else owner rest id

/-- A condition is asked for that came into the context plainly. -/
def clashAt (before : List Demand) : Demand -> Bool
  | .give _ _ => false
  | .bind candidate =>
      !isIncomplete candidate && owner before candidate.entry.rangeId == some false

def clashes (before : List Demand) : List Demand -> Bool
  | [] => false
  | demand :: rest => clashAt before demand || clashes (before ++ [demand]) rest

theorem clashes_append (before demands later : List Demand) :
    clashes before (demands ++ later) =
      (clashes before demands || clashes (before ++ demands) later) := by
  induction demands generalizing before with
  | nil =>
      rw [List.nil_append, List.append_nil]
      rfl
  | cons demand rest ih =>
      rw [List.cons_append, clashes, clashes, ih, Bool.or_assoc, List.append_assoc]
      rfl

theorem owner_append (before later : List Demand) (id : String) :
    owner (before ++ later) id = (owner before id).or (owner later id) := by
  induction before with
  | nil =>
      rfl
  | cons demand rest ih =>
      cases demand with
      | give entry reason =>
          rw [List.cons_append, owner, owner]
          split
          · rfl
          · exact ih
      | bind candidate =>
          rw [List.cons_append, owner, owner]
          split
          · rfl
          · exact ih

/-- The context that the demands so far have made. -/
structure Met (source : SourceIndex) (before : List Demand) (context : List Entry) : Prop where
  owners : forall id,
    (findBy Entry.rangeId context id).map (fun value => value.scopeBinding.isSome) =
    owner before id
  has : forall value, value ∈ context -> source.Has value

variable {before : List Demand} {context : List Entry} {selection : Selection}

theorem findBy_append_new {A : Type} {key : A -> String} {items : List A} {a : A} {id : String}
    (hnew : findBy key items (key a) = none) :
    findBy key (items ++ [a]) id = if key a = id then some a else findBy key items id := by
  unfold findBy at hnew ⊢
  rw [List.find?_append]
  split
  · rename_i heq
    subst heq
    rw [hnew]
    simp only [List.find?_cons, decide_true, Option.none_or]
  · rename_i hne
    rw [List.find?_cons_of_neg (by simpa using hne), List.find?_nil, Option.or_none]

theorem Met.add (h : Met source before context) {value : Entry}
    (hnew : findBy Entry.rangeId context value.rangeId = none) (hvalue : source.Has value)
    {demand : Demand}
    (howner : forall id, owner [demand] id =
      if value.rangeId = id then some value.scopeBinding.isSome else none) :
    Met source (before ++ [demand]) (context ++ [value]) := by
  constructor
  · intro id
    rw [owner_append, ← h.owners id, howner, findBy_append_new hnew]
    split
    · rename_i heq
      subst heq
      rw [hnew]
      rfl
    · rw [Option.or_none]
  · intro other hmem
    rcases List.mem_append.mp hmem with hold | hlast
    · exact h.has other hold
    · rcases List.mem_singleton.mp hlast with rfl
      exact hvalue

theorem Met.same (h : Met source before context) {demand : Demand} {own : String} {kind : Bool}
    (hthere : (owner before own).isSome = true)
    (howner : forall id, owner [demand] id = if own = id then some kind else none) :
    Met source (before ++ [demand]) context := by
  constructor
  · intro id
    rw [owner_append, ← h.owners id, howner]
    split
    · rename_i heq
      subst heq
      rw [h.owners]
      rcases Option.isSome_iff_exists.mp hthere with ⟨kind', hkind⟩
      rw [hkind]
      rfl
    · rw [Option.or_none]
  · exact h.has

theorem rebound_rangeId (id : String) (binding : ScopeBinding) (value : Entry) :
    (rebound id binding value).rangeId = value.rangeId := by
  unfold rebound
  split
  · rfl
  · rfl

theorem rebound_has {id : String} {binding : ScopeBinding} {value : Entry}
    (hvalue : source.Has value) : source.Has (rebound id binding value) := by
  unfold rebound
  split
  · exact hvalue
  · exact hvalue

/-- A value that has a binding may get another. -/
theorem Met.rebind (h : Met source before context) {own : String} {binding : ScopeBinding}
    {value : Entry} (hfind : findBy Entry.rangeId context own = some value)
    (hbound : value.scopeBinding.isSome = true) :
    Met source before (context.map (rebound own binding)) := by
  constructor
  · intro id
    rw [← h.owners id, findBy_map (rebound_rangeId own binding)]
    by_cases hown : own = id
    · subst hown
      rw [hfind]
      show some (rebound own binding value).scopeBinding.isSome = some value.scopeBinding.isSome
      unfold rebound
      rw [if_pos (findBy_eq_some hfind).2, hbound]
      rfl
    · cases hother : findBy Entry.rangeId context id with
      | none =>
          rfl
      | some other =>
          show some (rebound own binding other).scopeBinding.isSome = some other.scopeBinding.isSome
          unfold rebound
          rw [if_neg]
          intro hsame
          exact hown (hsame.symm.trans (findBy_eq_some hother).2)
  · intro other hmem
    rcases List.mem_map.mp hmem with ⟨value, hvalue, rfl⟩
    exact rebound_has (h.has value hvalue)

theorem Met.give (h : Met source before selection.context) {rangeId : String} {entry : Entry}
    {reason : SupportReason} (hsound : (Demand.give entry reason).Sound source) :
    exists selection', selection.meet rangeId (.give entry reason) = .ok selection' ∧
      Met source (before ++ [.give entry reason]) selection'.context := by
  have howner : forall id, owner [.give entry reason] id =
      if entry.rangeId = id then some false else none := fun _ => rfl
  refine ⟨_, rfl, ?_⟩
  split
  · rename_i hthere
    apply h.same _ howner
    rw [← h.owners, Option.isSome_map]
    exact hthere
  · rename_i hnew
    apply h.add
    · exact Option.not_isSome_iff_eq_none.mp hnew
    · exact hsound.1
    · intro id
      rw [howner]
      show _ = if entry.rangeId = id then some entry.scopeBinding.isSome else none
      rw [hsound.2]
      rfl

theorem owner_bind_incomplete {candidate : Condition} (hincomplete : isIncomplete candidate = true)
    (id : String) : owner [.bind candidate] id = none := by
  rw [owner, if_neg]
  · rfl
  · rintro ⟨hcomplete, _⟩
    rw [hincomplete] at hcomplete
    cases hcomplete

theorem owner_bind {candidate : Condition} (hcomplete : isIncomplete candidate = false)
    (id : String) :
    owner [.bind candidate] id = if candidate.entry.rangeId = id then some true else none := by
  rw [owner]
  by_cases hid : candidate.entry.rangeId = id
  · rw [if_pos ⟨hcomplete, hid⟩, if_pos hid]
  · rw [if_neg (fun hboth => hid hboth.2), if_neg hid]
    rfl

/-- A condition is bound unless it came into the context plainly. -/
theorem Met.bindContext (h : Met source before context) {rangeId : String} {candidate : Condition}
    (hcomplete : isIncomplete candidate = false) (hhas : source.Has candidate.entry) :
    (owner before candidate.entry.rangeId = some false ->
      bindContext rangeId candidate context = .error .missingKey) ∧
    (owner before candidate.entry.rangeId ≠ some false ->
      exists context', bindContext rangeId candidate context = .ok context' ∧
        Met source (before ++ [.bind candidate]) context') := by
  have howner := h.owners candidate.entry.rangeId
  unfold SupportingIndex.bindContext
  cases hfind : findBy Entry.rangeId context candidate.entry.rangeId with
  | none =>
      rw [hfind] at howner
      constructor
      · intro hplain
        rw [hplain] at howner
        cases howner
      · intro _
        exact ⟨_, rfl,
          @Met.add source before context h (givenCondition rangeId candidate) hfind hhas
          (.bind candidate) (owner_bind hcomplete)⟩
  | some value =>
      rw [hfind] at howner
      cases hbinding : value.scopeBinding with
      | none =>
          constructor
          · intro _
            simp only [hbinding]
          · intro hne
            rw [Option.map_some, hbinding] at howner
            exact absurd howner.symm hne
      | some binding =>
          rw [Option.map_some, hbinding] at howner
          constructor
          · intro hplain
            rw [hplain] at howner
            cases howner
          · intro _
            simp only [hbinding]
            refine ⟨_, rfl, ?_⟩
            apply Met.same _ _ (owner_bind hcomplete)
            · apply h.rebind hfind
              rw [hbinding]
              rfl
            · rw [← howner]
              rfl

theorem Met.meet {selection : Selection} (h : Met source before selection.context)
    {rangeId : String} {demand : Demand} (hsound : demand.Sound source) :
    (clashAt before demand = true -> selection.meet rangeId demand = .error .missingKey) ∧
    (clashAt before demand = false ->
      exists selection', selection.meet rangeId demand = .ok selection' ∧
        Met source (before ++ [demand]) selection'.context) := by
  cases demand with
  | give entry reason =>
      constructor
      · intro hclash
        cases hclash
      · intro _
        exact h.give hsound
  | bind candidate =>
      cases hincomplete : isIncomplete candidate with
      | true =>
          constructor
          · intro hclash
            rw [clashAt, hincomplete] at hclash
            cases hclash
          · intro _
            refine ⟨_, if_pos hincomplete, ?_⟩
            constructor
            · intro id
              rw [owner_append, owner_bind_incomplete hincomplete, Option.or_none]
              exact h.owners id
            · exact h.has
      | false =>
          have hmeet : selection.meet rangeId (.bind candidate) =
              (SupportingIndex.bindContext rangeId candidate selection.context >>= fun context =>
                .ok { selection with context := context }) :=
            if_neg (by rw [hincomplete]; exact Bool.false_ne_true)
          have hbind := @Met.bindContext source before selection.context h rangeId candidate
            hincomplete hsound
          rw [hmeet, clashAt, hincomplete, Bool.not_false, Bool.true_and]
          constructor
          · intro hclash
            rw [hbind.1 (by simpa using hclash)]
            rfl
          · intro hclear
            rcases hbind.2 (by simpa using hclear) with ⟨context', hcontext, hmet⟩
            rw [hcontext]
            exact ⟨_, rfl, hmet⟩

/-- The demands of one entry, one after the other. -/
theorem Met.meetAll {demands : List Demand} {rangeId : String}
    (h : Met source before selection.context)
    (hsound : forall demand, demand ∈ demands -> demand.Sound source) :
    (clashes before demands = true ->
      demands.foldlM (Selection.meet rangeId) selection = .error .missingKey) ∧
    (clashes before demands = false ->
      exists selection', demands.foldlM (Selection.meet rangeId) selection = .ok selection' ∧
        Met source (before ++ demands) selection'.context) := by
  induction demands generalizing before selection with
  | nil =>
      constructor
      · intro hclash
        cases hclash
      · intro _
        refine ⟨selection, rfl, ?_⟩
        rw [List.append_nil]
        exact h
  | cons demand rest ih =>
      have hstep := @Met.meet source before selection h rangeId demand
        (hsound demand List.mem_cons_self)
      rw [List.foldlM_cons, clashes]
      cases hclash : clashAt before demand with
      | true =>
          rw [hstep.1 hclash, Bool.true_or]
          constructor
          · intro _
            rfl
          · intro hfalse
            cases hfalse
      | false =>
          rcases hstep.2 hclash with ⟨next, hnext, hmet⟩
          have hrest := ih hmet fun later hmem => hsound later (List.mem_cons_of_mem demand hmem)
          rw [ok_bind hnext, Bool.false_or]
          rw [List.append_assoc] at hrest
          exact hrest

theorem context_report (problems : List ScopeIssue) (selection : Selection) :
    (problems.foldl Selection.report selection).context = selection.context := by
  apply @foldl_invariant _ _ fun s : Selection => s.context = selection.context
  · intro s problem hsame
    unfold Selection.report
    split
    · exact hsame
    · exact hsame
  · rfl

/-- What the entries of a body ask for. -/
def demandsOfBody (index : SupportingIndex) (body : List Entry) : Except Fault (List Demand) := do
  let demands <- body.mapM index.demandsOf
  return demands.flatten

theorem Met.visitBody (hindex : SoundIndex source index) {body : List Entry}
    (hbody : forall entry, entry ∈ body -> source.Has entry)
    (h : Met source before selection.context) :
    exists demands, body.mapM index.demandsOf = .ok demands ∧
      (clashes before demands.flatten = true ->
        body.foldlM index.visitEntry selection = .error .missingKey) ∧
      (clashes before demands.flatten = false ->
        exists selection', body.foldlM index.visitEntry selection = .ok selection' ∧
          Met source (before ++ demands.flatten) selection'.context) := by
  induction body generalizing before selection with
  | nil =>
      refine ⟨[], rfl, ?_, ?_⟩
      · intro hclash
        cases hclash
      · intro _
        refine ⟨selection, rfl, ?_⟩
        rw [List.flatten_nil, List.append_nil]
        exact h
  | cons entry rest ih =>
      rcases demandsOf_ok hindex (hbody entry List.mem_cons_self) with ⟨demands, hdemands, hsound⟩
      have hrest := fun entry hmem => hbody entry (List.mem_cons_of_mem _ hmem)
      have hreported : Met source before (((index.issues.filter fun item =>
          item.1 == entry.sourceRangeId).map Prod.snd).foldl
            Selection.report selection).context := by
        rw [context_report]
        exact h
      have hvisit : index.visitEntry selection entry = demands.foldlM
          (Selection.meet entry.rangeId) (((index.issues.filter fun item =>
            item.1 == entry.sourceRangeId).map Prod.snd).foldl Selection.report selection) := by
        unfold visitEntry
        exact ok_bind hdemands
      have hmeet := @Met.meetAll source before _ demands entry.rangeId hreported hsound
      cases hclash : clashes before demands with
      | true =>
          -- The entry itself cannot be served, whatever the others ask for.
          rcases ih hrest h with ⟨others, hothers, _⟩
          refine ⟨demands :: others, ?_, ?_, ?_⟩
          · rw [List.mapM_cons, ok_bind hdemands, ok_bind hothers]
            rfl
          · intro _
            rw [List.foldlM_cons, hvisit, hmeet.1 hclash]
            rfl
          · intro hclear
            rw [List.flatten_cons, clashes_append, hclash, Bool.true_or] at hclear
            cases hclear
      | false =>
          rcases hmeet.2 hclash with ⟨next, hnext, hmet⟩
          rcases ih hrest hmet with ⟨others, hothers, hbad, hgood⟩
          refine ⟨demands :: others, ?_, ?_, ?_⟩
          · rw [List.mapM_cons, ok_bind hdemands, ok_bind hothers]
            rfl
          · intro hclash'
            rw [List.flatten_cons, clashes_append, hclash, Bool.false_or] at hclash'
            rw [List.foldlM_cons, hvisit, ok_bind hnext]
            exact hbad hclash'
          · intro hclear
            rw [List.flatten_cons, clashes_append, hclash, Bool.false_or] at hclear
            rw [List.foldlM_cons, hvisit, ok_bind hnext, List.flatten_cons, ← List.append_assoc]
            exact hgood hclear

/-!
# Selecting
-/

theorem mem_arranged {context : List Entry} {value : Entry} :
    value ∈ arranged context <-> value ∈ context := by
  unfold arranged
  rw [List.mem_append, List.mem_filter, List.mem_filter]
  constructor
  · rintro (⟨hmem, _⟩ | ⟨hmem, _⟩)
    · exact hmem
    · exact hmem
  · intro hmem
    cases hreason : value.reason == some .condition with
    | true =>
        exact Or.inl ⟨hmem, rfl⟩
    | false =>
        apply Or.inr
        refine ⟨hmem, ?_⟩
        rw [bne, hreason]
        rfl

/-- Every character of the body and of the context is supplied once. -/
def SelectsOnce (digest : String -> String) (index : SupportingIndex) (body : List Entry) : Prop :=
  exists selection support, index.visitBody body = .ok selection ∧
    index.select digest body = .ok support ∧ Disjoint (body ++ support.supporting) ∧
    forall value, value ∈ selection.context -> forall i, value.span.Contains i ->
      Supplied (body ++ support.supporting) value.sourceRangeId i

theorem select_of_visitBody {digest : String -> String} {body : List Entry} {selection : Selection}
    (hbody : Disjoint body) (hvisit : index.visitBody body = .ok selection) :
    exists support, index.select digest body = .ok support ∧
      Given body (arranged selection.context) support.supporting := by
  rcases @Given.foldlM digest body (arranged selection.context) [] [] (Given.start hbody) with
    ⟨selected, hrun, hgiven⟩
  unfold select
  rw [ok_bind hvisit, ok_bind hrun]
  exact ⟨_, rfl, hgiven⟩

theorem met_start (source : SourceIndex) : Met source [] ({} : Selection).context := by
  constructor
  · intro id
    rfl
  · intro value hmem
    cases hmem

/-- A body of parts of the source that do not overlap. -/
structure Body (source : SourceIndex) (body : List Entry) : Prop where
  has : forall entry, entry ∈ body -> source.Has entry
  disjoint : Disjoint body

/-- `select` does what it is for exactly when no condition is asked for that the
body already has as a plain range. -/
theorem selectsOnce_iff (hindex : SoundIndex source index) {digest : String -> String}
    {body : List Entry} (hbody : Body source body) :
    exists demands, index.demandsOfBody body = .ok demands ∧
      (SelectsOnce digest index body <-> clashes [] demands = false) := by
  rcases (met_start source).visitBody hindex hbody.has with ⟨demands, hdemands, hbad, hgood⟩
  refine ⟨demands.flatten, ok_bind hdemands, ?_⟩
  constructor
  · rintro ⟨selection, support, hvisit, _⟩
    cases hclash : clashes [] demands.flatten with
    | false =>
        rfl
    | true =>
        rw [visitBody, hbad hclash] at hvisit
        cases hvisit
  · intro hclear
    rcases hgood hclear with ⟨selection, hvisit, _⟩
    rcases @select_of_visitBody index digest body selection hbody.disjoint hvisit with
      ⟨support, hselect, hgiven⟩
    refine ⟨selection, support, hvisit, hselect, hgiven.disjoint, ?_⟩
    intro value hmem
    exact hgiven.covered value (mem_arranged.mpr hmem)

end SupportingIndex

end Evidence
end KnowledgeBrain
