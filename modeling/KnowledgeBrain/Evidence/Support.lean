import KnowledgeBrain.Evidence.Context

/-!
# Supporting context

The conditions, introductions, headers and merged rows that a body needs are
selected from the index, and only what the body and the support before them do
not already have is given.
-/

namespace KnowledgeBrain
namespace Evidence

open Foundation

/-!
# `SupportingIndex.__init__`
-/

structure SupportingIndex where
  ranges : List Entry
  analysis : Bool
  introductions : List (String × Entry)
  conditions : List (String × Nat × Condition)
  issues : List (String × ScopeIssue)
  sections : List (String × Section)

namespace SupportingIndex

/-- The conditions by their sections, in the order in which these came up. -/
def grouped (conditions : List (String × Nat × Condition)) : List (Nat × Condition) :=
  (conditions.map Prod.fst).eraseDups.flatMap fun key =>
    (conditions.filter fun item => item.1 == key).map Prod.snd

/-- The binding that a reviewed decision gives to its source. -/
def reviewedBinding (source : Entry) (decision : ScopeDecision) : ScopeBinding :=
  { sectionId := source.sectionId
    headingPath := source.headingPath
    kind := .reviewedTargets
    bound := true
    tableIds := []
    completeSentence := true
    reviewedTargetRangeIds := decision.targetRangeIds
    decisionRangeId := some decision.rangeId }

/-- The source of a reviewed decision: a range, or the excerpt of a condition. -/
def reviewedSource (ranges : List Entry) (conditions : List (String × Nat × Condition))
    (rangeId : String) : Except Fault Entry :=
  match findBy Entry.rangeId ranges rangeId with
  | some entry => .ok entry
  | none =>
      match findBy (fun item => item.2.entry.rangeId) (grouped conditions).reverse rangeId with
      | some item => .ok item.2.entry
      | none => .error .reviewedSourceAbsent

/-- One decision of the analysis workflow, with the sources as they were before. -/
def addReviewed (ranges : List Entry) (found conditions : List (String × Nat × Condition))
    (decision : ScopeDecision) : Except Fault (List (String × Nat × Condition)) :=
  if decision.bind then do
    let source <- reviewedSource ranges found decision.rangeId
    return conditions ++
      [(sectionKey source.sectionId, 0, ⟨source, reviewedBinding source decision⟩)]
  else .ok conditions

/-- In the analysis workflow the decisions are conditions of their own. -/
def withReviewed (ranges : List Entry) (decisions : List ScopeDecision) (analysis : Bool)
    (found : List (String × Nat × Condition)) : Except Fault (List (String × Nat × Condition)) :=
  if analysis then decisions.foldlM (addReviewed ranges found) found else .ok found

def build (P : Patterns) (digest : String -> String) (ranges : List Entry)
    (decisions : List ScopeDecision) (analysis : Bool) : Except Fault SupportingIndex := do
  let context := conditionContext P digest ranges (if analysis then [] else decisions)
  let conditions <- withReviewed ranges decisions analysis context.conditions
  return {
    ranges := ranges
    analysis := analysis
    introductions := context.introductions
    conditions := conditions
    issues := if analysis then [] else context.issues
    sections := context.sections }

variable (index : SupportingIndex)

def range? (rangeId : String) : Except Fault Entry :=
  match findBy Entry.rangeId index.ranges rangeId with
  | some entry => .ok entry
  | none => .error .missingKey

def position? (rangeId : String) : Except Fault Nat :=
  match index.ranges.findIdx? fun entry => entry.rangeId == rangeId with
  | some position => .ok position
  | none => .error .missingKey

def isReviewed (candidate : Condition) : Bool :=
  candidate.binding.kind == .reviewedTargets

def pendingByParent (parentId : String) : List Condition :=
  ((grouped index.conditions).map Prod.snd).filter fun candidate =>
    !isReviewed candidate && !index.analysis && !candidate.binding.completeSentence &&
      candidate.entry.parentRangeId == some parentId

/-- A condition once for every time it names the target. -/
def reviewedTargets (targetId : String) : List Condition :=
  ((grouped index.conditions).map Prod.snd).flatMap fun candidate =>
    if isReviewed candidate then
      (candidate.binding.reviewedTargetRangeIds.filter fun id => id == targetId).map
        fun _ => candidate
    else []

/-- The tables whose header or first row an entry is. -/
def headedTables (entry : Entry) : List String :=
  entry.headerTableIds ++ entry.leadingTableIds ++
    if entry.header || entry.leadingRow then (entry.tableId.filter fun id => !id.isEmpty).toList
    else []

def headers (tableId : Option String) : List Entry :=
  match tableId with
  | none => []
  | some id => index.ranges.filter fun entry => (headedTables entry).contains id

/-- The rows of a table with the spans of their cells that cover further rows. -/
def merged (tableId : Option String) : List (Entry × Row × Cell) :=
  (index.ranges.filter fun entry => entry.tableId == tableId).flatMap fun entry =>
    match entry.row with
    | none => []
    | some row => (row.cells.filter fun cell => decide (1 < cell.rowSpan)).map fun cell =>
        (entry, row, cell)

/-!
# `_uncovered`
-/

section Uncovered

variable (digest : String -> String)

def compareStart (a b : Entry) : Ordering :=
  compare a.start b.start

/-- One of the missing parts of a candidate. -/
def pieceOf (candidate : Entry) (g : Span) : Except Fault Entry :=
  if g = candidate.span then .ok candidate else fragment digest candidate g.start g.stop

def sameSource (candidate : Entry) (occupied : List Entry) : List Entry :=
  occupied.filter fun entry => entry.sourceRangeId == candidate.sourceRangeId

/-- `_uncovered`. -/
def uncovered (candidate : Entry) (occupied : List Entry) : Except Fault (List Entry) :=
  if candidate.start = candidate.stop then
    .ok (if (sameSource candidate occupied).isEmpty then [candidate] else [])
  else
    (Span.gaps candidate.stop candidate.start
      ((sortBy compareStart (sameSource candidate occupied)).map Entry.span)).mapM
      (pieceOf digest candidate)

end Uncovered

/-!
# `select`
-/

/-- `pending_scope_metadata`: a reference without the text. -/
structure PendingScope where
  rangeId : String
  sourceRangeId : String
  parentRangeId : Option String
  start : Nat
  stop : Nat
  sectionId : Option String
  headingPath : String
  scopeBinding : ScopeBinding
deriving DecidableEq

def pendingScopeMetadata (candidate : Condition) : PendingScope :=
  { rangeId := candidate.entry.rangeId
    sourceRangeId := candidate.entry.sourceRangeId
    parentRangeId := candidate.entry.parentRangeId
    start := candidate.entry.start
    stop := candidate.entry.stop
    sectionId := candidate.entry.sectionId
    headingPath := candidate.entry.headingPath
    scopeBinding := { candidate.binding with appliesToRangeIds := [] } }

structure Selection where
  context : List Entry := []
  pending : List PendingScope := []
  problems : List ScopeIssue := []

/-- `problems[range_id] = problem`. -/
def Selection.report (selection : Selection) (problem : ScopeIssue) : Selection :=
  if selection.problems.any fun other => other.rangeId == problem.rangeId then
    { selection with problems := selection.problems.map fun other =>
        if other.rangeId == problem.rangeId then problem else other }
  else { selection with problems := selection.problems ++ [problem] }

/-- What an entry of the body asks for: a range as it is, or a condition that is
bound to the entry. -/
inductive Demand where
  | give (entry : Entry) (reason : SupportReason)
  | bind (candidate : Condition)
deriving DecidableEq

/-- A condition that is cut off is only pending. -/
def isIncomplete (candidate : Condition) : Bool :=
  !candidate.binding.completeSentence && !isReviewed candidate

def applyTo (rangeId : String) (binding : ScopeBinding) : ScopeBinding :=
  if binding.appliesToRangeIds.contains rangeId then binding
  else { binding with appliesToRangeIds := binding.appliesToRangeIds ++ [rangeId] }

/-- The condition as it is given, applied to its first entry. -/
def givenCondition (rangeId : String) (candidate : Condition) : Entry :=
  { candidate.entry with
    reason := some .condition
    scopeBinding := some { candidate.binding with appliesToRangeIds := [rangeId] } }

def bindPending (rangeId : String) (candidate : Condition) (pending : List PendingScope) :
    List PendingScope :=
  if (findBy PendingScope.rangeId pending candidate.entry.rangeId).isSome then
    pending.map fun value =>
      if value.rangeId == candidate.entry.rangeId then
        { value with scopeBinding := applyTo rangeId value.scopeBinding }
      else value
  else
    pending ++ [{ pendingScopeMetadata candidate with
      scopeBinding := { candidate.binding with appliesToRangeIds := [rangeId] } }]

/-- The value of an identity, with a binding. -/
def rebound (id : String) (binding : ScopeBinding) (value : Entry) : Entry :=
  if value.rangeId = id then { value with scopeBinding := some binding } else value

/-- A condition that is there already has to have a binding. -/
def bindContext (rangeId : String) (candidate : Condition) (context : List Entry) :
    Except Fault (List Entry) :=
  match findBy Entry.rangeId context candidate.entry.rangeId with
  | none => .ok (context ++ [givenCondition rangeId candidate])
  | some value =>
      match value.scopeBinding with
      | none => .error .missingKey
      | some binding =>
          .ok (context.map (rebound candidate.entry.rangeId (applyTo rangeId binding)))

/-- `context.setdefault(range_id, {**entry, "reason": reason})` and `bind`. -/
def Selection.meet (rangeId : String) (selection : Selection) :
    Demand -> Except Fault Selection
  | .give entry reason =>
      .ok (if (findBy Entry.rangeId selection.context entry.rangeId).isSome then selection
        else { selection with
          context := selection.context ++ [{ entry with reason := some reason }] })
  | .bind candidate =>
      if isIncomplete candidate then
        .ok { selection with pending := bindPending rangeId candidate selection.pending }
      else do
        let context <- bindContext rangeId candidate selection.context
        return { selection with context := context }

/-- `entry.get("table_ids") or [entry.get("table_id")]`. -/
def tablesOf (entry : Entry) : List (Option String) :=
  if entry.tableIds.isEmpty then [entry.tableId] else entry.tableIds.map some

/-- The conditions of one section that stand before the entry. -/
def visitConditions (position : Nat) (entry : Entry) :
    List (Nat × Condition) -> Except Fault (List Demand)
  | [] => .ok []
  | (place, candidate) :: rest =>
      if isReviewed candidate then visitConditions position entry rest
      else if position < place then .ok []
      else if place = position ∧ entry.start < candidate.entry.stop then
        visitConditions position entry rest
      else if index.analysis then do
        let original <- index.range? candidate.entry.sourceRangeId
        let demands <- visitConditions position entry rest
        return .give original .scopeCandidate :: demands
      else if !candidate.binding.tableIds.isEmpty &&
          !(tablesOf entry).any (fun table =>
            table.any fun id => candidate.binding.tableIds.contains id) then
        visitConditions position entry rest
      else do
        let demands <- visitConditions position entry rest
        return .bind candidate :: demands

/-- The introduction of a section, for entries that it stands before. -/
def introduction (position : Nat) (sectionId : String) : Except Fault (List Demand) :=
  match index.introductions.lookup sectionId with
  | none => .ok []
  | some introduction =>
      match introduction.parentRangeId with
      | none => .error .missingKey
      | some parentId => do
          let place <- index.position? parentId
          return if place ≤ position then [.give introduction .introduction] else []

def visitSection (position : Nat) (entry : Entry) (sectionId : String) :
    Except Fault (List Demand) := do
  let introductions <- index.introduction position sectionId
  let conditions <- index.visitConditions position entry
    ((index.conditions.filter fun item => item.1 == sectionId).map Prod.snd)
  return introductions ++ conditions

/-- The entry is one of the further rows that a cell covers. -/
def isCovered (entry : Entry) (row : Row) (cell : Cell) : Bool :=
  entry.row.any fun own => decide (row.rowStart < own.rowStart ∧
    own.rowStart < row.rowStart + cell.rowSpan)

def visitTable (entry : Entry) (tableId : Option String) : List Demand :=
  (index.headers tableId).map (fun candidate => .give candidate .header) ++
    ((index.merged tableId).filter fun item => isCovered entry item.2.1 item.2.2).map fun item =>
      .give item.1 .mergedRow

/-- What one entry of the body needs. -/
def demandsOf (entry : Entry) : Except Fault (List Demand) := do
  let original := entry.sourceRangeId
  let base <- index.range? original
  let position <- index.position? original
  let sections <- (sectionAncestors base index.sections).mapM (index.visitSection position entry)
  return (index.pendingByParent original ++ index.reviewedTargets original).map .bind ++
    sections.flatten ++ (tablesOf entry).flatMap (index.visitTable entry)

def visitEntry (selection : Selection) (entry : Entry) : Except Fault Selection := do
  let selection := ((index.issues.filter fun item => item.1 == entry.sourceRangeId).map
    Prod.snd).foldl Selection.report selection
  let demands <- index.demandsOf entry
  demands.foldlM (Selection.meet entry.rangeId) selection

def visitBody (body : List Entry) : Except Fault Selection :=
  body.foldlM index.visitEntry {}

/-- The conditions first, then the rest, each in the order they were found. -/
def arranged (context : List Entry) : List Entry :=
  (context.filter fun value => value.reason == some .condition) ++
    context.filter fun value => value.reason != some .condition

/-- The loop over the context, each value cut against the body and the values before it. -/
def addSupport (digest : String -> String) (body selected : List Entry) (value : Entry) :
    Except Fault (List Entry) := do
  let pieces <- uncovered digest value (body ++ selected)
  return selected ++ pieces

structure Support where
  supporting : List Entry
  pending : List PendingScope
  problems : List ScopeIssue
  bindings : List Entry

def select (digest : String -> String) (body : List Entry) : Except Fault Support := do
  let selection <- index.visitBody body
  let selected <- (arranged selection.context).foldlM (addSupport digest body) []
  return {
    supporting := selected
    pending := selection.pending
    problems := selection.problems
    bindings := selection.context.filter fun value => value.reason == some .condition }

end SupportingIndex

/-!
# Excerpts lie in their ranges

The sentences of a range follow each other inside its text, so the conditions
and introductions of an index are parts of its ranges.
-/

/-!
## Segments
-/

/-- Every segment lies in a text of the given length. -/
def Within (length : Nat) (found : List Segment) : Prop :=
  forall segment, segment ∈ found -> segment.start ≤ segment.stop ∧ segment.stop ≤ length

theorem addSegment_snd (text : List Char) (complete : Bool) (state : List Segment × Nat)
    (stop : Nat) : (addSegment text complete state stop).2 = stop := by
  unfold addSegment
  split
  · rfl
  · rfl

variable {state : List Segment × Nat}

theorem addSegment_within {text : List Char} {complete : Bool} {length stop : Nat}
    (h : Within length state.1) (hlow : state.2 ≤ stop) (hhigh : stop ≤ length) :
    Within length (addSegment text complete state stop).1 := by
  unfold addSegment
  split
  · exact h
  · intro segment hmem
    rcases List.mem_append.mp hmem with hold | hnew
    · exact h segment hold
    · rcases List.mem_singleton.mp hnew with rfl
      exact ⟨hlow, hhigh⟩

/-- The sentences that end one after the other before a boundary. -/
theorem foldl_addSegment_within {text : List Char} {complete : Bool} {length boundary : Nat}
    {stops : List Nat} (hsorted : stops.Pairwise fun a b => a ≤ b)
    (hstops : forall stop, stop ∈ stops -> state.2 ≤ stop ∧ stop ≤ boundary)
    (hlow : state.2 ≤ boundary) (hhigh : boundary ≤ length) (h : Within length state.1) :
    Within length (stops.foldl (addSegment text complete) state).1 ∧
      (stops.foldl (addSegment text complete) state).2 ≤ boundary := by
  induction stops generalizing state with
  | nil =>
      exact ⟨h, hlow⟩
  | cons stop stops ih =>
      rw [List.pairwise_cons] at hsorted
      have hstop := hstops stop List.mem_cons_self
      apply ih hsorted.2
      · intro later hmem
        rw [addSegment_snd]
        exact ⟨hsorted.1 later hmem, (hstops later (List.mem_cons_of_mem stop hmem)).2⟩
      · rw [addSegment_snd]
        exact hstop.2
      · exact addSegment_within h hstop.1 (Nat.le_trans hstop.2 hhigh)

variable {P : Patterns}

theorem addParagraph_within {text : List Char} {length boundary : Nat} (hlow : state.2 ≤ boundary)
    (hhigh : boundary ≤ length) (h : Within length state.1) :
    Within length (addParagraph P text state boundary).1 := by
  have hsentences := @foldl_addSegment_within state text true length boundary
    (P.terminators text state.2 boundary) (P.terminators_sorted text state.2 boundary)
    (P.terminators_between text state.2 boundary) hlow hhigh h
  exact addSegment_within hsentences.1 hsentences.2 hhigh

theorem foldl_addParagraph_within {text : List Char} {length : Nat} {boundaries : List Nat}
    (hsorted : boundaries.Pairwise fun a b => a ≤ b)
    (hboundaries : forall boundary, boundary ∈ boundaries -> state.2 ≤ boundary ∧ boundary ≤ length)
    (h : Within length state.1) :
    Within length (boundaries.foldl (addParagraph P text) state).1 := by
  induction boundaries generalizing state with
  | nil =>
      exact h
  | cons boundary boundaries ih =>
      rw [List.pairwise_cons] at hsorted
      have hboundary := hboundaries boundary List.mem_cons_self
      apply ih hsorted.2
      · intro later hmem
        unfold addParagraph
        rw [addSegment_snd]
        exact ⟨hsorted.1 later hmem, (hboundaries later (List.mem_cons_of_mem boundary hmem)).2⟩
      · exact addParagraph_within hboundary.1 hboundary.2 h

theorem headingSegment_eq_some {entry : Entry} {segment : Segment}
    (hheading : headingSegment entry = some segment) :
    segment.start = 0 ∧ segment.stop ≤ entry.text.length := by
  unfold headingSegment at hheading
  simp only at hheading
  split at hheading
  · cases hheading
    exact ⟨rfl, (List.takeWhile_prefix _).length_le⟩
  · cases hheading

theorem bodyOffset_le (entry : Entry) : bodyOffset entry ≤ entry.text.length := by
  unfold bodyOffset
  split
  · exact Nat.zero_le _
  · rename_i segment hheading
    have hstop := (headingSegment_eq_some hheading).2
    split
    · omega
    · exact hstop

theorem mem_paragraphEnds {entry : Entry} {boundary : Nat}
    (hmem : boundary ∈ paragraphEnds entry) :
    bodyOffset entry ≤ boundary ∧ boundary ≤ entry.text.length := by
  unfold paragraphEnds at hmem
  rw [mem_sortBy, List.mem_eraseDups, List.mem_append, List.mem_filter] at hmem
  rcases hmem with ⟨_, hbreak⟩ | hend
  · rcases of_decide_eq_true hbreak with ⟨hlow, hhigh⟩
    exact ⟨Nat.le_of_lt hlow, hhigh⟩
  · rcases List.mem_singleton.mp hend with rfl
    exact ⟨bodyOffset_le entry, Nat.le_refl _⟩

theorem segments_within (P : Patterns) (entry : Entry) :
    Within entry.text.length (segments P entry) := by
  intro segment hmem
  rcases List.mem_append.mp hmem with hheading | hbody
  · have hsome := Option.mem_toList.mp hheading
    rcases headingSegment_eq_some hsome with ⟨hstart, hstop⟩
    constructor
    · rw [hstart]
      exact Nat.zero_le _
    · exact hstop
  · have hsorted : (paragraphEnds entry).Pairwise fun a b => a ≤ b := by
      apply (pairwise_sortBy compare _).imp
      intro a b hle
      exact Nat.isLE_compare.mp hle
    have hstart : Within entry.text.length [] := by
      intro segment hmem
      cases hmem
    exact @foldl_addParagraph_within ([], bodyOffset entry) P entry.text entry.text.length
      (paragraphEnds entry) hsorted (fun boundary hmem => mem_paragraphEnds hmem) hstart
      segment hbody

/-!
## Excerpts
-/

theorem trimStart_between {text : List Char} {start stop : Nat} (hlow : start ≤ stop)
    (hhigh : stop ≤ text.length) :
    start ≤ trimStart text start stop ∧ trimStart text start stop ≤ stop := by
  unfold trimStart
  have hspaces := (List.takeWhile_prefix isSpace : _ <+: slice text start stop).length_le
  rw [length_slice hhigh] at hspaces
  omega

theorem trimStop_between {text : List Char} {start stop : Nat} (hlow : start ≤ stop)
    (hhigh : stop ≤ text.length) :
    start ≤ trimStop text start stop ∧ trimStop text start stop ≤ stop := by
  unfold trimStop
  have hspaces :=
    (List.takeWhile_prefix isSpace : _ <+: (slice text start stop).reverse).length_le
  rw [List.length_reverse, length_slice hhigh] at hspaces
  omega

/-- A part of a range that names the range as its parent. -/
structure IsExcerpt (source : SourceIndex) (entry : Entry) : Prop where
  parent : exists base, base ∈ source.ranges ∧ entry.parentRangeId = some base.rangeId
  has : source.Has entry
  unscoped : entry.scopeBinding = none

theorem excerpt_isExcerpt {source : SourceIndex} {digest : String -> String} {entry : Entry}
    (hmem : entry ∈ source.ranges) {start stop : Nat} (hlow : start ≤ stop)
    (hhigh : stop ≤ entry.text.length) (reason : SupportReason) :
    IsExcerpt source (excerpt digest entry start stop reason) := by
  have hordered := source.ordered entry hmem
  have hlength := source.lengths entry hmem
  have hstart := trimStart_between hlow hhigh
  have hstop := trimStop_between hstart.2 hhigh
  constructor
  · exact ⟨entry, hmem, rfl⟩
  · refine ⟨entry, hmem, source.own entry hmem, ?_, ?_, ?_⟩
    · show entry.start ≤ entry.start + _
      exact Nat.le_add_right _ _
    · show entry.start + trimStart entry.text start stop ≤
        entry.start + trimStop entry.text (trimStart entry.text start stop) stop
      omega
    · show entry.start + trimStop entry.text (trimStart entry.text start stop) stop ≤ entry.stop
      omega
  · exact source.unscoped entry hmem

/-!
## The context
-/

/-- Everything in a context is an excerpt. -/
structure SoundContext (source : SourceIndex) (context : ConditionContext) : Prop where
  introductions : forall item, item ∈ context.introductions -> IsExcerpt source item.2
  conditions : forall item, item ∈ context.conditions -> IsExcerpt source item.2.2.entry

variable {source : SourceIndex} {context : ConditionContext}

theorem mem_setDefault {A : Type} {dictionary : List (String × A)} {key : String} {value : A}
    {item : String × A} (hmem : item ∈ setDefault dictionary key value) :
    item ∈ dictionary ∨ item = (key, value) := by
  unfold setDefault at hmem
  split at hmem
  · exact Or.inl hmem
  · rcases List.mem_append.mp hmem with hold | hnew
    · exact Or.inl hold
    · exact Or.inr (List.mem_singleton.mp hnew)

theorem SoundContext.introduce (h : SoundContext source context) {value : Entry} (key : String)
    (hvalue : IsExcerpt source value) : SoundContext source (context.introduce key value) := by
  constructor
  · intro item hmem
    rcases mem_setDefault hmem with hold | rfl
    · exact h.introductions item hold
    · exact hvalue
  · exact h.conditions

theorem SoundContext.startBody (h : SoundContext source context) (key : String) :
    SoundContext source (context.startBody key) := by
  constructor
  · exact h.introductions
  · exact h.conditions

theorem SoundContext.addCondition (h : SoundContext source context) {value : Condition}
    (hvalue : IsExcerpt source value.entry) (key : String) (position : Nat) (entry : Entry)
    (role : ScopeRole) (decision : Option ScopeDecision) :
    SoundContext source (context.addCondition key position entry role decision value) := by
  constructor
  · exact h.introductions
  · intro item hmem
    rcases List.mem_append.mp hmem with hold | hnew
    · exact h.conditions item hold
    · rcases List.mem_singleton.mp hnew with rfl
      exact hvalue

variable {decisions : List ScopeDecision}

theorem visitSegment_sound {digest : String -> String} {position : Nat} {entry : Entry}
    {segment : Segment} (hentry : entry ∈ source.ranges) (hsegment : segment ∈ segments P entry)
    (h : SoundContext source context) :
    SoundContext source (visitSegment P digest decisions position entry context segment) := by
  rcases segments_within P entry segment hsegment with ⟨hlow, hhigh⟩
  have hexcerpt := fun reason => @excerpt_isExcerpt source digest entry hentry segment.start
    segment.stop hlow hhigh reason
  unfold visitSegment
  simp only
  split
  · exact h.introduce _ (hexcerpt .introduction)
  · split
    · exact h
    · split
      · apply SoundContext.startBody
        split
        · exact h.introduce _ (hexcerpt .introduction)
        · exact h
      · split
        · exact h.startBody _
        · exact h.addCondition (hexcerpt .condition) _ _ _ _ _

theorem visitRange_sound {digest : String -> String} {item : Entry × Nat}
    (hentry : item.1 ∈ source.ranges) (h : SoundContext source context) :
    SoundContext source (visitRange P digest decisions context item) := by
  unfold visitRange
  simp only
  split
  · exact ⟨h.introductions, h.conditions⟩
  · apply foldl_invariant_mem
    · intro context segment hmem hsound
      exact visitSegment_sound hentry hmem hsound
    · exact ⟨h.introductions, h.conditions⟩

theorem conditionContext_sound (P : Patterns) (digest : String -> String) (source : SourceIndex)
    (decisions : List ScopeDecision) :
    SoundContext source (conditionContext P digest source.ranges decisions) := by
  unfold conditionContext
  apply foldl_invariant_mem
  · intro context item hmem h
    exact visitRange_sound (List.fst_mem_of_mem_zipIdx hmem) h
  · constructor
    · intro item hmem
      cases hmem
    · intro item hmem
      cases hmem

/-!
## The index
-/

/-- An index of a source: its conditions and introductions are parts of it. -/
structure SoundIndex (source : SourceIndex) (index : SupportingIndex) : Prop where
  ranges : index.ranges = source.ranges
  introductions : forall item, item ∈ index.introductions -> IsExcerpt source item.2
  conditions : forall item, item ∈ index.conditions -> source.Has item.2.2.entry

theorem SourceIndex.has_of_mem {entry : Entry} (hmem : entry ∈ source.ranges) :
    source.Has entry :=
  ⟨entry, hmem, source.own entry hmem, Nat.le_refl _, source.ordered entry hmem, Nat.le_refl _⟩

theorem reviewedSource_has {found : List (String × Nat × Condition)} {rangeId : String}
    {entry : Entry} (hfound : forall item, item ∈ found -> source.Has item.2.2.entry)
    (hrun : SupportingIndex.reviewedSource source.ranges found rangeId = .ok entry) :
    source.Has entry := by
  unfold SupportingIndex.reviewedSource at hrun
  split at hrun
  · rename_i range hfind
    cases hrun
    exact SourceIndex.has_of_mem (findBy_eq_some hfind).1
  · split at hrun
    · rename_i item hfind
      cases hrun
      have hmem := List.mem_reverse.mp (findBy_eq_some hfind).1
      unfold SupportingIndex.grouped at hmem
      rcases List.mem_flatMap.mp hmem with ⟨key, _, hgroup⟩
      rcases List.mem_map.mp hgroup with ⟨origin, horigin, rfl⟩
      exact hfound origin (List.mem_filter.mp horigin).1
    · cases hrun

theorem addReviewed_has {found conditions conditions' : List (String × Nat × Condition)}
    {decision : ScopeDecision} (hfound : forall item, item ∈ found -> source.Has item.2.2.entry)
    (h : forall item, item ∈ conditions -> source.Has item.2.2.entry)
    (hrun : SupportingIndex.addReviewed source.ranges found conditions decision = .ok conditions') :
    forall item, item ∈ conditions' -> source.Has item.2.2.entry := by
  unfold SupportingIndex.addReviewed at hrun
  split at hrun
  · rcases bind_eq_ok hrun with ⟨entry, hsource, hrun⟩
    cases hrun
    intro item hmem
    rcases List.mem_append.mp hmem with hold | hnew
    · exact h item hold
    · rcases List.mem_singleton.mp hnew with rfl
      exact reviewedSource_has hfound hsource
  · cases hrun
    exact h

theorem withReviewed_has {analysis : Bool} {found conditions : List (String × Nat × Condition)}
    (hfound : forall item, item ∈ found -> source.Has item.2.2.entry)
    (hrun : SupportingIndex.withReviewed source.ranges decisions analysis found = .ok conditions) :
    forall item, item ∈ conditions -> source.Has item.2.2.entry := by
  unfold SupportingIndex.withReviewed at hrun
  split at hrun
  · exact foldlM_invariant (fun _ _ _ h hstep => addReviewed_has hfound h hstep) hfound hrun
  · cases hrun
    exact hfound

theorem build_sound {digest : String -> String} {analysis : Bool} {index : SupportingIndex}
    (hbuild : SupportingIndex.build P digest source.ranges decisions analysis = .ok index) :
    SoundIndex source index := by
  unfold SupportingIndex.build at hbuild
  rcases bind_eq_ok hbuild with ⟨conditions, hconditions, hbuild⟩
  cases hbuild
  have hcontext := conditionContext_sound P digest source (if analysis then [] else decisions)
  constructor
  · rfl
  · exact hcontext.introductions
  · exact withReviewed_has (fun item hmem => (hcontext.conditions item hmem).has) hconditions

end Evidence
end KnowledgeBrain
