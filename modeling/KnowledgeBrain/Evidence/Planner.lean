import Mathlib.Data.List.SplitBy
import KnowledgeBrain.Evidence.Support

/-!
# The source planner

The ranges of a document are put into packs, whole sections first.  What does
not fit is divided: sections into tables and units, these into rows, a row
between its cells and a text at a sentence end or in its middle.  A pack is
only taken with a measurement of its complete request.
-/

namespace KnowledgeBrain
namespace Evidence

open Foundation

structure Measurement where
  fits : Bool
  inputTokens : Int := 0
  contextTokens : Int := 0
  effectiveInputBudgetTokens : Option Int := none
  outputReserve : Int := 0
  safety : Int := 0
deriving DecidableEq

inductive BoundaryReason where
  | completeAdjacentSections
  | nativeStructurePrefix
  | nativeRowGroup
  | textOrCellFragment
  | minimumBodyProbe
  | indivisibleContextExceeded
deriving DecidableEq

inductive PackIssue where
  | scope (problem : ScopeIssue)
  | indivisibleSourceContextExceeded (packId documentId : String)
deriving DecidableEq

structure PlannedPack where
  packId : String
  body : List Selector
  supporting : List Selector
  pending : List SupportingIndex.PendingScope
  bindings : List Entry
  issues : List PackIssue
  compactedBlankRanges : List String
  boundaryReason : BoundaryReason
  sectionIds : List (Option String)
  budget : Measurement

/-- What a request is built from: a pack with its ranges read from the source. -/
structure RenderedPack where
  packId : String
  documentId : String
  documentVersion : String
  plannerVersion : String
  body : List Entry
  supporting : List Entry
  pending : List SupportingIndex.PendingScope
  bindings : List Entry
  issues : List PackIssue
  compactedBlankRanges : List String
  boundaryReason : BoundaryReason
  sectionIds : List (Option String)

structure PlanState where
  packs : List PlannedPack := []
  hint : Option Nat := none
  probeCount : Nat := 0

/-- The planner with what it is given: the source and its index, the builder of
the request and the budget that measures it.  `jsonSize` is the length of a
range as JSON and `sentenceEnds` are the ends of the sentences in a text. -/
structure StructuralPlanner (Payload : Type) where
  source : SourceIndex
  index : SupportingIndex
  digest : String -> String
  payload : RenderedPack -> Payload
  measure : Payload -> Measurement
  version : String
  jsonSize : Entry -> Nat
  sentenceEnds : List Char -> List Nat

namespace StructuralPlanner

variable {Payload : Type} (planner : StructuralPlanner Payload)

/-!
# Candidates
-/

def hasBase (entry : Entry) : Bool :=
  (planner.source.byId entry.sourceRangeId).isSome

/-- A share of the weight of the range, by its characters; of entries with a base. -/
def weight (entry : Entry) : Nat :=
  match planner.source.byId entry.sourceRangeId with
  | none => 1
  | some base =>
      max 1 (planner.jsonSize base * max 1 (entry.stop - entry.start) /
        max 1 (base.stop - base.start))

def weightOf (entries : List Entry) : Nat :=
  (entries.map planner.weight).foldl (fun total w => total + w) 0

/-- What a body of the weight that was measured says about the room there is. -/
def capacity (weight : Nat) (measurement : Measurement) : Option Nat :=
  if 0 < measurement.inputTokens ∧ measurement.contextTokens ≠ 0 then
    let available := max 1 (measurement.effectiveInputBudgetTokens.getD
      (measurement.contextTokens - measurement.outputReserve - measurement.safety))
    some (max 1 ((weight : Int) * available / measurement.inputTokens).toNat)
  else none

def packIdOf (body : List Entry) : String :=
  shortId planner.digest "pack-" (String.intercalate "\x00" (body.map Entry.rangeId))

/-- The pack of a body, before it is measured. -/
def packOf (body : List Entry) (reason : BoundaryReason) (support : SupportingIndex.Support)
    (budget : Measurement) : PlannedPack :=
  { packId := planner.packIdOf body
    body := body.map selector
    supporting := support.supporting.map selector
    pending := support.pending
    bindings := support.bindings
    issues := support.problems.map .scope
    compactedBlankRanges := (body.filter Entry.empty).map Entry.rangeId
    boundaryReason := reason
    sectionIds := (body.map Entry.sectionId).eraseDups
    budget := budget }

/-- The pack with its ranges read from the source. -/
def render (pack : PlannedPack) : Except Fault RenderedPack := do
  let body <- pack.body.mapM planner.source.materialize
  let supporting <- pack.supporting.mapM planner.source.materialize
  return {
    packId := pack.packId
    documentId := planner.source.documentId
    documentVersion := planner.source.documentVersion
    plannerVersion := planner.version
    body := body
    supporting := supporting
    pending := pack.pending
    bindings := pack.bindings
    issues := pack.issues
    compactedBlankRanges := pack.compactedBlankRanges
    boundaryReason := pack.boundaryReason
    sectionIds := pack.sectionIds }

def measureOf (rendered : RenderedPack) : Measurement :=
  planner.measure (planner.payload rendered)

def candidate (body : List Entry) (reason : BoundaryReason) (state : PlanState) :
    Except Fault (PlannedPack × PlanState) := do
  let support <- planner.index.select planner.digest body
  let rendered <- planner.render (planner.packOf body reason support ⟨false, 0, 0, none, 0, 0⟩)
  let measurement := planner.measureOf rendered
  return (planner.packOf body reason support measurement,
    { state with
      probeCount := state.probeCount + 1
      hint := (capacity (planner.weightOf body) measurement).or state.hint })

def admitted (pack : PlannedPack) : Bool :=
  pack.budget.fits

def indivisible (pack : PlannedPack) : PackIssue :=
  .indivisibleSourceContextExceeded pack.packId planner.source.documentId

def blockedPack (pack : PlannedPack) : PlannedPack :=
  { pack with
    issues := pack.issues ++ [planner.indivisible pack]
    boundaryReason := .indivisibleContextExceeded }

def blocked (pack : PlannedPack) (state : PlanState) : PlanState :=
  { state with packs := state.packs ++ [planner.blockedPack pack] }

/-!
# `partition`
-/

/-- How many groups from the first on have a weight for which there is room. -/
def countWithin (room : Nat) : List Nat -> Nat
  | [] => 0
  | w :: ws => if w ≤ room then countWithin (room - w) ws + 1 else 0

def firstCount (groups : List (List Entry)) (state : PlanState) : Nat :=
  match state.hint with
  | none => groups.length
  | some room => max 1 (countWithin room (groups.map planner.weightOf))

/-- After a failure: as many as the hint proposes, or half. -/
def propose (groups : List (List Entry)) (state : PlanState) (count : Nat) : Nat :=
  match state.hint with
  | none => count / 2
  | some room => countWithin room ((groups.take count).map planner.weightOf)

def probe (groups : List (List Entry)) (reason : BoundaryReason) (count : Nat)
    (state : PlanState) : Except Fault (PlannedPack × PlanState) :=
  planner.candidate (groups.take count).flatten reason state

/-- What is done with a single group that does not fit. -/
abbrev Fallback := List Entry -> PlannedPack -> PlanState -> Except Fault PlanState

def partition (fallback : Fallback) (reason : BoundaryReason) (groups : List (List Entry))
    (state : PlanState) : Except Fault PlanState :=
  match groups with
  | [] => .ok state
  | group :: rest => do
      -- the weights of all groups are read before the first probe
      reject (¬ (group :: rest).flatten.all planner.hasBase = true) .missingKey
      let found <- Probing.search (planner.probe (group :: rest) reason) admitted
        (planner.propose (group :: rest)) (planner.firstCount (group :: rest) state)
        ((group :: rest).length + 1) state
      match found.1.1 with
      | some count =>
          partition fallback reason (rest.drop (count - 1))
            { found.2 with packs := found.2.packs ++ [found.1.2] }
      | none => do
          let state <- fallback group found.1.2 found.2
          partition fallback reason rest state
termination_by groups.length
decreasing_by
  · rw [List.length_drop, List.length_cons]
    omega
  · rw [List.length_cons]
    omega

/-!
# `_split`
-/

/-- The boundary next to the middle, the first of them where two are as near. -/
def nearest (middle : Nat) : List Nat -> Option Nat
  | [] => none
  | b :: bs =>
      some (bs.foldl (fun (best b : Nat) =>
        if (Int.natAbs ((b : Int) - middle)) < (Int.natAbs ((best : Int) - middle)) then b
        else best) b)

/-- The cells that begin inside of an entry. -/
def cellBoundaries (entry : Entry) : List Nat :=
  match entry.row with
  | none => []
  | some row => (row.cells.map Cell.start).filter fun b =>
      decide (entry.start < b ∧ b < entry.stop)

/-- The sentence ends in the middle half of an entry. -/
def sentenceBoundaries (entry : Entry) : List Nat :=
  ((planner.sentenceEnds entry.text).map fun b => entry.start + b).filter fun b =>
    decide (entry.start + (entry.stop - entry.start) / 4 < b ∧
      b < entry.stop - (entry.stop - entry.start) / 4)

def boundaries (entry : Entry) : List Nat :=
  if (cellBoundaries entry).isEmpty then planner.sentenceBoundaries entry else cellBoundaries entry

/-- Where an entry with more than one character is cut. -/
def cutOf (entry : Entry) : Option Nat :=
  if entry.stop - entry.start ≤ 1 then none
  else
    let middle := (entry.start + entry.stop) / 2
    some ((nearest middle (planner.boundaries entry)).getD middle)

/-- The identity that stands for a neighbour that is not known yet. -/
def reservedId : String :=
  "fragment-" ++ String.ofList (List.replicate 24 '0')

def split (entry : Entry) : Except Fault (List Entry) :=
  match planner.cutOf entry with
  | none => .ok []
  | some cut => do
      let first <- fragment planner.digest entry entry.start cut
      let second <- fragment planner.digest entry cut entry.stop
      return [
        { first with previousFragmentId := some reservedId, nextFragmentId := some second.rangeId },
        { second with previousFragmentId := some first.rangeId, nextFragmentId := some reservedId }]

/-!
# The levels
-/

def scopeOf (pack : PlannedPack) : List (String × Nat × Nat) :=
  pack.supporting.map fun item => (item.sourceRangeId, item.start, item.stop)

def compareSpans (a b : Selector) : Ordering :=
  (compare a.sourceRangeId b.sourceRangeId).then (compare a.start b.start)

def mergeSpan (merged : List (String × Nat × Nat)) (item : Selector) : List (String × Nat × Nat) :=
  match merged.getLast? with
  | none => merged ++ [(item.sourceRangeId, item.start, item.stop)]
  | some prior =>
      if prior.1 = item.sourceRangeId ∧ item.start ≤ prior.2.2 then
        merged.dropLast ++ [(item.sourceRangeId, prior.2.1, max item.stop prior.2.2)]
      else merged ++ [(item.sourceRangeId, item.start, item.stop)]

/-- The intervals that the body and the support of a pack have together. -/
def coverageOf (pack : PlannedPack) : List (String × Nat × Nat) :=
  (sortBy compareSpans (pack.body ++ pack.supporting)).foldl mergeSpan []

/-- The smallest body already fails with the same support. -/
def isHopeless (probe rejected : PlannedPack) : Bool :=
  !admitted probe &&
    (scopeOf probe == scopeOf rejected || coverageOf probe == coverageOf rejected)

/-- A fallback for groups of one entry. -/
def onFirst (f : Entry -> PlannedPack -> PlanState -> Except Fault PlanState) : Fallback :=
  fun entries rejected state =>
    match entries with
    | [] => .error .missingKey
    | entry :: _ => f entry rejected state

/-- `split_range`.  Every level has less characters, so that a bound for them is
a bound for the levels. -/
def splitRange : Nat -> Entry -> PlannedPack -> PlanState -> Except Fault PlanState
  | 0, _, rejected, state => .ok (planner.blocked rejected state)
  | size + 1, entry, rejected, state => do
      let children <- planner.split entry
      if children.isEmpty then .ok (planner.blocked rejected state)
      else do
        let minimum <- fragment planner.digest entry entry.start
          (min entry.stop (entry.start + 1))
        let (probe, state) <- planner.candidate [minimum] .minimumBodyProbe state
        if isHopeless probe rejected then .ok (planner.blocked rejected state)
        else
          planner.partition (onFirst (splitRange size)) .textOrCellFragment
            (children.map fun child => [child]) state

def splitWhole (entry : Entry) (rejected : PlannedPack) (state : PlanState) :
    Except Fault PlanState :=
  planner.splitRange (entry.stop - entry.start) entry rejected state

def splitStructure : Fallback := fun entries rejected state =>
  if entries.length = 1 then onFirst planner.splitWhole entries rejected state
  else
    planner.partition (onFirst planner.splitWhole) .nativeRowGroup
      (entries.map fun entry => [entry]) state

/-- Rows of the same tables are one structure, and otherwise a unit is. -/
def structureKey (entry : Entry) : List String ⊕ String :=
  match entry.tableId.filter fun id => !id.isEmpty with
  | none => .inr entry.unitId
  | some id => .inl (if entry.tableIds.isEmpty then [id] else entry.tableIds)

/-- `_groups`. -/
def groupsBy {K : Type} [DecidableEq K] (key : Entry -> K) (entries : List Entry) :
    List (List Entry) :=
  entries.splitBy fun a b => decide (key a = key b)

def splitSection : Fallback := fun entries rejected state =>
  let structures := groupsBy structureKey entries
  if structures.length = 1 then planner.splitStructure entries rejected state
  else planner.partition planner.splitStructure .nativeStructurePrefix structures state

/-!
# `plan`
-/

/-- The links of a fragment to its neighbours; what has none is left as it is. -/
def linked (before after : List Selector) (item : Selector) : Selector :=
  let previous := (before.filter fun other => other.sourceRangeId == item.sourceRangeId).getLast?
  let next := (after.filter fun other => other.sourceRangeId == item.sourceRangeId).head?
  if previous.isNone && next.isNone then item
  else
    { item with
      previousFragmentId := previous.map Selector.rangeId
      nextFragmentId := next.map Selector.rangeId }

/-- The selectors of one body, between those of the packs before and after it. -/
def linkBody (before after : List Selector) : List Selector -> List Selector
  | [] => []
  | item :: rest => linked before (rest ++ after) item :: linkBody (before ++ [item]) after rest

def linkPacks (before : List Selector) : List PlannedPack -> List PlannedPack
  | [] => []
  | pack :: rest =>
      { pack with body := linkBody before (rest.flatMap PlannedPack.body) pack.body } ::
        linkPacks (before ++ pack.body) rest

/-- The last measurement of a pack, with its final links. -/
def finish (pack : PlannedPack) : Except Fault PlannedPack := do
  let rendered <- planner.render pack
  let final := planner.measureOf rendered
  reject (admitted pack = true ∧ final.fits = false) .finalLinksChanged
  return { pack with budget := final }

def chapters : List (List Entry) :=
  groupsBy (fun entry => (entry.documentId, entry.sectionId)) planner.source.ranges

def plan : Except Fault (List PlannedPack) := do
  let state <- planner.partition planner.splitSection .completeAdjacentSections planner.chapters {}
  (linkPacks [] state.packs).mapM planner.finish

end StructuralPlanner
end Evidence
end KnowledgeBrain
