import KnowledgeBrain.Foundation.Intervals
import KnowledgeBrain.Foundation.Keyed
import KnowledgeBrain.Tender.Revisions

/-!
# Source ranges

A document is a list of ranges of characters.  Everything that is ever sent is
a range, a fragment of a range or an excerpt of it, and names the range it
comes from and its place there.
-/

namespace KnowledgeBrain
namespace Evidence

open Foundation

structure Cell where
  row : Nat
  column : Nat
  text : List Char
  rowSpan : Nat := 1
  colSpan : Nat := 1
  formula : Option String := none
  imageAnchor : Option String := none
  start : Nat
  stop : Nat
deriving DecidableEq

/-- What a range has when it is a row of a table. -/
structure Row where
  rowStart : Nat
  rowEnd : Nat
  columnCount : Nat
  cells : List Cell
deriving DecidableEq

structure TextBoundaries where
  start : Bool := true
  stop : Bool := true
deriving DecidableEq

inductive ScopeKind where
  | explicitSection
  | sectionPreamble
  | unresolved
  | reviewedTargets
deriving DecidableEq

structure ScopeBinding where
  sectionId : Option String
  headingPath : String
  kind : ScopeKind
  bound : Bool
  tableIds : List String
  completeSentence : Bool
  reviewedTargetRangeIds : List String := []
  decisionRangeId : Option String := none
  appliesToRangeIds : List String := []
deriving DecidableEq

/-- Why a range is given as support. -/
inductive SupportReason where
  | introduction
  | condition
  | scopeCandidate
  | header
  | mergedRow
deriving DecidableEq

inductive NonRequirementReason where
  | emptyTableRow
  | blankPage
  | reviewedDecorativeImage
deriving DecidableEq

structure ImageDisposition where
  status : String
  classification : String
deriving DecidableEq

/-- A range of the source, or a fragment or an excerpt of one. -/
structure Entry where
  rangeId : String
  sourceRangeId : String
  parentRangeId : Option String := none
  documentId : String
  unitId : String
  kind : String
  text : List Char
  start : Nat
  stop : Nat
  sectionId : Option String := none
  parentSectionId : Option String := none
  headingPath : String := ""
  textBoundaries : TextBoundaries := {}
  paragraphBreaks : List Nat := []
  row : Option Row := none
  tableId : Option String := none
  tableIds : List String := []
  headerTableIds : List String := []
  leadingTableIds : List String := []
  header : Bool := false
  leadingRow : Bool := false
  empty : Bool := false
  nonRequirementReason : Option NonRequirementReason := none
  imageDisposition : Option ImageDisposition := none
  imageUnitIds : List String := []
  reason : Option SupportReason := none
  scopeBinding : Option ScopeBinding := none
  splitLineage : List String := []
  previousFragmentId : Option String := none
  nextFragmentId : Option String := none
deriving DecidableEq

/-- The characters of an entry, by their place in its source range. -/
def Entry.span (entry : Entry) : Span :=
  ⟨entry.start, entry.stop⟩

/-- The errors that end a call. -/
inductive Fault where
  | outsideRange
  | unknownRange
  | exceedsSource
  | missingKey
  | reviewedSourceAbsent
  | finalLinksChanged
deriving DecidableEq

/-!
# Fragments
-/

section Digest

-- `hashlib.sha256(identity.encode()).hexdigest()`
variable (digest : String -> String)

/-- Identities that are made up of a name and the first digits of a digest. -/
def shortId (name identity : String) : String :=
  name ++ String.ofList ((digest identity).toList.take 24)

def spanIdentity (rangeId : String) (start stop : Nat) : String :=
  rangeId ++ "\x00" ++ toString start ++ "\x00" ++ toString stop

def fragmentId (sourceRangeId : String) (start stop : Nat) : String :=
  shortId digest "fragment-" (spanIdentity sourceRangeId start stop)

/-- The entry that `fragment` makes. -/
def Entry.cut (entry : Entry) (start stop : Nat) : Entry :=
  { entry with
    rangeId := fragmentId digest entry.sourceRangeId start stop
    start := start
    stop := stop
    text := slice entry.text (start - entry.start) (stop - entry.start)
    splitLineage := entry.splitLineage ++ [entry.rangeId]
    textBoundaries :=
      { start := decide (start = entry.start) && entry.textBoundaries.start
        stop := decide (stop = entry.stop) && entry.textBoundaries.stop } }

def fragment (entry : Entry) (start stop : Nat) : Except Fault Entry := do
  reject (¬ (entry.start ≤ start ∧ start ≤ stop ∧ stop ≤ entry.stop)) .outsideRange
  return entry.cut digest start stop

theorem fragment_eq_ok {entry : Entry} {start stop : Nat}
    (hrange : entry.start ≤ start ∧ start ≤ stop ∧ stop ≤ entry.stop) :
    fragment digest entry start stop = .ok (entry.cut digest start stop) :=
  reject_bind (not_not_intro hrange)

end Digest

/-!
# Selectors
-/

/-- The fields of an entry that are kept; a field may be missing. -/
structure Selector where
  rangeId : String
  sourceRangeId : String
  parentRangeId : Option String
  start : Nat
  stop : Nat
  reason : Option SupportReason
  scopeBinding : Option ScopeBinding
  splitLineage : List String
  previousFragmentId : Option String
  nextFragmentId : Option String
  textBoundaries : TextBoundaries
deriving DecidableEq

def selector (entry : Entry) : Selector :=
  { rangeId := entry.rangeId
    sourceRangeId := entry.sourceRangeId
    parentRangeId := entry.parentRangeId
    start := entry.start
    stop := entry.stop
    reason := entry.reason
    scopeBinding := entry.scopeBinding
    splitLineage := entry.splitLineage
    previousFragmentId := entry.previousFragmentId
    nextFragmentId := entry.nextFragmentId
    textBoundaries := entry.textBoundaries }

def Selector.span (reference : Selector) : Span :=
  ⟨reference.start, reference.stop⟩

/-!
# The source index
-/

/-- The ranges of a document: their identities differ, each is its own source,
the text of each is what its interval says, and none is bound to a scope. -/
structure SourceIndex where
  documentId : String
  documentVersion : String
  ranges : List Entry
  distinct : (ranges.map Entry.rangeId).Nodup
  own : forall entry, entry ∈ ranges -> entry.sourceRangeId = entry.rangeId
  ordered : forall entry, entry ∈ ranges -> entry.start ≤ entry.stop
  lengths : forall entry, entry ∈ ranges -> entry.text.length = entry.stop - entry.start
  unscoped : forall entry, entry ∈ ranges -> entry.scopeBinding = none

def SourceIndex.byId (source : SourceIndex) (rangeId : String) : Option Entry :=
  findBy Entry.rangeId source.ranges rangeId

theorem SourceIndex.byId_of_mem {source : SourceIndex} {entry : Entry}
    (hmem : entry ∈ source.ranges) : source.byId entry.rangeId = some entry :=
  findBy_of_mem source.distinct hmem

/-- A blank row of a table keeps its cells as a form. -/
def isBlankTemplate (base : Entry) : Bool :=
  base.empty && decide (base.nonRequirementReason = some .emptyTableRow)

/-- The cells that a part of a row shows, with the offsets they have in it. -/
def shownCells (base : Entry) (start stop : Nat) (cells : List Cell) : List Cell :=
  (cells.filter fun cell =>
    isBlankTemplate base || decide (cell.start < stop ∧ start < cell.stop) ||
      decide (cell.start = cell.stop ∧ start ≤ cell.start ∧ cell.start ≤ stop)).map fun cell =>
    { cell with
      text := []
      start := if isBlankTemplate base then 0 else max start cell.start
      stop := if isBlankTemplate base then 0 else min stop cell.stop }

/-- The part of a range that a selector names. -/
def rendered (base : Entry) (reference : Selector) : Entry :=
  { base with
    rangeId := reference.rangeId
    sourceRangeId := reference.sourceRangeId
    parentRangeId := reference.parentRangeId
    start := reference.start
    stop := reference.stop
    text := slice base.text (reference.start - base.start) (reference.stop - base.start)
    reason := reference.reason
    scopeBinding := reference.scopeBinding
    splitLineage := reference.splitLineage
    previousFragmentId := reference.previousFragmentId
    nextFragmentId := reference.nextFragmentId
    textBoundaries := reference.textBoundaries
    paragraphBreaks := []
    row := base.row.map fun row =>
      { row with cells := shownCells base reference.start reference.stop row.cells } }

/-- `SourceIndex.materialize`. -/
def SourceIndex.materialize (source : SourceIndex) (reference : Selector) : Except Fault Entry :=
  match source.byId reference.sourceRangeId with
  | none => .error .unknownRange
  | some base => do
      reject (¬ (base.start ≤ reference.start ∧ reference.start ≤ reference.stop ∧
        reference.stop ≤ base.stop)) .exceedsSource
      return rendered base reference

/-- An entry is a part of a range of the index. -/
def SourceIndex.Has (source : SourceIndex) (entry : Entry) : Prop :=
  exists base, base ∈ source.ranges ∧ entry.sourceRangeId = base.rangeId ∧
    base.start ≤ entry.start ∧ entry.start ≤ entry.stop ∧ entry.stop ≤ base.stop

theorem SourceIndex.materialize_of_mem {source : SourceIndex} {reference : Selector} {base : Entry}
    (hmem : base ∈ source.ranges) (hsource : reference.sourceRangeId = base.rangeId)
    (hrange : base.start ≤ reference.start ∧ reference.start ≤ reference.stop ∧
      reference.stop ≤ base.stop) :
    source.materialize reference = .ok (rendered base reference) := by
  unfold SourceIndex.materialize
  rw [hsource, SourceIndex.byId_of_mem hmem]
  exact reject_bind (not_not_intro hrange)

/-!
# Conditions and introductions

Which sentences of a document are conditions of what follows, and which is the
first that introduces a section.  Each is an excerpt of the range it is in.
What the regular expressions say about a text is a parameter.
-/

inductive ScopeRole where
  | explicitSection
  | sectionPreamble
  | targetRequiresBinding
  | scopeModification
deriving DecidableEq

/-- What the regular expressions find.  `terminators` are the ends of the
sentence ends between two places; they come in order and between the places. -/
structure Patterns where
  navigation : Entry -> Bool
  condition : List Char -> Bool
  explicitSection : List Char -> Bool
  replacement : List Char -> Bool
  scopeOnly : List Char -> Bool
  topicalCondition : List Char -> Bool
  namedScope : List Char -> Bool
  scopeBackref : List Char -> Bool
  scopeReference : List Char -> Bool
  listCondition : List Char -> Bool
  priority : List Char -> Bool
  applicability : List Char -> Bool
  formScopeLine : List Char -> Bool
  localField : List Char -> Bool
  directNamedScope : List Char -> Bool
  terminators : List Char -> Nat -> Nat -> List Nat
  terminators_between : forall text offset boundary stop,
    stop ∈ terminators text offset boundary -> offset ≤ stop ∧ stop ≤ boundary
  terminators_sorted : forall text offset boundary,
    (terminators text offset boundary).Pairwise fun a b => a ≤ b

structure ScopeDecision where
  rangeId : String
  bind : Bool
  targetRangeIds : List String
deriving DecidableEq

/-- `_scope_role`, of a text without the spaces around it. -/
def scopeRole (P : Patterns) (text : List Char) (preamble hasScope : Bool) : Option ScopeRole :=
  if P.condition text && P.explicitSection text then some .explicitSection
  else if P.directNamedScope text && P.applicability text then some .targetRequiresBinding
  else if P.localField text then none
  else if P.scopeBackref text && P.replacement text then some .scopeModification
  else if (P.applicability text && (P.namedScope text || P.scopeReference text)) ||
      P.formScopeLine text then some .targetRequiresBinding
  else if P.listCondition text || P.priority text then some .targetRequiresBinding
  else if P.scopeOnly text then
    if preamble then some .sectionPreamble else some .targetRequiresBinding
  else if preamble && hasScope && P.topicalCondition text then some .sectionPreamble
  else none

/-!
# Segments
-/

def isBlankText (text : List Char) : Bool :=
  text.all isSpace

def afterSeparator : List Char -> Option (List Char)
  | [] => none
  | c :: cs =>
      match afterSeparator cs with
      | some title => some title
      | none => if [' ', '>', ' '].isPrefixOf (c :: cs) then some (cs.drop 2) else none

/-- `heading_path.rsplit(" > ", 1)[-1]`. -/
def titleOf (headingPath : String) : List Char :=
  (afterSeparator headingPath.toList).getD headingPath.toList

structure Segment where
  start : Nat
  stop : Nat
  heading : Bool
  complete : Bool
deriving DecidableEq

/-- The first line, when it is the title of its section. -/
def headingSegment (entry : Entry) : Option Segment :=
  let title := titleOf entry.headingPath
  let line := entry.text.takeWhile fun c => c != '\n'
  if !title.isEmpty &&
      strip (line.dropWhile fun c => c == '#' || c == ' ') == strip title then
    some ⟨0, line.length, true, true⟩
  else none

/-- Where the sentences begin: behind the title and its line end. -/
def bodyOffset (entry : Entry) : Nat :=
  match headingSegment entry with
  | none => 0
  | some segment => if segment.stop < entry.text.length then segment.stop + 1 else segment.stop

def addSegment (text : List Char) (complete : Bool) (state : List Segment × Nat) (stop : Nat) :
    List Segment × Nat :=
  if isBlankText (slice text state.2 stop) then (state.1, stop)
  else (state.1 ++ [⟨state.2, stop, false, complete⟩], stop)

/-- The sentences up to one boundary, and what is left before it. -/
def addParagraph (P : Patterns) (text : List Char) (state : List Segment × Nat) (boundary : Nat) :
    List Segment × Nat :=
  addSegment text false
    ((P.terminators text state.2 boundary).foldl (addSegment text true) state) boundary

/-- The paragraph ends behind the title, and the end of the text. -/
def paragraphEnds (entry : Entry) : List Nat :=
  sortBy compare
    ((entry.paragraphBreaks.filter fun b =>
      decide (bodyOffset entry < b ∧ b ≤ entry.text.length)) ++ [entry.text.length]).eraseDups

/-- `_segments`. -/
def segments (P : Patterns) (entry : Entry) : List Segment :=
  (headingSegment entry).toList ++
    ((paragraphEnds entry).foldl (addParagraph P entry.text) ([], bodyOffset entry)).1

/-!
# Excerpts
-/

/-- A place moved over the spaces behind it. -/
def trimStart (text : List Char) (start stop : Nat) : Nat :=
  start + ((slice text start stop).takeWhile isSpace).length

/-- A place moved back over the spaces before it. -/
def trimStop (text : List Char) (start stop : Nat) : Nat :=
  stop - ((slice text start stop).reverse.takeWhile isSpace).length

/-- `_excerpt`. -/
def excerpt (digest : String -> String) (entry : Entry) (start stop : Nat)
    (reason : SupportReason) : Entry :=
  let start := trimStart entry.text start stop
  let stop := trimStop entry.text start stop
  { entry with
    rangeId := shortId digest "context-" (spanIdentity entry.rangeId start stop)
    parentRangeId := some entry.rangeId
    text := slice entry.text start stop
    start := entry.start + start
    stop := entry.start + stop
    reason := some reason }

/-!
# `condition_context`
-/

/-- An excerpt, or a range, with what it is a condition of. -/
structure Condition where
  entry : Entry
  binding : ScopeBinding
deriving DecidableEq

structure ScopeIssue where
  rangeId : String
  parentRangeId : String
  documentId : String
  scopeReason : ScopeRole
deriving DecidableEq

structure Section where
  path : String
  parent : Option String
deriving DecidableEq

/-- The dictionaries that are built, with their keys, in the order of insertion. -/
structure ConditionContext where
  introductions : List (String × Entry) := []
  conditions : List (String × Nat × Condition) := []
  issues : List (String × ScopeIssue) := []
  sections : List (String × Section) := []
  bodyStarted : List String := []
  boundScope : List String := []

/-- `dictionary.setdefault(key, value)`. -/
def setDefault {A : Type} (dictionary : List (String × A)) (key : String) (value : A) :
    List (String × A) :=
  if (dictionary.lookup key).isSome then dictionary else dictionary ++ [(key, value)]

def sectionKey (sectionId : Option String) : String :=
  match sectionId with
  | none => "unlocated"
  | some id => if id.isEmpty then "unlocated" else id

def ConditionContext.introduce (context : ConditionContext) (key : String) (value : Entry) :
    ConditionContext :=
  { context with introductions := setDefault context.introductions key value }

def ConditionContext.startBody (context : ConditionContext) (key : String) : ConditionContext :=
  { context with bodyStarted := key :: context.bodyStarted }

/-- The tables that an entry names. -/
def namedTables (entry : Entry) : List String :=
  if entry.tableIds.isEmpty then (entry.tableId.filter fun id => !id.isEmpty).toList
  else entry.tableIds

/-- The condition that a sentence with a role is. -/
def conditionOf (P : Patterns) (entry fragment : Entry) (segment : Segment) (role : ScopeRole)
    (decision : Option ScopeDecision) : Condition :=
  let text := slice entry.text segment.start segment.stop
  let complete := segment.complete && (decide (0 < segment.start) || entry.textBoundaries.start)
  let located := entry.sectionId.any (fun id => !id.isEmpty) && !entry.headingPath.isEmpty
  let resolved := decision.isSome || (located && complete &&
    (role == .explicitSection || role == .sectionPreamble) && !P.replacement text)
  { entry := fragment
    binding :=
      { sectionId := entry.sectionId
        headingPath := entry.headingPath
        kind := if decision.isSome then .reviewedTargets
          else if resolved && role == .explicitSection then .explicitSection
          else if resolved then .sectionPreamble else .unresolved
        bound := resolved
        tableIds := if role == .explicitSection then [] else namedTables entry
        completeSentence := complete
        reviewedTargetRangeIds := (decision.map ScopeDecision.targetRangeIds).getD []
        decisionRangeId := decision.map ScopeDecision.rangeId } }

def ConditionContext.addCondition (context : ConditionContext) (key : String) (position : Nat)
    (entry : Entry) (role : ScopeRole) (decision : Option ScopeDecision) (value : Condition) :
    ConditionContext :=
  { context with
    conditions := context.conditions ++ [(key, position, value)]
    boundScope := if value.binding.bound && decision.isNone then key :: context.boundScope
      else context.boundScope
    issues := if value.binding.bound then context.issues
      else context.issues ++
        [(entry.rangeId, ⟨value.entry.rangeId, entry.rangeId, entry.documentId, role⟩)] }

/-- One sentence of an entry. -/
def visitSegment (P : Patterns) (digest : String -> String) (decisions : List ScopeDecision)
    (position : Nat) (entry : Entry) (context : ConditionContext) (segment : Segment) :
    ConditionContext :=
  let key := sectionKey entry.sectionId
  let text := slice entry.text segment.start segment.stop
  if segment.heading then
    context.introduce key (excerpt digest entry segment.start segment.stop .introduction)
  else if isBlankText text then context
  else
    let preamble := entry.kind == "section" && !context.bodyStarted.contains key
    match scopeRole P (strip text) preamble (context.boundScope.contains key) with
    | none =>
        (if entry.kind == "section" then
          context.introduce key (excerpt digest entry segment.start segment.stop .introduction)
        else context).startBody key
    | some role =>
        let fragment := excerpt digest entry segment.start segment.stop .condition
        let decision := findBy ScopeDecision.rangeId decisions.reverse fragment.rangeId
        if decision.any fun decision => !decision.bind then context.startBody key
        else context.addCondition key position entry role decision
          (conditionOf P entry fragment segment role decision)

def visitRange (P : Patterns) (digest : String -> String) (decisions : List ScopeDecision)
    (context : ConditionContext) (item : Entry × Nat) : ConditionContext :=
  let key := sectionKey item.1.sectionId
  let context :=
    { context with
      sections := setDefault context.sections key ⟨item.1.headingPath, item.1.parentSectionId⟩ }
  if P.navigation item.1 then context.startBody key
  else (segments P item.1).foldl (visitSegment P digest decisions item.2 item.1) context

def conditionContext (P : Patterns) (digest : String -> String) (ranges : List Entry)
    (decisions : List ScopeDecision) : ConditionContext :=
  ranges.zipIdx.foldl (visitRange P digest decisions) {}

/-!
# `section_ancestors`
-/

/-- The loop; every round goes to a section that was not seen. -/
def ancestorsFrom (sections : List (String × Section)) :
    Nat -> Option String -> List String -> List String
  | 0, _, _ => []
  | fuel + 1, key, seen =>
      match key with
      | none => []
      | some key =>
          if key.isEmpty || seen.contains key then []
          else key :: ancestorsFrom sections fuel ((sections.lookup key).bind Section.parent)
            (key :: seen)

/-- A round that does not end the loop uses up one of the sections. -/
def sectionAncestors (entry : Entry) (sections : List (String × Section)) : List String :=
  ancestorsFrom sections (sections.length + 2) (some (sectionKey entry.sectionId)) []

end Evidence
end KnowledgeBrain
