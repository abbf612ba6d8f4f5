import KnowledgeBrain.Chunker.Splitter

/-!
# Headings and the document profile

Headings, chapters and separators are read line by line, outside code fences.
-/

namespace KnowledgeBrain
namespace Chunker

open Foundation

def startsFence (line : Text) : Bool :=
  ['`', '`', '`'].isPrefixOf (trim line)

/-- The lines outside code fences, with their character positions. -/
def openLinesFrom : Nat -> Bool -> List Text -> List (Nat × Text)
  | _, _, [] => []
  | pos, inFence, line :: rest =>
      let next := pos + line.length + (if rest.isEmpty then 0 else 1)
      if startsFence line then openLinesFrom next (!inFence) rest
      else if inFence then openLinesFrom next inFence rest
      else (pos, line) :: openLinesFrom next inFence rest

def openLines (text : Text) : List (Nat × Text) :=
  openLinesFrom 0 false (lines text)

/-!
# The heading stack
-/

structure HeadingHierarchy where
  stack : List Text
  depth : Nat
deriving DecidableEq

namespace HeadingHierarchy

def new : HeadingHierarchy where
  stack := List.replicate 6 []
  depth := 0

/-- One more than the last level that has a heading. -/
def deepest (stack : List Text) : Nat :=
  (List.range 6).foldl (fun depth i => if (stack.getD i []).isEmpty then depth else i + 1) 0

def observe (p : Patterns) (line : Text) (h : HeadingHierarchy) : HeadingHierarchy :=
  match p.markdownHeading line with
  | none => h
  | some (level, title) =>
      if 1 ≤ level ∧ level ≤ 6 then
        let stack := h.stack.take (level - 1) ++ trim title :: List.replicate (6 - level) []
        { stack := stack
          depth := if h.depth < level then level else deepest stack }
      else h

def breadcrumbWithHashes (h : HeadingHierarchy) : Text :=
  let parts := (List.range h.depth).filterMap fun i =>
    let title := h.stack.getD i []
    if title.isEmpty then none else some (List.replicate (i + 1) '#' ++ ' ' :: title)
  ['\n'].intercalate parts

end HeadingHierarchy

/-!
# The profile
-/

/-- The counts that select a strategy. -/
structure DocProfile where
  totalLines : Nat
  mdHeadingCounts : List Nat
  mdHeadingTotal : Nat
  numberedSectionCount : Nat
  allCapsShortLineCount : Nat
  formFeedCount : Nat
  visualSepCount : Nat
  germanChapterCount : Nat
  englishChapterCount : Nat
  chineseChapterCount : Nat
deriving DecidableEq

namespace DocProfile

def empty : DocProfile where
  totalLines := 0
  mdHeadingCounts := List.replicate 7 0
  mdHeadingTotal := 0
  numberedSectionCount := 0
  allCapsShortLineCount := 0
  formFeedCount := 0
  visualSepCount := 0
  germanChapterCount := 0
  englishChapterCount := 0
  chineseChapterCount := 0

/-- The heading density exceeds 0.005. -/
def isDense (d : DocProfile) : Bool :=
  decide (d.totalLines ≠ 0) && decide (d.totalLines < 200 * d.mdHeadingTotal)

/-- The lowest level with three hits, else the deepest level present. -/
def dominantHeadingLevel (d : DocProfile) : Nat :=
  if d.mdHeadingTotal = 0 then 0
  else
    match (List.range' 1 6).find? fun level => 3 ≤ d.mdHeadingCounts.getD level 0 with
    | some level => level
    | none =>
        ((List.range' 1 6).reverse.find? fun level =>
          0 < d.mdHeadingCounts.getD level 0).getD 0

def heuristicMarkerTotal (d : DocProfile) : Nat :=
  d.numberedSectionCount + d.germanChapterCount + d.englishChapterCount +
    d.chineseChapterCount + d.allCapsShortLineCount + d.visualSepCount + d.formFeedCount

/-- The level of a line that is a heading. -/
def matchHeading (p : Patterns) (line : Text) : Option Nat :=
  match p.markdownHeading line with
  | some (level, _) => if 1 ≤ level ∧ level ≤ 6 then some level else none
  | none => none

def countLine (p : Patterns) (d : DocProfile) (line : Text) : DocProfile :=
  match matchHeading p line with
  | some level =>
      { d with
        mdHeadingCounts := d.mdHeadingCounts.modify level (· + 1)
        mdHeadingTotal := d.mdHeadingTotal + 1 }
  | none =>
      { d with
        numberedSectionCount := d.numberedSectionCount + (p.numberedSection line).toNat
        germanChapterCount := d.germanChapterCount + (p.germanChapter line).toNat
        englishChapterCount := d.englishChapterCount + (p.englishChapter line).toNat
        chineseChapterCount := d.chineseChapterCount + (p.chineseChapter line).toNat
        allCapsShortLineCount := d.allCapsShortLineCount + (p.allCapsHeading line).toNat
        visualSepCount := d.visualSepCount + (p.visualSeparator line).toNat }

end DocProfile

def formFeed : Char := Char.ofNat 12

def profileDocument (p : Patterns) (text : Text) : DocProfile :=
  if text.isEmpty then DocProfile.empty
  else
    ((openLines text).map Prod.snd).foldl (DocProfile.countLine p)
      { DocProfile.empty with
        totalLines := (lines text).length
        formFeedCount := text.count formFeed }

inductive StrategyTier where
  | heading
  | heuristic
  | legacy
deriving DecidableEq

def selectStrategy (d : DocProfile) : List StrategyTier :=
  (if decide (3 ≤ d.mdHeadingTotal) && d.isDense && decide (0 < d.dominantHeadingLevel) then
    [.heading] else []) ++
  (if decide (5 ≤ d.heuristicMarkerTotal) || decide (0 < d.formFeedCount) ||
      decide (0 < d.germanChapterCount + d.englishChapterCount + d.chineseChapterCount) then
    [.heuristic] else []) ++
  [.legacy]

/-!
# Splitting by headings

The text is cut at the headings of the dominant level and above; sections that
do not fit are split further and small neighbours are joined again.
-/

structure HeadingBoundary where
  runeStart : Nat
  line : Text
deriving DecidableEq

/-- A heading of the primary level or above opens a section; one in the first
line names the section that is open. -/
def addBoundary (p : Patterns) (primaryLevel : Nat) (bounds : List HeadingBoundary)
    (posLine : Nat × Text) : List HeadingBoundary :=
  match p.markdownHeading posLine.2 with
  | none => bounds
  | some (level, _) =>
      if 1 ≤ level ∧ level ≤ primaryLevel then
        if 0 < posLine.1 then bounds ++ [⟨posLine.1, posLine.2⟩]
        else bounds.modifyHead fun b => { b with line := posLine.2 }
      else bounds

def findHeadingBoundaries (p : Patterns) (text : Text) (primaryLevel : Nat) :
    List HeadingBoundary :=
  if text.isEmpty then [⟨0, []⟩]
  else (openLines text).foldl (addBoundary p primaryLevel) [⟨0, []⟩]

/-- The lines of a section that are headings below the primary level. -/
def subHeadings (p : Patterns) (sectionRunes : Text) (primaryLevel : Nat) : List (Nat × Text) :=
  (openLines sectionRunes).filter fun posLine =>
    match p.markdownHeading posLine.2 with
    | none => false
    | some (level, _) => decide (primaryLevel < level)

def observeSubHeadings (p : Patterns) (runes : Text) (primaryLevel : Nat)
    (h : HeadingHierarchy) : HeadingHierarchy :=
  if runes.isEmpty then h
  else (subHeadings p runes primaryLevel).foldl (fun h posLine => h.observe p posLine.2) h

structure SectionBreadcrumb where
  runeStart : Nat
  breadcrumb : Text
deriving DecidableEq

def breadcrumbsFrom (p : Patterns) : HeadingHierarchy -> List (Nat × Text) ->
    List SectionBreadcrumb
  | _, [] => []
  | h, (pos, line) :: rest =>
      let h := h.observe p line
      ⟨pos, h.breadcrumbWithHashes⟩ :: breadcrumbsFrom p h rest

def sectionBreadcrumbs (p : Patterns) (sectionRunes : Text) (primaryLevel : Nat)
    (h : HeadingHierarchy) : List SectionBreadcrumb :=
  ⟨0, h.breadcrumbWithHashes⟩ :: breadcrumbsFrom p h (subHeadings p sectionRunes primaryLevel)

def breadcrumbAtOffset : List SectionBreadcrumb -> Nat -> Text -> Text
  | [], _, fallback => fallback
  | e :: rest, offset, fallback =>
      if offset < e.runeStart then fallback else breadcrumbAtOffset rest offset e.breadcrumb

/-- Give chunks of a part of the text their offsets and numbers in the whole. -/
def relocate (seq base : Nat) (header : TextChunk -> Text) : List TextChunk -> List TextChunk
  | [] => []
  | sub :: rest =>
      ⟨sub.content, header sub, seq, base + sub.start, base + sub.stop⟩ ::
        relocate (seq + 1) base header rest

/-- The chunks of one section. -/
def sectionChunks (p : Patterns) (cfg : SplitterConfig) (primaryLevel : Nat)
    (sectionRunes : Text) (start stop seq : Nat) (h : HeadingHierarchy) : List TextChunk :=
  let breadcrumb := h.breadcrumbWithHashes
  if stop ≤ start then []
  else if breadcrumb.length + 2 + sectionRunes.length ≤ cfg.chunkSize then
    [⟨sectionRunes, breadcrumb, seq, start, stop⟩]
  else
    let subBreadcrumbs := sectionBreadcrumbs p sectionRunes primaryLevel h
    relocate seq start
      (fun sub => breadcrumbAtOffset subBreadcrumbs sub.start breadcrumb)
      (splitText p sectionRunes cfg.chunkSize cfg.chunkOverlap cfg.separators)

def sectionStop (runes : Text) : List HeadingBoundary -> Nat
  | [] => runes.length
  | next :: _ => next.runeStart

def splitSections (p : Patterns) (cfg : SplitterConfig) (primaryLevel : Nat) (runes : Text) :
    Nat -> HeadingHierarchy -> List HeadingBoundary -> List TextChunk
  | _, _, [] => []
  | seq, h, b :: rest =>
      let stop := sectionStop runes rest
      let h := if b.line.isEmpty then h else h.observe p b.line
      let sectionRunes := slice runes b.runeStart stop
      let chunks := sectionChunks p cfg primaryLevel sectionRunes b.runeStart stop seq h
      chunks ++ splitSections p cfg primaryLevel runes (seq + chunks.length)
        (observeSubHeadings p sectionRunes primaryLevel h) rest

/-- The lines two lists of lines start with. -/
def commonLines : List Text -> List Text -> List Text
  | a :: as, b :: bs => if a = b then a :: commonLines as bs else []
  | _, _ => []

def commonHeadingPrefix (a b : Text) : Text :=
  if a = b then a else ['\n'].intercalate (commonLines (lines a) (lines b))

/-- Join a chunk with small predecessors that share a heading. -/
def coalesceFrom (chunkSize target : Nat) : TextChunk -> Nat -> List TextChunk -> List TextChunk
  | cur, _, [] => [cur]
  | cur, curLen, next :: rest =>
      let shared := commonHeadingPrefix cur.contextHeader next.contextHeader
      if !shared.isEmpty && cur.stop == next.start && decide (curLen < target) &&
          decide (curLen + next.content.length ≤ chunkSize) then
        coalesceFrom chunkSize target
          { cur with
            content := cur.content ++ next.content
            contextHeader := shared
            stop := next.stop }
          (curLen + next.content.length) rest
      else cur :: coalesceFrom chunkSize target next next.content.length rest

def renumber (chunks : List TextChunk) : List TextChunk :=
  chunks.mapIdx fun i c => { c with seq := i }

def coalesceTinyChunks (input : List TextChunk) (chunkSize : Nat) : List TextChunk :=
  match input with
  | first :: second :: rest =>
      if chunkSize = 0 then input
      else
        renumber (coalesceFrom chunkSize (max (chunkSize / 2) 200) first first.content.length
          (second :: rest))
  | _ => input

def splitByHeadings (p : Patterns) (text : Text) (cfg : SplitterConfig)
    (profile : Option DocProfile) : List TextChunk :=
  if text.isEmpty then []
  else
    let profile := profile.getD (profileDocument p text)
    let primaryLevel := profile.dominantHeadingLevel
    if primaryLevel = 0 then splitText p text cfg.chunkSize cfg.chunkOverlap cfg.separators
    else
      let bounds := findHeadingBoundaries p text primaryLevel
      if bounds.length ≤ 1 then splitText p text cfg.chunkSize cfg.chunkOverlap cfg.separators
      else
        coalesceTinyChunks
          (splitSections p cfg primaryLevel text 0 HeadingHierarchy.new bounds) cfg.chunkSize

/-!
# Splitting by heuristic boundaries

Form feeds, chapters, numbered sections, capitals, rules, page footers and
blank blocks are boundaries; blocks between them are packed into chunks that
overlap.
-/

structure Boundary where
  runeStart : Nat
  priority : Nat
deriving DecidableEq

def prioFormFeed : Nat := 100
def prioNumberedHead : Nat := 90
def prioChapterMarker : Nat := 85
def prioAllCapsHeading : Nat := 70
def prioVisualSep : Nat := 60
def prioPageFooter : Nat := 50
def prioBlankBlock : Nat := 40

/-- The chapter patterns of the languages known, all of them without any. -/
def Patterns.chapterPatternsForLangs (p : Patterns) (langs : List String) :
    List (Text -> Bool) :=
  let named := langs.filterMap fun l =>
    if l = "de" then some p.germanChapter
    else if l = "en" then some p.englishChapter
    else if l = "zh" then some p.chineseChapter
    else none
  if named.isEmpty then [p.germanChapter, p.englishChapter, p.chineseChapter] else named

/-- The priority of a line that is a boundary. -/
def linePriority (p : Patterns) (langs : List String) (line : Text) : Option Nat :=
  if (p.chapterPatternsForLangs langs).any fun pat => pat line then some prioChapterMarker
  else if p.numberedSection line then some prioNumberedHead
  else if p.allCapsHeading line then some prioAllCapsHeading
  else if p.visualSeparator line then some prioVisualSep
  else if p.pageFooter line then some prioPageFooter
  else none

def formFeeds (text : Text) : List Boundary :=
  (text.zipIdx.filter fun ci => ci.1 == formFeed).map fun ci => ⟨ci.2, prioFormFeed⟩

def lineBoundaries (p : Patterns) (langs : List String) (text : Text) : List Boundary :=
  (openLines text).filterMap fun posLine =>
    (linePriority p langs posLine.2).map fun priority => ⟨posLine.1, priority⟩

def blankBlocks (p : Patterns) (text : Text) : List Boundary :=
  (p.excessiveBlanks.findIter text).map fun m => ⟨m.stop, prioBlankBlock⟩

/-- By position, higher priorities first. -/
def boundaryBefore (a b : Boundary) : Prop :=
  a.runeStart < b.runeStart ∨ (a.runeStart = b.runeStart ∧ b.priority ≤ a.priority)

instance : DecidableRel boundaryBefore := fun a b =>
  inferInstanceAs (Decidable (a.runeStart < b.runeStart ∨
    (a.runeStart = b.runeStart ∧ b.priority ≤ a.priority)))

/-- Keep the first boundary of each position. -/
def dedupBoundaries : Option Nat -> List Boundary -> List Boundary
  | _, [] => []
  | prev, b :: rest =>
      if prev = some b.runeStart then dedupBoundaries prev rest
      else b :: dedupBoundaries (some b.runeStart) rest

def findHeuristicBoundaries (p : Patterns) (text : Text) (langs : List String) :
    List Boundary :=
  dedupBoundaries none
    ((formFeeds text ++ lineBoundaries p langs text ++ blankBlocks p text).insertionSort
      boundaryBefore)

/-- The position is strictly inside one of the spans, which are in order. -/
def insideSpans (pos : Nat) : List Span -> Bool
  | [] => false
  | s :: rest =>
      if pos ≤ s.start then false
      else if pos < s.stop then true
      else insideSpans pos rest

def dropBoundsInsideSpans (bounds : List Boundary) (spans : List Span) : List Boundary :=
  bounds.filter fun b => !insideSpans b.runeStart spans

/-- Walk back to the character behind a line feed. -/
def lineStartBack (runes : Text) (windowStart target : Nat) : Nat -> Nat
  | 0 => target
  | i + 1 =>
      if windowStart < i + 1 ∧ i + 1 < runes.length then
        if runes[i + 1]? = some '\n' then i + 2
        else lineStartBack runes windowStart target i
      else target

def applyOverlapAligned (runes : Text) (curEnd overlap : Nat) (bounds : List Boundary) : Nat :=
  if overlap = 0 then curEnd
  else
    let target := curEnd - overlap
    let windowStart := curEnd - 2 * overlap
    let window := (bounds.map Boundary.runeStart).filter fun b =>
      decide (windowStart ≤ b) && decide (b < curEnd)
    match window with
    | [] => lineStartBack runes windowStart target target
    | b :: rest => rest.foldl max b

/-- Chunks out so far, the start of the chunk collected and its end. -/
structure HeuristicState where
  out : List TextChunk
  chunkStart : Nat
  curEnd : Nat
deriving DecidableEq

def appendChunk (runes : Text) (start stop : Nat) (out : List TextChunk) : List TextChunk :=
  if stop ≤ start then out
  else
    let raw := slice runes start stop
    if isBlank raw then out else out ++ [⟨raw, [], out.length, start, stop⟩]

def appendOversize (p : Patterns) (runes : Text) (start stop : Nat) (cfg : SplitterConfig)
    (out : List TextChunk) : List TextChunk :=
  if stop ≤ start then out
  else
    out ++ relocate out.length start (fun _ => [])
      (splitText p (slice runes start stop) cfg.chunkSize cfg.chunkOverlap cfg.separators)

namespace HeuristicState

def step (p : Patterns) (runes : Text) (cfg : SplitterConfig) (bounds : List Boundary)
    (s : HeuristicState) (b : Boundary) : HeuristicState :=
  let nextEnd := b.runeStart
  if cfg.chunkSize < nextEnd - s.curEnd then
    let out := if s.chunkStart < s.curEnd then appendChunk runes s.chunkStart s.curEnd s.out
      else s.out
    { out := appendOversize p runes s.curEnd nextEnd cfg out
      chunkStart := nextEnd
      curEnd := nextEnd }
  else if cfg.chunkSize < nextEnd - s.chunkStart ∧
      max (cfg.chunkSize / 4) 50 ≤ s.curEnd - s.chunkStart then
    { out := appendChunk runes s.chunkStart s.curEnd s.out
      chunkStart := applyOverlapAligned runes s.curEnd cfg.chunkOverlap bounds
      curEnd := nextEnd }
  else { s with curEnd := nextEnd }

end HeuristicState

/-- The boundaries with the ends of the text. -/
def closeBounds (total : Nat) (bounds : List Boundary) : List Boundary :=
  let bounds := bounds ++ [⟨total, 0⟩]
  if (bounds.head?.map Boundary.runeStart).getD 0 ≠ 0 then ⟨0, 0⟩ :: bounds else bounds

/-- Pack the blocks between the boundaries. -/
def packBlocks (p : Patterns) (runes : Text) (cfg : SplitterConfig) (bounds : List Boundary) :
    List TextChunk :=
  let first := (bounds.head?.map Boundary.runeStart).getD 0
  let s := (bounds.drop 1).foldl (HeuristicState.step p runes cfg bounds) ⟨[], first, first⟩
  if s.chunkStart < s.curEnd then appendChunk runes s.chunkStart s.curEnd s.out else s.out

def splitByHeuristics (p : Patterns) (text : Text) (cfg : SplitterConfig) : List TextChunk :=
  if text.isEmpty then []
  else if text.length ≤ cfg.chunkSize then
    splitText p text cfg.chunkSize cfg.chunkOverlap cfg.separators
  else
    let prot := protectedSpansRune text (protectedSpans p text)
    let bounds := dropBoundsInsideSpans (findHeuristicBoundaries p text cfg.languages) prot
    if bounds.isEmpty then splitText p text cfg.chunkSize cfg.chunkOverlap cfg.separators
    else packBlocks p text cfg (closeBounds text.length bounds)

/-!
# The chain of strategies

The tiers run in order until the validator accepts one; the recursive splitter
is always the last.
-/

def maxContentLength (chunks : List TextChunk) : Nat :=
  (chunks.map fun c => c.content.length).foldl max 0

/-- The chunks before the last that are shorter than 50 characters. -/
def tinyCount (chunks : List TextChunk) : Nat :=
  chunks.dropLast.countP fun c => decide (c.content.length < 50)

def validateChunks (chunks : List TextChunk) (totalChars chunkSize : Nat) : Bool :=
  if chunks.isEmpty then false
  else if chunks.length = 1 ∧ 2 * chunkSize < totalChars then false
  else if chunks.length / 4 < tinyCount chunks ∧ 2 < tinyCount chunks then false
  else if maxContentLength chunks < chunkSize / 4 ∧ chunkSize < totalChars then false
  else if 0 < chunkSize ∧ 2 * chunkSize < maxContentLength chunks then false
  else true

def defaultSeparators : List Text :=
  [['\n', '\n'], ['\n'], ['。']]

/-- The patterns, and the character budget of a number of tokens in a language,
which `chars_for_token_limit` computes in floating point. -/
structure Engine where
  patterns : Patterns
  charsForTokenLimit : Nat -> String -> Nat

namespace Engine

/-- The chunk size within the token budget. -/
def budgetedSize (e : Engine) (cfg : SplitterConfig) (chunkSize : Nat) : Nat :=
  if 0 < cfg.tokenLimit then
    let budget := e.charsForTokenLimit cfg.tokenLimit (cfg.languages.head?.getD "mixed")
    if 0 < budget ∧ (chunkSize = 0 ∨ budget < chunkSize) then budget else chunkSize
  else chunkSize

def ensureDefaults (e : Engine) (cfg : SplitterConfig) : SplitterConfig :=
  let chunkSize := if cfg.chunkSize = 0 then defaultChunkSize else cfg.chunkSize
  let chunkOverlap := if cfg.chunkOverlap = 0 then defaultChunkOverlap else cfg.chunkOverlap
  let chunkSize := e.budgetedSize cfg chunkSize
  { cfg with
    chunkSize := chunkSize
    chunkOverlap :=
      if 0 < chunkSize ∧ chunkSize / 2 < chunkOverlap then chunkSize / 2 else chunkOverlap
    separators := if cfg.separators.isEmpty then defaultSeparators else cfg.separators }

def resolveChainWithProfile (e : Engine) (text : Text) (cfg : SplitterConfig) :
    List StrategyTier × Option DocProfile :=
  if cfg.strategy = "heading" then ([.heading, .legacy], none)
  else if cfg.strategy = "heuristic" then ([.heuristic, .legacy], none)
  else if cfg.strategy = "recursive" ∨ cfg.strategy = "legacy" ∨ cfg.strategy = "" then
    ([.legacy], none)
  else
    let profile := profileDocument e.patterns text
    (selectStrategy profile, some profile)

def runTier (e : Engine) (tier : StrategyTier) (text : Text) (cfg : SplitterConfig)
    (profile : Option DocProfile) : List TextChunk :=
  match tier with
  | .heading => splitByHeadings e.patterns text cfg profile
  | .heuristic => splitByHeuristics e.patterns text cfg
  | .legacy => splitText e.patterns text cfg.chunkSize cfg.chunkOverlap cfg.separators

/-- Run the tiers left; `lastLegacy` is what a rejected recursive splitter at
the end of the chain has produced. -/
def runChain (e : Engine) (text : Text) (cfg : SplitterConfig) (profile : Option DocProfile) :
    List TextChunk -> List StrategyTier -> List TextChunk
  | lastLegacy, [] =>
      if lastLegacy.isEmpty then
        splitText e.patterns text cfg.chunkSize cfg.chunkOverlap cfg.separators
      else lastLegacy
  | lastLegacy, tier :: rest =>
      let out := e.runTier tier text cfg profile
      if validateChunks out text.length cfg.chunkSize then out
      else
        e.runChain text cfg profile
          (if tier = .legacy ∧ rest = [] then out else lastLegacy) rest

/-- `split_raw`. -/
def split (e : Engine) (text : Text) (cfg : SplitterConfig) : List TextChunk :=
  if text.isEmpty then []
  else
    let cfg := e.ensureDefaults cfg
    let (chain, profile) := e.resolveChainWithProfile text cfg
    e.runChain text cfg profile [] chain

end Engine

/-!
# Parents and children
-/

def mergeBreadcrumbs (parent child : Text) : Text :=
  if parent.isEmpty then child
  else if child.isEmpty then parent
  else
    let parentLines := lines parent
    let childLines := lines child
    let childLines :=
      if parentLines.getLast?.map trim = childLines.head?.map trim then childLines.tail
      else childLines
    if childLines.isEmpty then parent
    else parent ++ '\n' :: ['\n'].intercalate childLines

structure ChildChunk where
  chunk : TextChunk
  parentIndex : Option Nat
deriving DecidableEq

structure ParentChildResult where
  parents : List TextChunk
  children : List ChildChunk
deriving DecidableEq

namespace Engine

/-- A parent is kept unless its only child is its whole content. -/
def keepsParent (parent : TextChunk) (subs : List TextChunk) : Bool :=
  decide (1 < subs.length) ||
    (decide (subs.length = 1) && subs.any fun sub => sub.content != parent.content)

/-- Children get their offsets in the document by those of their parent. -/
def childrenOf (parent : TextChunk) (parentIndex : Option Nat) (childSeq : Nat)
    (subs : List TextChunk) : List ChildChunk :=
  subs.mapIdx fun i sub =>
    { chunk :=
        { sub with
          seq := childSeq + i
          start := sub.start + parent.start
          stop := sub.stop + parent.start
          contextHeader := mergeBreadcrumbs parent.contextHeader sub.contextHeader }
      parentIndex := parentIndex }

def addParent (e : Engine) (childCfg : SplitterConfig) (r : ParentChildResult)
    (parent : TextChunk) : ParentChildResult :=
  let subs := e.split parent.content childCfg
  if keepsParent parent subs then
    { parents := r.parents ++ [parent]
      children := r.children ++
        childrenOf parent (some r.parents.length) r.children.length subs }
  else { r with children := r.children ++ childrenOf parent none r.children.length subs }

def splitParentChild (e : Engine) (text : Text) (parentCfg childCfg : SplitterConfig) :
    ParentChildResult :=
  if text.isEmpty then ⟨[], []⟩
  else (e.split text parentCfg).foldl (e.addParent childCfg) ⟨[], []⟩

end Engine

end Chunker
end KnowledgeBrain
