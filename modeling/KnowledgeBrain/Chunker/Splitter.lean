import KnowledgeBrain.Chunker.Text

/-!
# Table headers across split units

`HeaderTracker` keeps its headers in maps with one key, the priority of the
table hook; each map is its one entry here.
-/

namespace KnowledgeBrain
namespace Chunker

open Foundation

def isEmptyTableHeaderRow (header : Text) : Bool :=
  header.contains '\n' &&
    (trim (header.takeWhile (· != '\n'))).all fun r => r == '|' || r == ' ' || r == '\t'

def dashes : Text := ['-', '-', '-']

def extractSeparatorLine (header : Text) : Text :=
  match (lines header).find? fun line => contains line dashes with
  | some line => line ++ ['\n']
  | none => []

def splitEndsWithParagraphBreak (split : Text) : Bool :=
  let trimmed :=
    (split.reverse.dropWhile fun r => r == ' ' || r == '\t' || r == '\r').reverse
  decide (['\n', '\n'] <:+ trimmed) || decide (['\r', '\n', '\r', '\n'] <:+ trimmed)

def isBlank (t : Text) : Bool :=
  (trim t).isEmpty

def tableRowColumnCount (line : Text) : Nat :=
  let line := trim line
  if line.head? != some '|' then 0
  else
    let parts := line.splitOn '|'
    let parts := if parts.head?.any isBlank then parts.tail else parts
    let parts := if parts.getLast?.any isBlank then parts.dropLast else parts
    parts.length

def headerTableColumnCount (header : Text) : Nat :=
  let counts := ((lines header).filter fun line =>
    !isBlank line && !contains (trim line) dashes).map tableRowColumnCount
  (counts.find? fun n => 0 < n).getD 0

/-- The first line of a header that names a column. -/
def headerColumnRow (header : Text) : Text :=
  let rows := ((lines header).map trim).filter fun line =>
    !line.isEmpty && !contains line dashes
  (rows.find? fun line => line.any fun r => r != '|' && r != ' ' && r != '\t').getD []

def headerAlreadyPresent (headers overlapText unitText : Text) : Bool :=
  if contains overlapText headers || contains unitText headers then true
  else
    let colRow := headerColumnRow headers
    if colRow.isEmpty then false
    else contains overlapText colRow || contains unitText colRow

namespace Patterns

def firstTableRowColumnCount (p : Patterns) (text : Text) : Nat :=
  match (lines text).find? fun line => !isBlank line && p.tableRow line with
  | some line => tableRowColumnCount line
  | none => 0

def headerColumnMismatch (p : Patterns) (headers nextUnit : Text) : Bool :=
  let headerCols := headerTableColumnCount headers
  let rowCols := p.firstTableRowColumnCount nextUnit
  decide (0 < headerCols) && decide (0 < rowCols) && headerCols != rowCols

end Patterns

structure HeaderTracker where
  activeHeader : Option Text
  ended : Bool
  pendingExtend : Bool
  pendingTableBreak : Bool
  headerEndedThisUnit : Bool
deriving DecidableEq

namespace HeaderTracker

def new : HeaderTracker where
  activeHeader := none
  ended := false
  pendingExtend := false
  pendingTableBreak := false
  headerEndedThisUnit := false

def clearTableHeader (ht : HeaderTracker) : HeaderTracker :=
  { ht with activeHeader := none, ended := true, pendingExtend := false }

def endTableHeaderOnColumnMismatch (p : Patterns) (split : Text) (ht : HeaderTracker) :
    HeaderTracker :=
  match ht.activeHeader with
  | none => ht
  | some header =>
      let rowCols := p.firstTableRowColumnCount split
      let headerCols := headerTableColumnCount header
      if 0 < rowCols ∧ 0 < headerCols ∧ rowCols ≠ headerCols then
        { ht.clearTableHeader with headerEndedThisUnit := true }
      else ht

/-- A table that a paragraph break interrupted ends with the next unit. -/
def breakTable (p : Patterns) (split : Text) (ht : HeaderTracker) : HeaderTracker :=
  if ht.pendingTableBreak then
    let ht := { ht with pendingTableBreak := false }
    if ht.activeHeader.isSome then
      if 0 < p.firstTableRowColumnCount split then
        { ht.clearTableHeader with headerEndedThisUnit := true }
      else ht.clearTableHeader
    else ht
  else ht

def endTable (p : Patterns) (split : Text) (ht : HeaderTracker) : HeaderTracker :=
  if ht.activeHeader.isSome && p.tableEnd split then ht.clearTableHeader else ht

def watchTable (p : Patterns) (split : Text) (ht : HeaderTracker) : HeaderTracker :=
  if ht.activeHeader.isSome && !ht.pendingExtend then
    if splitEndsWithParagraphBreak split then { ht with pendingTableBreak := true }
    else ht.endTableHeaderOnColumnMismatch p split
  else ht

/-- An empty header row takes its columns from the first row of the table. -/
def extendHeader (p : Patterns) (split : Text) (ht : HeaderTracker) : HeaderTracker :=
  if ht.pendingExtend then
    match ht.activeHeader with
    | some header =>
        if p.tableRow split then
          { ht with
            activeHeader := some (split ++ extractSeparatorLine header)
            pendingExtend := false }
        else { ht with pendingExtend := false }
    | none => { ht with pendingExtend := false }
  else ht

def startTable (p : Patterns) (split : Text) (ht : HeaderTracker) : HeaderTracker :=
  if ht.activeHeader.isNone && !ht.ended then
    match p.tableStart split with
    | some loc =>
        { ht with
          activeHeader := some loc
          pendingExtend := ht.pendingExtend || isEmptyTableHeaderRow loc }
    | none => ht
  else ht

def forgetEnded (ht : HeaderTracker) : HeaderTracker :=
  if ht.activeHeader.isNone then { ht with ended := false } else ht

def update (p : Patterns) (split : Text) (ht : HeaderTracker) : HeaderTracker :=
  ({ ht with headerEndedThisUnit := false }.breakTable p split |>.endTable p split
    |>.watchTable p split |>.extendHeader p split |>.startTable p split).forgetEnded

def getHeaders (ht : HeaderTracker) : Text :=
  ht.activeHeader.getD []

/-!
# Headers have a bar
-/

/-- The active header, if there is one, has a bar. -/
def Barred (ht : HeaderTracker) : Prop :=
  forall header, ht.activeHeader = some header -> '|' ∈ header

theorem barred_new : Barred new := by
  intro header h
  cases h

theorem barred_of_eq {ht ht' : HeaderTracker} (h : Barred ht)
    (hkept : ht'.activeHeader = ht.activeHeader ∨ ht'.activeHeader = none) : Barred ht' := by
  intro header hactive
  rcases hkept with hsame | hnone
  · exact h header (hsame.symm.trans hactive)
  · rw [hnone] at hactive
    cases hactive

variable (p : Patterns)

theorem barred_breakTable (split : Text) {ht : HeaderTracker} (h : Barred ht) :
    Barred (ht.breakTable p split) := by
  apply barred_of_eq h
  unfold breakTable
  split
  · dsimp only
    split
    · split
      · exact Or.inr rfl
      · exact Or.inr rfl
    · exact Or.inl rfl
  · exact Or.inl rfl

theorem barred_endTable (split : Text) {ht : HeaderTracker} (h : Barred ht) :
    Barred (ht.endTable p split) := by
  apply barred_of_eq h
  unfold endTable
  split
  · exact Or.inr rfl
  · exact Or.inl rfl

theorem barred_watchTable (split : Text) {ht : HeaderTracker} (h : Barred ht) :
    Barred (ht.watchTable p split) := by
  apply barred_of_eq h
  unfold watchTable
  split
  · split
    · exact Or.inl rfl
    · unfold endTableHeaderOnColumnMismatch
      split
      · exact Or.inl rfl
      · dsimp only
        split
        · exact Or.inr rfl
        · exact Or.inl rfl
  · exact Or.inl rfl

theorem barred_extendHeader (split : Text) {ht : HeaderTracker} (h : Barred ht) :
    Barred (ht.extendHeader p split) := by
  unfold extendHeader
  split
  · split
    · split
      · rename_i hrow
        intro header hactive
        cases hactive
        exact List.mem_append_left _ (p.tableRow_bar split hrow)
      · exact h
    · exact h
  · exact h

theorem barred_startTable (split : Text) {ht : HeaderTracker} (h : Barred ht) :
    Barred (ht.startTable p split) := by
  unfold startTable
  split
  · split
    · rename_i loc hstart
      intro header hactive
      cases hactive
      exact p.tableStart_bar split loc hstart
    · exact h
  · exact h

theorem barred_update (split : Text) {ht : HeaderTracker} (h : Barred ht) :
    Barred (ht.update p split) := by
  have hreset : Barred { ht with headerEndedThisUnit := false } := h
  have hstarted := barred_startTable p split (barred_extendHeader p split
    (barred_watchTable p split (barred_endTable p split (barred_breakTable p split hreset))))
  apply barred_of_eq hstarted
  unfold update forgetEnded
  split
  · exact Or.inl rfl
  · exact Or.inl rfl

end HeaderTracker

/-!
# The recursive splitter

Protected regions stay whole, the text between them is cut at separators, and
the units are merged into chunks.
-/

def hardCap : Nat := 7500

def defaultChunkSize : Nat := 512

def defaultChunkOverlap : Nat := 80

structure SplitUnit where
  text : Text
  start : Nat
  stop : Nat
deriving DecidableEq

/-!
# Protected regions
-/

namespace Patterns

/-- `PROTECTED_PATTERNS`. -/
def protectedPatterns (p : Patterns) : List Pattern :=
  [p.latex, p.image, p.link, p.tableHeader, p.tableRows, p.fence]

/-- The non-empty matches of all patterns, as byte spans. -/
def protectedMatches (p : Patterns) (text : Text) : List Span :=
  (p.protectedPatterns.flatMap fun pat =>
    (pat.findIter text).map (matchBytes text)).filter fun m => decide (m.start < m.stop)

end Patterns

/-- Earlier matches first, longer ones first among those with one start. -/
def spanBefore (a b : Span) : Prop :=
  a.start < b.start ∨ (a.start = b.start ∧ b.stop - b.start ≤ a.stop - a.start)

instance : DecidableRel spanBefore := fun a b =>
  inferInstanceAs (Decidable (a.start < b.start ∨
    (a.start = b.start ∧ b.stop - b.start ≤ a.stop - a.start)))

/-- Keep each span that starts where the last one kept has ended. -/
def keepDisjoint : Nat -> List Span -> List Span
  | _, [] => []
  | lastEnd, m :: ms =>
      if lastEnd ≤ m.start then m :: keepDisjoint m.stop ms else keepDisjoint lastEnd ms

def protectedSpans (p : Patterns) (text : Text) : List Span :=
  keepDisjoint 0 ((p.protectedMatches text).insertionSort spanBefore)

/-- Step over characters up to a byte offset: the characters and bytes passed,
and the rest of the text. -/
def advanceRunes (limit : Nat) : Nat -> Nat -> Text -> Nat × Nat × Text
  | runeIdx, byteIdx, [] => (runeIdx, byteIdx, [])
  | runeIdx, byteIdx, c :: t =>
      if byteIdx < limit then advanceRunes limit (runeIdx + 1) (byteIdx + c.utf8Size) t
      else (runeIdx, byteIdx, c :: t)

def spansToRunes : Nat -> Nat -> Text -> List Span -> List Span
  | _, _, _, [] => []
  | runeIdx, byteIdx, t, s :: rest =>
      let (startRune, byteIdx, t) := advanceRunes s.start runeIdx byteIdx t
      let (stopRune, byteIdx, t) := advanceRunes s.stop startRune byteIdx t
      ⟨startRune, stopRune⟩ :: spansToRunes stopRune byteIdx t rest

def protectedSpansRune (text : Text) (byteSpans : List Span) : List Span :=
  spansToRunes 0 0 text byteSpans

/-!
# Separators
-/

/-- The matches of a literal, left to right and disjoint: `skip` characters
still belong to the last match. -/
def literalMatches (sep : Text) : Nat -> Nat -> Text -> List Span
  | _, _, [] => []
  | pos, skip + 1, _ :: t => literalMatches sep (pos + 1) skip t
  | pos, 0, c :: t =>
      if sep.isPrefixOf (c :: t) then
        ⟨pos, pos + sep.length⟩ :: literalMatches sep (pos + 1) (sep.length - 1) t
      else literalMatches sep (pos + 1) 0 t

/-- The pieces between and at the matches, from position `last` on. -/
def piecesAt (text : Text) : Nat -> List Span -> List Text
  | last, [] => if last < text.length then [text.drop last] else []
  | last, m :: ms =>
      (if last < m.start then [slice text last m.start] else []) ++
        (if m.start < m.stop then [slice text m.start m.stop] else []) ++
        piecesAt text m.stop ms

def splitBySeparators (chunkSize : Nat) : List Text -> Text -> List Text
  | [], text => [text]
  | sep :: remaining, text =>
      if text.isEmpty || (decide (0 < chunkSize) && decide (text.length ≤ chunkSize)) then [text]
      else if sep.isEmpty then splitBySeparators chunkSize remaining text
      else
        let pieces := piecesAt text 0 (literalMatches sep 0 0 text)
        if pieces.length ≤ 1 then splitBySeparators chunkSize remaining text
        else
          pieces.flatMap fun piece =>
            if decide (0 < chunkSize) && decide (chunkSize < piece.length) &&
                !remaining.isEmpty then
              splitBySeparators chunkSize remaining piece
            else [piece]

/-!
# Units
-/

/-- Number the parts of a text from an offset on. -/
def unitsFrom : Nat -> List Text -> List SplitUnit
  | _, [] => []
  | offset, part :: parts =>
      ⟨part, offset, offset + part.length⟩ :: unitsFrom (offset + part.length) parts

/-- The last line feed or blank of the last 200 characters, if there is one. -/
def snapPoint (runes : Text) (offset chunkEnd : Nat) : Option Nat :=
  let snap := max (chunkEnd - 200) offset
  ((List.range' snap (chunkEnd - snap)).reverse).find? fun i =>
    runes[i]? == some '\n' || runes[i]? == some ' '

def forcedEnd (runes : Text) (offset : Nat) : Nat :=
  let chunkEnd := min (offset + hardCap) runes.length
  if chunkEnd < runes.length then
    match snapPoint runes offset chunkEnd with
    | some i => i + 1
    | none => chunkEnd
  else chunkEnd

/-- The forced pieces from an offset on; a text has at most as many pieces as
characters. -/
def forcePieces (runes : Text) (base : Nat) : Nat -> Nat -> List SplitUnit
  | 0, _ => []
  | fuel + 1, offset =>
      if offset < runes.length then
        let chunkEnd := forcedEnd runes offset
        ⟨slice runes offset chunkEnd, base + offset, base + chunkEnd⟩ ::
          forcePieces runes base fuel chunkEnd
      else []

def forceSplitRunes (text : Text) (base : Nat) : List SplitUnit :=
  forcePieces text base text.length 0

def protectedUnits (protText : Text) (runePos : Nat) : List SplitUnit :=
  if hardCap < protText.length then forceSplitRunes protText runePos
  else [⟨protText, runePos, runePos + protText.length⟩]

/-- The units from a byte position, and the rune position that belongs to it, on. -/
def unitsBetween (text : Text) (separators : List Text) (chunkSize : Nat) :
    Nat -> Nat -> List Span -> List SplitUnit
  | bytePos, runePos, [] =>
      if bytePos < byteLen text then
        unitsFrom runePos
          (splitBySeparators chunkSize separators (byteSlice text bytePos (byteLen text)))
      else []
  | bytePos, runePos, p :: ps =>
      let pre := byteSlice text bytePos p.start
      let before :=
        if bytePos < p.start then
          unitsFrom runePos (splitBySeparators chunkSize separators pre)
        else []
      let runePos := if bytePos < p.start then runePos + pre.length else runePos
      let protText := byteSlice text p.start p.stop
      before ++ protectedUnits protText runePos ++
        unitsBetween text separators chunkSize p.stop (runePos + protText.length) ps

def buildUnitsWithProtection (text : Text) (protectedRegions : List Span)
    (separators : List Text) (chunkSize : Nat) : List SplitUnit :=
  unitsBetween text separators chunkSize 0 0 protectedRegions

/-!
# Merging
-/

def unitsText (units : List SplitUnit) : Text :=
  units.flatMap SplitUnit.text

/-- A chunk of the units collected; there is at least one. -/
def buildChunk (units : List SplitUnit) (seq : Nat) : TextChunk where
  content := unitsText units
  contextHeader := []
  seq := seq
  start := (units.head?.map SplitUnit.start).getD 0
  stop := (units.getLast?.map SplitUnit.stop).getD 0

def isSeparatorOnly (s : Text) : Bool :=
  s.all fun r => r == '\n' || r == '\r' || r == ' ' || r == '\t' || r == '。'

/-- The longest run of last units within the overlap, collected from the last
unit back, and its length. -/
def overlapTail (chunkOverlap chunkSize nextLen : Nat) :
    List SplitUnit -> List SplitUnit -> Nat -> List SplitUnit × Nat
  | [], kept, overlapLen => (kept, overlapLen)
  | u :: before, kept, overlapLen =>
      if chunkOverlap < overlapLen + u.text.length then (kept, overlapLen)
      else if chunkSize < overlapLen + u.text.length + nextLen then (kept, overlapLen)
      else overlapTail chunkOverlap chunkSize nextLen before (u :: kept)
        (overlapLen + u.text.length)

/-- Header markers, blank units and separators do not start an overlap. -/
def trimOverlap : List SplitUnit -> Nat -> List SplitUnit × Nat
  | [], _ => ([], 0)
  | u :: rest, overlapLen =>
      if u.start == u.stop || isBlank u.text || isSeparatorOnly u.text then
        trimOverlap rest (overlapLen - u.text.length)
      else (u :: rest, overlapLen)

def computeOverlap (current : List SplitUnit) (chunkOverlap chunkSize nextLen : Nat) :
    List SplitUnit × Nat :=
  if chunkOverlap = 0 then ([], 0)
  else
    let (kept, overlapLen) := overlapTail chunkOverlap chunkSize nextLen current.reverse [] 0
    trimOverlap kept overlapLen

structure MergeState where
  ht : HeaderTracker
  chunks : List TextChunk
  current : List SplitUnit
  curLen : Nat
deriving DecidableEq

namespace MergeState

def start : MergeState where
  ht := HeaderTracker.new
  chunks := []
  current := []
  curLen := 0

/-- Push the units collected as a chunk and start over. -/
def flush (s : MergeState) : MergeState :=
  { s with
    chunks := s.chunks ++ [buildChunk s.current s.chunks.length]
    current := []
    curLen := 0 }

def flushNonempty (s : MergeState) : MergeState :=
  if s.current.isEmpty then s else s.flush

/-- Push pieces of a unit that is longer than the cap. -/
def pushPieces (s : MergeState) (pieces : List SplitUnit) : MergeState :=
  { s with
    chunks := pieces.foldl (fun chunks piece =>
      chunks ++ [⟨piece.text, [], chunks.length, piece.start, piece.stop⟩]) s.chunks }

/-- Drop overlap units from the front until the header and the unit fit. -/
def shrink (chunkSize extra : Nat) : List SplitUnit -> Nat -> List SplitUnit × Nat
  | [], curLen => ([], curLen)
  | u :: rest, curLen =>
      if chunkSize < curLen + extra then shrink chunkSize extra rest (curLen - u.text.length)
      else (u :: rest, curLen)

/-- Put the active header in front of the units collected. -/
def injectHeader (p : Patterns) (chunkSize : Nat) (headers : Text) (u : SplitUnit)
    (s : MergeState) : MergeState :=
  if !headers.isEmpty && decide (headers.length + u.text.length ≤ chunkSize) then
    let (current, curLen) := shrink chunkSize (u.text.length + headers.length) s.current s.curLen
    if !headerAlreadyPresent headers (unitsText current) u.text &&
        !p.headerColumnMismatch headers u.text then
      let startPos := (current.head?.map SplitUnit.start).getD u.start
      { s with
        current := ⟨headers, startPos, startPos⟩ :: current
        curLen := curLen + headers.length }
    else { s with current := current, curLen := curLen }
  else s

/-- Close the chunk a unit does not fit into and start the next one with the
overlap and the header. -/
def overflow (p : Patterns) (chunkSize chunkOverlap : Nat) (headers : Text) (u : SplitUnit)
    (s : MergeState) : MergeState :=
  if decide (chunkSize < s.curLen + u.text.length + headers.length) && !s.current.isEmpty then
    let (ov, ovLen) := computeOverlap s.current chunkOverlap chunkSize u.text.length
    injectHeader p chunkSize headers u { s.flush with current := ov, curLen := ovLen }
  else s

def capCurrent (u : SplitUnit) (s : MergeState) : MergeState :=
  if hardCap < s.curLen + u.text.length then s.flushNonempty else s

def push (u : SplitUnit) (s : MergeState) : MergeState :=
  { s with current := s.current ++ [u], curLen := s.curLen + u.text.length }

/-- Headers longer than a chunk are not repeated. -/
def usableHeaders (chunkSize : Nat) (ht : HeaderTracker) : Text :=
  if chunkSize < ht.getHeaders.length then [] else ht.getHeaders

/-- A unit within the cap. -/
def mergeUnit (p : Patterns) (chunkSize chunkOverlap : Nat) (u : SplitUnit) (s : MergeState) :
    MergeState :=
  let s := { s with ht := s.ht.update p u.text }
  let s := if s.ht.headerEndedThisUnit then s.flushNonempty else s
  push u (capCurrent u
    (overflow p chunkSize chunkOverlap (usableHeaders chunkSize s.ht) u s))

/-- A unit longer than the cap. -/
def mergeOversize (p : Patterns) (u : SplitUnit) (s : MergeState) : MergeState :=
  let s := s.flushNonempty
  { s with ht := s.ht.update p u.text }.pushPieces (forceSplitRunes u.text u.start)

def step (p : Patterns) (chunkSize chunkOverlap : Nat) (s : MergeState) (u : SplitUnit) :
    MergeState :=
  if hardCap < u.text.length then mergeOversize p u s
  else mergeUnit p chunkSize chunkOverlap u s

end MergeState

def mergeUnits (p : Patterns) (units : List SplitUnit) (chunkSize chunkOverlap : Nat) :
    List TextChunk :=
  (units.foldl (MergeState.step p chunkSize chunkOverlap) MergeState.start).flushNonempty.chunks

def splitText (p : Patterns) (text : Text) (chunkSize chunkOverlap : Nat)
    (separators : List Text) : List TextChunk :=
  if text.isEmpty then []
  else
    let chunkSize := if chunkSize = 0 then defaultChunkSize else chunkSize
    let units := buildUnitsWithProtection text (protectedSpans p text) separators chunkSize
    mergeUnits p units chunkSize chunkOverlap

end Chunker
end KnowledgeBrain
