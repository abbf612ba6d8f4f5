import KnowledgeBrain.DocReader.Schema

/-!
# Grids on both sides

The host checks a grid again before it uses it, and both sides name a grid by
the digest of one framing of its numbers and texts.  What the reader lets
through the host accepts, and what both frame is the same bytes.
-/

namespace KnowledgeBrain
namespace DocReader

open Foundation
open Chunker (Text byteLen)

section

/-!
# The check of the host
-/

local instance : LawfulBEq Slot :=
  inferInstanceAs (LawfulBEq (Nat × Nat))

/-- The loop of `validate_table_grid`. -/
def checkCell (rowCount columnCount : Nat) (s : Tiling) (cell : TableCell) :
    Except String Tiling := do
  reject (¬ Inside rowCount columnCount cell ∨ cell.slot ∈ s.seen)
    "DocReader returned invalid table grid cell"
  let seen := cell.slot :: s.seen
  let occupied ← cell.slots.foldlM
    (occupy "DocReader returned overlapping table grid spans"
      "DocReader returned covered table grid slot" seen cell.slot) s.occupied
  return ⟨seen, occupied⟩

/-- `validate_table_grid`. -/
def validateTableGrid (grid : TableGrid) : Except String Unit := do
  reject (grid.rowCount = 0 ∨ grid.columnCount = 0) "DocReader returned empty table grid"
  let s ← grid.cells.foldlM (checkCell grid.rowCount grid.columnCount) ⟨[], []⟩
  reject (s.occupied.length ≠ grid.rowCount * grid.columnCount)
    "DocReader returned table grid that does not tile"
  reject ((grid.widthsMm.all fun widths => decide (CoversColumns grid.columnCount widths)) = false)
    "DocReader returned invalid table grid widths"

theorem foldlM_of_ok {Error Error' State Item : Type} {body : State -> Item -> Except Error State}
    {body' : State -> Item -> Except Error' State}
    (h : forall s item s', body s item = .ok s' -> body' s item = .ok s') {items : List Item}
    {s s' : State} (hrun : items.foldlM body s = .ok s') : items.foldlM body' s = .ok s' := by
  induction items generalizing s with
  | nil =>
      cases hrun
      rfl
  | cons item items ih =>
      rw [List.foldlM_cons] at hrun ⊢
      rcases bind_eq_ok hrun with ⟨middle, hfirst, hrest⟩
      rw [h s item middle hfirst]
      exact ih hrest

theorem occupy_ok {Error Error' : Type} {overlap covered : Error} {overlap' covered' : Error'}
    {seen occupied occupied' : List Slot} {owner slot : Slot}
    (h : occupy overlap covered seen owner occupied slot = .ok occupied') :
    occupy overlap' covered' seen owner occupied slot = .ok occupied' := by
  rcases bind_eq_ok h with ⟨_, hfree, h⟩
  rcases bind_eq_ok h with ⟨_, hcovered, h⟩
  cases h
  unfold occupy
  rw [reject_bind (reject_eq_ok.mp hfree), reject_bind (reject_eq_ok.mp hcovered)]
  rfl

theorem checkCell_of_placeCell {rowCount columnCount : Nat} {s s' : Tiling} {cell : TableCell}
    (h : placeCell rowCount columnCount s cell = .ok s') :
    checkCell rowCount columnCount s cell = .ok s' := by
  rcases bind_eq_ok h with ⟨_, hfresh, h⟩
  rcases bind_eq_ok h with ⟨_, hinside, h⟩
  rcases bind_eq_ok h with ⟨occupied, hslots, h⟩
  cases h
  have hfree : ¬ (¬ Inside rowCount columnCount cell ∨ cell.slot ∈ s.seen) :=
    not_or.mpr ⟨reject_eq_ok.mp hinside, reject_eq_ok.mp hfresh⟩
  unfold checkCell
  rw [reject_bind hfree]
  have hslots' : cell.slots.foldlM
      (occupy "DocReader returned overlapping table grid spans"
        "DocReader returned covered table grid slot" (cell.slot :: s.seen) cell.slot) s.occupied =
      .ok occupied := foldlM_of_ok (fun _ _ _ => occupy_ok) hslots
  exact ok_bind hslots'

theorem validateTableGrid_of_sparse {grid : TableGrid}
    (h : validateSparseTableGrid grid = .ok ()) : validateTableGrid grid = .ok () := by
  rcases bind_eq_ok h with ⟨_, hdimensions, h⟩
  rcases bind_eq_ok h with ⟨s, hcells, h⟩
  rcases bind_eq_ok h with ⟨_, htiles, hwidths⟩
  have hdimensions := reject_eq_ok.mp hdimensions
  have hcells' := foldlM_of_ok (fun _ _ _ => checkCell_of_placeCell) hcells
  unfold validateTableGrid
  rw [reject_bind (by omega), ok_bind hcells', reject_bind (reject_eq_ok.mp htiles)]
  exact reject_eq_ok.mpr (reject_eq_ok.mp hwidths)

theorem Grid.accepted (grid : Grid) : validateTableGrid grid.toTableGrid = .ok () :=
  validateTableGrid_of_sparse grid.valid

/-!
# Framing
-/

/-- The most significant byte first. -/
def bigEndian : Nat -> Nat -> List UInt8
  | 0, _ => []
  | width + 1, n => UInt8.ofNat (n / 256 ^ width % 256) :: bigEndian width n

/-- The UTF-8 encoding. -/
def encode (t : Text) : List UInt8 :=
  t.flatMap String.utf8EncodeChar

theorem length_encode (t : Text) : (encode t).length = byteLen t := by
  induction t with
  | nil =>
      rfl
  | cons c t ih =>
      rw [Chunker.byteLen_cons, ← ih]
      simp [encode]

def gridMagic : List UInt8 :=
  encode "docreader-grid-v2".toList ++ [0]

def compareCells (a b : TableCell) : Ordering :=
  (compare a.row b.row).then (compare a.column b.column)

/-- `struct.pack(">I", n)`. -/
def packU32 (n : Nat) : Except Fault (List UInt8) :=
  if n < 2 ^ 32 then .ok (bigEndian 4 n) else .error (.structError "argument out of range")

/-- `struct.pack(">Q", n)`. -/
def packU64 (n : Nat) : Except Fault (List UInt8) :=
  if n < 2 ^ 64 then .ok (bigEndian 8 n) else .error (.structError "argument out of range")

def packAll (numbers : List Nat) : Except Fault (List UInt8) :=
  return (← numbers.mapM packU32).flatten

def packCell (cell : TableCell) : Except Fault (List UInt8) := do
  let text := encode cell.text
  let numbers ← packAll [cell.row, cell.column, cell.rowSpan, cell.colSpan]
  let length ← packU64 text.length
  return numbers ++ length ++ text

def packWidth (w : Width) : List UInt8 :=
  bigEndian 8 w.bits

/-- What `grid_digest` feeds to its hash. -/
def gridFrame (grid : TableGrid) : Except Fault (List UInt8) := do
  let header ← packAll [grid.rowCount, grid.columnCount, grid.cells.length]
  let cells ← (sortBy compareCells grid.cells).mapM packCell
  let widths := grid.widthsMm.getD []
  let count ← packU32 widths.length
  return gridMagic ++ header ++ cells.flatten ++ count ++ widths.flatMap packWidth

/-- `to_be_bytes` of a `u32`. -/
def u32Bytes (n : Nat) : List UInt8 :=
  bigEndian 4 (n % 2 ^ 32)

/-- `to_be_bytes` of a `u64`. -/
def u64Bytes (n : Nat) : List UInt8 :=
  bigEndian 8 (n % 2 ^ 64)

def cellBytes (cell : TableCell) : List UInt8 :=
  [cell.row, cell.column, cell.rowSpan, cell.colSpan].flatMap u32Bytes ++
    u64Bytes (byteLen cell.text) ++ encode cell.text

/-- What `table_grid_digest` feeds to its hash. -/
def tableGridBytes (grid : TableGrid) : List UInt8 :=
  let widths := grid.widthsMm.getD []
  gridMagic ++ u32Bytes grid.rowCount ++ u32Bytes grid.columnCount ++ u32Bytes grid.cells.length ++
    (sortBy compareCells grid.cells).flatMap cellBytes ++ u32Bytes widths.length ++
    widths.flatMap packWidth

variable {bytes : List UInt8}

theorem packU32_eq_ok {n : Nat} (h : packU32 n = .ok bytes) :
    bytes = u32Bytes n := by
  unfold packU32 at h
  split at h
  · rename_i hlt
    cases h
    rw [u32Bytes, Nat.mod_eq_of_lt hlt]
  · cases h

theorem packU64_eq_ok {n : Nat} (h : packU64 n = .ok bytes) :
    bytes = u64Bytes n := by
  unfold packU64 at h
  split at h
  · rename_i hlt
    cases h
    rw [u64Bytes, Nat.mod_eq_of_lt hlt]
  · cases h

theorem flatten_of_mapM {A : Type} {f : A -> Except Fault (List UInt8)} {g : A -> List UInt8}
    (h : forall a bytes, f a = .ok bytes -> bytes = g a) {items : List A}
    {pieces : List (List UInt8)} (hpieces : items.mapM f = .ok pieces) :
    pieces.flatten = items.flatMap g := by
  have hmap := map_of_mapM (p := id) (q := g) (fun a b hb => h a b hb) hpieces
  rw [List.map_id] at hmap
  rw [hmap, List.flatMap_def]

theorem packAll_eq_ok {numbers : List Nat} (h : packAll numbers = .ok bytes) :
    bytes = numbers.flatMap u32Bytes := by
  rcases bind_eq_ok h with ⟨pieces, hpieces, h⟩
  cases h
  exact flatten_of_mapM (fun _ _ => packU32_eq_ok) hpieces

theorem packCell_eq_ok {cell : TableCell} (h : packCell cell = .ok bytes) :
    bytes = cellBytes cell := by
  rcases bind_eq_ok h with ⟨numbers, hnumbers, h⟩
  rcases bind_eq_ok h with ⟨length, hlength, h⟩
  cases h
  rw [packAll_eq_ok hnumbers, packU64_eq_ok hlength, length_encode]
  rfl

theorem gridFrame_eq_ok {grid : TableGrid} (h : gridFrame grid = .ok bytes) :
    bytes = tableGridBytes grid := by
  rcases bind_eq_ok h with ⟨header, hheader, h⟩
  rcases bind_eq_ok h with ⟨cells, hcells, h⟩
  rcases bind_eq_ok h with ⟨count, hcount, h⟩
  cases h
  rw [packAll_eq_ok hheader, flatten_of_mapM (fun _ _ => packCell_eq_ok) hcells,
    packU32_eq_ok hcount]
  simp [tableGridBytes]

end

/-!
# Rendering

The text of a document is rendered from its units, and the bytes that each
unit took are noted on the way.  The rows of a spreadsheet hold every value,
so its tables have no text of their own and point at the rows they cover.
-/

/-!
## Texts
-/

/-- `str.split`, for a separator that is not empty: what was read since the last one, and how
much of the last one is still to be skipped. -/
def splitFrom (sep : Text) : Nat -> Text -> Text -> List Text
  | _, current, [] => [current]
  | skip + 1, current, _ :: t => splitFrom sep skip current t
  | 0, current, c :: t =>
      if sep.isPrefixOf (c :: t) = true then current :: splitFrom sep (sep.length - 1) [] t
      else splitFrom sep 0 (current ++ [c]) t

def splitText (sep t : Text) : List Text :=
  splitFrom sep 0 [] t

/-- Where the separator occurs last. -/
def lastIndexOf (sep : Text) : Text -> Option Nat
  | [] => none
  | c :: t =>
      match lastIndexOf sep t with
      | some i => some (i + 1)
      | none => if sep.isPrefixOf (c :: t) = true then some 0 else none

def replaceChar (c : Char) (replacement : Text) (t : Text) : Text :=
  t.flatMap fun x => if x = c then replacement else [x]

def joinTexts (sep : Text) (texts : List Text) : Text :=
  List.intercalate sep texts

/-- What separates the headings of a path. -/
def arrow : Text :=
  " > ".toList

/-- `path.rsplit(" > ", 1)[0] if " > " in path else ""`. -/
def parentPath (path : Text) : Text :=
  match lastIndexOf arrow path with
  | some i => path.take i
  | none => []

theorem splitFrom_ne_nil (sep : Text) (skip : Nat) (current t : Text) :
    splitFrom sep skip current t ≠ [] := by
  induction t generalizing skip current with
  | nil =>
      cases skip with
      | zero => exact List.cons_ne_nil _ _
      | succ skip => exact List.cons_ne_nil _ _
  | cons c t ih =>
      cases skip with
      | zero =>
          unfold splitFrom
          split
          · exact List.cons_ne_nil _ _
          · exact ih _ _
      | succ skip =>
          exact ih _ _

theorem lastIndexOf_lt {sep t : Text} {i : Nat} (h : lastIndexOf sep t = some i) :
    i < t.length := by
  induction t generalizing i with
  | nil =>
      cases h
  | cons c t ih =>
      unfold lastIndexOf at h
      split at h
      · rename_i j hj
        cases h
        exact Nat.succ_lt_succ (ih hj)
      · split at h
        · cases h
          exact Nat.succ_pos _
        · cases h

theorem parentPath_ne {path : Text} (h : path ≠ []) : parentPath path ≠ path := by
  intro heq
  unfold parentPath at heq
  split at heq
  · rename_i i hi
    have hlt := lastIndexOf_lt hi
    have hlength := congrArg List.length heq
    rw [List.length_take] at hlength
    omega
  · exact h heq.symm

/-!
## One unit
-/

/-- `_grid_markdown.escaped`. -/
def escaped (t : Text) : Text :=
  replaceChar '\n' "<br>".toList <| replaceChar '\t' "&#9;".toList <|
    replaceChar '|' "&#124;".toList <| replaceChar '>' "&gt;".toList <|
    replaceChar '<' "&lt;".toList <| replaceChar '&' "&amp;".toList t

def barRow (texts : List Text) : Text :=
  "| ".toList ++ joinTexts " | ".toList texts ++ " |".toList

/-- The text of the last cell that starts at the slot. -/
def cellText (grid : TableGrid) (slot : Slot) : Text :=
  ((grid.cells.reverse.find? fun cell => cell.slot == slot).map TableCell.text).getD []

/-- `_grid_markdown`. -/
def gridMarkdown (grid : TableGrid) : Text :=
  joinTexts "\n".toList <| (List.range grid.rowCount).flatMap fun row =>
    let line := barRow <| (List.range grid.columnCount).map fun column =>
      escaped (cellText grid (row, column))
    if row = 0 then [line, barRow (List.replicate grid.columnCount "---".toList)] else [line]

/-- `Path(ref).name`. -/
def pathName (ref : Text) : Text :=
  ((splitText ['/'] ref).filter fun part => part != [] && part != ['.']).getLastD []

def isSheetMedia (media : String) : Bool :=
  media == "xlsx" || media == "xls"

def isWordMedia (media : String) : Bool :=
  media == "docx" || media == "doc"

/-- The first line of a section is marked as a heading where its path is seen first. -/
def renderSection (emitted : List Text) (headingPath rendered : Text) : Text × List Text :=
  let headings := if headingPath = [] then [] else splitText arrow headingPath
  let first := rendered.takeWhile (· != '\n')
  let rest := rendered.dropWhile (· != '\n')
  if headings ≠ [] ∧ headings.getLast? = some first ∧ headingPath ∉ emitted then
    (List.replicate (min 6 headings.length) '#' ++ ' ' :: (first ++ rest), headingPath :: emitted)
  else (rendered, emitted)

def SourceLocator.isImage : SourceLocator -> Bool
  | .image _ => true
  | _ => false

/-- What a unit is rendered as; sections that were marked are remembered. -/
def renderUnit (media : String) (emitted : List Text) (unit : SourceUnit) : Text × List Text :=
  if isSheetMedia media = true ∧ unit.locator.isImage = false then
    (if unit.kind = .tableRow then unit.text else [], emitted)
  else
    match unit.grid with
    | some grid => (gridMarkdown grid.toTableGrid, emitted)
    | none =>
        match unit.locator with
        | .image place =>
            ("![".toList ++ pathName place.originalRef ++ "](".toList ++ place.originalRef ++
              ")".toList, emitted)
        | .document place =>
            if isWordMedia media = true then renderSection emitted place.headingPath unit.text
            else (unit.text, emitted)
        | _ => (unit.text, emitted)

/-!
## All units
-/

structure RenderedSpan where
  startByte : Nat
  endByte : Nat
deriving DecidableEq

abbrev SpanTable := Table String (List RenderedSpan)

structure RenderState where
  /-- The parts, joined; no part is empty. -/
  content : Text
  offset : Nat
  spans : SpanTable
  emitted : List Text

def renderStep (media : String) (s : RenderState) (unit : SourceUnit) : RenderState :=
  let (rendered, emitted) := renderUnit media s.emitted unit
  let spans := s.spans.upsert unit.key [] fun _ => []
  if rendered = [] then { s with spans := spans, emitted := emitted }
  else
    let content := if s.content = [] then [] else s.content ++ "\n\n".toList
    let start := if s.content = [] then s.offset else s.offset + 2
    let stop := start + byteLen rendered
    { content := content ++ rendered
      offset := stop
      spans := spans.modify unit.key (· ++ [⟨start, stop⟩])
      emitted := emitted }

/-- The row is one of the rows of the region. -/
def isRowOf (target : SpreadsheetPlace) (row : SourceUnit) : Bool :=
  match row.locator with
  | .spreadsheet source =>
      row.kind == .tableRow && source.sheetOrdinal == target.sheetOrdinal &&
        decide (target.region.startRow ≤ source.region.startRow) &&
        decide (source.region.startRow ≤ target.region.endRow)
  | _ => false

/-- `spans[unit.key].extend(spans[row.key])`. -/
def extendSpans (key : String) (spans : SpanTable) (row : SourceUnit) : SpanTable :=
  spans.modify key (· ++ (spans.lookup row.key).getD [])

/-- A table of a spreadsheet takes over the spans of its rows. -/
def borrowSpans (units : List SourceUnit) (spans : SpanTable) (unit : SourceUnit) : SpanTable :=
  match unit.grid, unit.locator with
  | some _, .spreadsheet target =>
      (units.filter (isRowOf target)).foldl (extendSpans unit.key) spans
  | _, _ => spans

/-- `render_units`. -/
def renderUnits (units : List SourceUnit) (media : String) : Text × SpanTable :=
  let s := units.foldl (renderStep media) ⟨[], 0, Table.empty, []⟩
  if isSheetMedia media = true then (s.content, units.foldl (borrowSpans units) s.spans)
  else (s.content, s.spans)

/-!
## The source contract

The reader emits, beside the text, one record for each unit: what it is, which
section owns it, where it lies and which bytes it became.  The host checks
every record against what was transported before it trusts any of them.
-/

def isHexDigit (c : Char) : Bool :=
  ('0' ≤ c && c ≤ '9') || ('a' ≤ c && c ≤ 'f') || ('A' ≤ c && c ≤ 'F')

/-- SHA-256 as both sides print it. -/
structure Sha256 where
  hex : List UInt8 -> String
  printed : forall bytes, (hex bytes).toList.length = 64 ∧
    (hex bytes).toList.all isHexDigit = true

inductive Completeness where
  | complete
  | partial_
  | failed
deriving DecidableEq

/-- `SourceUnitIdentity`. -/
structure SourceUnitIdentity where
  unitId : String
  ordinal : Nat
  kind : UnitKind
  textSha256 : String
  gridSha256 : Option String
  sectionId : Option String
  parentSectionId : Option String
  headingLevel : Option Nat
  headingPath : Text
  physicalLocator : Option SourceLocator
  physicalPath : Option String
  physicalLocatorUnavailableReason : Option String
  renderedSpans : List RenderedSpan
  completeness : Completeness
  reasons : List String
  tableId : Option String
  headerCells : List HeaderCell

/-- `SourceContract` of a document without pages. -/
structure SourceContract where
  schemaVersion : Nat
  documentRevision : String
  parserVersion : String
  markdownSha256 : String
  units : List SourceUnitIdentity

/-- A document as it leaves the reader. -/
structure Document where
  content : Text
  /-- The images by their reference. -/
  images : List (Text × List UInt8)
  units : List SourceUnit
  sourceContract : Option SourceContract

/-!
## The reader
-/

/-- `grid_digest`. -/
def gridDigest (sha256 : Sha256) (grid : Option Grid) : Except Fault (Option String) :=
  match grid with
  | none => return none
  | some grid => return some (sha256.hex (← gridFrame grid.toTableGrid))

/-- The maps that `attach_source_contract` keeps while it goes through the units. -/
structure Sections where
  paths : Table String Text
  current : Option String
  owners : Table Nat String

def ownerOf (s : Sections) (sectionOrdinal : Nat) : String :=
  (s.owners.lookup sectionOrdinal).getD ("section:" ++ toString sectionOrdinal)

def pathOf (s : Sections) (owner : String) : Text :=
  (s.paths.lookup owner).getD []

/-- The section a unit names, the path it gives to it, and the owners from then on. -/
def namedSection (s : Sections) (unit : SourceUnit) :
    Option (String × Text) × Table Nat String :=
  match unit.locator with
  | .document place =>
      let owner := match unit.sourceSectionId with
        | some id => if id = "" then ownerOf s place.sectionOrdinal else id
        | none => ownerOf s place.sectionOrdinal
      (some (owner, place.headingPath), s.owners.upsert place.sectionOrdinal owner fun _ => owner)
  | .spreadsheet place =>
      (some ("sheet:" ++ toString place.sheetOrdinal, place.sheetName), s.owners)
  | .image place =>
      match place.compoundParent with
      | some parent =>
          let owner := ownerOf s parent.sectionOrdinal
          (some (owner, pathOf s owner), s.owners)
      | none => (none, s.owners)
  | .attachment _ _ => (none, s.owners)

/-- The section and the path of a unit; what names none belongs to the current section. -/
def assignSection (s : Sections) (unit : SourceUnit) : (Option String × Text) × Sections :=
  match namedSection s unit with
  | (some (owner, headingPath), owners) =>
      ((some owner, headingPath),
        ⟨s.paths.upsert owner headingPath fun _ => headingPath, some owner, owners⟩)
  | (none, owners) =>
      ((s.current, (s.current.map (pathOf s)).getD []), { s with owners := owners })

/-- Why a unit is incomplete. -/
def incompleteReasons (render : Bool) (images : List (Text × List UInt8)) (unit : SourceUnit) :
    List String :=
  unit.sourceIssues ++
    (if render = true then [] else ["render_mapping_unavailable"]) ++
    (if unit.kind = .attachmentRegion then ["attachment_content_not_extracted"] else []) ++
    match unit.locator with
    | .image place =>
        if (images.any fun image => image.1 == place.originalRef) = true then []
        else ["image_payload_missing"]
    | _ => []

/-- One round of the loop of `attach_source_contract`; the parent is found later. -/
def identify (sha256 : Sha256) (render : Bool) (images : List (Text × List UInt8))
    (spans : SpanTable) (state : Sections × List SourceUnitIdentity) (unit : SourceUnit) :
    Except Fault (Sections × List SourceUnitIdentity) := do
  reject (unit.ordinal ≠ state.2.length)
    (.valueError "source contract requires contiguous parser ordinals")
  let ((owner, headingPath), sections) := assignSection state.1 unit
  let reasons := incompleteReasons render images unit
  let gridSha256 ← gridDigest sha256 unit.grid
  let identity : SourceUnitIdentity := {
    unitId := unit.key
    ordinal := unit.ordinal
    kind := unit.kind
    textSha256 := sha256.hex (encode unit.text)
    gridSha256 := gridSha256
    sectionId := owner
    parentSectionId := none
    headingLevel := if headingPath = [] then none
      else some (splitText arrow headingPath).length
    headingPath := headingPath
    physicalLocator := some (unit.physicalLocator.getD unit.locator)
    physicalPath := unit.physicalPath
    physicalLocatorUnavailableReason := none
    renderedSpans := (spans.lookup unit.key).getD []
    completeness := if reasons = [] then .complete else .partial_
    reasons := reasons
    tableId := unit.grid.map fun _ => unit.key
    headerCells := unit.headerCells }
  return (sections, state.2 ++ [identity])

/-- The parent is the section that was last at the path above. -/
def adopt (byPath : Table Text (Option String)) :
    List SourceUnitIdentity -> List SourceUnitIdentity
  | [] => []
  | identity :: rest =>
      if identity.headingPath = [] then identity :: adopt byPath rest
      else
        { identity with
          parentSectionId := (byPath.lookup (parentPath identity.headingPath)).join } ::
          adopt (byPath.upsert identity.headingPath identity.sectionId
            fun _ => identity.sectionId) rest

/-- `{"xlsm": "xlsx"}.get(media, media)`. -/
def mediaOf (media : String) : String :=
  if media = "xlsm" then "xlsx" else media

/-- The images that units refer to. -/
def requiredImages (units : List SourceUnit) : List Text :=
  units.filterMap fun unit =>
    match unit.locator with
    | .image place => some place.originalRef
    | _ => none

/-- `parser_version`, from the files of the parsers. -/
def parserVersion (sha256 : Sha256) (files : List (List UInt8)) : String :=
  "docreader-source-v2/" ++ sha256.hex files.flatten

/-- `attach_source_contract` for a document whose metadata has no page count. -/
def attachSourceContract (sha256 : Sha256) (files : List (List UInt8)) (document : Document)
    (source : List UInt8) (media : String) (render : Bool) : Except Fault Document :=
  let units := document.units
  if units = [] then return document
  else do
    let images := if render = true then
        document.images.filter fun image => image.1 ∈ requiredImages units
      else document.images
    let (content, spans) := if render = true then renderUnits units (mediaOf media)
      else (document.content, units.foldl (fun spans unit =>
        spans.upsert unit.key [] fun _ => []) Table.empty)
    let (_, identities) ← units.foldlM (identify sha256 render images spans)
      (⟨Table.empty, none, Table.empty⟩, [])
    reject (¬ (units.map SourceUnit.key).Nodup)
      (.valueError "source contract requires unique unit identities")
    let contract : SourceContract := {
      schemaVersion := 2
      documentRevision := sha256.hex source
      parserVersion := parserVersion sha256 files
      markdownSha256 := sha256.hex (encode content)
      units := adopt Table.empty identities }
    return { document with
      content := content
      images := images
      sourceContract := some contract }

/-!
## The host
-/

structure ImageRef where
  originalRef : Text
  data : List UInt8
deriving DecidableEq

/-- `ReadResult`; `metadata` holds the contract and no page count. -/
structure ReadResult where
  markdown : Text
  error : String
  images : List ImageRef
  structuredSourceUnits : List StructuredSourceUnit
  sourceContract : Option SourceContract

/-- A document that is transported unchanged. -/
def Document.sent (document : Document) : ReadResult where
  markdown := document.content
  error := ""
  images := document.images.map fun image => ⟨image.1, image.2⟩
  structuredSourceUnits := document.units.map SourceUnit.sent
  sourceContract := document.sourceContract

/-- `str::trim().is_empty()`. -/
def isBlank (s : String) : Bool :=
  s.toList.all Chunker.isWhitespace

/-- `str::is_char_boundary`. -/
def isCharBoundary : Text -> Nat -> Bool
  | [], n => n == 0
  | c :: t, n => n == 0 || decide (c.utf8Size ≤ n) && isCharBoundary t (n - c.utf8Size)

def invalid (message : String) : String :=
  "DocReader source contract: " ++ message

/-- The spans follow each other inside the text. -/
def checkSpan (markdown : Text) (priorEnd : Nat) (span : RenderedSpan) : Except String Nat := do
  reject (span.endByte ≤ span.startByte ∨ span.startByte < priorEnd ∨
      byteLen markdown < span.endByte ∨ isCharBoundary markdown span.startByte = false ∨
      isCharBoundary markdown span.endByte = false)
    (invalid "invalid UTF-8 rendered span")
  return span.endByte

/-- `header` names a cell of the grid. -/
def isAnchor (grid : Option TableGrid) (header : HeaderCell) : Bool :=
  grid.any fun grid => grid.cells.any fun cell =>
    cell.row == header.row && cell.column == header.column

def checkGrid : Option TableGrid -> Except String Unit
  | none => return ()
  | some grid => (validateTableGrid grid).mapError invalid

def checkHeader (grid : Option TableGrid) (header : HeaderCell) : Except String Unit :=
  reject ((header.role ≠ "column_header" ∧ header.role ≠ "row_header") ∨
      isAnchor grid header = false)
    (invalid "header must reference a real grid anchor")

def SourceLocator.isDocument : SourceLocator -> Bool
  | .document _ => true
  | _ => false

/-- The checks of one unit; the keys of the units before it are in `seen`. -/
def checkUnit (sha256 : Sha256) (markdown : Text) (seen : List String)
    (identity : SourceUnitIdentity) (unit : StructuredSourceUnit) :
    Except String (List String) := do
  let ordinal := seen.length
  reject (identity.unitId ≠ unit.key ∨ unit.key = "" ∨ identity.ordinal ≠ ordinal ∨
      unit.ordinal ≠ ordinal ∨ identity.kind ≠ unit.kind ∨
      identity.textSha256 ≠ sha256.hex (encode unit.text) ∨
      identity.gridSha256 ≠ (unit.grid.map fun grid => sha256.hex (tableGridBytes grid)) ∨
      unit.key ∈ seen ∨
      (identity.completeness == .complete) ≠ identity.reasons.isEmpty ∨
      identity.reasons.any isBlank = true ∨ identity.headingLevel = some 0 ∨
      (identity.parentSectionId ≠ none ∧ identity.parentSectionId = identity.sectionId))
    (invalid "invalid unit identity, ordinal or completeness")
  reject (identity.physicalLocator = none ∧
      (identity.physicalLocatorUnavailableReason.any fun reason => !isBlank reason) = false)
    (invalid "missing physical location without explanation")
  reject (unit.locator.isDocument = false ∧ identity.physicalLocator ≠ some unit.locator)
    (invalid "physical locator differs from native carrier")
  let _ ← identity.renderedSpans.foldlM (checkSpan markdown) 0
  reject (unit.grid.isSome ≠ identity.tableId.isSome ∨
      (identity.tableId.any fun table => table != unit.key) = true)
    (invalid "table identity differs from native grid")
  checkGrid unit.grid
  identity.headerCells.forM (checkHeader unit.grid)
  return unit.key :: seen

def checkUnits (sha256 : Sha256) (markdown : Text) :
    List String -> List SourceUnitIdentity -> List StructuredSourceUnit -> Except String Unit
  | seen, identity :: identities, unit :: units => do
      let seen ← checkUnit sha256 markdown seen identity unit
      checkUnits sha256 markdown seen identities units
  | _, _, _ => return ()

/-- `SourceContract::validate` for a contract without pages. -/
def SourceContract.validate (sha256 : Sha256) (contract : SourceContract) (parsed : ReadResult) :
    Except String Unit := do
  reject (contract.schemaVersion ≠ 2 ∨ contract.documentRevision.toList.length ≠ 64 ∨
      contract.documentRevision.toList.all isHexDigit = false ∨
      isBlank contract.parserVersion = true ∨
      contract.markdownSha256 ≠ sha256.hex (encode parsed.markdown) ∨
      contract.units.length ≠ parsed.structuredSourceUnits.length)
    (invalid "version, source identity, rendering digest or unit count mismatch")
  checkUnits sha256 parsed.markdown [] contract.units parsed.structuredSourceUnits

/-- `parse_source_contract`. -/
def parseSourceContract (sha256 : Sha256) (parsed : ReadResult) :
    Except String (Option SourceContract) :=
  match parsed.sourceContract with
  | none => return none
  | some contract => do
      contract.validate sha256 parsed
      return some contract

end DocReader
end KnowledgeBrain
