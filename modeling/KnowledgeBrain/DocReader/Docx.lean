import KnowledgeBrain.DocReader.Schema

/-!
# The units of a Word document

The body is read once, element by element.  Paragraphs are collected until a
heading, a table, a form or a drawing needs a section of its own to refer to;
then they are flushed.  A logical section starts at its heading and may be
flushed several times.
-/

namespace KnowledgeBrain
namespace DocReader

open Foundation
open Chunker (Text)

/-!
# Drawings
-/

/-- A picture reference, with what decoding its payload has shown. -/
inductive Drawing where
  | image (originalRef : Text) (width height : Nat) (mediaType : String)
  | unsupported (partName : String)
deriving DecidableEq

def drawingUnit (compoundParent : CompoundImageParent) (ordinal imageOrdinal : Nat) :
    Drawing -> SourceUnit
  | .image originalRef width height mediaType =>
      { key := "image:" ++ toString imageOrdinal
        ordinal := ordinal
        kind := .imageRegion
        text := []
        locator := .image ⟨originalRef, width, height, mediaType, some compoundParent⟩
        grid := none
        physicalLocator := none
        physicalPath := none
        sourceSectionId := none
        sourceIssues := []
        headerCells := [] }
  | .unsupported partName =>
      { key := "unsupported-image:" ++ toString imageOrdinal
        ordinal := ordinal
        kind := .attachmentRegion
        text := []
        locator := .attachment partName "unsupported_drawing_image"
        grid := none
        physicalLocator := none
        physicalPath := none
        sourceSectionId := none
        sourceIssues := ["drawing_image_missing_or_unsupported"]
        headerCells := [] }

/-- `_drawing_units`, on the units and the ordinal of the next image. -/
def drawingUnits (drawings : List Drawing) (compoundParent : CompoundImageParent)
    (state : List SourceUnit × Nat) : List SourceUnit × Nat :=
  drawings.foldl (fun state drawing =>
    (state.1 ++ [drawingUnit compoundParent state.1.length state.2 drawing], state.2 + 1)) state

/-!
# Tables
-/

inductive VMerge where
  | restart
  | continue_
deriving DecidableEq

/-- `w:tc`. -/
structure Tc where
  gridSpan : Option Nat
  vMerge : Option VMerge
  text : Text
  drawings : List Drawing
deriving DecidableEq

/-- `w:tr`. -/
structure Tr where
  isHeader : Bool
  cells : List Tc
deriving DecidableEq

/-- `w:tbl`; a column of the grid may lack a width. -/
structure Tbl where
  gridCols : Option (List (Option Width))
  rows : List Tr
  hasNestedTable : Bool
deriving DecidableEq

/-- `_tc_grid_span`. -/
def tcGridSpan (tc : Tc) : Nat :=
  max 1 (tc.gridSpan.getD 1)

/-- The cells of a row with the column each starts at. -/
def placedCells (column : Nat) : List Tc -> List (Nat × Tc)
  | [] => []
  | tc :: rest => (column, tc) :: placedCells (column + tcGridSpan tc) rest

/-- Every cell with its row and column. -/
def placedTcs (tbl : Tbl) : List (Slot × Tc) :=
  tbl.rows.zipIdx.flatMap fun row =>
    (placedCells 0 row.1.cells).map fun placed => ((row.2, placed.1), placed.2)

def columnsOf (column span : Nat) : List Nat :=
  List.range' column span

/-- `continue_slots`. -/
def continueSlots (tbl : Tbl) : List Slot :=
  (placedTcs tbl).flatMap fun placed =>
    if placed.2.vMerge = some .continue_ then
      (columnsOf placed.1.2 (tcGridSpan placed.2)).map fun column => (placed.1.1, column)
    else []

/-- The cells that start a merge, or are not merged. -/
def startCells (tbl : Tbl) : List (Slot × Tc) :=
  (placedTcs tbl).filter fun placed => placed.2.vMerge != some .continue_

def tableRowCount (tbl : Tbl) : Nat :=
  tbl.rows.length

def tableColumnCount (tbl : Tbl) : Nat :=
  match tbl.gridCols with
  | some columns => columns.length
  | none => (tbl.rows.map fun tr => (tr.cells.map tcGridSpan).sum).foldl max 0

/-- How many rows the cell goes on for. -/
def rowSpan (tbl : Tbl) (placed : Slot × Tc) : Nat :=
  let below := List.range' (placed.1.1 + 1) (tableRowCount tbl - (placed.1.1 + 1))
  1 + (below.takeWhile fun row =>
    (columnsOf placed.1.2 (tcGridSpan placed.2)).all fun column =>
      (continueSlots tbl).contains (row, column)).length

/-- `_tbl_grid_widths_mm`. -/
def tblGridWidthsMm (tbl : Tbl) : Option (List Width) := do
  let columns ← tbl.gridCols
  let widths ← columns.mapM fun column => column
  if widths.all Width.isPositive = true ∧ widths ≠ [] then some widths else none

def comparePlaced (a b : Slot × Tc) : Ordering :=
  (compare a.1.1 b.1.1).then (compare a.1.2 b.1.2)

/-- `_docx_table_anchors`. -/
def docxTableAnchors (tbl : Tbl) : Except Fault (Grid × List (Slot × Tc)) := do
  let anchors := sortBy comparePlaced (startCells tbl)
  let grid ← TableGrid.build {
    rowCount := max 1 (tableRowCount tbl)
    columnCount := max 1 (tableColumnCount tbl)
    cells := anchors.map fun placed =>
      ⟨placed.1.1, placed.1.2, rowSpan tbl placed, tcGridSpan placed.2, placed.2.text⟩
    widthsMm := tblGridWidthsMm tbl }
  return (grid, anchors)

/-- `rows_are_headers`. -/
def rowsAreHeaders (tbl : Tbl) (row : Nat) : Bool :=
  (tbl.rows[row]?.map Tr.isHeader).getD false

/-- The cells of header rows. -/
def headerCellsOf (tbl : Tbl) (grid : Grid) : List HeaderCell :=
  (grid.cells.filter fun cell => rowsAreHeaders tbl cell.row).map fun cell =>
    ⟨cell.row, cell.column, "column_header"⟩

/-!
# The body
-/

/-- A child of the body, as its readers show it. -/
inductive BodyElement where
  /-- A paragraph with its displayed text, its heading level and its pictures. -/
  | paragraph (text : Text) (level : Option Nat) (drawings : List Drawing)
  | table (tbl : Tbl)
  | sdt (text : Text) (drawings : List Drawing)
  | other
deriving DecidableEq

structure DocxState where
  units : List SourceUnit
  headingStack : List Text
  pendingParagraphs : List Text
  pendingPaths : List String
  currentSection : Option Nat
  nextSection : Nat
  logicalSection : String
  tableOrdinal : Nat
  formOrdinal : Nat
  imageOrdinal : Nat
  paragraphOrdinal : Nat

def sectionName (n : Nat) : String :=
  "section:" ++ toString n

def joinPath (headingStack : List Text) : Text :=
  List.intercalate " > ".toList (headingStack.filter fun part => part != [])

namespace DocxState

/-- `heading_path`. -/
def headingPath (s : DocxState) : Text :=
  joinPath s.headingStack

/-- The section that the pending paragraphs become. -/
def pendingUnit (s : DocxState) : SourceUnit where
  key := sectionName s.nextSection
  ordinal := s.units.length
  kind := .sectionUnit
  text := List.intercalate "\n".toList s.pendingParagraphs
  locator := .document ⟨s.nextSection, none, none, none, s.headingPath⟩
  grid := none
  physicalLocator := none
  physicalPath := some (if s.pendingPaths = [] then "/word/document.xml/body"
    else String.intercalate ";" s.pendingPaths)
  sourceSectionId := some s.logicalSection
  sourceIssues := []
  headerCells := []

/-- `flush_section`. -/
def flushSection (force : Bool) (s : DocxState) : Except Fault (Nat × DocxState) :=
  if s.pendingParagraphs = [] ∧ force = false then
    match s.currentSection with
    | none => throw (.valueError "DOCX structure has no owning section")
    | some current => return (current, s)
  else
    return (s.nextSection, { s with
      units := s.units ++ [s.pendingUnit]
      pendingParagraphs := []
      pendingPaths := []
      currentSection := some s.nextSection
      nextSection := s.nextSection + 1 })

/-- What is pending is flushed. -/
def flushPending (s : DocxState) : Except Fault DocxState :=
  if s.pendingParagraphs = [] then return s
  else do
    let (_, s1) ← s.flushSection false
    return s1

def addPending (text : Text) (physicalPath : String) (s : DocxState) : DocxState :=
  { s with
    pendingParagraphs := s.pendingParagraphs ++ [text]
    pendingPaths := s.pendingPaths ++ [physicalPath] }

def pushHeading (stack : List Text) (level : Nat) (text : Text) : List Text :=
  let kept := stack.take (level - 1)
  kept ++ List.replicate (level - 1 - kept.length) [] ++ [text]

/-- A heading ends the section before it and starts a logical one. -/
def startHeading (text : Text) (level : Nat) (physicalPath : String) (s : DocxState) :
    Except Fault DocxState := do
  let s1 ← s.flushPending
  let s2 := { s1 with
    logicalSection := sectionName s1.nextSection
    headingStack := pushHeading s1.headingStack level text
    currentSection := none }
  return s2.addPending text physicalPath

def addDrawings (drawings : List Drawing) (compoundParent : CompoundImageParent)
    (s : DocxState) : DocxState :=
  let (units, imageOrdinal) := drawingUnits drawings compoundParent (s.units, s.imageOrdinal)
  { s with units := units, imageOrdinal := imageOrdinal }

/-- The text of a paragraph is kept for the next section. -/
def readText (text : Text) (level : Option Nat) (physicalPath : String) (s : DocxState) :
    Except Fault DocxState :=
  match level with
  | some level =>
      if text ≠ [] then s.startHeading text level physicalPath else return s
  | none => return if text ≠ [] then s.addPending text physicalPath else s

/-- Pictures need a section to refer to. -/
def readDrawings (drawings : List Drawing) (s : DocxState) : Except Fault DocxState :=
  if drawings = [] then return s
  else do
    let (owner, s1) ← s.flushSection s.currentSection.isNone
    return s1.addDrawings drawings (.paragraph owner s1.paragraphOrdinal)

def readParagraph (text : Text) (level : Option Nat) (drawings : List Drawing)
    (physicalPath : String) (s : DocxState) : Except Fault DocxState := do
  let s1 ← s.readText text level physicalPath
  let s2 ← s1.readDrawings drawings
  return { s2 with paragraphOrdinal := s2.paragraphOrdinal + 1 }

def tableUnit (tbl : Tbl) (grid : Grid) (owner : Nat) (physicalPath : String) (s : DocxState) :
    SourceUnit where
  key := "table:" ++ toString s.tableOrdinal
  ordinal := s.units.length
  kind := .tableRegion
  text := []
  locator := .document ⟨owner, some s.tableOrdinal, none, none, s.headingPath⟩
  grid := some grid
  physicalLocator := none
  physicalPath := some physicalPath
  sourceSectionId := some s.logicalSection
  sourceIssues := if tbl.hasNestedTable = true then ["nested_table_flattened_for_display"] else []
  headerCells := headerCellsOf tbl grid

def readTable (tbl : Tbl) (physicalPath : String) (s : DocxState) : Except Fault DocxState := do
  let (owner, s1) ← s.flushSection s.currentSection.isNone
  let (grid, anchors) ← docxTableAnchors tbl
  let s2 := { s1 with units := s1.units ++ [s1.tableUnit tbl grid owner physicalPath] }
  let s3 := anchors.foldl (fun s3 anchor =>
    s3.addDrawings anchor.2.drawings
      (.tableCell owner s1.tableOrdinal anchor.1.1 anchor.1.2)) s2
  return { s3 with tableOrdinal := s1.tableOrdinal + 1 }

def formUnit (text : Text) (owner : Nat) (physicalPath : String) (s : DocxState) :
    SourceUnit where
  key := "form:" ++ toString s.formOrdinal
  ordinal := s.units.length
  kind := .formRegion
  text := text
  locator := .document ⟨owner, none, none, some s.formOrdinal, s.headingPath⟩
  grid := none
  physicalLocator := none
  physicalPath := some physicalPath
  sourceSectionId := some s.logicalSection
  sourceIssues := []
  headerCells := []

def readForm (text : Text) (drawings : List Drawing) (physicalPath : String) (s : DocxState) :
    Except Fault DocxState := do
  let (owner, s1) ← s.flushSection s.currentSection.isNone
  let s2 := { s1 with units := s1.units ++ [s1.formUnit text owner physicalPath] }
  let s3 := s2.addDrawings drawings (.form owner s1.formOrdinal)
  return { s3 with formOrdinal := s1.formOrdinal + 1 }

def readElement (s : DocxState) (element : BodyElement × Nat) : Except Fault DocxState :=
  let physicalPath := "/word/document.xml/body/*[" ++ toString (element.2 + 1) ++ "]"
  match element.1 with
  | .paragraph text level drawings => s.readParagraph text level drawings physicalPath
  | .table tbl => s.readTable tbl physicalPath
  | .sdt text drawings => s.readForm text drawings physicalPath
  | .other => return s

end DocxState

/-!
# The document
-/

def initialDocx : DocxState where
  units := []
  headingStack := []
  pendingParagraphs := []
  pendingPaths := []
  currentSection := none
  nextSection := 0
  logicalSection := sectionName 0
  tableOrdinal := 0
  formOrdinal := 0
  imageOrdinal := 0
  paragraphOrdinal := 0

/-- A part of the package, by name and content type. -/
structure PackagePart where
  partName : String
  contentType : String
deriving DecidableEq

def isEmbedding (part : PackagePart) : Bool :=
  decide ("/embeddings/".toList <:+: part.partName.toList)

/-- The embedded parts, by name. -/
def embeddings (parts : List PackagePart) : List PackagePart :=
  (sortBy (fun a b : PackagePart => compare a.partName b.partName) parts).filter isEmbedding

def attachmentUnit (ordinal attachmentOrdinal : Nat) (part : PackagePart) : SourceUnit where
  key := "attachment:" ++ toString attachmentOrdinal
  ordinal := ordinal
  kind := .attachmentRegion
  text := part.partName.toList
  locator := .attachment part.partName part.contentType
  grid := none
  physicalLocator := none
  physicalPath := none
  sourceSectionId := none
  sourceIssues := []
  headerCells := []

/-- `_docx_structured_units`. -/
def docxStructuredUnits (body : List BodyElement) (parts : List PackagePart) :
    Except Fault (List SourceUnit) := do
  let s1 ← body.zipIdx.foldlM DocxState.readElement initialDocx
  let s ← s1.flushPending
  return s.units ++ (embeddings parts).zipIdx.map fun part =>
    attachmentUnit (s.units.length + part.2) part.2 part.1

/-!
# The units of a workbook

Each sheet becomes a section, its rows, its tables and its pictures.  A sheet
that holds values but no table is covered by one table of its own.
-/

structure RawTable where
  name : String
  displayName : String
  ref : String
  region : SpreadsheetRange
  headerRowCount : Option Nat
deriving DecidableEq

structure SheetImage where
  originalRef : Text
  width : Nat
  height : Nat
  mediaType : String
deriving DecidableEq

/-- A sheet, with its cells that hold anything. -/
structure Sheet where
  title : Text
  maxRow : Nat
  maxColumn : Nat
  cells : List SpreadsheetCell
  merges : List SpreadsheetRange
  tables : List RawTable
  images : List SheetImage
deriving DecidableEq

/-!
# Ordering
-/

def compareSheetCells (a b : SpreadsheetCell) : Ordering :=
  (compare a.row b.row).then ((compare a.column b.column).then (compare a.address b.address))

def compareRanges (a b : SpreadsheetRange) : Ordering :=
  (compare a.startRow b.startRow).then ((compare a.startColumn b.startColumn).then
    ((compare a.endRow b.endRow).then ((compare a.endColumn b.endColumn).then
      (compare a.a1Range b.a1Range))))

def Sheet.allCells (sheet : Sheet) : List SpreadsheetCell :=
  sortBy compareSheetCells sheet.cells

def Sheet.merged (sheet : Sheet) : List SpreadsheetRange :=
  sortBy compareRanges sheet.merges

def Sheet.sortedTables (sheet : Sheet) : List RawTable :=
  sortBy (fun a b : RawTable => compare a.name b.name) sheet.tables

/-- `sorted(rows)`. -/
def Sheet.rowNumbers (sheet : Sheet) : List Nat :=
  (sheet.allCells.map SpreadsheetCell.row).dedup

def Sheet.rowCells (sheet : Sheet) (row : Nat) : List SpreadsheetCell :=
  sheet.allCells.filter fun cell => cell.row == row

/-!
# Grids
-/

def contains (outer inner : SpreadsheetRange) : Bool :=
  outer.startRow ≤ inner.startRow && inner.endRow ≤ outer.endRow &&
    outer.startColumn ≤ inner.startColumn && inner.endColumn ≤ outer.endColumn

def covers (region : SpreadsheetRange) (cell : SpreadsheetCell) : Bool :=
  region.startRow ≤ cell.row && cell.row ≤ region.endRow &&
    region.startColumn ≤ cell.column && cell.column ≤ region.endColumn

/-- The merge as a cell of the region, without its text. -/
def mergeCell (region merge : SpreadsheetRange) : TableCell :=
  ⟨merge.startRow - region.startRow, merge.startColumn - region.startColumn,
    merge.endRow + 1 - merge.startRow, merge.endColumn + 1 - merge.startColumn, []⟩

/-- `_listobject_grid`. -/
def listobjectGrid (region : SpreadsheetRange) (cells : List SpreadsheetCell)
    (merged : List SpreadsheetRange) : Except Fault Grid :=
  let rowCount := region.endRow + 1 - region.startRow
  let columnCount := region.endColumn + 1 - region.startColumn
  let merges := (merged.filter (contains region)).map (mergeCell region)
  let textAt (slot : Slot) : Text :=
    (((cells.filter (covers region)).reverse.find? fun cell =>
      (cell.row - region.startRow, cell.column - region.startColumn) == slot).map
      SpreadsheetCell.text).getD []
  let spanAt (slot : Slot) : Nat × Nat :=
    ((merges.reverse.find? fun merge => merge.slot == slot).map fun merge =>
      (merge.rowSpan, merge.colSpan)).getD (1, 1)
  let covered := merges.flatMap fun merge => merge.slots.filter fun slot => slot != merge.slot
  let slots := (List.range rowCount).flatMap fun row =>
    (List.range columnCount).map fun column => (row, column)
  TableGrid.build {
    rowCount := rowCount
    columnCount := columnCount
    cells := (slots.filter fun slot => !covered.contains slot).map fun slot =>
      ⟨slot.1, slot.2, (spanAt slot).1, (spanAt slot).2, textAt slot⟩
    widthsMm := none }

/-- `get_column_letter` with a row number. -/
def address (columnLetter : Nat -> String) (column row : Nat) : String :=
  columnLetter column ++ toString row

/-- The bounds of the values, one coordinate at a time. -/
def leastOf (start : Nat) (values : List Nat) : Nat :=
  values.foldl min start

def greatestOf (start : Nat) (values : List Nat) : Nat :=
  values.foldl max start

/-- `_used_sheet_region`, for cells of which the first is given. -/
def usedSheetRegion (columnLetter : Nat -> String) (first : SpreadsheetCell)
    (cells : List SpreadsheetCell) (merged : List SpreadsheetRange) : SpreadsheetRange :=
  let startRow := leastOf first.row
    (cells.map SpreadsheetCell.row ++ merged.map SpreadsheetRange.startRow)
  let endRow := greatestOf first.row
    (cells.map SpreadsheetCell.row ++ merged.map SpreadsheetRange.endRow)
  let startColumn := leastOf first.column
    (cells.map SpreadsheetCell.column ++ merged.map SpreadsheetRange.startColumn)
  let endColumn := greatestOf first.column
    (cells.map SpreadsheetCell.column ++ merged.map SpreadsheetRange.endColumn)
  ⟨address columnLetter startColumn startRow ++ ":" ++ address columnLetter endColumn endRow,
    startRow, startColumn, endRow, endColumn⟩

/-!
# Units
-/

/-- A unit of a sheet, before it is numbered. -/
def sheetItem (key : String) (kind : UnitKind) (text : Text) (place : SpreadsheetPlace)
    (grid : Option Grid) (headerCells : List HeaderCell) : SourceUnit where
  key := key
  ordinal := 0
  kind := kind
  text := text
  locator := .spreadsheet place
  grid := grid
  physicalLocator := none
  physicalPath := none
  sourceSectionId := none
  sourceIssues := []
  headerCells := headerCells

def sheetName (sheetOrdinal : Nat) : String :=
  "sheet:" ++ toString sheetOrdinal

def tableIdentity (table : RawTable) : SpreadsheetTableIdentity :=
  ⟨table.name, table.displayName, table.ref⟩

def sheetUnit (columnLetter : Nat -> String) (sheetOrdinal : Nat) (sheet : Sheet) : SourceUnit :=
  let maxRow := max 1 sheet.maxRow
  let maxColumn := max 1 sheet.maxColumn
  sheetItem (sheetName sheetOrdinal) .sectionUnit sheet.title
    ⟨sheetOrdinal, sheet.title, ⟨"A1:" ++ address columnLetter maxColumn maxRow, 1, 1, maxRow,
      maxColumn⟩, [], [], sheet.sortedTables.map tableIdentity⟩ none []

def rowUnit (columnLetter : Nat -> String) (sheetOrdinal : Nat) (sheet : Sheet) (row : Nat) :
    SourceUnit :=
  let rowCells := sheet.rowCells row
  let minColumn := (rowCells.head?.map SpreadsheetCell.column).getD 0
  let maxRowColumn := (rowCells.getLast?.map SpreadsheetCell.column).getD 0
  let region : SpreadsheetRange :=
    ⟨address columnLetter minColumn row ++ ":" ++ address columnLetter maxRowColumn row, row,
      minColumn, row, maxRowColumn⟩
  sheetItem (sheetName sheetOrdinal ++ ":row:" ++ toString row) .tableRow
    (List.intercalate " | ".toList (rowCells.map SpreadsheetCell.text))
    ⟨sheetOrdinal, sheet.title, region, rowCells,
      sheet.merged.filter fun merge => merge.startRow ≤ row && row ≤ merge.endRow &&
        merge.startColumn ≤ region.endColumn && region.startColumn ≤ merge.endColumn, []⟩
    none []

def tableHeaders (table : RawTable) (grid : Grid) : List HeaderCell :=
  (grid.cells.filter fun cell => cell.row < table.headerRowCount.getD 0).map fun cell =>
    ⟨cell.row, cell.column, "column_header"⟩

def listobjectUnit (sheetOrdinal : Nat) (sheet : Sheet) (table : RawTable) :
    Except Fault SourceUnit := do
  let tableCells := sheet.allCells.filter (covers table.region)
  let tableMerges := sheet.merged.filter (contains table.region)
  let grid ← listobjectGrid table.region tableCells tableMerges
  return sheetItem (sheetName sheetOrdinal ++ ":table:" ++ table.name) .tableRegion []
    ⟨sheetOrdinal, sheet.title, table.region, tableCells, tableMerges, [tableIdentity table]⟩
    (some grid) (tableHeaders table grid)

/-- The table that covers a sheet without tables. -/
def usedUnits (columnLetter : Nat -> String) (sheetOrdinal : Nat) (sheet : Sheet) :
    Except Fault (List SourceUnit) :=
  match sheet.tables, sheet.allCells with
  | [], first :: _ => do
      let used := usedSheetRegion columnLetter first sheet.allCells sheet.merged
      let usedMerges := sheet.merged.filter (contains used)
      let grid ← listobjectGrid used sheet.allCells usedMerges
      return [sheetItem (sheetName sheetOrdinal ++ ":used") .tableRegion []
        ⟨sheetOrdinal, sheet.title, used, sheet.allCells, usedMerges, []⟩ (some grid) []]
  | _, _ => return []

def imageUnit (sheetOrdinal imageOrdinal : Nat) (image : SheetImage) : SourceUnit where
  key := sheetName sheetOrdinal ++ ":image:" ++ toString imageOrdinal
  ordinal := 0
  kind := .imageRegion
  text := []
  locator := .image ⟨image.originalRef, image.width, image.height, image.mediaType, none⟩
  grid := none
  physicalLocator := none
  physicalPath := some (sheetName sheetOrdinal ++ "/drawing:image:" ++ toString imageOrdinal)
  sourceSectionId := none
  sourceIssues := []
  headerCells := []

/-- The units of one sheet. -/
def sheetUnits (columnLetter : Nat -> String) (sheet : Sheet × Nat) :
    Except Fault (List SourceUnit) := do
  let tables ← sheet.1.sortedTables.mapM (listobjectUnit sheet.2 sheet.1)
  let used ← usedUnits columnLetter sheet.2 sheet.1
  return sheetUnit columnLetter sheet.2 sheet.1 ::
    (sheet.1.rowNumbers.map (rowUnit columnLetter sheet.2 sheet.1) ++ tables ++ used ++
      sheet.1.images.zipIdx.map fun image => imageUnit sheet.2 image.2 image.1)

/-- The emission of `_extract_xlsx_structured_units`; a unit is numbered as it is emitted. -/
def xlsxStructuredUnits (columnLetter : Nat -> String) (sheets : List Sheet) :
    Except Fault (List SourceUnit) := do
  let units ← sheets.zipIdx.mapM (sheetUnits columnLetter)
  return units.flatten.zipIdx.map fun unit => { unit.1 with ordinal := unit.2 }

end DocReader
end KnowledgeBrain
