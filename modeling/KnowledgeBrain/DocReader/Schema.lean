import KnowledgeBrain.Chunker.Text
import KnowledgeBrain.Foundation.Sorting

/-!
# Source units

A document is read as a list of units: sections, rows, tables, forms, images
and attachments, each with the place it comes from.  The reader that produces
them and the host that checks them share these records.  Texts are lists of
characters; keys and names are strings.
-/

namespace KnowledgeBrain
namespace DocReader

open Foundation
open Chunker (Text)

/-- What the reader raises. -/
inductive Fault where
  | valueError (message : String)
  | structError (message : String)
deriving DecidableEq

/-- `StructuredSourceUnitKind`. -/
inductive UnitKind where
  | sectionUnit
  | tableRow
  | tableRegion
  | formRegion
  | attachmentRegion
  | imageRegion
deriving DecidableEq

/-!
# Tables
-/

/-- A finite double, by its bits. -/
structure Width where
  bits : Nat
  inRange : bits < 2 ^ 64
  finite : bits / 2 ^ 52 % 2 ^ 11 ≠ 2047
deriving DecidableEq

/-- `width > 0`: no sign and not zero. -/
def Width.isPositive (w : Width) : Bool :=
  decide (0 < w.bits ∧ w.bits < 2 ^ 63)

structure TableCell where
  row : Nat
  column : Nat
  rowSpan : Nat
  colSpan : Nat
  text : Text
deriving DecidableEq

structure TableGrid where
  rowCount : Nat
  columnCount : Nat
  cells : List TableCell
  widthsMm : Option (List Width)
deriving DecidableEq

abbrev Slot := Nat × Nat

def TableCell.slot (cell : TableCell) : Slot :=
  (cell.row, cell.column)

/-- The slots of a cell, row by row. -/
def TableCell.slots (cell : TableCell) : List Slot :=
  (List.range' cell.row cell.rowSpan).flatMap fun row =>
    (List.range' cell.column cell.colSpan).map fun column => (row, column)

/-- One slot is given to the cell that starts at `owner`. -/
def occupy {Error : Type} (overlap covered : Error) (seen : List Slot) (owner : Slot)
    (occupied : List Slot) (slot : Slot) : Except Error (List Slot) := do
  reject (slot ∈ occupied) overlap
  reject (slot ≠ owner ∧ slot ∈ seen) covered
  return slot :: occupied

/-- The cells that were seen, and the slots they take. -/
structure Tiling where
  seen : List Slot
  occupied : List Slot

/-- The cell lies in the grid. -/
def Inside (rowCount columnCount : Nat) (cell : TableCell) : Prop :=
  1 ≤ cell.rowSpan ∧ 1 ≤ cell.colSpan ∧ cell.row < rowCount ∧ cell.column < columnCount ∧
    cell.row + cell.rowSpan ≤ rowCount ∧ cell.column + cell.colSpan ≤ columnCount

instance (rowCount columnCount : Nat) (cell : TableCell) :
    Decidable (Inside rowCount columnCount cell) :=
  inferInstanceAs (Decidable (_ ∧ _))

/-- The loop of `validate_sparse_table_grid`. -/
def placeCell (rowCount columnCount : Nat) (s : Tiling) (cell : TableCell) :
    Except Fault Tiling := do
  reject (cell.slot ∈ s.seen) (.valueError "table grid cell duplicated")
  let seen := cell.slot :: s.seen
  reject (¬ Inside rowCount columnCount cell) (.valueError "table grid cell outside grid")
  let occupied ← cell.slots.foldlM
    (occupy (.valueError "table grid spans overlap")
      (.valueError "table grid covered slot must be omitted") seen cell.slot) s.occupied
  return ⟨seen, occupied⟩

/-- Every column has a positive width. -/
def CoversColumns (columnCount : Nat) (widths : List Width) : Prop :=
  widths.length = columnCount ∧ widths.all Width.isPositive = true

instance (columnCount : Nat) (widths : List Width) : Decidable (CoversColumns columnCount widths) :=
  inferInstanceAs (Decidable (_ ∧ _))

/-- `validate_sparse_table_grid`. -/
def validateSparseTableGrid (grid : TableGrid) : Except Fault Unit := do
  reject (grid.rowCount < 1 ∨ grid.columnCount < 1)
    (.valueError "table grid dimensions must be positive")
  let s ← grid.cells.foldlM (placeCell grid.rowCount grid.columnCount) ⟨[], []⟩
  reject (s.occupied.length ≠ grid.rowCount * grid.columnCount)
    (.valueError "table grid does not tile")
  reject ((grid.widthsMm.all fun widths => decide (CoversColumns grid.columnCount widths)) = false)
    (.valueError "table grid widths_mm must cover every column")

/-- A `TableGrid` that its validator has passed. -/
structure Grid extends TableGrid where
  valid : validateSparseTableGrid toTableGrid = .ok ()
deriving DecidableEq

/-- The constructor of the reader. -/
def TableGrid.build (grid : TableGrid) : Except Fault Grid :=
  match h : validateSparseTableGrid grid with
  | .ok () => .ok ⟨grid, h⟩
  | .error e => .error e

/-!
# Locators
-/

structure SpreadsheetRange where
  a1Range : String
  startRow : Nat
  startColumn : Nat
  endRow : Nat
  endColumn : Nat
deriving DecidableEq

structure SpreadsheetCell where
  address : String
  row : Nat
  column : Nat
  text : Text
  /-- The values, formats and formulas, as they are carried along. -/
  rest : String
deriving DecidableEq

structure SpreadsheetTableIdentity where
  name : String
  displayName : String
  a1Range : String
deriving DecidableEq

inductive CompoundImageParent where
  | paragraph (sectionOrdinal paragraphOrdinal : Nat)
  | tableCell (sectionOrdinal tableOrdinal rowOrdinal cellOrdinal : Nat)
  | form (sectionOrdinal formOrdinal : Nat)
deriving DecidableEq

def CompoundImageParent.sectionOrdinal : CompoundImageParent -> Nat
  | .paragraph sectionOrdinal _ => sectionOrdinal
  | .tableCell sectionOrdinal _ _ _ => sectionOrdinal
  | .form sectionOrdinal _ => sectionOrdinal

structure DocumentPlace where
  sectionOrdinal : Nat
  tableOrdinal : Option Nat
  rowOrdinal : Option Nat
  formOrdinal : Option Nat
  headingPath : Text
deriving DecidableEq

structure SpreadsheetPlace where
  sheetOrdinal : Nat
  sheetName : Text
  region : SpreadsheetRange
  cells : List SpreadsheetCell
  mergedRanges : List SpreadsheetRange
  definedTables : List SpreadsheetTableIdentity
deriving DecidableEq

structure ImagePlace where
  originalRef : Text
  width : Nat
  height : Nat
  mediaType : String
  compoundParent : Option CompoundImageParent
deriving DecidableEq

/-- The locators of documents that have no pages. -/
inductive SourceLocator where
  | document (place : DocumentPlace)
  | spreadsheet (place : SpreadsheetPlace)
  | image (place : ImagePlace)
  | attachment (partName relationshipType : String)
deriving DecidableEq

/-!
# Units
-/

structure HeaderCell where
  row : Nat
  column : Nat
  role : String
deriving DecidableEq

/-- `StructuredSourceUnit` of the reader. -/
structure SourceUnit where
  key : String
  ordinal : Nat
  kind : UnitKind
  text : Text
  locator : SourceLocator
  grid : Option Grid
  physicalLocator : Option SourceLocator
  physicalPath : Option String
  sourceSectionId : Option String
  sourceIssues : List String
  headerCells : List HeaderCell

/-- `StructuredSourceUnit` of the host. -/
structure StructuredSourceUnit where
  key : String
  ordinal : Nat
  kind : UnitKind
  text : Text
  locator : SourceLocator
  grid : Option TableGrid
deriving DecidableEq

theorem append_ne_empty {s t : String} (h : s ≠ "") : s ++ t ≠ "" := by
  intro hempty
  have hlist := congrArg String.toList hempty
  rw [String.toList_append] at hlist
  exact h (String.toList_eq_nil_iff.mp (List.append_eq_nil_iff.mp hlist).1)

/-- What is transported of a unit. -/
def SourceUnit.sent (unit : SourceUnit) : StructuredSourceUnit where
  key := unit.key
  ordinal := unit.ordinal
  kind := unit.kind
  text := unit.text
  locator := unit.locator
  grid := unit.grid.map Grid.toTableGrid

end DocReader
end KnowledgeBrain
