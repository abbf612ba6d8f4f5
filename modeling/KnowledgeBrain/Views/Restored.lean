import KnowledgeBrain.Foundation.Digits
import KnowledgeBrain.Foundation.Json
import KnowledgeBrain.DocReader.Schema
import Mathlib.Data.List.Dedup

/-!
# Compact snapshots

The cells of spreadsheets are stored once for each place of a sheet.  A field
that repeats the text of a grid is left out, with the cell of the grid it can be
read from; loading a unit puts the fields back.
-/

namespace KnowledgeBrain
namespace Views

open Foundation
open Chunker (Text)
open DocReader (TableCell TableGrid UnitKind)
open JsonValue (Fields withField)

/-- Sheet, row and column. -/
abbrev Coordinate := Nat × Nat × Nat

/-- `unit_id`, `row` and `column` of a cell of a grid. -/
structure GridRef where
  unitId : String
  row : Nat
  column : Nat
deriving DecidableEq

/-- A cell as the reader lists it. -/
structure SheetCell where
  row : Nat
  column : Nat
  fields : Fields

/-- A stored cell, with `grid_value_fields` and `grid_cell_ref`. -/
structure StoredCell where
  row : Nat
  column : Nat
  fields : Fields
  gridValueFields : List String
  gridCellRef : Option GridRef

structure SheetLocator where
  sheetOrdinal : Nat
  startRow : Nat
  startColumn : Nat
  cells : List SheetCell

structure CompactLocator where
  sheetOrdinal : Nat
  startRow : Nat
  startColumn : Nat
  cellRefs : List Text

inductive UnitLocator (Sheet : Type) where
  | spreadsheet (sheet : Sheet)
  | other

structure SnapshotUnit (Sheet : Type) where
  unitId : String
  kind : UnitKind
  text : Text
  grid : Option TableGrid
  locator : UnitLocator Sheet

abbrev RawUnit := SnapshotUnit SheetLocator

abbrev CompactUnit := SnapshotUnit CompactLocator

structure Snapshot where
  units : List CompactUnit
  spreadsheetCells : Table Text StoredCell

/-!
# Storing
-/

/-- A dictionary that is written entry by entry keeps the last value of a key. -/
def lastValue {K V : Type} [BEq K] (rows : List (K × V)) (key : K) : Option V :=
  rows.reverse.lookup key

def SheetLocator.coordinate (sheet : SheetLocator) (cell : TableCell) : Coordinate :=
  (sheet.sheetOrdinal, sheet.startRow + cell.row, sheet.startColumn + cell.column)

/-- What the grid of a unit writes into `tables` and `grid_values`. -/
def gridRows (unit : RawUnit) : List (Coordinate × (GridRef × Text)) :=
  match unit.grid, unit.locator with
  | some grid, .spreadsheet sheet => grid.cells.map fun cell =>
      (sheet.coordinate cell, (GridRef.mk unit.unitId cell.row cell.column, cell.text))
  | _, _ => []

def gridAt (units : List RawUnit) (c : Coordinate) : Option (GridRef × Text) :=
  lastValue (units.flatMap gridRows) c

/-- `f"sheet:\x7b..\x7d:cell:\x7b..\x7d:\x7b..\x7d"`. -/
def cellKey (c : Coordinate) : Text :=
  "sheet:".toList ++ (Nat.toDigits 10 c.1 ++
    ':' :: ("cell:".toList ++ (Nat.toDigits 10 c.2.1 ++ ':' :: Nat.toDigits 10 c.2.2)))

def inheritable : List String :=
  ["text", "raw_value", "display_text", "cached_value"]

def gridValue (text : Text) : JsonValue :=
  .text (String.ofList text)

/-- `field in cell and cell[field] == grid_values[coordinate]`. -/
def inherits (fields : Fields) (text : Text) (name : String) : Bool :=
  match fields.lookup name with
  | some (.text value) => value == String.ofList text
  | _ => false

def inheritedFields (fields : Fields) (text : Text) : List String :=
  inheritable.filter (inherits fields text)

def storeCell (grids : Coordinate -> Option (GridRef × Text)) (sheetOrdinal : Nat)
    (cell : SheetCell) : StoredCell :=
  match grids (sheetOrdinal, cell.row, cell.column) with
  | none => ⟨cell.row, cell.column, cell.fields, [], none⟩
  | some (ref, text) =>
      ⟨cell.row, cell.column,
        cell.fields.filter fun field => field.1 ∉ inheritedFields cell.fields text,
        inheritedFields cell.fields text, some ref⟩

def SheetLocator.cellKey (sheet : SheetLocator) (cell : SheetCell) : Text :=
  Views.cellKey (sheet.sheetOrdinal, cell.row, cell.column)

def storedRows (grids : Coordinate -> Option (GridRef × Text)) (unit : RawUnit) :
    List (Text × StoredCell) :=
  match unit.locator with
  | .spreadsheet sheet => sheet.cells.map fun cell =>
      (sheet.cellKey cell, storeCell grids sheet.sheetOrdinal cell)
  | .other => []

def compactLocator : UnitLocator SheetLocator -> UnitLocator CompactLocator
  | .spreadsheet sheet =>
      .spreadsheet ⟨sheet.sheetOrdinal, sheet.startRow, sheet.startColumn,
        sheet.cells.map sheet.cellKey⟩
  | .other => .other

def UnitLocator.isSpreadsheet {Sheet : Type} : UnitLocator Sheet -> Bool
  | .spreadsheet _ => true
  | .other => false

def compactUnit (unit : RawUnit) : CompactUnit where
  unitId := unit.unitId
  kind := unit.kind
  text :=
    if unit.grid.isSome ∨ unit.locator.isSpreadsheet = true ∧ unit.kind = .tableRow then []
    else unit.text
  grid := unit.grid
  locator := compactLocator unit.locator

/-- `compact_native_snapshot`. -/
def compactNativeSnapshot (units : List RawUnit) : Snapshot where
  units := units.map compactUnit
  spreadsheetCells := Table.empty.insertAll (units.flatMap (storedRows (gridAt units)))

/-!
# Loading
-/

inductive LoadFault where
  | unknownUnit
  | unresolvedCell
deriving DecidableEq

/-- The entries of `values` for a unit. -/
def gridTexts (unitId : String) (grid : TableGrid) : List (GridRef × Text) :=
  grid.cells.map fun cell => (GridRef.mk unitId cell.row cell.column, cell.text)

def unitTexts (unit : CompactUnit) : Except LoadFault (List (GridRef × Text)) :=
  match unit.grid with
  | some grid => .ok (gridTexts unit.unitId grid)
  | none => .error .unresolvedCell

/-- `cell[field] = values[(ref["unit_id"], ref["row"], ref["column"])]`. -/
def restoreField (values : List (GridRef × Text)) (ref : Option GridRef) (cell : StoredCell)
    (name : String) : Except LoadFault StoredCell :=
  match ref.bind (lastValue values) with
  | some text => .ok { cell with fields := withField name (gridValue text) cell.fields }
  | none => .error .unresolvedCell

def restoreCell (values : List (GridRef × Text)) (cell : StoredCell) :
    Except LoadFault StoredCell :=
  cell.gridValueFields.foldlM (restoreField values cell.gridCellRef) cell

def gridIds (cells : List (Text × StoredCell)) : List String :=
  (cells.filter fun cell => cell.2.gridValueFields ≠ []).filterMap fun cell =>
    cell.2.gridCellRef.map GridRef.unitId

def storedCell (snapshot : Snapshot) (key : Text) : Except LoadFault (Text × StoredCell) :=
  match snapshot.spreadsheetCells.lookup key with
  | some cell => .ok (key, cell)
  | none => .error .unresolvedCell

/-- `spreadsheet_cells` of `load_outline_source`, with the cells of a spreadsheet. -/
def loadSheetCells (snapshot : Snapshot) (unitId : String) :
    Except LoadFault (Option (List (Text × StoredCell))) :=
  match snapshot.units.find? fun unit => unit.unitId = unitId with
  | none => .error .unknownUnit
  | some unit =>
      match unit.locator with
      | .other => .ok none
      | .spreadsheet sheet =>
          sheet.cellRefs.eraseDups.mapM (storedCell snapshot) >>= fun cells =>
          (snapshot.units.filter fun unit => (gridIds cells).contains unit.unitId).mapM unitTexts
            >>= fun values =>
          cells.mapM (fun cell => (restoreCell values.flatten cell.2).map fun restored =>
            (cell.1, restored)) >>= fun restored =>
          .ok (some restored)

/-!
# Snapshots are restored

The cell of a grid that a stored cell refers to is the one whose text was left
out, so the cells that are loaded for a unit have the fields they had.
-/

variable {units : List RawUnit}

/-!
## Keys
-/

theorem cellKey_injective {c c' : Coordinate} (h : cellKey c = cellKey c') : c = c' := by
  unfold cellKey at h
  have hsheet := toDigits_append_inj (by decide) (List.append_cancel_left h)
  have hrow := toDigits_append_inj (by decide) (List.append_cancel_left hsheet.2)
  rcases c with ⟨sheet, row, column⟩
  rcases c' with ⟨sheet', row', column'⟩
  exact Prod.ext hsheet.1 (Prod.ext hrow.1 (toDigits_injective hrow.2))

/-!
## The cells of grids
-/

variable {ref : GridRef} {sheet : SheetLocator} {c : Coordinate}

/-- The text that was written last at a coordinate is the last text of the cell
of the grid that was written with it. -/
theorem lookup_gridTexts {unitId : String} {cells : List TableCell} {text : Text}
    (h : (cells.map fun cell => (sheet.coordinate cell,
      (GridRef.mk unitId cell.row cell.column, cell.text))).lookup c = some (ref, text)) :
    ref.unitId = unitId ∧
      c = (sheet.sheetOrdinal, sheet.startRow + ref.row, sheet.startColumn + ref.column) ∧
      (cells.map fun cell => (GridRef.mk unitId cell.row cell.column, cell.text)).lookup ref =
        some text := by
  induction cells with
  | nil =>
      cases h
  | cons cell rest ih =>
      rw [List.map_cons, List.lookup_cons] at h
      by_cases hat : c = sheet.coordinate cell
      · rw [hat, beq_self_eq_true] at h
        cases h
        refine ⟨rfl, hat, ?_⟩
        rw [List.map_cons, List.lookup_cons_self]
      · rw [beq_eq_false_iff_ne.mpr hat] at h
        rcases ih h with ⟨hunit, hc, htext⟩
        refine ⟨hunit, hc, ?_⟩
        have hne : ref ≠ GridRef.mk unitId cell.row cell.column := by
          rintro rfl
          exact hat hc
        rw [List.map_cons, List.lookup_cons, beq_eq_false_iff_ne.mpr hne]
        exact htext

variable {unit : RawUnit}

theorem gridRows_eq_some {text : Text} (h : lastValue (gridRows unit) c = some (ref, text)) :
    exists grid, unit.grid = some grid ∧ ref.unitId = unit.unitId ∧
      lastValue (gridTexts unit.unitId grid) ref = some text := by
  unfold gridRows lastValue at h
  split at h
  · rename_i grid sheet hgrid hlocator
    rw [← List.map_reverse] at h
    have hfound := lookup_gridTexts h
    refine ⟨grid, hgrid, hfound.1, ?_⟩
    unfold lastValue gridTexts
    rw [← List.map_reverse]
    exact hfound.2.2
  · cases h

theorem lastValue_append {K V : Type} [BEq K] (rows more : List (K × V)) (key : K) :
    lastValue (rows ++ more) key = (lastValue more key).or (lastValue rows key) := by
  unfold lastValue
  rw [List.reverse_append, List.lookup_append]

theorem gridAt_eq_some {text : Text} (h : gridAt units c = some (ref, text)) :
    exists unit, unit ∈ units ∧ exists grid, unit.grid = some grid ∧ ref.unitId = unit.unitId ∧
      lastValue (gridTexts unit.unitId grid) ref = some text := by
  unfold gridAt at h
  induction units with
  | nil =>
      cases h
  | cons unit rest ih =>
      rw [List.flatMap_cons, lastValue_append, Option.or_eq_some_iff] at h
      rcases h with hrest | ⟨-, hunit⟩
      · rcases ih hrest with ⟨other, hmem, hother⟩
        exact ⟨other, List.mem_cons_of_mem _ hmem, hother⟩
      · exact ⟨unit, List.mem_cons_self, gridRows_eq_some hunit⟩

def textsOfUnit (unit : CompactUnit) : List (GridRef × Text) :=
  match unit.grid with
  | some grid => gridTexts unit.unitId grid
  | none => []

theorem lastValue_textsOfUnit_none {unit : CompactUnit} (hne : ref.unitId ≠ unit.unitId) :
    lastValue (textsOfUnit unit) ref = none := by
  unfold lastValue
  rw [List.lookup_eq_none_iff]
  intro row hrow
  rw [List.mem_reverse] at hrow
  unfold textsOfUnit at hrow
  split at hrow
  · rcases List.mem_map.mp hrow with ⟨cell, -, rfl⟩
    apply bne_iff_ne.mpr
    intro heq
    exact hne (congrArg GridRef.unitId heq)
  · cases hrow

/-- With different identities, the texts of a unit are those under its own. -/
theorem lastValue_flatMap {compact : List CompactUnit}
    (hids : (compact.map SnapshotUnit.unitId).Nodup) {unit : CompactUnit} (hunit : unit ∈ compact)
    (href : ref.unitId = unit.unitId) :
    lastValue (compact.flatMap textsOfUnit) ref = lastValue (textsOfUnit unit) ref := by
  induction compact with
  | nil =>
      cases hunit
  | cons first rest ih =>
      rw [List.map_cons, List.nodup_cons] at hids
      rw [List.flatMap_cons, lastValue_append]
      rcases List.mem_cons.mp hunit with rfl | hrest
      · have hnone : lastValue (rest.flatMap textsOfUnit) ref = none := by
          unfold lastValue
          rw [List.lookup_eq_none_iff]
          intro row hrow
          rw [List.mem_reverse, List.mem_flatMap] at hrow
          rcases hrow with ⟨other, hother, hrow⟩
          apply bne_iff_ne.mpr
          rintro rfl
          have hsome : row.1.unitId = other.unitId := by
            by_contra hne
            have hnot := @lastValue_textsOfUnit_none row.1 other hne
            unfold lastValue at hnot
            rw [List.lookup_eq_none_iff] at hnot
            exact absurd rfl (bne_iff_ne.mp (hnot row (List.mem_reverse.mpr hrow)))
          apply hids.1
          rw [← href, hsome]
          exact List.mem_map_of_mem hother
        rw [hnone, Option.none_or]
      · have hne : ref.unitId ≠ first.unitId := by
          rw [href]
          intro heq
          exact hids.1 (heq ▸ List.mem_map_of_mem hrest)
        rw [ih hids.2 hrest, lastValue_textsOfUnit_none hne, Option.or_none]

/-!
## Fields that are put back
-/

theorem inherits_eq_true {fields : Fields} {text : Text} {name : String}
    (h : inherits fields text name = true) : fields.lookup name = some (gridValue text) := by
  unfold inherits at h
  split at h
  · rename_i value hlookup
    rw [hlookup, beq_iff_eq.mp h]
    rfl
  · cases h

theorem lookup_filter_notMem {names : List String} {name : String} (h : name ∉ names)
    (fields : Fields) :
    (fields.filter fun field => field.1 ∉ names).lookup name = fields.lookup name := by
  induction fields with
  | nil =>
      rfl
  | cons field rest ih =>
      by_cases hname : field.1 ∈ names
      · have hne : name ≠ field.1 := by
          rintro rfl
          exact h hname
        rw [List.filter_cons_of_neg (by simpa using hname), ih, List.lookup_cons,
          beq_eq_false_iff_ne.mpr hne]
      · rw [List.filter_cons_of_pos (by simpa using hname), List.lookup_cons, List.lookup_cons, ih]

/-- Setting one value under each of the names. -/
theorem restoreFields_eq_ok {values : List (GridRef × Text)} {text : Text}
    (htext : lastValue values ref = some text) (names : List String) (cell : StoredCell) :
    exists fields, names.foldlM (restoreField values (some ref)) cell =
        .ok { cell with fields := fields } ∧
      forall name, fields.lookup name = if name ∈ names then some (gridValue text)
        else cell.fields.lookup name := by
  induction names generalizing cell with
  | nil =>
      exact ⟨cell.fields, rfl, fun _ => (if_neg List.not_mem_nil).symm⟩
  | cons first rest ih =>
      rcases ih { cell with fields := withField first (gridValue text) cell.fields } with
        ⟨fields, hrun, hfields⟩
      refine ⟨fields, ?_, ?_⟩
      · have hfirst : restoreField values (some ref) cell first =
            .ok { cell with fields := withField first (gridValue text) cell.fields } := by
          unfold restoreField
          rw [Option.bind_some, htext]
        rw [List.foldlM_cons, hfirst]
        exact hrun
      · intro name
        rw [hfields]
        by_cases hrest : name ∈ rest
        · rw [if_pos hrest, if_pos (List.mem_cons_of_mem _ hrest)]
        · rw [if_neg hrest]
          by_cases hfirst : name = first
          · subst hfirst
            rw [JsonValue.lookup_withField, if_pos List.mem_cons_self]
          · rw [JsonValue.lookup_withField_of_ne hfirst, if_neg]
            intro hmem
            rcases List.mem_cons.mp hmem with heq | htail
            · exact hfirst heq
            · exact hrest htail

/-- A cell with the fields and the place of another. -/
def SameCell (cell : SheetCell) (stored : StoredCell) : Prop :=
  stored.row = cell.row ∧ stored.column = cell.column ∧
    forall name, stored.fields.lookup name = cell.fields.lookup name

/-- The reference of a stored cell finds its text among the values. -/
def Resolved (units : List RawUnit) (values : List (GridRef × Text)) (stored : StoredCell) : Prop :=
  stored.gridValueFields ≠ [] -> forall ref, stored.gridCellRef = some ref ->
    forall c text, gridAt units c = some (ref, text) -> lastValue values ref = some text

theorem restoreCell_storeCell {values : List (GridRef × Text)} {sheetOrdinal : Nat}
    {cell : SheetCell}
    (hvalues : Resolved units values (storeCell (gridAt units) sheetOrdinal cell)) :
    exists stored, restoreCell values (storeCell (gridAt units) sheetOrdinal cell) = .ok stored ∧
      SameCell cell stored := by
  cases hgrid : gridAt units (sheetOrdinal, cell.row, cell.column) with
  | none =>
      have hstored : storeCell (gridAt units) sheetOrdinal cell =
          ⟨cell.row, cell.column, cell.fields, [], none⟩ := by
        unfold storeCell
        rw [hgrid]
      rw [hstored]
      exact ⟨_, rfl, rfl, rfl, fun _ => rfl⟩
  | some found =>
      rcases found with ⟨ref, text⟩
      have hstored : storeCell (gridAt units) sheetOrdinal cell =
          ⟨cell.row, cell.column,
            cell.fields.filter fun field => field.1 ∉ inheritedFields cell.fields text,
            inheritedFields cell.fields text, some ref⟩ := by
        unfold storeCell
        rw [hgrid]
      rw [hstored] at hvalues ⊢
      by_cases hnone : inheritedFields cell.fields text = []
      · refine ⟨⟨cell.row, cell.column,
            cell.fields.filter fun field => field.1 ∉ inheritedFields cell.fields text,
            inheritedFields cell.fields text, some ref⟩, ?_, rfl, rfl, ?_⟩
        · unfold restoreCell
          dsimp only
          rw [hnone]
          rfl
        · intro name
          apply lookup_filter_notMem
          rw [hnone]
          exact List.not_mem_nil
      · have htext := hvalues hnone ref rfl _ text hgrid
        rcases restoreFields_eq_ok htext (inheritedFields cell.fields text)
          ⟨cell.row, cell.column,
            cell.fields.filter fun field => field.1 ∉ inheritedFields cell.fields text,
            inheritedFields cell.fields text, some ref⟩ with ⟨fields, hrun, hfields⟩
        refine ⟨_, hrun, rfl, rfl, ?_⟩
        intro name
        show fields.lookup name = _
        rw [hfields]
        split
        · rename_i hname
          exact (inherits_eq_true (List.mem_filter.mp hname).2).symm
        · rename_i hname
          exact lookup_filter_notMem hname cell.fields

/-!
## The cells of a unit
-/

/-- The identities of the units differ, and the cells that are listed for one
place of a sheet are the same. -/
structure Consistent (units : List RawUnit) : Prop where
  ids : (units.map SnapshotUnit.unitId).Nodup
  cells : forall unit, unit ∈ units -> forall unit', unit' ∈ units -> forall sheet sheet',
    unit.locator = .spreadsheet sheet -> unit'.locator = .spreadsheet sheet' ->
    sheet.sheetOrdinal = sheet'.sheetOrdinal ->
    forall cell, cell ∈ sheet.cells -> forall cell', cell' ∈ sheet'.cells ->
    cell.row = cell'.row -> cell.column = cell'.column ->
    forall name, cell.fields.lookup name = cell'.fields.lookup name

theorem lookup_ne_none_of_mem {K V : Type} [DecidableEq K] {rows : List (K × V)} {k : K} {v : V}
    (h : (k, v) ∈ rows) : rows.lookup k ≠ none := by
  intro hnone
  rw [List.lookup_eq_none_iff] at hnone
  exact absurd rfl (bne_iff_ne.mp (hnone _ h))

theorem lookup_spreadsheetCells (h : Consistent units) (hunit : unit ∈ units)
    (hsheet : unit.locator = .spreadsheet sheet) {cell : SheetCell} (hcell : cell ∈ sheet.cells) :
    exists ordinal cell', (compactNativeSnapshot units).spreadsheetCells.lookup
        (sheet.cellKey cell) = some (storeCell (gridAt units) ordinal cell') ∧
      cell'.row = cell.row ∧ cell'.column = cell.column ∧
      forall name, cell'.fields.lookup name = cell.fields.lookup name := by
  have hmem : (sheet.cellKey cell, storeCell (gridAt units) sheet.sheetOrdinal cell) ∈
      units.flatMap (storedRows (gridAt units)) := by
    rw [List.mem_flatMap]
    refine ⟨unit, hunit, ?_⟩
    unfold storedRows
    rw [hsheet]
    exact List.mem_map_of_mem hcell
  cases hfound : (compactNativeSnapshot units).spreadsheetCells.lookup (sheet.cellKey cell) with
  | none =>
      unfold compactNativeSnapshot at hfound
      dsimp only at hfound
      rw [Table.lookup_insertAll, Table.lookup_empty, Option.none_or] at hfound
      exact absurd hfound (lookup_ne_none_of_mem hmem)
  | some stored =>
      have hrow : (sheet.cellKey cell, stored) ∈ units.flatMap (storedRows (gridAt units)) := by
        rcases Table.lookup_insertAll_cases hfound with hempty | hrow
        · cases hempty
        · exact hrow
      rcases List.mem_flatMap.mp hrow with ⟨unit', hunit', hrow⟩
      unfold storedRows at hrow
      split at hrow
      · rename_i sheet' hsheet'
        rcases List.mem_map.mp hrow with ⟨cell', hcell', heq⟩
        have hkey := cellKey_injective (congrArg Prod.fst heq)
        have hplace := Prod.mk.inj (Prod.mk.inj hkey).2
        refine ⟨sheet'.sheetOrdinal, cell', ?_, hplace.1, hplace.2, ?_⟩
        · exact congrArg some (congrArg Prod.snd heq).symm
        · exact h.cells unit' hunit' unit hunit sheet' sheet hsheet' hsheet (Prod.mk.inj hkey).1
            cell' hcell' cell hcell hplace.1 hplace.2
      · cases hrow

/-- The texts of the units that the cells refer to are found. -/
theorem mapM_unitTexts (h : Consistent units) {cells : List (Text × StoredCell)}
    (hcells : forall key stored, (key, stored) ∈ cells -> exists ordinal cell,
      stored = storeCell (gridAt units) ordinal cell) :
    exists values, (((units.map compactUnit).filter fun unit =>
        (gridIds cells).contains unit.unitId).mapM unitTexts = .ok values) ∧
      forall key stored, (key, stored) ∈ cells -> Resolved units values.flatten stored := by
  have hids : ((units.map compactUnit).map SnapshotUnit.unitId).Nodup := by
    rw [List.map_map]
    exact h.ids
  have howner : forall id, id ∈ gridIds cells -> exists unit, unit ∈ units ∧ unit.unitId = id ∧
      unit.grid.isSome = true := by
    intro id hid
    rcases List.mem_filterMap.mp hid with ⟨entry, hentry, href⟩
    rcases Option.map_eq_some_iff.mp href with ⟨ref, hcell, rfl⟩
    rcases hcells entry.1 entry.2 (List.mem_filter.mp hentry).1 with ⟨ordinal, cell, hstored⟩
    rw [hstored] at hcell
    unfold storeCell at hcell
    split at hcell
    · cases hcell
    · rename_i found text hgrid
      have hsame : found = ref := Option.some.inj hcell
      subst hsame
      rcases gridAt_eq_some hgrid with ⟨unit, hunit, grid, hunitGrid, hid, -⟩
      exact ⟨unit, hunit, hid.symm, by rw [hunitGrid]; rfl⟩
  have hsub : (((units.map compactUnit).filter fun unit =>
      (gridIds cells).contains unit.unitId).map SnapshotUnit.unitId).Nodup :=
    hids.sublist (List.Sublist.map _ List.filter_sublist)
  refine ⟨_, mapM_of_ok (g := textsOfUnit) ?_, ?_⟩
  · intro unit hunit
    rcases List.mem_map.mp (List.mem_filter.mp hunit).1 with ⟨raw, hraw, rfl⟩
    have hid : raw.unitId ∈ gridIds cells := List.contains_iff_mem.mp (List.mem_filter.mp hunit).2
    rcases howner raw.unitId hid with ⟨other, hother, hid, hgrid⟩
    have hsame : other = raw := List.inj_on_of_nodup_map h.ids hother hraw hid
    rw [hsame] at hgrid
    rcases Option.isSome_iff_exists.mp hgrid with ⟨grid, hgrid⟩
    have hcompact : (compactUnit raw).grid = some grid := hgrid
    unfold unitTexts textsOfUnit
    rw [hcompact]
  · intro key stored hmem hfields ref href c text hgrid
    rcases gridAt_eq_some hgrid with ⟨unit, hunit, grid, hunitGrid, hid, htext⟩
    have hwanted : compactUnit unit ∈ (units.map compactUnit).filter fun unit =>
        (gridIds cells).contains unit.unitId := by
      rw [List.mem_filter]
      refine ⟨List.mem_map_of_mem hunit, ?_⟩
      rw [List.contains_iff_mem]
      show unit.unitId ∈ gridIds cells
      unfold gridIds
      rw [← hid, List.mem_filterMap]
      refine ⟨(key, stored), List.mem_filter.mpr ⟨hmem, by simpa using hfields⟩, ?_⟩
      show stored.gridCellRef.map GridRef.unitId = _
      rw [href]
      rfl
    rw [← List.flatMap_def, lastValue_flatMap hsub hwanted hid]
    unfold textsOfUnit
    have hcompact : (compactUnit unit).grid = some grid := hunitGrid
    rw [hcompact]
    exact htext

theorem find?_compactUnit (h : Consistent units) (hunit : unit ∈ units) :
    ((compactNativeSnapshot units).units.find? fun other => other.unitId = unit.unitId) =
      some (compactUnit unit) := by
  show ((units.map compactUnit).find? _) = _
  rw [List.find?_map]
  have hfind : (units.find? fun other => decide (other.unitId = unit.unitId)) = some unit := by
    cases hfound : units.find? fun other => decide (other.unitId = unit.unitId) with
    | none =>
        rw [List.find?_eq_none] at hfound
        exact absurd (decide_eq_true rfl) (hfound unit hunit)
    | some other =>
        have hid : other.unitId = unit.unitId := by
          simpa using List.find?_some hfound
        rw [List.inj_on_of_nodup_map h.ids (List.mem_of_find?_eq_some hfound) hunit hid]
  show Option.map compactUnit (units.find? fun other => decide (other.unitId = unit.unitId)) = _
  rw [hfind]
  rfl

/-- An entry whose cell is stored for the place of cells of the sheet. -/
def Stored (units : List RawUnit) (sheet : SheetLocator) (entry : Text × StoredCell) : Prop :=
  exists ordinal cell', entry.2 = storeCell (gridAt units) ordinal cell' ∧
    forall cell, cell ∈ sheet.cells -> sheet.cellKey cell = entry.1 ->
      cell'.row = cell.row ∧ cell'.column = cell.column ∧
        forall name, cell'.fields.lookup name = cell.fields.lookup name

theorem map_eq_of_forall₂ {A B C : Type} {f : A -> C} {g : B -> C} {as : List A} {bs : List B}
    (h : List.Forall₂ (fun a b => f a = g b) as bs) : as.map f = bs.map g := by
  induction h with
  | nil =>
      rfl
  | cons hfirst _ ih =>
      rw [List.map_cons, List.map_cons, hfirst, ih]

/-- Loading a unit gives the cells it had. -/
theorem loadSheetCells_compact (h : Consistent units) (hunit : unit ∈ units)
    (hsheet : unit.locator = .spreadsheet sheet) :
    exists cells, loadSheetCells (compactNativeSnapshot units) unit.unitId = .ok (some cells) ∧
      cells.map Prod.fst = (sheet.cells.map sheet.cellKey).eraseDups ∧
      forall cell, cell ∈ sheet.cells -> forall stored, (sheet.cellKey cell, stored) ∈ cells ->
        SameCell cell stored := by
  have hstored : exists cells, (sheet.cells.map sheet.cellKey).eraseDups.mapM
        (storedCell (compactNativeSnapshot units)) = .ok cells ∧
      List.Forall₂ (fun key entry => entry.1 = key ∧ Stored units sheet entry)
        (sheet.cells.map sheet.cellKey).eraseDups cells := by
    apply exists_mapM_ok
    intro key hkey
    rcases List.mem_map.mp (List.mem_eraseDups.mp hkey) with ⟨cell, hcell, rfl⟩
    rcases lookup_spreadsheetCells h hunit hsheet hcell with
      ⟨ordinal, cell', hlookup, hrow, hcolumn, hfields⟩
    refine ⟨(sheet.cellKey cell, storeCell (gridAt units) ordinal cell'), ?_, rfl, ?_⟩
    · unfold storedCell
      rw [hlookup]
    · refine ⟨ordinal, cell', rfl, ?_⟩
      intro other hother hkey
      have hplace := Prod.mk.inj (Prod.mk.inj (cellKey_injective hkey)).2
      refine ⟨hrow.trans hplace.1.symm, hcolumn.trans hplace.2.symm, ?_⟩
      intro name
      rw [hfields, h.cells unit hunit unit hunit sheet sheet hsheet hsheet rfl cell hcell other
        hother hplace.1.symm hplace.2.symm]
  rcases hstored with ⟨cells, hcells, hall⟩
  have hstored : forall entry, entry ∈ cells -> Stored units sheet entry := by
    intro entry hentry
    rcases exists_of_forall₂ hall hentry with ⟨key, -, -, hstored⟩
    exact hstored
  have hvalues := @mapM_unitTexts units h cells fun key stored hmem => by
    rcases hstored (key, stored) hmem with ⟨ordinal, cell, hstored, -⟩
    exact ⟨ordinal, cell, hstored⟩
  rcases hvalues with ⟨values, hvalues, hresolved⟩
  have hrestored : exists restored, cells.mapM (fun cell =>
        (restoreCell values.flatten cell.2).map fun restored => (cell.1, restored)) =
        .ok restored ∧
      List.Forall₂ (fun entry restored => restored.1 = entry.1 ∧ forall cell, cell ∈ sheet.cells ->
        sheet.cellKey cell = entry.1 -> SameCell cell restored.2) cells restored := by
    apply exists_mapM_ok
    intro entry hentry
    rcases hstored entry hentry with ⟨ordinal, cell, hcell, hsame⟩
    have hentry := hresolved entry.1 entry.2 hentry
    rw [hcell] at hentry
    rcases restoreCell_storeCell hentry with ⟨stored, hrun, hrow, hcolumn, hfields⟩
    refine ⟨(entry.1, stored), ?_, rfl, ?_⟩
    · rw [hcell, hrun]
      rfl
    · intro other hother hkey
      rcases hsame other hother hkey with ⟨hrow', hcolumn', hfields'⟩
      exact ⟨hrow.trans hrow', hcolumn.trans hcolumn', fun name =>
        (hfields name).trans (hfields' name)⟩
  rcases hrestored with ⟨restored, hrestored, hlast⟩
  refine ⟨restored, ?_, ?_, ?_⟩
  · unfold loadSheetCells
    rw [find?_compactUnit h hunit]
    show (match compactLocator unit.locator with | .other => _ | .spreadsheet sheet => _) = _
    rw [hsheet]
    have hunits : (compactNativeSnapshot units).units = units.map compactUnit := rfl
    rw [hunits]
    exact (ok_bind hcells).trans ((ok_bind hvalues).trans (ok_bind hrestored))
  · have hkeys := forall₂_trans (fun key entry restored hfirst hsecond =>
      (hsecond.1.trans hfirst.1).symm) hall hlast
    rw [← List.map_id (sheet.cells.map sheet.cellKey).eraseDups]
    exact (map_eq_of_forall₂ hkeys).symm
  · intro cell hcell stored hmem
    rcases exists_of_forall₂ hlast hmem with ⟨entry, -, hkey, hsame⟩
    exact hsame cell hcell hkey

end Views
end KnowledgeBrain
