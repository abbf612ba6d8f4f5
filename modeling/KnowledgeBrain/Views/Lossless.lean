import KnowledgeBrain.DocReader.Tilings
import KnowledgeBrain.Views.SharedLines
import KnowledgeBrain.Views.Restored

/-!
# Grids for the model

A grid is shown by its rows, with the texts in the slots of their cells and a
list of the cells that cover more than one slot.  The cells can be read back
from what is shown.
-/

namespace KnowledgeBrain
namespace Views

open Foundation
open Chunker (Text)
open DocReader (TableCell TableGrid Slot gridSlots UnitKind)
open JsonValue (Fields byteLength)

/-- A grid of the host: with the attributes a view knows and no others, or any
other value. -/
inductive GridValue (Other : Type) where
  | native (grid : TableGrid)
  | other (value : Other)

/-- `[row, column, row_span, col_span]`. -/
abbrev MergedCell := Slot × (Nat × Nat)

inductive GridView (Other : Type) where
  | same (grid : GridValue Other)
  | rows (rowCount columnCount : Nat) (rows : List (List (Option Text)))
      (mergedCells : List MergedCell)

inductive IndexFault where
  | indexError
deriving DecidableEq

/-!
# The view
-/

/-- `rows[cell['row']][cell['column']] = cell['text']`. -/
def placeText (rows : List (List (Option Text))) (cell : TableCell) :
    Except IndexFault (List (List (Option Text))) :=
  match rows[cell.row]? with
  | none => .error .indexError
  | some line =>
      if cell.column < line.length then
        .ok (rows.set cell.row (line.set cell.column (some cell.text)))
      else .error .indexError

def mergedCells (cells : List TableCell) : List MergedCell :=
  (cells.filter fun cell => cell.rowSpan ≠ 1 ∨ cell.colSpan ≠ 1).map fun cell =>
    (cell.slot, (cell.rowSpan, cell.colSpan))

/-- `_grid_view`; `dumped` is the length of a grid as JSON. -/
def gridView {Other : Type} (dumped : TableGrid -> Nat) (grid : GridValue Other) :
    Except IndexFault (GridView Other) :=
  match grid with
  | .other value => .ok (.same (.other value))
  | .native grid =>
      if dumped grid < grid.rowCount * grid.columnCount then .ok (.same (.native grid))
      else if (grid.cells.map TableCell.slot).eraseDups.length ≠ grid.cells.length then
        .ok (.same (.native grid))
      else
        (grid.cells.foldlM placeText
          (List.replicate grid.rowCount (List.replicate grid.columnCount none))).map fun rows =>
            .rows grid.rowCount grid.columnCount rows (mergedCells grid.cells)

/-!
# Reading a view
-/

def entry (rows : List (List (Option Text))) (slot : Slot) : Option Text :=
  (rows[slot.1]?.bind fun cells => cells[slot.2]?).join

def spansAt (merged : List MergedCell) (slot : Slot) : Nat × Nat :=
  (merged.lookup slot).getD (1, 1)

def shownCell (merged : List MergedCell) (slot : Slot) (text : Text) : TableCell where
  row := slot.1
  column := slot.2
  rowSpan := (spansAt merged slot).1
  colSpan := (spansAt merged slot).2
  text := text

/-- The cells that a view shows. -/
def viewCells {Other : Type} : GridView Other -> List TableCell
  | .same (.native grid) => grid.cells
  | .same (.other _) => []
  | .rows rowCount columnCount rows merged =>
      (gridSlots rowCount columnCount).filterMap fun slot =>
        (entry rows slot).map (shownCell merged slot)

/-!
# One cell
-/

/-- The rows have the size of the grid. -/
def Sized (rowCount columnCount : Nat) (rows : List (List (Option Text))) : Prop :=
  rows.length = rowCount ∧ forall line, line ∈ rows -> line.length = columnCount

theorem sized_replicate (rowCount columnCount : Nat) :
    Sized rowCount columnCount (List.replicate rowCount (List.replicate columnCount none)) := by
  constructor
  · exact List.length_replicate
  · intro line hline
    rw [List.eq_of_mem_replicate hline]
    exact List.length_replicate

theorem entry_replicate (rowCount columnCount : Nat) (slot : Slot) :
    entry (List.replicate rowCount (List.replicate columnCount none)) slot = none := by
  unfold entry
  rw [List.getElem?_replicate]
  by_cases hrow : slot.1 < rowCount
  · rw [if_pos hrow]
    show ((List.replicate columnCount none)[slot.2]?).join = none
    rw [List.getElem?_replicate]
    split
    · rfl
    · rfl
  · rw [if_neg hrow]
    rfl

variable {rows : List (List (Option Text))} {rowCount columnCount : Nat}

/-- A text is placed in its slot, and the other slots stay as they are. -/
theorem placeText_eq_ok {cell : TableCell} (hsized : Sized rowCount columnCount rows)
    (hrow : cell.row < rowCount) (hcolumn : cell.column < columnCount) :
    exists rows', placeText rows cell = .ok rows' ∧ Sized rowCount columnCount rows' ∧
      forall slot, entry rows' slot = if slot = cell.slot then some cell.text
        else entry rows slot := by
  rcases hsized with ⟨hlength, hlines⟩
  have hin : cell.row < rows.length := by omega
  have hline : rows[cell.row]? = some rows[cell.row] := List.getElem?_eq_getElem hin
  have hwidth : rows[cell.row].length = columnCount := hlines _ (List.getElem_mem hin)
  refine ⟨rows.set cell.row (rows[cell.row].set cell.column (some cell.text)), ?_, ?_, ?_⟩
  · unfold placeText
    rw [hline]
    dsimp only
    rw [if_pos (by omega)]
  · constructor
    · rw [List.length_set, hlength]
    · intro line hmem
      rcases List.mem_or_eq_of_mem_set hmem with hold | rfl
      · exact hlines line hold
      · rw [List.length_set, hwidth]
  · intro slot
    rcases slot with ⟨row, column⟩
    unfold entry
    show ((rows.set cell.row _)[row]?.bind fun cells => cells[column]?).join = _
    by_cases hsame : row = cell.row
    · subst hsame
      rw [List.getElem?_set_self hin, hline]
      show (rows[cell.row].set cell.column (some cell.text))[column]?.join = _
      by_cases hat : column = cell.column
      · subst hat
        have hslot : (cell.row, cell.column) = cell.slot := rfl
        rw [List.getElem?_set_self (by omega), if_pos hslot]
        rfl
      · rw [List.getElem?_set_ne (Ne.symm hat), if_neg]
        · rfl
        · intro heq
          exact hat (congrArg Prod.snd heq)
    · rw [List.getElem?_set_ne (Ne.symm hsame), if_neg]
      intro heq
      exact hsame (congrArg Prod.fst heq)

/-!
# All the cells
-/

/-- The texts of the cells, at their slots. -/
def placedTexts (cells : List TableCell) : List (Slot × Text) :=
  cells.map fun cell => (cell.slot, cell.text)

variable {cells : List TableCell}

theorem foldlM_placeText (hsized : Sized rowCount columnCount rows)
    (hunique : (cells.map TableCell.slot).Nodup)
    (hinside : forall cell, cell ∈ cells -> cell.row < rowCount ∧ cell.column < columnCount) :
    exists rows', cells.foldlM placeText rows = .ok rows' ∧
      forall slot, entry rows' slot = ((placedTexts cells).lookup slot).or (entry rows slot) := by
  induction cells generalizing rows with
  | nil =>
      exact ⟨rows, rfl, fun _ => rfl⟩
  | cons cell rest ih =>
      rw [List.map_cons, List.nodup_cons] at hunique
      have hcell := hinside cell List.mem_cons_self
      rcases placeText_eq_ok hsized hcell.1 hcell.2 with ⟨placed, hplaced, hsized', hentry⟩
      rcases ih hsized' hunique.2 (fun other h => hinside other (List.mem_cons_of_mem _ h)) with
        ⟨rows', hrest, hrows'⟩
      refine ⟨rows', ?_, ?_⟩
      · rw [List.foldlM_cons, hplaced]
        exact hrest
      · intro slot
        rw [hrows', hentry]
        unfold placedTexts
        rw [List.map_cons, List.lookup_cons]
        by_cases hslot : slot = cell.slot
        · subst hslot
          have hnone : (rest.map fun cell => (cell.slot, cell.text)).lookup cell.slot = none := by
            rw [List.lookup_eq_none_iff]
            intro row hrow
            rcases List.mem_map.mp hrow with ⟨other, hother, rfl⟩
            apply bne_iff_ne.mpr
            intro heq
            apply hunique.1
            rw [heq]
            exact List.mem_map_of_mem hother
          rw [hnone, if_pos rfl, beq_self_eq_true]
          rfl
        · rw [if_neg hslot, beq_eq_false_iff_ne.mpr hslot]

theorem nodup_keys_placedTexts (hunique : (cells.map TableCell.slot).Nodup) :
    ((placedTexts cells).map Prod.fst).Nodup := by
  unfold placedTexts
  rw [List.map_map]
  exact hunique

theorem spansAt_mergedCells (hunique : (cells.map TableCell.slot).Nodup) {cell : TableCell}
    (hcell : cell ∈ cells) :
    spansAt (mergedCells cells) cell.slot = (cell.rowSpan, cell.colSpan) := by
  unfold spansAt
  by_cases hspans : cell.rowSpan ≠ 1 ∨ cell.colSpan ≠ 1
  · have hkeys : ((mergedCells cells).map Prod.fst).Nodup := by
      unfold mergedCells
      rw [List.map_map]
      exact hunique.sublist (List.Sublist.map _ List.filter_sublist)
    have hmem : (cell.slot, (cell.rowSpan, cell.colSpan)) ∈ mergedCells cells := by
      unfold mergedCells
      rw [List.mem_map]
      exact ⟨cell, List.mem_filter.mpr ⟨hcell, decide_eq_true hspans⟩, rfl⟩
    rw [Table.lookup_rows_of_mem hkeys hmem]
    rfl
  · have hnone : (mergedCells cells).lookup cell.slot = none := by
      rw [List.lookup_eq_none_iff]
      intro row hrow
      rcases List.mem_map.mp hrow with ⟨other, hother, rfl⟩
      apply bne_iff_ne.mpr
      intro heq
      have hsame : cell = other := List.inj_on_of_nodup_map hunique hcell
        (List.mem_filter.mp hother).1 heq
      exact hspans (hsame ▸ of_decide_eq_true (List.mem_filter.mp hother).2)
    rw [hnone]
    simp only [not_or, not_not] at hspans
    rw [hspans.1, hspans.2]
    rfl

/-- The cells shown at the slots are the cells of the grid. -/
theorem shownCells_perm (hunique : (cells.map TableCell.slot).Nodup)
    (hinside : forall cell, cell ∈ cells -> cell.row < rowCount ∧ cell.column < columnCount)
    (hrows : forall slot, entry rows slot = (placedTexts cells).lookup slot) :
    ((gridSlots rowCount columnCount).filterMap fun slot =>
      (entry rows slot).map (shownCell (mergedCells cells) slot)).Perm cells := by
  rw [List.perm_ext_iff_of_nodup _ hunique.of_map]
  · intro cell
    rw [List.mem_filterMap]
    constructor
    · rintro ⟨slot, -, hcell⟩
      rw [hrows, Option.map_eq_some_iff] at hcell
      rcases hcell with ⟨text, htext, rfl⟩
      rcases List.lookup_eq_some_iff.mp htext with ⟨before, behind, hrow, -⟩
      have hmem : (slot, text) ∈ placedTexts cells := by
        rw [hrow]
        exact List.mem_append_right _ List.mem_cons_self
      rcases List.mem_map.mp hmem with ⟨other, hother, heq⟩
      cases heq
      unfold shownCell
      rw [spansAt_mergedCells hunique hother]
      exact hother
    · intro hcell
      refine ⟨cell.slot, DocReader.mem_gridSlots.mpr (hinside cell hcell), ?_⟩
      have hmem : (cell.slot, cell.text) ∈ placedTexts cells := List.mem_map_of_mem hcell
      rw [hrows, Table.lookup_rows_of_mem (nodup_keys_placedTexts hunique) hmem]
      show some (shownCell _ cell.slot cell.text) = some cell
      unfold shownCell
      rw [spansAt_mergedCells hunique hcell]
      rfl
  · apply List.Nodup.filterMap _ (DocReader.nodup_gridSlots rowCount columnCount)
    intro slot slot' cell hcell hcell'
    rcases Option.map_eq_some_iff.mp hcell with ⟨text, -, rfl⟩
    rcases Option.map_eq_some_iff.mp hcell' with ⟨text', -, heq⟩
    exact Prod.ext (congrArg TableCell.row heq).symm (congrArg TableCell.column heq).symm

theorem gridView_cells {Other : Type} (dumped : TableGrid -> Nat) {grid : TableGrid}
    (hunique : (grid.cells.map TableCell.slot).Nodup)
    (hinside : forall cell, cell ∈ grid.cells ->
      cell.row < grid.rowCount ∧ cell.column < grid.columnCount) :
    exists view : GridView Other, gridView dumped (.native grid) = .ok view ∧
      (viewCells view).Perm grid.cells := by
  unfold gridView
  dsimp only
  split
  · exact ⟨_, rfl, .refl _⟩
  · split
    · exact ⟨_, rfl, .refl _⟩
    · rcases foldlM_placeText (sized_replicate grid.rowCount grid.columnCount) hunique hinside with
        ⟨rows, hrun, hrows⟩
      rw [hrun]
      refine ⟨_, rfl, shownCells_perm hunique hinside ?_⟩
      intro slot
      rw [hrows, entry_replicate, Option.or_none]

/-!
# Compact views are lossless

What the model is shown in place of texts, grids and cells gives them back.
-/

/-- Shared lines give back the texts in no more bytes, the view of a grid gives
back its cells, and loading a unit gives back the cells it had. -/
theorem compactViews_lossless :
    (forall (fields : List String) (payload payload' : Fields), fields.Nodup ->
      (payload.map Prod.fst).Nodup -> shareTextLines fields payload = .ok payload' ->
      (payload' = payload ∨ PayloadShared fields payload payload') ∧
        byteLength (.object payload') ≤ byteLength (.object payload)) ∧
    (forall (Other : Type) (dumped : TableGrid -> Nat) (grid : TableGrid),
      (grid.cells.map TableCell.slot).Nodup ->
      (forall cell, cell ∈ grid.cells ->
        cell.row < grid.rowCount ∧ cell.column < grid.columnCount) ->
      exists view : GridView Other, gridView dumped (.native grid) = .ok view ∧
        (viewCells view).Perm grid.cells) ∧
    (forall units : List RawUnit, Consistent units -> forall unit, unit ∈ units -> forall sheet,
      unit.locator = .spreadsheet sheet ->
      exists cells, loadSheetCells (compactNativeSnapshot units) unit.unitId = .ok (some cells) ∧
        cells.map Prod.fst = (sheet.cells.map sheet.cellKey).eraseDups ∧
        forall cell, cell ∈ sheet.cells -> forall stored, (sheet.cellKey cell, stored) ∈ cells ->
          SameCell cell stored) := by
  refine ⟨?_, ?_, ?_⟩
  · intro fields payload payload' hfields hkeys h
    constructor
    · exact shareTextLines_shared hkeys h
    · exact byteLength_shareTextLines hfields hkeys h
  · intro Other dumped grid hunique hinside
    exact gridView_cells dumped hunique hinside
  · intro units h unit hunit sheet hsheet
    exact loadSheetCells_compact h hunit hsheet

/-!
# A payload, a grid and a snapshot
-/

def samplePayload : Fields :=
  [("supports", .array [
    .object [("id", .number "1"), ("text", .text "the line that both parts have\nfirst")],
    .object [("id", .number "2"), ("text", .text "the line that both parts have\nsecond")],
    .object [("id", .number "3"), ("text", .text "the line that both parts have")]])]

def sampleGrid : TableGrid where
  rowCount := 2
  columnCount := 2
  cells := [⟨0, 0, 1, 2, ['a']⟩, ⟨1, 0, 1, 1, ['b']⟩, ⟨1, 1, 1, 1, []⟩]
  widthsMm := none

def sampleCell : SheetCell :=
  ⟨3, 2, [("text", .text "b"), ("raw_value", .text "b"), ("type", .text "s")]⟩

def sampleUnits : List RawUnit :=
  [⟨"table", .tableRegion, [], some sampleGrid, .spreadsheet ⟨1, 2, 2, [sampleCell]⟩⟩,
    ⟨"row", .tableRow, ['b'], none, .spreadsheet ⟨1, 0, 0, [sampleCell]⟩⟩]

theorem sampleUnits_consistent : Consistent sampleUnits where
  ids := by decide
  cells := by
    intro unit hunit unit' hunit' sheet sheet' hsheet hsheet' _ cell hcell cell' hcell' _ _ name
    have hcells : forall unit, unit ∈ sampleUnits -> forall sheet,
        unit.locator = .spreadsheet sheet -> sheet.cells = [sampleCell] := by
      intro unit hunit sheet hsheet
      simp only [sampleUnits, List.mem_cons, List.not_mem_nil, or_false] at hunit
      rcases hunit with rfl | rfl
      · cases hsheet
        rfl
      · cases hsheet
        rfl
    rw [hcells unit hunit sheet hsheet, List.mem_singleton] at hcell
    rw [hcells unit' hunit' sheet' hsheet', List.mem_singleton] at hcell'
    rw [hcell, hcell']

theorem compactViews_lossless_sample :
    (exists payload', shareTextLines ["supports"] samplePayload = .ok payload' ∧
      PayloadShared ["supports"] samplePayload payload') ∧
    (exists view : GridView Unit, gridView (fun _ => 100) (.native sampleGrid) = .ok view ∧
      (viewCells view).Perm sampleGrid.cells) ∧
    (exists cells, loadSheetCells (compactNativeSnapshot sampleUnits) "row" = .ok (some cells) ∧
      forall stored, (cellKey (1, 3, 2), stored) ∈ cells -> SameCell sampleCell stored) := by
  rcases compactViews_lossless with ⟨hshared, hgrid, hcells⟩
  refine ⟨?_, ?_, ?_⟩
  · have hpool : ((shareTextLines ["supports"] samplePayload).toOption.bind fun payload =>
        payload.lookup "text_pool").isSome = true := by
      decide +kernel
    cases hrun : shareTextLines ["supports"] samplePayload with
    | error e =>
        rw [hrun] at hpool
        cases hpool
    | ok payload' =>
        refine ⟨payload', rfl, ?_⟩
        rcases (hshared _ _ _ (by decide) (by decide) hrun).1 with rfl | hpayload
        · rw [hrun] at hpool
          cases hpool
        · exact hpayload
  · exact hgrid Unit (fun _ => 100) sampleGrid (by decide) (by decide)
  · rcases hcells sampleUnits sampleUnits_consistent _
      (List.mem_cons_of_mem _ List.mem_cons_self) _ rfl with ⟨cells, hrun, -, hall⟩
    exact ⟨cells, hrun, hall sampleCell List.mem_cons_self⟩

end Views
end KnowledgeBrain
