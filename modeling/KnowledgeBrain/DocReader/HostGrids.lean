import KnowledgeBrain.Foundation.Digits
import KnowledgeBrain.DocReader.Tilings
import Mathlib.Algebra.Ring.Nat
import Mathlib.Algebra.Order.Ring.Nat

/-!
# The grids of the host

The host holds the numbers of a grid as machine words and the widths as any
doubles, so its check also guards its own additions.  What passes is exactly
a tiling, and in a tiling the anchors can be asked for without an addition
that leaves a word.
-/

namespace KnowledgeBrain
namespace DocReader

open Foundation
open Chunker (Text byteLen)

/-!
# Words
-/

/-- A double, by its bits. -/
structure Double where
  bits : UInt64
deriving DecidableEq

def Double.exponent (d : Double) : Nat :=
  d.bits.toNat / 2 ^ 52 % 2 ^ 11

def Double.isNaN (d : Double) : Bool :=
  decide (d.exponent = 2047 ∧ d.bits.toNat % 2 ^ 52 ≠ 0)

/-- `is_finite`. -/
def Double.isFinite (d : Double) : Bool :=
  decide (d.exponent ≠ 2047)

/-- `width <= 0.0`: a zero or a sign, but not of a NaN. -/
def Double.isLeZero (d : Double) : Bool :=
  !d.isNaN && decide (d.bits.toNat = 0 ∨ 2 ^ 63 ≤ d.bits.toNat)

/-- `checked_add` of two `u32`. -/
def checkedAddU32 (a b : UInt32) : Option UInt32 :=
  if a.toNat + b.toNat < 2 ^ 32 then some (a + b) else none

/-- `checked_mul` of two `u64`. -/
def checkedMulU64 (a b : Nat) : Option Nat :=
  if a * b < 2 ^ 64 then some (a * b) else none

theorem toNat_add_of_lt {a b : UInt32} (h : a.toNat + b.toNat < 2 ^ 32) :
    (a + b).toNat = a.toNat + b.toNat := by
  rw [UInt32.toNat_add, Nat.mod_eq_of_lt h]

theorem all_checkedAddU32 {a b bound : UInt32} :
    ((checkedAddU32 a b).all fun e => decide (bound < e)) = true <->
      bound.toNat < a.toNat + b.toNat := by
  have hbound := bound.toNat_lt
  unfold checkedAddU32
  split
  · rename_i hlt
    simp [UInt32.lt_iff_toNat_lt, toNat_add_of_lt hlt]
  · rename_i hover
    simp
    omega

/-!
# Grids
-/

/-- A text is no longer than the host can hold. -/
structure PdfTableCell where
  row : UInt32
  column : UInt32
  rowSpan : UInt32
  colSpan : UInt32
  text : Text
  fits : byteLen text < 2 ^ 64
deriving DecidableEq

structure HostGrid where
  rowCount : UInt32
  columnCount : UInt32
  cells : List PdfTableCell
  widthsMm : Option (List Double)
deriving DecidableEq

def PdfTableCell.anchor (cell : PdfTableCell) : UInt32 × UInt32 :=
  (cell.row, cell.column)

/-- The numbers of a cell, as numbers. -/
def PdfTableCell.toCell (cell : PdfTableCell) : TableCell where
  row := cell.row.toNat
  column := cell.column.toNat
  rowSpan := cell.rowSpan.toNat
  colSpan := cell.colSpan.toNat
  text := cell.text

variable {a b : PdfTableCell}

theorem PdfTableCell.toCell_inj (h : a.toCell = b.toCell) : a = b := by
  rcases a with ⟨row, column, rowSpan, colSpan, text, fits⟩
  rcases b with ⟨row', column', rowSpan', colSpan', text', fits'⟩
  simp only [toCell, TableCell.mk.injEq, UInt32.toNat_inj] at h
  rcases h with ⟨rfl, rfl, rfl, rfl, rfl⟩
  rfl

theorem PdfTableCell.slot_eq_iff :
    a.toCell.slot = b.toCell.slot <-> a.anchor = b.anchor := by
  simp [TableCell.slot, toCell, anchor, UInt32.toNat_inj]

/-!
# The check
-/

/-- The range `start..stop`. -/
def between (start stop : UInt32) : List Nat :=
  List.range' start.toNat (stop.toNat - start.toNat)

/-- The slots of the loops over a cell. -/
def PdfTableCell.slots (cell : PdfTableCell) : List Slot :=
  (between cell.row (cell.row + cell.rowSpan)).flatMap fun row =>
    (between cell.column (cell.column + cell.colSpan)).map fun column => (row, column)

/-- The condition of an invalid cell. -/
def InvalidCell (rowCount columnCount : UInt32) (seen : List Slot) (cell : PdfTableCell) : Prop :=
  cell.rowSpan = 0 ∨ cell.colSpan = 0 ∨ rowCount ≤ cell.row ∨ columnCount ≤ cell.column ∨
    ((checkedAddU32 cell.row cell.rowSpan).all fun e => decide (rowCount < e)) = true ∨
    ((checkedAddU32 cell.column cell.colSpan).all fun e => decide (columnCount < e)) = true ∨
    cell.toCell.slot ∈ seen

instance (rowCount columnCount : UInt32) (seen : List Slot) (cell : PdfTableCell) :
    Decidable (InvalidCell rowCount columnCount seen cell) :=
  inferInstanceAs (Decidable (_ ∨ _))

/-- The loop of `validate_table_grid` over machine words. -/
def checkHostCell (rowCount columnCount : UInt32) (s : Tiling) (cell : PdfTableCell) :
    Except String Tiling := do
  reject (InvalidCell rowCount columnCount s.seen cell) "DocReader returned invalid table grid cell"
  let seen := cell.toCell.slot :: s.seen
  let occupied ← cell.slots.foldlM
    (occupy "DocReader returned overlapping table grid spans"
      "DocReader returned covered table grid slot" seen cell.toCell.slot) s.occupied
  return ⟨seen, occupied⟩

/-- The product of the counts, as a `u64`. -/
def expectedSlots (rowCount columnCount : UInt32) : Except String Nat :=
  match checkedMulU64 rowCount.toNat columnCount.toNat with
  | some expected => .ok expected
  | none => .error "DocReader returned overflowing table grid"

/-- `validate_table_grid` over machine words. -/
def validateHostGrid (grid : HostGrid) : Except String Unit := do
  reject (grid.rowCount = 0 ∨ grid.columnCount = 0) "DocReader returned empty table grid"
  let s ← grid.cells.foldlM (checkHostCell grid.rowCount grid.columnCount) ⟨[], []⟩
  let expected ← expectedSlots grid.rowCount grid.columnCount
  reject (s.occupied.length ≠ expected) "DocReader returned table grid that does not tile"
  match grid.widthsMm with
  | none => return
  | some widths =>
      reject (widths.length ≠ grid.columnCount.toNat ∨
          (widths.any fun width => !width.isFinite || width.isLeZero) = true)
        "DocReader returned invalid table grid widths"

variable {cell : PdfTableCell}

theorem invalidCell_iff {rowCount columnCount : UInt32} {seen : List Slot} :
    InvalidCell rowCount columnCount seen cell <->
      ¬ Inside rowCount.toNat columnCount.toNat cell.toCell ∨ cell.toCell.slot ∈ seen := by
  unfold InvalidCell
  rw [all_checkedAddU32, all_checkedAddU32, UInt32.le_iff_toNat_le, UInt32.le_iff_toNat_le,
    ← UInt32.toNat_inj, ← UInt32.toNat_inj]
  show _ <-> ¬ (1 ≤ cell.rowSpan.toNat ∧ 1 ≤ cell.colSpan.toNat ∧
    cell.row.toNat < rowCount.toNat ∧ cell.column.toNat < columnCount.toNat ∧
    cell.row.toNat + cell.rowSpan.toNat ≤ rowCount.toNat ∧
    cell.column.toNat + cell.colSpan.toNat ≤ columnCount.toNat) ∨ _
  have hzero : (0 : UInt32).toNat = 0 := rfl
  rw [hzero]
  by_cases hseen : cell.toCell.slot ∈ seen
  · simp only [hseen, or_true]
  · simp only [hseen, or_false]
    omega

theorem PdfTableCell.slots_eq {rowCount columnCount : UInt32}
    (h : Inside rowCount.toNat columnCount.toNat cell.toCell) : cell.slots = cell.toCell.slots := by
  rcases h with ⟨_, _, _, _, hrows, hcolumns⟩
  have hrow := rowCount.toNat_lt
  have hcolumn := columnCount.toNat_lt
  have hbottom : (cell.row + cell.rowSpan).toNat = cell.row.toNat + cell.rowSpan.toNat :=
    toNat_add_of_lt (Nat.lt_of_le_of_lt hrows hrow)
  have hright : (cell.column + cell.colSpan).toNat = cell.column.toNat + cell.colSpan.toNat :=
    toNat_add_of_lt (Nat.lt_of_le_of_lt hcolumns hcolumn)
  simp [slots, between, TableCell.slots, toCell, hbottom, hright]

theorem checkHostCell_eq (rowCount columnCount : UInt32) (s : Tiling) (cell : PdfTableCell) :
    checkHostCell rowCount columnCount s cell =
      checkCell rowCount.toNat columnCount.toNat s cell.toCell := by
  unfold checkHostCell checkCell
  by_cases hinvalid : InvalidCell rowCount columnCount s.seen cell
  · have hnumbers := invalidCell_iff.mp hinvalid
    simp only [reject, if_pos hinvalid, if_pos hnumbers]
    rfl
  · have hnumbers := mt invalidCell_iff.mpr hinvalid
    have hinside := not_not.mp (not_or.mp hnumbers).1
    rw [reject_bind hinvalid, reject_bind hnumbers, PdfTableCell.slots_eq hinside]

theorem foldlM_checkHostCell (rowCount columnCount : UInt32) (cells : List PdfTableCell)
    (s : Tiling) :
    cells.foldlM (checkHostCell rowCount columnCount) s =
      (cells.map PdfTableCell.toCell).foldlM (checkCell rowCount.toNat columnCount.toNat) s := by
  rw [List.foldlM_map]
  congr 1
  funext s cell
  exact checkHostCell_eq rowCount columnCount s cell

theorem expectedSlots_eq (rowCount columnCount : UInt32) :
    expectedSlots rowCount columnCount = .ok (rowCount.toNat * columnCount.toNat) := by
  have hlt : rowCount.toNat * columnCount.toNat < 2 ^ 64 :=
    Nat.lt_of_lt_of_eq (Nat.mul_lt_mul'' rowCount.toNat_lt columnCount.toNat_lt) (by decide)
  unfold expectedSlots checkedMulU64
  rw [if_pos hlt]

/-!
# Exact tilings
-/

/-- The rectangle of a cell. -/
def PdfTableCell.Covers (cell : PdfTableCell) (row column : Nat) : Prop :=
  (cell.row.toNat ≤ row ∧ row < cell.row.toNat + cell.rowSpan.toNat) ∧
    cell.column.toNat ≤ column ∧ column < cell.column.toNat + cell.colSpan.toNat

/-- A rectangle of at least one slot, within the counts. -/
def PdfTableCell.LiesIn (cell : PdfTableCell) (grid : HostGrid) : Prop :=
  0 < cell.rowSpan.toNat ∧ 0 < cell.colSpan.toNat ∧
    cell.row.toNat + cell.rowSpan.toNat ≤ grid.rowCount.toNat ∧
    cell.column.toNat + cell.colSpan.toNat ≤ grid.columnCount.toNat

/-- Neither NaN nor infinite, not zero and without a sign. -/
def Double.PositiveFinite (d : Double) : Prop :=
  d.exponent ≠ 2047 ∧ 0 < d.bits.toNat ∧ d.bits.toNat < 2 ^ 63

/-- The rectangles of the cells cut the grid into pieces. -/
structure ExactTiling (grid : HostGrid) : Prop where
  rows : 0 < grid.rowCount.toNat
  columns : 0 < grid.columnCount.toNat
  inside : forall cell, cell ∈ grid.cells -> cell.LiesIn grid
  disjoint : grid.cells.Pairwise fun a b => forall row column,
    ¬ (a.Covers row column ∧ b.Covers row column)
  covers : forall row column, row < grid.rowCount.toNat -> column < grid.columnCount.toNat ->
    exists cell, cell ∈ grid.cells ∧ cell.Covers row column
  widths : forall widths, grid.widthsMm = some widths ->
    widths.length = grid.columnCount.toNat ∧
      forall width, width ∈ widths -> width.PositiveFinite

theorem PdfTableCell.mem_slots {row column : Nat} :
    (row, column) ∈ cell.toCell.slots <-> cell.Covers row column :=
  TableCell.mem_slots

variable {grid : HostGrid}

theorem PdfTableCell.liesIn_iff :
    cell.LiesIn grid <-> Inside grid.rowCount.toNat grid.columnCount.toNat cell.toCell := by
  show (_ ∧ _ ∧ _ ∧ _) <-> (1 ≤ cell.rowSpan.toNat ∧ 1 ≤ cell.colSpan.toNat ∧
    cell.row.toNat < grid.rowCount.toNat ∧ cell.column.toNat < grid.columnCount.toNat ∧
    cell.row.toNat + cell.rowSpan.toNat ≤ grid.rowCount.toNat ∧
    cell.column.toNat + cell.colSpan.toNat ≤ grid.columnCount.toNat)
  omega

theorem disjoint_slots_iff :
    a.toCell.slots.Disjoint b.toCell.slots <->
      forall row column, ¬ (a.Covers row column ∧ b.Covers row column) := by
  constructor
  · rintro hdisjoint row column ⟨ha, hb⟩
    exact hdisjoint (PdfTableCell.mem_slots.mpr ha) (PdfTableCell.mem_slots.mpr hb)
  · rintro h ⟨row, column⟩ ha hb
    exact h row column ⟨PdfTableCell.mem_slots.mp ha, PdfTableCell.mem_slots.mp hb⟩

/-- The rectangles cut the grid exactly when the numbers tile it. -/
theorem tiles_toCell_iff :
    Tiles grid.rowCount.toNat grid.columnCount.toNat (grid.cells.map PdfTableCell.toCell) <->
      (forall cell, cell ∈ grid.cells -> cell.LiesIn grid) ∧
        (grid.cells.Pairwise fun a b => forall row column,
          ¬ (a.Covers row column ∧ b.Covers row column)) ∧
        forall row column, row < grid.rowCount.toNat -> column < grid.columnCount.toNat ->
          exists cell, cell ∈ grid.cells ∧ cell.Covers row column := by
  constructor
  · intro h
    constructor
    · intro cell hcell
      exact PdfTableCell.liesIn_iff.mpr (h.inside _ (List.mem_map_of_mem hcell))
    constructor
    · exact (List.pairwise_map.mp h.disjoint).imp disjoint_slots_iff.mp
    · intro row column hrow hcolumn
      rcases h.covers row column hrow hcolumn with ⟨_, hcell, hslot⟩
      rcases List.mem_map.mp hcell with ⟨cell, hmem, rfl⟩
      exact ⟨cell, hmem, PdfTableCell.mem_slots.mp hslot⟩
  · rintro ⟨hinside, hdisjoint, hcovers⟩
    constructor
    · intro numbers hcell
      rcases List.mem_map.mp hcell with ⟨cell, hmem, rfl⟩
      exact PdfTableCell.liesIn_iff.mp (hinside cell hmem)
    · exact List.pairwise_map.mpr (hdisjoint.imp disjoint_slots_iff.mpr)
    · intro row column hrow hcolumn
      rcases hcovers row column hrow hcolumn with ⟨cell, hcell, hcovered⟩
      exact ⟨cell.toCell, List.mem_map_of_mem hcell, PdfTableCell.mem_slots.mpr hcovered⟩

theorem Double.positiveFinite_iff {d : Double} :
    d.PositiveFinite <-> (!d.isFinite || d.isLeZero) = false := by
  simp only [PositiveFinite, isFinite, isLeZero, isNaN, Bool.or_eq_false_iff,
    Bool.not_eq_false', Bool.and_eq_false_iff, decide_eq_true_eq, decide_eq_false_iff_not]
  omega

theorem any_width_eq_false {widths : List Double} :
    (widths.any fun width => !width.isFinite || width.isLeZero) = false <->
      forall width, width ∈ widths -> width.PositiveFinite := by
  rw [List.any_eq_false]
  constructor
  · intro h width hwidth
    exact Double.positiveFinite_iff.mpr (Bool.eq_false_iff.mpr (h width hwidth))
  · intro h width hwidth
    exact Bool.eq_false_iff.mp (Double.positiveFinite_iff.mp (h width hwidth))

theorem toNat_pos_iff {n : UInt32} : 0 < n.toNat <-> n ≠ 0 := by
  rw [Nat.pos_iff_ne_zero, ne_eq, ne_eq, ← UInt32.toNat_inj]
  rfl

/-- The host accepts exactly the tilings. -/
theorem validateHostGrid_eq_ok :
    validateHostGrid grid = .ok () <-> ExactTiling grid := by
  unfold validateHostGrid
  rw [foldlM_checkHostCell, expectedSlots_eq]
  constructor
  · intro h
    rcases bind_eq_ok h with ⟨_, hcounts, h⟩
    rcases bind_eq_ok h with ⟨s, hcells, h⟩
    rcases bind_eq_ok h with ⟨expected, hexpected, h⟩
    rcases bind_eq_ok h with ⟨_, hlength, hwidths⟩
    cases hexpected
    have hcounts := not_or.mp (reject_eq_ok.mp hcounts)
    have htiles := tiles_toCell_iff.mp
      (checkCells_iff_tiles.mp ⟨s, hcells, not_not.mp (reject_eq_ok.mp hlength)⟩)
    constructor
    · exact toNat_pos_iff.mpr hcounts.1
    · exact toNat_pos_iff.mpr hcounts.2
    · exact htiles.1
    · exact htiles.2.1
    · exact htiles.2.2
    · intro widths heq
      rw [heq] at hwidths
      have hwidths := not_or.mp (reject_eq_ok.mp hwidths)
      exact ⟨not_not.mp hwidths.1, any_width_eq_false.mp (Bool.eq_false_iff.mpr hwidths.2)⟩
  · intro h
    have hcounts : ¬ (grid.rowCount = 0 ∨ grid.columnCount = 0) :=
      not_or.mpr ⟨toNat_pos_iff.mp h.rows, toNat_pos_iff.mp h.columns⟩
    rcases checkCells_iff_tiles.mpr (tiles_toCell_iff.mpr ⟨h.inside, h.disjoint, h.covers⟩) with
      ⟨s, hcells, hlength⟩
    rw [reject_bind hcounts, ok_bind hcells, ok_bind rfl, reject_bind (not_not.mpr hlength)]
    cases hwidths : grid.widthsMm with
    | none =>
        rfl
    | some widths =>
        have hgood := h.widths widths hwidths
        apply reject_eq_ok.mpr
        rintro (hcount | hbad)
        · exact hcount hgood.1
        · rw [any_width_eq_false.mpr hgood.2] at hbad
          exact absurd hbad Bool.false_ne_true

/-!
# Anchors
-/

/-- Another cell takes the slot; `none` is an addition that overflows. -/
def coveredBy (row column : UInt32) (other : PdfTableCell) : Option Bool :=
  if (other.row, other.column) ≠ (row, column) ∧ other.row ≤ row ∧ other.column ≤ column then do
    let bottom ← checkedAddU32 other.row other.rowSpan
    if row < bottom then do
      let right ← checkedAddU32 other.column other.colSpan
      return decide (column < right)
    else
      return false
  else
    return false

/-- `grid_cell_is_anchor`. -/
def gridCellIsAnchor (grid : HostGrid) (row column : UInt32) : Option Bool :=
  grid.cells.anyM fun cell =>
    if cell.row = row ∧ cell.column = column then
      return !(← grid.cells.anyM (coveredBy row column))
    else
      return false

theorem anyM_eq_some {A : Type} {f : A -> Option Bool} {p : A -> Bool} {items : List A}
    (h : forall a, a ∈ items -> f a = some (p a)) : items.anyM f = some (items.any p) := by
  induction items with
  | nil =>
      rfl
  | cons a items ih =>
      have ih := ih fun b hb => h b (List.mem_cons_of_mem a hb)
      rw [List.anyM, h a List.mem_cons_self, List.any_cons]
      cases p a with
      | true => rfl
      | false => exact ih

theorem checkedAddU32_of_liesIn (h : cell.LiesIn grid) :
    checkedAddU32 cell.row cell.rowSpan = some (cell.row + cell.rowSpan) ∧
      checkedAddU32 cell.column cell.colSpan = some (cell.column + cell.colSpan) :=
  ⟨if_pos (Nat.lt_of_le_of_lt h.2.2.1 grid.rowCount.toNat_lt),
    if_pos (Nat.lt_of_le_of_lt h.2.2.2 grid.columnCount.toNat_lt)⟩

/-- In a tiling no addition overflows and no other cell takes the slot of an anchor. -/
theorem ExactTiling.coveredBy_anchor (h : ExactTiling grid) {cell other : PdfTableCell}
    (hcell : cell ∈ grid.cells) (hother : other ∈ grid.cells) :
    coveredBy cell.row cell.column other = some false := by
  have hadd := checkedAddU32_of_liesIn (h.inside other hother)
  have hnot : ¬ ((other.row, other.column) ≠ (cell.row, cell.column) ∧
      other.Covers cell.row.toNat cell.column.toNat) := by
    rintro ⟨hne, hcovers⟩
    have htiles := tiles_toCell_iff.mpr ⟨h.inside, h.disjoint, h.covers⟩
    have hinside := PdfTableCell.liesIn_iff.mp (h.inside cell hcell)
    have hsame := htiles.eq_of_mem (List.mem_map_of_mem hother) (List.mem_map_of_mem hcell)
      (PdfTableCell.mem_slots.mpr hcovers) hinside.slot_mem
    rw [PdfTableCell.toCell_inj hsame] at hne
    exact hne rfl
  have hbottom : (other.row + other.rowSpan).toNat = other.row.toNat + other.rowSpan.toNat :=
    toNat_add_of_lt (Nat.lt_of_le_of_lt (h.inside other hother).2.2.1 grid.rowCount.toNat_lt)
  have hright : (other.column + other.colSpan).toNat =
      other.column.toNat + other.colSpan.toNat :=
    toNat_add_of_lt (Nat.lt_of_le_of_lt (h.inside other hother).2.2.2 grid.columnCount.toNat_lt)
  unfold coveredBy
  rw [hadd.1, hadd.2]
  split
  · rename_i hbefore
    show (if cell.row < other.row + other.rowSpan then _ else _) = some false
    split
    · rename_i hrow
      show some (decide (cell.column < other.column + other.colSpan)) = some false
      congr 1
      apply decide_eq_false
      intro hcolumn
      rw [UInt32.lt_iff_toNat_lt, hbottom] at hrow
      rw [UInt32.lt_iff_toNat_lt, hright] at hcolumn
      rw [UInt32.le_iff_toNat_le, UInt32.le_iff_toNat_le] at hbefore
      exact hnot ⟨hbefore.1, ⟨hbefore.2.1, hrow⟩, hbefore.2.2, hcolumn⟩
    · rfl
  · rfl

theorem ExactTiling.gridCellIsAnchor_eq (h : ExactTiling grid) (row column : UInt32) :
    gridCellIsAnchor grid row column =
      some (grid.cells.any fun cell => decide (cell.row = row ∧ cell.column = column)) := by
  apply anyM_eq_some
  intro cell hcell
  by_cases hanchor : cell.row = row ∧ cell.column = column
  · rcases hanchor with ⟨rfl, rfl⟩
    have hnone : grid.cells.anyM (coveredBy cell.row cell.column) =
        some (grid.cells.any fun _ => false) :=
      anyM_eq_some fun other hother => h.coveredBy_anchor hcell hother
    rw [if_pos ⟨rfl, rfl⟩, hnone]
    simp
  · rw [if_neg hanchor, decide_eq_false hanchor]
    rfl

/-!
# The digest of a grid

The host names a grid by the hash of a framing: the counts, the cells in the
order of their anchors and the widths, each behind its own size.  The sizes
are cut to a word, so the framing alone does not tell how many cells there
are.  The tiling does: no tiling goes on where another has ended.
-/

/-!
## The framing
-/

/-- `to_be_bytes` of a word. -/
def wordBytes (n : UInt32) : List UInt8 :=
  bigEndian 4 n.toNat

/-- `to_be_bytes` of a double. -/
def doubleBytes (d : Double) : List UInt8 :=
  bigEndian 8 d.bits.toNat

def pdfCellBytes (cell : PdfTableCell) : List UInt8 :=
  [cell.row, cell.column, cell.rowSpan, cell.colSpan].flatMap wordBytes ++
    (u64Bytes (byteLen cell.text) ++ encode cell.text)

def compareAnchors (a b : PdfTableCell) : Ordering :=
  (compare a.row b.row).then (compare a.column b.column)

instance : Std.TransCmp compareAnchors :=
  inferInstanceAs (Std.TransCmp
    (compareLex (compareOn PdfTableCell.row) (compareOn PdfTableCell.column)))

/-- What `table_grid_digest` feeds to its hash, over machine words. -/
def hostGridBytes (grid : HostGrid) : List UInt8 :=
  let widths := grid.widthsMm.getD []
  gridMagic ++ (wordBytes grid.rowCount ++ (wordBytes grid.columnCount ++
    (u32Bytes grid.cells.length ++ ((sortBy compareAnchors grid.cells).flatMap pdfCellBytes ++
      (u32Bytes widths.length ++ widths.flatMap doubleBytes)))))

/-!
## What the bytes tell
-/

theorem length_bigEndian (width n : Nat) : (bigEndian width n).length = width := by
  induction width with
  | zero =>
      rfl
  | succ width ih =>
      rw [bigEndian, List.length_cons, ih]

theorem bigEndian_inj {width m n : Nat} (h : bigEndian width m = bigEndian width n) :
    m % 256 ^ width = n % 256 ^ width := by
  induction width with
  | zero =>
      rw [Nat.pow_zero, Nat.mod_one, Nat.mod_one]
  | succ width ih =>
      rw [bigEndian, bigEndian, List.cons.injEq] at h
      have hdigit := congrArg UInt8.toNat h.1
      rw [UInt8.toNat_ofNat', UInt8.toNat_ofNat', Nat.mod_mod, Nat.mod_mod] at hdigit
      rw [Nat.mod_pow_succ, Nat.mod_pow_succ, ih h.2, hdigit]

theorem bigEndian_inj_of_lt {width m n : Nat} (hm : m < 256 ^ width) (hn : n < 256 ^ width)
    (h : bigEndian width m = bigEndian width n) : m = n := by
  have hmod := bigEndian_inj h
  rwa [Nat.mod_eq_of_lt hm, Nat.mod_eq_of_lt hn] at hmod

theorem selfDelimiting_wordBytes : SelfDelimiting wordBytes := by
  apply selfDelimiting_of_length fun n : UInt32 => length_bigEndian 4 n.toNat
  intro m n h
  exact UInt32.toNat_inj.mp (bigEndian_inj_of_lt m.toNat_lt n.toNat_lt h)

theorem selfDelimiting_doubleBytes : SelfDelimiting doubleBytes := by
  apply selfDelimiting_of_length fun d : Double => length_bigEndian 8 d.bits.toNat
  rintro ⟨m⟩ ⟨n⟩ h
  exact congrArg Double.mk
    (UInt64.toNat_inj.mp (bigEndian_inj_of_lt m.toNat_lt n.toNat_lt h))

theorem encode_inj {t u : Text} (h : encode t = encode u) : t = u := by
  have hutf8 : t.utf8Encode = u.utf8Encode := congrArg List.toByteArray h
  have hdecode := congrArg ByteArray.utf8Decode? hutf8
  rw [List.utf8Decode?_utf8Encode, List.utf8Decode?_utf8Encode, Option.some.injEq] at hdecode
  exact congrArg Array.toList hdecode

theorem u32Bytes_append_inj {m n : Nat} {rest rest' : List UInt8}
    (h : u32Bytes m ++ rest = u32Bytes n ++ rest') :
    m % 2 ^ 32 = n % 2 ^ 32 ∧ rest = rest' := by
  rcases List.append_inj h ((length_bigEndian 4 _).trans (length_bigEndian 4 _).symm) with
    ⟨hsize, hrest⟩
  have hmod : m % 2 ^ 32 = n % 2 ^ 32 :=
    bigEndian_inj_of_lt (Nat.mod_lt m (by decide)) (Nat.mod_lt n (by decide)) hsize
  exact ⟨hmod, hrest⟩

theorem u64Bytes_append_inj {m n : Nat} {rest rest' : List UInt8}
    (h : u64Bytes m ++ rest = u64Bytes n ++ rest') :
    m % 2 ^ 64 = n % 2 ^ 64 ∧ rest = rest' := by
  rcases List.append_inj h ((length_bigEndian 8 _).trans (length_bigEndian 8 _).symm) with
    ⟨hsize, hrest⟩
  have hmod : m % 2 ^ 64 = n % 2 ^ 64 :=
    bigEndian_inj_of_lt (Nat.mod_lt m (by decide)) (Nat.mod_lt n (by decide)) hsize
  exact ⟨hmod, hrest⟩

theorem selfDelimiting_text :
    SelfDelimiting fun t : { t : Text // byteLen t < 2 ^ 64 } =>
      u64Bytes (byteLen t.val) ++ encode t.val := by
  refine @selfDelimiting_of_header { t : Text // byteLen t < 2 ^ 64 } UInt8
    (fun t => byteLen t.val) u64Bytes (fun t => encode t.val) ?_ ?_ ?_
  · intro t
    exact length_encode t.val
  · intro t t' rest rest' h
    have hsize := u64Bytes_append_inj h
    rw [Nat.mod_eq_of_lt t.property, Nat.mod_eq_of_lt t'.property] at hsize
    exact hsize
  · intro t t' h
    exact Subtype.ext (encode_inj h)

theorem selfDelimiting_pdfCellBytes : SelfDelimiting pdfCellBytes := by
  intro cell cell' rest rest' h
  simp only [pdfCellBytes, List.append_assoc _ _ rest, List.append_assoc _ _ rest'] at h
  rcases selfDelimiting_wordBytes.of_length (by rfl) h with ⟨hnumbers, htext⟩
  rw [← List.append_assoc, ← List.append_assoc _ _ rest'] at htext
  rcases @selfDelimiting_text ⟨cell.text, cell.fits⟩ ⟨cell'.text, cell'.fits⟩ _ _ htext with
    ⟨htext, hrest⟩
  refine ⟨?_, hrest⟩
  rcases cell with ⟨row, column, rowSpan, colSpan, text, fits⟩
  rcases cell' with ⟨row', column', rowSpan', colSpan', text', fits'⟩
  simp only [List.cons.injEq, and_true] at hnumbers
  rcases hnumbers with ⟨rfl, rfl, rfl, rfl⟩
  cases htext
  rfl

/-!
## The order of the cells
-/

/-- No two different cells of a grid have one anchor. -/
def AnchorsTellApart (grid : HostGrid) : Prop :=
  forall a b, a ∈ grid.cells -> b ∈ grid.cells -> a.anchor = b.anchor -> a = b

theorem compareAnchors_eq (h : compareAnchors a b = .eq) :
    a.anchor = b.anchor := by
  have hparts := Ordering.then_eq_eq.mp h
  have hrow : a.row = b.row := Std.LawfulEqCmp.eq_of_compare hparts.1
  have hcolumn : a.column = b.column := Std.LawfulEqCmp.eq_of_compare hparts.2
  rw [PdfTableCell.anchor, PdfTableCell.anchor, hrow, hcolumn]

theorem hostGridBytes_of_perm (happart : AnchorsTellApart grid) {cells : List PdfTableCell}
    (hperm : cells.Perm grid.cells) :
    hostGridBytes { grid with cells := cells } = hostGridBytes grid := by
  have hsorted : sortBy compareAnchors cells = sortBy compareAnchors grid.cells := by
    apply sortBy_eq_of_perm hperm
    intro a b ha hb heq
    exact happart a b (hperm.mem_iff.mp ha) (hperm.mem_iff.mp hb) (compareAnchors_eq heq)
  unfold hostGridBytes
  simp only [hsorted, hperm.length_eq]

/-!
## Tilings are told apart
-/

theorem ExactTiling.anchorsTellApart (h : ExactTiling grid) :
    AnchorsTellApart grid := by
  intro a b ha hb hanchor
  have htiles := tiles_toCell_iff.mpr ⟨h.inside, h.disjoint, h.covers⟩
  have hslot := (PdfTableCell.liesIn_iff.mp (h.inside a ha)).slot_mem
  have hslot' := (PdfTableCell.liesIn_iff.mp (h.inside b hb)).slot_mem
  rw [← PdfTableCell.slot_eq_iff.mpr hanchor] at hslot'
  exact PdfTableCell.toCell_inj
    (htiles.eq_of_mem (List.mem_map_of_mem ha) (List.mem_map_of_mem hb) hslot hslot')

theorem Tiles.perm {rowCount columnCount : Nat} {cells cells' : List TableCell}
    (h : Tiles rowCount columnCount cells) (hperm : cells.Perm cells') :
    Tiles rowCount columnCount cells' := by
  constructor
  · intro cell hcell
    exact h.inside cell (hperm.mem_iff.mpr hcell)
  · exact (hperm.pairwise_iff fun hab => List.disjoint_symm hab).mp h.disjoint
  · intro row column hrow hcolumn
    rcases h.covers row column hrow hcolumn with ⟨cell, hcell, hslot⟩
    exact ⟨cell, hperm.mem_iff.mp hcell, hslot⟩

theorem ExactTiling.tiles_sorted (h : ExactTiling grid) :
    Tiles grid.rowCount.toNat grid.columnCount.toNat
      ((sortBy compareAnchors grid.cells).map PdfTableCell.toCell) :=
  (tiles_toCell_iff.mpr ⟨h.inside, h.disjoint, h.covers⟩).perm
    ((perm_sortBy compareAnchors grid.cells).symm.map PdfTableCell.toCell)

/-- The widths of a tiling are none or one for each column, and there is a column. -/
theorem ExactTiling.widths_eq {grid grid' : HostGrid} (h : ExactTiling grid)
    (h' : ExactTiling grid') (heq : grid.widthsMm.getD [] = grid'.widthsMm.getD []) :
    grid.widthsMm = grid'.widthsMm := by
  have hcolumns := h.columns
  have hcolumns' := h'.columns
  cases hwidths : grid.widthsMm with
  | none =>
      cases hwidths' : grid'.widthsMm with
      | none =>
          rfl
      | some widths' =>
          have hlength := (h'.widths widths' hwidths').1
          rw [hwidths, hwidths'] at heq
          have hempty : widths' = [] := heq.symm
          rw [hempty, List.length_nil] at hlength
          omega
  | some widths =>
      have hlength := (h.widths widths hwidths).1
      cases hwidths' : grid'.widthsMm with
      | none =>
          rw [hwidths, hwidths'] at heq
          have hempty : widths = [] := heq
          rw [hempty, List.length_nil] at hlength
          omega
      | some widths' =>
          rw [hwidths, hwidths'] at heq
          exact congrArg some heq

theorem ExactTiling.length_widths_lt (h : ExactTiling grid) :
    (grid.widthsMm.getD []).length < 2 ^ 32 := by
  cases hwidths : grid.widthsMm with
  | none =>
      exact Nat.two_pow_pos 32
  | some widths =>
      show widths.length < 2 ^ 32
      rw [(h.widths widths hwidths).1]
      exact grid.columnCount.toNat_lt

/-- Two tilings with one framing have the same counts, cells and widths. -/
theorem ExactTiling.eq_of_bytes {grid grid' : HostGrid} (h : ExactTiling grid)
    (h' : ExactTiling grid') (heq : hostGridBytes grid = hostGridBytes grid') :
    grid.rowCount = grid'.rowCount ∧ grid.columnCount = grid'.columnCount ∧
      grid.cells.Perm grid'.cells ∧ grid.widthsMm = grid'.widthsMm := by
  have hframe := List.append_cancel_left heq
  rcases selfDelimiting_wordBytes hframe with ⟨hrows, hframe⟩
  rcases selfDelimiting_wordBytes hframe with ⟨hcolumns, hframe⟩
  rcases u32Bytes_append_inj hframe with ⟨_, hframe⟩
  -- The number of cells is only known modulo a word; the tilings decide.
  have htiles := h.tiles_sorted
  have htiles' := h'.tiles_sorted
  rw [← hrows, ← hcolumns] at htiles'
  have hcells : sortBy compareAnchors grid.cells = sortBy compareAnchors grid'.cells ∧
      u32Bytes (grid.widthsMm.getD []).length ++ (grid.widthsMm.getD []).flatMap doubleBytes =
        u32Bytes (grid'.widthsMm.getD []).length ++
          (grid'.widthsMm.getD []).flatMap doubleBytes := by
    rcases selfDelimiting_pdfCellBytes.one_extends hframe with
      ⟨more, hmore, hrest⟩ | ⟨more, hmore, hrest⟩
    · rw [hmore, List.map_append] at htiles'
      have hnil := List.map_eq_nil_iff.mp (htiles.append_eq_nil htiles')
      subst hnil
      exact ⟨(hmore.trans (List.append_nil _)).symm, hrest⟩
    · rw [hmore, List.map_append] at htiles
      have hnil := List.map_eq_nil_iff.mp (htiles'.append_eq_nil htiles)
      subst hnil
      exact ⟨hmore.trans (List.append_nil _), hrest.symm⟩
  have hperm : grid.cells.Perm grid'.cells :=
    (perm_sortBy compareAnchors grid.cells).symm.trans
      (hcells.1 ▸ perm_sortBy compareAnchors grid'.cells)
  rcases u32Bytes_append_inj hcells.2 with ⟨hlength, hwidths⟩
  rw [Nat.mod_eq_of_lt h.length_widths_lt, Nat.mod_eq_of_lt h'.length_widths_lt] at hlength
  have hsame := (selfDelimiting_doubleBytes.of_length hlength
    (congrArg (· ++ ([] : List UInt8)) hwidths)).1
  exact ⟨hrows, hcolumns, hperm, h.widths_eq h' hsame⟩

/-!
## Grids are checked exactly and named apart
-/

theorem validateHostGrid_exact (grid : HostGrid) :
    (validateHostGrid grid = .ok () <-> ExactTiling grid) ∧
      (validateHostGrid grid = .ok () ->
        (forall row column, gridCellIsAnchor grid row column =
          some (grid.cells.any fun cell => decide (cell.row = row ∧ cell.column = column))) ∧
        AnchorsTellApart grid ∧
        forall grid', validateHostGrid grid' = .ok () ->
          hostGridBytes grid = hostGridBytes grid' ->
            grid.rowCount = grid'.rowCount ∧ grid.columnCount = grid'.columnCount ∧
              grid.cells.Perm grid'.cells ∧ grid.widthsMm = grid'.widthsMm) ∧
      (AnchorsTellApart grid -> forall cells : List PdfTableCell, cells.Perm grid.cells ->
        hostGridBytes { grid with cells := cells } = hostGridBytes grid) := by
  constructor
  · exact validateHostGrid_eq_ok
  constructor
  · intro hvalid
    have htiling := validateHostGrid_eq_ok.mp hvalid
    constructor
    · exact htiling.gridCellIsAnchor_eq
    constructor
    · exact htiling.anchorsTellApart
    · intro grid' hvalid' hbytes
      exact htiling.eq_of_bytes (validateHostGrid_eq_ok.mp hvalid') hbytes
  · intro happart cells hperm
    exact hostGridBytes_of_perm happart hperm

/-- A row of two cells, the second given first. -/
def turnedRow : HostGrid :=
  ⟨1, 2, [⟨0, 1, 1, 1, ['b'], by decide⟩, ⟨0, 0, 1, 1, ['a'], by decide⟩], none⟩

theorem turnedRow_named : gridCellIsAnchor turnedRow 0 1 = some true ∧
    turnedRow.cells.reverse ≠ turnedRow.cells ∧
    hostGridBytes { turnedRow with cells := turnedRow.cells.reverse } =
      hostGridBytes turnedRow := by
  have hexact := validateHostGrid_exact turnedRow
  have hvalid : validateHostGrid turnedRow = .ok () := by decide
  refine ⟨?_, by decide, ?_⟩
  · exact (hexact.2.1 hvalid).1 0 1
  · exact hexact.2.2 (hexact.2.1 hvalid).2.1 _ (List.reverse_perm _)

/-- Cells that share an anchor stay in the order in which they are given. -/
theorem shared_anchor_keeps_order :
    ¬ forall (grid : HostGrid) (cells : List PdfTableCell), cells.Perm grid.cells ->
      hostGridBytes { grid with cells := cells } = hostGridBytes grid := by
  intro h
  have hsame := h ⟨1, 1, [⟨0, 0, 1, 1, ['a'], by decide⟩, ⟨0, 0, 1, 1, ['b'], by decide⟩], none⟩
    [⟨0, 0, 1, 1, ['b'], by decide⟩, ⟨0, 0, 1, 1, ['a'], by decide⟩] (List.Perm.swap _ _ _)
  revert hsame
  decide

end DocReader
end KnowledgeBrain
