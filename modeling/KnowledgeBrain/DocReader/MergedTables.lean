import KnowledgeBrain.DocReader.Docx
import KnowledgeBrain.DocReader.Tilings

/-!
# Merged cells of a Word table

A merge is marked row by row: a cell that continues says so, but not which cell
it continues.  The reader lets every other cell go down as long as all of its
columns are marked, and the validator asks whether the cells so found tile the
grid.
-/

namespace KnowledgeBrain
namespace DocReader

open Foundation
open Chunker (Text)

section

/-!
# The validator
-/

theorem placeCell_of_checkCell {rowCount columnCount : Nat} {s s' : Tiling} {cell : TableCell}
    (h : checkCell rowCount columnCount s cell = .ok s') :
    placeCell rowCount columnCount s cell = .ok s' := by
  rcases bind_eq_ok h with ⟨_, hvalid, h⟩
  rcases bind_eq_ok h with ⟨occupied, hslots, h⟩
  cases h
  rcases not_or.mp (reject_eq_ok.mp hvalid) with ⟨hinside, hfresh⟩
  unfold placeCell
  rw [reject_bind hfresh, reject_bind hinside]
  have hslots' : cell.slots.foldlM
      (occupy (Fault.valueError "table grid spans overlap")
        (Fault.valueError "table grid covered slot must be omitted") (cell.slot :: s.seen)
        cell.slot)
      s.occupied = .ok occupied := foldlM_of_ok (fun _ _ _ => occupy_ok) hslots
  exact ok_bind hslots'

/-- A grid is valid if its cells tile it and its widths cover it. -/
theorem validateSparseTableGrid_iff {grid : TableGrid} :
    validateSparseTableGrid grid = .ok () <->
      (1 ≤ grid.rowCount ∧ 1 ≤ grid.columnCount) ∧
        Tiles grid.rowCount grid.columnCount grid.cells ∧
        (grid.widthsMm.all fun widths =>
          decide (CoversColumns grid.columnCount widths)) = true := by
  rw [← checkCells_iff_tiles]
  constructor
  · intro h
    rcases bind_eq_ok h with ⟨_, hdimensions, h⟩
    rcases bind_eq_ok h with ⟨s, hcells, h⟩
    rcases bind_eq_ok h with ⟨_, htiles, hwidths⟩
    have hdimensions := reject_eq_ok.mp hdimensions
    refine ⟨by omega, ⟨s, foldlM_of_ok (fun _ _ _ => checkCell_of_placeCell) hcells,
      not_not.mp (reject_eq_ok.mp htiles)⟩, ?_⟩
    simpa using reject_eq_ok.mp hwidths
  · rintro ⟨hdimensions, ⟨s, hcells, htiles⟩, hwidths⟩
    unfold validateSparseTableGrid
    rw [reject_bind (by omega),
      ok_bind (foldlM_of_ok (fun _ _ _ => placeCell_of_checkCell) hcells),
      reject_bind (not_not.mpr htiles)]
    exact reject_eq_ok.mpr (by simpa using hwidths)

theorem build_eq_ok {table : TableGrid} {grid : Grid} :
    table.build = .ok grid <->
      validateSparseTableGrid table = .ok () ∧ grid.toTableGrid = table := by
  unfold TableGrid.build
  split
  · next hvalid =>
      constructor
      · intro h
        cases h
        exact ⟨hvalid, rfl⟩
      · rintro ⟨_, rfl⟩
        rfl
  · next e hinvalid =>
      constructor
      · intro h
        cases h
      · rintro ⟨hvalid, _⟩
        rw [hvalid] at hinvalid
        cases hinvalid

/-!
# Rows
-/

variable {tbl : Tbl}

/-- A placed cell covers a column. -/
def CoversColumn (placed : Slot × Tc) (column : Nat) : Prop :=
  placed.1.2 ≤ column ∧ column < placed.1.2 + tcGridSpan placed.2

theorem mem_columnsOf {column span c : Nat} :
    c ∈ columnsOf column span <-> column ≤ c ∧ c < column + span :=
  List.mem_range'_1

theorem one_le_tcGridSpan (tc : Tc) : 1 ≤ tcGridSpan tc :=
  Nat.le_max_left 1 _

theorem ordered_placedCells (column : Nat) (tcs : List Tc) :
    (placedCells column tcs).Pairwise (fun a b => a.1 + tcGridSpan a.2 ≤ b.1) ∧
      forall placed, placed ∈ placedCells column tcs -> column ≤ placed.1 := by
  induction tcs generalizing column with
  | nil =>
      exact ⟨.nil, by simp [placedCells]⟩
  | cons tc rest ih =>
      rcases ih (column + tcGridSpan tc) with ⟨hordered, hbehind⟩
      constructor
      · exact .cons hbehind hordered
      · intro placed hmem
        rcases List.mem_cons.mp hmem with rfl | hmem
        · exact Nat.le_refl _
        · exact Nat.le_trans (Nat.le_add_right _ _) (hbehind placed hmem)

variable {placed : Slot × Tc}

theorem mem_placedTcs :
    placed ∈ placedTcs tbl <-> exists tr, tbl.rows[placed.1.1]? = some tr ∧
      (placed.1.2, placed.2) ∈ placedCells 0 tr.cells := by
  rcases placed with ⟨⟨row, column⟩, tc⟩
  unfold placedTcs
  rw [List.mem_flatMap]
  constructor
  · rintro ⟨⟨tr, index⟩, hrow, hmem⟩
    rcases List.mem_map.mp hmem with ⟨⟨c, other⟩, hplaced, heq⟩
    cases heq
    exact ⟨tr, List.mem_zipIdx_iff_getElem?.mp hrow, hplaced⟩
  · rintro ⟨tr, hrow, hplaced⟩
    exact ⟨(tr, row), List.mem_zipIdx_iff_getElem?.mpr hrow,
      List.mem_map.mpr ⟨(column, tc), hplaced, rfl⟩⟩

/-- The cells of a row do not meet. -/
theorem placed_eq_of_column {a b : Slot × Tc} (ha : a ∈ placedTcs tbl) (hb : b ∈ placedTcs tbl)
    (hrow : a.1.1 = b.1.1) {column : Nat} (hcolumn : CoversColumn a column)
    (hcolumn' : CoversColumn b column) : a = b := by
  rcases mem_placedTcs.mp ha with ⟨tr, htr, ha⟩
  rcases mem_placedTcs.mp hb with ⟨tr', htr', hb⟩
  rw [hrow, htr'] at htr
  cases htr
  by_contra hne
  have hordered := (ordered_placedCells 0 tr.cells).1
  have hpairs := List.pairwise_iff_getElem.mp hordered
  rcases List.mem_iff_getElem.mp ha with ⟨i, hi, hat⟩
  rcases List.mem_iff_getElem.mp hb with ⟨j, hj, hbt⟩
  unfold CoversColumn at hcolumn hcolumn'
  rcases Nat.lt_trichotomy i j with hless | rfl | hless
  · have hstep := hpairs i j hi hj hless
    rw [hat, hbt] at hstep
    simp only at hstep
    omega
  · apply hne
    have hsame := hat.symm.trans hbt
    rcases a with ⟨⟨row, column⟩, tc⟩
    rcases b with ⟨⟨row', column'⟩, tc'⟩
    cases hsame
    cases hrow
    rfl
  · have hstep := hpairs j i hj hi hless
    rw [hat, hbt] at hstep
    simp only at hstep
    omega

theorem nodup_placedCells (column : Nat) (tcs : List Tc) : (placedCells column tcs).Nodup := by
  apply (ordered_placedCells column tcs).1.imp
  rintro a b hstep rfl
  have hspan := one_le_tcGridSpan a.2
  omega

theorem nodup_placedTcs (tbl : Tbl) : (placedTcs tbl).Nodup := by
  unfold placedTcs
  apply List.nodup_flatMap.mpr
  constructor
  · rintro ⟨tr, row⟩ _
    apply (nodup_placedCells 0 tr.cells).map
    intro a b hab
    exact Prod.ext (congrArg (fun placed : Slot × Tc => placed.1.2) hab)
      (congrArg (fun placed : Slot × Tc => placed.2) hab)
  · have hindexes : (tbl.rows.zipIdx.map Prod.snd).Nodup := by
      rw [List.zipIdx_map_snd]
      exact List.nodup_range'
    apply (List.pairwise_map.mp hindexes).imp
    intro a b hne
    show List.Disjoint _ _
    intro placed ha hb
    rcases List.mem_map.mp ha with ⟨_, _, rfl⟩
    rcases List.mem_map.mp hb with ⟨_, _, heq⟩
    exact hne (congrArg (fun placed : Slot × Tc => placed.1.1) heq).symm

/-!
# Marks
-/

theorem mem_startCells :
    placed ∈ startCells tbl <-> placed ∈ placedTcs tbl ∧ placed.2.vMerge ≠ some .continue_ := by
  unfold startCells
  rw [List.mem_filter, bne_iff_ne]

variable {slot : Slot}

theorem mem_continueSlots :
    slot ∈ continueSlots tbl <-> exists placed, placed ∈ placedTcs tbl ∧
      placed.2.vMerge = some .continue_ ∧ placed.1.1 = slot.1 ∧ CoversColumn placed slot.2 := by
  rcases slot with ⟨row, column⟩
  unfold continueSlots CoversColumn
  rw [List.mem_flatMap]
  constructor
  · rintro ⟨placed, hplaced, hmem⟩
    by_cases hmark : placed.2.vMerge = some .continue_
    · rw [if_pos hmark] at hmem
      rcases List.mem_map.mp hmem with ⟨c, hc, heq⟩
      cases heq
      exact ⟨placed, hplaced, hmark, rfl, mem_columnsOf.mp hc⟩
    · rw [if_neg hmark] at hmem
      cases hmem
  · rintro ⟨placed, hplaced, hmark, hrow, hcolumn⟩
    refine ⟨placed, hplaced, ?_⟩
    rw [if_pos hmark]
    refine List.mem_map.mpr ⟨column, mem_columnsOf.mpr hcolumn, ?_⟩
    rw [hrow]

theorem not_continue_of_start (h : placed ∈ startCells tbl) {column : Nat}
    (hcolumn : CoversColumn placed column) : (placed.1.1, column) ∉ continueSlots tbl := by
  intro hmem
  rcases mem_startCells.mp h with ⟨hplaced, hmark⟩
  rcases mem_continueSlots.mp hmem with ⟨other, hother, hcontinue, hrow, hcolumn'⟩
  have hsame := placed_eq_of_column hplaced hother hrow.symm hcolumn hcolumn'
  rw [hsame] at hmark
  exact hmark hcontinue

/-- All columns of a cell are marked in a row. -/
def Continued (tbl : Tbl) (placed : Slot × Tc) (row : Nat) : Prop :=
  forall column, CoversColumn placed column -> (row, column) ∈ continueSlots tbl

theorem takeWhile_range' (p : Nat -> Bool) (start n : Nat) :
    ((List.range' start n).takeWhile p).length ≤ n ∧
      (forall i, i < ((List.range' start n).takeWhile p).length -> p (start + i) = true) ∧
      forall j, j < n -> (forall i, i ≤ j -> p (start + i) = true) ->
        j < ((List.range' start n).takeWhile p).length := by
  induction n generalizing start with
  | zero =>
      simp
  | succ n ih =>
      rcases ih (start + 1) with ⟨hlength, hall, hreach⟩
      rw [List.range'_succ]
      by_cases hp : p start = true
      · rw [List.takeWhile_cons_of_pos hp, List.length_cons]
        refine ⟨by omega, ?_, ?_⟩
        · intro i hi
          cases i with
          | zero =>
              exact hp
          | succ i =>
              have hnext := hall i (by omega)
              rw [show start + (i + 1) = start + 1 + i by omega]
              exact hnext
        · intro j hj hbefore
          cases j with
          | zero =>
              exact Nat.zero_lt_succ _
          | succ j =>
              apply Nat.succ_lt_succ
              apply hreach j (by omega)
              intro i hi
              rw [show start + 1 + i = start + (i + 1) by omega]
              exact hbefore (i + 1) (by omega)
      · rw [List.takeWhile_cons_of_neg hp]
        refine ⟨by simp, by simp, ?_⟩
        intro j _ hbefore
        exact absurd (hbefore 0 (Nat.zero_le _)) hp

/-- A cell goes down as long as all of its columns are marked. -/
theorem rowSpan_spec (hrow : placed.1.1 < tableRowCount tbl) :
    1 ≤ rowSpan tbl placed ∧ placed.1.1 + rowSpan tbl placed ≤ tableRowCount tbl ∧
      forall row, placed.1.1 < row -> row < tableRowCount tbl ->
        (row < placed.1.1 + rowSpan tbl placed <->
          forall r, placed.1.1 < r -> r ≤ row -> Continued tbl placed r) := by
  have hspec := takeWhile_range' (fun row =>
    (columnsOf placed.1.2 (tcGridSpan placed.2)).all fun column =>
      (continueSlots tbl).contains (row, column)) (placed.1.1 + 1)
    (tableRowCount tbl - (placed.1.1 + 1))
  have hcontinued : forall row, ((columnsOf placed.1.2 (tcGridSpan placed.2)).all fun column =>
      (continueSlots tbl).contains (row, column)) = true <-> Continued tbl placed row := by
    intro row
    rw [List.all_eq_true]
    unfold Continued CoversColumn
    constructor
    · intro hall column hcolumn
      exact List.contains_iff_mem.mp (hall column (mem_columnsOf.mpr hcolumn))
    · intro hall column hcolumn
      exact List.contains_iff_mem.mpr (hall column (mem_columnsOf.mp hcolumn))
  simp only [hcontinued] at hspec
  rcases hspec with ⟨hlength, hall, hreach⟩
  have hspan : rowSpan tbl placed = 1 + ((List.range' (placed.1.1 + 1)
      (tableRowCount tbl - (placed.1.1 + 1))).takeWhile fun row =>
        (columnsOf placed.1.2 (tcGridSpan placed.2)).all fun column =>
          (continueSlots tbl).contains (row, column)).length := rfl
  rw [hspan]
  generalize ((List.range' (placed.1.1 + 1)
      (tableRowCount tbl - (placed.1.1 + 1))).takeWhile fun row =>
        (columnsOf placed.1.2 (tcGridSpan placed.2)).all fun column =>
          (continueSlots tbl).contains (row, column)).length = length at hlength hall hreach
  refine ⟨by omega, by omega, ?_⟩
  intro row hbelow hbound
  constructor
  · intro hless r hr hrow'
    have hstep := hall (r - (placed.1.1 + 1)) (by omega)
    rw [show placed.1.1 + 1 + (r - (placed.1.1 + 1)) = r by omega] at hstep
    exact hstep
  · intro hrows
    have hstep := hreach (row - (placed.1.1 + 1)) (by omega) (by
      intro i hi
      exact hrows _ (by omega) (by omega))
    omega

end

/-!
# Tables with merged cells

The grid of a Word table is built exactly when the marks of its rows fit
together, and the grid of a spreadsheet region is built from any merges that do
not meet.
-/

/-!
## Word tables
-/

variable {tbl : Tbl}

/-- The nearest slot above a marked one that is not marked itself. -/
structure NearestAbove (tbl : Tbl) (slot : Slot) (row : Nat) : Prop where
  above : row < slot.1
  free : (row, slot.2) ∉ continueSlots tbl
  marked : forall r, row < r -> r ≤ slot.1 -> (r, slot.2) ∈ continueSlots tbl

/-- The cell at the nearest slot above goes on down to a marked slot, in all of its columns. -/
structure ContinuedFrom (tbl : Tbl) (slot : Slot) (placed : Slot × Tc) : Prop where
  start : placed ∈ startCells tbl
  column : CoversColumn placed slot.2
  nearest : NearestAbove tbl slot placed.1.1
  marked : forall r, placed.1.1 < r -> r ≤ slot.1 -> Continued tbl placed r

/-- The marks of the rows fit together; a table without rows has the slots of one. -/
structure WellMarked (tbl : Tbl) : Prop where
  inside : forall placed, placed ∈ startCells tbl ->
    placed.1.2 + tcGridSpan placed.2 ≤ tableColumnCount tbl
  covered : forall slot : Slot, slot.1 < max 1 (tableRowCount tbl) ->
    slot.2 < tableColumnCount tbl ->
    exists placed, placed ∈ placedTcs tbl ∧ placed.1.1 = slot.1 ∧ CoversColumn placed slot.2
  continued : forall slot : Slot, slot.1 < tableRowCount tbl -> slot.2 < tableColumnCount tbl ->
    slot ∈ continueSlots tbl -> exists placed, ContinuedFrom tbl slot placed

/-- The grid cell of a cell that starts. -/
def anchorCell (tbl : Tbl) (placed : Slot × Tc) : TableCell :=
  ⟨placed.1.1, placed.1.2, rowSpan tbl placed, tcGridSpan placed.2, placed.2.text⟩

theorem row_lt_of_placed (h : placed ∈ placedTcs tbl) :
    placed.1.1 < tableRowCount tbl := by
  rcases mem_placedTcs.mp h with ⟨tr, htr, _⟩
  exact (List.getElem?_eq_some_iff.mp htr).1

theorem row_lt_of_start (h : placed ∈ startCells tbl) :
    placed.1.1 < tableRowCount tbl :=
  row_lt_of_placed (mem_startCells.mp h).1

theorem mem_anchorCell :
    slot ∈ (anchorCell tbl placed).slots <->
      (placed.1.1 ≤ slot.1 ∧ slot.1 < placed.1.1 + rowSpan tbl placed) ∧
        CoversColumn placed slot.2 :=
  TableCell.mem_slots

theorem continued_of_mem (h : placed ∈ startCells tbl)
    (hslot : slot ∈ (anchorCell tbl placed).slots) {r : Nat} (hr : placed.1.1 < r)
    (hr' : r ≤ slot.1) : Continued tbl placed r := by
  rcases mem_anchorCell.mp hslot with ⟨⟨_, hspan⟩, _⟩
  have hrow := row_lt_of_start h
  rcases rowSpan_spec hrow with ⟨_, hbound, hspec⟩
  exact (hspec slot.1 (by omega) (by omega)).mp hspan r hr hr'

theorem mem_of_continuedFrom (h : ContinuedFrom tbl slot placed)
    (hslot : slot.1 < tableRowCount tbl) :
    slot ∈ (anchorCell tbl placed).slots := by
  have habove := h.nearest.above
  rcases rowSpan_spec (row_lt_of_start h.start) with ⟨_, _, hspec⟩
  exact mem_anchorCell.mpr
    ⟨⟨Nat.le_of_lt habove, (hspec slot.1 habove hslot).mpr h.marked⟩, h.column⟩

theorem start_eq_of_mem {a b : Slot × Tc} (ha : a ∈ startCells tbl) (hb : b ∈ startCells tbl)
    (hslot : slot ∈ (anchorCell tbl a).slots) (hslot' : slot ∈ (anchorCell tbl b).slots) :
    a = b := by
  have hcolumn := (mem_anchorCell.mp hslot).2
  have hcolumn' := (mem_anchorCell.mp hslot').2
  have hrow := (mem_anchorCell.mp hslot).1.1
  have hrow' := (mem_anchorCell.mp hslot').1.1
  rcases Nat.lt_trichotomy a.1.1 b.1.1 with hless | hsame | hless
  · exact absurd (continued_of_mem ha hslot hless hrow' slot.2 hcolumn)
      (not_continue_of_start hb hcolumn')
  · exact placed_eq_of_column (mem_startCells.mp ha).1 (mem_startCells.mp hb).1 hsame hcolumn
      hcolumn'
  · exact absurd (continued_of_mem hb hslot' hless hrow slot.2 hcolumn')
      (not_continue_of_start ha hcolumn)

/-- The cells that the reader lists. -/
def anchorCells (tbl : Tbl) : List TableCell :=
  (sortBy comparePlaced (startCells tbl)).map (anchorCell tbl)

theorem mem_anchorCells {cell : TableCell} :
    cell ∈ anchorCells tbl <-> exists placed, placed ∈ startCells tbl ∧
      anchorCell tbl placed = cell := by
  unfold anchorCells
  simp only [List.mem_map, mem_sortBy]

theorem disjoint_anchorCells (tbl : Tbl) :
    (anchorCells tbl).Pairwise fun a b => a.slots.Disjoint b.slots := by
  have hnodup : (sortBy comparePlaced (startCells tbl)).Nodup :=
    (perm_sortBy comparePlaced (startCells tbl)).nodup_iff.mpr
      ((nodup_placedTcs tbl).filter _)
  apply List.pairwise_map.mpr
  apply hnodup.imp_of_mem
  intro a b ha hb hne slot hslot hslot'
  exact hne (start_eq_of_mem (mem_sortBy.mp ha) (mem_sortBy.mp hb) hslot hslot')

/-- The marks fit together exactly where the listed cells tile the grid. -/
theorem tiles_iff_wellMarked (hcolumns : 1 ≤ tableColumnCount tbl) :
    Tiles (max 1 (tableRowCount tbl)) (max 1 (tableColumnCount tbl)) (anchorCells tbl) <->
      WellMarked tbl := by
  rw [Nat.max_eq_right hcolumns]
  constructor
  · intro h
    have hrows : 1 ≤ tableRowCount tbl := by
      rcases h.covers 0 0 (by omega) hcolumns with ⟨cell, hcell, _⟩
      rcases mem_anchorCells.mp hcell with ⟨placed, hplaced, _⟩
      have hrow := row_lt_of_start hplaced
      omega
    rw [Nat.max_eq_right hrows] at h
    have howner : forall slot : Slot, slot.1 < tableRowCount tbl ->
        slot.2 < tableColumnCount tbl ->
        exists placed, placed ∈ startCells tbl ∧ slot ∈ (anchorCell tbl placed).slots := by
      rintro ⟨row, column⟩ hrow hcolumn
      rcases h.covers row column hrow hcolumn with ⟨cell, hcell, hslot⟩
      rcases mem_anchorCells.mp hcell with ⟨placed, hplaced, rfl⟩
      exact ⟨placed, hplaced, hslot⟩
    constructor
    · intro placed hplaced
      have hinside := h.inside _ (mem_anchorCells.mpr ⟨placed, hplaced, rfl⟩)
      exact hinside.2.2.2.2.2
    · intro slot hrow hcolumn
      rw [Nat.max_eq_right hrows] at hrow
      rcases howner slot hrow hcolumn with ⟨placed, hplaced, hslot⟩
      rcases mem_anchorCell.mp hslot with ⟨⟨hstart, _⟩, hcovers⟩
      by_cases hsame : placed.1.1 = slot.1
      · exact ⟨placed, (mem_startCells.mp hplaced).1, hsame, hcovers⟩
      · have hmarked := continued_of_mem hplaced hslot (Nat.lt_of_le_of_ne hstart hsame)
          (Nat.le_refl _) slot.2 hcovers
        rcases mem_continueSlots.mp hmarked with ⟨other, hother, _, hat, hcovers'⟩
        exact ⟨other, hother, hat, hcovers'⟩
    · intro slot hrow hcolumn hcontinue
      rcases howner slot hrow hcolumn with ⟨placed, hplaced, hslot⟩
      rcases mem_anchorCell.mp hslot with ⟨⟨hstart, _⟩, hcovers⟩
      have hfree := not_continue_of_start hplaced hcovers
      have habove : placed.1.1 < slot.1 := by
        apply Nat.lt_of_le_of_ne hstart
        intro hsame
        rw [hsame] at hfree
        exact hfree hcontinue
      have hmarked : forall r, placed.1.1 < r -> r ≤ slot.1 -> Continued tbl placed r :=
        fun r hr hr' => continued_of_mem hplaced hslot hr hr'
      exact ⟨placed, hplaced, hcovers,
        ⟨habove, hfree, fun r hr hr' => hmarked r hr hr' slot.2 hcovers⟩, hmarked⟩
  · intro h
    have hrows : 1 ≤ tableRowCount tbl := by
      rcases h.covered (0, 0) (by simp) hcolumns with ⟨placed, hplaced, _⟩
      have hrow := row_lt_of_placed hplaced
      omega
    rw [Nat.max_eq_right hrows]
    constructor
    · intro cell hcell
      rcases mem_anchorCells.mp hcell with ⟨placed, hplaced, rfl⟩
      have hrow := row_lt_of_start hplaced
      rcases rowSpan_spec hrow with ⟨hone, hbound, _⟩
      have hspan := one_le_tcGridSpan placed.2
      have hwithin := h.inside placed hplaced
      refine ⟨hone, hspan, hrow, ?_, hbound, hwithin⟩
      show placed.1.2 < tableColumnCount tbl
      omega
    · exact disjoint_anchorCells tbl
    · intro row column hrow hcolumn
      rcases h.covered (row, column) (by
        show row < max 1 (tableRowCount tbl)
        omega) hcolumn with ⟨placed, hplaced, hat, hcovers⟩
      by_cases hmark : placed.2.vMerge = some .continue_
      · rcases h.continued (row, column) hrow hcolumn
          (mem_continueSlots.mpr ⟨placed, hplaced, hmark, hat, hcovers⟩) with ⟨owner, howner⟩
        exact ⟨_, mem_anchorCells.mpr ⟨owner, howner.start, rfl⟩,
          mem_of_continuedFrom howner hrow⟩
      · have hstart := mem_startCells.mpr ⟨hplaced, hmark⟩
        refine ⟨_, mem_anchorCells.mpr ⟨placed, hstart, rfl⟩, mem_anchorCell.mpr ⟨?_, hcovers⟩⟩
        have hspan := (rowSpan_spec (row_lt_of_start hstart)).1
        have hat : placed.1.1 = row := hat
        show placed.1.1 ≤ row ∧ row < placed.1.1 + rowSpan tbl placed
        omega

theorem length_mapM_option {A B : Type} {f : A -> Option B} {as : List A} {bs : List B}
    (h : as.mapM f = some bs) : bs.length = as.length := by
  induction as generalizing bs with
  | nil =>
      cases h
      rfl
  | cons a rest ih =>
      rw [List.mapM_cons] at h
      rcases Option.bind_eq_some_iff.mp h with ⟨b, _, h⟩
      rcases Option.bind_eq_some_iff.mp h with ⟨others, hrest, h⟩
      cases h
      rw [List.length_cons, List.length_cons, ih hrest]

/-- Widths are there for all columns or not at all. -/
theorem widths_cover (tbl : Tbl) (hcolumns : 1 ≤ tableColumnCount tbl) :
    ((tblGridWidthsMm tbl).all fun widths =>
      decide (CoversColumns (max 1 (tableColumnCount tbl)) widths)) = true := by
  rw [Nat.max_eq_right hcolumns]
  cases hwidths : tblGridWidthsMm tbl with
  | none =>
      rfl
  | some widths =>
      unfold tblGridWidthsMm at hwidths
      rcases Option.bind_eq_some_iff.mp hwidths with ⟨columns, hgrid, hwidths⟩
      rcases Option.bind_eq_some_iff.mp hwidths with ⟨read, hread, hwidths⟩
      by_cases hpositive : read.all Width.isPositive = true ∧ read ≠ []
      · rw [if_pos hpositive] at hwidths
        cases hwidths
        have hlength := length_mapM_option hread
        have hcount : tableColumnCount tbl = columns.length := by
          unfold tableColumnCount
          rw [hgrid]
        rw [Option.all_some, decide_eq_true_eq, hcount]
        exact ⟨hlength, hpositive.1⟩
      · rw [if_neg hpositive] at hwidths
        cases hwidths

/-- The reader builds the grid exactly when the marks fit together. -/
theorem docxTableAnchors_eq_ok (hcolumns : 1 ≤ tableColumnCount tbl)
    {result : Grid × List (Slot × Tc)} :
    docxTableAnchors tbl = .ok result <->
      WellMarked tbl ∧ result.2 = sortBy comparePlaced (startCells tbl) ∧
        result.1.toTableGrid = {
          rowCount := max 1 (tableRowCount tbl)
          columnCount := max 1 (tableColumnCount tbl)
          cells := anchorCells tbl
          widthsMm := tblGridWidthsMm tbl } := by
  have hvalid : validateSparseTableGrid {
      rowCount := max 1 (tableRowCount tbl)
      columnCount := max 1 (tableColumnCount tbl)
      cells := anchorCells tbl
      widthsMm := tblGridWidthsMm tbl } = .ok () <-> WellMarked tbl := by
    rw [validateSparseTableGrid_iff, ← tiles_iff_wellMarked hcolumns]
    constructor
    · exact fun h => h.2.1
    · exact fun h => ⟨⟨Nat.le_max_left _ _, Nat.le_max_left _ _⟩, h, widths_cover tbl hcolumns⟩
  rw [← hvalid]
  rcases result with ⟨grid, anchors⟩
  constructor
  · intro h
    rcases bind_eq_ok h with ⟨built, hbuild, h⟩
    cases h
    rcases build_eq_ok.mp hbuild with ⟨hok, hgrid⟩
    exact ⟨hok, rfl, hgrid⟩
  · rintro ⟨hok, rfl, hgrid⟩
    exact ok_bind (build_eq_ok.mpr ⟨hok, hgrid⟩)

/-- What the grid of a Word table shows. -/
structure TableRead (tbl : Tbl) (grid : Grid) : Prop where
  rowCount : grid.rowCount = tableRowCount tbl
  columnCount : grid.columnCount = tableColumnCount tbl
  slot : forall slot : Slot, slot.1 < tableRowCount tbl -> slot.2 < tableColumnCount tbl ->
    (grid.cells.countP fun cell => decide (slot ∈ cell.slots)) = 1
  continued : forall slot : Slot, slot.1 < tableRowCount tbl -> slot.2 < tableColumnCount tbl ->
    slot ∈ continueSlots tbl -> exists placed, ContinuedFrom tbl slot placed ∧
      exists cell, cell ∈ grid.cells ∧ cell.slot = placed.1 ∧ slot ∈ cell.slots
  text : forall placed, placed ∈ startCells tbl ->
    exists cell, cell ∈ grid.cells ∧ cell.slot = placed.1 ∧ cell.text = placed.2.text

theorem rows_of_wellMarked (hcolumns : 1 ≤ tableColumnCount tbl) (h : WellMarked tbl) :
    1 ≤ tableRowCount tbl := by
  have hfirst : (0 : Nat) < max 1 (tableRowCount tbl) := Nat.le_max_left _ _
  rcases h.covered (0, 0) hfirst hcolumns with ⟨placed, hplaced, _⟩
  exact Nat.lt_of_le_of_lt (Nat.zero_le _) (row_lt_of_placed hplaced)

theorem tableRead_of_ok (hcolumns : 1 ≤ tableColumnCount tbl)
    {result : Grid × List (Slot × Tc)} (h : docxTableAnchors tbl = .ok result) :
    TableRead tbl result.1 := by
  rcases (docxTableAnchors_eq_ok hcolumns).mp h with ⟨hmarked, _, hgrid⟩
  have htiles := (tiles_iff_wellMarked hcolumns).mpr hmarked
  have hrows := rows_of_wellMarked hcolumns hmarked
  rw [Nat.max_eq_right hrows, Nat.max_eq_right hcolumns] at htiles hgrid
  constructor
  · rw [hgrid]
  · rw [hgrid]
  · rintro ⟨row, column⟩ hrow hcolumn
    rw [hgrid]
    exact htiles.countP_eq_one hrow hcolumn
  · intro slot hrow hcolumn hcontinue
    rcases hmarked.continued slot hrow hcolumn hcontinue with ⟨placed, hfrom⟩
    refine ⟨placed, hfrom, anchorCell tbl placed, ?_, rfl, mem_of_continuedFrom hfrom hrow⟩
    rw [hgrid]
    exact mem_anchorCells.mpr ⟨placed, hfrom.start, rfl⟩
  · intro placed hplaced
    refine ⟨anchorCell tbl placed, ?_, rfl, rfl⟩
    rw [hgrid]
    exact mem_anchorCells.mpr ⟨placed, hplaced, rfl⟩

/-!
## Spreadsheet regions
-/

/-- A range that holds a cell at least. -/
def SpreadsheetRange.Proper (range : SpreadsheetRange) : Prop :=
  range.startRow ≤ range.endRow ∧ range.startColumn ≤ range.endColumn

/-- A position of the sheet lies in a range. -/
def SpreadsheetRange.Holds (range : SpreadsheetRange) (row column : Nat) : Prop :=
  (range.startRow ≤ row ∧ row ≤ range.endRow) ∧
    range.startColumn ≤ column ∧ column ≤ range.endColumn

/-- No position lies in both ranges. -/
def RangesApart (a b : SpreadsheetRange) : Prop :=
  forall row column, a.Holds row column -> ¬ b.Holds row column

/-- No later cell of the list stands at the same position; a sheet has one cell at each. -/
def LastListed (cells : List SpreadsheetCell) (cell : SpreadsheetCell) : Prop :=
  exists before after, cells = before ++ cell :: after ∧
    forall other, other ∈ after -> ¬ (other.row = cell.row ∧ other.column = cell.column)

/-- A merge of the region hides the position; its first position stays. -/
def Hidden (region : SpreadsheetRange) (merged : List SpreadsheetRange) (row column : Nat) :
    Prop :=
  exists merge, merge ∈ merged ∧ contains region merge = true ∧ merge.Holds row column ∧
    (row, column) ≠ (merge.startRow, merge.startColumn)

/-- The merges of a region as cells of its grid. -/
def regionMerges (region : SpreadsheetRange) (merged : List SpreadsheetRange) : List TableCell :=
  (merged.filter (contains region)).map (mergeCell region)

/-- The slot of a position of the sheet. -/
def slotOf (region : SpreadsheetRange) (row column : Nat) : Slot :=
  (row - region.startRow, column - region.startColumn)

/-- The text that is listed for a slot. -/
def regionText (region : SpreadsheetRange) (cells : List SpreadsheetCell) (slot : Slot) : Text :=
  (((cells.filter (covers region)).reverse.find? fun cell =>
    slotOf region cell.row cell.column == slot).map SpreadsheetCell.text).getD []

theorem listobjectGrid_eq (region : SpreadsheetRange) (cells : List SpreadsheetCell)
    (merged : List SpreadsheetRange) :
    listobjectGrid region cells merged = TableGrid.build {
      rowCount := region.endRow + 1 - region.startRow
      columnCount := region.endColumn + 1 - region.startColumn
      cells := mergedCells (region.endRow + 1 - region.startRow)
        (region.endColumn + 1 - region.startColumn) (regionMerges region merged)
        (regionText region cells)
      widthsMm := none } :=
  rfl

theorem contains_iff {outer inner : SpreadsheetRange} :
    contains outer inner = true <->
      ((outer.startRow ≤ inner.startRow ∧ inner.endRow ≤ outer.endRow) ∧
        outer.startColumn ≤ inner.startColumn) ∧ inner.endColumn ≤ outer.endColumn := by
  unfold contains
  simp only [Bool.and_eq_true, decide_eq_true_eq]

variable {region : SpreadsheetRange}

theorem covers_iff {cell : SpreadsheetCell} :
    covers region cell = true <-> region.Holds cell.row cell.column := by
  unfold covers SpreadsheetRange.Holds
  simp only [Bool.and_eq_true, decide_eq_true_eq, and_assoc]

theorem mem_mergeCell {region merge : SpreadsheetRange} (h : contains region merge = true)
    (hproper : merge.Proper) :
    slot ∈ (mergeCell region merge).slots <->
      merge.Holds (slot.1 + region.startRow) (slot.2 + region.startColumn) := by
  have hcontains := contains_iff.mp h
  rcases hproper with ⟨hrows, hcolumns⟩
  rw [TableCell.mem_slots]
  unfold mergeCell SpreadsheetRange.Holds
  simp only
  omega

theorem regionMerges_apart {merged : List SpreadsheetRange}
    (hproper : forall merge, merge ∈ merged -> merge.Proper)
    (hdisjoint : merged.Pairwise RangesApart) :
    MergesApart (region.endRow + 1 - region.startRow) (region.endColumn + 1 - region.startColumn)
      (regionMerges region merged) := by
  constructor
  · intro cell hcell
    rcases List.mem_map.mp hcell with ⟨merge, hmerge, rfl⟩
    rcases List.mem_filter.mp hmerge with ⟨hmem, hcontains⟩
    have hinside := contains_iff.mp hcontains
    rcases hproper merge hmem with ⟨hrows, hcolumns⟩
    unfold mergeCell Inside
    simp only
    omega
  · apply List.pairwise_map.mpr
    apply (hdisjoint.filter (contains region)).imp_of_mem
    intro a b ha hb hapart slot hslot hslot'
    rcases List.mem_filter.mp ha with ⟨ha, hcontains⟩
    rcases List.mem_filter.mp hb with ⟨hb, hcontains'⟩
    exact hapart _ _ ((mem_mergeCell hcontains (hproper a ha)).mp hslot)
      ((mem_mergeCell hcontains' (hproper b hb)).mp hslot')

theorem regionText_eq {cells : List SpreadsheetCell} {cell : SpreadsheetCell}
    (hlast : LastListed cells cell) (hcell : region.Holds cell.row cell.column) :
    regionText region cells (slotOf region cell.row cell.column) = cell.text := by
  rcases hlast with ⟨before, after, rfl, hafter⟩
  have hnone : ((after.filter (covers region)).reverse.find? fun other =>
      slotOf region other.row other.column == slotOf region cell.row cell.column) = none := by
    apply List.find?_eq_none.mpr
    intro other hother heq
    rcases List.mem_filter.mp (List.mem_reverse.mp hother) with ⟨hmem, hcovers⟩
    have hother := covers_iff.mp hcovers
    have hslot := eq_of_beq heq
    apply hafter other hmem
    unfold slotOf at hslot
    unfold SpreadsheetRange.Holds at hcell hother
    rw [Prod.mk.injEq] at hslot
    omega
  unfold regionText
  rw [List.filter_append, List.filter_cons_of_pos (covers_iff.mpr hcell), List.reverse_append,
    List.reverse_cons, List.append_assoc, List.find?_append, hnone, Option.none_or]
  simp

/-- What the grid of a region shows. -/
structure RegionRead (region : SpreadsheetRange) (cells : List SpreadsheetCell)
    (merged : List SpreadsheetRange) (grid : Grid) : Prop where
  rowCount : grid.rowCount = region.endRow + 1 - region.startRow
  columnCount : grid.columnCount = region.endColumn + 1 - region.startColumn
  multiSlot : forall area : Slot × Nat × Nat,
    (exists cell, cell ∈ grid.cells ∧ MultiSlot cell ∧ cell.area = area) <->
      exists merge, merge ∈ merged ∧ contains region merge = true ∧
        MultiSlot (mergeCell region merge) ∧ (mergeCell region merge).area = area
  text : forall cell, LastListed cells cell -> region.Holds cell.row cell.column ->
    ¬ Hidden region merged cell.row cell.column ->
    exists gridCell, gridCell ∈ grid.cells ∧
      gridCell.slot = slotOf region cell.row cell.column ∧ gridCell.text = cell.text

/-- The grid of a region is built from any merges that do not meet. -/
theorem listobjectGrid_ok (cells : List SpreadsheetCell) {merged : List SpreadsheetRange}
    (hregion : region.Proper) (hproper : forall merge, merge ∈ merged -> merge.Proper)
    (hdisjoint : merged.Pairwise RangesApart) :
    exists grid, listobjectGrid region cells merged = .ok grid ∧
      RegionRead region cells merged grid := by
  have hapart : MergesApart (region.endRow + 1 - region.startRow)
      (region.endColumn + 1 - region.startColumn) (regionMerges region merged) :=
    regionMerges_apart hproper hdisjoint
  have htiles := hapart.tiles (regionText region cells)
  have hdimensions : 1 ≤ region.endRow + 1 - region.startRow ∧
      1 ≤ region.endColumn + 1 - region.startColumn := by
    unfold SpreadsheetRange.Proper at hregion
    omega
  have hvalid := validateSparseTableGrid_iff.mpr
    (show (1 ≤ TableGrid.rowCount {
        rowCount := region.endRow + 1 - region.startRow
        columnCount := region.endColumn + 1 - region.startColumn
        cells := mergedCells (region.endRow + 1 - region.startRow)
          (region.endColumn + 1 - region.startColumn) (regionMerges region merged)
          (regionText region cells)
        widthsMm := none } ∧ _) ∧ Tiles _ _ _ ∧ _ = true from ⟨hdimensions, htiles, rfl⟩)
  refine ⟨⟨_, hvalid⟩, ?_, ?_⟩
  · rw [listobjectGrid_eq]
    exact build_eq_ok.mpr ⟨hvalid, rfl⟩
  constructor
  · rfl
  · rfl
  · intro area
    apply (hapart.multiSlot_iff (regionText region cells) area).trans
    unfold regionMerges
    simp only [List.mem_map, List.mem_filter]
    constructor
    · rintro ⟨_, ⟨merge, ⟨hmem, hcontains⟩, rfl⟩, hmulti, harea⟩
      exact ⟨merge, hmem, hcontains, hmulti, harea⟩
    · rintro ⟨merge, hmem, hcontains, hmulti, harea⟩
      exact ⟨_, ⟨merge, ⟨hmem, hcontains⟩, rfl⟩, hmulti, harea⟩
  · intro cell hlast hholds hshown
    refine ⟨cellAt (regionMerges region merged) (regionText region cells)
      (slotOf region cell.row cell.column), ?_, rfl, regionText_eq hlast hholds⟩
    apply mem_mergedCells.mpr
    refine ⟨_, mem_openSlots.mpr ⟨mem_gridSlots.mpr ?_, ?_⟩, rfl⟩
    · unfold SpreadsheetRange.Holds at hholds
      unfold slotOf
      simp only
      omega
    · intro hcovered
      rcases mem_coveredSlots.mp hcovered with ⟨_, hcell, hmem, hne⟩
      rcases List.mem_map.mp hcell with ⟨merge, hlisted, rfl⟩
      rcases List.mem_filter.mp hlisted with ⟨hmerge, hcontains⟩
      rw [mem_mergeCell hcontains (hproper merge hmerge)] at hmem
      have hinside := contains_iff.mp hcontains
      unfold SpreadsheetRange.Holds at hholds
      have hrow : (slotOf region cell.row cell.column).1 + region.startRow = cell.row := by
        unfold slotOf
        simp only
        omega
      have hcolumn : (slotOf region cell.row cell.column).2 + region.startColumn =
          cell.column := by
        unfold slotOf
        simp only
        omega
      rw [hrow, hcolumn] at hmem
      refine hshown ⟨merge, hmerge, hcontains, hmem, ?_⟩
      intro heq
      apply hne
      rw [Prod.mk.injEq] at heq
      rw [heq.1, heq.2]
      rfl

/-!
## Both readers
-/

/-- A Word table is read exactly when its marks fit together, a spreadsheet region always. -/
theorem merged_tables {tbl : Tbl} (hcolumns : 1 ≤ tableColumnCount tbl)
    {region : SpreadsheetRange} (cells : List SpreadsheetCell)
    {merged : List SpreadsheetRange} (hregion : region.Proper)
    (hproper : forall merge, merge ∈ merged -> merge.Proper)
    (hdisjoint : merged.Pairwise RangesApart) :
    (((exists result, docxTableAnchors tbl = .ok result) <-> WellMarked tbl) ∧
      forall result, docxTableAnchors tbl = .ok result -> TableRead tbl result.1) ∧
    exists grid, listobjectGrid region cells merged = .ok grid ∧
      RegionRead region cells merged grid := by
  constructor
  · constructor
    · constructor
      · rintro ⟨result, h⟩
        exact ((docxTableAnchors_eq_ok hcolumns).mp h).1
      · intro h
        have htiles := (tiles_iff_wellMarked hcolumns).mpr h
        have hvalid := validateSparseTableGrid_iff.mpr
          (show (1 ≤ TableGrid.rowCount {
              rowCount := max 1 (tableRowCount tbl)
              columnCount := max 1 (tableColumnCount tbl)
              cells := anchorCells tbl
              widthsMm := tblGridWidthsMm tbl } ∧ _) ∧ Tiles _ _ _ ∧ _ = true from
            ⟨⟨Nat.le_max_left _ _, Nat.le_max_left _ _⟩, htiles, widths_cover tbl hcolumns⟩)
        exact ⟨(⟨_, hvalid⟩, _), (docxTableAnchors_eq_ok hcolumns).mpr ⟨h, rfl, rfl⟩⟩
    · intro result h
      exact tableRead_of_ok hcolumns h
  · exact listobjectGrid_ok cells hregion hproper hdisjoint

/-- Two columns; the left cell goes down over a marked row. -/
def markedTable : Tbl where
  gridCols := some [none, none]
  rows := [⟨false, [⟨none, some .restart, "a".toList, []⟩, ⟨none, none, "b".toList, []⟩]⟩,
    ⟨false, [⟨none, some .continue_, [], []⟩, ⟨none, none, "c".toList, []⟩]⟩]
  hasNestedTable := false

theorem merged_tables_twoRows :
    (((exists result, docxTableAnchors markedTable = .ok result) <-> WellMarked markedTable) ∧
      forall result, docxTableAnchors markedTable = .ok result ->
        TableRead markedTable result.1) ∧
    exists grid, listobjectGrid ⟨"B2:C3", 2, 2, 3, 3⟩ [⟨"B2", 2, 2, "x".toList, ""⟩]
        [⟨"B2:C2", 2, 2, 2, 3⟩] = .ok grid ∧
      RegionRead ⟨"B2:C3", 2, 2, 3, 3⟩ [⟨"B2", 2, 2, "x".toList, ""⟩] [⟨"B2:C2", 2, 2, 2, 3⟩]
        grid :=
  merged_tables (by decide) _ (by unfold SpreadsheetRange.Proper; decide)
    (by unfold SpreadsheetRange.Proper; decide) (List.pairwise_singleton _ _)

end DocReader
end KnowledgeBrain
