import KnowledgeBrain.DocReader.MergedTables
import KnowledgeBrain.DocReader.RuledTables

/-!
# Texts of ruled tables

The cells that remain when the covered slots are left out tile the table, and
each of them has the text of the glyphs whose centres lie in its rectangle.
-/

namespace KnowledgeBrain
namespace DocReader

open Foundation
open Chunker (Text)

/-!
# Merged texts
-/

section Texts

variable {xs yVisual : List Rat} {chars : List Glyph} {ranges : List MergedRange}

theorem foldl_mergeText_of_notMem {texts : Slot -> Text} {slot : Slot}
    (hanchors : forall range, range ∈ ranges -> range.merge.slot ∈ range.slots)
    (h : forall range, range ∈ ranges -> slot ∉ range.slots) :
    ranges.foldl (mergeText xs yVisual chars) texts slot = texts slot := by
  induction ranges generalizing texts with
  | nil =>
      rfl
  | cons range rest ih =>
      have hnot := h range List.mem_cons_self
      have hne : slot ≠ range.merge.slot := by
        rintro rfl
        exact hnot (hanchors range List.mem_cons_self)
      rw [List.foldl_cons, ih (fun r hr => hanchors r (List.mem_cons_of_mem _ hr))
        (fun r hr => h r (List.mem_cons_of_mem _ hr))]
      unfold mergeText
      rw [if_neg hne, if_neg (fun hmem => hnot (List.contains_iff_mem.mp hmem))]

/-- The text of a merged range stands at its first slot. -/
theorem foldl_mergeText_anchor {texts : Slot -> Text} {range : MergedRange}
    (hanchors : forall range, range ∈ ranges -> range.merge.slot ∈ range.slots)
    (hdisjoint : ranges.Pairwise fun a b => a.slots.Disjoint b.slots) (hrange : range ∈ ranges) :
    ranges.foldl (mergeText xs yVisual chars) texts range.merge.slot =
      rangeText xs yVisual chars range := by
  induction ranges generalizing texts with
  | nil =>
      cases hrange
  | cons first rest ih =>
      rw [List.pairwise_cons] at hdisjoint
      have hanchors' : forall range, range ∈ rest -> range.merge.slot ∈ range.slots :=
        fun r hr => hanchors r (List.mem_cons_of_mem _ hr)
      rw [List.foldl_cons]
      rcases List.mem_cons.mp hrange with rfl | hrest
      · rw [foldl_mergeText_of_notMem hanchors']
        · unfold mergeText
          rw [if_pos rfl]
        · intro other hother hmem
          exact hdisjoint.1 other hother (hanchors range List.mem_cons_self) hmem
      · exact ih hanchors' hdisjoint.2 hrest

end Texts

/-!
# Leaving out the covered slots
-/

theorem cellsAt_map {slots : List Slot} {cell : Slot -> TableCell}
    (hcell : forall slot, (cell slot).slot = slot) {slot : Slot} (hslot : slot ∈ slots) :
    cellsAt (slots.map cell) slot = some (cell slot) := by
  unfold cellsAt
  cases hfind : (slots.map cell).reverse.find? fun other => other.slot == slot with
  | none =>
      have hnone := List.find?_eq_none.mp hfind (cell slot)
        (List.mem_reverse.mpr (List.mem_map_of_mem hslot))
      rw [hcell] at hnone
      exact absurd (beq_self_eq_true slot) hnone
  | some other =>
      rcases List.mem_map.mp (List.mem_reverse.mp (List.mem_of_find?_eq_some hfind)) with
        ⟨slot', -, rfl⟩
      have hsame := List.find?_some hfind
      have hslot : (cell slot').slot = slot := eq_of_beq hsame
      rw [hcell] at hslot
      rw [hslot]

theorem spanOf_cellAt (merges : List TableCell) (textAt : Slot -> Text) (slot : Slot) :
    spanOf merges (cellAt merges textAt slot) slot = spanAt merges slot := by
  unfold spanOf cellAt
  dsimp only
  unfold spanAt
  cases merges.reverse.find? fun merge => merge.slot == slot with
  | none => rfl
  | some merge => rfl

variable {rowCount columnCount : Nat}

theorem mapM_sparseCell {merges : List TableCell} (textAt : Slot -> Text) :
    (openSlots rowCount columnCount merges).mapM
        (sparseCell ((gridSlots rowCount columnCount).map (cellAt merges textAt)) merges) =
      .ok (mergedCells rowCount columnCount merges textAt) := by
  apply mapM_of_ok
  intro slot hslot
  unfold sparseCell
  have hcells := @cellsAt_map (gridSlots rowCount columnCount)
    (cellAt merges textAt) (fun _ => rfl) slot (mem_openSlots.mp hslot).1
  rw [hcells]
  dsimp only
  rw [spanOf_cellAt]
  rfl

theorem sparsifyTableCells_eq_ok {ranges : List MergedRange} (hrows : 0 < rowCount)
    (hcolumns : 0 < columnCount)
    (h : MergesApart rowCount columnCount (ranges.map MergedRange.merge)) (textAt : Slot -> Text) :
    sparsifyTableCells rowCount columnCount ((gridSlots rowCount columnCount).map
        (cellAt (ranges.map MergedRange.merge) textAt)) ranges =
      .ok (mergedCells rowCount columnCount (ranges.map MergedRange.merge) textAt) := by
  have hvalid : validateSparseTableGrid ⟨rowCount, columnCount,
      mergedCells rowCount columnCount (ranges.map MergedRange.merge) textAt, none⟩ = .ok () := by
    rw [validateSparseTableGrid_iff]
    exact ⟨⟨hrows, hcolumns⟩, h.tiles textAt, rfl⟩
  unfold sparsifyTableCells
  dsimp only
  rw [mapM_sparseCell]
  exact (ok_bind rfl).trans (ok_bind hvalid)

/-!
# The rectangle of a cell
-/

/-- The range that a cell takes. -/
def cellRange (cell : TableCell) : MergedRange where
  startRow := cell.row
  startColumn := cell.column
  endRow := cell.row + cell.rowSpan - 1
  endColumn := cell.column + cell.colSpan - 1

variable {cell : TableCell}

theorem slots_cellRange (h : Inside rowCount columnCount cell) {slot : Slot} :
    slot ∈ (cellRange cell).slots <-> slot ∈ cell.slots := by
  rcases h with ⟨hrows, hcolumns, -⟩
  rw [MergedRange.mem_slots, TableCell.mem_slots]
  unfold cellRange
  dsimp only
  omega

theorem cellRange_of_merge {range : MergedRange} {slot : Slot} (hslot : slot ∈ range.slots)
    (h : cell.area = range.merge.area) : cellRange cell = range := by
  have hbounds := MergedRange.mem_slots.mp hslot
  have hrow : cell.row = range.startRow := congrArg (fun area => area.1.1) h
  have hcolumn : cell.column = range.startColumn := congrArg (fun area => area.1.2) h
  have hrows : cell.rowSpan = range.endRow + 1 - range.startRow :=
    congrArg (fun area => area.2.1) h
  have hcolumns : cell.colSpan = range.endColumn + 1 - range.startColumn :=
    congrArg (fun area => area.2.2) h
  rcases range with ⟨startRow, startColumn, endRow, endColumn⟩
  unfold cellRange
  dsimp only at hbounds hrow hcolumn hrows hcolumns
  rw [hrow, hcolumn, hrows, hcolumns, MergedRange.mk.injEq]
  omega

theorem cellRange_of_single {slot : Slot} (h : cell.area = (slot, 1, 1)) :
    cellRange cell = slotRange slot := by
  rcases cell with ⟨row, column, rowSpan, colSpan, text⟩
  cases h
  rfl

section Cells

variable {xs yVisual : List Rat} {chars : List Glyph} {horizontal : List HorizontalRule}
  {vertical : List VerticalRule}

/-- The texts of the slots, once the ranges are merged. -/
def mergedTexts (xs yVisual : List Rat) (horizontal : List HorizontalRule)
    (vertical : List VerticalRule) (chars : List Glyph) : Slot -> Text :=
  (mergedRangesFromRules xs yVisual horizontal vertical).foldl (mergeText xs yVisual chars)
    (slotText xs yVisual chars)

/-- The cells that remain. -/
def sparseCells (xs yVisual : List Rat) (horizontal : List HorizontalRule)
    (vertical : List VerticalRule) (chars : List Glyph) : List TableCell :=
  mergedCells (yVisual.length - 1) (xs.length - 1)
    ((mergedRangesFromRules xs yVisual horizontal vertical).map MergedRange.merge)
    (mergedTexts xs yVisual horizontal vertical chars)

theorem tiles_sparseCells : Tiles (yVisual.length - 1) (xs.length - 1)
    (sparseCells xs yVisual horizontal vertical chars) :=
  (mergesApart_mergedRangesFromRules xs yVisual horizontal vertical).tiles _

/-- A cell takes a merged range, or one slot that lies in none. -/
theorem sparseCells_cases (hcell : cell ∈ sparseCells xs yVisual horizontal vertical chars) :
    (exists range, range ∈ mergedRangesFromRules xs yVisual horizontal vertical ∧
      cellRange cell = range ∧ cell.text = rangeText xs yVisual chars range) ∨
    exists slot, (forall range, range ∈ mergedRangesFromRules xs yVisual horizontal vertical ->
        slot ∉ range.slots) ∧
      cellRange cell = slotRange slot ∧ cell.text = slotText xs yVisual chars slot := by
  have hapart := mergesApart_mergedRangesFromRules xs yVisual horizontal vertical
  have hanchors : forall range, range ∈ mergedRangesFromRules xs yVisual horizontal vertical ->
      range.merge.slot ∈ range.slots :=
    fun range hrange => (hapart.inside _ (List.mem_map_of_mem hrange)).slot_mem
  rcases mem_mergedCells.mp hcell with ⟨slot, hopen, rfl⟩
  rcases hapart.cellAt_cases (mergedTexts xs yVisual horizontal vertical chars) slot with
    ⟨merge, hmerge, rfl, harea⟩ | ⟨hsingle, harea⟩
  · rcases List.mem_map.mp hmerge with ⟨range, hrange, rfl⟩
    left
    refine ⟨range, hrange, cellRange_of_merge (hanchors range hrange) harea, ?_⟩
    exact foldl_mergeText_anchor hanchors
      (pairwise_mergedRangesFromRules xs yVisual horizontal vertical) hrange
  · right
    have hfree : forall range, range ∈ mergedRangesFromRules xs yVisual horizontal vertical ->
        slot ∉ range.slots := by
      intro range hrange hmem
      apply (mem_openSlots.mp hopen).2
      rw [mem_coveredSlots]
      exact ⟨range.merge, List.mem_map_of_mem hrange, hmem,
        Ne.symm (hsingle _ (List.mem_map_of_mem hrange))⟩
    exact ⟨slot, hfree, cellRange_of_single harea, foldl_mergeText_of_notMem hanchors hfree⟩

theorem text_of_sparseCells (hcell : cell ∈ sparseCells xs yVisual horizontal vertical chars) :
    cell.text = rangeText xs yVisual chars (cellRange cell) := by
  rcases sparseCells_cases hcell with ⟨range, -, hrange, htext⟩ | ⟨slot, -, hslot, htext⟩
  · rw [hrange, htext]
  · rw [hslot, htext]
    rfl

end Cells

/-!
# Glyphs of ruled tables

A glyph is in the text of a cell when its centre lies in the rectangle of the
cell, the sides included.  So a glyph on a side that two cells share is in both,
and any other glyph of the table is in one.
-/

/-!
## Glyphs of a text
-/

/-- The items without those at the ends that the test holds of. -/
def stripBy {A : Type} (p : A -> Bool) (items : List A) : List A :=
  ((items.dropWhile p).reverse.dropWhile p).reverse

variable {A : Type}

theorem strip_map (f : A -> Char) (items : List A) :
    strip (items.map f) = (stripBy (isSpace ∘ f) items).map f := by
  unfold strip stripBy
  rw [List.dropWhile_map, ← List.map_reverse, List.dropWhile_map, ← List.map_reverse]

variable {p : A -> Bool}

theorem mem_dropWhile {items : List A} {a : A} (ha : a ∈ items) (hp : p a = false) :
    a ∈ items.dropWhile p := by
  rw [← List.takeWhile_append_dropWhile (p := p) (l := items), List.mem_append] at ha
  rcases ha with htake | hdrop
  · have htrue := List.all_eq_true.mp List.all_takeWhile a htake
    rw [hp] at htrue
    cases htrue
  · exact hdrop

theorem mem_stripBy {items : List A} {a : A} (hp : p a = false) :
    a ∈ stripBy p items <-> a ∈ items := by
  unfold stripBy
  rw [List.mem_reverse]
  constructor
  · intro h
    exact (List.dropWhile_sublist p).mem
      (List.mem_reverse.mp ((List.dropWhile_sublist p).mem h))
  · intro h
    exact mem_dropWhile (List.mem_reverse.mpr (mem_dropWhile h hp)) hp

section Glyphs

variable (xs yVisual : List Rat) (chars : List Glyph)

/-- The glyphs that make up the text of a range, with their places in the list. -/
def shownGlyphs (range : MergedRange) : List (Glyph × Nat) :=
  stripBy (fun shown => isSpace shown.1.ch)
    (chars.zipIdx.filter fun shown => centred xs yVisual range shown.1)

theorem rangeText_eq (range : MergedRange) :
    rangeText xs yVisual chars range =
      (shownGlyphs xs yVisual chars range).map fun shown => shown.1.ch := by
  unfold rangeText shownGlyphs
  have hchars : (chars.filter (centred xs yVisual range)).map Glyph.ch =
      (chars.zipIdx.filter fun shown => centred xs yVisual range shown.1).map
        fun shown => shown.1.ch := by
    conv_lhs => rw [← List.zipIdx_map_fst 0 chars]
    rw [List.filter_map, List.map_map]
    rfl
  rw [hchars, strip_map]
  rfl

variable {xs yVisual chars} in
theorem mem_of_mem_shownGlyphs {range : MergedRange} {shown : Glyph × Nat}
    (h : shown ∈ shownGlyphs xs yVisual chars range) :
    shown ∈ chars.zipIdx.filter fun shown => centred xs yVisual range shown.1 := by
  unfold shownGlyphs stripBy at h
  exact (List.dropWhile_sublist _).mem (List.mem_reverse.mp
    ((List.dropWhile_sublist _).mem (List.mem_reverse.mp h)))

/-- The glyph at a place of the list is in the text of a cell. -/
def contributes (index : Nat) (cell : TableCell) : Bool :=
  ((shownGlyphs xs yVisual chars (cellRange cell)).map Prod.snd).contains index

variable {xs yVisual chars}

variable {glyph : Glyph}

theorem contributes_iff {index : Nat} (hglyph : chars[index]? = some glyph)
    (hblank : isSpace glyph.ch = false) :
    contributes xs yVisual chars index cell = centred xs yVisual (cellRange cell) glyph := by
  rw [Bool.eq_iff_iff]
  unfold contributes
  rw [List.contains_iff_mem, List.mem_map]
  constructor
  · rintro ⟨shown, hshown, rfl⟩
    have hmem := mem_of_mem_shownGlyphs hshown
    have hsame : chars[shown.2]? = some shown.1 :=
      List.mem_zipIdx_iff_getElem?.mp (List.mem_filter.mp hmem).1
    rw [hglyph] at hsame
    rw [Option.some.inj hsame]
    exact (List.mem_filter.mp hmem).2
  · intro hcentred
    refine ⟨(glyph, index), ?_, rfl⟩
    unfold shownGlyphs
    apply (@mem_stripBy (Glyph × Nat) _ _ (glyph, index) hblank).mpr
    exact List.mem_filter.mpr ⟨List.mem_zipIdx_iff_getElem?.mpr hglyph, hcentred⟩

/-!
## The slots of a glyph
-/

/-- A glyph lies in a rectangle exactly when it lies in one of its slots. -/
theorem centred_iff {range : MergedRange} (hxs : xs.Pairwise (· < ·))
    (hys : yVisual.Pairwise (· > ·)) (hrows : range.startRow ≤ range.endRow)
    (hcolumns : range.startColumn ≤ range.endColumn)
    (hlastRow : range.endRow + 1 < yVisual.length) (hlastColumn : range.endColumn + 1 < xs.length) :
    centred xs yVisual range glyph = true <->
      exists slot, slot ∈ range.slots ∧ centred xs yVisual (slotRange slot) glyph = true := by
  unfold centred
  simp only [decide_eq_true_eq]
  constructor
  · rintro ⟨hleft, hright, hbottom, htop⟩
    rcases @exists_between Rat _ (edge xs) _ _ _ (Nat.lt_succ_of_le hcolumns) hleft hright with
      ⟨column, hfrom, hto, hlow, hhigh⟩
    have hneg : forall a b : Rat, a ≤ b -> -b ≤ -a := fun _ _ => neg_le_neg
    rcases @exists_between Rat _ (fun i => -edge yVisual i) _ _ _ (Nat.lt_succ_of_le hrows)
      (hneg _ _ htop) (hneg _ _ hbottom) with ⟨row, hfrom', hto', hlow', hhigh'⟩
    refine ⟨(row, column), ?_, hlow, hhigh, neg_le_neg_iff.mp hhigh', neg_le_neg_iff.mp hlow'⟩
    rw [MergedRange.mem_slots]
    dsimp only
    omega
  · rintro ⟨⟨row, column⟩, hslot, hleft, hright, hbottom, htop⟩
    rw [MergedRange.mem_slots] at hslot
    unfold slotRange at hleft hright hbottom htop
    dsimp only at hslot hleft hright hbottom htop
    refine ⟨(edge_le_of_pairwise hxs hslot.2.1 (by omega)).trans hleft,
      hright.trans (edge_le_of_pairwise hxs (by omega) hlastColumn),
      (edge_ge_of_pairwise hys (by omega) hlastRow).trans hbottom,
      htop.trans (edge_ge_of_pairwise hys hslot.1.1 (by omega))⟩

/-- The centre lies within the outer bounds of the table. -/
def PdfTableGrid.containsPoint (grid : PdfTableGrid) (x y : Rat) : Bool :=
  decide (grid.left ≤ x ∧ x ≤ grid.right ∧ grid.bottom ≤ y ∧ y ≤ grid.top)

/-- The whole table as a range. -/
def wholeRange (xs yVisual : List Rat) : MergedRange :=
  ⟨0, 0, yVisual.length - 1 - 1, xs.length - 1 - 1⟩

theorem mem_slots_wholeRange (hrows : 1 < yVisual.length) (hcolumns : 1 < xs.length) {slot : Slot} :
    slot ∈ (wholeRange xs yVisual).slots <->
      slot ∈ gridSlots (yVisual.length - 1) (xs.length - 1) := by
  rw [MergedRange.mem_slots, mem_gridSlots]
  unfold wholeRange
  dsimp only
  omega

variable {horizontal : List HorizontalRule} {vertical : List VerticalRule}

theorem mem_slots_slotRange {slot other : Slot} :
    other ∈ (slotRange slot).slots <-> other = slot := by
  rcases slot with ⟨row, column⟩
  rcases other with ⟨row', column'⟩
  rw [MergedRange.mem_slots, Prod.mk.injEq]
  unfold slotRange
  dsimp only
  omega

/-- Two slots are in one cell of the table: they are one slot, or lie in a
component that fills a rectangle. -/
def OneCell (xs yVisual : List Rat) (horizontal : List HorizontalRule)
    (vertical : List VerticalRule) (s t : Slot) : Prop :=
  s = t ∨ exists range, IsMerged xs yVisual horizontal vertical range ∧ s ∈ range.slots ∧
    t ∈ range.slots

theorem mem_cell_iff (hcell : cell ∈ sparseCells xs yVisual horizontal vertical chars)
    {slot : Slot} :
    slot ∈ cell.slots <-> slot ∈ (cellRange cell).slots :=
  (slots_cellRange (tiles_sparseCells.inside cell hcell)).symm

/-- The slots of a cell are in one cell, and no others are. -/
theorem oneCell_iff (hcell : cell ∈ sparseCells xs yVisual horizontal vertical chars) {s t : Slot}
    (hs : s ∈ cell.slots) :
    OneCell xs yVisual horizontal vertical s t <-> t ∈ cell.slots := by
  rw [mem_cell_iff hcell] at hs ⊢
  rcases sparseCells_cases hcell with ⟨range, hrange, hcellRange, -⟩ | ⟨slot, hfree, hslot, -⟩
  · rw [hcellRange] at hs ⊢
    constructor
    · rintro (rfl | ⟨other, hother, hs', ht⟩)
      · exact hs
      · have hsymm : Std.Symm fun a b : MergedRange => a.slots.Disjoint b.slots :=
          ⟨fun a b hab => List.disjoint_symm hab⟩
        have hother := (mem_mergedRangesFromRules _ _ _ _).mpr hother
        by_cases hsame : range = other
        · rw [hsame]
          exact ht
        · exact absurd hs' ((pairwise_mergedRangesFromRules xs yVisual horizontal
            vertical).forall hrange hother hsame hs)
    · intro ht
      exact .inr ⟨range, (mem_mergedRangesFromRules _ _ _ _).mp hrange, hs, ht⟩
  · rw [hslot, mem_slots_slotRange] at hs ⊢
    subst hs
    constructor
    · rintro (rfl | ⟨range, hrange, hs, -⟩)
      · rfl
      · exact absurd hs (hfree range ((mem_mergedRangesFromRules _ _ _ _).mpr hrange))
    · rintro rfl
      exact .inl rfl

/-- The slots that a glyph lies in are in one cell: its centre is not on a side
that two cells share. -/
def OffSharedEdges (xs yVisual : List Rat) (horizontal : List HorizontalRule)
    (vertical : List VerticalRule) (glyph : Glyph) : Prop :=
  forall s t, s ∈ gridSlots (yVisual.length - 1) (xs.length - 1) ->
    t ∈ gridSlots (yVisual.length - 1) (xs.length - 1) ->
    centred xs yVisual (slotRange s) glyph = true ->
    centred xs yVisual (slotRange t) glyph = true ->
    OneCell xs yVisual horizontal vertical s t

theorem centred_cell_iff (hxs : xs.Pairwise (· < ·)) (hys : yVisual.Pairwise (· > ·))
    (hcell : cell ∈ sparseCells xs yVisual horizontal vertical chars) :
    centred xs yVisual (cellRange cell) glyph = true <->
      exists slot, slot ∈ cell.slots ∧ centred xs yVisual (slotRange slot) glyph = true := by
  have hinside := tiles_sparseCells.inside cell hcell
  unfold Inside at hinside
  have hiff := @centred_iff xs yVisual glyph (cellRange cell) hxs hys
    (by unfold cellRange; dsimp only; omega) (by unfold cellRange; dsimp only; omega)
    (by unfold cellRange; dsimp only; omega) (by unfold cellRange; dsimp only; omega)
  rw [hiff]
  simp only [mem_cell_iff hcell]

theorem slot_mem_grid (hcell : cell ∈ sparseCells xs yVisual horizontal vertical chars)
    {slot : Slot} (hslot : slot ∈ cell.slots) :
    slot ∈ gridSlots (yVisual.length - 1) (xs.length - 1) :=
  (tiles_sparseCells.inside cell hcell).mem_gridSlots hslot

theorem eq_of_countP_eq_one {items : List A} (h : items.countP p = 1) {a b : A} (ha : a ∈ items)
    (hb : b ∈ items) (hpa : p a = true) (hpb : p b = true) : a = b := by
  rw [List.countP_eq_length_filter, List.length_eq_one_iff] at h
  rcases h with ⟨only, honly⟩
  have ha' : a ∈ items.filter p := List.mem_filter.mpr ⟨ha, hpa⟩
  have hb' : b ∈ items.filter p := List.mem_filter.mpr ⟨hb, hpb⟩
  rw [honly, List.mem_singleton] at ha' hb'
  rw [ha', hb']

/-- A glyph in the table lies in one cell exactly when it is off the shared sides. -/
theorem countP_centred_iff (hxs : xs.Pairwise (· < ·)) (hys : yVisual.Pairwise (· > ·))
    {slot : Slot} (hslot : slot ∈ gridSlots (yVisual.length - 1) (xs.length - 1))
    (hcentred : centred xs yVisual (slotRange slot) glyph = true) :
    (sparseCells xs yVisual horizontal vertical chars).countP (fun cell =>
        centred xs yVisual (cellRange cell) glyph) = 1 <->
      OffSharedEdges xs yVisual horizontal vertical glyph := by
  have htiles := @tiles_sparseCells xs yVisual chars horizontal vertical
  constructor
  · intro hone s t hs ht hs' ht'
    rw [mem_gridSlots] at hs ht
    rcases htiles.covers s.1 s.2 hs.1 hs.2 with ⟨cell, hcell, hmem⟩
    rcases htiles.covers t.1 t.2 ht.1 ht.2 with ⟨cell', hcell', hmem'⟩
    have hsame := eq_of_countP_eq_one hone hcell hcell'
      ((centred_cell_iff hxs hys hcell).mpr ⟨s, hmem, hs'⟩)
      ((centred_cell_iff hxs hys hcell').mpr ⟨t, hmem', ht'⟩)
    rw [oneCell_iff hcell hmem, hsame]
    exact hmem'
  · intro hoff
    apply Nat.le_antisymm
    · apply countP_le_one
      apply htiles.disjoint.imp_of_mem
      rintro a b ha hb hdisjoint ⟨ha', hb'⟩
      rcases (centred_cell_iff hxs hys ha).mp ha' with ⟨s, hs, hs'⟩
      rcases (centred_cell_iff hxs hys hb).mp hb' with ⟨t, ht, ht'⟩
      have hone := hoff s t (slot_mem_grid ha hs) (slot_mem_grid hb ht) hs' ht'
      exact hdisjoint ((oneCell_iff ha hs).mp hone) ht
    · rw [mem_gridSlots] at hslot
      rcases htiles.covers slot.1 slot.2 hslot.1 hslot.2 with ⟨cell, hcell, hmem⟩
      exact List.countP_pos_iff.mpr
        ⟨cell, hcell, (centred_cell_iff hxs hys hcell).mpr ⟨slot, hmem, hcentred⟩⟩

end Glyphs

/-!
## The table
-/

/-- A glyph that is no blank is in the text of one cell if its centre lies in the
table; a glyph outside is in none. -/
def GlyphsOnce (xs yVisual : List Rat) (chars : List Glyph) (grid : PdfTableGrid)
    (cells : List TableCell) : Prop :=
  forall index glyph, chars[index]? = some glyph ->
    (grid.containsPoint glyph.midX glyph.midY = true -> isSpace glyph.ch = false ->
      cells.countP (contributes xs yVisual chars index) = 1) ∧
    (grid.containsPoint glyph.midX glyph.midY = false ->
      cells.countP (contributes xs yVisual chars index) = 0)

section Tables

variable {horizontal : List HorizontalRule} {vertical : List VerticalRule} {chars : List Glyph}
  {grid : PdfTableGrid}

theorem mem_tablesFromRules (h : grid ∈ tablesFromRules horizontal vertical chars) :
    (3 ≤ (columnEdges vertical).length ∧ 3 ≤ (rowEdges horizontal).length) ∧
    grid = {
      left := edge (columnEdges vertical) 0
      top := edge (rowEdges horizontal) 0
      right := edge (columnEdges vertical) ((columnEdges vertical).length - 1)
      bottom := edge (rowEdges horizontal) ((rowEdges horizontal).length - 1)
      rowCount := (rowEdges horizontal).length - 1
      columnCount := (columnEdges vertical).length - 1
      cells := (gridSlots ((rowEdges horizontal).length - 1)
        ((columnEdges vertical).length - 1)).map (cellAt
          ((mergedRangesFromRules (columnEdges vertical) (rowEdges horizontal) horizontal
            vertical).map MergedRange.merge)
          (mergedTexts (columnEdges vertical) (rowEdges horizontal) horizontal vertical chars))
      mergedRanges := mergedRangesFromRules (columnEdges vertical) (rowEdges horizontal)
        horizontal vertical
      columnEdges := columnEdges vertical } := by
  unfold tablesFromRules at h
  split at h
  · cases h
  · dsimp only at h
    split at h
    · cases h
    · split at h
      · cases h
      · split at h
        · cases h
        · rename_i hsize _ _
          exact ⟨by omega, List.mem_singleton.mp h⟩

end Tables

/-!
## What a ruled table keeps

The merged ranges are the components that fill a rectangle, the cells that
remain tile the table, and every glyph of the table is kept once exactly when no
centre lies on a side that two cells share.
-/

section Tables

variable {xs yVisual : List Rat} {horizontal : List HorizontalRule} {vertical : List VerticalRule}
  {chars : List Glyph} {grid : PdfTableGrid}

/-- The centre lies within the bounds exactly when it lies in a slot. -/
theorem containsPoint_iff (hxs : xs.Pairwise (· < ·)) (hys : yVisual.Pairwise (· > ·))
    (hcolumns : 1 < xs.length) (hrows : 1 < yVisual.length) (glyph : Glyph) :
    (edge xs 0 ≤ glyph.midX ∧ glyph.midX ≤ edge xs (xs.length - 1) ∧
        edge yVisual (yVisual.length - 1) ≤ glyph.midY ∧ glyph.midY ≤ edge yVisual 0) <->
      exists slot, slot ∈ gridSlots (yVisual.length - 1) (xs.length - 1) ∧
        centred xs yVisual (slotRange slot) glyph = true := by
  have hiff := @centred_iff xs yVisual glyph (wholeRange xs yVisual) hxs hys (Nat.zero_le _)
    (Nat.zero_le _) (by unfold wholeRange; dsimp only; omega)
    (by unfold wholeRange; dsimp only; omega)
  simp only [mem_slots_wholeRange hrows hcolumns] at hiff
  rw [← hiff]
  unfold centred wholeRange
  rw [decide_eq_true_eq]
  have hlastColumn : xs.length - 1 - 1 + 1 = xs.length - 1 := by omega
  have hlastRow : yVisual.length - 1 - 1 + 1 = yVisual.length - 1 := by omega
  dsimp only
  rw [hlastColumn, hlastRow]

theorem contributes_eq_false {index : Nat} {glyph : Glyph} (hglyph : chars[index]? = some glyph)
    (hout : centred xs yVisual (cellRange cell) glyph = false) :
    contributes xs yVisual chars index cell = false := by
  rw [← Bool.not_eq_true]
  intro hcontributes
  unfold contributes at hcontributes
  rw [List.contains_iff_mem, List.mem_map] at hcontributes
  rcases hcontributes with ⟨shown, hshown, rfl⟩
  have hmem := List.mem_filter.mp (mem_of_mem_shownGlyphs hshown)
  have hsame : chars[shown.2]? = some shown.1 := List.mem_zipIdx_iff_getElem?.mp hmem.1
  rw [hglyph] at hsame
  rw [Option.some.inj hsame, hmem.2] at hout
  cases hout

/-- The glyphs are kept once exactly when they are off the shared sides. -/
theorem glyphsOnce_iff (hxs : xs.Pairwise (· < ·)) (hys : yVisual.Pairwise (· > ·))
    (hcolumns : 1 < xs.length) (hrows : 1 < yVisual.length)
    (hbounds : forall glyph : Glyph, grid.containsPoint glyph.midX glyph.midY = true <->
      edge xs 0 ≤ glyph.midX ∧ glyph.midX ≤ edge xs (xs.length - 1) ∧
        edge yVisual (yVisual.length - 1) ≤ glyph.midY ∧ glyph.midY ≤ edge yVisual 0) :
    GlyphsOnce xs yVisual chars grid (sparseCells xs yVisual horizontal vertical chars) <->
      forall glyph, glyph ∈ chars -> isSpace glyph.ch = false ->
        OffSharedEdges xs yVisual horizontal vertical glyph := by
  have hwithin : forall glyph : Glyph, grid.containsPoint glyph.midX glyph.midY = true <->
      exists slot, slot ∈ gridSlots (yVisual.length - 1) (xs.length - 1) ∧
        centred xs yVisual (slotRange slot) glyph = true := fun glyph =>
    (hbounds glyph).trans (containsPoint_iff hxs hys hcolumns hrows glyph)
  constructor
  · intro honce glyph hglyph hblank s t hs ht hs' ht'
    rcases List.mem_iff_getElem?.mp hglyph with ⟨index, hindex⟩
    have hcount := (honce index glyph hindex).1 ((hwithin glyph).mpr ⟨s, hs, hs'⟩) hblank
    have hcells : (sparseCells xs yVisual horizontal vertical chars).countP
        (fun cell => centred xs yVisual (cellRange cell) glyph) = 1 := by
      rw [← hcount]
      exact List.countP_congr fun cell _ => by rw [contributes_iff hindex hblank]
    exact (countP_centred_iff hxs hys hs hs').mp hcells s t hs ht hs' ht'
  · intro hoff index glyph hindex
    constructor
    · intro hinside hblank
      rcases (hwithin glyph).mp hinside with ⟨slot, hslot, hcentred⟩
      have hglyph := hoff glyph (List.mem_of_getElem? hindex) hblank
      rw [← (countP_centred_iff hxs hys hslot hcentred).mpr hglyph]
      exact List.countP_congr fun cell _ => by rw [contributes_iff hindex hblank]
    · intro houtside
      rw [List.countP_eq_zero]
      intro cell hcell
      rw [Bool.not_eq_true]
      apply contributes_eq_false hindex
      rw [← Bool.not_eq_true]
      intro hcentred
      rcases (centred_cell_iff hxs hys hcell).mp hcentred with ⟨slot, hslot, hin⟩
      rw [(hwithin glyph).mpr ⟨slot, slot_mem_grid hcell hslot, hin⟩] at houtside
      cases houtside

/-- A ruled table: its merged ranges, its cells, and when it keeps its glyphs. -/
theorem ruledTable_keeps (h : grid ∈ tablesFromRules horizontal vertical chars) :
    (forall range, range ∈ grid.mergedRanges <->
      IsMerged (columnEdges vertical) (rowEdges horizontal) horizontal vertical range) ∧
    grid.mergedRanges.Pairwise (fun a b => a.slots.Disjoint b.slots) ∧
    exists cells, sparsifyTableCells grid.rowCount grid.columnCount grid.cells grid.mergedRanges =
        .ok cells ∧
      Tiles grid.rowCount grid.columnCount cells ∧
      (forall cell, cell ∈ cells -> cell.text =
        (shownGlyphs (columnEdges vertical) (rowEdges horizontal) chars (cellRange cell)).map
          fun shown => shown.1.ch) ∧
      (GlyphsOnce (columnEdges vertical) (rowEdges horizontal) chars grid cells <->
        forall glyph, glyph ∈ chars -> isSpace glyph.ch = false ->
          OffSharedEdges (columnEdges vertical) (rowEdges horizontal) horizontal vertical
            glyph) := by
  rcases mem_tablesFromRules h with ⟨⟨hcolumns, hrows⟩, rfl⟩
  refine ⟨fun range => mem_mergedRangesFromRules _ _ _ _,
    pairwise_mergedRangesFromRules _ _ _ _,
    sparseCells (columnEdges vertical) (rowEdges horizontal) horizontal vertical chars, ?_,
    tiles_sparseCells, ?_, ?_⟩
  · exact sparsifyTableCells_eq_ok (by omega) (by omega)
      (mergesApart_mergedRangesFromRules _ _ _ _) _
  · intro cell hcell
    rw [text_of_sparseCells hcell, rangeText_eq]
  · apply glyphsOnce_iff (pairwise_columnEdges vertical) (pairwise_rowEdges horizontal) (by omega)
      (by omega)
    intro glyph
    unfold PdfTableGrid.containsPoint
    rw [decide_eq_true_eq]

end Tables

/-!
## A glyph on a line
-/

def sampleHorizontal : List HorizontalRule :=
  [⟨0, 0, 40⟩, ⟨0, 20, 40⟩, ⟨0, 40, 40⟩]

def sampleVertical : List VerticalRule :=
  [⟨0, 0, 40⟩, ⟨20, 0, 40⟩, ⟨40, 0, 40⟩]

/-- A glyph in the first slot. -/
def sampleGlyph : Glyph :=
  ⟨8, 12, 28, 32, 'a'⟩

/-- A glyph whose centre lies on the line between the first slot and the next. -/
def edgeGlyph : Glyph :=
  ⟨18, 22, 28, 32, 'x'⟩

theorem ruledTable_keeps_sample :
    exists grid, grid ∈ tablesFromRules sampleHorizontal sampleVertical [sampleGlyph] ∧
      exists cells, sparsifyTableCells grid.rowCount grid.columnCount grid.cells
          grid.mergedRanges = .ok cells ∧ Tiles grid.rowCount grid.columnCount cells := by
  have hne : tablesFromRules sampleHorizontal sampleVertical [sampleGlyph] ≠ [] := by
    decide +kernel
  rcases List.exists_mem_of_ne_nil _ hne with ⟨grid, hgrid⟩
  rcases ruledTable_keeps hgrid with ⟨-, -, cells, hcells, htiles, -⟩
  exact ⟨grid, hgrid, cells, hcells, htiles⟩

/-- The glyph on the line is in two cells. -/
theorem edgeGlyph_twice :
    ¬ (forall horizontal vertical chars grid, grid ∈ tablesFromRules horizontal vertical chars ->
      exists cells, sparsifyTableCells grid.rowCount grid.columnCount grid.cells
          grid.mergedRanges = .ok cells ∧
        GlyphsOnce (columnEdges vertical) (rowEdges horizontal) chars grid cells) := by
  intro hall
  have htable : (tablesFromRules sampleHorizontal sampleVertical [edgeGlyph]).any (fun grid =>
      grid.containsPoint edgeGlyph.midX edgeGlyph.midY &&
        match sparsifyTableCells grid.rowCount grid.columnCount grid.cells grid.mergedRanges with
        | .ok cells => decide (cells.countP (contributes (columnEdges sampleVertical)
            (rowEdges sampleHorizontal) [edgeGlyph] 0) = 2)
        | .error _ => false) = true := by
    decide +kernel
  rcases List.any_eq_true.mp htable with ⟨grid, hgrid, htwice⟩
  rw [Bool.and_eq_true] at htwice
  rcases hall _ _ _ grid hgrid with ⟨cells, hcells, honce⟩
  rw [hcells] at htwice
  have hone := (honce 0 edgeGlyph rfl).1 htwice.1 (by decide)
  have htwo := of_decide_eq_true htwice.2
  rw [hone] at htwo
  cases htwo

end DocReader
end KnowledgeBrain
