import KnowledgeBrain.DocReader.Contract
import Mathlib.Data.List.Pairwise
import Mathlib.Data.List.ProdSigma

/-!
# Tilings

The check of the host goes through the cells of a grid once, with the anchors
and the slots it has met, and counts the slots at the end.  Whatever the order
of the cells, this is the test that the cells lie in the grid, that no two of
them meet and that none of the slots is left.
-/

namespace KnowledgeBrain
namespace DocReader

open Foundation
open Chunker (Text)

/-!
# The slots of a cell
-/

variable {cell : TableCell} {slot : Slot}

theorem TableCell.mem_slots :
    slot ∈ cell.slots <->
      (cell.row ≤ slot.1 ∧ slot.1 < cell.row + cell.rowSpan) ∧
        cell.column ≤ slot.2 ∧ slot.2 < cell.column + cell.colSpan := by
  rcases slot with ⟨row, column⟩
  simp [TableCell.slots, List.mem_range'_1]

theorem TableCell.nodup_slots (cell : TableCell) : cell.slots.Nodup :=
  (List.nodup_range' : (List.range' cell.row cell.rowSpan).Nodup).product List.nodup_range'

theorem Inside.slot_mem {rowCount columnCount : Nat} (h : Inside rowCount columnCount cell) :
    cell.slot ∈ cell.slots := by
  rcases h with ⟨hrows, hcolumns, _⟩
  rw [TableCell.mem_slots]
  show (cell.row ≤ cell.row ∧ cell.row < cell.row + cell.rowSpan) ∧
    cell.column ≤ cell.column ∧ cell.column < cell.column + cell.colSpan
  omega

/-- The slots of a grid. -/
def gridSlots (rowCount columnCount : Nat) : List Slot :=
  List.range rowCount ×ˢ List.range columnCount

@[simp]
theorem mem_gridSlots {rowCount columnCount : Nat} :
    slot ∈ gridSlots rowCount columnCount <-> slot.1 < rowCount ∧ slot.2 < columnCount := by
  rcases slot with ⟨row, column⟩
  simp [gridSlots]

theorem nodup_gridSlots (rowCount columnCount : Nat) : (gridSlots rowCount columnCount).Nodup :=
  List.Nodup.product List.nodup_range List.nodup_range

theorem length_gridSlots (rowCount columnCount : Nat) :
    (gridSlots rowCount columnCount).length = rowCount * columnCount := by
  rw [gridSlots, List.length_product, List.length_range, List.length_range]

theorem Inside.mem_gridSlots {rowCount columnCount : Nat} (h : Inside rowCount columnCount cell)
    (hslot : slot ∈ cell.slots) :
    slot ∈ gridSlots rowCount columnCount := by
  rcases h with ⟨_, _, _, _, hrows, hcolumns⟩
  have hmem := TableCell.mem_slots.mp hslot
  rw [DocReader.mem_gridSlots]
  omega

/-!
# One pass of the loop
-/

/-- Slots are taken exactly when they are free and no other anchor lies in them. -/
theorem foldlM_occupy_eq_ok {Error : Type} {overlap covered : Error} {seen : List Slot}
    {owner : Slot} {slots occupied occupied' : List Slot} (hnodup : slots.Nodup) :
    slots.foldlM (occupy overlap covered seen owner) occupied = .ok occupied' <->
      slots.Disjoint occupied ∧ (forall slot, slot ∈ slots -> slot ≠ owner -> slot ∉ seen) ∧
        occupied' = slots.reverse ++ occupied := by
  induction slots generalizing occupied with
  | nil =>
      constructor
      · intro h
        cases h
        exact ⟨List.disjoint_nil_left _, by simp, rfl⟩
      · rintro ⟨_, _, rfl⟩
        rfl
  | cons slot slots ih =>
      have hnodup := List.nodup_cons.mp hnodup
      have ih := @ih (slot :: occupied) hnodup.2
      rw [List.foldlM_cons]
      constructor
      · intro h
        rcases bind_eq_ok h with ⟨taken, htake, hrest⟩
        rcases bind_eq_ok htake with ⟨_, hfree, htake⟩
        rcases bind_eq_ok htake with ⟨_, hcovered, htake⟩
        cases htake
        rcases ih.mp hrest with ⟨hdisjoint, hseen, rfl⟩
        have hcovered := reject_eq_ok.mp hcovered
        constructor
        · exact List.disjoint_cons_left.mpr
            ⟨reject_eq_ok.mp hfree, (List.disjoint_cons_right.mp hdisjoint).2⟩
        constructor
        · intro other hother hne hmem
          rcases List.mem_cons.mp hother with rfl | hother
          · exact hcovered ⟨hne, hmem⟩
          · exact hseen other hother hne hmem
        · simp
      · rintro ⟨hdisjoint, hseen, rfl⟩
        have hdisjoint := List.disjoint_cons_left.mp hdisjoint
        have hcovered : ¬ (slot ≠ owner ∧ slot ∈ seen) := fun h =>
          hseen slot List.mem_cons_self h.1 h.2
        have htake : occupy overlap covered seen owner occupied slot = .ok (slot :: occupied) := by
          unfold occupy
          rw [reject_bind hdisjoint.1, reject_bind hcovered]
          rfl
        rw [ok_bind htake]
        apply ih.mpr
        constructor
        · exact List.disjoint_cons_right.mpr ⟨hnodup.1, hdisjoint.2⟩
        constructor
        · intro other hother
          exact hseen other (List.mem_cons_of_mem slot hother)
        · simp

/-- What a cell adds to the state of the loop. -/
def Tiling.add (s : Tiling) (cell : TableCell) : Tiling :=
  ⟨cell.slot :: s.seen, cell.slots.reverse ++ s.occupied⟩

theorem checkCell_eq_ok {rowCount columnCount : Nat} {s s' : Tiling} (hseen : s.seen ⊆ s.occupied) :
    checkCell rowCount columnCount s cell = .ok s' <->
      Inside rowCount columnCount cell ∧ cell.slots.Disjoint s.occupied ∧ s' = s.add cell := by
  constructor
  · intro h
    rcases bind_eq_ok h with ⟨_, hvalid, h⟩
    rcases bind_eq_ok h with ⟨occupied, hslots, h⟩
    cases h
    rcases (foldlM_occupy_eq_ok cell.nodup_slots).mp hslots with ⟨hdisjoint, _, rfl⟩
    exact ⟨not_not.mp (not_or.mp (reject_eq_ok.mp hvalid)).1, hdisjoint, rfl⟩
  · rintro ⟨hinside, hdisjoint, rfl⟩
    have hvalid : ¬ (¬ Inside rowCount columnCount cell ∨ cell.slot ∈ s.seen) := by
      rintro (h | h)
      · exact h hinside
      · exact hdisjoint hinside.slot_mem (hseen h)
    have hslots : cell.slots.foldlM
        (occupy "DocReader returned overlapping table grid spans"
          "DocReader returned covered table grid slot" (cell.slot :: s.seen) cell.slot)
        s.occupied = .ok (cell.slots.reverse ++ s.occupied) := by
      apply (foldlM_occupy_eq_ok cell.nodup_slots).mpr
      constructor
      · exact hdisjoint
      constructor
      · intro slot hslot hne hmem
        rcases List.mem_cons.mp hmem with heq | hmem
        · exact hne heq
        · exact hdisjoint hslot (hseen hmem)
      · rfl
    unfold checkCell
    rw [reject_bind hvalid]
    exact ok_bind hslots

theorem Inside.seen_add {rowCount columnCount : Nat} (h : Inside rowCount columnCount cell)
    {s : Tiling} (hseen : s.seen ⊆ s.occupied) :
    (s.add cell).seen ⊆ (s.add cell).occupied := by
  intro slot hslot
  rcases List.mem_cons.mp hslot with rfl | hslot
  · exact List.mem_append_left _ (List.mem_reverse.mpr h.slot_mem)
  · exact List.mem_append_right _ (hseen hslot)

/-!
# The loop
-/

variable {cells : List TableCell}

/-- The loop succeeds exactly on cells that lie in the grid, on free slots, and do not meet. -/
theorem foldlM_checkCell_eq_ok {rowCount columnCount : Nat} {s s' : Tiling}
    (hseen : s.seen ⊆ s.occupied) :
    cells.foldlM (checkCell rowCount columnCount) s = .ok s' <->
      (forall cell, cell ∈ cells ->
        Inside rowCount columnCount cell ∧ cell.slots.Disjoint s.occupied) ∧
        cells.Pairwise (fun a b => a.slots.Disjoint b.slots) ∧ s' = cells.foldl Tiling.add s := by
  induction cells generalizing s with
  | nil =>
      constructor
      · intro h
        cases h
        exact ⟨by simp, .nil, rfl⟩
      · rintro ⟨_, _, rfl⟩
        rfl
  | cons cell cells ih =>
      rw [List.foldlM_cons, List.pairwise_cons, List.forall_mem_cons]
      constructor
      · intro h
        rcases bind_eq_ok h with ⟨next, hfirst, hrest⟩
        rcases (checkCell_eq_ok hseen).mp hfirst with ⟨hinside, hfree, rfl⟩
        rcases (ih (hinside.seen_add hseen)).mp hrest with ⟨hcells, hpairwise, rfl⟩
        constructor
        · constructor
          · exact ⟨hinside, hfree⟩
          · intro other hother
            exact ⟨(hcells other hother).1,
              (List.disjoint_append_right.mp (hcells other hother).2).2⟩
        constructor
        · constructor
          · intro other hother
            have hdisjoint := (List.disjoint_append_right.mp (hcells other hother).2).1
            exact fun slot hslot hother => hdisjoint hother (List.mem_reverse.mpr hslot)
          · exact hpairwise
        · rfl
      · rintro ⟨⟨⟨hinside, hfree⟩, hcells⟩, ⟨hmeet, hpairwise⟩, rfl⟩
        rw [ok_bind ((checkCell_eq_ok hseen).mpr ⟨hinside, hfree, rfl⟩)]
        apply (ih (hinside.seen_add hseen)).mpr
        constructor
        · intro other hother
          constructor
          · exact (hcells other hother).1
          · apply List.disjoint_append_right.mpr
            constructor
            · intro slot hslot hcell
              exact hmeet other hother (List.mem_reverse.mp hcell) hslot
            · exact (hcells other hother).2
        · exact ⟨hpairwise, rfl⟩

theorem occupied_foldl_add (cells : List TableCell) (s : Tiling) :
    (cells.foldl Tiling.add s).occupied.Perm (cells.flatMap TableCell.slots ++ s.occupied) := by
  induction cells generalizing s with
  | nil =>
      exact .refl _
  | cons cell cells ih =>
      apply (ih (s.add cell)).trans
      show (cells.flatMap TableCell.slots ++ (cell.slots.reverse ++ s.occupied)).Perm
        (cell.slots ++ cells.flatMap TableCell.slots ++ s.occupied)
      rw [← List.append_assoc]
      apply List.Perm.append_right
      apply List.perm_append_comm.trans
      exact (List.reverse_perm cell.slots).append_right _

/-!
# Counting the slots
-/

/-- The cells take every slot of the grid and no slot twice. -/
structure Tiles (rowCount columnCount : Nat) (cells : List TableCell) : Prop where
  inside : forall cell, cell ∈ cells -> Inside rowCount columnCount cell
  disjoint : cells.Pairwise fun a b => a.slots.Disjoint b.slots
  covers : forall row column, row < rowCount -> column < columnCount ->
    exists cell, cell ∈ cells ∧ (row, column) ∈ cell.slots

theorem nodup_slots_of_disjoint (h : cells.Pairwise fun a b => a.slots.Disjoint b.slots) :
    (cells.flatMap TableCell.slots).Nodup :=
  List.nodup_flatMap.mpr ⟨fun cell _ => cell.nodup_slots, h⟩

/-- Cells that do not meet and do not leave the grid leave no slot exactly when they take as many
slots as the grid has. -/
theorem tiles_iff_length {rowCount columnCount : Nat}
    (hinside : forall cell, cell ∈ cells -> Inside rowCount columnCount cell)
    (hdisjoint : cells.Pairwise fun a b => a.slots.Disjoint b.slots) :
    Tiles rowCount columnCount cells <->
      (cells.flatMap TableCell.slots).length = rowCount * columnCount := by
  have hsub : cells.flatMap TableCell.slots ⊆ gridSlots rowCount columnCount := by
    intro slot hslot
    rcases List.mem_flatMap.mp hslot with ⟨cell, hcell, hslot⟩
    exact (hinside cell hcell).mem_gridSlots hslot
  have hnodup := nodup_slots_of_disjoint hdisjoint
  rw [← length_gridSlots]
  constructor
  · intro htiles
    have hsub' : gridSlots rowCount columnCount ⊆ cells.flatMap TableCell.slots := by
      rintro ⟨row, column⟩ hslot
      have hslot := mem_gridSlots.mp hslot
      rcases htiles.covers row column hslot.1 hslot.2 with ⟨cell, hcell, hmem⟩
      exact List.mem_flatMap.mpr ⟨cell, hcell, hmem⟩
    exact Nat.le_antisymm (hnodup.subperm hsub).length_le
      ((nodup_gridSlots rowCount columnCount).subperm hsub').length_le
  · intro hlength
    have hperm := (hnodup.subperm hsub).perm_of_length_le hlength.ge
    constructor
    · exact hinside
    · exact hdisjoint
    · intro row column hrow hcolumn
      have hslot : (row, column) ∈ cells.flatMap TableCell.slots :=
        hperm.mem_iff.mpr (mem_gridSlots.mpr ⟨hrow, hcolumn⟩)
      exact List.mem_flatMap.mp hslot

/-- The loop and the count together are the test for a tiling. -/
theorem checkCells_iff_tiles {rowCount columnCount : Nat} :
    (exists s, cells.foldlM (checkCell rowCount columnCount) ⟨[], []⟩ = .ok s ∧
      s.occupied.length = rowCount * columnCount) <-> Tiles rowCount columnCount cells := by
  have hseen : (⟨[], []⟩ : Tiling).seen ⊆ (⟨[], []⟩ : Tiling).occupied :=
    List.Subset.refl _
  have hlength : (cells.foldl Tiling.add ⟨[], []⟩).occupied.length =
      (cells.flatMap TableCell.slots).length := by
    rw [(occupied_foldl_add cells ⟨[], []⟩).length_eq, List.append_nil]
  constructor
  · rintro ⟨s, hrun, hcount⟩
    rcases (foldlM_checkCell_eq_ok hseen).mp hrun with ⟨hcells, hdisjoint, rfl⟩
    exact (tiles_iff_length (fun cell hcell => (hcells cell hcell).1) hdisjoint).mpr
      (hlength.symm.trans hcount)
  · intro htiles
    refine ⟨cells.foldl Tiling.add ⟨[], []⟩, ?_, ?_⟩
    · apply (foldlM_checkCell_eq_ok hseen).mpr
      exact ⟨fun cell hcell => ⟨htiles.inside cell hcell, List.disjoint_nil_right _⟩,
        htiles.disjoint, rfl⟩
    · exact hlength.trans ((tiles_iff_length htiles.inside htiles.disjoint).mp htiles)

/-!
# What a tiling forces
-/

variable {a b : TableCell}

theorem Tiles.eq_of_mem {rowCount columnCount : Nat} (h : Tiles rowCount columnCount cells)
    (ha : a ∈ cells) (hb : b ∈ cells) (hslot : slot ∈ a.slots) (hslot' : slot ∈ b.slots) :
    a = b := by
  by_contra hne
  have hsymm : Std.Symm fun a b : TableCell => a.slots.Disjoint b.slots :=
    ⟨fun a b hab => List.disjoint_symm hab⟩
  exact h.disjoint.forall ha hb hne hslot hslot'

theorem Tiles.countP_eq_one {rowCount columnCount : Nat} (h : Tiles rowCount columnCount cells)
    {row column : Nat} (hrow : row < rowCount) (hcolumn : column < columnCount) :
    (cells.countP fun cell => decide ((row, column) ∈ cell.slots)) = 1 := by
  apply Nat.le_antisymm
  · apply countP_le_one
    apply h.disjoint.imp
    intro a b hab hboth
    exact hab (of_decide_eq_true hboth.1) (of_decide_eq_true hboth.2)
  · rcases h.covers row column hrow hcolumn with ⟨cell, hcell, hslot⟩
    exact List.countP_pos_iff.mpr ⟨cell, hcell, decide_eq_true hslot⟩

theorem Tiles.append_eq_nil {rowCount columnCount : Nat} {cells more : List TableCell}
    (h : Tiles rowCount columnCount cells) (hmore : Tiles rowCount columnCount (cells ++ more)) :
    more = [] := by
  cases more with
  | nil =>
      rfl
  | cons cell more =>
      have hcell : cell ∈ cells ++ cell :: more := by simp
      have hinside := hmore.inside cell hcell
      have hslot := hinside.mem_gridSlots hinside.slot_mem
      rw [mem_gridSlots] at hslot
      rcases h.covers cell.row cell.column hslot.1 hslot.2 with ⟨owner, howner, hmem⟩
      have hdisjoint := (List.pairwise_append.mp hmore.disjoint).2.2 owner howner cell
        List.mem_cons_self
      exact absurd hinside.slot_mem (hdisjoint hmem)

/-!
# Merges of a grid

A reader that knows the merges of a grid lists one cell for each slot that no
merge covers, except at its anchor.  Merges that lie in the grid and do not meet
leave a tiling in this way.
-/

/-- The slots that merges cover, without their anchors. -/
def coveredSlots (merges : List TableCell) : List Slot :=
  merges.flatMap fun merge => merge.slots.filter fun slot => slot != merge.slot

/-- The spans at a slot; the last merge anchored there counts. -/
def spanAt (merges : List TableCell) (slot : Slot) : Nat × Nat :=
  ((merges.reverse.find? fun merge => merge.slot == slot).map fun merge =>
    (merge.rowSpan, merge.colSpan)).getD (1, 1)

/-- The cell that is listed for a slot. -/
def cellAt (merges : List TableCell) (textAt : Slot -> Text) (slot : Slot) : TableCell :=
  ⟨slot.1, slot.2, (spanAt merges slot).1, (spanAt merges slot).2, textAt slot⟩

/-- The slots for which a cell is listed. -/
def openSlots (rowCount columnCount : Nat) (merges : List TableCell) : List Slot :=
  (gridSlots rowCount columnCount).filter fun slot => !(coveredSlots merges).contains slot

/-- The cells of a grid with merges. -/
def mergedCells (rowCount columnCount : Nat) (merges : List TableCell) (textAt : Slot -> Text) :
    List TableCell :=
  (openSlots rowCount columnCount merges).map (cellAt merges textAt)

/-- A cell that takes more than one slot. -/
def MultiSlot (cell : TableCell) : Prop :=
  1 < cell.rowSpan * cell.colSpan

/-- The place of a cell, without its text. -/
def TableCell.area (cell : TableCell) : Slot × Nat × Nat :=
  (cell.slot, cell.rowSpan, cell.colSpan)

theorem mem_coveredSlots {merges : List TableCell} :
    slot ∈ coveredSlots merges <->
      exists merge, merge ∈ merges ∧ slot ∈ merge.slots ∧ slot ≠ merge.slot := by
  unfold coveredSlots
  simp only [List.mem_flatMap, List.mem_filter, bne_iff_ne]

theorem mem_openSlots {rowCount columnCount : Nat} {merges : List TableCell} :
    slot ∈ openSlots rowCount columnCount merges <->
      slot ∈ gridSlots rowCount columnCount ∧ slot ∉ coveredSlots merges := by
  unfold openSlots
  rw [List.mem_filter, Bool.not_eq_true', ← Bool.not_eq_true, List.contains_iff_mem]

theorem mem_mergedCells {rowCount columnCount : Nat} {merges : List TableCell}
    {textAt : Slot -> Text} :
    cell ∈ mergedCells rowCount columnCount merges textAt <->
      exists slot, slot ∈ openSlots rowCount columnCount merges ∧
        cellAt merges textAt slot = cell :=
  List.mem_map

/-- Merges that lie in the grid and do not meet. -/
structure MergesApart (rowCount columnCount : Nat) (merges : List TableCell) : Prop where
  inside : forall merge, merge ∈ merges -> Inside rowCount columnCount merge
  disjoint : merges.Pairwise fun a b => a.slots.Disjoint b.slots

section

variable {rowCount columnCount : Nat} {merges : List TableCell} {textAt : Slot -> Text}

theorem spanAt_single (h : forall merge, merge ∈ merges -> merge.slot ≠ slot) :
    spanAt merges slot = (1, 1) := by
  have hnone : (merges.reverse.find? fun merge => merge.slot == slot) = none := by
    apply List.find?_eq_none.mpr
    intro merge hmerge
    rw [beq_iff_eq]
    exact h merge (List.mem_reverse.mp hmerge)
  unfold spanAt
  rw [hnone]
  rfl

theorem slots_eq_of_area (h : a.area = b.area) : a.slots = b.slots := by
  rcases a with ⟨row, column, rowSpan, colSpan, text⟩
  rcases b with ⟨row', column', rowSpan', colSpan', text'⟩
  cases h
  rfl

theorem multiSlot_of_area (h : a.area = b.area) (hmulti : MultiSlot a) :
    MultiSlot b := by
  rcases a with ⟨row, column, rowSpan, colSpan, text⟩
  rcases b with ⟨row', column', rowSpan', colSpan', text'⟩
  cases h
  exact hmulti

theorem mem_slots_single {slot other : Slot} (h : cell.area = (slot, 1, 1)) :
    other ∈ cell.slots <-> other = slot := by
  rcases cell with ⟨row, column, rowSpan, colSpan, text⟩
  rcases other with ⟨row', column'⟩
  cases h
  rw [TableCell.mem_slots]
  show (row ≤ row' ∧ row' < row + 1) ∧ column ≤ column' ∧ column' < column + 1 <->
    (row', column') = (row, column)
  rw [Prod.mk.injEq]
  omega

variable (h : MergesApart rowCount columnCount merges)

include h

theorem MergesApart.eq_of_mem (ha : a ∈ merges) (hb : b ∈ merges) (hslot : slot ∈ a.slots)
    (hslot' : slot ∈ b.slots) : a = b := by
  by_contra hne
  have hsymm : Std.Symm fun a b : TableCell => a.slots.Disjoint b.slots :=
    ⟨fun a b hab => List.disjoint_symm hab⟩
  exact h.disjoint.forall ha hb hne hslot hslot'

variable {merge : TableCell}

theorem MergesApart.anchor_open (hmerge : merge ∈ merges) :
    merge.slot ∈ openSlots rowCount columnCount merges := by
  have hslot := (h.inside merge hmerge).slot_mem
  apply mem_openSlots.mpr
  constructor
  · exact (h.inside merge hmerge).mem_gridSlots hslot
  · intro hcovered
    rcases mem_coveredSlots.mp hcovered with ⟨other, hother, hmem, hne⟩
    rw [h.eq_of_mem hmerge hother hslot hmem] at hne
    exact hne rfl

theorem MergesApart.spanAt_anchor (hmerge : merge ∈ merges) :
    spanAt merges merge.slot = (merge.rowSpan, merge.colSpan) := by
  unfold spanAt
  cases hfind : merges.reverse.find? fun other => other.slot == merge.slot with
  | none =>
      have hnone := List.find?_eq_none.mp hfind merge (List.mem_reverse.mpr hmerge)
      exact absurd (beq_self_eq_true merge.slot) hnone
  | some other =>
      have hother := List.mem_reverse.mp (List.mem_of_find?_eq_some hfind)
      have hsame := List.find?_some hfind
      have hslot : other.slot = merge.slot := eq_of_beq hsame
      have hmem := (h.inside other hother).slot_mem
      rw [hslot] at hmem
      rw [h.eq_of_mem hother hmerge hmem (h.inside merge hmerge).slot_mem]
      rfl

theorem MergesApart.area_cellAt (hmerge : merge ∈ merges) :
    (cellAt merges textAt merge.slot).area = merge.area := by
  unfold cellAt
  rw [h.spanAt_anchor hmerge]
  rfl

theorem MergesApart.cellAt_cases (textAt : Slot -> Text) (slot : Slot) :
    (exists merge, merge ∈ merges ∧ merge.slot = slot ∧
      (cellAt merges textAt slot).area = merge.area) ∨
    ((forall merge, merge ∈ merges -> merge.slot ≠ slot) ∧
      (cellAt merges textAt slot).area = (slot, 1, 1)) := by
  by_cases hanchor : exists merge, merge ∈ merges ∧ merge.slot = slot
  · rcases hanchor with ⟨merge, hmerge, rfl⟩
    exact .inl ⟨merge, hmerge, rfl, h.area_cellAt hmerge⟩
  · have hsingle : forall merge, merge ∈ merges -> merge.slot ≠ slot :=
      fun merge hmerge heq => hanchor ⟨merge, hmerge, heq⟩
    right
    constructor
    · exact hsingle
    · unfold cellAt
      rw [spanAt_single hsingle]
      rfl

/-- An open slot lies in its own cell only. -/
theorem MergesApart.slot_eq_of_mem {a b : Slot} (ha : a ∉ coveredSlots merges)
    (hb : b ∉ coveredSlots merges) (hslot : slot ∈ (cellAt merges textAt a).slots)
    (hslot' : slot ∈ (cellAt merges textAt b).slots) : a = b := by
  -- A merge that meets a single cell would cover it.
  have hsingle : forall merge, merge ∈ merges -> forall c, c ∉ coveredSlots merges ->
      c ∈ merge.slots -> merge.slot = c := by
    intro merge hmerge c hc hmem
    by_contra hne
    exact hc (mem_coveredSlots.mpr ⟨merge, hmerge, hmem, fun heq => hne heq.symm⟩)
  rcases h.cellAt_cases textAt a with ⟨merge, hmerge, rfl, harea⟩ | ⟨_, harea⟩
  · rw [slots_eq_of_area harea] at hslot
    rcases h.cellAt_cases textAt b with ⟨other, hother, rfl, harea'⟩ | ⟨_, harea'⟩
    · rw [slots_eq_of_area harea'] at hslot'
      rw [h.eq_of_mem hmerge hother hslot hslot']
    · rw [(mem_slots_single harea').mp hslot'] at hslot
      exact hsingle merge hmerge b hb hslot
  · rw [(mem_slots_single harea).mp hslot] at hslot'
    rcases h.cellAt_cases textAt b with ⟨other, hother, rfl, harea'⟩ | ⟨_, harea'⟩
    · rw [slots_eq_of_area harea'] at hslot'
      exact (hsingle other hother a ha hslot').symm
    · exact (mem_slots_single harea').mp hslot'

/-- Merges that do not meet leave a tiling. -/
theorem MergesApart.tiles (textAt : Slot -> Text) :
    Tiles rowCount columnCount (mergedCells rowCount columnCount merges textAt) := by
  constructor
  · intro cell hcell
    rcases mem_mergedCells.mp hcell with ⟨slot, hslot, rfl⟩
    have hgrid := mem_gridSlots.mp (mem_openSlots.mp hslot).1
    rcases h.cellAt_cases textAt slot with ⟨merge, hmerge, rfl, harea⟩ | ⟨hsingle, _⟩
    · have hinside := h.inside merge hmerge
      unfold cellAt
      rw [h.spanAt_anchor hmerge]
      exact hinside
    · unfold cellAt
      rw [spanAt_single hsingle]
      exact ⟨Nat.le_refl _, Nat.le_refl _, hgrid.1, hgrid.2, hgrid.1, hgrid.2⟩
  · have hnodup : (openSlots rowCount columnCount merges).Nodup :=
      (nodup_gridSlots rowCount columnCount).filter _
    apply List.pairwise_map.mpr
    apply hnodup.imp_of_mem
    intro a b ha hb hne slot hslot hslot'
    exact hne (h.slot_eq_of_mem (mem_openSlots.mp ha).2 (mem_openSlots.mp hb).2 hslot hslot')
  · intro row column hrow hcolumn
    have hgrid : (row, column) ∈ gridSlots rowCount columnCount :=
      mem_gridSlots.mpr ⟨hrow, hcolumn⟩
    by_cases hcovered : (row, column) ∈ coveredSlots merges
    · rcases mem_coveredSlots.mp hcovered with ⟨merge, hmerge, hmem, _⟩
      refine ⟨_, mem_mergedCells.mpr ⟨merge.slot, h.anchor_open hmerge, rfl⟩, ?_⟩
      rw [slots_eq_of_area (h.area_cellAt hmerge)]
      exact hmem
    · have hopen := mem_openSlots.mpr ⟨hgrid, hcovered⟩
      refine ⟨_, mem_mergedCells.mpr ⟨(row, column), hopen, rfl⟩, ?_⟩
      rcases h.cellAt_cases textAt (row, column) with ⟨merge, hmerge, hslot, harea⟩ | ⟨_, harea⟩
      · rw [slots_eq_of_area harea, ← hslot]
        exact (h.inside merge hmerge).slot_mem
      · exact (mem_slots_single harea).mpr rfl

/-- The cells of more than one slot are the merges of more than one slot. -/
theorem MergesApart.multiSlot_iff (textAt : Slot -> Text) (area : Slot × Nat × Nat) :
    (exists cell, cell ∈ mergedCells rowCount columnCount merges textAt ∧ MultiSlot cell ∧
      cell.area = area) <->
    exists merge, merge ∈ merges ∧ MultiSlot merge ∧ merge.area = area := by
  constructor
  · rintro ⟨cell, hcell, hmulti, rfl⟩
    rcases mem_mergedCells.mp hcell with ⟨slot, _, rfl⟩
    rcases h.cellAt_cases textAt slot with ⟨merge, hmerge, _, harea⟩ | ⟨hsingle, _⟩
    · exact ⟨merge, hmerge, multiSlot_of_area harea hmulti, harea.symm⟩
    · unfold cellAt MultiSlot at hmulti
      rw [spanAt_single hsingle] at hmulti
      exact absurd hmulti (Nat.lt_irrefl _)
  · rintro ⟨merge, hmerge, hmulti, rfl⟩
    have harea : (cellAt merges textAt merge.slot).area = merge.area := h.area_cellAt hmerge
    exact ⟨_, mem_mergedCells.mpr ⟨merge.slot, h.anchor_open hmerge, rfl⟩,
      multiSlot_of_area harea.symm hmulti, harea⟩

end

end DocReader
end KnowledgeBrain
