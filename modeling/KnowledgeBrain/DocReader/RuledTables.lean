import KnowledgeBrain.DocReader.Xml
import KnowledgeBrain.DocReader.Tilings
import KnowledgeBrain.Foundation.UnionFind
import Mathlib.Algebra.Order.Field.Rat
import Mathlib.Algebra.BigOperators.Group.List.Basic
import Mathlib.Algebra.Order.BigOperators.Group.List
import Mathlib.Data.List.SplitBy
import Mathlib.Tactic.Linarith

/-!
# Ruled tables

A table of a page is read from its ruling lines and the boxes of its glyphs.
The lines are clustered into edges, slots without a line between them are
merged where they make up a rectangle, and a cell has the text of the glyphs
whose centres lie in it.  Coordinates are rational numbers; the vertical axis
points upwards.
-/

namespace KnowledgeBrain
namespace DocReader

open Foundation
open Chunker (Text)

structure Glyph where
  x0 : Rat
  x1 : Rat
  y0 : Rat
  y1 : Rat
  ch : Char
deriving DecidableEq

def Glyph.midX (glyph : Glyph) : Rat :=
  (glyph.x0 + glyph.x1) / 2

def Glyph.midY (glyph : Glyph) : Rat :=
  (glyph.y0 + glyph.y1) / 2

structure HorizontalRule where
  x0 : Rat
  y : Rat
  x1 : Rat

structure VerticalRule where
  x : Rat
  y0 : Rat
  y1 : Rat

structure MergedRange where
  startRow : Nat
  startColumn : Nat
  endRow : Nat
  endColumn : Nat
deriving DecidableEq

structure PdfTableGrid where
  left : Rat
  top : Rat
  right : Rat
  bottom : Rat
  rowCount : Nat
  columnCount : Nat
  cells : List TableCell
  mergedRanges : List MergedRange
  columnEdges : List Rat
deriving DecidableEq

def maxPdfTableColumns : Nat :=
  16

def maxPdfTableRows : Nat :=
  80

/-!
# Edges
-/

def mean (group : List Rat) : Rat :=
  group.sum / group.length

/-- `_cluster_positions`: values that follow each other closely are one position. -/
def clusterPositions (values : List Rat) (gap : Rat) : List Rat :=
  ((values.insertionSort (· ≤ ·)).splitBy fun last value => value - last ≤ gap).map mean

/-- The distance within which a line lies on an edge. -/
def tolerance : Rat :=
  7 / 2

def columnEdges (vertical : List VerticalRule) : List Rat :=
  (clusterPositions (vertical.map VerticalRule.x) tolerance).insertionSort (· ≤ ·)

/-- The edges of the rows from top to bottom. -/
def rowEdges (horizontal : List HorizontalRule) : List Rat :=
  ((clusterPositions (horizontal.map HorizontalRule.y) tolerance).insertionSort
    (· ≥ ·)).insertionSort (· ≥ ·)

def edge (edges : List Rat) (index : Nat) : Rat :=
  edges.getD index 0

/-!
# Merged ranges
-/

section Rules

variable (xs yVisual : List Rat) (horizontal : List HorizontalRule) (vertical : List VerticalRule)

/-- A vertical line stands between a slot and the next one of its row. -/
def separatedAcross (slot : Slot) : Bool :=
  vertical.any fun rule =>
    decide (|rule.x - edge xs (slot.2 + 1)| ≤ tolerance ∧
      rule.y0 ≤ edge yVisual (slot.1 + 1) + tolerance ∧
      rule.y1 ≥ edge yVisual slot.1 - tolerance)

/-- A horizontal line stands between a slot and the one below it. -/
def separatedBelow (slot : Slot) : Bool :=
  horizontal.any fun rule =>
    decide (|rule.y - edge yVisual (slot.1 + 1)| ≤ tolerance ∧
      rule.x0 ≤ edge xs slot.2 + tolerance ∧
      rule.x1 ≥ edge xs (slot.2 + 1) - tolerance)

/-- `union(left, right)`: the root of the left slot stays. -/
def union (fuel : Nat) (parents : Slot -> Slot) (left right : Slot) : Slot -> Slot :=
  UnionFind.join fuel parents right left

def unionAcross (fuel : Nat) (parents : Slot -> Slot) (slot : Slot) : Slot -> Slot :=
  if separatedAcross xs yVisual vertical slot then parents
  else union fuel parents slot (slot.1, slot.2 + 1)

def unionBelow (fuel : Nat) (parents : Slot -> Slot) (slot : Slot) : Slot -> Slot :=
  if separatedBelow xs yVisual horizontal slot then parents
  else union fuel parents slot (slot.1 + 1, slot.2)

/-- The slots by their roots.  No way to a root is longer than the number of unions. -/
def slotComponents (rowCount columnCount : Nat) : List (List Slot) :=
  let fuel := rowCount * (columnCount - 1) + (rowCount - 1) * columnCount
  let across := (gridSlots rowCount (columnCount - 1)).foldl
    (unionAcross xs yVisual vertical fuel) id
  let parents := (gridSlots (rowCount - 1) columnCount).foldl
    (unionBelow xs yVisual horizontal fuel) across
  ((gridSlots rowCount columnCount).foldl (UnionFind.collect id fuel) (parents, [])).2.map
    Prod.snd

end Rules

def smallest (values : List Nat) : Nat :=
  values.min?.getD 0

def largest (values : List Nat) : Nat :=
  values.max?.getD 0

/-- The rectangle around slots. -/
def boundingRange (slots : List Slot) : MergedRange where
  startRow := smallest (slots.map Prod.fst)
  startColumn := smallest (slots.map Prod.snd)
  endRow := largest (slots.map Prod.fst)
  endColumn := largest (slots.map Prod.snd)

/-- A range as a cell without a text. -/
def MergedRange.merge (range : MergedRange) : TableCell where
  row := range.startRow
  column := range.startColumn
  rowSpan := range.endRow + 1 - range.startRow
  colSpan := range.endColumn + 1 - range.startColumn
  text := []

def MergedRange.slots (range : MergedRange) : List Slot :=
  range.merge.slots

/-- `cells == expected`, for sets. -/
def fillsRange (slots : List Slot) (range : MergedRange) : Bool :=
  slots.all (fun slot => range.slots.contains slot) &&
    range.slots.all fun slot => slots.contains slot

def mergedRange (slots : List Slot) : Option MergedRange :=
  if slots.length = 1 then none
  else if fillsRange slots (boundingRange slots) then some (boundingRange slots)
  else none

def compareMergedRanges (a b : MergedRange) : Ordering :=
  (compare a.startRow b.startRow).then <| (compare a.startColumn b.startColumn).then <|
    (compare a.endRow b.endRow).then (compare a.endColumn b.endColumn)

/-- `_merged_ranges_from_rules`. -/
def mergedRangesFromRules (xs yVisual : List Rat) (horizontal : List HorizontalRule)
    (vertical : List VerticalRule) : List MergedRange :=
  let rowCount := yVisual.length - 1
  let columnCount := xs.length - 1
  sortBy compareMergedRanges
    ((slotComponents xs yVisual horizontal vertical rowCount columnCount).filterMap mergedRange)

/-!
# Texts
-/

section Texts

variable (xs yVisual : List Rat) (chars : List Glyph)

/-- The centre of a glyph lies in the rectangle, its sides included. -/
def centred (range : MergedRange) (glyph : Glyph) : Bool :=
  decide (edge xs range.startColumn ≤ glyph.midX ∧ glyph.midX ≤ edge xs (range.endColumn + 1) ∧
    edge yVisual (range.endRow + 1) ≤ glyph.midY ∧ glyph.midY ≤ edge yVisual range.startRow)

def rangeText (range : MergedRange) : Text :=
  strip ((chars.filter (centred xs yVisual range)).map Glyph.ch)

def slotRange (slot : Slot) : MergedRange :=
  ⟨slot.1, slot.2, slot.1, slot.2⟩

def slotText (slot : Slot) : Text :=
  rangeText xs yVisual chars (slotRange slot)

/-- The text of a merged range stands at its first slot; its other slots are empty. -/
def mergeText (texts : Slot -> Text) (range : MergedRange) (slot : Slot) : Text :=
  if slot = range.merge.slot then rangeText xs yVisual chars range
  else if range.slots.contains slot then []
  else texts slot

end Texts

/-- `_tables_from_rules`. -/
def tablesFromRules (horizontal : List HorizontalRule) (vertical : List VerticalRule)
    (chars : List Glyph) : List PdfTableGrid :=
  if horizontal.length < 3 ∨ vertical.length < 3 ∨ chars = [] then []
  else
    let xs := columnEdges vertical
    let yVisual := rowEdges horizontal
    if xs.length < 3 ∨ yVisual.length < 3 then []
    else
      let columnCount := xs.length - 1
      let rowCount := yVisual.length - 1
      if maxPdfTableColumns < columnCount ∨ maxPdfTableRows < rowCount then []
      else if (gridSlots rowCount columnCount).all fun slot => slotText xs yVisual chars slot = []
      then []
      else
        let mergedRanges := mergedRangesFromRules xs yVisual horizontal vertical
        let texts := mergedRanges.foldl (mergeText xs yVisual chars) (slotText xs yVisual chars)
        let merges := mergedRanges.map MergedRange.merge
        [{  left := edge xs 0
            top := edge yVisual 0
            right := edge xs (xs.length - 1)
            bottom := edge yVisual (yVisual.length - 1)
            rowCount := rowCount
            columnCount := columnCount
            cells := (gridSlots rowCount columnCount).map (cellAt merges texts)
            mergedRanges := mergedRanges
            columnEdges := xs }]

/-!
# Without the covered slots
-/

/-- The last of the cells at a slot. -/
def cellsAt (cells : List TableCell) (slot : Slot) : Option TableCell :=
  cells.reverse.find? fun cell => cell.slot == slot

/-- `spans.get((row, column), (cell.row_span, cell.col_span))`. -/
def spanOf (merges : List TableCell) (cell : TableCell) (slot : Slot) : Nat × Nat :=
  ((merges.reverse.find? fun merge => merge.slot == slot).map fun merge =>
    (merge.rowSpan, merge.colSpan)).getD (cell.rowSpan, cell.colSpan)

def sparseCell (cells merges : List TableCell) (slot : Slot) : Except Fault TableCell :=
  match cellsAt cells slot with
  | none => .error (.valueError "table grid missing uncovered cell")
  | some cell =>
      .ok ⟨slot.1, slot.2, (spanOf merges cell slot).1, (spanOf merges cell slot).2, cell.text⟩

/-- `sparsify_table_cells`. -/
def sparsifyTableCells (rowCount columnCount : Nat) (cells : List TableCell)
    (mergedRanges : List MergedRange) : Except Fault (List TableCell) :=
  let merges := mergedRanges.map MergedRange.merge
  (openSlots rowCount columnCount merges).mapM (sparseCell cells merges) >>= fun out =>
    validateSparseTableGrid ⟨rowCount, columnCount, out, none⟩ >>= fun _ => .ok out

/-!
# Edges of ruled tables

The positions of clusters are strictly ordered, and a coordinate between two
edges lies between two that follow each other.
-/

/-!
## Clusters
-/

theorem le_mean {group : List Rat} (hne : group ≠ []) {low : Rat}
    (h : forall value, value ∈ group -> low ≤ value) : low ≤ mean group := by
  have hlength : (0 : Rat) < group.length := by
    exact_mod_cast List.length_pos_iff.mpr hne
  have hsum := List.card_nsmul_le_sum group low h
  unfold mean
  rw [le_div_iff₀ hlength, mul_comm, ← nsmul_eq_mul]
  exact hsum

theorem mean_le {group : List Rat} (hne : group ≠ []) {high : Rat}
    (h : forall value, value ∈ group -> value ≤ high) : mean group ≤ high := by
  have hlength : (0 : Rat) < group.length := by
    exact_mod_cast List.length_pos_iff.mpr hne
  have hsum := List.sum_le_card_nsmul group high h
  unfold mean
  rw [div_le_iff₀ hlength, mul_comm, ← nsmul_eq_mul]
  exact hsum

theorem pairwise_clusterPositions {values : List Rat} {gap : Rat} (hgap : 0 ≤ gap) :
    (clusterPositions values gap).Pairwise (· < ·) := by
  unfold clusterPositions
  have hsorted := List.pairwise_insertionSort (· ≤ ·) values
  generalize values.insertionSort (· ≤ ·) = sorted at hsorted
  have hchain := List.isChain_getLast_head_splitBy (fun last value => decide (value - last ≤ gap))
    sorted
  have hflatten := List.flatten_splitBy (fun last value => decide (value - last ≤ gap)) sorted
  have hgroups : forall group,
      group ∈ sorted.splitBy (fun last value => decide (value - last ≤ gap)) ->
        group.Pairwise (· ≤ ·) := by
    rw [← hflatten, List.pairwise_flatten] at hsorted
    exact hsorted.1
  rw [← List.isChain_iff_pairwise, List.isChain_map]
  apply List.IsChain.imp_of_mem_imp _ hchain
  rintro group next hgroup hnext ⟨hne, hne', happart⟩
  have hfirst : mean group ≤ group.getLast hne := by
    apply mean_le hne
    intro value hvalue
    exact (hgroups group hgroup).rel_getLast hvalue
  have hsecond : next.head hne' ≤ mean next := by
    apply le_mean hne'
    intro value hvalue
    exact (hgroups next hnext).rel_head hvalue
  have hgap := of_decide_eq_false happart
  rw [not_le] at hgap
  linarith

theorem tolerance_nonneg : (0 : Rat) ≤ tolerance := by
  norm_num [tolerance]

theorem pairwise_columnEdges (vertical : List VerticalRule) :
    (columnEdges vertical).Pairwise (· < ·) := by
  unfold columnEdges
  have hstrict := @pairwise_clusterPositions (vertical.map VerticalRule.x) _ tolerance_nonneg
  rw [List.Pairwise.insertionSort_eq (hstrict.imp le_of_lt)]
  exact hstrict

theorem pairwise_rowEdges (horizontal : List HorizontalRule) :
    (rowEdges horizontal).Pairwise (· > ·) := by
  unfold rowEdges
  have hstrict := @pairwise_clusterPositions (horizontal.map HorizontalRule.y) _ tolerance_nonneg
  generalize clusterPositions (horizontal.map HorizontalRule.y) tolerance = ys at hstrict
  have hnodup : (ys.insertionSort (· ≥ ·)).Nodup :=
    (List.perm_insertionSort _ ys).nodup_iff.mpr (hstrict.imp ne_of_lt)
  have hsorted := List.pairwise_insertionSort (· ≥ ·) ys
  rw [List.Pairwise.insertionSort_eq hsorted]
  exact (hsorted.and hnodup).imp fun h => lt_of_le_of_ne h.1 (Ne.symm h.2)

/-!
## Between edges
-/

theorem exists_between {A : Type} [LinearOrder A] {f : Nat -> A} {start stop : Nat} {x : A}
    (hlt : start < stop) (hstart : f start ≤ x) (hstop : x ≤ f stop) :
    exists index, start ≤ index ∧ index < stop ∧ f index ≤ x ∧ x ≤ f (index + 1) := by
  induction stop with
  | zero =>
      exact absurd hlt (Nat.not_lt_zero _)
  | succ stop ih =>
      by_cases hat : f stop ≤ x
      · exact ⟨stop, Nat.le_of_lt_succ hlt, Nat.lt_succ_self _, hat, hstop⟩
      · have hbefore : start < stop := by
          rcases Nat.lt_or_ge start stop with hlt | hge
          · exact hlt
          · have heq : start = stop := Nat.le_antisymm (Nat.le_of_lt_succ hlt) hge
            exact absurd (heq ▸ hstart) hat
        rcases ih hbefore (le_of_lt (not_le.mp hat)) with ⟨index, hfrom, hto, hin⟩
        exact ⟨index, hfrom, Nat.lt_succ_of_lt hto, hin⟩

variable {edges : List Rat}

theorem edge_eq {i : Nat} (h : i < edges.length) : edge edges i = edges[i] := by
  unfold edge
  rw [List.getD_eq_getElem?_getD, List.getElem?_eq_getElem h]
  rfl

theorem edge_le_of_pairwise (h : edges.Pairwise (· < ·)) {i j : Nat} (hle : i ≤ j)
    (hj : j < edges.length) : edge edges i ≤ edge edges j := by
  rcases Nat.lt_or_eq_of_le hle with hlt | rfl
  · rw [edge_eq (Nat.lt_trans hlt hj), edge_eq hj]
    exact le_of_lt (List.pairwise_iff_getElem.mp h i j (Nat.lt_trans hlt hj) hj hlt)
  · exact le_rfl

theorem edge_ge_of_pairwise (h : edges.Pairwise (· > ·)) {i j : Nat} (hle : i ≤ j)
    (hj : j < edges.length) : edge edges j ≤ edge edges i := by
  rcases Nat.lt_or_eq_of_le hle with hlt | rfl
  · rw [edge_eq (Nat.lt_trans hlt hj), edge_eq hj]
    exact le_of_lt (List.pairwise_iff_getElem.mp h i j (Nat.lt_trans hlt hj) hj hlt)
  · exact le_rfl

/-!
# Merged ranges

The ranges that are merged are the components of slots without a line between
them, as far as they fill a rectangle of more than one slot.
-/

/-!
## Ranges
-/

variable {range : MergedRange} {slot : Slot}

theorem MergedRange.mem_slots :
    slot ∈ range.slots <-> (range.startRow ≤ slot.1 ∧ slot.1 ≤ range.endRow) ∧
      range.startColumn ≤ slot.2 ∧ slot.2 ≤ range.endColumn := by
  unfold slots merge
  rw [TableCell.mem_slots]
  dsimp only
  omega

theorem smallest_eq {values : List Nat} {m : Nat} (hmem : m ∈ values)
    (hle : forall value, value ∈ values -> m ≤ value) : smallest values = m := by
  unfold smallest
  rw [List.min?_eq_some_iff.mpr ⟨hmem, hle⟩]
  rfl

theorem largest_eq {values : List Nat} {m : Nat} (hmem : m ∈ values)
    (hle : forall value, value ∈ values -> value ≤ m) : largest values = m := by
  unfold largest
  rw [List.max?_eq_some_iff.mpr ⟨hmem, hle⟩]
  rfl

variable {slots : List Slot}

/-- The rectangle around the slots of a range is the range. -/
theorem boundingRange_eq (hslot : slot ∈ slots) (h : forall t, t ∈ range.slots <-> t ∈ slots) :
    boundingRange slots = range := by
  have hbounds := MergedRange.mem_slots.mp ((h slot).mpr hslot)
  have hfirst : (range.startRow, range.startColumn) ∈ slots := by
    rw [← h, MergedRange.mem_slots]
    dsimp only
    omega
  have hlast : (range.endRow, range.endColumn) ∈ slots := by
    rw [← h, MergedRange.mem_slots]
    dsimp only
    omega
  have hin : forall t, t ∈ slots -> (range.startRow ≤ t.1 ∧ t.1 ≤ range.endRow) ∧
      range.startColumn ≤ t.2 ∧ t.2 ≤ range.endColumn := fun t ht =>
    MergedRange.mem_slots.mp ((h t).mpr ht)
  rcases range with ⟨startRow, startColumn, endRow, endColumn⟩
  unfold boundingRange
  rw [MergedRange.mk.injEq]
  refine ⟨smallest_eq (List.mem_map_of_mem hfirst) ?_, smallest_eq (List.mem_map_of_mem hfirst) ?_,
    largest_eq (List.mem_map_of_mem hlast) ?_, largest_eq (List.mem_map_of_mem hlast) ?_⟩
  · intro value hvalue
    rcases List.mem_map.mp hvalue with ⟨t, ht, rfl⟩
    exact (hin t ht).1.1
  · intro value hvalue
    rcases List.mem_map.mp hvalue with ⟨t, ht, rfl⟩
    exact (hin t ht).2.1
  · intro value hvalue
    rcases List.mem_map.mp hvalue with ⟨t, ht, rfl⟩
    exact (hin t ht).1.2
  · intro value hvalue
    rcases List.mem_map.mp hvalue with ⟨t, ht, rfl⟩
    exact (hin t ht).2.2

theorem fillsRange_iff :
    fillsRange slots range = true <-> forall t, t ∈ range.slots <-> t ∈ slots := by
  unfold fillsRange
  rw [Bool.and_eq_true, List.all_eq_true, List.all_eq_true]
  simp only [List.contains_iff_mem]
  constructor
  · intro h t
    exact ⟨h.2 t, h.1 t⟩
  · intro h
    exact ⟨fun t => (h t).mpr, fun t => (h t).mp⟩

/-- A group of slots is merged when it has more than one slot and fills a rectangle. -/
theorem mergedRange_eq_some (hnodup : slots.Nodup) (hslot : slot ∈ slots) :
    mergedRange slots = some range <->
      (exists other, other ∈ slots ∧ slot ≠ other) ∧ forall t, t ∈ range.slots <-> t ∈ slots := by
  have hmany : slots.length ≠ 1 <-> exists other, other ∈ slots ∧ slot ≠ other := by
    constructor
    · intro hlength
      by_contra hnone
      have hall : forall other, other ∈ slots -> other = slot := by
        intro other hother
        by_contra hne
        exact hnone ⟨other, hother, Ne.symm hne⟩
      have hsub : slots ⊆ [slot] := fun other hother => List.mem_singleton.mpr (hall other hother)
      have hle := (hnodup.subperm hsub).length_le
      have hpos := List.length_pos_of_mem hslot
      simp only [List.length_singleton] at hle
      omega
    · rintro ⟨other, hother, hne⟩ hlength
      rcases List.length_eq_one_iff.mp hlength with ⟨only, rfl⟩
      rw [List.mem_singleton] at hslot hother
      exact hne (hslot.trans hother.symm)
  unfold mergedRange
  rw [← hmany]
  split
  · rename_i hone
    constructor
    · intro h
      cases h
    · exact fun h => absurd hone h.1
  · rename_i hmore
    split
    · rename_i hfills
      constructor
      · intro h
        cases h
        exact ⟨hmore, fillsRange_iff.mp hfills⟩
      · intro h
        rw [boundingRange_eq hslot h.2]
    · rename_i hnot
      constructor
      · intro h
        cases h
      · intro h
        rw [boundingRange_eq hslot h.2] at hnot
        exact absurd (fillsRange_iff.mpr h.2) hnot

/-!
## Components
-/

section Rules

variable (xs yVisual : List Rat) (horizontal : List HorizontalRule) (vertical : List VerticalRule)

/-- Two slots that follow each other in a row or a column, with no line between them. -/
def Unseparated (s t : Slot) : Prop :=
  (s ∈ gridSlots (yVisual.length - 1) (xs.length - 1 - 1) ∧ t = (s.1, s.2 + 1) ∧
      separatedAcross xs yVisual vertical s = false) ∨
    (s ∈ gridSlots (yVisual.length - 1 - 1) (xs.length - 1) ∧ t = (s.1 + 1, s.2) ∧
      separatedBelow xs yVisual horizontal s = false)

/-- Slots of one component. -/
def Connected : Slot -> Slot -> Prop :=
  Relation.EqvGen (Unseparated xs yVisual horizontal vertical)

/-- The unions in the order in which they are made. -/
def slotLinks : List (Slot × Slot) :=
  ((gridSlots (yVisual.length - 1) (xs.length - 1 - 1)).filter fun s =>
      !separatedAcross xs yVisual vertical s).map (fun s => ((s.1, s.2 + 1), s)) ++
    ((gridSlots (yVisual.length - 1 - 1) (xs.length - 1)).filter fun s =>
      !separatedBelow xs yVisual horizontal s).map fun s => ((s.1 + 1, s.2), s)

variable {s t : Slot}

theorem mem_slotLinks : (t, s) ∈ slotLinks xs yVisual horizontal vertical <->
    Unseparated xs yVisual horizontal vertical s t := by
  unfold slotLinks Unseparated
  rw [List.mem_append, List.mem_map, List.mem_map]
  constructor
  · rintro (⟨s', hs, heq⟩ | ⟨s', hs, heq⟩)
    · cases heq
      have hs := List.mem_filter.mp hs
      exact .inl ⟨hs.1, rfl, by simpa using hs.2⟩
    · cases heq
      have hs := List.mem_filter.mp hs
      exact .inr ⟨hs.1, rfl, by simpa using hs.2⟩
  · rintro (⟨hs, rfl, hopen⟩ | ⟨hs, rfl, hopen⟩)
    · exact .inl ⟨s, List.mem_filter.mpr ⟨hs, by simpa using hopen⟩, rfl⟩
    · exact .inr ⟨s, List.mem_filter.mpr ⟨hs, by simpa using hopen⟩, rfl⟩

theorem eqvGen_slotLinks :
    Relation.EqvGen (fun a b => (a, b) ∈ slotLinks xs yVisual horizontal vertical) s t <->
      Connected xs yVisual horizontal vertical s t := by
  constructor
  · intro h
    induction h with
    | rel a b hlink => exact .symm _ _ (.rel _ _ ((mem_slotLinks _ _ _ _).mp hlink))
    | refl a => exact .refl a
    | symm a b _ ih => exact ih.symm _ _
    | trans a b c _ _ ihab ihbc => exact ihab.trans _ _ _ ihbc
  · intro h
    unfold Connected at h
    induction h with
    | rel a b hlink => exact .symm _ _ (.rel _ _ ((mem_slotLinks _ _ _ _).mpr hlink))
    | refl a => exact .refl a
    | symm a b _ ih => exact ih.symm _ _
    | trans a b c _ _ ihab ihbc => exact ihab.trans _ _ _ ihbc

theorem foldl_unless {A B : Type} {f : B -> A -> B} {p : A -> Bool} (items : List A) (b : B) :
    items.foldl (fun b a => if p a then b else f b a) b =
      (items.filter fun a => !p a).foldl f b := by
  induction items generalizing b with
  | nil =>
      rfl
  | cons a rest ih =>
      rw [List.foldl_cons, ih]
      by_cases hp : p a = true
      · rw [if_pos hp, List.filter_cons_of_neg (by simp [hp])]
      · rw [if_neg hp, List.filter_cons_of_pos (by simp [hp]), List.foldl_cons]

theorem slotComponents_eq :
    slotComponents xs yVisual horizontal vertical (yVisual.length - 1) (xs.length - 1) =
      let fuel := (yVisual.length - 1) * (xs.length - 1 - 1) +
        (yVisual.length - 1 - 1) * (xs.length - 1)
      ((gridSlots (yVisual.length - 1) (xs.length - 1)).foldl (UnionFind.collect id fuel)
        ((slotLinks xs yVisual horizontal vertical).foldl (fun parents link =>
          UnionFind.join fuel parents link.1 link.2) id, [])).2.map Prod.snd := by
  unfold slotComponents slotLinks
  dsimp only
  rw [List.foldl_append, List.foldl_map, List.foldl_map]
  unfold unionAcross unionBelow union
  rw [foldl_unless, foldl_unless]

theorem length_slotLinks_le :
    (slotLinks xs yVisual horizontal vertical).length ≤
      (yVisual.length - 1) * (xs.length - 1 - 1) + (yVisual.length - 1 - 1) * (xs.length - 1) := by
  unfold slotLinks
  rw [List.length_append, List.length_map, List.length_map]
  have hacross := List.length_filter_le (fun s => !separatedAcross xs yVisual vertical s)
    (gridSlots (yVisual.length - 1) (xs.length - 1 - 1))
  have hbelow := List.length_filter_le (fun s => !separatedBelow xs yVisual horizontal s)
    (gridSlots (yVisual.length - 1 - 1) (xs.length - 1))
  rw [length_gridSlots] at hacross hbelow
  exact Nat.add_le_add hacross hbelow

/-- The slots in groups of connected slots. -/
structure SlotGroups (groups : List (List Slot)) : Prop where
  nodup : groups.flatten.Nodup
  inhabited : forall group, group ∈ groups -> group ≠ []
  connected : forall group, group ∈ groups -> forall s, s ∈ group -> forall t,
    t ∈ group <-> t ∈ gridSlots (yVisual.length - 1) (xs.length - 1) ∧
      Connected xs yVisual horizontal vertical s t
  covers : forall s, s ∈ gridSlots (yVisual.length - 1) (xs.length - 1) ->
    exists group, group ∈ groups ∧ s ∈ group

theorem slotGroups_slotComponents :
    SlotGroups xs yVisual horizontal vertical
      (slotComponents xs yVisual horizontal vertical (yVisual.length - 1) (xs.length - 1)) := by
  rw [slotComponents_eq]
  dsimp only
  rcases @UnionFind.bucketed_links Slot _ Slot id _ _
    (length_slotLinks_le xs yVisual horizontal vertical)
    (gridSlots (yVisual.length - 1) (xs.length - 1)) with ⟨rep, hrep, hgroups⟩
  generalize (List.foldl (@UnionFind.collect Slot _ Slot id _) _ _).2 = groups at hgroups ⊢
  constructor
  · rw [← List.flatMap_def]
    exact hgroups.perm.nodup_iff.mpr (nodup_gridSlots _ _)
  · intro group hgroup
    rcases List.mem_map.mp hgroup with ⟨pair, hpair, rfl⟩
    exact hgroups.inhabited pair hpair
  · intro group hgroup s hs t
    rcases List.mem_map.mp hgroup with ⟨pair, hpair, rfl⟩
    rw [hgroups.mem_iff hpair hs, ← eqvGen_slotLinks, ← hrep]
    exact Iff.rfl
  · intro s hs
    rcases List.mem_flatMap.mp (hgroups.perm.mem_iff.mpr hs) with ⟨pair, hpair, hmem⟩
    exact ⟨pair.2, List.mem_map_of_mem hpair, hmem⟩

/-- Connected slots are one slot, or lie in the grid. -/
theorem connected_cases (h : Connected xs yVisual horizontal vertical s t) :
    s = t ∨ s ∈ gridSlots (yVisual.length - 1) (xs.length - 1) ∧
      t ∈ gridSlots (yVisual.length - 1) (xs.length - 1) := by
  unfold Connected at h
  induction h with
  | rel s t hlink =>
      right
      rcases hlink with ⟨hs, rfl, -⟩ | ⟨hs, rfl, -⟩
      · rw [mem_gridSlots] at hs ⊢
        rw [mem_gridSlots]
        dsimp only
        omega
      · rw [mem_gridSlots] at hs ⊢
        rw [mem_gridSlots]
        dsimp only
        omega
  | refl s => exact .inl rfl
  | symm s t _ ih =>
      rcases ih with rfl | ⟨hs, ht⟩
      · exact .inl rfl
      · exact .inr ⟨ht, hs⟩
  | trans s t u _ _ ihst ihtu =>
      rcases ihst with rfl | ⟨hs, _⟩
      · exact ihtu
      · rcases ihtu with rfl | ⟨_, hu⟩
        · exact .inr ⟨hs, by assumption⟩
        · exact .inr ⟨hs, hu⟩

/-- The range has exactly the slots of a component of more than one slot. -/
def IsMerged (range : MergedRange) : Prop :=
  exists slot other, slot ≠ other ∧ Connected xs yVisual horizontal vertical slot other ∧
    forall t, t ∈ range.slots <-> Connected xs yVisual horizontal vertical slot t

/-- What is merged of a group is a range with its slots. -/
theorem SlotGroups.mergedRange_iff {groups : List (List Slot)}
    (h : SlotGroups xs yVisual horizontal vertical groups) {group : List Slot}
    (hgroup : group ∈ groups) (hslot : slot ∈ group) :
    mergedRange group = some range <->
      (exists other, slot ≠ other ∧ Connected xs yVisual horizontal vertical slot other) ∧
        forall t, t ∈ range.slots <-> Connected xs yVisual horizontal vertical slot t := by
  have hnodup : group.Nodup := (List.nodup_flatten.mp h.nodup).1 group hgroup
  have hgrid : slot ∈ gridSlots (yVisual.length - 1) (xs.length - 1) :=
    ((h.connected group hgroup slot hslot slot).mp hslot).1
  have hmem : forall t, t ∈ group <-> Connected xs yVisual horizontal vertical slot t := by
    intro t
    rw [h.connected group hgroup slot hslot t]
    constructor
    · exact fun ht => ht.2
    · intro ht
      rcases connected_cases _ _ _ _ ht with rfl | ⟨_, hin⟩
      · exact ⟨hgrid, ht⟩
      · exact ⟨hin, ht⟩
  rw [mergedRange_eq_some hnodup hslot]
  simp only [hmem]
  constructor
  · rintro ⟨⟨other, hother, hne⟩, hall⟩
    exact ⟨⟨other, hne, hother⟩, hall⟩
  · rintro ⟨⟨other, hne, hother⟩, hall⟩
    exact ⟨⟨other, hother, hne⟩, hall⟩

/-- The merged ranges are the components of more than one slot that fill a rectangle. -/
theorem mem_mergedRangesFromRules :
    range ∈ mergedRangesFromRules xs yVisual horizontal vertical <->
      IsMerged xs yVisual horizontal vertical range := by
  have hgroups := slotGroups_slotComponents xs yVisual horizontal vertical
  unfold mergedRangesFromRules IsMerged
  dsimp only
  rw [mem_sortBy, List.mem_filterMap]
  constructor
  · rintro ⟨group, hgroup, hrange⟩
    rcases List.exists_mem_of_ne_nil group (hgroups.inhabited group hgroup) with ⟨slot, hslot⟩
    rcases (hgroups.mergedRange_iff _ _ _ _ hgroup hslot).mp hrange with
      ⟨⟨other, hne, hother⟩, hall⟩
    exact ⟨slot, other, hne, hother, hall⟩
  · rintro ⟨slot, other, hne, hother, hall⟩
    rcases connected_cases _ _ _ _ hother with heq | ⟨hgrid, -⟩
    · exact absurd heq hne
    · rcases hgroups.covers slot hgrid with ⟨group, hgroup, hslot⟩
      exact ⟨group, hgroup,
        (hgroups.mergedRange_iff _ _ _ _ hgroup hslot).mpr ⟨⟨other, hne, hother⟩, hall⟩⟩

/-- Merged ranges do not meet. -/
theorem pairwise_mergedRangesFromRules :
    (mergedRangesFromRules xs yVisual horizontal vertical).Pairwise fun a b =>
      a.slots.Disjoint b.slots := by
  have hgroups := slotGroups_slotComponents xs yVisual horizontal vertical
  unfold mergedRangesFromRules
  dsimp only
  rw [(perm_sortBy _ _).pairwise_iff fun hab => List.disjoint_symm hab, List.pairwise_filterMap]
  apply (List.nodup_flatten.mp hgroups.nodup).2.imp_of_mem
  intro group other hgroup hother hdisjoint range hrange range' hrange'
  have hsub : forall group, group ∈ slotComponents xs yVisual horizontal vertical
      (yVisual.length - 1) (xs.length - 1) -> forall range, mergedRange group = some range ->
      forall t, t ∈ range.slots -> t ∈ group := by
    intro group hgroup range hrange t ht
    rcases List.exists_mem_of_ne_nil group (hgroups.inhabited group hgroup) with ⟨slot, hslot⟩
    have hall := ((mergedRange_eq_some ((List.nodup_flatten.mp hgroups.nodup).1 group hgroup)
      hslot).mp hrange).2
    exact (hall t).mp ht
  intro t ht ht'
  exact hdisjoint (hsub group hgroup range hrange t ht) (hsub other hother range' hrange' t ht')

/-- Merged ranges lie in the grid and do not meet. -/
theorem mergesApart_mergedRangesFromRules :
    MergesApart (yVisual.length - 1) (xs.length - 1)
      ((mergedRangesFromRules xs yVisual horizontal vertical).map MergedRange.merge) where
  inside := by
    intro merge hmerge
    rcases List.mem_map.mp hmerge with ⟨range, hrange, rfl⟩
    rcases (mem_mergedRangesFromRules _ _ _ _).mp hrange with ⟨slot, other, hne, hother, hall⟩
    have hslot := MergedRange.mem_slots.mp ((hall slot).mpr (.refl slot))
    have hlast : (range.endRow, range.endColumn) ∈ range.slots := by
      rw [MergedRange.mem_slots]
      dsimp only
      omega
    have hgrid : (range.endRow, range.endColumn) ∈
        gridSlots (yVisual.length - 1) (xs.length - 1) := by
      rcases connected_cases _ _ _ _ hother with heq | ⟨hgrid, -⟩
      · exact absurd heq hne
      · rcases connected_cases _ _ _ _ ((hall _).mp hlast) with heq | ⟨-, hin⟩
        · rw [← heq]
          exact hgrid
        · exact hin
    rw [mem_gridSlots] at hgrid
    dsimp only at hgrid
    unfold Inside MergedRange.merge
    dsimp only
    omega
  disjoint := by
    rw [List.pairwise_map]
    exact pairwise_mergedRangesFromRules xs yVisual horizontal vertical

end Rules

end DocReader
end KnowledgeBrain
