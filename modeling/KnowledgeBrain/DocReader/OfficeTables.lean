import KnowledgeBrain.DocReader.Anydoc
import KnowledgeBrain.Foundation.PipeTables

/-!
# Tables of office documents

A slot that a span of another cell covers is left out of its row, and the row
is filled up at its end.  A cell stands in its own column as long as no such
slot stands before it, or the cell that has moved there shows the same text.
-/

namespace KnowledgeBrain
namespace DocReader
namespace Anydoc

open Foundation
open Foundation.PipeTable
open Chunker (Text)

/-!
# What a table should show
-/

variable (label : MarkerKind -> Nat -> Text)

/-- The parts of a cell, as one text. -/
def cellText (blocks : List Block) : Text :=
  joinTexts [' '] (renderBlocks label blocks)

def slotText : CellSlot -> Option Text
  | .origin blocks => some (cellText label blocks)
  | .covered => none

/-- The texts of the slots of a grid. -/
def slotTexts (grid : List (List CellSlot)) : List (List (Option Text)) :=
  grid.map fun row => row.map (slotText label)

/-- A line break in a cell is a blank. -/
def unbroken (t : Text) : Text :=
  t.map fun c => if c = '\n' then ' ' else c

/-- A text as a cell shows it, without the blanks around it. -/
def shown (t : Text) : Text :=
  trimBlanks (unbroken t)

/-- The rows in which a cell starts. -/
def startingRows (texts : List (List (Option Text))) : List (List (Option Text)) :=
  texts.filter fun slots => slots.any Option.isSome

/-- A table is read with one row for each row in which a cell starts, all of one length, and each
cell stands in the column of its slot. -/
def Aligned (texts : List (List (Option Text))) (table : Text) : Prop :=
  exists rows, readTable table = some rows ∧ rows.length = (startingRows texts).length ∧
    (exists n, forall row, row ∈ rows -> row.length = n) ∧
    forall (i k : Nat) (slots : List (Option Text)) (text : Text),
      (startingRows texts)[i]? = some slots -> slots[k]? = some (some text) ->
        exists row, rows[i]? = some row ∧ row[k]? = some (shown text)

/-- Every row of a grid has the same number of slots. -/
def Rectangular (grid : List (List CellSlot)) : Prop :=
  exists n, forall row, row ∈ grid -> row.length = n

/-- The table of a grid, if there is one, is aligned. -/
def TableAligned (grid : List (List CellSlot)) : Prop :=
  forall table, renderBlock label (.table grid) = some table ->
    Aligned (slotTexts label grid) table

/-!
# When it does
-/

/-- No cell has a carriage return. -/
def ReturnFree (texts : List (List (Option Text))) : Prop :=
  forall slots text, slots ∈ texts -> some text ∈ slots -> '\r' ∉ text

/-- The texts of the cells that start in a row, without the slots between them. -/
def pushed (slots : List (Option Text)) : List Text :=
  slots.filterMap id

/-- The rows of a table, before they are filled up. -/
def pushedRows (texts : List (List (Option Text))) : List (List Text) :=
  (startingRows texts).map pushed

def gridWidth (texts : List (List (Option Text))) : Nat :=
  tableWidth (pushedRows texts)

/-- Where a cell should stand, its row shows its text once the covered slots are left out. -/
def KeepsColumns (texts : List (List (Option Text))) : Prop :=
  forall (slots : List (Option Text)) (k : Nat) (text : Text), slots ∈ texts ->
    slots[k]? = some (some text) ->
      exists text', (resize (gridWidth texts) (pushed slots))[k]? = some text' ∧
        shown text' = shown text

/-!
# The texts of the cells
-/

variable {label}

theorem renderRow_eq (row : List CellSlot) :
    renderRow label row = (row.map (slotText label)).map (Option.map escapeCell) := by
  induction row with
  | nil =>
      rfl
  | cons slot row ih =>
      cases slot with
      | origin blocks =>
          rw [renderRow, ih]
          rfl
      | covered =>
          rw [renderRow, ih]
          rfl

theorem renderRows_eq (grid : List (List CellSlot)) :
    renderRows label grid =
      (slotTexts label grid).map fun slots => slots.map (Option.map escapeCell) := by
  induction grid with
  | nil =>
      rfl
  | cons row grid ih =>
      rw [renderRows, ih, renderRow_eq]
      rfl

theorem escapeCell_eq (t : Text) :
    escapeCell t = escape (unbroken t) := by
  induction t with
  | nil =>
      rfl
  | cons c t ih =>
      have hcons : escapeCell (c :: t) =
          replaceChar '\n' [' '] (if c = '|' then ['\\', '|'] else [c]) ++ escapeCell t := by
        simp [escapeCell, replaceChar]
      rw [hcons, ih, unbroken, unbroken, List.map_cons, escape_cons]
      by_cases hpipe : c = '|'
      · subst hpipe
        rfl
      · by_cases hfeed : c = '\n'
        · subst hfeed
          rfl
        · rw [if_neg hpipe, if_neg hfeed, if_neg hpipe]
          simp [replaceChar, hfeed]

variable {c : Char}

theorem mem_escapeCell (hc : c ≠ '|') (hslash : c ≠ '\\') (hblank : c ≠ ' ') {t : Text} :
    c ∈ escapeCell t <-> c ≠ '\n' ∧ c ∈ t := by
  induction t with
  | nil =>
      simp [escapeCell, replaceChar]
  | cons d t ih =>
      have hcons : escapeCell (d :: t) =
          replaceChar '\n' [' '] (if d = '|' then ['\\', '|'] else [d]) ++ escapeCell t := by
        simp [escapeCell, replaceChar]
      rw [hcons, List.mem_append, ih, List.mem_cons]
      by_cases hpipe : d = '|'
      · subst hpipe
        simp [replaceChar, hc, hslash]
      · by_cases hfeed : d = '\n'
        · subst hfeed
          simp [replaceChar, hblank]
          tauto
        · simp [replaceChar, hpipe, hfeed]
          constructor
          · rintro (rfl | h)
            · exact ⟨hfeed, Or.inl rfl⟩
            · exact ⟨h.1, Or.inr h.2⟩
          · rintro ⟨hne, rfl | h⟩
            · exact Or.inl rfl
            · exact Or.inr ⟨hne, h⟩

/-!
# The lines of a table
-/

theorem rowLine_eq {cells : List Text} (hne : cells ≠ []) : rowLine cells = writeRow cells := by
  cases cells with
  | nil =>
      exact absurd rfl hne
  | cons cell cells =>
      clear hne
      induction cells generalizing cell with
      | nil =>
          simp [rowLine, writeRow, joinTexts]
      | cons next cells ih =>
          have hjoin : rowLine (cell :: next :: cells) =
              "| ".toList ++ cell ++ " ".toList ++ rowLine (next :: cells) := by
            simp [rowLine, joinTexts, List.intercalate]
          rw [hjoin, ih]
          simp [writeRow]

def dashes (width : Nat) : Text :=
  joinTexts ['|'] (List.replicate width "---".toList)

/-- The line under the header. -/
def delimiterLine (width : Nat) : Text :=
  '|' :: dashes width ++ ['|']

def tableLines (width : Nat) (header : List Text) (body : List (List Text)) : List Text :=
  rowLine header :: delimiterLine width :: body.map rowLine

theorem dashes_succ (width : Nat) :
    dashes (width + 2) = '-' :: '-' :: '-' :: '|' :: dashes (width + 1) := by
  simp [dashes, joinTexts, List.replicate_succ, List.intercalate]

theorem splitCells_dashes (width : Nat) (before : Char) (rest : Text) :
    splitCells before (dashes (width + 1) ++ '|' :: rest) =
      List.replicate (width + 1) "---".toList ++ splitCells '|' rest := by
  have hfirst : forall before t, splitCells before ('-' :: '-' :: '-' :: '|' :: t) =
      "---".toList :: splitCells '|' t := by
    intro before t
    simp [splitCells, onto]
  induction width generalizing before with
  | zero =>
      exact hfirst before rest
  | succ width ih =>
      rw [dashes_succ]
      show splitCells before ('-' :: '-' :: '-' :: '|' :: (dashes (width + 1) ++ '|' :: rest)) = _
      rw [hfirst, ih, List.replicate_succ (n := width + 1)]
      rfl

theorem not_mem_dashes (hpipe : c ≠ '|') (hdash : c ≠ '-') (width : Nat) :
    c ∉ dashes width := by
  cases width with
  | zero =>
      exact List.not_mem_nil
  | succ width =>
      induction width with
      | zero =>
          show c ∉ ['-', '-', '-']
          simp [hdash]
      | succ width ih =>
          rw [dashes_succ]
          simp [hdash, hpipe, ih]

theorem not_mem_delimiterLine (hpipe : c ≠ '|') (hdash : c ≠ '-') (width : Nat) :
    c ∉ delimiterLine width := by
  have hdashes := not_mem_dashes hpipe hdash width
  simp [delimiterLine, hpipe, hdashes]

theorem readRow_delimiterLine (width : Nat) :
    readRow (delimiterLine (width + 1)) = List.replicate (width + 1) "---".toList := by
  unfold delimiterLine
  rw [readRow, trimBlanks_pipes]
  show (withinPipes (splitCells ' ' ('|' ::
    (dashes (width + 1) ++ '|' :: [])))).map _ = _
  rw [splitCells, if_pos (by decide), splitCells_dashes]
  show (withinPipes ([] :: List.replicate (width + 1) "---".toList ++ [[]])).map _ = _
  rw [withinPipes_cells, List.map_replicate]
  rfl

theorem renderTable_text (width : Nat) (header : List Text) (body : List (List Text)) :
    rowLine header ++ "\n|".toList ++
        joinTexts ['|'] (List.replicate width "---".toList) ++ "|\n".toList ++
        (body.flatMap fun row => rowLine row ++ ['\n']) =
      (tableLines width header body).flatMap fun line => line ++ ['\n'] := by
  simp [tableLines, delimiterLine, dashes, List.flatMap_map]

theorem mem_writeRow (hpipe : c ≠ '|') (hblank : c ≠ ' ') {cells : List Text} :
    c ∈ writeRow cells <-> exists cell, cell ∈ cells ∧ c ∈ cell := by
  simp [writeRow, hpipe, hblank]

/-!
# Reading the table back
-/

theorem pushed_ne_nil_iff {slots : List (Option Text)} :
    pushed slots ≠ [] <-> slots.any Option.isSome = true := by
  induction slots with
  | nil =>
      simp [pushed]
  | cons slot slots ih =>
      cases slot with
      | none => simpa [pushed] using ih
      | some text => simp [pushed]

theorem filter_pushed (texts : List (List (Option Text))) :
    (texts.map pushed).filter (fun row => decide (row ≠ [])) = pushedRows texts := by
  rw [List.filter_map]
  apply congrArg (List.map pushed)
  apply List.filter_congr
  intro slots _
  show decide (pushed slots ≠ []) = slots.any Option.isSome
  by_cases h : slots.any Option.isSome = true
  · rw [h, decide_eq_true (pushed_ne_nil_iff.mpr h)]
  · rw [Bool.eq_false_iff.mpr h, decide_eq_false (mt pushed_ne_nil_iff.mp h)]

theorem pushed_map (f : Text -> Text) (slots : List (Option Text)) :
    pushed (slots.map (Option.map f)) = (pushed slots).map f := by
  induction slots with
  | nil =>
      rfl
  | cons slot slots ih =>
      cases slot with
      | none => exact ih
      | some text => exact congrArg (f text :: ·) ih

theorem resize_map {f : Text -> Text} (hf : f [] = []) (width : Nat) (row : List Text) :
    resize width (row.map f) = (resize width row).map f := by
  simp [resize, List.map_take, hf]

variable {row : List Text} {width : Nat}

theorem length_resize (hle : row.length ≤ width) :
    (resize width row).length = width := by
  rw [resize, List.length_append, List.length_take, List.length_replicate]
  omega

theorem mem_resize (hle : row.length ≤ width) {t : Text} (ht : t ∈ row) : t ∈ resize width row := by
  rw [resize, List.take_of_length_le hle]
  exact List.mem_append_left _ ht

/-- The rows as they are written. -/
def paddedRows (texts : List (List (Option Text))) : List (List Text) :=
  (pushedRows texts).map (resize (gridWidth texts))

theorem length_paddedRows (texts : List (List (Option Text))) :
    (paddedRows texts).length = (startingRows texts).length := by
  rw [paddedRows, pushedRows, List.length_map, List.length_map]

variable {texts : List (List (Option Text))}

theorem mem_paddedRows (hrow : row ∈ paddedRows texts) :
    row.length = gridWidth texts ∧ row ≠ [] := by
  rcases List.mem_map.mp hrow with ⟨short, hshort, rfl⟩
  have hle : short.length ≤ gridWidth texts := length_le_tableWidth hshort
  have hlength := length_resize hle
  constructor
  · exact hlength
  · rcases List.mem_map.mp hshort with ⟨slots, hslots, rfl⟩
    have hne : pushed slots ≠ [] := pushed_ne_nil_iff.mpr (List.mem_filter.mp hslots).2
    have hpos := List.length_pos_iff.mpr hne
    intro hnil
    rw [hnil, List.length_nil] at hlength
    omega

/-- A table is written from its rows, filled up and escaped. -/
theorem renderTable_eq {label : MarkerKind -> Nat -> Text} (grid : List (List CellSlot)) :
    renderBlock label (.table grid) =
      match paddedRows (slotTexts label grid) with
      | [] => none
      | header :: body =>
          some ((tableLines (gridWidth (slotTexts label grid)) (header.map escapeCell)
            (body.map (List.map escapeCell))).flatMap fun line => line ++ ['\n']) := by
  have hrows : ((renderRows label grid).map fun row => row.filterMap id).filter (· ≠ []) =
      (pushedRows (slotTexts label grid)).map (List.map escapeCell) := by
    rw [renderRows_eq, ← filter_pushed, List.map_map]
    have hpushed : ((fun row : List (Option Text) => row.filterMap id) ∘
        fun slots : List (Option Text) => slots.map (Option.map escapeCell)) =
        List.map escapeCell ∘ pushed := by
      funext slots
      exact pushed_map escapeCell slots
    rw [hpushed, ← List.map_map, List.filter_map]
    congr 1
    apply List.filter_congr
    intro row _
    simp
  have hwidth : tableWidth ((pushedRows (slotTexts label grid)).map (List.map escapeCell)) =
      gridWidth (slotTexts label grid) := by
    unfold gridWidth tableWidth
    rw [List.map_map]
    congr 2
    apply List.map_congr_left
    intro row _
    exact List.length_map escapeCell
  have hpadded : ((pushedRows (slotTexts label grid)).map (List.map escapeCell)).map
      (resize (gridWidth (slotTexts label grid))) =
      (paddedRows (slotTexts label grid)).map (List.map escapeCell) := by
    rw [paddedRows, List.map_map, List.map_map]
    apply List.map_congr_left
    intro row _
    exact resize_map rfl _ row
  rw [renderBlock, renderTable, hrows, hwidth, hpadded]
  cases hcases : paddedRows (slotTexts label grid) with
  | nil =>
      rfl
  | cons header body =>
      have hheader := mem_paddedRows (hcases ▸ List.mem_cons_self)
      have hpos := List.length_pos_iff.mpr hheader.2
      rw [List.map_cons]
      show (if gridWidth (slotTexts label grid) = 0 then none else some _) = some _
      rw [if_neg (by omega), renderTable_text]

/-- The lines of a table break nowhere but at the carriage returns of its cells. -/
theorem mem_tableLines {rows : List (List Text)} {header : List Text} {body : List (List Text)}
    (hrows : rows = header :: body) (hne : forall row, row ∈ rows -> row ≠ []) {line : Text}
    (hline : line ∈ tableLines width (header.map escapeCell) (body.map (List.map escapeCell))) :
    ('\n' ∉ line ∧ exists start, line = start ++ ['|']) ∧
      ('\r' ∈ line -> exists row, row ∈ rows ∧ exists text, text ∈ row ∧ '\r' ∈ text) := by
  have hrow : forall row, row ∈ rows -> ('\n' ∉ rowLine (row.map escapeCell) ∧
      exists start, rowLine (row.map escapeCell) = start ++ ['|']) ∧
      ('\r' ∈ rowLine (row.map escapeCell) -> exists text, text ∈ row ∧ '\r' ∈ text) := by
    intro row hmem
    have hcells : row.map escapeCell ≠ [] := fun h => hne row hmem (List.map_eq_nil_iff.mp h)
    constructor
    · constructor
      · rw [rowLine_eq hcells, mem_writeRow (by decide) (by decide)]
        rintro ⟨cell, hcell, hfeed⟩
        rcases List.mem_map.mp hcell with ⟨text, _, rfl⟩
        exact (mem_escapeCell (by decide) (by decide) (by decide)).mp hfeed |>.1 rfl
      · exact ⟨"| ".toList ++ joinTexts " | ".toList (row.map escapeCell) ++ [' '], by
          simp [rowLine]⟩
    · rw [rowLine_eq hcells, mem_writeRow (by decide) (by decide)]
      rintro ⟨cell, hcell, hreturn⟩
      rcases List.mem_map.mp hcell with ⟨text, htext, rfl⟩
      exact ⟨text, htext, ((mem_escapeCell (by decide) (by decide) (by decide)).mp hreturn).2⟩
  subst hrows
  rcases List.mem_cons.mp hline with rfl | hline
  · have hheader := hrow header List.mem_cons_self
    exact ⟨hheader.1, fun h => ⟨header, List.mem_cons_self, hheader.2 h⟩⟩
  · rcases List.mem_cons.mp hline with rfl | hline
    · constructor
      · exact ⟨not_mem_delimiterLine (by decide) (by decide) width, '|' :: dashes width, rfl⟩
      · intro h
        exact absurd h (not_mem_delimiterLine (by decide) (by decide) width)
    · rw [List.map_map] at hline
      rcases List.mem_map.mp hline with ⟨row, hmem, rfl⟩
      have hbody := hrow row (List.mem_cons_of_mem header hmem)
      exact ⟨hbody.1, fun h => ⟨row, List.mem_cons_of_mem header hmem, hbody.2 h⟩⟩

theorem readRow_rowLine (hne : row ≠ []) :
    readRow (rowLine (row.map escapeCell)) = row.map shown := by
  have hescape : row.map escapeCell = (row.map unbroken).map escape := by
    rw [List.map_map]
    exact List.map_congr_left fun t _ => escapeCell_eq t
  have hcells : row.map escapeCell ≠ [] := fun h => hne (List.map_eq_nil_iff.mp h)
  rw [rowLine_eq hcells, hescape, readRow_writeRow fun h => hne (List.map_eq_nil_iff.mp h),
    List.map_map]
  rfl

theorem isDelimiter_dashes (n : Nat) :
    (List.replicate n "---".toList).all isDelimiter = true := by
  rw [List.all_eq_true]
  intro cell hcell
  rw [List.eq_of_mem_replicate hcell]
  decide

/-- Without a carriage return a table is read as the rows that were written. -/
theorem readTable_rows {header : List Text} {body : List (List Text)}
    (hrows : paddedRows texts = header :: body)
    (hfree : forall row, row ∈ paddedRows texts -> forall text, text ∈ row -> '\r' ∉ text) :
    readTable ((tableLines (gridWidth texts) (header.map escapeCell)
      (body.map (List.map escapeCell))).flatMap fun line => line ++ ['\n']) =
        some ((paddedRows texts).map (List.map shown)) := by
  have hne : forall row, row ∈ paddedRows texts -> row ≠ [] := fun row hrow =>
    (mem_paddedRows hrow).2
  have hlines : readLines ((tableLines (gridWidth texts) (header.map escapeCell)
      (body.map (List.map escapeCell))).flatMap fun line => line ++ ['\n']) =
      tableLines (gridWidth texts) (header.map escapeCell) (body.map (List.map escapeCell)) := by
    apply readLines_flatMap
    intro line hline
    have hparts := mem_tableLines hrows hne hline
    constructor
    · exact hparts.1.1
    · intro hreturn
      rcases hparts.2 hreturn with ⟨row, hrow, text, htext, hmem⟩
      exact hfree row hrow text htext hmem
  have hheader := mem_paddedRows (hrows ▸ List.mem_cons_self : header ∈ paddedRows texts)
  have hpos := List.length_pos_iff.mpr hheader.2
  rcases Nat.exists_eq_succ_of_ne_zero (Nat.pos_iff_ne_zero.mp (hheader.1 ▸ hpos)) with
    ⟨width, hwidth⟩
  have hdelimiter : readRow (delimiterLine (gridWidth texts)) =
      List.replicate (gridWidth texts) "---".toList := by
    rw [hwidth]
    exact readRow_delimiterLine width
  unfold readTable
  rw [hlines, tableLines]
  show (if _ ∧ _ then _ else _) = _
  rw [hdelimiter, readRow_rowLine hheader.2, List.length_replicate, List.length_map,
    if_pos ⟨hheader.1.symm, isDelimiter_dashes _⟩, hrows, List.map_cons, List.map_cons,
    readRow_rowLine hheader.2, List.map_map, List.map_map]
  congr 2
  apply List.map_congr_left
  intro row hrow
  exact readRow_rowLine (hne row (hrows ▸ List.mem_cons_of_mem header hrow))

/-- A carriage return in a cell makes one line too many. -/
theorem returnFree_of_length {header : List Text} {body : List (List Text)}
    (hrows : paddedRows texts = header :: body)
    (hlength : (readLines ((tableLines (gridWidth texts) (header.map escapeCell)
      (body.map (List.map escapeCell))).flatMap fun line => line ++ ['\n'])).length =
        (paddedRows texts).length + 1) :
    forall row, row ∈ paddedRows texts -> forall text, text ∈ row -> '\r' ∉ text := by
  have hne : forall row, row ∈ paddedRows texts -> row ≠ [] := fun row hrow =>
    (mem_paddedRows hrow).2
  rw [length_readLines_flatMap fun line hline => (mem_tableLines hrows hne hline).1,
    hrows] at hlength
  have hsum : ((tableLines (gridWidth texts) (header.map escapeCell)
      (body.map (List.map escapeCell))).map (List.count '\r')).sum = 0 := by
    simp only [tableLines, List.length_cons, List.length_map] at hlength ⊢
    omega
  intro row hrow text htext hreturn
  have hline : rowLine (row.map escapeCell) ∈ tableLines (gridWidth texts) (header.map escapeCell)
      (body.map (List.map escapeCell)) := by
    rw [hrows] at hrow
    rcases List.mem_cons.mp hrow with rfl | hrow
    · exact List.mem_cons_self
    · rw [tableLines, List.map_map]
      exact List.mem_cons_of_mem _ (List.mem_cons_of_mem _ (List.mem_map_of_mem hrow))
  have hcells : row.map escapeCell ≠ [] := fun h => hne row hrow (List.map_eq_nil_iff.mp h)
  have hmem : '\r' ∈ rowLine (row.map escapeCell) := by
    rw [rowLine_eq hcells, mem_writeRow (by decide) (by decide)]
    exact ⟨escapeCell text, List.mem_map_of_mem htext,
      (mem_escapeCell (by decide) (by decide) (by decide)).mpr ⟨by decide, hreturn⟩⟩
  rcases List.append_of_mem hline with ⟨before, behind, hlines⟩
  have hpos := List.count_pos_iff.mpr hmem
  rw [hlines, List.map_append, List.sum_append, List.map_cons, List.sum_cons] at hsum
  omega

/-!
# Aligned tables
-/

theorem mem_startingRows {slots : List (Option Text)} {text : Text} (hslots : slots ∈ texts)
    (htext : some text ∈ slots) :
    slots ∈ startingRows texts :=
  List.mem_filter.mpr ⟨hslots, List.any_eq_true.mpr ⟨some text, htext, rfl⟩⟩

theorem getElem?_paddedRows {i : Nat} {slots : List (Option Text)}
    (h : (startingRows texts)[i]? = some slots) :
    (paddedRows texts)[i]? = some (resize (gridWidth texts) (pushed slots)) := by
  rw [paddedRows, pushedRows, List.getElem?_map, List.getElem?_map, h]
  rfl

/-- The rows that are written hold a carriage return only where a cell does. -/
theorem returnFree_iff :
    ReturnFree texts <->
      forall row, row ∈ paddedRows texts -> forall text, text ∈ row -> '\r' ∉ text := by
  constructor
  · intro h row hrow text htext
    rcases List.mem_map.mp hrow with ⟨short, hshort, rfl⟩
    rcases List.mem_map.mp hshort with ⟨slots, hslots, rfl⟩
    rcases List.mem_append.mp htext with htext | htext
    · rcases List.mem_filterMap.mp (List.mem_of_mem_take htext) with ⟨slot, hslot, heq⟩
      have hsome : slot = some text := heq
      exact h slots text (List.mem_filter.mp hslots).1 (hsome ▸ hslot)
    · rw [List.eq_of_mem_replicate htext]
      exact List.not_mem_nil
  · intro h slots text hslots htext
    have hstart := mem_startingRows hslots htext
    have hshort : pushed slots ∈ pushedRows texts := List.mem_map_of_mem hstart
    have hmem : text ∈ pushed slots := List.mem_filterMap.mpr ⟨some text, htext, rfl⟩
    exact h _ (List.mem_map_of_mem hshort) text (mem_resize (length_le_tableWidth hshort) hmem)

/-- A table that is read back shows every cell in its column exactly when what is pushed into the
column shows the same. -/
theorem shows_iff :
    (forall (i k : Nat) (slots : List (Option Text)) (text : Text),
      (startingRows texts)[i]? = some slots -> slots[k]? = some (some text) ->
        exists row, ((paddedRows texts).map (List.map shown))[i]? = some row ∧
          row[k]? = some (shown text)) <-> KeepsColumns texts := by
  constructor
  · intro h slots k text hslots htext
    have hstart := mem_startingRows hslots (List.mem_of_getElem? htext)
    rcases List.mem_iff_getElem?.mp hstart with ⟨i, hi⟩
    rcases h i k slots text hi htext with ⟨row, hrow, hshown⟩
    rw [List.getElem?_map, getElem?_paddedRows hi] at hrow
    cases hrow
    rw [List.getElem?_map, Option.map_eq_some_iff] at hshown
    exact hshown
  · intro h i k slots text hi htext
    have hslots := (List.mem_filter.mp (List.mem_of_getElem? hi)).1
    rcases h slots k text hslots htext with ⟨text', htext', hshown⟩
    refine ⟨(resize (gridWidth texts) (pushed slots)).map shown, ?_, ?_⟩
    · rw [List.getElem?_map, getElem?_paddedRows hi]
      rfl
    · rw [List.getElem?_map, htext', ← hshown]
      rfl

theorem aligned_iff {header : List Text} {body : List (List Text)}
    (hrows : paddedRows texts = header :: body) :
    Aligned texts ((tableLines (gridWidth texts) (header.map escapeCell)
      (body.map (List.map escapeCell))).flatMap fun line => line ++ ['\n']) <->
        ReturnFree texts ∧ KeepsColumns texts := by
  constructor
  · rintro ⟨rows, hread, hlength, _, hshows⟩
    have hlines := readTable_length hread
    rw [hlength, ← length_paddedRows] at hlines
    have hfree := returnFree_of_length hrows hlines
    rw [readTable_rows hrows hfree] at hread
    cases hread
    exact ⟨returnFree_iff.mpr hfree, shows_iff.mp hshows⟩
  · rintro ⟨hfree, hkeeps⟩
    refine ⟨(paddedRows texts).map (List.map shown),
      readTable_rows hrows (returnFree_iff.mp hfree), ?_, ⟨gridWidth texts, ?_⟩,
      shows_iff.mpr hkeeps⟩
    · rw [List.length_map, length_paddedRows]
    · intro row hrow
      rcases List.mem_map.mp hrow with ⟨padded, hpadded, rfl⟩
      rw [List.length_map, (mem_paddedRows hpadded).1]

theorem keeps_of_no_cell (hnil : paddedRows texts = []) :
    ReturnFree texts ∧ KeepsColumns texts := by
  have hnone : forall slots text, slots ∈ texts -> some text ∈ slots -> False := by
    intro slots text hslots htext
    have hstart := mem_startingRows hslots htext
    rw [paddedRows, pushedRows, List.map_eq_nil_iff, List.map_eq_nil_iff] at hnil
    rw [hnil] at hstart
    cases hstart
  constructor
  · intro slots text hslots htext
    exact absurd htext fun h => hnone slots text hslots h
  · intro slots k text hslots htext
    exact absurd (List.mem_of_getElem? htext) fun h => hnone slots text hslots h

/-!
# The exact condition
-/

/-- A table is aligned exactly when no cell has a carriage return and every cell shows what is
pushed into its column. -/
theorem tableAligned_iff (label : MarkerKind -> Nat -> Text) (grid : List (List CellSlot)) :
    TableAligned label grid <->
      ReturnFree (slotTexts label grid) ∧ KeepsColumns (slotTexts label grid) := by
  unfold TableAligned
  rw [renderTable_eq]
  cases hrows : paddedRows (slotTexts label grid) with
  | nil =>
      constructor
      · intro _
        exact keeps_of_no_cell hrows
      · intro _ table htable
        cases htable
  | cons header body =>
      constructor
      · intro h
        exact (aligned_iff hrows).mp (h _ rfl)
      · intro h table htable
        cases htable
        exact (aligned_iff hrows).mpr h

/-- The slots up to a cell, when none of them is covered, are pushed as they stand. -/
theorem getElem?_pushed {slots : List (Option Text)} {k : Nat} {text : Text}
    (hk : slots[k]? = some (some text)) (hopen : none ∉ slots.take k) :
    (pushed slots)[k]? = some text := by
  induction slots generalizing k with
  | nil => cases hk
  | cons slot slots ih =>
      cases k with
      | zero =>
          cases hk
          rfl
      | succ k =>
          rw [List.take_succ_cons, List.mem_cons, not_or] at hopen
          cases slot with
          | none => exact absurd rfl hopen.1
          | some _ => exact ih hk hopen.2

/-- Cells keep their columns where no covered slot stands before one. -/
theorem keepsColumns_of_open
    (hopen : forall (slots : List (Option Text)) (k : Nat) (text : Text), slots ∈ texts ->
      slots[k]? = some (some text) -> none ∉ slots.take k) : KeepsColumns texts := by
  intro slots k text hslots hk
  have hpushed := getElem?_pushed hk (hopen slots k text hslots hk)
  have hstart := mem_startingRows hslots (List.mem_of_getElem? hk)
  have hfits : (pushed slots).length ≤ gridWidth texts :=
    length_le_tableWidth (List.mem_map_of_mem hstart)
  refine ⟨text, ?_, rfl⟩
  rw [resize, List.take_of_length_le hfits,
    List.getElem?_append_left (List.getElem?_eq_some_iff.mp hpushed).1]
  exact hpushed

/-- A cell of one plain word. -/
def wordCell (word : Text) : CellSlot :=
  .origin [.paragraph [.text word ⟨false, false, false, false⟩]]

/-- A span from the row above covers the first slot of the second row. -/
def spannedGrid : List (List CellSlot) :=
  [[wordCell ['a'], wordCell ['b']], [.covered, wordCell ['c']]]

/-- The second slot of the second row is covered, and no cell stands behind it. -/
def trailingGrid : List (List CellSlot) :=
  [[wordCell ['a'], wordCell ['b']], [wordCell ['c'], .covered]]

theorem trailingGrid_aligned : TableAligned (fun _ _ => []) trailingGrid := by
  have htexts : slotTexts (fun _ _ => []) trailingGrid =
      [[some ['a'], some ['b']], [some ['c'], none]] := by
    decide
  refine (tableAligned_iff (fun _ _ => []) trailingGrid).mpr ⟨?_, keepsColumns_of_open ?_⟩
  · rw [htexts]
    intro slots text hslots htext
    simp only [List.mem_cons, List.not_mem_nil, or_false] at hslots
    rcases hslots with rfl | rfl
    · simp at htext
      rcases htext with rfl | rfl <;> decide
    · simp at htext
      rw [htext]
      decide
  · rw [htexts]
    intro slots k text hslots hk
    simp only [List.mem_cons, List.not_mem_nil, or_false] at hslots
    rcases hslots with rfl | rfl
    · exact fun hmem => absurd (List.mem_of_mem_take hmem) (by decide)
    · rcases k with _ | _ | k
      · exact List.not_mem_nil
      · cases hk
      · cases hk

theorem spannedGrid_shifts :
    ¬ forall (label : MarkerKind -> Nat -> Text) (grid : List (List CellSlot)),
      Rectangular grid -> TableAligned label grid := by
  intro h
  have hrectangular : Rectangular spannedGrid := ⟨2, by decide⟩
  have haligned := h (fun _ _ => []) spannedGrid hrectangular
    "| a | b |\n|---|---|\n| c |  |\n".toList rfl
  have hkeeps := ((@aligned_iff (slotTexts (fun _ _ => []) spannedGrid) [['a'], ['b']]
    [[['c'], []]] rfl).mp haligned).2
  rcases hkeeps [none, some ['c']] 1 ['c'] (by decide) rfl with ⟨text', htext', hshown⟩
  have hempty : text' = [] := Option.some.inj (htext'.symm.trans (by decide))
  rw [hempty] at hshown
  revert hshown
  decide

end Anydoc
end DocReader
end KnowledgeBrain
