import Mathlib.Algebra.GroupWithZero.Nat
import Mathlib.Data.List.Basic

/-!
# Tables in a text

A table is written one row to a line, with pipes around its cells.  A pipe
behind a backslash belongs to a cell.  Rows are read back cell by cell as long
as the pipes of the cells are escaped and no cell breaks its line.
-/

namespace KnowledgeBrain
namespace Foundation
namespace PipeTable

/-!
# Lines
-/

/-- A character in front of the first of some pieces. -/
def onto (c : Char) : List (List Char) -> List (List Char)
  | [] => [[c]]
  | piece :: pieces => (c :: piece) :: pieces

/-- Lines end with a line feed, a carriage return or both. -/
def linesFrom : Bool -> List Char -> List (List Char)
  | _, [] => []
  | afterReturn, c :: t =>
      if c = '\n' then
        if afterReturn then linesFrom false t else [] :: linesFrom false t
      else if c = '\r' then [] :: linesFrom true t
      else onto c (linesFrom false t)

def readLines (t : List Char) : List (List Char) :=
  linesFrom false t

variable {c : Char}

theorem linesFrom_of_not_feed (hfeed : c ≠ '\n') (afterReturn : Bool) (t : List Char) :
    linesFrom afterReturn (c :: t) = linesFrom false (c :: t) := by
  rw [linesFrom, linesFrom, if_neg hfeed, if_neg hfeed]

theorem readLines_cons (hfeed : c ≠ '\n') (hreturn : c ≠ '\r') (t : List Char) :
    readLines (c :: t) = onto c (readLines t) := by
  rw [readLines, linesFrom, if_neg hfeed, if_neg hreturn]
  rfl

theorem readLines_line {line : List Char} (hfeed : '\n' ∉ line) (hreturn : '\r' ∉ line)
    (rest : List Char) : readLines (line ++ '\n' :: rest) = line :: readLines rest := by
  induction line with
  | nil =>
      rfl
  | cons c line ih =>
      rw [List.mem_cons, not_or] at hfeed hreturn
      rw [List.cons_append, readLines_cons (Ne.symm hfeed.1) (Ne.symm hreturn.1),
        ih hfeed.2 hreturn.2]
      rfl

theorem readLines_flatMap {lines : List (List Char)}
    (hlines : forall line, line ∈ lines -> '\n' ∉ line ∧ '\r' ∉ line) :
    readLines (lines.flatMap fun line => line ++ ['\n']) = lines := by
  induction lines with
  | nil =>
      rfl
  | cons line lines ih =>
      have hline := hlines line List.mem_cons_self
      rw [List.flatMap_cons, List.append_assoc, List.singleton_append,
        readLines_line hline.1 hline.2, ih fun other hother =>
          hlines other (List.mem_cons_of_mem line hother)]

theorem length_onto {pieces : List (List Char)} (hne : pieces ≠ []) :
    (onto c pieces).length = pieces.length := by
  cases pieces with
  | nil => exact absurd rfl hne
  | cons piece pieces => rfl

variable {t : List Char}

theorem readLines_ne_nil (ht : t ≠ []) : readLines t ≠ [] := by
  cases t with
  | nil =>
      exact absurd rfl ht
  | cons c t =>
      unfold readLines linesFrom
      split
      · exact List.cons_ne_nil _ _
      · split
        · exact List.cons_ne_nil _ _
        · cases linesFrom false t with
          | nil => exact List.cons_ne_nil _ _
          | cons piece pieces => exact List.cons_ne_nil _ _

/-- Every carriage return within a line ends one more line. -/
theorem length_readLines_line {line : List Char} (hfeed : '\n' ∉ line) (rest : List Char) :
    (readLines (line ++ '|' :: '\n' :: rest)).length =
      line.count '\r' + 1 + (readLines rest).length := by
  induction line with
  | nil =>
      rw [List.nil_append, readLines_cons (by decide) (by decide)]
      show (onto '|' ([] :: readLines rest)).length = _
      rw [length_onto (List.cons_ne_nil _ _), List.length_cons, List.count_nil]
      omega
  | cons c line ih =>
      rw [List.mem_cons, not_or] at hfeed
      have ih := ih hfeed.2
      by_cases hreturn : c = '\r'
      · subst hreturn
        have hnext : linesFrom true (line ++ '|' :: '\n' :: rest) =
            readLines (line ++ '|' :: '\n' :: rest) := by
          cases line with
          | nil => exact linesFrom_of_not_feed (by decide) true _
          | cons d line =>
              have hd : '\n' ≠ d := fun h => hfeed.2 (h ▸ List.mem_cons_self)
              exact linesFrom_of_not_feed (Ne.symm hd) true _
        rw [List.count_cons_self, List.cons_append]
        show (([] : List Char) :: linesFrom true (line ++ '|' :: '\n' :: rest)).length = _
        rw [hnext, List.length_cons, ih]
        omega
      · rw [List.cons_append, readLines_cons (Ne.symm hfeed.1) hreturn,
          length_onto (readLines_ne_nil (by simp)), ih, List.count_cons_of_ne hreturn]

theorem length_readLines_flatMap {lines : List (List Char)}
    (hlines : forall line, line ∈ lines -> '\n' ∉ line ∧ exists start, line = start ++ ['|']) :
    (readLines (lines.flatMap fun line => line ++ ['\n'])).length =
      lines.length + (lines.map (List.count '\r')).sum := by
  induction lines with
  | nil =>
      rfl
  | cons line lines ih =>
      rcases hlines line List.mem_cons_self with ⟨hfeed, start, rfl⟩
      have hstart : '\n' ∉ start := fun h => hfeed (List.mem_append_left _ h)
      have hcount : (start ++ ['|']).count '\r' = start.count '\r' := by
        rw [List.count_append, List.count_singleton]
        rfl
      rw [List.flatMap_cons, List.append_assoc, List.append_assoc]
      show (readLines (start ++ '|' :: '\n' ::
        (lines.flatMap fun line => line ++ ['\n']))).length = _
      rw [length_readLines_line hstart, ih fun other hother =>
        hlines other (List.mem_cons_of_mem _ hother), List.map_cons, List.sum_cons, hcount,
        List.length_cons]
      omega

/-!
# Cells
-/

/-- Pipes that are not behind a backslash separate. -/
def splitCells : Char -> List Char -> List (List Char)
  | _, [] => [[]]
  | before, c :: t =>
      if c = '|' ∧ before ≠ '\\' then [] :: splitCells c t else onto c (splitCells c t)

def isBlank (c : Char) : Bool :=
  c = ' ' || c = '\t' || c = '\x0b' || c = '\x0c'

def trimBlanks (t : List Char) : List Char :=
  ((t.dropWhile isBlank).reverse.dropWhile isBlank).reverse

/-- An escaped pipe is a pipe. -/
def unescape : List Char -> List Char
  | [] => []
  | [c] => [c]
  | c :: d :: t => if c = '\\' ∧ d = '|' then '|' :: unescape t else c :: unescape (d :: t)

/-- The empty pieces outside the outer pipes are no cells. -/
def withinPipes (pieces : List (List Char)) : List (List Char) :=
  let pieces := if pieces.head? = some [] then pieces.tail else pieces
  if pieces.getLast? = some [] then pieces.dropLast else pieces

def readRow (line : List Char) : List (List Char) :=
  (withinPipes (splitCells ' ' (trimBlanks line))).map fun piece => trimBlanks (unescape piece)

/-- Dashes, with a colon at either end or none. -/
def isDelimiter (cell : List Char) : Bool :=
  let dashes := if cell.head? = some ':' then cell.tail else cell
  let dashes := if dashes.getLast? = some ':' then dashes.dropLast else dashes
  !dashes.isEmpty && dashes.all fun c => c = '-'

/-- The rows of a table, whose second line holds a delimiter under every cell of the first. -/
def readTable (t : List Char) : Option (List (List (List Char))) :=
  match readLines t with
  | header :: delimiter :: body =>
      if (readRow delimiter).length = (readRow header).length ∧
          (readRow delimiter).all isDelimiter = true then
        some ((header :: body).map readRow)
      else none
  | _ => none

theorem readTable_length {rows : List (List (List Char))} (h : readTable t = some rows) :
    (readLines t).length = rows.length + 1 := by
  unfold readTable at h
  split at h
  · rename_i header delimiter body hlines
    split at h
    · cases h
      rw [hlines]
      simp
    · cases h
  · cases h

/-!
# Writing
-/

def escape (t : List Char) : List Char :=
  t.flatMap fun c => if c = '|' then ['\\', '|'] else [c]

/-- A row from its cells, which are set off by blanks. -/
def writeRow (cells : List (List Char)) : List Char :=
  '|' :: cells.flatMap fun cell => ' ' :: cell ++ [' ', '|']

theorem escape_cons (c : Char) (t : List Char) :
    escape (c :: t) = (if c = '|' then ['\\', '|'] else [c]) ++ escape t :=
  List.flatMap_cons

/-- An escaped text runs on to the next pipe behind it. -/
theorem splitCells_escape (before : Char) (t rest : List Char) :
    splitCells before (escape t ++ ' ' :: '|' :: rest) =
      (escape t ++ [' ']) :: splitCells '|' rest := by
  induction t generalizing before with
  | nil =>
      show splitCells before (' ' :: '|' :: rest) = [' '] :: splitCells '|' rest
      rw [splitCells, if_neg fun h => absurd h.1 (by decide), splitCells, if_pos (by decide)]
      rfl
  | cons c t ih =>
      rw [escape_cons]
      by_cases hpipe : c = '|'
      · subst hpipe
        rw [if_pos rfl]
        show splitCells before ('\\' :: '|' :: (escape t ++ ' ' :: '|' :: rest)) = _
        rw [splitCells, if_neg fun h => absurd h.1 (by decide), splitCells,
          if_neg fun h => h.2 rfl, ih]
        rfl
      · rw [if_neg hpipe]
        show splitCells before (c :: (escape t ++ ' ' :: '|' :: rest)) = _
        rw [splitCells, if_neg fun h => hpipe h.1, ih]
        rfl

theorem splitCells_writeRow (cells : List (List Char)) :
    splitCells ' ' (writeRow (cells.map escape)) =
      [] :: (cells.map fun cell => ' ' :: escape cell ++ [' ']) ++ [[]] := by
  have hcells : splitCells '|' ((cells.map escape).flatMap fun cell => ' ' :: cell ++ [' ', '|']) =
      (cells.map fun cell => ' ' :: escape cell ++ [' ']) ++ [[]] := by
    induction cells with
    | nil =>
        rfl
    | cons cell cells ih =>
        rw [List.map_cons, List.flatMap_cons, List.append_assoc]
        show splitCells '|' (' ' :: (escape cell ++ ' ' :: '|' ::
          ((cells.map escape).flatMap fun cell => ' ' :: cell ++ [' ', '|']))) = _
        rw [splitCells, if_neg (by decide), splitCells_escape, ih]
        rfl
  rw [writeRow, splitCells, if_pos (by decide), hcells]
  rfl

theorem unescape_cons (h : ¬ (c = '\\' ∧ t.head? = some '|')) :
    unescape (c :: t) = c :: unescape t := by
  cases t with
  | nil =>
      rfl
  | cons d t =>
      rw [unescape, if_neg]
      rintro ⟨hc, hd⟩
      exact h ⟨hc, congrArg some hd⟩

theorem head?_escape (t : List Char) : (escape t ++ [' ']).head? ≠ some '|' := by
  cases t with
  | nil =>
      exact fun h => absurd (Option.some.inj h) (by decide)
  | cons c t =>
      rw [escape_cons]
      by_cases hpipe : c = '|'
      · rw [if_pos hpipe]
        exact fun h => absurd (Option.some.inj h) (by decide)
      · rw [if_neg hpipe]
        exact fun h => hpipe (Option.some.inj h)

theorem unescape_escape (t : List Char) : unescape (escape t ++ [' ']) = t ++ [' '] := by
  induction t with
  | nil =>
      rfl
  | cons c t ih =>
      rw [escape_cons]
      by_cases hpipe : c = '|'
      · subst hpipe
        rw [if_pos rfl]
        show unescape ('\\' :: '|' :: (escape t ++ [' '])) = _
        rw [unescape, if_pos ⟨rfl, rfl⟩, ih]
        rfl
      · rw [if_neg hpipe]
        show unescape (c :: (escape t ++ [' '])) = _
        rw [unescape_cons fun h => head?_escape t h.2, ih]
        rfl

theorem trimBlanks_pad (t : List Char) : trimBlanks (' ' :: t ++ [' ']) = trimBlanks t := by
  have hfront : (' ' :: t ++ [' ']).dropWhile isBlank = (t ++ [' ']).dropWhile isBlank := rfl
  unfold trimBlanks
  rw [hfront, List.dropWhile_append]
  by_cases hempty : (t.dropWhile isBlank).isEmpty = true
  · rw [if_pos hempty, List.isEmpty_iff.mp hempty]
    rfl
  · rw [if_neg hempty, List.reverse_append]
    rfl

theorem trimBlanks_pipes (t : List Char) : trimBlanks ('|' :: t ++ ['|']) = '|' :: t ++ ['|'] := by
  have hfront : ('|' :: t ++ ['|']).dropWhile isBlank = '|' :: t ++ ['|'] := rfl
  unfold trimBlanks
  rw [hfront, List.reverse_append]
  show (('|' :: ('|' :: t).reverse)).reverse = _
  rw [List.reverse_cons, List.reverse_reverse]

theorem trimBlanks_writeRow {cells : List (List Char)} (hne : cells ≠ []) :
    trimBlanks (writeRow cells) = writeRow cells := by
  have hlast := List.dropLast_concat_getLast hne
  have hsplit : writeRow cells =
      '|' :: ((cells.dropLast.flatMap fun cell => ' ' :: cell ++ [' ', '|']) ++
        (' ' :: cells.getLast hne ++ [' '])) ++ ['|'] := by
    conv => lhs; rw [← hlast]
    simp [writeRow]
  rw [hsplit, trimBlanks_pipes]

theorem withinPipes_cells (cells : List (List Char)) :
    withinPipes ([] :: cells ++ [[]]) = cells := by
  unfold withinPipes
  simp

theorem readRow_writeRow {cells : List (List Char)} (hne : cells ≠ []) :
    readRow (writeRow (cells.map escape)) = cells.map trimBlanks := by
  have hmap : cells.map escape ≠ [] := fun h => hne (List.map_eq_nil_iff.mp h)
  rw [readRow, trimBlanks_writeRow hmap, splitCells_writeRow, withinPipes_cells, List.map_map]
  apply List.map_congr_left
  intro cell _
  show trimBlanks (unescape (' ' :: (escape cell ++ [' ']))) = trimBlanks cell
  rw [unescape_cons fun h => absurd h.1 (by decide), unescape_escape]
  exact trimBlanks_pad cell

end PipeTable
end Foundation
end KnowledgeBrain
