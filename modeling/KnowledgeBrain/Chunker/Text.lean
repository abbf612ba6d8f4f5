import KnowledgeBrain.Foundation.Intervals
import Mathlib.Algebra.GroupWithZero.Nat
import Mathlib.Data.List.Sort

/-!
# Texts, chunks and patterns

A text is the list of its characters.  Offsets of chunks count characters;
the spans of protected regions count bytes of the UTF-8 encoding.
-/

namespace KnowledgeBrain
namespace Chunker

open Foundation

abbrev Text := List Char

instance : LawfulBEq Text :=
  inferInstanceAs (LawfulBEq (List Char))

/-- `char::is_whitespace`: the Unicode property `White_Space`. -/
def isWhitespace (c : Char) : Bool :=
  let n := c.toNat
  (9 ≤ n && n ≤ 13) || n == 0x20 || n == 0x85 || n == 0xA0 || n == 0x1680 ||
    (0x2000 ≤ n && n ≤ 0x200A) || n == 0x2028 || n == 0x2029 || n == 0x202F ||
    n == 0x205F || n == 0x3000

def trim (t : Text) : Text :=
  ((t.dropWhile isWhitespace).reverse.dropWhile isWhitespace).reverse

/-- `str::split` at line feeds. -/
def lines (t : Text) : List Text :=
  t.splitOn '\n'

/-- `str::contains`. -/
def contains (t pattern : Text) : Bool :=
  decide (pattern <:+: t)

/-!
# Byte offsets
-/

/-- `str::len`. -/
def byteLen (t : Text) : Nat :=
  (t.map Char.utf8Size).sum

/-- The text behind a byte offset. -/
def dropBytes : Nat -> Text -> Text
  | _, [] => []
  | n, c :: t => if n = 0 then c :: t else dropBytes (n - c.utf8Size) t

/-- The text before a byte offset. -/
def takeBytes : Nat -> Text -> Text
  | _, [] => []
  | n, c :: t => if n = 0 then [] else c :: takeBytes (n - c.utf8Size) t

/-- The text between two byte offsets. -/
def byteSlice (t : Text) (a b : Nat) : Text :=
  takeBytes (b - a) (dropBytes a t)

theorem byteLen_append (t u : Text) : byteLen (t ++ u) = byteLen t + byteLen u := by
  simp [byteLen]

theorem byteLen_cons (c : Char) (t : Text) : byteLen (c :: t) = c.utf8Size + byteLen t := by
  simp [byteLen]

theorem byteLen_pos {t : Text} (h : t ≠ []) : 0 < byteLen t := by
  cases t with
  | nil => exact absurd rfl h
  | cons c t =>
      rw [byteLen_cons]
      exact Nat.add_pos_left c.utf8Size_pos _

@[simp]
theorem dropBytes_zero (t : Text) : dropBytes 0 t = t := by
  cases t <;> simp [dropBytes]

@[simp]
theorem takeBytes_zero (t : Text) : takeBytes 0 t = [] := by
  cases t <;> simp [takeBytes]

theorem dropBytes_append (t u : Text) : dropBytes (byteLen t) (t ++ u) = u := by
  induction t with
  | nil => exact dropBytes_zero u
  | cons c t ih =>
      have hpos := c.utf8Size_pos
      rw [byteLen_cons, List.cons_append, dropBytes, if_neg (by omega), Nat.add_sub_cancel_left]
      exact ih

theorem takeBytes_append (t u : Text) : takeBytes (byteLen t) (t ++ u) = t := by
  induction t with
  | nil => exact takeBytes_zero u
  | cons c t ih =>
      have hpos := c.utf8Size_pos
      rw [byteLen_cons, List.cons_append, takeBytes, if_neg (by omega), Nat.add_sub_cancel_left,
        ih]

/-- The bytes before a character position. -/
def byteOffset (t : Text) (i : Nat) : Nat :=
  byteLen (t.take i)

theorem byteOffset_length (t : Text) : byteOffset t t.length = byteLen t := by
  simp [byteOffset]

theorem byteOffset_add (t : Text) (i n : Nat) :
    byteOffset t (i + n) = byteOffset t i + byteLen ((t.drop i).take n) := by
  unfold byteOffset
  rw [← byteLen_append, List.take_add]

theorem byteOffset_mono (t : Text) {i j : Nat} (h : i ≤ j) :
    byteOffset t i ≤ byteOffset t j := by
  obtain ⟨n, rfl⟩ := Nat.le.dest h
  rw [byteOffset_add]
  exact Nat.le_add_right _ _

theorem byteOffset_lt (t : Text) {i j : Nat} (h : i < j) (hj : j ≤ t.length) :
    byteOffset t i < byteOffset t j := by
  obtain ⟨n, rfl⟩ := Nat.le.dest (Nat.le_of_lt h)
  rw [byteOffset_add]
  apply Nat.lt_add_of_pos_right
  apply byteLen_pos
  intro hempty
  have hlength := congrArg List.length hempty
  simp only [List.length_take, List.length_drop, List.length_nil] at hlength
  omega

theorem byteSlice_byteOffset (t : Text) {i j : Nat} (hij : i ≤ j) :
    byteSlice t (byteOffset t i) (byteOffset t j) = slice t i j := by
  obtain ⟨n, rfl⟩ := Nat.le.dest hij
  have hdrop : dropBytes (byteOffset t i) t = t.drop i := by
    have happend := dropBytes_append (t.take i) (t.drop i)
    rw [List.take_append_drop] at happend
    exact happend
  have htake : takeBytes (byteLen ((t.drop i).take n)) (t.drop i) = (t.drop i).take n := by
    have happend := takeBytes_append ((t.drop i).take n) ((t.drop i).drop n)
    rw [List.take_append_drop] at happend
    exact happend
  unfold byteSlice
  rw [hdrop, byteOffset_add, Nat.add_sub_cancel_left, htake, slice_eq_take_drop,
    Nat.add_sub_cancel_left]

/-!
# Patterns
-/

/-- A regular expression, by the matches `find_iter` yields.  Matches lie on
character boundaries, so character positions name them. -/
structure Pattern where
  findIter : Text -> List Span
  ordered : forall t, Span.Ordered 0 t.length (findIter t)

/-- The byte span of a match. -/
def matchBytes (t : Text) (m : Span) : Span :=
  ⟨byteOffset t m.start, byteOffset t m.stop⟩

/-- The regular expressions of the chunker.  A table cannot start, and a row
cannot match, without a bar. -/
structure Patterns where
  latex : Pattern
  image : Pattern
  link : Pattern
  tableHeader : Pattern
  tableRows : Pattern
  fence : Pattern
  /-- `TABLE_START.find`: the text of the match. -/
  tableStart : Text -> Option Text
  tableEnd : Text -> Bool
  tableRow : Text -> Bool
  /-- `MARKDOWN_HEADING.captures`: the number of hashes and the second group. -/
  markdownHeading : Text -> Option (Nat × Text)
  numberedSection : Text -> Bool
  allCapsHeading : Text -> Bool
  visualSeparator : Text -> Bool
  pageFooter : Text -> Bool
  germanChapter : Text -> Bool
  englishChapter : Text -> Bool
  chineseChapter : Text -> Bool
  excessiveBlanks : Pattern
  tableStart_bar : forall t m, tableStart t = some m -> '|' ∈ m
  tableRow_bar : forall t, tableRow t = true -> '|' ∈ t

/-!
# Chunks and configurations
-/

structure TextChunk where
  content : Text
  contextHeader : Text
  seq : Nat
  start : Nat
  stop : Nat
deriving DecidableEq

structure SplitterConfig where
  chunkSize : Nat
  chunkOverlap : Nat
  separators : List Text
  strategy : String
  tokenLimit : Nat
  languages : List String
deriving DecidableEq

/-!
# Lines of a text

`str::lines` takes a text apart at its line feeds.  A carriage return in front
of a line feed belongs to the line end, and no line follows the last line feed.
-/

/-- A carriage return in front of a line feed belongs to the line end. -/
def stripReturn (t : Text) : Text :=
  if t.getLast? = some '\r' then t.dropLast else t

/-- `str::lines`. -/
def strLines (t : Text) : List Text :=
  (lines t).dropLast.map stripReturn ++ (lines t).getLast?.toList.filter (· ≠ [])

@[simp]
theorem strLines_nil : strLines [] = [] := by
  decide

theorem strLines_of_no_feed {t : Text} (hfeed : '\n' ∉ t) (hne : t ≠ []) : strLines t = [t] := by
  have hlines : lines t = [t] := List.splitOn_eq_singleton hfeed
  unfold strLines
  rw [hlines]
  simp [hne]

theorem strLines_cons {line : Text} (hfeed : '\n' ∉ line) (t : Text) :
    strLines (line ++ '\n' :: t) = stripReturn line :: strLines t := by
  have hlines : lines (line ++ '\n' :: t) = line :: lines t :=
    List.splitOn_append_cons_self_of_not_mem hfeed t
  have hne : lines t ≠ [] := List.splitOn_ne_nil '\n' t
  unfold strLines
  rw [hlines, List.dropLast_cons_of_ne_nil hne, List.map_cons, List.cons_append,
    List.getLast?_cons_of_ne_nil hne]

theorem linesInduction {P : Text -> Prop} (hnil : P [])
    (hlast : forall t, '\n' ∉ t -> t ≠ [] -> P t)
    (hline : forall line t, '\n' ∉ line -> P t -> P (line ++ '\n' :: t)) (t : Text) : P t := by
  induction hlength : t.length using Nat.strongRecOn generalizing t with
  | _ n ih =>
      by_cases hfeed : '\n' ∈ t
      · rcases List.eq_append_cons_of_mem hfeed with ⟨line, rest, rfl, hbefore⟩
        apply hline line rest hbefore
        apply ih rest.length _ rest rfl
        rw [List.length_append, List.length_cons] at hlength
        omega
      · cases t with
        | nil => exact hnil
        | cons c t => exact hlast _ hfeed (List.cons_ne_nil c t)

/-- A position at which a line starts, by the text before it. -/
def AtLineStart (before : Text) : Prop :=
  before = [] ∨ before.getLast? = some '\n'

/-- The lines behind a line end are those of the text that starts there. -/
theorem strLines_append {t : Text} (hstart : AtLineStart t) (u : Text) :
    strLines (t ++ u) = strLines t ++ strLines u := by
  induction t using linesInduction with
  | hnil =>
      rfl
  | hlast t hfeed hne =>
      rcases hstart with hnil | hlast
      · exact absurd hnil hne
      · exact absurd (List.mem_of_getLast? hlast) hfeed
  | hline line t hfeed ih =>
      have hrest : AtLineStart t := by
        rcases hstart with hnil | hlast
        · exact absurd hnil (List.append_ne_nil_of_right_ne_nil _ (List.cons_ne_nil _ _))
        · cases t with
          | nil =>
              exact Or.inl rfl
          | cons c t =>
              rw [List.getLast?_append_of_ne_nil _ (List.cons_ne_nil _ _),
                List.getLast?_cons_cons] at hlast
              exact Or.inr hlast
      rw [List.append_assoc, List.cons_append, strLines_cons hfeed, strLines_cons hfeed, ih hrest]
      rfl

/-- Every line starts at the start of the text or behind a line end. -/
theorem mem_strLines {line t : Text} : line ∈ strLines t <->
    exists before behind, t = before ++ behind ∧ AtLineStart before ∧
      (strLines behind).head? = some line := by
  constructor
  · intro hmem
    induction t using linesInduction with
    | hnil =>
        cases hmem
    | hlast t hfeed hne =>
        rw [strLines_of_no_feed hfeed hne] at hmem
        refine ⟨[], t, rfl, Or.inl rfl, ?_⟩
        rw [strLines_of_no_feed hfeed hne, List.mem_singleton.mp hmem]
        rfl
    | hline first t hfeed ih =>
        rw [strLines_cons hfeed] at hmem
        rcases List.mem_cons.mp hmem with rfl | hrest
        · refine ⟨[], first ++ '\n' :: t, rfl, Or.inl rfl, ?_⟩
          rw [strLines_cons hfeed]
          rfl
        · rcases ih hrest with ⟨before, behind, rfl, hstart, hhead⟩
          refine ⟨first ++ '\n' :: before, behind, by simp, Or.inr ?_, hhead⟩
          rcases hstart with rfl | hlast
          · simp
          · simp [List.getLast?_cons, hlast]
  · rintro ⟨before, behind, rfl, hstart, hhead⟩
    rw [strLines_append hstart]
    exact List.mem_append_right _ (List.mem_of_mem_head? hhead)

/-!
# Trimmed texts
-/

theorem exists_trim (t : Text) : exists front back, t = front ++ (trim t ++ back) ∧
    (forall c, c ∈ front -> isWhitespace c = true) ∧
    (forall c, c ∈ back -> isWhitespace c = true) := by
  have hfront := @List.takeWhile_append_dropWhile Char isWhitespace t
  have hback := @List.takeWhile_append_dropWhile Char isWhitespace
    (t.dropWhile isWhitespace).reverse
  refine ⟨t.takeWhile isWhitespace,
    ((t.dropWhile isWhitespace).reverse.takeWhile isWhitespace).reverse, ?_, ?_, ?_⟩
  · unfold trim
    rw [← List.reverse_append, hback, List.reverse_reverse, hfront]
  · intro c hc
    exact List.all_eq_true.mp List.all_takeWhile c hc
  · intro c hc
    exact List.all_eq_true.mp List.all_takeWhile c (List.mem_reverse.mp hc)

theorem trim_between {c d : Char} {front middle back : Text}
    (hfront : forall c, c ∈ front -> isWhitespace c = true) (hc : isWhitespace c = false)
    (hd : isWhitespace d = false) (hback : forall c, c ∈ back -> isWhitespace c = true) :
    trim (front ++ ((c :: (middle ++ [d])) ++ back)) = c :: (middle ++ [d]) := by
  have hback' : forall c, c ∈ back.reverse -> isWhitespace c = true :=
    fun c h => hback c (List.mem_reverse.mp h)
  have hreverse : (c :: (middle ++ [d]) ++ back).reverse =
      back.reverse ++ (d :: (middle.reverse ++ [c])) := by
    simp
  unfold trim
  rw [List.dropWhile_append_of_pos hfront, List.cons_append,
    List.dropWhile_cons_of_neg (by simp [hc]), ← List.cons_append, hreverse,
    List.dropWhile_append_of_pos hback', List.dropWhile_cons_of_neg (by simp [hd])]
  simp

end Chunker
end KnowledgeBrain
