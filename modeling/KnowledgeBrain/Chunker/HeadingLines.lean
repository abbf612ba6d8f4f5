import KnowledgeBrain.Chunker.Sections

/-!
# The heading path

What the heading stack is for: the headings in force at a position, by one pass
over the whole text.  The stack of six titles and its depth refine it.
-/

namespace KnowledgeBrain
namespace Chunker

open Foundation

/-- The headings in force, with their levels, outermost first. -/
abbrev HeadingPath := List (Nat × Text)

namespace HeadingPath

/-- A heading takes the place of the one of its level and of the deeper ones. -/
def enter (level : Nat) (title : Text) (path : HeadingPath) : HeadingPath :=
  path.filter (fun heading => decide (heading.1 < level)) ++
    (if title.isEmpty then [] else [(level, title)])

def observe (p : Patterns) (path : HeadingPath) (posLine : Nat × Text) : HeadingPath :=
  match p.markdownHeading posLine.2 with
  | none => path
  | some (level, title) =>
      if 1 ≤ level ∧ level ≤ 6 then path.enter level (trim title) else path

def headingLine (heading : Nat × Text) : Text :=
  List.replicate heading.1 '#' ++ ' ' :: heading.2

def render (path : HeadingPath) : Text :=
  ['\n'].intercalate (path.map headingLine)

end HeadingPath

/-- The headings of the open lines that begin at a position or before it. -/
def pathAt (p : Patterns) (text : Text) (pos : Nat) : HeadingPath :=
  ((openLines text).filter fun posLine => decide (posLine.1 ≤ pos)).foldl
    (HeadingPath.observe p) []

/-- The lines of the first text begin the lines of the second. -/
def LinePrefix (a b : Text) : Prop :=
  a = [] ∨ lines a <+: lines b

/-- The header of a chunk names headings in force at its start. -/
def InForce (p : Patterns) (text : Text) (c : TextChunk) : Prop :=
  LinePrefix c.contextHeader (pathAt p text c.start).render

/-!
# The stack
-/

/-- The titles of a stack from a level on. -/
def entriesFrom : Nat -> List Text -> HeadingPath
  | _, [] => []
  | level, title :: rest =>
      if title.isEmpty then entriesFrom (level + 1) rest
      else (level, title) :: entriesFrom (level + 1) rest

theorem entriesFrom_append (level : Nat) (left right : List Text) :
    entriesFrom level (left ++ right) =
      entriesFrom level left ++ entriesFrom (level + left.length) right := by
  induction left generalizing level with
  | nil =>
      rfl
  | cons title left ih =>
      have hlevel : level + (title :: left).length = level + 1 + left.length := by
        rw [List.length_cons]
        omega
      rw [List.cons_append, entriesFrom, entriesFrom, hlevel, ih]
      split
      · rfl
      · rfl

theorem entriesFrom_empty (level : Nat) {titles : List Text}
    (h : forall title, title ∈ titles -> title = []) : entriesFrom level titles = [] := by
  induction titles generalizing level with
  | nil =>
      rfl
  | cons title rest ih =>
      have htitle := h title List.mem_cons_self
      rw [entriesFrom, if_pos (List.isEmpty_iff.mpr htitle)]
      exact ih (level + 1) fun other hother => h other (List.mem_cons_of_mem title hother)

theorem level_mem_entriesFrom {level : Nat} {titles : List Text} :
    forall heading, heading ∈ entriesFrom level titles -> level ≤ heading.1 := by
  induction titles generalizing level with
  | nil =>
      intro heading hmem
      cases hmem
  | cons title rest ih =>
      intro heading hmem
      rw [entriesFrom] at hmem
      split at hmem
      · exact Nat.le_of_succ_le (ih heading hmem)
      · rcases List.mem_cons.mp hmem with rfl | hmem
        · exact Nat.le_refl level
        · exact Nat.le_of_succ_le (ih heading hmem)

/-- The headings above a level are the front of the stack. -/
theorem filter_entriesFrom (level bound : Nat) (titles : List Text) :
    (entriesFrom level titles).filter (fun heading => decide (heading.1 < bound)) =
      entriesFrom level (titles.take (bound - level)) := by
  induction titles generalizing level with
  | nil =>
      simp [entriesFrom]
  | cons title rest ih =>
      by_cases hlevel : level < bound
      · have hsucc : bound - level = (bound - (level + 1)) + 1 := by
          omega
        rw [hsucc, List.take_succ_cons, entriesFrom, entriesFrom]
        split
        · exact ih (level + 1)
        · rw [List.filter_cons_of_pos (by simpa using hlevel), ih]
      · have hzero : bound - level = 0 := by
          omega
        rw [hzero, List.take_zero, List.filter_eq_nil_iff.mpr]
        · rfl
        · intro heading hmem
          have hle := level_mem_entriesFrom heading hmem
          simp only [decide_eq_true_eq]
          omega

theorem getD_of_lt {stack : List Text} {i : Nat} (h : i < stack.length) :
    stack.getD i [] = stack[i] := by
  rw [List.getD_eq_getElem?_getD, List.getElem?_eq_getElem h, Option.getD_some]

namespace HeadingHierarchy

/-- There is a title for each level, and none from the depth on. -/
structure WellFormed (h : HeadingHierarchy) : Prop where
  levels : h.stack.length = 6
  depth_le : h.depth ≤ 6
  deep : forall title, title ∈ h.stack.drop h.depth -> title = []

def entries (h : HeadingHierarchy) : HeadingPath :=
  entriesFrom 1 h.stack

theorem wellFormed_new : new.WellFormed where
  levels := rfl
  depth_le := Nat.zero_le 6
  deep := by
    intro title hmem
    exact (List.mem_replicate.mp hmem).2

/-- No title stands at the deepest level or below. -/
theorem deepest_spec (stack : List Text) (n : Nat) :
    (List.range n).foldl (fun depth i => if (stack.getD i []).isEmpty then depth else i + 1) 0 ≤
        n ∧
      forall i, i < n ->
        (List.range n).foldl (fun depth i => if (stack.getD i []).isEmpty then depth else i + 1)
            0 ≤ i ->
        stack.getD i [] = [] := by
  induction n with
  | zero =>
      constructor
      · exact Nat.le_refl 0
      · intro i hi
        exact absurd hi (Nat.not_lt_zero i)
  | succ n ih =>
      rcases ih with ⟨hle, hdeep⟩
      rw [List.range_succ, List.foldl_append, List.foldl_cons, List.foldl_nil]
      split
      · rename_i hempty
        constructor
        · exact Nat.le_succ_of_le hle
        · intro i hi hlow
          rcases Nat.lt_succ_iff_lt_or_eq.mp hi with hi | rfl
          · exact hdeep i hi hlow
          · exact List.isEmpty_iff.mp hempty
      · constructor
        · exact Nat.le_refl (n + 1)
        · intro i hi hlow
          exact absurd hi (Nat.not_lt.mpr hlow)

theorem wellFormed_observe (p : Patterns) (line : Text) {h : HeadingHierarchy}
    (hwell : h.WellFormed) : (h.observe p line).WellFormed := by
  have hlevels := hwell.levels
  unfold observe
  split
  · exact hwell
  · rename_i level title _
    split
    · rename_i hlevel
      have hlength : (h.stack.take (level - 1) ++ trim title ::
          List.replicate (6 - level) []).length = 6 := by
        rw [List.length_append, List.length_take, List.length_cons, List.length_replicate]
        omega
      constructor
      · exact hlength
      · dsimp only
        split
        · exact hlevel.2
        · exact (deepest_spec _ 6).1
      · dsimp only
        split
        · have hfront : (h.stack.take (level - 1) ++ [trim title]).length = level := by
            rw [List.length_append, List.length_take, List.length_singleton]
            omega
          have hdrop : (h.stack.take (level - 1) ++ trim title ::
              List.replicate (6 - level) []).drop level = List.replicate (6 - level) [] := by
            rw [← List.singleton_append, ← List.append_assoc]
            exact List.drop_left' hfront
          rw [hdrop]
          intro other hmem
          exact (List.mem_replicate.mp hmem).2
        · intro other hmem
          rcases List.mem_iff_getElem.mp hmem with ⟨i, hi, rfl⟩
          rw [List.length_drop, hlength] at hi
          have hdeep := (deepest_spec (h.stack.take (level - 1) ++ trim title ::
            List.replicate (6 - level) []) 6).2 (deepest (h.stack.take (level - 1) ++ trim title ::
              List.replicate (6 - level) []) + i) (by omega) (Nat.le_add_right _ _)
          rw [getD_of_lt (by omega)] at hdeep
          rw [List.getElem_drop]
          exact hdeep
    · exact hwell

/-- The stack follows the path. -/
theorem entries_observe (p : Patterns) (posLine : Nat × Text) {h : HeadingHierarchy}
    (hwell : h.WellFormed) :
    (h.observe p posLine.2).entries = h.entries.observe p posLine := by
  cases hcaptures : p.markdownHeading posLine.2 with
  | none =>
      simp only [observe, HeadingPath.observe, hcaptures]
  | some captures =>
      rcases captures with ⟨level, title⟩
      simp only [observe, HeadingPath.observe, hcaptures]
      split
      · rename_i hlevel
        have hrest : entriesFrom (level + 1) (List.replicate (6 - level) []) = [] := by
          apply entriesFrom_empty
          intro other hmem
          exact (List.mem_replicate.mp hmem).2
        have htake : 1 + (h.stack.take (level - 1)).length = level := by
          rw [List.length_take, hwell.levels]
          omega
        unfold entries HeadingPath.enter
        rw [filter_entriesFrom, entriesFrom_append, htake, entriesFrom, hrest]
      · rfl

theorem observe_foldl (p : Patterns) (posLines : List (Nat × Text)) {h : HeadingHierarchy}
    (hwell : h.WellFormed) :
    (posLines.foldl (fun h posLine => h.observe p posLine.2) h).WellFormed ∧
      (posLines.foldl (fun h posLine => h.observe p posLine.2) h).entries =
        posLines.foldl (HeadingPath.observe p) h.entries := by
  induction posLines generalizing h with
  | nil =>
      exact ⟨hwell, rfl⟩
  | cons posLine rest ih =>
      rw [List.foldl_cons, List.foldl_cons, ← entries_observe p posLine hwell]
      exact ih (wellFormed_observe p posLine.2 hwell)

theorem parts_eq (stack : List Text) {n : Nat} (hn : n ≤ stack.length) :
    ((List.range n).filterMap fun i =>
        let title := stack.getD i []
        if title.isEmpty then none else some (List.replicate (i + 1) '#' ++ ' ' :: title)) =
      (entriesFrom 1 (stack.take n)).map HeadingPath.headingLine := by
  induction n with
  | zero =>
      rfl
  | succ n ih =>
      have hlt : n < stack.length := hn
      rw [List.range_succ, List.filterMap_append, ih (Nat.le_of_lt hlt),
        List.take_succ_eq_append_getElem hlt, entriesFrom_append, List.map_append,
        List.length_take, Nat.min_eq_left (Nat.le_of_lt hlt)]
      congr 1
      have hget : stack.getD n [] = stack[n] := getD_of_lt hlt
      simp only [List.filterMap_cons, List.filterMap_nil, hget, entriesFrom]
      split
      · rename_i hnone
        split at hnone
        · rename_i hempty
          rw [if_pos hempty]
          rfl
        · cases hnone
      · rename_i line hsome
        split at hsome
        · cases hsome
        · rename_i hfull
          cases hsome
          rw [if_neg hfull, Nat.add_comm 1 n]
          rfl

theorem breadcrumb_eq {h : HeadingHierarchy} (hwell : h.WellFormed) :
    h.breadcrumbWithHashes = h.entries.render := by
  have hsplit : h.entries = entriesFrom 1 (h.stack.take h.depth) := by
    unfold entries
    rw [← List.take_append_drop h.depth h.stack]
    rw [entriesFrom_append, entriesFrom_empty _ hwell.deep, List.append_nil,
      List.take_append_drop]
  unfold breadcrumbWithHashes HeadingPath.render
  dsimp only
  rw [hsplit, ← parts_eq h.stack (hwell.levels ▸ hwell.depth_le)]

end HeadingHierarchy

/-!
# Prefixes by lines
-/

theorem LinePrefix.refl (a : Text) : LinePrefix a a :=
  Or.inr (List.prefix_refl (lines a))

theorem lines_prefix_nil {a : Text} (h : lines a <+: [[]]) : a = [] := by
  rcases List.prefix_cons_iff.mp h with hnil | ⟨rest, heq, hrest⟩
  · exact absurd hnil (List.splitOn_ne_nil '\n' a)
  · rw [List.prefix_nil.mp hrest] at heq
    have hjoin := @List.intercalate_splitOn Char a _ _ '\n'
    unfold lines at heq
    rw [heq] at hjoin
    exact hjoin.symm

theorem LinePrefix.trans {a b c : Text} (hab : LinePrefix a b) (hbc : LinePrefix b c) :
    LinePrefix a c := by
  rcases hab with hnil | hab
  · exact Or.inl hnil
  · rcases hbc with rfl | hbc
    · exact Or.inl (lines_prefix_nil hab)
    · exact Or.inr (hab.trans hbc)

/-- No line holds a line feed. -/
theorem not_mem_line (a : Text) : forall line, line ∈ lines a -> '\n' ∉ line := by
  unfold lines
  induction a with
  | nil =>
      intro line hmem
      rw [List.splitOn_nil] at hmem
      rw [List.mem_singleton.mp hmem]
      exact List.not_mem_nil
  | cons c a ih =>
      rw [List.splitOn_cons_eq_if_modifyHead]
      split
      · intro line hmem
        rcases List.mem_cons.mp hmem with rfl | hmem
        · exact List.not_mem_nil
        · exact ih line hmem
      · rename_i hc
        cases hlines : a.splitOn '\n' with
        | nil =>
            exact absurd hlines (List.splitOn_ne_nil '\n' a)
        | cons first rest =>
            rw [hlines] at ih
            intro line hmem
            rcases List.mem_cons.mp hmem with rfl | hmem
            · intro hin
              rcases List.mem_cons.mp hin with heq | hin
              · exact hc (beq_iff_eq.mpr heq.symm)
              · exact ih first List.mem_cons_self hin
            · exact ih line (List.mem_cons_of_mem first hmem)

theorem commonLines_prefix (as bs : List Text) : commonLines as bs <+: as := by
  induction as generalizing bs with
  | nil =>
      exact List.nil_prefix
  | cons a as ih =>
      cases bs with
      | nil =>
          exact List.nil_prefix
      | cons b bs =>
          rw [commonLines]
          split
          · exact (List.prefix_cons_inj a).mpr (ih bs)
          · exact List.nil_prefix

theorem commonHeadingPrefix_linePrefix (a b : Text) : LinePrefix (commonHeadingPrefix a b) a := by
  unfold commonHeadingPrefix
  split
  · exact LinePrefix.refl a
  · have hleads := commonLines_prefix (lines a) (lines b)
    cases hcommon : commonLines (lines a) (lines b) with
    | nil =>
        exact Or.inl rfl
    | cons first rest =>
        rw [hcommon] at hleads
        right
        unfold lines
        rw [List.splitOn_intercalate]
        · exact hleads
        · intro line hmem
          exact not_mem_line a line (List.IsPrefix.subset hleads hmem)
        · exact List.cons_ne_nil first rest

/-!
# The lines of a section

A section begins at a line outside the fences, and the next one does.  So the
open lines of the section, read on their own, are those of the whole text.
-/

/-- Whether a fence is open behind some lines. -/
def fenceAfter (inFence : Bool) (ls : List Text) : Bool :=
  ls.foldl (fun inFence line => if startsFence line then !inFence else inFence) inFence

theorem openLinesFrom_append (pos : Nat) (inFence : Bool) (ls ms : List Text) :
    openLinesFrom pos inFence (ls ++ ms) =
      openLinesFrom pos inFence ls ++
        openLinesFrom (pos + endedLength ls) (fenceAfter inFence ls) ms := by
  induction ls generalizing pos inFence with
  | nil =>
      rfl
  | cons line rest ih =>
      cases ms with
      | nil =>
          simp [openLinesFrom]
      | cons m ms =>
          have hnext : pos + line.length + 1 + endedLength rest =
              pos + endedLength (line :: rest) := by
            unfold endedLength
            rw [List.map_cons, List.sum_cons]
            omega
          have hstop : forall fence, openLinesFrom (pos + line.length +
                (if rest.isEmpty then 0 else 1)) fence rest =
              openLinesFrom (pos + line.length + 1) fence rest := by
            intro fence
            cases rest with
            | nil =>
                rfl
            | cons second rest =>
                rfl
          have hmore : (rest ++ m :: ms).isEmpty = false := by
            simp
          simp only [List.cons_append, openLinesFrom, hmore, hstop, Bool.false_eq_true, if_false,
            ih, fenceAfter, List.foldl_cons, hnext]
          split
          · rfl
          · split
            · rfl
            · rfl

theorem openLinesFrom_add (k pos : Nat) (inFence : Bool) (ls : List Text) :
    openLinesFrom (k + pos) inFence ls =
      (openLinesFrom pos inFence ls).map fun posLine => (k + posLine.1, posLine.2) := by
  induction ls generalizing pos inFence with
  | nil =>
      rfl
  | cons line rest ih =>
      have hnext : forall n, k + pos + line.length + n = k + (pos + line.length + n) := by
        intro n
        omega
      simp only [openLinesFrom, hnext, ih]
      split
      · rfl
      · split
        · rfl
        · rfl

/-- An open line begins outside the fences, at the start or behind a line feed. -/
theorem openLine_cut (t : Text) (pos : Nat) (inFence : Bool) {e : Nat × Text}
    (hmem : e ∈ openLinesFrom pos inFence (lines t)) :
    exists k, e.1 = pos + k ∧ k ≤ t.length ∧ (exists rest, lines (t.drop k) = e.2 :: rest) ∧
      ((k = 0 ∧ inFence = false) ∨ exists body, t.take k = body ++ ['\n'] ∧
        fenceAfter inFence (lines body) = false) := by
  induction t using lines_induction generalizing pos inFence with
  | last line hline =>
      rw [lines_last hline] at hmem
      simp only [openLinesFrom] at hmem
      split at hmem
      · cases hmem
      · split at hmem
        · cases hmem
        · rename_i hopen
          rw [List.mem_singleton.mp hmem]
          refine ⟨0, rfl, Nat.zero_le _, ⟨[], lines_last hline⟩, Or.inl ⟨rfl, ?_⟩⟩
          exact Bool.eq_false_iff.mpr hopen
  | next line rest hline ih =>
      have hlines := lines_next hline rest
      have hmore : (lines rest).isEmpty = false := by
        cases hrest : lines rest with
        | nil =>
            exact absurd hrest (List.splitOn_ne_nil '\n' rest)
        | cons first others =>
            rfl
      have hlength : (line ++ ['\n']).length = line.length + 1 :=
        List.length_append
      have hsplit : line ++ '\n' :: rest = line ++ ['\n'] ++ rest := by
        rw [List.append_assoc, List.singleton_append]
      have hlater : forall fence, fence = fenceAfter inFence [line] ->
          e ∈ openLinesFrom (pos + line.length + 1) fence (lines rest) ->
          exists k, e.1 = pos + k ∧ k ≤ (line ++ '\n' :: rest).length ∧
            (exists others, lines ((line ++ '\n' :: rest).drop k) = e.2 :: others) ∧
            ((k = 0 ∧ inFence = false) ∨ exists body,
              (line ++ '\n' :: rest).take k = body ++ ['\n'] ∧
                fenceAfter inFence (lines body) = false) := by
        intro fence hfence hin
        rcases ih (pos + line.length + 1) fence hin with ⟨k, hpos, hle, hdrop, hcut⟩
        refine ⟨line.length + 1 + k, ?_, ?_, ?_, Or.inr ?_⟩
        · rw [hpos]
          omega
        · rw [List.length_append, List.length_cons]
          omega
        · rw [hsplit, ← hlength, List.drop_length_add_append]
          exact hdrop
        · rw [hsplit, ← hlength, List.take_length_add_append]
          rcases hcut with ⟨rfl, hopen⟩ | ⟨body, htake, hopen⟩
          · refine ⟨line, by simp, ?_⟩
            rw [lines_last hline, ← hfence]
            exact hopen
          · refine ⟨line ++ '\n' :: body, ?_, ?_⟩
            · simp [htake]
            · rw [lines_next hline]
              rw [hfence] at hopen
              exact hopen
      rw [hlines] at hmem
      simp only [openLinesFrom, hmore, Bool.false_eq_true, if_false] at hmem
      split at hmem
      · rename_i hfence
        apply hlater (!inFence) _ hmem
        simp [fenceAfter, hfence]
      · rename_i hfence
        have hsame : inFence = fenceAfter inFence [line] := by
          simp [fenceAfter, hfence]
        split at hmem
        · exact hlater inFence hsame hmem
        · rename_i hopen
          rcases List.mem_cons.mp hmem with rfl | hmem
          · refine ⟨0, rfl, Nat.zero_le _, ⟨lines rest, hlines⟩, Or.inl ⟨rfl, ?_⟩⟩
            exact Bool.eq_false_iff.mpr hopen
          · exact hlater inFence hsame hmem

/-!
# Sections
-/

/-- The open lines from a position on, when a line begins there outside the fences. -/
def linesFrom (text : Text) (a : Nat) : List (Nat × Text) :=
  openLinesFrom a false (lines (text.drop a))

theorem linesFrom_zero (text : Text) : linesFrom text 0 = openLines text := rfl

theorem linesFrom_sorted (text : Text) (a : Nat) :
    (linesFrom text a).Pairwise (fun e f => e.1 < f.1) ∧
      forall e, e ∈ linesFrom text a -> a ≤ e.1 := by
  rcases openLinesFrom_sorted a false (lines (text.drop a)) with ⟨hsorted, hbounds⟩
  exact ⟨hsorted, fun e hmem => (hbounds e hmem).1⟩

theorem not_startsFence_of_mem {pos : Nat} {inFence : Bool} {ls : List Text} {e : Nat × Text}
    (hmem : e ∈ openLinesFrom pos inFence ls) : startsFence e.2 = false := by
  induction ls generalizing pos inFence with
  | nil =>
      cases hmem
  | cons line rest ih =>
      simp only [openLinesFrom] at hmem
      split at hmem
      · exact ih hmem
      · rename_i hline
        split at hmem
        · exact ih hmem
        · rcases List.mem_cons.mp hmem with rfl | hmem
          · exact Bool.eq_false_iff.mpr hline
          · exact ih hmem

/-- The open lines of a part of the text, read on their own: those of the text
that begin in it, and no other line that is not empty. -/
structure SectionLines (text : Text) (a b : Nat) (inner : List (Nat × Text)) : Prop where
  sorted : inner.Pairwise fun e f => e.1 < f.1
  low : forall e, e ∈ inner -> a ≤ e.1
  read : exists tail, (openLines (slice text a b)).map
      (fun posLine => (a + posLine.1, posLine.2)) = inner ++ tail ∧
    forall e, e ∈ tail -> e.2 = []

theorem sectionLines_last (text : Text) (a : Nat) :
    SectionLines text a text.length (linesFrom text a) where
  sorted := (linesFrom_sorted text a).1
  low := (linesFrom_sorted text a).2
  read := by
    refine ⟨[], ?_, ?_⟩
    · have hslice : slice text a text.length = text.drop a := by
        rw [slice, List.take_length]
      rw [hslice, List.append_nil]
      exact (openLinesFrom_add a 0 false (lines (text.drop a))).symm
    · intro e hmem
      cases hmem

theorem empty_openLine {pos : Nat} {inFence : Bool} :
    forall e, e ∈ openLinesFrom pos inFence [[]] -> e.2 = [] := by
  intro e hmem
  simp only [openLinesFrom] at hmem
  split at hmem
  · cases hmem
  · split at hmem
    · cases hmem
    · rw [List.mem_singleton.mp hmem]

/-- A section that ends where another open line begins. -/
structure SectionCut (text : Text) (a b : Nat) (line : Text) (inner : List (Nat × Text)) :
    Prop where
  lines : SectionLines text a b inner
  split : linesFrom text a = inner ++ linesFrom text b
  high : forall e, e ∈ inner -> e.1 < b
  start_le : a ≤ b
  stop_le : b ≤ text.length
  head : exists rest, linesFrom text b = (b, line) :: rest

theorem sectionLines_cut {text : Text} {a b : Nat} {line : Text} (hle : a ≤ text.length)
    (hmem : (b, line) ∈ linesFrom text a) : exists inner, SectionCut text a b line inner := by
  rcases openLine_cut (text.drop a) a false hmem with ⟨k, hpos, hk, ⟨rest, hrest⟩, hcut⟩
  dsimp only at hpos hrest
  rw [List.length_drop] at hk
  rw [List.drop_drop, ← hpos] at hrest
  have hstop : b ≤ text.length := by
    omega
  have hhead : exists others, linesFrom text b = (b, line) :: others := by
    have hfence := not_startsFence_of_mem hmem
    dsimp only at hfence
    refine ⟨openLinesFrom (b + line.length + (if rest.isEmpty then 0 else 1)) false rest, ?_⟩
    unfold linesFrom
    rw [hrest, openLinesFrom, hfence]
    rfl
  rcases hcut with ⟨rfl, _⟩ | ⟨body, htake, hopen⟩
  · rw [Nat.add_zero] at hpos
    subst hpos
    refine ⟨[], ⟨List.Pairwise.nil, ?_, ?_⟩, rfl, ?_, Nat.le_refl b, hstop, hhead⟩
    · intro e hnone
      cases hnone
    · refine ⟨[(b, [])], ?_, ?_⟩
      · rw [slice_self]
        rfl
      · intro e hone
        rw [List.mem_singleton.mp hone]
    · intro e hnone
      cases hnone
  · have hlength : body.length + 1 = k := by
      have hcount := congrArg List.length htake
      rw [List.length_take, List.length_drop, List.length_append, List.length_singleton] at hcount
      omega
    have hwhole : text.drop a = body ++ '\n' :: text.drop b := by
      have hjoin := List.take_append_drop k (text.drop a)
      rw [htake, List.drop_drop, ← hpos, List.append_assoc, List.singleton_append] at hjoin
      exact hjoin.symm
    have hended : a + endedLength (lines body) = b := by
      rw [endedLength_lines, hpos, hlength]
    have hsplit : linesFrom text a =
        openLinesFrom a false (lines body) ++ linesFrom text b := by
      unfold linesFrom
      rw [hwhole, lines_append, openLinesFrom_append, hended, hopen]
    rcases openLinesFrom_sorted a false (lines body) with ⟨hsorted, hbounds⟩
    rw [hended] at hbounds
    have hslice : slice text a b = body ++ '\n' :: [] := by
      rw [slice_eq_take_drop, hpos, Nat.add_sub_cancel_left, htake]
    refine ⟨openLinesFrom a false (lines body), ⟨hsorted, ?_, ?_⟩, hsplit, ?_, ?_, hstop, hhead⟩
    · intro e hin
      exact (hbounds e hin).1
    · refine ⟨openLinesFrom b (fenceAfter false (lines body)) [[]], ?_, empty_openLine⟩
      have happend := openLinesFrom_append a false (lines body) [[]]
      rw [hended] at happend
      rw [hslice, ← happend]
      unfold openLines
      rw [lines_append]
      exact (openLinesFrom_add a 0 false (lines body ++ [[]])).symm
    · intro e hin
      exact (hbounds e hin).2
    · omega

end Chunker
end KnowledgeBrain
