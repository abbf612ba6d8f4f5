import KnowledgeBrain.Chunker.Sections
import Mathlib.Data.List.TakeWhile

/-!
# Blocks cover the ink

The boundaries come in order.  A chunk is closed at one of them and the next
starts at or behind the start of the last, so starts never go back and only
blank text is left out.
-/

namespace KnowledgeBrain
namespace Chunker

open Foundation

/-- The position holds a character that is not white space. -/
def Inked (t : Text) (i : Nat) : Prop :=
  exists c, t[i]? = some c ∧ isWhitespace c = false

variable {t : Text}

theorem whitespace_of_isBlank (h : isBlank t = true) :
    forall c, c ∈ t -> isWhitespace c = true := by
  unfold isBlank trim at h
  rw [List.isEmpty_iff, List.reverse_eq_nil_iff] at h
  have hlead : t.dropWhile isWhitespace = [] := by
    cases hrest : t.dropWhile isWhitespace with
    | nil => rfl
    | cons c rest =>
        have hall := List.dropWhile_eq_nil_iff.mp h
        have hhead : isWhitespace c = false := by
          have hnot := List.head?_dropWhile_not isWhitespace t
          rw [hrest] at hnot
          exact hnot
        have hmem : c ∈ (t.dropWhile isWhitespace).reverse := by simp [hrest]
        rw [hall c hmem] at hhead
        cases hhead
  exact List.dropWhile_eq_nil_iff.mp hlead

theorem not_inked_of_isBlank {a b : Nat} (h : isBlank (slice t a b) = true) :
    forall i, a ≤ i -> i < b -> ¬ Inked t i := by
  rintro i hai hib ⟨c, hc, hink⟩
  have hmem : c ∈ slice t a b := by
    apply List.mem_iff_getElem?.mpr
    refine ⟨i - a, ?_⟩
    unfold slice
    rw [List.getElem?_drop, Nat.add_sub_cancel' hai, List.getElem?_take_of_lt hib]
    exact hc
  rw [whitespace_of_isBlank h c hmem] at hink
  cases hink

/-!
# Boundaries in order
-/

/-- Positions that ascend from `lo` on, strictly but for the last one. -/
def Ascending : Nat -> List Boundary -> Prop
  | _, [] => True
  | lo, b :: rest => lo ≤ b.runeStart ∧ (rest ≠ [] -> lo < b.runeStart) ∧
      Ascending b.runeStart rest

variable {bounds : List Boundary}

theorem ascending_close {lo total : Nat} (hlo : lo ≤ total)
    (hsorted : (bounds.map Boundary.runeStart).Pairwise (· < ·))
    (hbounds : forall b, b ∈ bounds -> lo < b.runeStart ∧ b.runeStart ≤ total) :
    Ascending lo (bounds ++ [⟨total, 0⟩]) := by
  induction bounds generalizing lo with
  | nil => exact ⟨hlo, fun h => absurd rfl h, trivial⟩
  | cons b bounds ih =>
      obtain ⟨hlow, hhigh⟩ := hbounds b List.mem_cons_self
      rw [List.map_cons] at hsorted
      obtain ⟨hfirst, hrest⟩ := List.pairwise_cons.mp hsorted
      refine ⟨Nat.le_of_lt hlow, fun _ => hlow, ih hhigh hrest ?_⟩
      intro c hc
      exact ⟨hfirst c.runeStart (List.mem_map.mpr ⟨c, hc, rfl⟩),
        (hbounds c (List.mem_cons_of_mem _ hc)).2⟩

theorem dedupBoundaries_sorted {prev : Option Nat}
    (hsorted : (bounds.map Boundary.runeStart).Pairwise (· ≤ ·))
    (hprev : forall q, prev = some q -> forall b, b ∈ bounds -> q ≤ b.runeStart) :
    ((dedupBoundaries prev bounds).map Boundary.runeStart).Pairwise (· < ·) ∧
      forall b, b ∈ dedupBoundaries prev bounds ->
        b ∈ bounds ∧ forall q, prev = some q -> q < b.runeStart := by
  induction bounds generalizing prev with
  | nil =>
      refine ⟨List.Pairwise.nil, ?_⟩
      intro b hmem
      cases hmem
  | cons b rest ih =>
      rw [List.map_cons] at hsorted
      obtain ⟨hfirst, hrest⟩ := List.pairwise_cons.mp hsorted
      have hmin : forall c, c ∈ rest -> b.runeStart ≤ c.runeStart := fun c hc =>
        hfirst c.runeStart (List.mem_map.mpr ⟨c, hc, rfl⟩)
      simp only [dedupBoundaries]
      split
      · rename_i hsame
        have hlater : forall q, prev = some q -> forall c, c ∈ rest -> q ≤ c.runeStart :=
          fun q hq c hc => hprev q hq c (List.mem_cons_of_mem _ hc)
        obtain ⟨hstrict, hmem⟩ := ih hrest hlater
        exact ⟨hstrict, fun c hc => ⟨List.mem_cons_of_mem _ (hmem c hc).1, (hmem c hc).2⟩⟩
      · rename_i hnew
        have hlater : forall q, some b.runeStart = some q ->
            forall c, c ∈ rest -> q ≤ c.runeStart := by
          intro q hq c hc
          cases hq
          exact hmin c hc
        obtain ⟨hstrict, hmem⟩ := ih hrest hlater
        have hbefore : forall q, prev = some q -> q < b.runeStart := by
          intro q hq
          apply Nat.lt_of_le_of_ne (hprev q hq b List.mem_cons_self)
          intro heq
          exact hnew (heq ▸ hq)
        constructor
        · rw [List.map_cons, List.pairwise_cons]
          refine ⟨?_, hstrict⟩
          intro q hq
          obtain ⟨c, hc, rfl⟩ := List.mem_map.mp hq
          exact (hmem c hc).2 b.runeStart rfl
        · intro c hc
          rcases List.mem_cons.mp hc with rfl | hc
          · exact ⟨List.mem_cons_self, hbefore⟩
          · refine ⟨List.mem_cons_of_mem _ (hmem c hc).1, ?_⟩
            intro q hq
            exact Nat.lt_trans (hbefore q hq) ((hmem c hc).2 b.runeStart rfl)

variable (p : Patterns)

theorem boundary_le_length (t : Text) (langs : List String) :
    forall b, b ∈ formFeeds t ++ lineBoundaries p langs t ++ blankBlocks p t ->
      b.runeStart ≤ t.length := by
  intro b hmem
  rcases List.mem_append.mp hmem with hmem | hblank
  · rcases List.mem_append.mp hmem with hfeed | hline
    · obtain ⟨ci, hci, rfl⟩ := List.mem_map.mp hfeed
      have hindex := (List.mem_filter.mp hci).1
      have hlt := List.snd_lt_of_mem_zipIdx hindex
      dsimp only
      omega
    · obtain ⟨posLine, hposLine, hprio⟩ := List.mem_filterMap.mp hline
      obtain ⟨priority, _, rfl⟩ := Option.map_eq_some_iff.mp hprio
      exact (openLines_positions t).2 posLine.1 (List.mem_map.mpr ⟨posLine, hposLine, rfl⟩)
  · obtain ⟨m, hm, rfl⟩ := List.mem_map.mp hblank
    exact ((p.excessiveBlanks.ordered t).mem m hm).2.2

instance : Std.Total boundaryBefore where
  total a b := by
    unfold boundaryBefore
    omega

instance : IsTrans Boundary boundaryBefore where
  trans a b c hab hbc := by
    unfold boundaryBefore at *
    omega

/-- The boundaries found ascend strictly and lie in the text. -/
theorem heuristicBoundaries_positions (t : Text) (langs : List String) :
    ((findHeuristicBoundaries p t langs).map Boundary.runeStart).Pairwise (· < ·) ∧
      forall b, b ∈ findHeuristicBoundaries p t langs -> b.runeStart ≤ t.length := by
  unfold findHeuristicBoundaries
  generalize hall : formFeeds t ++ lineBoundaries p langs t ++ blankBlocks p t = all
  have hle := boundary_le_length p t langs
  rw [hall] at hle
  have hsorted : ((all.insertionSort boundaryBefore).map Boundary.runeStart).Pairwise
      (· ≤ ·) := by
    rw [List.pairwise_map]
    apply (List.pairwise_insertionSort boundaryBefore all).imp
    intro a b hab
    unfold boundaryBefore at hab
    omega
  have hnone : forall q, (none : Option Nat) = some q ->
      forall b, b ∈ all.insertionSort boundaryBefore -> q ≤ b.runeStart := by
    intro q hq
    cases hq
  obtain ⟨hstrict, hmem⟩ := dedupBoundaries_sorted hsorted hnone
  refine ⟨hstrict, ?_⟩
  intro b hb
  exact hle b ((List.perm_insertionSort _ _).mem_iff.mp (hmem b hb).1)

/-- With the ends of the text, the boundaries start at zero and end at its length. -/
theorem closeBounds_ascending {total : Nat} (hne : bounds ≠ [])
    (hsorted : (bounds.map Boundary.runeStart).Pairwise (· < ·))
    (hbounds : forall b, b ∈ bounds -> b.runeStart ≤ total) :
    exists first init, closeBounds total bounds = first :: (init ++ [⟨total, 0⟩]) ∧
      first.runeStart = 0 ∧ Ascending 0 (init ++ [⟨total, 0⟩]) ∧
      forall b, b ∈ init ++ [⟨total, 0⟩] -> b.runeStart ≤ total := by
  cases bounds with
  | nil => exact absurd rfl hne
  | cons b rest =>
      rw [List.map_cons] at hsorted
      obtain ⟨hfirst, hrest⟩ := List.pairwise_cons.mp hsorted
      have hmin : forall c, c ∈ rest -> b.runeStart < c.runeStart := fun c hc =>
        hfirst c.runeStart (List.mem_map.mpr ⟨c, hc, rfl⟩)
      have hlast : forall {l : List Boundary}, (forall c, c ∈ l -> c.runeStart ≤ total) ->
          forall c, c ∈ l ++ [(⟨total, 0⟩ : Boundary)] -> c.runeStart ≤ total := by
        intro l hl c hc
        rcases List.mem_append.mp hc with hc | hc
        · exact hl c hc
        · rw [List.mem_singleton.mp hc]
      have hclose : closeBounds total (b :: rest) =
          if b.runeStart ≠ 0 then ⟨0, 0⟩ :: ((b :: rest) ++ [⟨total, 0⟩])
          else b :: (rest ++ [⟨total, 0⟩]) := rfl
      rw [hclose]
      by_cases hpos : b.runeStart ≠ 0
      · rw [if_pos hpos]
        refine ⟨⟨0, 0⟩, b :: rest, rfl, rfl, ?_, hlast hbounds⟩
        apply ascending_close (Nat.zero_le _)
        · rw [List.map_cons]
          exact List.pairwise_cons.mpr ⟨hfirst, hrest⟩
        · intro c hc
          refine ⟨?_, hbounds c hc⟩
          rcases List.mem_cons.mp hc with rfl | hc
          · omega
          · have hlt := hmin c hc
            omega
      · rw [if_neg hpos]
        refine ⟨b, rest, rfl, by omega, ?_, hlast fun c hc =>
          hbounds c (List.mem_cons_of_mem _ hc)⟩
        apply ascending_close (Nat.zero_le _) hrest
        intro c hc
        have hlt := hmin c hc
        exact ⟨by omega, hbounds c (List.mem_cons_of_mem _ hc)⟩

/-!
# The overlap
-/

theorem lineStartBack_bounds (runes : Text) (windowStart target i : Nat)
    (hi : i ≤ target) (hwindow : windowStart ≤ target) :
    windowStart ≤ lineStartBack runes windowStart target i ∧
      (lineStartBack runes windowStart target i ≤ target ∨
        (0 < target ∧ lineStartBack runes windowStart target i ≤ target + 1)) := by
  induction i with
  | zero => exact ⟨hwindow, Or.inl (Nat.le_refl _)⟩
  | succ i ih =>
      simp only [lineStartBack]
      split
      · rename_i hinside
        split
        · exact ⟨by omega, Or.inr ⟨by omega, by omega⟩⟩
        · exact ih (by omega)
      · exact ⟨hwindow, Or.inl (Nat.le_refl _)⟩

theorem foldl_max_bounds (rest : List Nat) (b : Nat) :
    (forall c, c ∈ b :: rest -> c ≤ rest.foldl max b) ∧ rest.foldl max b ∈ b :: rest := by
  induction rest generalizing b with
  | nil =>
      refine ⟨?_, List.mem_cons_self⟩
      intro c hc
      exact Nat.le_of_eq (List.mem_singleton.mp hc)
  | cons d rest ih =>
      obtain ⟨hall, hmem⟩ := ih (max b d)
      have htop := hall (max b d) List.mem_cons_self
      rw [List.foldl_cons]
      constructor
      · intro c hc
        rcases List.mem_cons.mp hc with rfl | hc
        · exact Nat.le_trans (Nat.le_max_left _ _) htop
        · rcases List.mem_cons.mp hc with rfl | hc
          · exact Nat.le_trans (Nat.le_max_right _ _) htop
          · exact hall c (List.mem_cons_of_mem _ hc)
      · rcases List.mem_cons.mp hmem with heq | hmem
        · rw [heq]
          rcases Nat.le_total b d with hbd | hdb
          · rw [Nat.max_eq_right hbd]
            exact List.mem_cons_of_mem _ List.mem_cons_self
          · rw [Nat.max_eq_left hdb]
            exact List.mem_cons_self
        · exact List.mem_cons_of_mem _ (List.mem_cons_of_mem _ hmem)

/-- Behind a boundary the overlap does not go back: its window either holds the
boundary or starts behind it. -/
theorem applyOverlapAligned_bounds (runes : Text) {curEnd lo : Nat} (overlap : Nat)
    (hback : exists b, b ∈ bounds ∧ lo ≤ b.runeStart ∧ b.runeStart < curEnd) :
    lo ≤ applyOverlapAligned runes curEnd overlap bounds ∧
      applyOverlapAligned runes curEnd overlap bounds ≤ curEnd := by
  obtain ⟨b, hb, hlo, hlt⟩ := hback
  unfold applyOverlapAligned
  split
  · omega
  · rename_i hoverlap
    dsimp only
    have hwindow : forall q, q ∈ (bounds.map Boundary.runeStart).filter (fun q =>
        decide (curEnd - 2 * overlap ≤ q) && decide (q < curEnd)) <->
        q ∈ bounds.map Boundary.runeStart ∧ curEnd - 2 * overlap ≤ q ∧ q < curEnd := by
      intro q
      rw [List.mem_filter, Bool.and_eq_true, decide_eq_true_eq, decide_eq_true_eq]
    have hmem : b.runeStart ∈ bounds.map Boundary.runeStart := List.mem_map.mpr ⟨b, hb, rfl⟩
    split
    · rename_i hempty
      rw [hempty] at hwindow
      have houtside : b.runeStart < curEnd - 2 * overlap := by
        apply Nat.lt_of_not_le
        intro hin
        cases (hwindow b.runeStart).mpr ⟨hmem, hin, hlt⟩
      obtain ⟨hlow, hhigh⟩ := lineStartBack_bounds runes (curEnd - 2 * overlap)
        (curEnd - overlap) (curEnd - overlap) (Nat.le_refl _) (by omega)
      refine ⟨by omega, ?_⟩
      rcases hhigh with hhigh | ⟨hpos, hhigh⟩
      · omega
      · omega
    · rename_i q rest hcons
      rw [hcons] at hwindow
      obtain ⟨hall, hbest⟩ := foldl_max_bounds rest q
      obtain ⟨_, hlow, hhigh⟩ := (hwindow _).mp hbest
      refine ⟨?_, Nat.le_of_lt hhigh⟩
      by_cases hin : curEnd - 2 * overlap ≤ b.runeStart
      · exact Nat.le_trans hlo (hall _ ((hwindow b.runeStart).mpr ⟨hmem, hin, hlt⟩))
      · omega

/-!
# Packing blocks
-/

theorem emitted_appendChunk {out : List TextChunk} {start stop front : Nat}
    (h : Emitted (Inked t) t start out) (hstop : stop ≤ t.length) (hlow : start ≤ front)
    (hhigh : front ≤ stop) : Emitted (Inked t) t front (appendChunk t start stop out) := by
  unfold appendChunk
  split
  · rename_i hempty
    rw [show front = start by omega]
    exact h
  · dsimp only
    split
    · rename_i hblank
      refine ⟨h.numbered, h.covers.skip hlow ?_, h.led⟩
      intro i hi hlt
      exact not_inked_of_isBlank hblank i hi (Nat.lt_of_lt_of_le hlt hhigh)
    · exact h.push rfl rfl (Nat.le_trans hlow hhigh) hstop hlow hhigh ⟨[], rfl, Or.inl rfl⟩

theorem emitted_appendOversize (cfg : SplitterConfig) {out : List TextChunk} {start stop : Nat}
    (h : Emitted (Inked t) t start out) (hle : start ≤ stop) (hstop : stop ≤ t.length) :
    Emitted (Inked t) t stop (appendOversize p t start stop cfg out) := by
  unfold appendOversize
  split
  · rename_i hempty
    rw [Nat.le_antisymm hempty hle]
    exact h
  · exact h.relocate hle hstop _ (emitted_splitText p _ cfg.chunkSize cfg.chunkOverlap
      cfg.separators)

/-- Boundaries `rest` are still to come. -/
structure Packing (t : Text) (bounds rest : List Boundary) (s : HeuristicState) : Prop where
  le : s.chunkStart ≤ s.curEnd
  stop : s.curEnd ≤ t.length
  known : exists b, b ∈ bounds ∧ b.runeStart = s.curEnd
  ahead : Ascending s.curEnd rest
  back : rest = [] ∨ s.chunkStart = s.curEnd ∨
    exists b, b ∈ bounds ∧ s.chunkStart ≤ b.runeStart ∧ b.runeStart < s.curEnd
  emitted : Emitted (Inked t) t s.chunkStart s.out

theorem packing_step (cfg : SplitterConfig) {bounds rest : List Boundary} {b : Boundary}
    {s : HeuristicState} (hs : Packing t bounds (b :: rest) s) (hb : b ∈ bounds)
    (hstop : b.runeStart ≤ t.length) :
    Packing t bounds rest (HeuristicState.step p t cfg bounds s b) := by
  obtain ⟨hnext, hstrict, hrest⟩ := hs.ahead
  obtain ⟨k, hk, hkEnd⟩ := hs.known
  have hback : forall start, start ≤ s.curEnd -> rest = [] ∨ start = b.runeStart ∨
      exists c, c ∈ bounds ∧ start ≤ c.runeStart ∧ c.runeStart < b.runeStart := by
    intro start hstart
    by_cases hlast : rest = []
    · exact Or.inl hlast
    · exact Or.inr (Or.inr ⟨k, hk, by omega, by have := hstrict hlast; omega⟩)
  unfold HeuristicState.step
  dsimp only
  split
  · refine ⟨Nat.le_refl _, hstop, ⟨b, hb, rfl⟩, hrest, Or.inr (Or.inl rfl), ?_⟩
    apply emitted_appendOversize p cfg _ hnext hstop
    split
    · exact emitted_appendChunk hs.emitted hs.stop hs.le (Nat.le_refl _)
    · rename_i hempty
      rw [show s.curEnd = s.chunkStart from
        Nat.le_antisymm (Nat.le_of_not_lt hempty) hs.le]
      exact hs.emitted
  · split
    · rename_i hflush
      have hopen : exists c, c ∈ bounds ∧ s.chunkStart ≤ c.runeStart ∧
          c.runeStart < s.curEnd := by
        rcases hs.back with hnil | heq | hfound
        · cases hnil
        · have hmin := Nat.le_trans (Nat.le_max_right _ _) hflush.2
          omega
        · exact hfound
      obtain ⟨hlow, hhigh⟩ := applyOverlapAligned_bounds t cfg.chunkOverlap hopen
      refine ⟨Nat.le_trans hhigh hnext, hstop, ⟨b, hb, rfl⟩, hrest, hback _ hhigh, ?_⟩
      exact emitted_appendChunk hs.emitted hs.stop hlow hhigh
    · exact ⟨Nat.le_trans hs.le hnext, hstop, ⟨b, hb, rfl⟩, hrest, hback _ hs.le, hs.emitted⟩

theorem packing_foldl (cfg : SplitterConfig) {bounds rest : List Boundary} {s : HeuristicState}
    (hs : Packing t bounds rest s)
    (hrest : forall b, b ∈ rest -> b ∈ bounds ∧ b.runeStart ≤ t.length) :
    Packing t bounds [] (rest.foldl (HeuristicState.step p t cfg bounds) s) := by
  induction rest generalizing s with
  | nil => exact hs
  | cons b rest ih =>
      obtain ⟨hb, hstop⟩ := hrest b List.mem_cons_self
      exact ih (packing_step p cfg hs hb hstop) fun c hc => hrest c (List.mem_cons_of_mem _ hc)

theorem curEnd_step (t : Text) (cfg : SplitterConfig) (bounds : List Boundary) (s : HeuristicState)
    (b : Boundary) : (HeuristicState.step p t cfg bounds s b).curEnd = b.runeStart := by
  unfold HeuristicState.step
  dsimp only
  split
  · rfl
  · split
    · rfl
    · rfl

/-- The blocks between the boundaries cover the ink of the text. -/
theorem emitted_packBlocks (cfg : SplitterConfig) {first : Boundary} {init : List Boundary}
    (hfirst : first.runeStart = 0) (hascending : Ascending 0 (init ++ [⟨t.length, 0⟩]))
    (hbounds : forall b, b ∈ init ++ [⟨t.length, 0⟩] -> b.runeStart ≤ t.length) :
    Emitted (Inked t) t t.length (packBlocks p t cfg (first :: (init ++ [⟨t.length, 0⟩]))) := by
  have hstart : Packing t (first :: (init ++ [⟨t.length, 0⟩])) (init ++ [⟨t.length, 0⟩])
      ⟨[], first.runeStart, first.runeStart⟩ := by
    rw [hfirst]
    exact ⟨Nat.le_refl _, Nat.zero_le _, ⟨first, List.mem_cons_self, hfirst⟩, hascending,
      Or.inr (Or.inl rfl), Emitted.nil _ _⟩
  have hdone := packing_foldl p cfg hstart fun b hb =>
    ⟨List.mem_cons_of_mem _ hb, hbounds b hb⟩
  have hend : ((init ++ [(⟨t.length, 0⟩ : Boundary)]).foldl
      (HeuristicState.step p t cfg (first :: (init ++ [⟨t.length, 0⟩])))
      ⟨[], first.runeStart, first.runeStart⟩).curEnd = t.length := by
    rw [List.foldl_append, List.foldl_cons, List.foldl_nil]
    exact curEnd_step p t cfg _ _ _
  unfold packBlocks
  simp only [List.head?_cons, Option.map_some, Option.getD_some, List.drop_succ_cons,
    List.drop_zero]
  generalize (init ++ [(⟨t.length, 0⟩ : Boundary)]).foldl
    (HeuristicState.step p t cfg (first :: (init ++ [⟨t.length, 0⟩])))
    ⟨[], first.runeStart, first.runeStart⟩ = s at hdone hend
  rw [hend]
  have hle := hdone.le
  rw [hend] at hle
  split
  · exact emitted_appendChunk hdone.emitted (Nat.le_refl _) hle (Nat.le_refl _)
  · rename_i hempty
    have hfront := hdone.emitted
    rwa [show s.chunkStart = t.length by omega] at hfront

/-- The heuristic tier covers every position with ink. -/
theorem emitted_splitByHeuristics (text : Text) (cfg : SplitterConfig) :
    Emitted (Inked text) text text.length (splitByHeuristics p text cfg) := by
  have hlegacy : Emitted (Inked text) text text.length
      (splitText p text cfg.chunkSize cfg.chunkOverlap cfg.separators) := by
    have hall := emitted_splitText p text cfg.chunkSize cfg.chunkOverlap cfg.separators
    exact ⟨hall.numbered, hall.covers.weaken fun _ _ => trivial, hall.led⟩
  unfold splitByHeuristics
  split
  · rename_i hempty
    rw [List.isEmpty_iff.mp hempty]
    exact Emitted.nil _ _
  · split
    · exact hlegacy
    · dsimp only
      obtain ⟨hsorted, hbounds⟩ := heuristicBoundaries_positions p text cfg.languages
      split
      · exact hlegacy
      · rename_i hne
        have hkept : (dropBoundsInsideSpans (findHeuristicBoundaries p text cfg.languages)
            (protectedSpansRune text (protectedSpans p text))).Sublist
            (findHeuristicBoundaries p text cfg.languages) := List.filter_sublist
        obtain ⟨first, init, hclose, hfirst, hascending, hle⟩ := closeBounds_ascending
          (by simpa using hne) (hsorted.sublist (hkept.map _))
          (fun b hb => hbounds b (hkept.subset hb))
        rw [hclose]
        exact emitted_packBlocks p cfg hfirst hascending hle

end Chunker
end KnowledgeBrain
