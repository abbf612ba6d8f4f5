import KnowledgeBrain.Chunker.Merging
import Mathlib.Data.List.Chain

/-!
# Chunks as windows of the units

The units collected are always a window that ends at the last unit read, behind
at most one table header.  A chunk reaches back behind the end of the last one
by no more than the overlap, and a chunk that is too long is a single unit.
-/

namespace KnowledgeBrain
namespace Chunker

open Foundation MergeState

/-- The position behind some units. -/
def place (units : List SplitUnit) : Nat :=
  (unitsText units).length

@[simp]
theorem place_nil : place [] = 0 := rfl

@[simp]
theorem place_append (us vs : List SplitUnit) : place (us ++ vs) = place us + place vs := by
  simp [place]

@[simp]
theorem place_cons (u : SplitUnit) (us : List SplitUnit) :
    place (u :: us) = u.text.length + place us := by
  simp [place]

/-- The tracker once it has seen some units. -/
def trackUnits (p : Patterns) (units : List SplitUnit) : HeaderTracker :=
  units.foldl (fun ht u => ht.update p u.text) HeaderTracker.new

theorem trackUnits_concat (p : Patterns) (units : List SplitUnit) (u : SplitUnit) :
    trackUnits p (units ++ [u]) = (trackUnits p units).update p u.text := by
  unfold trackUnits
  rw [List.foldl_append]
  rfl

/-!
# The length of the overlap
-/

/-- Units with their length, within a bound. -/
structure Measured (bound : Nat) (units : List SplitUnit) (len : Nat) : Prop where
  counted : len = place units
  within : len ≤ bound

theorem overlapTail_measured (chunkOverlap chunkSize nextLen : Nat)
    (before kept : List SplitUnit) (overlapLen : Nat)
    (h : Measured chunkOverlap kept overlapLen)
    (hroom : kept = [] ∨ overlapLen + nextLen ≤ chunkSize) :
    Measured chunkOverlap (overlapTail chunkOverlap chunkSize nextLen before kept overlapLen).1
        (overlapTail chunkOverlap chunkSize nextLen before kept overlapLen).2 ∧
      ((overlapTail chunkOverlap chunkSize nextLen before kept overlapLen).1 = [] ∨
        (overlapTail chunkOverlap chunkSize nextLen before kept overlapLen).2 + nextLen ≤
          chunkSize) := by
  induction before generalizing kept overlapLen with
  | nil =>
      exact ⟨h, hroom⟩
  | cons u before ih =>
      simp only [overlapTail]
      split
      · exact ⟨h, hroom⟩
      · split
        · exact ⟨h, hroom⟩
        · rename_i hoverlap hsize
          apply ih
          · constructor
            · rw [place_cons, ← h.counted, Nat.add_comm]
            · exact Nat.le_of_not_lt hoverlap
          · exact Or.inr (Nat.le_of_not_lt hsize)

theorem trimOverlap_measured {bound : Nat} (kept : List SplitUnit) (overlapLen : Nat)
    (h : Measured bound kept overlapLen) :
    Measured bound (trimOverlap kept overlapLen).1 (trimOverlap kept overlapLen).2 ∧
      (trimOverlap kept overlapLen).2 ≤ overlapLen := by
  induction kept generalizing overlapLen with
  | nil =>
      constructor
      · constructor
        · rfl
        · exact Nat.zero_le bound
      · exact Nat.zero_le overlapLen
  | cons u rest ih =>
      simp only [trimOverlap]
      split
      · have hrest : Measured bound rest (overlapLen - u.text.length) := by
          have hcounted := h.counted
          have hwithin := h.within
          rw [place_cons] at hcounted
          constructor
          · omega
          · omega
        rcases ih (overlapLen - u.text.length) hrest with ⟨hmeasured, hle⟩
        constructor
        · exact hmeasured
        · exact Nat.le_trans hle (Nat.sub_le overlapLen u.text.length)
      · constructor
        · exact h
        · exact Nat.le_refl overlapLen

/-- The overlap is counted, is within its bound, and leaves room for the unit. -/
theorem computeOverlap_measured (current : List SplitUnit)
    (chunkOverlap chunkSize nextLen : Nat) :
    Measured chunkOverlap (computeOverlap current chunkOverlap chunkSize nextLen).1
        (computeOverlap current chunkOverlap chunkSize nextLen).2 ∧
      ((computeOverlap current chunkOverlap chunkSize nextLen).1 = [] ∨
        (computeOverlap current chunkOverlap chunkSize nextLen).2 + nextLen ≤ chunkSize) := by
  unfold computeOverlap
  split
  · constructor
    · constructor
      · rfl
      · exact Nat.zero_le chunkOverlap
    · exact Or.inl rfl
  · have hstart : Measured chunkOverlap [] 0 := ⟨rfl, Nat.zero_le chunkOverlap⟩
    rcases overlapTail_measured chunkOverlap chunkSize nextLen current.reverse [] 0 hstart
      (Or.inl rfl) with ⟨htail, hroom⟩
    dsimp only
    generalize overlapTail chunkOverlap chunkSize nextLen current.reverse [] 0 = tail at htail hroom
    rcases trimOverlap_measured tail.1 tail.2 htail with ⟨htrim, hle⟩
    constructor
    · exact htrim
    · rcases hroom with hnone | hroom
      · left
        rw [hnone]
        rfl
      · right
        omega

theorem shrink_measured (chunkSize extra : Nat) (current : List SplitUnit) (curLen : Nat)
    (hcounted : curLen = place current) :
    (shrink chunkSize extra current curLen).2 =
        place (shrink chunkSize extra current curLen).1 ∧
      ((shrink chunkSize extra current curLen).1 = [] ∨
        (shrink chunkSize extra current curLen).2 + extra ≤ chunkSize) := by
  induction current generalizing curLen with
  | nil =>
      exact ⟨hcounted, Or.inl rfl⟩
  | cons u rest ih =>
      simp only [shrink]
      split
      · apply ih
        rw [hcounted, place_cons, Nat.add_sub_cancel_left]
      · rename_i hfits
        exact ⟨hcounted, Or.inr (Nat.le_of_not_lt hfits)⟩

/-- No subtraction of the loop that drops units takes more than there is. -/
def ShrinkExact (chunkSize extra : Nat) : List SplitUnit -> Nat -> Prop
  | [], _ => True
  | u :: rest, curLen =>
      chunkSize < curLen + extra ->
        u.text.length ≤ curLen ∧ ShrinkExact chunkSize extra rest (curLen - u.text.length)

theorem shrinkExact_of_counted (chunkSize extra : Nat) (current : List SplitUnit) (curLen : Nat)
    (hcounted : curLen = place current) : ShrinkExact chunkSize extra current curLen := by
  induction current generalizing curLen with
  | nil =>
      trivial
  | cons u rest ih =>
      intro _
      rw [place_cons] at hcounted
      constructor
      · omega
      · apply ih
        omega

/-!
# Forced pieces
-/

theorem forcedEnd_le_cap (runes : Text) (offset : Nat) :
    forcedEnd runes offset ≤ offset + hardCap := by
  unfold forcedEnd
  dsimp only
  split
  · split
    · rename_i i hsnap
      have hmem := List.mem_of_find?_eq_some hsnap
      rw [List.mem_reverse, List.mem_range'_1] at hmem
      omega
    · exact Nat.min_le_left _ _
  · exact Nat.min_le_left _ _

theorem forcePieces_within (runes : Text) (base fuel offset : Nat) :
    forall piece, piece ∈ forcePieces runes base fuel offset ->
      piece.text.length ≤ hardCap := by
  induction fuel generalizing offset with
  | zero =>
      intro piece hmem
      cases hmem
  | succ fuel ih =>
      intro piece hmem
      simp only [forcePieces] at hmem
      split at hmem
      · rename_i hoffset
        rcases List.mem_cons.mp hmem with rfl | hmem
        · show (slice runes offset (forcedEnd runes offset)).length ≤ hardCap
          rw [length_slice (forcedEnd_bounds hoffset).2]
          have hcap := forcedEnd_le_cap runes offset
          omega
        · exact ih _ piece hmem
      · cases hmem

theorem forceSplitRunes_within (text : Text) (base : Nat) :
    forall piece, piece ∈ forceSplitRunes text base -> piece.text.length ≤ hardCap :=
  forcePieces_within text base text.length 0

/-!
# Chunks one after the other
-/

/-- Chunks that are made one after the other, each with the end of the one
before it, or the start of the text. -/
inductive Emission (R : Nat -> TextChunk -> Prop) : List TextChunk -> Nat -> Prop where
  | nil : Emission R [] 0
  | push {chunks : List TextChunk} {front : Nat} {c : TextChunk} :
      Emission R chunks front -> R front c -> c.seq = chunks.length ->
        Emission R (chunks ++ [c]) c.stop

namespace Emission

variable {R : Nat -> TextChunk -> Prop} {chunks : List TextChunk} {front : Nat}

theorem front_eq (h : Emission R chunks front) : (chunks = [] ∧ front = 0) ∨
    exists prev, prev ∈ chunks ∧ prev.seq + 1 = chunks.length ∧ prev.stop = front := by
  cases h with
  | nil =>
      exact Or.inl ⟨rfl, rfl⟩
  | @push chunks front c hbefore hmade hseq =>
      refine Or.inr ⟨c, List.mem_append_right chunks List.mem_cons_self, ?_, rfl⟩
      rw [hseq, List.length_append, List.length_singleton]

/-- A chunk was made behind the chunk before it, or at the start. -/
theorem made (h : Emission R chunks front) : forall c, c ∈ chunks -> exists before,
    R before c ∧ ((c.seq = 0 ∧ before = 0) ∨ exists prev, prev ∈ chunks ∧
      prev.seq + 1 = c.seq ∧ prev.stop = before) := by
  induction h with
  | nil =>
      intro c hmem
      cases hmem
  | @push chunks front c hbefore hmade hseq ih =>
      intro d hmem
      rcases List.mem_append.mp hmem with hold | hnew
      · rcases ih d hold with ⟨before, hR, hprev⟩
        refine ⟨before, hR, ?_⟩
        rcases hprev with hzero | ⟨prev, hprev, hnumber, hstop⟩
        · exact Or.inl hzero
        · exact Or.inr ⟨prev, List.mem_append_left [c] hprev, hnumber, hstop⟩
      · cases List.mem_singleton.mp hnew
        refine ⟨front, hmade, ?_⟩
        rcases hbefore.front_eq with ⟨rfl, hzero⟩ | ⟨prev, hprev, hnumber, hstop⟩
        · exact Or.inl ⟨hseq, hzero⟩
        · refine Or.inr ⟨prev, List.mem_append_left [c] hprev, ?_, hstop⟩
          rw [hnumber, hseq]

theorem neighbours (h : Emission R chunks front) :
    List.IsChain (fun prev c => R prev.stop c) chunks ∧
      forall last, chunks.getLast? = some last -> last.stop = front := by
  induction h with
  | nil =>
      constructor
      · exact List.IsChain.nil
      · intro last hlast
        cases hlast
  | @push chunks front c hbefore hmade hseq ih =>
      rcases ih with ⟨hchain, hfront⟩
      constructor
      · rw [List.isChain_append]
        refine ⟨hchain, List.IsChain.singleton c, ?_⟩
        intro last hlast d hd
        cases hd
        rw [hfront last hlast]
        exact hmade
      · intro last hlast
        rw [List.getLast?_append] at hlast
        cases hlast
        rfl

theorem mono {R' : Nat -> TextChunk -> Prop} (himp : forall front c, R front c -> R' front c)
    (h : Emission R chunks front) : Emission R' chunks front := by
  induction h with
  | nil =>
      exact Emission.nil
  | push _ hmade hseq ih =>
      exact Emission.push ih (himp _ _ hmade) hseq

end Emission

/-!
# The budget of a chunk

What the merging loop keeps: the units collected are a window behind at most one
header, their length is known, and they fit beside the next unit.  A header is
put in front of the overlap before the cap is looked at, so that only such a
group can be longer than the cap.
-/

section Budget

variable (p : Patterns) (chunkSize chunkOverlap : Nat) (units : List SplitUnit)

/-- The header that is active at the unit that starts at a position. -/
def ActiveAt (front : Nat) (header : Text) : Prop :=
  exists before u after, units = before ++ u :: after ∧ u.start = front ∧
    header = (trackUnits p (before ++ [u])).getHeaders ∧ header.length ≤ chunkSize

/-- A unit that is pushed whole, or a slice of one that is longer than the cap. -/
def Atom (u : SplitUnit) : Prop :=
  (u ∈ units ∧ u.text.length ≤ hardCap) ∨
    exists whole, whole ∈ units ∧ hardCap < whole.text.length ∧
      u ∈ forceSplitRunes whole.text whole.start

namespace MergeState

/-- The state in which the cap is looked at: the table has been watched, and a
full group has been closed and the next one opened. -/
def opening (s : MergeState) (u : SplitUnit) : MergeState :=
  let s := { s with ht := s.ht.update p u.text }
  let s := if s.ht.headerEndedThisUnit then s.flushNonempty else s
  overflow p chunkSize chunkOverlap (usableHeaders chunkSize s.ht) u s

theorem mergeUnit_eq (u : SplitUnit) (s : MergeState) :
    mergeUnit p chunkSize chunkOverlap u s =
      push u (capCurrent u (opening p chunkSize chunkOverlap s u)) := rfl

/-- The state after some units. -/
def after (before : List SplitUnit) : MergeState :=
  before.foldl (step p chunkSize chunkOverlap) start

end MergeState

/-- A header in front of the overlap makes a group that is longer than the cap. -/
def OverfullHead : Prop :=
  exists before u rest, units = before ++ u :: rest ∧ u.text.length ≤ hardCap ∧
    hardCap < (opening p chunkSize chunkOverlap
      (MergeState.after p chunkSize chunkOverlap before) u).curLen

/-- How a chunk is made behind the end of the chunk before it. -/
structure Made (front : Nat) (c : TextChunk) : Prop where
  content : exists header, c.content = header ++ slice (unitsText units) c.start c.stop ∧
    (header = [] ∨ ActiveAt p chunkSize units front header)
  start_le : c.start ≤ front
  reuse : front ≤ c.start + chunkOverlap
  le_stop : front ≤ c.stop
  long : chunkSize < c.content.length -> c.start = front ∧ exists u, Atom units u ∧
    c.content = u.text ∧ c.start = u.start ∧ c.stop = u.stop
  cap : c.content.length ≤ hardCap ∨ OverfullHead p chunkSize chunkOverlap units

/-- The units collected: a window up to the last unit read, behind a header
perhaps, opened at `front`. -/
structure Group (pre : List SplitUnit) (front : Nat) (current : List SplitUnit) (curLen : Nat) :
    Prop where
  window : exists before header run, pre = before ++ run ∧ current = header ++ run ∧
    (header = [] ∨ exists text, header = [⟨text, place before, place before⟩] ∧
      ActiveAt p chunkSize units front text) ∧
    place before ≤ front ∧ front ≤ place before + chunkOverlap ∧
    (chunkSize < curLen -> header = [] ∧ place before = front ∧
      exists u, run = [u] ∧ u.text.length ≤ hardCap)
  le_place : front ≤ place pre
  counted : curLen = place current

end Budget

section Groups

variable {p : Patterns} {chunkSize chunkOverlap : Nat} {units : List SplitUnit}

theorem group_nil (pre : List SplitUnit) :
    Group p chunkSize chunkOverlap units pre (place pre) [] 0 where
  window := by
    refine ⟨pre, [], [], by simp, rfl, Or.inl rfl, Nat.le_refl _, Nat.le_add_right _ _, ?_⟩
    intro hlong
    exact absurd hlong (Nat.not_lt_zero chunkSize)
  le_place := Nat.le_refl _
  counted := rfl

theorem Group.front_of_nil {pre : List SplitUnit} {front curLen : Nat}
    (h : Group p chunkSize chunkOverlap units pre front [] curLen) : front = place pre := by
  rcases h.window with ⟨before, header, run, rfl, hcurrent, _, hle, _, _⟩
  rcases List.append_eq_nil_iff.mp hcurrent.symm with ⟨_, rfl⟩
  have hplace := h.le_place
  simp only [List.append_nil] at hplace
  rw [List.append_nil]
  exact Nat.le_antisymm hplace hle

/-- Where the chunk of a window behind a header starts and ends. -/
theorem buildChunk_ends {before header run : List SplitUnit} (hlaid : Laid (place before) run)
    (hheader : header = [] ∨ exists text, header = [⟨text, place before, place before⟩])
    (hne : header ++ run ≠ []) (seq : Nat) :
    (buildChunk (header ++ run) seq).start = place before ∧
      (buildChunk (header ++ run) seq).stop = place (before ++ run) := by
  cases run with
  | nil =>
      rcases hheader with rfl | ⟨text, rfl⟩
      · exact absurd rfl hne
      · rw [List.append_nil before]
        exact ⟨rfl, rfl⟩
  | cons u run =>
      constructor
      · rcases hheader with rfl | ⟨text, rfl⟩
        · exact hlaid.1
        · rfl
      · have hlast : (u :: run).getLast? = some ((u :: run).getLast (List.cons_ne_nil u run)) :=
          List.getLast?_eq_some_getLast (List.cons_ne_nil u run)
        have hends := hlaid.ends _ hlast
        have hwhole : (header ++ u :: run).getLast? =
            some ((u :: run).getLast (List.cons_ne_nil u run)) := by
          rw [List.getLast?_append, hlast]
          rfl
        simp only [buildChunk, hwhole, Option.map_some, Option.getD_some]
        rw [hends, place_append]
        rfl

theorem laid_window {before run rest : List SplitUnit} (hunits : units = before ++ run ++ rest)
    (hlaid : Laid 0 units) : Laid (place before) run := by
  rw [hunits, List.append_assoc] at hlaid
  have hparts := (laid_append.mp (laid_append.mp hlaid).2).1
  rw [Nat.zero_add] at hparts
  exact hparts

variable {pre rest : List SplitUnit}

theorem Group.ends {front curLen : Nat} {current : List SplitUnit}
    (h : Group p chunkSize chunkOverlap units pre front current curLen)
    (hunits : units = pre ++ rest) (hlaid : Laid 0 units) (hne : current ≠ []) (seq : Nat) :
    exists before run, pre = before ++ run ∧ (buildChunk current seq).start = place before ∧
      place before ≤ front ∧ (buildChunk current seq).stop = place pre := by
  rcases h.window with ⟨before, header, run, rfl, rfl, hheader, hlow, _, _⟩
  have hshape : header = [] ∨ exists text, header = [⟨text, place before, place before⟩] :=
    hheader.imp id fun ⟨text, heq, _⟩ => ⟨text, heq⟩
  rcases buildChunk_ends (laid_window hunits hlaid) hshape hne seq with ⟨hstart, hstop⟩
  exact ⟨before, run, rfl, hstart, hlow, hstop⟩

/-- The chunk of a group of units. -/
theorem Group.made {front curLen : Nat} {current : List SplitUnit}
    (h : Group p chunkSize chunkOverlap units pre front current curLen)
    (hunits : units = pre ++ rest) (hlaid : Laid 0 units) (hne : current ≠ []) (seq : Nat)
    (hcap : curLen ≤ hardCap ∨ OverfullHead p chunkSize chunkOverlap units) :
    Made p chunkSize chunkOverlap units front (buildChunk current seq) ∧
      (buildChunk current seq).stop = place pre := by
  have hcounted := h.counted
  have hplace := h.le_place
  rcases h.window with ⟨before, header, run, rfl, rfl, hheader, hlow, hhigh, hlong⟩
  have hshape : header = [] ∨ exists text, header = [⟨text, place before, place before⟩] :=
    hheader.imp id fun ⟨text, heq, _⟩ => ⟨text, heq⟩
  rcases buildChunk_ends (laid_window hunits hlaid) hshape hne seq with ⟨hstart, hstop⟩
  have hslice : slice (unitsText units) (place before) (place (before ++ run)) =
      unitsText run := by
    have hright := slice_append_right (unitsText before) (unitsText run ++ unitsText rest) 0
      (unitsText run).length
    rw [slice_append_left (unitsText rest) (Nat.le_refl _), slice_all, Nat.add_zero] at hright
    rw [hunits, List.append_assoc, unitsText_append, unitsText_append, place_append]
    exact hright
  have hcontent : (buildChunk (header ++ run) seq).content.length = curLen := by
    rw [hcounted]
    rfl
  constructor
  · constructor
    · refine ⟨unitsText header, ?_, ?_⟩
      · rw [hstart, hstop, hslice]
        exact unitsText_append header run
      · rcases hheader with rfl | ⟨text, rfl, hactive⟩
        · exact Or.inl rfl
        · right
          simpa using hactive
    · rw [hstart]
      exact hlow
    · rw [hstart]
      exact hhigh
    · rw [hstop]
      exact hplace
    · intro hover
      rw [hcontent] at hover
      rcases hlong hover with ⟨rfl, hfront, u, rfl, hsize⟩
      constructor
      · rw [hstart, hfront]
      · refine ⟨u, Or.inl ⟨?_, hsize⟩, ?_, rfl, rfl⟩
        · rw [hunits]
          simp
        · simp [buildChunk]
    · rw [hcontent]
      exact hcap
  · exact hstop

/-!
# The invariant of the loop
-/

/-- The state after the units `pre`. -/
structure Loop (p : Patterns) (chunkSize chunkOverlap : Nat) (units pre : List SplitUnit)
    (front : Nat) (s : MergeState) : Prop where
  tracked : s.ht = trackUnits p pre
  emitted : Emission (Made p chunkSize chunkOverlap units) s.chunks front
  group : Group p chunkSize chunkOverlap units pre front s.current s.curLen
  capped : s.curLen ≤ hardCap

variable {s : MergeState}

/-- The group can be closed, and then everything read is in chunks. -/
theorem flushNonempty_emitted {front : Nat}
    (hemitted : Emission (Made p chunkSize chunkOverlap units) s.chunks front)
    (hgroup : Group p chunkSize chunkOverlap units pre front s.current s.curLen)
    (hcap : s.curLen ≤ hardCap ∨ OverfullHead p chunkSize chunkOverlap units)
    (hunits : units = pre ++ rest) (hlaid : Laid 0 units) :
    Emission (Made p chunkSize chunkOverlap units) s.flushNonempty.chunks (place pre) ∧
      s.flushNonempty.current = [] ∧ s.flushNonempty.curLen = 0 := by
  unfold flushNonempty
  split
  · rename_i hempty
    have hnil : s.current = [] := List.isEmpty_iff.mp hempty
    have hcounted := hgroup.counted
    rw [hnil] at hgroup hcounted
    rw [← hgroup.front_of_nil]
    exact ⟨hemitted, hnil, hcounted⟩
  · rename_i hfull
    have hne : s.current ≠ [] := by
      simpa using hfull
    rcases hgroup.made hunits hlaid hne s.chunks.length hcap with ⟨hmade, hstop⟩
    refine ⟨?_, rfl, rfl⟩
    have hpush := Emission.push hemitted hmade rfl
    rw [hstop] at hpush
    exact hpush

/-- Before a unit is pushed there is room for it, or nothing is collected. -/
structure Ready (p : Patterns) (chunkSize chunkOverlap : Nat) (units pre : List SplitUnit)
    (u : SplitUnit) (front : Nat) (s : MergeState) : Prop where
  emitted : Emission (Made p chunkSize chunkOverlap units) s.chunks front
  group : Group p chunkSize chunkOverlap units pre front s.current s.curLen
  room : s.current = [] ∨ s.curLen + u.text.length ≤ chunkSize

variable {u : SplitUnit}

theorem Ready.push {pre : List SplitUnit} {front : Nat}
    (h : Ready p chunkSize chunkOverlap units pre u front s) (hsize : u.text.length ≤ hardCap) :
    Group p chunkSize chunkOverlap units (pre ++ [u]) front (MergeState.push u s).current
      (MergeState.push u s).curLen := by
  have hcounted := h.group.counted
  have hplace := h.group.le_place
  constructor
  · rcases h.group.window with ⟨before, header, run, rfl, hcurrent, hheader, hlow, hhigh, _⟩
    refine ⟨before, header, run ++ [u], ?_, ?_, hheader, hlow, hhigh, ?_⟩
    · rw [List.append_assoc]
    · show s.current ++ [u] = header ++ (run ++ [u])
      rw [hcurrent, List.append_assoc]
    · intro hlong
      have hnil : s.current = [] := by
        rcases h.room with hnil | hroom
        · exact hnil
        · exact absurd hlong (Nat.not_lt.mpr hroom)
      rw [hcurrent] at hnil
      rcases List.append_eq_nil_iff.mp hnil with ⟨rfl, rfl⟩
      rw [List.append_nil] at hplace
      exact ⟨rfl, Nat.le_antisymm hlow hplace, u, rfl, hsize⟩
  · rw [place_append]
    exact Nat.le_trans hplace (Nat.le_add_right _ _)
  · show s.curLen + u.text.length = place (s.current ++ [u])
    rw [place_append, ← hcounted]
    simp

/-!
# Opening the next group
-/

theorem injectHeader_ready {headers : Text} {front : Nat} (hunits : units = pre ++ u :: rest)
    (hlaid : Laid 0 units) (hheaders : headers = [] ∨ ActiveAt p chunkSize units front headers)
    (hemitted : Emission (Made p chunkSize chunkOverlap units) s.chunks front)
    (hfront : front = place pre)
    (hwindow : exists before, pre = before ++ s.current ∧ front ≤ place before + chunkOverlap)
    (hcounted : s.curLen = place s.current)
    (hroom : s.current = [] ∨ s.curLen + u.text.length ≤ chunkSize) :
    Ready p chunkSize chunkOverlap units pre u front
      (injectHeader p chunkSize headers u s) := by
  have hgroup : forall (header run : List SplitUnit) (before : List SplitUnit) (curLen : Nat),
      pre = before ++ run -> front ≤ place before + chunkOverlap ->
      (header = [] ∨ exists text, header = [⟨text, place before, place before⟩] ∧
        ActiveAt p chunkSize units front text) ->
      curLen = place (header ++ run) -> (header ++ run = [] ∨ curLen ≤ chunkSize) ->
      Group p chunkSize chunkOverlap units pre front (header ++ run) curLen := by
    intro header run before curLen hpre hreuse hheader hcount hfits
    constructor
    · refine ⟨before, header, run, hpre, rfl, hheader, ?_, hreuse, ?_⟩
      · rw [hfront, hpre, place_append]
        exact Nat.le_add_right _ _
      · intro hlong
        exfalso
        rcases hfits with hnil | hfits
        · rw [hnil] at hcount
          rw [hcount] at hlong
          exact absurd hlong (Nat.not_lt_zero chunkSize)
        · exact absurd hlong (Nat.not_lt.mpr hfits)
    · exact Nat.le_of_eq hfront
    · exact hcount
  have hstart : u.start = place pre := by
    rw [hunits] at hlaid
    have hrest := (laid_append.mp hlaid).2
    rw [Nat.zero_add] at hrest
    exact hrest.1
  rcases hwindow with ⟨before, hpre, hreuse⟩
  have hplain : Ready p chunkSize chunkOverlap units pre u front s := by
    constructor
    · exact hemitted
    · apply hgroup [] s.current before s.curLen hpre hreuse (Or.inl rfl) hcounted
      rcases hroom with hnil | hroom
      · exact Or.inl hnil
      · exact Or.inr (Nat.le_trans (Nat.le_add_right _ _) hroom)
    · exact hroom
  unfold injectHeader
  split
  · rename_i hfits
    rw [Bool.and_eq_true, decide_eq_true_eq] at hfits
    have hactive : ActiveAt p chunkSize units front headers := by
      rcases hheaders with rfl | hactive
      · cases hfits.1
      · exact hactive
    have hsuffix := shrink_suffix chunkSize (u.text.length + headers.length) s.current s.curLen
    rcases shrink_measured chunkSize (u.text.length + headers.length) s.current s.curLen hcounted
      with ⟨hkeptCount, hkeptRoom⟩
    dsimp only
    generalize shrink chunkSize (u.text.length + headers.length) s.current s.curLen =
      kept at hsuffix hkeptCount hkeptRoom
    rcases kept with ⟨run, runLen⟩
    dsimp only at hsuffix hkeptCount hkeptRoom ⊢
    rcases hsuffix with ⟨dropped, hdropped⟩
    have hpre' : pre = (before ++ dropped) ++ run := by
      rw [List.append_assoc, hdropped]
      exact hpre
    have hreuse' : front ≤ place (before ++ dropped) + chunkOverlap := by
      rw [place_append]
      omega
    have hlen : runLen + (u.text.length + headers.length) ≤ chunkSize := by
      rcases hkeptRoom with hnil | hroom
      · rw [hnil] at hkeptCount
        rw [hkeptCount, place_nil]
        omega
      · exact hroom
    split
    · have hpos : (run.head?.map SplitUnit.start).getD u.start = place (before ++ dropped) := by
        cases run with
        | nil =>
            rw [List.append_nil] at hpre'
            rw [← hpre']
            exact hstart
        | cons v run =>
            rw [hpre'] at hunits
            exact (laid_window hunits hlaid).1
      have hcount : runLen + headers.length =
          place ([⟨headers, place (before ++ dropped), place (before ++ dropped)⟩] ++ run) := by
        rw [hkeptCount, List.singleton_append, place_cons, Nat.add_comm]
      constructor
      · exact hemitted
      · rw [hpos]
        apply hgroup [⟨headers, place (before ++ dropped), place (before ++ dropped)⟩] run
          (before ++ dropped) (runLen + headers.length) hpre' hreuse'
        · exact Or.inr ⟨headers, rfl, hactive⟩
        · exact hcount
        · exact Or.inr (by omega)
      · right
        show runLen + headers.length + u.text.length ≤ chunkSize
        omega
    · constructor
      · exact hemitted
      · apply hgroup [] run (before ++ dropped) runLen hpre' hreuse' (Or.inl rfl) hkeptCount
        exact Or.inr (by omega)
      · right
        show runLen + u.text.length ≤ chunkSize
        omega
  · exact hplain

theorem overflow_ready {headers : Text} {front : Nat} (hunits : units = pre ++ u :: rest)
    (hlaid : Laid 0 units)
    (hheaders : headers = [] ∨ ActiveAt p chunkSize units (place pre) headers)
    (hemitted : Emission (Made p chunkSize chunkOverlap units) s.chunks front)
    (hgroup : Group p chunkSize chunkOverlap units pre front s.current s.curLen)
    (hcap : s.curLen ≤ hardCap) :
    exists front', Ready p chunkSize chunkOverlap units pre u front'
      (overflow p chunkSize chunkOverlap headers u s) := by
  unfold overflow
  split
  · rename_i hfull
    rw [Bool.and_eq_true, decide_eq_true_eq] at hfull
    have hne : s.current ≠ [] := by
      simpa using hfull.2
    rcases hgroup.made hunits hlaid hne s.chunks.length (Or.inl hcap) with ⟨hmade, hstop⟩
    have hpush := Emission.push hemitted hmade rfl
    rw [hstop] at hpush
    rcases computeOverlap_suffix s.current chunkOverlap chunkSize u.text.length with
      ⟨hsuffix, hhead⟩
    rcases computeOverlap_measured s.current chunkOverlap chunkSize u.text.length with
      ⟨hmeasured, hroom⟩
    dsimp only
    generalize computeOverlap s.current chunkOverlap chunkSize u.text.length = kept
      at hsuffix hhead hmeasured hroom
    rcases kept with ⟨ov, ovLen⟩
    dsimp only at hsuffix hhead hmeasured hroom ⊢
    refine ⟨place pre, ?_⟩
    apply injectHeader_ready hunits hlaid hheaders hpush rfl
    · show exists before, pre = before ++ ov ∧ place pre ≤ place before + chunkOverlap
      rcases hgroup.window with ⟨before, header, run, hpre, hcurrent, hheader, _, _, _⟩
      have hrun : ov <:+ run := by
        rw [hcurrent] at hsuffix
        rcases hheader with rfl | ⟨text, rfl, _⟩
        · exact hsuffix
        · rw [List.singleton_append, List.suffix_cons_iff] at hsuffix
          rcases hsuffix with rfl | hrun
          · exact absurd rfl (hhead _ rfl)
          · exact hrun
      rcases hrun with ⟨dropped, rfl⟩
      refine ⟨before ++ dropped, ?_, ?_⟩
      · rw [hpre, List.append_assoc]
      · rw [hpre, ← List.append_assoc, place_append (before ++ dropped) ov, ← hmeasured.counted]
        exact Nat.add_le_add_left hmeasured.within _
    · exact hmeasured.counted
    · exact hroom
  · rename_i hfits
    refine ⟨front, hemitted, hgroup, ?_⟩
    by_cases hnil : s.current = []
    · exact Or.inl hnil
    · right
      by_contra hlong
      apply hfits
      rw [Bool.and_eq_true, decide_eq_true_eq]
      constructor
      · omega
      · simpa using hnil

end Groups

end Chunker
end KnowledgeBrain
