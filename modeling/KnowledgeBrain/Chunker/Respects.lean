import KnowledgeBrain.Chunker.Carrying
import KnowledgeBrain.Chunker.Overlaps

/-!
# The heuristic tier goes on

Where a chunk is closed, the overlap must start behind its start, and the next
chunk must end behind its end; an oversize block is left to the recursive
splitter.
-/

namespace KnowledgeBrain
namespace Chunker

open Foundation HeuristicState

/-!
# Blank slices
-/

theorem isBlank_of_whitespace {t : Text} (h : forall c, c ∈ t -> isWhitespace c = true) :
    isBlank t = true := by
  have hlead : t.dropWhile isWhitespace = [] := List.dropWhile_eq_nil_iff.mpr h
  unfold isBlank trim
  rw [hlead]
  rfl

theorem isBlank_slice_mono {t : Text} {a b a' b' : Nat} (ha : a ≤ a') (hb : b' ≤ b)
    (h : isBlank (slice t a b) = true) : isBlank (slice t a' b') = true := by
  apply isBlank_of_whitespace
  intro c hmem
  apply whitespace_of_isBlank h c
  unfold slice at hmem ⊢
  rcases Nat.le.dest ha with ⟨n, rfl⟩
  rw [← List.drop_drop] at hmem
  have hdrop := List.mem_of_mem_drop hmem
  have htake : t.take b' = (t.take b).take b' := by
    rw [List.take_take, Nat.min_eq_left hb]
  rw [htake, List.drop_take] at hdrop
  exact List.mem_of_mem_take hdrop

theorem lt_of_not_blank {t : Text} {a b : Nat} (h : isBlank (slice t a b) = false) : a < b := by
  apply Nat.lt_of_not_le
  intro hle
  have hempty : slice t a b = [] := by
    unfold slice
    apply List.drop_eq_nil_of_le
    rw [List.length_take]
    omega
  rw [hempty] at h
  cases h

/-!
# Bounded texts
-/

/-- Boundaries that start at zero, end with the text and ascend, strictly but
for the last. -/
structure WellBounded (t : Text) (bounds : List Boundary) : Prop where
  nonempty : bounds ≠ []
  zero : (bounds.head?.map Boundary.runeStart).getD 0 = 0
  ascending : Ascending 0 (bounds.drop 1)
  within : forall b, b ∈ bounds.drop 1 -> b.runeStart ≤ t.length

theorem closeBounds_wellBounded (p : Patterns) (text : Text) (langs : List String)
    (spans : List Span)
    (hne : dropBoundsInsideSpans (findHeuristicBoundaries p text langs) spans ≠ []) :
    WellBounded text (closeBounds text.length
      (dropBoundsInsideSpans (findHeuristicBoundaries p text langs) spans)) := by
  rcases heuristicBoundaries_positions p text langs with ⟨hsorted, hbounds⟩
  have hkept : (dropBoundsInsideSpans (findHeuristicBoundaries p text langs) spans).Sublist
      (findHeuristicBoundaries p text langs) := List.filter_sublist
  rcases closeBounds_ascending hne (hsorted.sublist (hkept.map _))
    (fun b hb => hbounds b (hkept.subset hb)) with ⟨first, init, hclose, hfirst, hascending, hle⟩
  rw [hclose]
  exact ⟨List.cons_ne_nil _ _, hfirst, hascending, hle⟩

section Runs

variable {p : Patterns} {t : Text} {cfg : SplitterConfig} {bounds : List Boundary}

/-- The invariant of the packing loop, before the boundaries that are left. -/
theorem packing_after (hbounds : WellBounded t bounds) (before : List Boundary) :
    forall rest, bounds.drop 1 = before ++ rest ->
      Packing t bounds rest (after p t cfg bounds before) := by
  induction before using List.reverseRecOn with
  | nil =>
      intro rest hrest
      have hascending := hbounds.ascending
      rw [hrest, List.nil_append] at hascending
      cases bounds with
      | nil =>
          exact absurd rfl hbounds.nonempty
      | cons first more =>
          have hzero : first.runeStart = 0 := hbounds.zero
          show Packing t (first :: more) rest ⟨[], first.runeStart, first.runeStart⟩
          rw [hzero]
          exact ⟨Nat.le_refl _, Nat.zero_le _, ⟨first, List.mem_cons_self, hzero⟩, hascending,
            Or.inr (Or.inl rfl), Emitted.nil _ _⟩
  | append_singleton before b ih =>
      intro rest hrest
      rw [List.append_assoc, List.singleton_append] at hrest
      have hmem : b ∈ bounds.drop 1 := by
        rw [hrest]
        exact List.mem_append_right _ List.mem_cons_self
      rw [after_concat]
      exact packing_step p cfg (ih (b :: rest) hrest) (List.mem_of_mem_drop hmem)
        (hbounds.within b hmem)

/-!
# Chunks and their parts
-/

theorem strides_iff_span {chunks : List TextChunk} :
    Strides chunks <-> List.IsChain (fun m n : Span => m.start < n.start ∧ m.stop < n.stop)
      (chunks.map TextChunk.span) := by
  rw [List.isChain_map]
  exact Iff.rfl

theorem strides_relocate {seq base : Nat} {header : TextChunk -> Text} {subs : List TextChunk} :
    Strides (relocate seq base header subs) <-> Strides subs := by
  rw [strides_iff_span, span_relocate, List.isChain_map, strides_iff_span]
  apply List.IsChain.iff
  intro m n
  unfold Span.shift
  dsimp only
  omega

theorem strides_concat {chunks : List TextChunk} {c : TextChunk} (h : Strides chunks)
    (hlast : forall last, chunks.getLast? = some last ->
      last.start < c.start ∧ last.stop < c.stop) :
    Strides (chunks ++ [c]) :=
  isChain_concat h hlast

/-- The chunks out stride, and what is collected will stride over the last. -/
structure Behind (t : Text) (s : HeuristicState) : Prop where
  strides : Strides s.out
  range : forall last, s.out.getLast? = some last -> last.start < last.stop ∧ last.stop ≤ s.curEnd
  start : forall last, s.out.getLast? = some last -> last.start < s.chunkStart
  stop : forall last, s.out.getLast? = some last -> last.stop < s.curEnd ∨
    isBlank (slice t s.chunkStart s.curEnd) = true

variable {s : HeuristicState}

theorem Behind.close (h : Behind t s) :
    Strides (appendChunk t s.chunkStart s.curEnd s.out) ∧
      forall last, (appendChunk t s.chunkStart s.curEnd s.out).getLast? = some last ->
        last.start < last.stop ∧ last.stop ≤ s.curEnd := by
  rcases appendChunk_cases t s.chunkStart s.curEnd s.out with ⟨hopen, hink, heq⟩ | ⟨_, heq⟩
  · rw [heq]
    constructor
    · apply strides_concat h.strides
      intro last hlast
      refine ⟨h.start last hlast, ?_⟩
      rcases h.stop last hlast with hlt | hblank
      · exact hlt
      · rw [hblank] at hink
        cases hink
    · intro last hlast
      rw [List.getLast?_concat] at hlast
      cases hlast
      exact ⟨hopen, Nat.le_refl _⟩
  · rw [heq]
    exact ⟨h.strides, h.range⟩

/-- Nothing is closed; more is collected, perhaps from a later place on. -/
theorem Behind.collect {s' : HeuristicState} (h : Behind t s) (hout : s'.out = s.out)
    (hstart : s.chunkStart ≤ s'.chunkStart) (hend : s.curEnd ≤ s'.curEnd) : Behind t s' := by
  constructor
  · rw [hout]
    exact h.strides
  · intro last hlast
    rw [hout] at hlast
    have hold := h.range last hlast
    exact ⟨hold.1, Nat.le_trans hold.2 hend⟩
  · intro last hlast
    rw [hout] at hlast
    exact Nat.lt_of_lt_of_le (h.start last hlast) hstart
  · intro last hlast
    rw [hout] at hlast
    rcases h.stop last hlast with hlt | hblank
    · exact Or.inl (Nat.lt_of_lt_of_le hlt hend)
    · by_cases hgrows : s.curEnd < s'.curEnd
      · exact Or.inl (Nat.lt_of_le_of_lt (h.range last hlast).2 hgrows)
      · exact Or.inr (isBlank_slice_mono hstart (Nat.le_of_not_lt hgrows) hblank)

theorem strides_append_relocate {chunks subs : List TextChunk} {base : Nat} (seq : Nat)
    (header : TextChunk -> Text) (h : Strides chunks)
    (hlast : forall last, chunks.getLast? = some last -> last.start < last.stop ∧ last.stop ≤ base)
    (hsubs : Strides subs) (hranges : forall c, c ∈ subs -> c.start < c.stop) :
    Strides (chunks ++ relocate seq base header subs) := by
  apply List.isChain_append.mpr
  refine ⟨h, strides_relocate.mpr hsubs, ?_⟩
  intro last hmem d hd
  rcases hlast last hmem with ⟨hlow, hhigh⟩
  rcases mem_relocate (List.mem_of_mem_head? hd) with ⟨sub, hsub, _, hstart, hstop⟩
  have hrange := hranges sub hsub
  omega

/-- Where the last chunk ends that a block leaves behind. -/
theorem range_append_relocate {chunks : List TextChunk} {base stop : Nat} (seq : Nat)
    (header : TextChunk -> Text) (chunkSize chunkOverlap : Nat) (separators : List Text)
    (hbase : base ≤ stop) (hstop : stop ≤ t.length)
    (hlast : forall last, chunks.getLast? = some last -> last.start < last.stop ∧ last.stop ≤ base)
    (hranges : forall c, c ∈ splitText p (slice t base stop) chunkSize chunkOverlap separators ->
      c.start < c.stop) (last : TextChunk)
    (h : (chunks ++ relocate seq base header
      (splitText p (slice t base stop) chunkSize chunkOverlap separators)).getLast? = some last) :
    last.start < last.stop ∧ last.stop ≤ stop := by
  rw [List.getLast?_append] at h
  cases hsub : (relocate seq base header
      (splitText p (slice t base stop) chunkSize chunkOverlap separators)).getLast? with
  | none =>
      rw [hsub] at h
      have hold := hlast last h
      omega
  | some last' =>
      rw [hsub] at h
      cases h
      rcases mem_relocate (List.mem_of_getLast? hsub) with ⟨sub, hmem, _, hsubStart, hsubStop⟩
      have hpositive := hranges sub hmem
      have hwithin := ((emitted_splitText p (slice t base stop) chunkSize chunkOverlap
        separators).stop_le hmem).2
      rw [length_slice hstop] at hwithin
      omega

/-!
# The condition
-/

variable (t cfg bounds) in
/-- The blocks closed before a boundary are not a single one within twice the
overlap, and the boundary is behind their end unless the overlap is blank. -/
def CutsOnward (s : HeuristicState) (b : Boundary) : Prop :=
  Overruns cfg s b -> isBlank (slice t s.chunkStart s.curEnd) = false ->
    ¬ GoesBack bounds cfg.chunkOverlap s ∧
      (s.curEnd < b.runeStart ∨ forall i, OverlapStart t bounds s.curEnd cfg.chunkOverlap i ->
        isBlank (slice t i s.curEnd) = true)

variable (p t cfg bounds) in
/-- At every boundary the packing loop goes on. -/
def BlocksOnward : Prop :=
  forall before b rest, bounds.drop 1 = before ++ b :: rest ->
    (MeetsOversize cfg (after p t cfg bounds before) b ->
      SplitsOnward p cfg
        (slice t (after p t cfg bounds before).curEnd b.runeStart)) ∧
    CutsOnward t cfg bounds (after p t cfg bounds before) b

variable {b : Boundary}

theorem opened_block {rest : List Boundary} (hpacking : Packing t bounds (b :: rest) s)
    (hover : Overruns cfg s b) :
    exists k, k ∈ bounds ∧ s.chunkStart ≤ k.runeStart ∧ k.runeStart < s.curEnd := by
  have hmin := Nat.le_trans (Nat.le_max_right _ _) hover.2.2
  rcases hpacking.back with hnil | heq | hfound
  · cases hnil
  · omega
  · exact hfound

theorem overlap_between {rest : List Boundary} (hpacking : Packing t bounds (b :: rest) s)
    (hover : Overruns cfg s b) :
    s.chunkStart ≤ applyOverlapAligned t s.curEnd cfg.chunkOverlap bounds ∧
      applyOverlapAligned t s.curEnd cfg.chunkOverlap bounds ≤ s.curEnd :=
  applyOverlapAligned_bounds t cfg.chunkOverlap (opened_block hpacking hover)

/-- The overlap starts behind what is closed, and the next chunk ends behind its
end or has no text. -/
theorem cutsOnward_iff {rest : List Boundary} (hpacking : Packing t bounds (b :: rest) s) :
    CutsOnward t cfg bounds s b <->
      (Overruns cfg s b -> isBlank (slice t s.chunkStart s.curEnd) = false ->
        s.chunkStart < applyOverlapAligned t s.curEnd cfg.chunkOverlap bounds ∧
          (s.curEnd < b.runeStart ∨ isBlank (slice t
            (applyOverlapAligned t s.curEnd cfg.chunkOverlap bounds) b.runeStart) = true)) := by
  have hstart := overlapStart_aligned bounds cfg.chunkOverlap hpacking.stop
  have hnext := hpacking.ahead.1
  apply imp_congr_right
  intro hover
  apply imp_congr_right
  intro _
  apply and_congr (overlap_behind_iff (opened_block hpacking hover) hstart).symm
  constructor
  · rintro (hgrows | hblank)
    · exact Or.inl hgrows
    · by_cases hgrows : s.curEnd < b.runeStart
      · exact Or.inl hgrows
      · right
        rw [show b.runeStart = s.curEnd by omega]
        exact hblank _ hstart
  · rintro (hgrows | hblank)
    · exact Or.inl hgrows
    · right
      intro i hi
      rw [hi.unique hstart]
      exact isBlank_slice_mono (Nat.le_refl _) hnext hblank

variable {before rest : List Boundary}

theorem behind_step (hbounds : WellBounded t bounds) (hrest : bounds.drop 1 = before ++ b :: rest)
    (h : Behind t (after p t cfg bounds before))
    (honward : BlocksOnward p t cfg bounds) :
    Behind t (after p t cfg bounds (before ++ [b])) := by
  have hpacking := @packing_after p t cfg bounds hbounds before (b :: rest) hrest
  have hnext := hpacking.ahead.1
  have hstop : b.runeStart ≤ t.length := by
    apply hbounds.within
    rw [hrest]
    exact List.mem_append_right _ List.mem_cons_self
  rcases honward before b rest hrest with ⟨hblock, hcut⟩
  have hstep := step_cases p t cfg bounds
    (after p t cfg bounds before) b
  have hend := curEnd_step p t cfg bounds (after p t cfg bounds before) b
  rw [after_concat]
  generalize after p t cfg bounds before = s at *
  generalize step p t cfg bounds s b = s' at *
  rcases h.close with ⟨hclosed, hclosedRange⟩
  cases hstep with
  | oversize hlong hout hstart =>
      have hsplit := hblock hlong
      have hstrides := strides_append_relocate
        (appendChunk t s.chunkStart s.curEnd s.out).length (fun _ => []) hclosed hclosedRange
        ((splitText_strides_iff p cfg _).mpr hsplit) hsplit.advances.ranges
      have hrange : forall last, s'.out.getLast? = some last ->
          last.start < last.stop ∧ last.stop ≤ s'.curEnd := by
        intro last hlast
        rw [hout] at hlast
        rw [hend]
        exact range_append_relocate _ _ _ _ _ hnext hstop hclosedRange hsplit.advances.ranges
          last hlast
      constructor
      · rw [hout]
        exact hstrides
      · exact hrange
      · intro last hlast
        have hlow := hrange last hlast
        rw [hstart, ← hend]
        omega
      · intro last _
        right
        rw [hstart, hend, slice_self]
        rfl
  | closed hover hout hstart =>
      rcases overlap_between hpacking hover with ⟨hlow, _⟩
      rcases appendChunk_cases t s.chunkStart s.curEnd s.out with ⟨hopen, hink, heq⟩ | ⟨_, heq⟩
      · rcases (cutsOnward_iff hpacking).mp hcut hover hink with ⟨hbehind, hfar⟩
        rw [heq] at hout
        have hlast' : forall last, s'.out.getLast? = some last ->
            last.start = s.chunkStart ∧ last.stop = s.curEnd := by
          intro last hlast
          rw [hout, List.getLast?_concat] at hlast
          cases hlast
          exact ⟨rfl, rfl⟩
        constructor
        · rw [hout, ← heq]
          exact hclosed
        · intro last hlast
          rcases hlast' last hlast with ⟨hs, he⟩
          omega
        · intro last hlast
          rcases hlast' last hlast with ⟨hs, _⟩
          rw [hs, hstart]
          exact hbehind
        · intro last hlast
          rcases hlast' last hlast with ⟨_, he⟩
          rw [he, hend, hstart]
          exact hfar
      · rw [heq] at hout
        apply h.collect hout
        · rw [hstart]
          exact hlow
        · rw [hend]
          exact hnext
  | kept _ hout hstart =>
      apply h.collect hout
      · exact Nat.le_of_eq hstart.symm
      · rw [hend]
        exact hnext

theorem behind_after (hbounds : WellBounded t bounds) (honward : BlocksOnward p t cfg bounds)
    (before : List Boundary) :
    forall rest, bounds.drop 1 = before ++ rest ->
      Behind t (after p t cfg bounds before) := by
  induction before using List.reverseRecOn with
  | nil =>
      intro rest _
      constructor
      · exact List.IsChain.nil
      · intro last hlast
        cases hlast
      · intro last hlast
        cases hlast
      · intro last hlast
        cases hlast
  | append_singleton before b ih =>
      intro rest hrest
      rw [List.append_assoc, List.singleton_append] at hrest
      exact behind_step hbounds hrest (ih (b :: rest) hrest) honward

/-!
# The condition is needed
-/

theorem appendChunk_of_ink {start stop : Nat} (hink : isBlank (slice t start stop) = false)
    (out : List TextChunk) : appendChunk t start stop out =
      out ++ [⟨slice t start stop, [], out.length, start, stop⟩] := by
  rcases appendChunk_cases t start stop out with ⟨_, _, heq⟩ | ⟨hnone, _⟩
  · exact heq
  · rcases hnone with hempty | hblank
    · exact absurd (lt_of_not_blank hink) (Nat.not_lt.mpr hempty)
    · rw [hblank] at hink
      cases hink

theorem out_packBlocks (hrest : bounds.drop 1 = before ++ rest) :
    (after p t cfg bounds before).out <+: packBlocks p t cfg bounds := by
  rw [packBlocks_eq, hrest]
  exact (prefix_after before rest).trans (prefix_appendChunk _ _ _ _)

/-- What is collected and has text in it is the next chunk. -/
theorem next_packed (hbounds : WellBounded t bounds) (rest : List Boundary) :
    forall before, bounds.drop 1 = before ++ rest ->
      isBlank (slice t (after p t cfg bounds before).chunkStart
        (after p t cfg bounds before).curEnd) = false ->
      exists d more, packBlocks p t cfg bounds =
        (after p t cfg bounds before).out ++ d :: more ∧
        d.start = (after p t cfg bounds before).chunkStart ∧
        (rest = [] -> d.stop = (after p t cfg bounds before).curEnd) := by
  induction rest with
  | nil =>
      intro before hrest hink
      rw [packBlocks_eq, hrest, List.append_nil, appendChunk_of_ink hink]
      exact ⟨_, [], rfl, rfl, fun _ => rfl⟩
  | cons b rest ih =>
      intro before hrest hink
      have hrest' : bounds.drop 1 = (before ++ [b]) ++ rest := by
        rw [hrest, List.append_assoc, List.singleton_append]
      have hnext := (@packing_after p t cfg bounds hbounds before (b :: rest) hrest).ahead.1
      have hstep := step_cases p t cfg bounds
        (after p t cfg bounds before) b
      have hend := curEnd_step p t cfg bounds (after p t cfg bounds before) b
      rw [← after_concat] at hstep hend
      rcases @out_packBlocks p t cfg bounds (before ++ [b]) rest hrest' with ⟨more, hmore⟩
      cases hstep with
      | oversize _ hout _ =>
          rw [hout, appendChunk_of_ink hink, List.append_assoc, List.append_assoc,
            List.singleton_append] at hmore
          exact ⟨_, _, hmore.symm, rfl, fun hnone => absurd hnone (List.cons_ne_nil b rest)⟩
      | closed _ hout _ =>
          rw [hout, appendChunk_of_ink hink, List.append_assoc, List.singleton_append] at hmore
          exact ⟨_, more, hmore.symm, rfl, fun hnone => absurd hnone (List.cons_ne_nil b rest)⟩
      | kept _ hout hstart =>
          have hink' : isBlank (slice t
              (after p t cfg bounds (before ++ [b])).chunkStart
              (after p t cfg bounds (before ++ [b])).curEnd) = false := by
            rw [hstart, hend]
            by_contra hblank
            rw [Bool.not_eq_false] at hblank
            rw [isBlank_slice_mono (Nat.le_refl _) hnext hblank] at hink
            cases hink
          rcases ih (before ++ [b]) hrest' hink' with ⟨d, more, hd, hdstart, _⟩
          rw [hout] at hd
          rw [hstart] at hdstart
          exact ⟨d, more, hd, hdstart, fun hnone => absurd hnone (List.cons_ne_nil b rest)⟩

theorem cutsOnward_of_strides (hbounds : WellBounded t bounds)
    (hrest : bounds.drop 1 = before ++ b :: rest) (h : Strides (packBlocks p t cfg bounds)) :
    CutsOnward t cfg bounds (after p t cfg bounds before) b := by
  have hpacking := @packing_after p t cfg bounds hbounds before (b :: rest) hrest
  apply (cutsOnward_iff hpacking).mpr
  intro hover hink
  have hrest' : bounds.drop 1 = (before ++ [b]) ++ rest := by
    rw [hrest, List.append_assoc, List.singleton_append]
  have hnext := hpacking.ahead.1
  have hlater := @next_packed p t cfg bounds hbounds rest (before ++ [b]) hrest'
  have hstep := step_cases p t cfg bounds
    (after p t cfg bounds before) b
  have hend := curEnd_step p t cfg bounds (after p t cfg bounds before) b
  rw [← after_concat] at hstep hend
  generalize after p t cfg bounds before = s at *
  generalize after p t cfg bounds (before ++ [b]) = s' at *
  cases hstep with
  | oversize hlong _ _ =>
      exact absurd hlong hover.1
  | kept hfits _ _ =>
      exact absurd hover hfits.2
  | closed _ hout hstart =>
      rw [appendChunk_of_ink hink] at hout
      rw [hstart, hend, hout] at hlater
      -- The chunk that is closed and the next one are neighbours.
      have hpair : isBlank (slice t (applyOverlapAligned t s.curEnd cfg.chunkOverlap bounds)
            b.runeStart) = false ->
          s.chunkStart < applyOverlapAligned t s.curEnd cfg.chunkOverlap bounds ∧
            (rest = [] -> s.curEnd < b.runeStart) := by
        intro hink'
        rcases hlater hink' with ⟨d, more, hd, hdstart, hdstop⟩
        unfold Strides at h
        rw [hd, List.append_assoc, List.singleton_append, List.isChain_append_cons_cons] at h
        rcases h.2.1 with ⟨hstarts, hstops⟩
        rw [hdstart] at hstarts
        refine ⟨hstarts, fun hlast => ?_⟩
        rw [hdstop hlast] at hstops
        exact hstops
      have hbehind : s.chunkStart < applyOverlapAligned t s.curEnd cfg.chunkOverlap bounds := by
        by_contra hback
        have hink' : isBlank (slice t (applyOverlapAligned t s.curEnd cfg.chunkOverlap bounds)
            b.runeStart) = false := by
          by_contra hblank
          rw [Bool.not_eq_false] at hblank
          rw [isBlank_slice_mono (Nat.le_of_not_lt hback) hnext hblank] at hink
          cases hink
        exact hback (hpair hink').1
      refine ⟨hbehind, ?_⟩
      by_cases hblank : isBlank (slice t
          (applyOverlapAligned t s.curEnd cfg.chunkOverlap bounds) b.runeStart) = true
      · exact Or.inr hblank
      · left
        by_cases hlast : rest = []
        · exact (hpair (by simpa using hblank)).2 hlast
        · exact hpacking.ahead.2.1 hlast

theorem splitsOnward_of_strides (hrest : bounds.drop 1 = before ++ b :: rest)
    (h : Strides (packBlocks p t cfg bounds))
    (hlong : MeetsOversize cfg (after p t cfg bounds before) b) :
    SplitsOnward p cfg
      (slice t (after p t cfg bounds before).curEnd b.runeStart) := by
  have hrest' : bounds.drop 1 = (before ++ [b]) ++ rest := by
    rw [hrest, List.append_assoc, List.singleton_append]
  have hstep := step_cases p t cfg bounds
    (after p t cfg bounds before) b
  rw [← after_concat] at hstep
  rcases @out_packBlocks p t cfg bounds (before ++ [b]) rest hrest' with ⟨more, hmore⟩
  cases hstep with
  | oversize _ hout _ =>
      rw [hout] at hmore
      unfold Strides at h
      rw [← hmore] at h
      have hpart := (List.isChain_append.mp (List.isChain_append.mp h).1).2.1
      exact (splitText_strides_iff p cfg _).mp (strides_relocate.mp hpart)
  | closed hover _ _ =>
      exact absurd hlong hover.1
  | kept hfits _ _ =>
      exact absurd hlong hfits.1

theorem packBlocks_strides_iff (hbounds : WellBounded t bounds) :
    Strides (packBlocks p t cfg bounds) <-> BlocksOnward p t cfg bounds := by
  constructor
  · intro h before b rest hrest
    constructor
    · exact splitsOnward_of_strides hrest h
    · exact cutsOnward_of_strides hbounds hrest h
  · intro honward
    have hall : bounds.drop 1 = bounds.drop 1 ++ [] := (List.append_nil _).symm
    rw [packBlocks_eq]
    exact (behind_after hbounds honward (bounds.drop 1) [] hall).close.1

end Runs

/-!
# The heuristic tier
-/

/-- The boundaries that the heuristic tier goes by. -/
def tierBounds (p : Patterns) (text : Text) (cfg : SplitterConfig) : List Boundary :=
  dropBoundsInsideSpans (findHeuristicBoundaries p text cfg.languages)
    (protectedSpansRune text (protectedSpans p text))

/-- The heuristic tier goes on: a text without boundaries, or of one chunk, is
left to the recursive splitter, any other to the packing loop. -/
def TierOnward (p : Patterns) (text : Text) (cfg : SplitterConfig) : Prop :=
  if text.length ≤ cfg.chunkSize ∨ tierBounds p text cfg = [] then SplitsOnward p cfg text
  else BlocksOnward p text cfg (closeBounds text.length (tierBounds p text cfg))

/-- Starts and ends of the heuristic tier ascend exactly where the recursive
splitter does not repeat itself on what is left to it, and every overlap starts
behind the start of the chunk it is taken from and is followed by new text. -/
theorem splitByHeuristics_strides_iff (p : Patterns) (text : Text) (cfg : SplitterConfig) :
    Strides (splitByHeuristics p text cfg) <-> TierOnward p text cfg := by
  unfold splitByHeuristics TierOnward
  by_cases hempty : text.isEmpty = true
  · have hnil := List.isEmpty_iff.mp hempty
    subst hnil
    have hshort : ([] : Text).length ≤ cfg.chunkSize := Nat.zero_le _
    rw [if_pos hempty, if_pos (Or.inl hshort), ← splitText_strides_iff]
    rfl
  · rw [if_neg hempty]
    by_cases hshort : text.length ≤ cfg.chunkSize
    · rw [if_pos hshort, if_pos (Or.inl hshort)]
      exact splitText_strides_iff p cfg text
    · rw [if_neg hshort]
      show Strides (if (tierBounds p text cfg).isEmpty = true then _ else
        packBlocks p text cfg (closeBounds text.length (tierBounds p text cfg))) <-> _
      by_cases hnone : tierBounds p text cfg = []
      · rw [if_pos (List.isEmpty_iff.mpr hnone), if_pos (Or.inr hnone)]
        exact splitText_strides_iff p cfg text
      · rw [if_neg (by simpa using hnone), if_neg (by simp [hshort, hnone])]
        exact packBlocks_strides_iff (closeBounds_wellBounded p text cfg.languages _ hnone)

/-!
# A chunk that is repeated
-/

def plainEngine : Engine where
  patterns := plainPatterns
  charsForTokenLimit tokens _ := tokens

/-- Chunks of two hundred characters that overlap by half. -/
def halfOverlap : SplitterConfig where
  chunkSize := 200
  chunkOverlap := 100
  separators := [['\n']]
  strategy := "heuristic"
  tokenLimit := 0
  languages := []

/-- A short page and one of nearly the chunk size. -/
def twoPages : Text :=
  List.replicate 60 'a' ++ formFeed :: List.replicate 189 'b'

set_option maxRecDepth 10000 in
theorem spans_twoPages : (splitByHeuristics plainPatterns twoPages
    (plainEngine.ensureDefaults halfOverlap)).map TextChunk.span = [⟨0, 60⟩, ⟨0, 250⟩] := by
  decide +kernel

/-- The overlap of the first page goes back to its start, and the page is in the
next chunk again. -/
theorem twoPages_repeats :
    ¬ Strides
      (splitByHeuristics plainPatterns twoPages (plainEngine.ensureDefaults halfOverlap)) := by
  intro h
  rw [strides_iff_span, spans_twoPages, List.isChain_cons_cons] at h
  exact absurd h.1.1 (Nat.lt_irrefl 0)

/-!
# Cuts of the heuristic tier

No boundary is inside a protected region.  A chunk can start inside one when its
start is picked by the overlap without a boundary, and a block that is split by
itself can have other regions than the text.
-/

/-- A position strictly between the start and the end of a span. -/
def Inside (i : Nat) (m : Span) : Prop :=
  m.start < i ∧ i < m.stop

/-- The position is inside no protected region within the cap. -/
def Clear (p : Patterns) (text : Text) (i : Nat) : Prop :=
  forall m, m ∈ protectedSpansRune text (protectedSpans p text) ->
    m.stop - m.start ≤ hardCap -> ¬ Inside i m

/-- No chunk starts or ends inside a protected region within the cap. -/
def Respects (p : Patterns) (text : Text) (chunks : List TextChunk) : Prop :=
  forall c, c ∈ chunks -> Clear p text c.start ∧ Clear p text c.stop

theorem splitText_respects (p : Patterns) (text : Text) (chunkSize chunkOverlap : Nat)
    (separators : List Text) :
    Respects p text (splitText p text chunkSize chunkOverlap separators) := by
  intro c hmem
  have hrange := (emitted_splitText p text chunkSize chunkOverlap separators).stop_le hmem
  have hwhole : forall m, m ∈ protectedSpansRune text (protectedSpans p text) ->
      m.stop - m.start ≤ hardCap -> ¬ Inside c.start m ∧ ¬ Inside c.stop m := by
    intro m hm hcap
    have hall := splitText_allOrNone p text chunkSize chunkOverlap separators hm hcap c hmem
    unfold AllOrNone at hall
    unfold Inside
    omega
  constructor
  · intro m hm hcap
    exact (hwhole m hm hcap).1
  · intro m hm hcap
    exact (hwhole m hm hcap).2

/-!
# Boundaries are clear
-/

theorem not_inside_of_insideSpans {pos lo hi : Nat} {spans : List Span}
    (hordered : Span.Ordered lo hi spans) (h : insideSpans pos spans = false) :
    forall m, m ∈ spans -> ¬ Inside pos m := by
  induction spans generalizing lo with
  | nil =>
      intro m hmem
      cases hmem
  | cons first rest ih =>
      rcases hordered with ⟨hlow, hspan, hrest⟩
      simp only [insideSpans] at h
      intro m hmem hinside
      split at h
      · rename_i hbefore
        rcases List.mem_cons.mp hmem with rfl | hmem
        · exact absurd hinside.1 (Nat.not_lt.mpr hbefore)
        · have hlater := (hrest.mem m hmem).1
          have hstart := hinside.1
          omega
      · split at h
        · cases h
        · rename_i hafter hbehind
          rcases List.mem_cons.mp hmem with rfl | hmem
          · exact hbehind hinside.2
          · exact ih hrest h m hmem hinside

theorem mem_closeBounds {total : Nat} {bounds : List Boundary}
    (hmem : b ∈ closeBounds total bounds) :
    b ∈ bounds ∨ b.runeStart = 0 ∨ b.runeStart = total := by
  unfold closeBounds at hmem
  dsimp only at hmem
  split at hmem
  · rcases List.mem_cons.mp hmem with rfl | hmem
    · exact Or.inr (Or.inl rfl)
    · rcases List.mem_append.mp hmem with hmem | hmem
      · exact Or.inl hmem
      · rw [List.mem_singleton.mp hmem]
        exact Or.inr (Or.inr rfl)
  · rcases List.mem_append.mp hmem with hmem | hmem
    · exact Or.inl hmem
    · rw [List.mem_singleton.mp hmem]
      exact Or.inr (Or.inr rfl)

theorem clear_of_bounds (p : Patterns) (text : Text) (cfg : SplitterConfig)
    (hmem : b ∈ closeBounds text.length (tierBounds p text cfg)) : Clear p text b.runeStart := by
  rcases protectedSpansRune_spec p text with ⟨_, hordered, _⟩
  intro m hm _ hinside
  rcases mem_closeBounds hmem with hkept | hzero | hend
  · have houtside := (List.mem_filter.mp hkept).2
    exact not_inside_of_insideSpans hordered (by simpa using houtside) m hm hinside
  · have hstart := hinside.1
    omega
  · have hstop := (hordered.mem m hm).2.2
    have hlow := hinside.2
    omega

/-!
# Starts of packed chunks
-/

section Runs

variable {p : Patterns} {t : Text} {cfg : SplitterConfig} {bounds : List Boundary}

variable (p t cfg bounds) in
/-- Behind some boundaries, the next ones are only added to what is collected. -/
inductive Keeps (before : List Boundary) : List Boundary -> Prop where
  | nil : Keeps before []
  | push (later : List Boundary) (b : Boundary) (hlater : Keeps before later)
      (hshort : ¬ MeetsOversize cfg
        (after p t cfg bounds (before ++ later)) b)
      (hroom : ¬ Overruns cfg
        (after p t cfg bounds (before ++ later)) b) :
      Keeps before (later ++ [b])

theorem Keeps.chunkStart {before later : List Boundary} (h : Keeps p t cfg bounds before later) :
    (after p t cfg bounds (before ++ later)).chunkStart =
      (after p t cfg bounds before).chunkStart := by
  induction h with
  | nil =>
      rw [List.append_nil]
  | push later b _ hshort hroom ih =>
      rw [← ih, ← List.append_assoc, after_concat]
      have hstep := step_cases p t cfg bounds
        (after p t cfg bounds (before ++ later)) b
      cases hstep with
      | oversize hlong _ _ =>
          exact absurd hlong hshort
      | closed hover _ _ =>
          exact absurd hover hroom
      | kept _ _ hstart =>
          exact hstart

variable (p t cfg bounds) in
/-- At a boundary the blocks are closed with an overlap, and no boundary lies
within twice the overlap. -/
def OpensUnbounded (earlier : List Boundary) (b : Boundary) : Prop :=
  Overruns cfg (after p t cfg bounds earlier) b ∧
    Unbounded bounds (after p t cfg bounds earlier).curEnd cfg.chunkOverlap

variable (p t cfg bounds) in
/-- The line feed, or the bare offset, at which an overlap after some boundaries
starts that has no boundary. -/
def ScansFrom (earlier : List Boundary) (i : Nat) : Prop :=
  ScansTo t ((after p t cfg bounds earlier).curEnd - 2 * cfg.chunkOverlap)
    ((after p t cfg bounds earlier).curEnd - cfg.chunkOverlap) i

theorem chunkStart_opened (hbounds : WellBounded t bounds) {earlier rest : List Boundary}
    {b : Boundary} (hrest : bounds.drop 1 = earlier ++ b :: rest)
    (hover : Overruns cfg (after p t cfg bounds earlier) b) :
    OverlapStart t bounds (after p t cfg bounds earlier).curEnd cfg.chunkOverlap
      (after p t cfg bounds (earlier ++ [b])).chunkStart := by
  have hpacking := @packing_after p t cfg bounds hbounds earlier (b :: rest) hrest
  have hstep := step_cases p t cfg bounds
    (after p t cfg bounds earlier) b
  rw [← after_concat] at hstep
  cases hstep with
  | oversize hlong _ _ =>
      exact absurd hlong hover.1
  | closed _ _ hstart =>
      rw [hstart]
      exact overlapStart_aligned bounds cfg.chunkOverlap hpacking.stop
  | kept hfits _ _ =>
      exact absurd hover hfits.2

/-- What is collected starts at a boundary, or where an overlap without one started. -/
theorem start_cases (hbounds : WellBounded t bounds) (before : List Boundary) :
    forall rest, bounds.drop 1 = before ++ rest ->
      (exists b, b ∈ bounds ∧
        b.runeStart = (after p t cfg bounds before).chunkStart) ∨
      exists earlier b later, before = earlier ++ [b] ++ later ∧
        OpensUnbounded p t cfg bounds earlier b ∧ Keeps p t cfg bounds (earlier ++ [b]) later ∧
        ScansFrom p t cfg bounds earlier
          (after p t cfg bounds before).chunkStart := by
  induction before using List.reverseRecOn with
  | nil =>
      intro rest hrest
      have hpacking := @packing_after p t cfg bounds hbounds [] rest hrest
      rcases hpacking.known with ⟨b, hb, heq⟩
      exact Or.inl ⟨b, hb, heq⟩
  | append_singleton before b ih =>
      intro rest hrest
      rw [List.append_assoc, List.singleton_append] at hrest
      have hmem : b ∈ bounds := by
        apply List.mem_of_mem_drop (i := 1)
        rw [hrest]
        exact List.mem_append_right _ List.mem_cons_self
      have hstep := step_cases p t cfg bounds
        (after p t cfg bounds before) b
      rw [← after_concat] at hstep
      cases hstep with
      | oversize _ _ hstart =>
          exact Or.inl ⟨b, hmem, hstart.symm⟩
      | closed hover _ _ =>
          have hopened := chunkStart_opened hbounds hrest hover
          have hpacking := @packing_after p t cfg bounds hbounds before (b :: rest) hrest
          generalize (after p t cfg bounds (before ++ [b])).chunkStart = i
            at hopened ⊢
          cases hopened with
          | none _ =>
              exact Or.inl hpacking.known
          | aligned k hk _ _ =>
              exact Or.inl ⟨k, hk, rfl⟩
          | scanned i hunbounded hscan =>
              exact Or.inr ⟨before, b, [], (List.append_nil _).symm, ⟨hover, hunbounded⟩,
                Keeps.nil, hscan⟩
      | kept hfits _ hstart =>
          rw [hstart]
          rcases ih (b :: rest) hrest with hfound | ⟨earlier, c, later, heq, hopens, hkeeps, hscan⟩
          · exact Or.inl hfound
          · refine Or.inr ⟨earlier, c, later ++ [b], ?_, hopens, ?_, hscan⟩
            · rw [heq, List.append_assoc _ later]
            · rw [heq] at hfits
              exact Keeps.push later b hkeeps hfits.1 hfits.2

/-!
# The condition
-/

variable (p t cfg bounds) in
/-- Where no boundary lies within twice the overlap, the scan for its start ends
inside no region; an overlap with blank text behind it is never a chunk. -/
def OverlapsClear : Prop :=
  forall earlier b later rest, bounds.drop 1 = earlier ++ [b] ++ later ++ rest ->
    OpensUnbounded p t cfg bounds earlier b -> Keeps p t cfg bounds (earlier ++ [b]) later ->
    Closes cfg
      (after p t cfg bounds (earlier ++ [b] ++ later)) rest ->
    forall i, ScansFrom p t cfg bounds earlier i ->
      isBlank (slice t i
        (after p t cfg bounds (earlier ++ [b] ++ later)).curEnd) = false ->
      Clear p t i

variable (p t cfg bounds) in
/-- Every region of the text in an oversize block lies in a region that is found
in the block by itself. -/
def BlocksKept : Prop :=
  forall before b rest, bounds.drop 1 = before ++ b :: rest ->
    MeetsOversize cfg (after p t cfg bounds before) b ->
    forall m, m ∈ protectedSpansRune t (protectedSpans p t) -> m.stop - m.start ≤ hardCap ->
      (after p t cfg bounds before).curEnd ≤ m.start -> m.stop ≤ b.runeStart ->
      exists n, n ∈ protectedSpansRune
          (slice t (after p t cfg bounds before).curEnd b.runeStart)
          (protectedSpans p
            (slice t (after p t cfg bounds before).curEnd b.runeStart)) ∧
        n.stop - n.start ≤ hardCap ∧
        (after p t cfg bounds before).curEnd + n.start ≤ m.start ∧
        m.stop ≤ (after p t cfg bounds before).curEnd + n.stop

/-- A cut of the recursive splitter in a block cuts no region of the text that
lies in one of the block. -/
theorem clear_of_block {a b i : Nat} {block : Text} (ha : Clear p t a) (hb : Clear p t b)
    (hkept : forall m, m ∈ protectedSpansRune t (protectedSpans p t) ->
      m.stop - m.start ≤ hardCap -> a ≤ m.start -> m.stop ≤ b ->
      exists n, n ∈ protectedSpansRune block (protectedSpans p block) ∧
        n.stop - n.start ≤ hardCap ∧ a + n.start ≤ m.start ∧ m.stop ≤ a + n.stop)
    (hi : Clear p block i) (hle : a + i ≤ b) : Clear p t (a + i) := by
  intro m hm hcap hinside
  have hbefore := ha m hm hcap
  have hbehind := hb m hm hcap
  unfold Inside at hinside hbefore hbehind
  rcases hkept m hm hcap (by omega) (by omega) with ⟨n, hn, hsize, hlow, hhigh⟩
  exact hi n hn hsize ⟨by omega, by omega⟩

theorem overlapsClear_of_respects (hbounds : WellBounded t bounds)
    (h : Respects p t (packBlocks p t cfg bounds)) : OverlapsClear p t cfg bounds := by
  intro earlier b later rest hrest hopens hkeeps hcloses i hscan hink
  have hopened : bounds.drop 1 = earlier ++ b :: (later ++ rest) := by
    rw [hrest, List.append_assoc, List.append_assoc, List.singleton_append]
  have hstart : (after p t cfg bounds (earlier ++ [b] ++ later)).chunkStart = i := by
    rw [hkeeps.chunkStart]
    exact (chunkStart_opened hbounds hopened hopens.1).unique (.scanned i hopens.2 hscan)
  have hemits : Emits p t cfg bounds ⟨slice t i
      (after p t cfg bounds (earlier ++ [b] ++ later)).curEnd, [], 0, i,
      (after p t cfg bounds (earlier ++ [b] ++ later)).curEnd⟩ := by
    subst hstart
    exact .packed _ rest hrest hcloses (lt_of_not_blank hink) hink rfl rfl rfl
  rcases exists_mem_of_emits hemits with ⟨d, hd, _, hfrom, _⟩
  have hd' := (h d hd).1
  rw [hfrom] at hd'
  exact hd'

theorem respects_packBlocks (hbounds : WellBounded t bounds)
    (hclear : forall b, b ∈ bounds -> Clear p t b.runeStart)
    (hoverlaps : OverlapsClear p t cfg bounds) (hblocks : BlocksKept p t cfg bounds) :
    Respects p t (packBlocks p t cfg bounds) := by
  have hend : forall before rest, bounds.drop 1 = before ++ rest ->
      Clear p t (after p t cfg bounds before).curEnd := by
    intro before rest hrest
    rcases (@packing_after p t cfg bounds hbounds before rest hrest).known with ⟨b, hb, heq⟩
    rw [← heq]
    exact hclear b hb
  intro c hmem
  cases emits_of_mem hmem with
  | packed before rest hrest hcloses _ hink _ hstart hstop =>
      rw [hstart, hstop]
      refine ⟨?_, hend before rest hrest⟩
      rcases @start_cases p t cfg bounds hbounds before rest hrest with
        ⟨b, hb, heq⟩ | ⟨earlier, b, later, heq, hopens, hkeeps, hscan⟩
      · rw [← heq]
        exact hclear b hb
      · rw [heq] at hrest hcloses hink hscan ⊢
        exact hoverlaps earlier b later rest hrest hopens hkeeps hcloses _ hscan hink
  | block before b rest sub hrest hlong hsub _ hstart hstop =>
      have hmem : b ∈ bounds.drop 1 := by
        rw [hrest]
        exact List.mem_append_right _ List.mem_cons_self
      have hrange := (emitted_splitText p _ cfg.chunkSize cfg.chunkOverlap cfg.separators).stop_le
        hsub
      rw [length_slice (hbounds.within b hmem)] at hrange
      have hlow := (@packing_after p t cfg bounds hbounds before (b :: rest) hrest).ahead.1
      have hcut := splitText_respects p _ cfg.chunkSize cfg.chunkOverlap cfg.separators sub hsub
      have hfrom := hend before (b :: rest) hrest
      have hto := hclear b (List.mem_of_mem_drop hmem)
      have hkept := hblocks before b rest hrest hlong
      rw [hstart, hstop]
      exact ⟨clear_of_block hfrom hto hkept hcut.1 (by omega),
        clear_of_block hfrom hto hkept hcut.2 (by omega)⟩

end Runs

/-- A text of one chunk, or without boundaries, is left to the recursive splitter. -/
def Delegated (p : Patterns) (text : Text) (cfg : SplitterConfig) : Prop :=
  text.length ≤ cfg.chunkSize ∨ tierBounds p text cfg = []

/-- The heuristic tier respects the protected regions where the scans for an
overlap end inside none of them and the regions of its oversize blocks are found
again in the blocks; without the first it does not. -/
theorem splitByHeuristics_respects (p : Patterns) (text : Text) (cfg : SplitterConfig) :
    (Delegated p text cfg ∨
        OverlapsClear p text cfg (closeBounds text.length (tierBounds p text cfg)) ∧
          BlocksKept p text cfg (closeBounds text.length (tierBounds p text cfg)) ->
      Respects p text (splitByHeuristics p text cfg)) ∧
    (Respects p text (splitByHeuristics p text cfg) -> Delegated p text cfg ∨
      OverlapsClear p text cfg (closeBounds text.length (tierBounds p text cfg))) := by
  by_cases hshort : text.length ≤ cfg.chunkSize
  · refine ⟨fun _ => ?_, fun _ => Or.inl (Or.inl hshort)⟩
    unfold splitByHeuristics
    split
    · intro c hmem
      cases hmem
    · exact splitText_respects p text _ _ _
  · have hempty : ¬ text.isEmpty = true := by
      intro hnil
      rw [List.isEmpty_iff.mp hnil] at hshort
      exact hshort (Nat.zero_le _)
    have htier : splitByHeuristics p text cfg =
        if (tierBounds p text cfg).isEmpty = true then
          splitText p text cfg.chunkSize cfg.chunkOverlap cfg.separators
        else packBlocks p text cfg (closeBounds text.length (tierBounds p text cfg)) := by
      unfold splitByHeuristics
      rw [if_neg hempty, if_neg hshort]
      rfl
    rw [htier]
    by_cases hnone : tierBounds p text cfg = []
    · refine ⟨fun _ => ?_, fun _ => Or.inl (Or.inr hnone)⟩
      rw [if_pos (List.isEmpty_iff.mpr hnone)]
      exact splitText_respects p text _ _ _
    · have hbounds := closeBounds_wellBounded p text cfg.languages _ hnone
      rw [if_neg (by simpa using hnone)]
      constructor
      · rintro (hdelegated | ⟨hoverlaps, hblocks⟩)
        · exact absurd hdelegated (not_or.mpr ⟨hshort, hnone⟩)
        · exact respects_packBlocks hbounds (fun b hb => clear_of_bounds p text cfg hb)
            hoverlaps hblocks
      · intro h
        exact Or.inr (overlapsClear_of_respects hbounds h)

/-!
# An overlap inside a link
-/

def linkText : Text :=
  List.replicate 70 'a' ++ ("[x](".toList ++ List.replicate 55 'u' ++ [')']) ++
    List.replicate 10 'b' ++ formFeed :: List.replicate 150 'c'

/-- The link of the text. -/
def linkMatches (t : Text) : List Span :=
  if t = linkText then [⟨70, 130⟩] else []

set_option maxRecDepth 10000 in
theorem ordered_linkMatches (t : Text) : Span.Ordered 0 t.length (linkMatches t) := by
  unfold linkMatches
  split
  · rename_i heq
    rw [heq]
    decide +kernel
  · exact Nat.zero_le _

/-- What the patterns find in the text with the link. -/
def linkPatterns : Patterns :=
  { plainPatterns with link := ⟨linkMatches, ordered_linkMatches⟩ }

def linkEngine : Engine where
  patterns := linkPatterns
  charsForTokenLimit tokens _ := tokens

/-- Chunks of two hundred characters that overlap by forty. -/
def shortOverlap : SplitterConfig :=
  { halfOverlap with chunkOverlap := 40 }

set_option maxRecDepth 10000 in
theorem cuts_linkText : protectedSpansRune linkText (protectedSpans linkPatterns linkText) =
      [⟨70, 130⟩] ∧
    (splitByHeuristics linkPatterns linkText (linkEngine.ensureDefaults shortOverlap)).map
      TextChunk.span = [⟨0, 140⟩, ⟨100, 291⟩] := by
  decide +kernel

/-- The second chunk starts in the middle of the link. -/
theorem linkText_cut : ¬ Respects linkPatterns linkText
    (splitByHeuristics linkPatterns linkText (linkEngine.ensureDefaults shortOverlap)) := by
  intro h
  rcases cuts_linkText with ⟨hspans, hchunks⟩
  have hmem : (⟨100, 291⟩ : Span) ∈ (splitByHeuristics linkPatterns linkText
      (linkEngine.ensureDefaults shortOverlap)).map TextChunk.span := by
    rw [hchunks]
    decide
  rcases List.mem_map.mp hmem with ⟨c, hc, heq⟩
  have hclear := (h c hc).1 ⟨70, 130⟩ (by rw [hspans]; decide) (by decide)
  have hstart : c.start = 100 := congrArg Span.start heq
  rw [hstart] at hclear
  exact hclear ⟨by decide, by decide⟩

end Chunker
end KnowledgeBrain
