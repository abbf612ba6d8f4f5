import KnowledgeBrain.Chunker.Budget

/-!
# The merging loop

One unit after the other, the state stays a list of chunks that were made one
after the other and a group that ends at the last unit.
-/

namespace KnowledgeBrain
namespace Chunker

open Foundation MergeState

section

variable {p : Patterns} {chunkSize chunkOverlap : Nat} {units : List SplitUnit}

namespace MergeState

@[simp]
theorem flushNonempty_ht (s : MergeState) : s.flushNonempty.ht = s.ht := by
  unfold flushNonempty
  split
  · rfl
  · rfl

@[simp]
theorem injectHeader_ht (headers : Text) (u : SplitUnit) (s : MergeState) :
    (injectHeader p chunkSize headers u s).ht = s.ht := by
  unfold injectHeader
  split
  · dsimp only
    split
    · rfl
    · rfl
  · rfl

@[simp]
theorem overflow_ht (headers : Text) (u : SplitUnit) (s : MergeState) :
    (overflow p chunkSize chunkOverlap headers u s).ht = s.ht := by
  unfold overflow
  split
  · dsimp only
    rw [injectHeader_ht]
    rfl
  · rfl

@[simp]
theorem capCurrent_ht (u : SplitUnit) (s : MergeState) : (capCurrent u s).ht = s.ht := by
  unfold capCurrent
  split
  · exact flushNonempty_ht s
  · rfl

theorem opening_ht (u : SplitUnit) (s : MergeState) :
    (opening p chunkSize chunkOverlap s u).ht = s.ht.update p u.text := by
  unfold opening
  dsimp only
  rw [overflow_ht]
  split
  · exact flushNonempty_ht _
  · rfl

theorem after_concat (before : List SplitUnit) (u : SplitUnit) :
    after p chunkSize chunkOverlap (before ++ [u]) =
      step p chunkSize chunkOverlap (after p chunkSize chunkOverlap before) u := by
  unfold after
  rw [List.foldl_append]
  rfl

end MergeState

variable {pre rest : List SplitUnit} {u : SplitUnit}

theorem laid_start (hlaid : Laid 0 units) (hunits : units = pre ++ u :: rest) :
    u.start = place pre ∧ u.stop = place pre + u.text.length ∧ u.text ≠ [] := by
  rw [hunits] at hlaid
  have hrest := (laid_append.mp hlaid).2
  rw [Nat.zero_add] at hrest
  exact ⟨hrest.1, hrest.2.2.1, hrest.2.1⟩

theorem usableHeaders_active {ht : HeaderTracker} (hunits : units = pre ++ u :: rest)
    (hstart : u.start = place pre) (htracked : ht = trackUnits p (pre ++ [u])) :
    usableHeaders chunkSize ht = [] ∨
      ActiveAt p chunkSize units (place pre) (usableHeaders chunkSize ht) := by
  unfold usableHeaders
  split
  · exact Or.inl rfl
  · rename_i hshort
    right
    refine ⟨pre, u, rest, hunits, hstart, ?_, Nat.le_of_not_lt hshort⟩
    rw [htracked]

variable {front : Nat} {s : MergeState}

theorem opening_ready (h : Loop p chunkSize chunkOverlap units pre front s)
    (hunits : units = pre ++ u :: rest) (hlaid : Laid 0 units) :
    exists front', Ready p chunkSize chunkOverlap units pre u front'
      (opening p chunkSize chunkOverlap s u) := by
  have hstart := (laid_start hlaid hunits).1
  have htracked : s.ht.update p u.text = trackUnits p (pre ++ [u]) := by
    rw [trackUnits_concat, h.tracked]
  unfold opening
  dsimp only
  split
  · rcases flushNonempty_emitted (s := { s with ht := s.ht.update p u.text }) h.emitted h.group
      (Or.inl h.capped) hunits hlaid with ⟨hemitted, hcurrent, hlen⟩
    apply overflow_ready hunits hlaid
    · apply usableHeaders_active hunits hstart
      rw [flushNonempty_ht]
      exact htracked
    · exact hemitted
    · rw [hcurrent, hlen]
      exact group_nil pre
    · rw [hlen]
      exact Nat.zero_le hardCap
  · apply overflow_ready hunits hlaid
    · exact usableHeaders_active hunits hstart htracked
    · exact h.emitted
    · exact h.group
    · exact h.capped

theorem capCurrent_ready (h : Ready p chunkSize chunkOverlap units pre u front s)
    (hcap : s.curLen ≤ hardCap ∨ OverfullHead p chunkSize chunkOverlap units)
    (hunits : units = pre ++ u :: rest) (hlaid : Laid 0 units) (hsize : u.text.length ≤ hardCap) :
    exists front', Ready p chunkSize chunkOverlap units pre u front' (capCurrent u s) ∧
      (capCurrent u s).curLen + u.text.length ≤ hardCap := by
  unfold capCurrent
  split
  · rcases flushNonempty_emitted h.emitted h.group hcap hunits hlaid with
      ⟨hemitted, hcurrent, hlen⟩
    refine ⟨place pre, ⟨hemitted, ?_, Or.inl hcurrent⟩, ?_⟩
    · rw [hcurrent, hlen]
      exact group_nil pre
    · rw [hlen, Nat.zero_add]
      exact hsize
  · rename_i hfits
    exact ⟨front, h, Nat.le_of_not_lt hfits⟩

theorem loop_mergeUnit (h : Loop p chunkSize chunkOverlap units pre front
      (after p chunkSize chunkOverlap pre))
    (hunits : units = pre ++ u :: rest) (hlaid : Laid 0 units) (hsize : u.text.length ≤ hardCap) :
    exists front', Loop p chunkSize chunkOverlap units (pre ++ [u]) front'
      (mergeUnit p chunkSize chunkOverlap u
        (after p chunkSize chunkOverlap pre)) := by
  rcases opening_ready h hunits hlaid with ⟨opened, hopened⟩
  have hcap : (opening p chunkSize chunkOverlap
      (after p chunkSize chunkOverlap pre) u).curLen ≤ hardCap ∨
      OverfullHead p chunkSize chunkOverlap units := by
    by_cases hfits : (opening p chunkSize chunkOverlap
        (after p chunkSize chunkOverlap pre) u).curLen ≤ hardCap
    · exact Or.inl hfits
    · exact Or.inr ⟨pre, u, rest, hunits, hsize, Nat.lt_of_not_le hfits⟩
  rcases capCurrent_ready hopened hcap hunits hlaid hsize with ⟨front', hready, hroom⟩
  refine ⟨front', ?_⟩
  rw [mergeUnit_eq]
  constructor
  · show (capCurrent u _).ht = _
    rw [capCurrent_ht, opening_ht, h.tracked, trackUnits_concat]
  · exact hready.emitted
  · exact hready.push hsize
  · exact hroom

/-!
# Units longer than the cap
-/

/-- Slices of a unit that follow each other are pushed one by one. -/
theorem emission_pieces {done later : Text} {pieces : List SplitUnit} {chunks : List TextChunk}
    (hemitted : Emission (Made p chunkSize chunkOverlap units) chunks done.length)
    (htext : unitsText units = done ++ unitsText pieces ++ later)
    (hlaid : Laid done.length pieces)
    (hatoms : forall piece, piece ∈ pieces -> Atom units piece ∧ piece.text.length ≤ hardCap) :
    Emission (Made p chunkSize chunkOverlap units)
      (pieces.foldl (fun chunks piece =>
        chunks ++ [⟨piece.text, [], chunks.length, piece.start, piece.stop⟩]) chunks)
      (done ++ unitsText pieces).length := by
  induction pieces generalizing done chunks with
  | nil =>
      simpa using hemitted
  | cons piece pieces ih =>
      rcases hlaid with ⟨hstart, _, hstop, hrest⟩
      rcases hatoms piece List.mem_cons_self with ⟨hatom, hsize⟩
      have hlength : (done ++ piece.text).length = piece.stop := by
        rw [List.length_append, hstop]
      have hslice : slice (unitsText units) piece.start piece.stop = piece.text := by
        rw [htext, unitsText_cons, ← List.append_assoc, List.append_assoc (done ++ piece.text),
          slice_append_left _ (Nat.le_of_eq hlength.symm), hstart, ← hlength]
        have hsuffix := slice_of_suffix (List.suffix_append done piece.text)
        rw [List.length_append, Nat.add_sub_cancel] at hsuffix
        rw [List.length_append]
        exact hsuffix
      have hmade : Made p chunkSize chunkOverlap units done.length
          ⟨piece.text, [], chunks.length, piece.start, piece.stop⟩ := by
        constructor
        · refine ⟨[], ?_, Or.inl rfl⟩
          rw [hslice]
          rfl
        · exact Nat.le_of_eq hstart
        · exact hstart ▸ Nat.le_add_right _ _
        · exact hstop ▸ Nat.le_add_right _ _
        · intro _
          exact ⟨hstart, piece, hatom, rfl, rfl, rfl⟩
        · exact Or.inl hsize
      have hpush := Emission.push hemitted hmade rfl
      rw [unitsText_cons, ← List.append_assoc, List.foldl_cons]
      apply ih
      · rw [hlength]
        exact hpush
      · rw [htext, unitsText_cons]
        simp only [List.append_assoc]
      · rw [hlength]
        exact hrest
      · intro other hmem
        exact hatoms other (List.mem_cons_of_mem piece hmem)

theorem loop_mergeOversize (h : Loop p chunkSize chunkOverlap units pre front s)
    (hunits : units = pre ++ u :: rest) (hlaid : Laid 0 units) (hsize : hardCap < u.text.length) :
    exists front', Loop p chunkSize chunkOverlap units (pre ++ [u]) front'
      (mergeOversize p u s) := by
  rcases flushNonempty_emitted h.emitted h.group (Or.inl h.capped) hunits hlaid with
    ⟨hemitted, hcurrent, hlen⟩
  rcases laid_forceSplitRunes u.text u.start with ⟨hpieces, hspell⟩
  have hstart := (laid_start hlaid hunits).1
  rw [hstart] at hpieces hspell
  have hatoms : forall piece, piece ∈ forceSplitRunes u.text (place pre) ->
      Atom units piece ∧ piece.text.length ≤ hardCap := by
    intro piece hmem
    constructor
    · right
      refine ⟨u, ?_, hsize, ?_⟩
      · rw [hunits]
        simp
      · rw [hstart]
        exact hmem
    · exact forceSplitRunes_within u.text (place pre) piece hmem
  have htext : unitsText units = unitsText pre ++
      unitsText (forceSplitRunes u.text (place pre)) ++ unitsText rest := by
    rw [hunits, unitsText_append, unitsText_cons, hspell, List.append_assoc]
  have hpushed := emission_pieces hemitted htext hpieces hatoms
  rw [hspell] at hpushed
  refine ⟨place (pre ++ [u]), ?_⟩
  constructor
  · show s.flushNonempty.ht.update p u.text = _
    rw [flushNonempty_ht, h.tracked, trackUnits_concat]
  · show Emission _ ((forceSplitRunes u.text u.start).foldl _ s.flushNonempty.chunks) _
    rw [hstart]
    have hplace : place (pre ++ [u]) = (unitsText pre ++ u.text).length := by
      simp [place]
    rw [hplace]
    exact hpushed
  · show Group p chunkSize chunkOverlap units (pre ++ [u]) (place (pre ++ [u]))
      s.flushNonempty.current s.flushNonempty.curLen
    rw [hcurrent, hlen]
    exact group_nil (pre ++ [u])
  · show s.flushNonempty.curLen ≤ hardCap
    rw [hlen]
    exact Nat.zero_le hardCap

/-!
# Runs
-/

theorem loop_step (h : Loop p chunkSize chunkOverlap units pre front
      (after p chunkSize chunkOverlap pre))
    (hunits : units = pre ++ u :: rest) (hlaid : Laid 0 units) :
    exists front', Loop p chunkSize chunkOverlap units (pre ++ [u]) front'
      (after p chunkSize chunkOverlap (pre ++ [u])) := by
  rw [after_concat]
  unfold step
  split
  · rename_i hlong
    exact loop_mergeOversize h hunits hlaid hlong
  · rename_i hshort
    exact loop_mergeUnit h hunits hlaid (Nat.le_of_not_lt hshort)

variable (p chunkSize chunkOverlap) in
theorem loop_after (hlaid : Laid 0 units) (pre : List SplitUnit) :
    forall rest, units = pre ++ rest -> exists front,
      Loop p chunkSize chunkOverlap units pre front
        (after p chunkSize chunkOverlap pre) := by
  induction pre using List.reverseRecOn with
  | nil =>
      intro rest _
      refine ⟨0, rfl, Emission.nil, group_nil [], Nat.zero_le hardCap⟩
  | append_singleton pre u ih =>
      intro rest hunits
      rw [List.append_assoc, List.singleton_append] at hunits
      rcases ih (u :: rest) hunits with ⟨front, h⟩
      exact loop_step h hunits hlaid

theorem mergeUnits_emission (hlaid : Laid 0 units) :
    Emission (Made p chunkSize chunkOverlap units)
      (mergeUnits p units chunkSize chunkOverlap) (place units) := by
  have hunits : units = units ++ [] := (List.append_nil units).symm
  rcases loop_after p chunkSize chunkOverlap hlaid units [] hunits with ⟨front, h⟩
  exact (flushNonempty_emitted h.emitted h.group (Or.inl h.capped) hunits hlaid).1

/-!
# Chunks stay
-/

theorem flushNonempty_chunks (s : MergeState) :
    s.chunks <+: s.flushNonempty.chunks := by
  unfold flushNonempty
  split
  · exact List.prefix_rfl
  · exact List.prefix_append _ _

theorem overflow_chunks (headers : Text) (u : SplitUnit) (s : MergeState) :
    s.chunks <+: (overflow p chunkSize chunkOverlap headers u s).chunks := by
  unfold overflow
  split
  · dsimp only
    unfold injectHeader
    split
    · dsimp only
      split
      · exact List.prefix_append _ _
      · exact List.prefix_append _ _
    · exact List.prefix_append _ _
  · exact List.prefix_rfl

theorem opening_chunks (u : SplitUnit) (s : MergeState) :
    s.chunks <+: (opening p chunkSize chunkOverlap s u).chunks := by
  unfold opening
  dsimp only
  split
  · exact (flushNonempty_chunks { s with ht := s.ht.update p u.text }).trans
      (overflow_chunks _ u _)
  · exact overflow_chunks _ u { s with ht := s.ht.update p u.text }

theorem capCurrent_chunks (u : SplitUnit) (s : MergeState) :
    s.chunks <+: (capCurrent u s).chunks := by
  unfold capCurrent
  split
  · exact flushNonempty_chunks s
  · exact List.prefix_rfl

theorem pieces_chunks (pieces : List SplitUnit) (chunks : List TextChunk) :
    chunks <+: pieces.foldl (fun chunks piece =>
      chunks ++ [⟨piece.text, [], chunks.length, piece.start, piece.stop⟩]) chunks := by
  induction pieces generalizing chunks with
  | nil =>
      exact List.prefix_rfl
  | cons piece pieces ih =>
      exact (List.prefix_append chunks _).trans (ih _)

theorem step_chunks (s : MergeState) (u : SplitUnit) :
    s.chunks <+: (step p chunkSize chunkOverlap s u).chunks := by
  unfold step
  split
  · exact (flushNonempty_chunks s).trans (pieces_chunks _ _)
  · rw [mergeUnit_eq]
    exact (opening_chunks u s).trans (capCurrent_chunks u _)

variable (p chunkSize chunkOverlap) in
theorem after_chunks (before later : List SplitUnit) :
    (after p chunkSize chunkOverlap before).chunks <+:
      (after p chunkSize chunkOverlap (before ++ later)).chunks := by
  induction later using List.reverseRecOn with
  | nil =>
      rw [List.append_nil]
  | append_singleton later u ih =>
      rw [← List.append_assoc, after_concat]
      exact ih.trans (step_chunks _ u)

/-- A group that a header makes longer than the cap is pushed as it is. -/
theorem overfull_pushed (hlaid : Laid 0 units) (h : OverfullHead p chunkSize chunkOverlap units) :
    exists c, c ∈ mergeUnits p units chunkSize chunkOverlap ∧ hardCap < c.content.length := by
  rcases h with ⟨before, u, rest, hunits, hsize, hover⟩
  rcases loop_after p chunkSize chunkOverlap hlaid before (u :: rest) hunits with
    ⟨front, hloop⟩
  rcases opening_ready hloop hunits hlaid with ⟨front', hready⟩
  have hcounted := hready.group.counted
  have hstep : after p chunkSize chunkOverlap (before ++ [u]) =
      mergeUnit p chunkSize chunkOverlap u
        (after p chunkSize chunkOverlap before) := by
    rw [after_concat]
    unfold step
    rw [if_neg (Nat.not_lt.mpr hsize)]
  have hlater := after_chunks p chunkSize chunkOverlap (before ++ [u]) rest
  rw [List.append_assoc, List.singleton_append, ← hunits, hstep, mergeUnit_eq] at hlater
  generalize opening p chunkSize chunkOverlap
    (after p chunkSize chunkOverlap before) u = s at hover hcounted hlater
  have hne : s.current ≠ [] := by
    intro hnil
    rw [hcounted, hnil] at hover
    exact absurd hover (Nat.not_lt_zero hardCap)
  have hflush : (push u (capCurrent u s)).chunks =
      s.chunks ++ [buildChunk s.current s.chunks.length] := by
    show (capCurrent u s).chunks = _
    unfold capCurrent flushNonempty
    rw [if_pos (Nat.lt_of_lt_of_le hover (Nat.le_add_right _ _)), if_neg (by simpa using hne)]
    rfl
  refine ⟨buildChunk s.current s.chunks.length, ?_, ?_⟩
  · apply (flushNonempty_chunks _).subset
    apply hlater.subset
    rw [hflush]
    exact List.mem_append_right _ List.mem_cons_self
  · show hardCap < (unitsText s.current).length
    rw [hcounted] at hover
    exact hover

end

/-!
# What closes a group

Before a unit is pushed the group may be closed by a table that ends, by the
size of the unit, and by the cap.  Each of them pushes the chunk of the group it
finds.
-/

section Steps

variable (p : Patterns) (chunkSize chunkOverlap : Nat)

namespace MergeState

/-- The state in which a unit is measured: a table that ends at the unit has
closed the group. -/
def watched (s : MergeState) (u : SplitUnit) : MergeState :=
  let s := { s with ht := s.ht.update p u.text }
  if s.ht.headerEndedThisUnit then s.flushNonempty else s

/-- The unit does not fit into the group any more. -/
def Overflows (s : MergeState) (u : SplitUnit) : Prop :=
  (watched p s u).current ≠ [] ∧
    chunkSize < (watched p s u).curLen + u.text.length +
      (usableHeaders chunkSize (watched p s u).ht).length

end MergeState

end Steps

section Runs

variable {p : Patterns} {chunkSize chunkOverlap : Nat} {units : List SplitUnit}

namespace MergeState

/-- What happens to the group before a unit is pushed. -/
inductive Opening (p : Patterns) (chunkSize : Nat) (s : MergeState) (u : SplitUnit)
    (s' : MergeState) : Prop where
  | kept (hchunks : s'.chunks = s.chunks) (hcurrent : s'.current = s.current)
      (hlen : s'.curLen = s.curLen) (hfits : ¬ Overflows p chunkSize s u)
  | ended (hopen : s.current ≠ [])
      (hchunks : s'.chunks = s.chunks ++ [buildChunk s.current s.chunks.length])
      (hcurrent : s'.current = []) (hfits : ¬ Overflows p chunkSize s u)
  | opened (hopen : s.current ≠ [])
      (hchunks : s'.chunks = s.chunks ++ [buildChunk s.current s.chunks.length])
      (hfull : Overflows p chunkSize s u)

theorem injectHeader_chunks (headers : Text) (u : SplitUnit) (s : MergeState) :
    (injectHeader p chunkSize headers u s).chunks = s.chunks := by
  unfold injectHeader
  split
  · dsimp only
    split
    · rfl
    · rfl
  · rfl

theorem overflow_cases (headers : Text) (u : SplitUnit) (s : MergeState) :
    (s.current ≠ [] ∧ chunkSize < s.curLen + u.text.length + headers.length ∧
        (overflow p chunkSize chunkOverlap headers u s).chunks =
          s.chunks ++ [buildChunk s.current s.chunks.length]) ∨
      (¬ (s.current ≠ [] ∧ chunkSize < s.curLen + u.text.length + headers.length) ∧
        overflow p chunkSize chunkOverlap headers u s = s) := by
  unfold overflow
  split
  · rename_i hfull
    rw [Bool.and_eq_true, decide_eq_true_eq] at hfull
    left
    refine ⟨by simpa using hfull.2, hfull.1, ?_⟩
    dsimp only
    rw [injectHeader_chunks]
    rfl
  · rename_i hfits
    right
    constructor
    · rintro ⟨hopen, hlong⟩
      apply hfits
      rw [Bool.and_eq_true, decide_eq_true_eq]
      exact ⟨hlong, by simpa using hopen⟩
    · rfl

theorem flushNonempty_cases (s : MergeState) :
    (s.current = [] ∧ s.flushNonempty = s) ∨
      (s.current ≠ [] ∧ s.flushNonempty = s.flush) := by
  unfold flushNonempty
  split
  · rename_i hempty
    exact Or.inl ⟨List.isEmpty_iff.mp hempty, rfl⟩
  · rename_i hopen
    exact Or.inr ⟨by simpa using hopen, rfl⟩

theorem watched_cases (p : Patterns) (s : MergeState) (u : SplitUnit) :
    ((watched p s u).chunks = s.chunks ∧ (watched p s u).current = s.current ∧
        (watched p s u).curLen = s.curLen) ∨
      (s.current ≠ [] ∧ (watched p s u).current = [] ∧
        (watched p s u).chunks = s.chunks ++ [buildChunk s.current s.chunks.length]) := by
  unfold watched
  dsimp only
  split
  · rcases flushNonempty_cases { s with ht := s.ht.update p u.text } with
      ⟨_, hsame⟩ | ⟨hopen, hflush⟩
    · left
      rw [hsame]
      exact ⟨rfl, rfl, rfl⟩
    · right
      rw [hflush]
      exact ⟨hopen, rfl, rfl⟩
  · exact Or.inl ⟨rfl, rfl, rfl⟩

variable (p chunkSize chunkOverlap) in
theorem opening_cases (s : MergeState) (u : SplitUnit) :
    Opening p chunkSize s u (opening p chunkSize chunkOverlap s u) := by
  have hshape : opening p chunkSize chunkOverlap s u =
      overflow p chunkSize chunkOverlap (usableHeaders chunkSize (watched p s u).ht) u
        (watched p s u) := rfl
  rw [hshape]
  rcases @overflow_cases p chunkSize chunkOverlap (usableHeaders chunkSize (watched p s u).ht) u
    (watched p s u) with ⟨hopen, hlong, hclosed⟩ | ⟨hfits, hsame⟩
  · rcases watched_cases p s u with ⟨hchunks, hcurrent, _⟩ | ⟨_, hnil, _⟩
    · rw [hchunks, hcurrent] at hclosed
      exact .opened (hcurrent ▸ hopen) hclosed ⟨hopen, hlong⟩
    · exact absurd hnil hopen
  · rw [hsame]
    rcases watched_cases p s u with ⟨hchunks, hcurrent, hlen⟩ | ⟨hopen, hnil, hchunks⟩
    · exact .kept hchunks hcurrent hlen hfits
    · exact .ended hopen hchunks hnil hfits

theorem capCurrent_cases (u : SplitUnit) (s : MergeState) :
    capCurrent u s = s ∨ (hardCap < s.curLen + u.text.length ∧ s.current ≠ [] ∧
      capCurrent u s = s.flush) := by
  unfold capCurrent
  split
  · rename_i hlong
    rcases flushNonempty_cases s with ⟨_, hsame⟩ | ⟨hopen, hflush⟩
    · exact Or.inl hsame
    · exact Or.inr ⟨hlong, hopen, hflush⟩
  · exact Or.inl rfl

theorem after_short {before : List SplitUnit} {u : SplitUnit} (hsize : u.text.length ≤ hardCap) :
    after p chunkSize chunkOverlap (before ++ [u]) =
      mergeUnit p chunkSize chunkOverlap u (after p chunkSize chunkOverlap before) := by
  rw [after_concat]
  unfold step
  rw [if_neg (Nat.not_lt.mpr hsize)]

end MergeState

theorem mem_pushPieces {pieces : List SplitUnit} {chunks : List TextChunk} {c : TextChunk}
    (hmem : c ∈ pieces.foldl (fun chunks piece =>
      chunks ++ [⟨piece.text, [], chunks.length, piece.start, piece.stop⟩]) chunks) :
    c ∈ chunks ∨ exists piece seq, piece ∈ pieces ∧
      c = ⟨piece.text, [], seq, piece.start, piece.stop⟩ := by
  induction pieces generalizing chunks with
  | nil =>
      exact Or.inl hmem
  | cons first pieces ih =>
      rw [List.foldl_cons] at hmem
      rcases ih hmem with hold | ⟨piece, seq, hpiece, heq⟩
      · rcases List.mem_append.mp hold with hold | hnew
        · exact Or.inl hold
        · exact Or.inr ⟨first, chunks.length, List.mem_cons_self, List.mem_singleton.mp hnew⟩
      · exact Or.inr ⟨piece, seq, List.mem_cons_of_mem first hpiece, heq⟩

/-- Every chunk is the group of some units, or a slice of a unit longer than the cap. -/
theorem mergeUnits_chunks (Q : TextChunk -> Prop) (hlaid : Laid 0 units)
    (hgroup : forall pre rest front current curLen seq, units = pre ++ rest ->
      Group p chunkSize chunkOverlap units pre front current curLen -> current ≠ [] ->
      Q (buildChunk current seq))
    (hpiece : forall pre u rest piece seq, units = pre ++ u :: rest ->
      hardCap < u.text.length -> piece ∈ forceSplitRunes u.text u.start ->
      Q ⟨piece.text, [], seq, piece.start, piece.stop⟩) :
    forall c, c ∈ mergeUnits p units chunkSize chunkOverlap -> Q c := by
  have hflush : forall {pre rest : List SplitUnit} {front : Nat} {s : MergeState},
      units = pre ++ rest -> Group p chunkSize chunkOverlap units pre front s.current s.curLen ->
      (forall c, c ∈ s.chunks -> Q c) -> forall c, c ∈ s.flushNonempty.chunks -> Q c := by
    intro pre rest front s hunits hopen hold c hmem
    rcases flushNonempty_cases s with ⟨_, hsame⟩ | ⟨hne, hclosed⟩
    · rw [hsame] at hmem
      exact hold c hmem
    · rw [hclosed] at hmem
      rcases List.mem_append.mp hmem with hmem | hnew
      · exact hold c hmem
      · rw [List.mem_singleton.mp hnew]
        exact hgroup pre rest front s.current s.curLen _ hunits hopen hne
  have hrun : forall pre rest, units = pre ++ rest ->
      forall c, c ∈ (after p chunkSize chunkOverlap pre).chunks -> Q c := by
    intro pre
    induction pre using List.reverseRecOn with
    | nil =>
        intro rest _ c hmem
        cases hmem
    | append_singleton pre u ih =>
        intro rest hunits
        rw [List.append_assoc, List.singleton_append] at hunits
        have hold := ih (u :: rest) hunits
        rcases loop_after p chunkSize chunkOverlap hlaid pre (u :: rest) hunits with
          ⟨front, hloop⟩
        rcases opening_ready hloop hunits hlaid with ⟨front', hready⟩
        have hopening := opening_cases p chunkSize chunkOverlap
          (after p chunkSize chunkOverlap pre) u
        rw [after_concat]
        unfold step
        split
        · rename_i hlong
          intro c hmem
          rcases mem_pushPieces hmem with hmem | ⟨piece, seq, hpieces, rfl⟩
          · exact hflush hunits hloop.group hold c hmem
          · exact hpiece pre u rest piece seq hunits hlong hpieces
        · rw [mergeUnit_eq]
          have hopened : forall c, c ∈ (opening p chunkSize chunkOverlap
              (after p chunkSize chunkOverlap pre) u).chunks -> Q c := by
            have hclosed : (after p chunkSize chunkOverlap pre).current ≠ [] ->
                forall c, c ∈ (after p chunkSize chunkOverlap pre).chunks ++
                  [buildChunk (after p chunkSize chunkOverlap pre).current
                    (after p chunkSize chunkOverlap pre).chunks.length] -> Q c := by
              intro hne c hmem
              rcases List.mem_append.mp hmem with hmem | hnew
              · exact hold c hmem
              · rw [List.mem_singleton.mp hnew]
                exact hgroup _ _ _ _ _ _ hunits hloop.group hne
            cases hopening with
            | kept hchunks _ _ _ =>
                rw [hchunks]
                exact hold
            | ended hne hchunks _ _ =>
                rw [hchunks]
                exact hclosed hne
            | opened hne hchunks _ =>
                rw [hchunks]
                exact hclosed hne
          show forall c, c ∈ (capCurrent u _).chunks -> Q c
          unfold capCurrent
          split
          · exact hflush hunits hready.group hopened
          · exact hopened
  have hunits : units = units ++ [] := (List.append_nil units).symm
  rcases loop_after p chunkSize chunkOverlap hlaid units [] hunits with ⟨front, hloop⟩
  exact hflush hunits hloop.group (hrun units [] hunits)

end Runs

end Chunker
end KnowledgeBrain
