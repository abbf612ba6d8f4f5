import KnowledgeBrain.Foundation.Folds
import KnowledgeBrain.Chunker.Coverage
import KnowledgeBrain.Chunker.Loop

/-!
# What the recursive splitter promises

Every chunk is the text at its offsets, behind the header that was active when
it was opened.  The budget holds as long as no header makes the overlap longer
than the cap.
-/

namespace KnowledgeBrain
namespace Chunker

open Foundation MergeState HeaderTracker

/-- The chunk size that the splitter goes by. -/
def effectiveSize (chunkSize : Nat) : Nat :=
  if chunkSize = 0 then defaultChunkSize else chunkSize

/-- The units of a text. -/
def unitsOf (p : Patterns) (text : Text) (chunkSize : Nat) (separators : List Text) :
    List SplitUnit :=
  buildUnitsWithProtection text (protectedSpans p text) separators (effectiveSize chunkSize)

theorem unitsOf_laid (p : Patterns) (text : Text) (chunkSize : Nat) (separators : List Text) :
    Laid 0 (unitsOf p text chunkSize separators) ∧
      unitsText (unitsOf p text chunkSize separators) = text :=
  laid_buildUnits p text separators (effectiveSize chunkSize)

theorem splitText_eq (p : Patterns) (text : Text) (chunkSize chunkOverlap : Nat)
    (separators : List Text) :
    splitText p text chunkSize chunkOverlap separators =
      mergeUnits p (unitsOf p text chunkSize separators) (effectiveSize chunkSize)
        chunkOverlap := by
  unfold splitText
  split
  · rename_i hempty
    rcases unitsOf_laid p text chunkSize separators with ⟨hlaid, htext⟩
    rw [List.isEmpty_iff.mp hempty] at htext hlaid ⊢
    cases hunits : unitsOf p [] chunkSize separators with
    | nil =>
        rfl
    | cons u rest =>
        rw [hunits] at htext hlaid
        exact absurd (List.append_eq_nil_iff.mp htext).1 hlaid.2.1
  · rfl

theorem splitText_emission (p : Patterns) (text : Text) (chunkSize chunkOverlap : Nat)
    (separators : List Text) :
    exists front, Emission (Made p (effectiveSize chunkSize) chunkOverlap
        (unitsOf p text chunkSize separators))
      (splitText p text chunkSize chunkOverlap separators) front := by
  rw [splitText_eq]
  exact ⟨_, mergeUnits_emission (unitsOf_laid p text chunkSize separators).1⟩

/-!
# Contents
-/

/-- A chunk is opened at the unit that starts where the chunk before it ends. -/
def OpenedAt (chunks : List TextChunk) (c : TextChunk) (u : SplitUnit) : Prop :=
  (c.seq = 0 ∧ u.start = 0) ∨
    exists prev, prev ∈ chunks ∧ prev.seq + 1 = c.seq ∧ prev.stop = u.start

/-- The text at the offsets, behind nothing or the header that was active when
the chunk was opened. -/
def Faithful (p : Patterns) (chunkSize : Nat) (units : List SplitUnit) (text : Text)
    (chunks : List TextChunk) (c : TextChunk) : Prop :=
  exists header, c.content = header ++ slice text c.start c.stop ∧
    (header = [] ∨ header.length ≤ chunkSize ∧ exists before u after,
      units = before ++ u :: after ∧ OpenedAt chunks c u ∧
        header = (trackUnits p (before ++ [u])).getHeaders)

/-!
# Texts without a table
-/

section NoTable

variable {p : Patterns} {split : Text} {ht : HeaderTracker}

theorem none_breakTable (p : Patterns) (split : Text) (h : ht.activeHeader = none) :
    (ht.breakTable p split).activeHeader = none := by
  unfold breakTable
  split
  · simp only [h, Option.isSome_none, Bool.false_eq_true, if_false]
  · exact h

theorem none_endTable (p : Patterns) (split : Text) (h : ht.activeHeader = none) :
    (ht.endTable p split).activeHeader = none := by
  unfold endTable
  split
  · rfl
  · exact h

theorem none_watchTable (p : Patterns) (split : Text) (h : ht.activeHeader = none) :
    (ht.watchTable p split).activeHeader = none := by
  unfold watchTable
  simp only [h, Option.isSome_none, Bool.false_and, Bool.false_eq_true, if_false]

theorem none_extendHeader (p : Patterns) (split : Text) (h : ht.activeHeader = none) :
    (ht.extendHeader p split).activeHeader = none := by
  unfold extendHeader
  split
  · simp only [h]
  · exact h

theorem none_startTable (hstart : p.tableStart split = none) (h : ht.activeHeader = none) :
    (ht.startTable p split).activeHeader = none := by
  unfold startTable
  rw [hstart]
  split
  · exact h
  · exact h

theorem none_update (hstart : p.tableStart split = none) (h : ht.activeHeader = none) :
    (ht.update p split).activeHeader = none := by
  have hreset : ({ ht with headerEndedThisUnit := false } : HeaderTracker).activeHeader = none := h
  have hbroken := none_breakTable p split hreset
  have hended := none_endTable p split hbroken
  have hwatched := none_watchTable p split hended
  have hstarted := none_startTable hstart (none_extendHeader p split hwatched)
  unfold HeaderTracker.update forgetEnded
  split
  · exact hstarted
  · exact hstarted

theorem trackUnits_none {units : List SplitUnit}
    (hstart : forall u, u ∈ units -> p.tableStart u.text = none) :
    (trackUnits p units).getHeaders = [] := by
  have hnone : (trackUnits p units).activeHeader = none := by
    unfold trackUnits
    apply foldl_invariant_mem (P := fun ht : HeaderTracker => ht.activeHeader = none)
    · intro ht u hmem h
      exact none_update (hstart u hmem) h
    · rfl
  unfold getHeaders
  rw [hnone]
  rfl

end NoTable

/-- Every chunk is faithful to its offsets; where no unit is a table header, its
content is exactly the text between them. -/
theorem splitText_faithful (p : Patterns) (text : Text) (chunkSize chunkOverlap : Nat)
    (separators : List Text) :
    (forall c, c ∈ splitText p text chunkSize chunkOverlap separators ->
      Faithful p (effectiveSize chunkSize) (unitsOf p text chunkSize separators) text
        (splitText p text chunkSize chunkOverlap separators) c) ∧
    ((forall u, u ∈ unitsOf p text chunkSize separators -> p.tableStart u.text = none) ->
      forall c, c ∈ splitText p text chunkSize chunkOverlap separators ->
        c.content = slice text c.start c.stop) := by
  have hfaithful : forall c, c ∈ splitText p text chunkSize chunkOverlap separators ->
      Faithful p (effectiveSize chunkSize) (unitsOf p text chunkSize separators) text
        (splitText p text chunkSize chunkOverlap separators) c := by
    rcases splitText_emission p text chunkSize chunkOverlap separators with ⟨front, hemission⟩
    intro c hmem
    rcases hemission.made c hmem with ⟨before, hmade, hprev⟩
    rcases hmade.content with ⟨header, hcontent, hheader⟩
    rw [(unitsOf_laid p text chunkSize separators).2] at hcontent
    refine ⟨header, hcontent, ?_⟩
    rcases hheader with hnone | ⟨earlier, u, later, hunits, hstart, hactive, hsize⟩
    · exact Or.inl hnone
    · right
      refine ⟨hsize, earlier, u, later, hunits, ?_, hactive⟩
      rcases hprev with ⟨hseq, hzero⟩ | ⟨prev, hmem', hnumber, hstop⟩
      · exact Or.inl ⟨hseq, hstart.trans hzero⟩
      · exact Or.inr ⟨prev, hmem', hnumber, hstop.trans hstart.symm⟩
  constructor
  · exact hfaithful
  · intro hstart c hmem
    rcases hfaithful c hmem with ⟨header, hcontent, hheader⟩
    have hnone : header = [] := by
      rcases hheader with hnone | ⟨_, before, u, after, hunits, _, hactive⟩
      · exact hnone
      · rw [hactive]
        apply trackUnits_none
        intro v hv
        apply hstart v
        rw [hunits]
        rcases List.mem_append.mp hv with hbefore | hlast
        · exact List.mem_append_left _ hbefore
        · cases List.mem_singleton.mp hlast
          exact List.mem_append_right _ List.mem_cons_self
    rw [hcontent, hnone]
    rfl

/-!
# The budget
-/

/-- The budget of the chunks of a text.  `counted` says that the running length
is the length of what is collected, whenever a unit is looked at, and that the
loop that drops units never takes away more than there is. -/
structure WithinBudget (p : Patterns) (text : Text) (chunkSize chunkOverlap : Nat)
    (separators : List Text) : Prop where
  cap : forall c, c ∈ splitText p text chunkSize chunkOverlap separators ->
    c.content.length ≤ hardCap
  single : forall c, c ∈ splitText p text chunkSize chunkOverlap separators ->
    chunkSize < c.content.length -> exists u, Atom (unitsOf p text chunkSize separators) u ∧
      Indivisible p text separators u.text ∧ c.content = u.text ∧ c.start = u.start ∧
      c.stop = u.stop
  neighbours : List.IsChain (fun prev c => c.start ≤ prev.stop ∧
      prev.stop - c.start ≤ chunkOverlap ∧
      (chunkSize < c.content.length -> c.start = prev.stop))
    (splitText p text chunkSize chunkOverlap separators)
  counted : forall before rest, unitsOf p text chunkSize separators = before ++ rest ->
    (after p chunkSize chunkOverlap before).curLen =
      place (after p chunkSize chunkOverlap before).current ∧
    forall extra nextLen, ShrinkExact chunkSize extra
      (computeOverlap (after p chunkSize chunkOverlap before).current chunkOverlap
        chunkSize nextLen).1
      (computeOverlap (after p chunkSize chunkOverlap before).current chunkOverlap
        chunkSize nextLen).2

theorem effectiveSize_eq {chunkSize : Nat} (hsize : 0 < chunkSize) :
    effectiveSize chunkSize = chunkSize :=
  if_neg (Nat.pos_iff_ne_zero.mp hsize)

theorem not_overfull_of_le {p : Patterns} {chunkSize chunkOverlap : Nat}
    {units : List SplitUnit} (hlaid : Laid 0 units) (hsize : chunkSize ≤ hardCap) :
    ¬ OverfullHead p chunkSize chunkOverlap units := by
  rintro ⟨before, u, rest, hunits, hshort, hover⟩
  rcases loop_after p chunkSize chunkOverlap hlaid before
    (u :: rest) hunits with ⟨front, hloop⟩
  rcases opening_ready hloop hunits hlaid with ⟨front', hready⟩
  rcases hready.room with hnil | hroom
  · have hcounted := hready.group.counted
    rw [hnil] at hcounted
    rw [hcounted] at hover
    exact absurd hover (Nat.not_lt_zero hardCap)
  · omega

variable {u : SplitUnit}

variable {p : Patterns} {text : Text} {separators : List Text} {chunkSize : Nat}

theorem length_le_of_slice {whole : Text} {base : Nat}
    (hmem : u ∈ forceSplitRunes whole base) : u.text.length ≤ whole.length := by
  have hspell := (laid_forceSplitRunes whole base).2
  rcases List.append_of_mem hmem with ⟨before, after, heq⟩
  rw [heq, unitsText_append, unitsText_cons] at hspell
  have hlength := congrArg List.length hspell
  simp only [List.length_append] at hlength
  omega

/-- What is pushed whole and is longer than a chunk cannot be divided. -/
theorem indivisible_of_atom (hsize : 0 < chunkSize)
    (hatom : Atom (unitsOf p text chunkSize separators) u) (hlong : chunkSize < u.text.length) :
    Indivisible p text separators u.text := by
  have horigin : forall v, v ∈ unitsOf p text chunkSize separators -> chunkSize < v.text.length ->
      WholePiece p text separators v.text ∨ exists whole base,
        WholePiece p text separators whole ∧ hardCap < whole.length ∧
          v ∈ forceSplitRunes whole base := by
    intro v hmem
    unfold unitsOf at hmem
    rw [effectiveSize_eq hsize] at hmem
    exact indivisible_of_unitsBetween hsize (protectedSpans p text) (fun _ hm => hm) 0 0 v hmem
  rcases hatom with ⟨hmem, _⟩ | ⟨whole, hmem, hcap, hslice⟩
  · rcases horigin u hmem hlong with hwhole | ⟨whole, base, hwhole, hcap, hslice⟩
    · exact .whole hwhole
    · exact .slice whole base u hwhole hcap hslice rfl
  · have hle := length_le_of_slice hslice
    rcases horigin whole hmem (Nat.lt_of_lt_of_le hlong hle) with hwhole | ⟨_, _, _, _, hshort⟩
    · exact .slice whole.text whole.start u hwhole hcap hslice rfl
    · exact absurd hcap (Nat.not_lt.mpr (forceSplitRunes_within _ _ whole hshort))

theorem not_withinBudget_of_overfull {p : Patterns} {text : Text} {chunkSize chunkOverlap : Nat}
    {separators : List Text} (hsize : 0 < chunkSize)
    (hover : OverfullHead p chunkSize chunkOverlap (unitsOf p text chunkSize separators)) :
    ¬ WithinBudget p text chunkSize chunkOverlap separators := by
  intro h
  rcases overfull_pushed (unitsOf_laid p text chunkSize separators).1 hover with
    ⟨c, hmem, hlong⟩
  have hcap := h.cap c
  rw [splitText_eq, effectiveSize_eq hsize] at hcap
  exact absurd hlong (Nat.not_lt.mpr (hcap hmem))

/-- The budget holds exactly where no header, put in front of the overlap, makes
a group that is longer than the cap. -/
theorem splitText_budget_iff (p : Patterns) (text : Text) (chunkSize chunkOverlap : Nat)
    (separators : List Text) (hsize : 0 < chunkSize) :
    WithinBudget p text chunkSize chunkOverlap separators <->
      ¬ OverfullHead p chunkSize chunkOverlap (unitsOf p text chunkSize separators) := by
  have hlaid := (unitsOf_laid p text chunkSize separators).1
  rcases splitText_emission p text chunkSize chunkOverlap separators with ⟨front, hemission⟩
  rw [effectiveSize_eq hsize] at hemission
  constructor
  · intro h hover
    exact not_withinBudget_of_overfull hsize hover h
  · intro hfits
    constructor
    · intro c hmem
      rcases hemission.made c hmem with ⟨before, hmade, _⟩
      rcases hmade.cap with hcap | hover
      · exact hcap
      · exact absurd hover hfits
    · intro c hmem hlong
      rcases hemission.made c hmem with ⟨before, hmade, _⟩
      rcases hmade.long hlong with ⟨_, u, hatom, hcontent, hstart, hstop⟩
      rw [hcontent] at hlong
      exact ⟨u, hatom, indivisible_of_atom hsize hatom hlong, hcontent, hstart, hstop⟩
    · have hrelated : Emission (fun front c => c.start ≤ front ∧
            front - c.start ≤ chunkOverlap ∧ (chunkSize < c.content.length -> c.start = front))
          (splitText p text chunkSize chunkOverlap separators) front :=
        hemission.mono fun front c hmade => ⟨hmade.start_le,
          Nat.sub_le_iff_le_add'.mpr hmade.reuse, fun hlong => (hmade.long hlong).1⟩
      exact hrelated.neighbours.1
    · intro before rest hunits
      rcases loop_after p chunkSize chunkOverlap hlaid
        before rest hunits with ⟨front', hloop⟩
      constructor
      · exact hloop.group.counted
      · intro extra nextLen
        apply shrinkExact_of_counted
        exact (computeOverlap_measured _ chunkOverlap chunkSize nextLen).1.counted

/-- The budget of the table. -/
theorem table_within_budget : WithinBudget tablePatterns tableText 14 5 [] :=
  (splitText_budget_iff tablePatterns tableText 14 5 [] (by decide)).mpr
    (not_overfull_of_le (unitsOf_laid tablePatterns tableText 14 []).1 (by decide))

/-!
# A header longer than the cap
-/

/-- A header row and its rule, behind which there are only line feeds. -/
def longHead : Text := "|A\n|---".toList ++ List.replicate 7600 '\n'

def longText : Text := longHead ++ (firstRow ++ secondRow)

def longRows (t : Text) : List Span :=
  if t.length = 7615 then [⟨7607, 7611⟩, ⟨7611, 7615⟩] else []

theorem ordered_longRows (t : Text) : Span.Ordered 0 t.length (longRows t) := by
  unfold longRows
  split
  · rename_i heq
    rw [heq]
    decide
  · exact Nat.zero_le _

/-- What the patterns find in the long text and in its lines: the header row has
no closing bar, so it is not protected. -/
def longPatterns : Patterns :=
  { tablePatterns with
    tableHeader := noMatches
    tableRows := ⟨longRows, ordered_longRows⟩
    tableStart := fun t => if '|' ∈ t ∧ t.length = 7607 then some t else none
    tableStart_bar := by
      intro t m h
      split at h
      · rename_i hbar
        cases h
        exact hbar.1
      · cases h }

def longTracker : HeaderTracker := ⟨some longHead, false, false, false, false⟩

def headUnit : SplitUnit := ⟨longHead, 0, 7607⟩

def firstUnit : SplitUnit := ⟨firstRow, 7607, 7611⟩

def secondUnit : SplitUnit := ⟨secondRow, 7611, 7615⟩

theorem length_longHead : longHead.length = 7607 := by
  unfold longHead
  rw [List.length_append, List.length_replicate]
  rfl

set_option maxRecDepth 100000 in
theorem update_longHead :
    HeaderTracker.new.update longPatterns longHead = longTracker := by
  decide +kernel

set_option maxRecDepth 100000 in
theorem update_firstRow : longTracker.update longPatterns firstRow = longTracker := by
  decide +kernel

set_option maxRecDepth 100000 in
theorem update_secondRow : longTracker.update longPatterns secondRow = longTracker := by
  decide +kernel

set_option maxRecDepth 100000 in
theorem secondRow_takes_longHead : (!headerAlreadyPresent longHead [] secondRow &&
    !longPatterns.headerColumnMismatch longHead secondRow) = true := by
  decide +kernel

set_option maxRecDepth 100000 in
theorem unitsOf_longText :
    unitsOf longPatterns longText 7611 [] = [headUnit, firstUnit, secondUnit] := by
  decide +kernel

theorem after_longHead : exists chunks,
    after longPatterns 7611 0 [headUnit] = ⟨longTracker, chunks, [], 0⟩ := by
  have hlong : hardCap < headUnit.text.length := by
    unfold headUnit
    rw [length_longHead]
    decide
  have hht : HeaderTracker.new.update longPatterns headUnit.text = longTracker := update_longHead
  refine ⟨(start.pushPieces (forceSplitRunes headUnit.text headUnit.start)).chunks, ?_⟩
  simp only [after, List.foldl_cons, List.foldl_nil, step, if_pos hlong,
    mergeOversize, flushNonempty, start, List.isEmpty_nil,
    if_true, hht, pushPieces]

theorem usableHeaders_long : usableHeaders 7611 longTracker = longHead := by
  have hheader : longTracker.getHeaders = longHead := by
    unfold getHeaders longTracker
    exact Option.getD_some
  have hlength : ¬ 7611 < longHead.length := by
    rw [length_longHead]
    decide
  unfold usableHeaders
  rw [hheader, if_neg hlength]

/-- The first row finds nothing collected. -/
theorem after_firstRow : exists chunks,
    after longPatterns 7611 0 [headUnit, firstUnit] =
      ⟨longTracker, chunks, [firstUnit], 4⟩ := by
  rcases after_longHead with ⟨chunks, hafter⟩
  have hshort : ¬ hardCap < firstUnit.text.length := by decide
  have hht : longTracker.update longPatterns firstUnit.text = longTracker := update_firstRow
  have hended : longTracker.headerEndedThisUnit = false := by
    unfold longTracker
    rfl
  have hroom : ¬ hardCap < 0 + firstUnit.text.length := by decide
  refine ⟨chunks, ?_⟩
  show after longPatterns 7611 0 ([headUnit] ++ [firstUnit]) = _
  rw [after_concat, hafter]
  simp only [step, if_neg hshort, mergeUnit, hht, hended,
    Bool.false_eq_true, if_false, usableHeaders_long, overflow, List.isEmpty_nil,
    Bool.not_true, Bool.and_false, capCurrent, if_neg hroom, push,
    List.nil_append]
  rfl

/-- The second row puts the header in front of an empty overlap. -/
theorem opening_secondRow (chunks : List TextChunk) :
    (opening longPatterns 7611 0 ⟨longTracker, chunks, [firstUnit], 4⟩
      secondUnit).curLen = 7607 := by
  have hht : longTracker.update longPatterns secondUnit.text = longTracker := update_secondRow
  have hended : longTracker.headerEndedThisUnit = false := by
    unfold longTracker
    rfl
  have hfull : decide (7611 < 4 + secondUnit.text.length + 7607) = true := by decide
  have hfits : decide (7607 + secondUnit.text.length ≤ 7611) = true := by decide
  have hnonempty : longHead.isEmpty = false := by
    unfold longHead
    rfl
  have habsent : (!headerAlreadyPresent longHead (unitsText []) secondUnit.text &&
      !longPatterns.headerColumnMismatch longHead secondUnit.text) = true :=
    secondRow_takes_longHead
  simp only [opening, hht, hended, Bool.false_eq_true, if_false, usableHeaders_long,
    overflow, hfull, List.isEmpty_cons, Bool.not_false, Bool.and_true, if_true,
    computeOverlap, flush, injectHeader, hnonempty, hfits,
    shrink, habsent, length_longHead, Nat.zero_add]

/-- The rows of a table are put behind a header of more than the cap. -/
theorem longText_over_budget : ¬ WithinBudget longPatterns longText 7611 0 [] := by
  intro h
  rcases after_firstRow with ⟨chunks, hafter⟩
  have hover : OverfullHead longPatterns 7611 0 (unitsOf longPatterns longText 7611 []) := by
    refine ⟨[headUnit, firstUnit], secondUnit, [], unitsOf_longText, by decide, ?_⟩
    rw [hafter, opening_secondRow chunks]
    decide
  exact not_withinBudget_of_overfull (by decide) hover h

/-!
# Chunks advance

A unit that does not fit closes the group, and the next one is opened with an
overlap and a header.  Where the cap then closes the new group before the unit
is in it, the chunk has only what the chunk before it had.
-/

/-- Every chunk addresses text, and the ends ascend. -/
structure Advances (chunks : List TextChunk) : Prop where
  ranges : forall c, c ∈ chunks -> c.start < c.stop
  stops : List.IsChain (fun c d => c.stop < d.stop) chunks

namespace Emission

variable {R R' : Nat -> TextChunk -> Prop} {chunks : List TextChunk} {front : Nat}

theorem of_concat {c : TextChunk} (h : Emission R (chunks ++ [c]) front) :
    front = c.stop ∧ c.seq = chunks.length ∧
      exists before, Emission R chunks before ∧ R before c := by
  generalize hall : chunks ++ [c] = all at h
  cases h with
  | nil =>
      simp at hall
  | @push earlier before d hbefore hmade hseq =>
      rcases List.append_inj' hall rfl with ⟨rfl, hlast⟩
      cases hlast
      exact ⟨rfl, hseq, before, hbefore, hmade⟩

theorem and {front' : Nat} (h : Emission R chunks front) (h' : Emission R' chunks front') :
    front = front' ∧ Emission (fun front c => R front c ∧ R' front c) chunks front := by
  induction h generalizing front' with
  | nil =>
      rcases h'.front_eq with ⟨_, hzero⟩ | ⟨prev, hprev, _⟩
      · exact ⟨hzero.symm, Emission.nil⟩
      · cases hprev
  | push _ hmade hseq ih =>
      rcases h'.of_concat with ⟨hfront, _, before, hbefore, hmade'⟩
      rcases ih hbefore with ⟨rfl, hboth⟩
      exact ⟨hfront.symm, Emission.push hboth ⟨hmade, hmade'⟩ hseq⟩

end Emission

section Steps

variable (p : Patterns) (chunkSize chunkOverlap : Nat)

namespace MergeState

/-- The unit fits neither into the group nor behind the overlap and the header
that are the next one. -/
def ClosesTwice (s : MergeState) (u : SplitUnit) : Prop :=
  Overflows p chunkSize s u ∧ (opening p chunkSize chunkOverlap s u).current ≠ [] ∧
    hardCap < (opening p chunkSize chunkOverlap s u).curLen + u.text.length

end MergeState

/-- At some unit two groups are closed. -/
def ClosedTwice (units : List SplitUnit) : Prop :=
  exists before u rest, units = before ++ u :: rest ∧ u.text.length ≤ hardCap ∧
    ClosesTwice p chunkSize chunkOverlap
      (after p chunkSize chunkOverlap before) u

end Steps

section Runs

variable {p : Patterns} {chunkSize chunkOverlap : Nat} {units : List SplitUnit}

/-!
# Ends
-/

/-- The ends of the chunks ascend up to the front, and a group that is open has
a unit behind it. -/
def Fresh (pre : List SplitUnit) (s : MergeState) : Prop :=
  exists front, Emission (fun front c => front < c.stop) s.chunks front ∧ front ≤ place pre ∧
    (s.current ≠ [] -> front < place pre)

variable {pre rest : List SplitUnit} {s : MergeState}

theorem Fresh.close {front : Nat} (h : Fresh pre s)
    (hgroup : Group p chunkSize chunkOverlap units pre front s.current s.curLen)
    (hunits : units = pre ++ rest) (hlaid : Laid 0 units) (hopen : s.current ≠ []) :
    Emission (fun front c => front < c.stop)
      (s.chunks ++ [buildChunk s.current s.chunks.length]) (place pre) := by
  rcases h with ⟨last, hemission, _, hbehind⟩
  rcases hgroup.ends hunits hlaid hopen s.chunks.length with ⟨_, _, _, _, _, hstop⟩
  rw [← hstop]
  apply Emission.push hemission
  · rw [hstop]
    exact hbehind hopen
  · rfl

theorem Fresh.flush {front : Nat} (h : Fresh pre s)
    (hgroup : Group p chunkSize chunkOverlap units pre front s.current s.curLen)
    (hunits : units = pre ++ rest) (hlaid : Laid 0 units) :
    exists front, Emission (fun front c => front < c.stop) s.flushNonempty.chunks front ∧
      front ≤ place pre := by
  rcases flushNonempty_cases s with ⟨_, hsame⟩ | ⟨hopen, hflush⟩
  · rcases h with ⟨last, hemission, hle, _⟩
    rw [hsame]
    exact ⟨last, hemission, hle⟩
  · rw [hflush]
    exact ⟨place pre, h.close hgroup hunits hlaid hopen, Nat.le_refl _⟩

theorem fresh_mergeUnit {front : Nat} (hloop : Loop p chunkSize chunkOverlap units pre front
      (after p chunkSize chunkOverlap pre))
    (h : Fresh pre (after p chunkSize chunkOverlap pre))
    (hunits : units = pre ++ u :: rest) (hlaid : Laid 0 units)
    (honce : ¬ ClosesTwice p chunkSize chunkOverlap
      (after p chunkSize chunkOverlap pre) u) :
    Fresh (pre ++ [u]) (mergeUnit p chunkSize chunkOverlap u
      (after p chunkSize chunkOverlap pre)) := by
  generalize after p chunkSize chunkOverlap pre = s at hloop h honce ⊢
  have hcapped : exists last, Emission (fun front c => front < c.stop)
      (capCurrent u (opening p chunkSize chunkOverlap s u)).chunks last ∧
      last ≤ place pre := by
    have hopening := opening_cases p chunkSize chunkOverlap s u
    have hcap := capCurrent_cases u (opening p chunkSize chunkOverlap s u)
    have honce' := fun hfull => not_and.mp honce hfull
    generalize opening p chunkSize chunkOverlap s u = s' at hopening hcap honce' ⊢
    cases hopening with
    | kept hchunks hcurrent hlen _ =>
        have hfresh : Fresh pre s' := by
          unfold Fresh
          rw [hchunks, hcurrent]
          exact h
        have hgroup : Group p chunkSize chunkOverlap units pre front s'.current s'.curLen := by
          rw [hcurrent, hlen]
          exact hloop.group
        rcases hcap with hsame | ⟨_, hopen, hflush⟩
        · rcases hfresh with ⟨last, hemission, hle, _⟩
          rw [hsame]
          exact ⟨last, hemission, hle⟩
        · rw [hflush]
          exact ⟨place pre, hfresh.close hgroup hunits hlaid hopen, Nat.le_refl _⟩
    | ended hopen hchunks hcurrent _ =>
        rcases hcap with hsame | ⟨_, hopen', _⟩
        · rw [hsame, hchunks]
          exact ⟨place pre, h.close hloop.group hunits hlaid hopen, Nat.le_refl _⟩
        · exact absurd hcurrent hopen'
    | opened hopen hchunks hfull =>
        rcases hcap with hsame | ⟨hlong, hopen', _⟩
        · rw [hsame, hchunks]
          exact ⟨place pre, h.close hloop.group hunits hlaid hopen, Nat.le_refl _⟩
        · exact absurd ⟨hopen', hlong⟩ (honce' hfull)
  rcases hcapped with ⟨last, hemission, hle⟩
  have hlt : place pre < place (pre ++ [u]) := by
    rw [place_append, place_cons, place_nil]
    apply Nat.lt_add_of_pos_right
    exact List.length_pos_iff.mpr (laid_start hlaid hunits).2.2
  exact ⟨last, hemission, Nat.le_of_lt (Nat.lt_of_le_of_lt hle hlt),
    fun _ => Nat.lt_of_le_of_lt hle hlt⟩

/-- Pieces that follow each other are pushed one by one. -/
theorem emission_forward {pieces : List SplitUnit} {chunks : List TextChunk} {front a : Nat}
    (h : Emission (fun front c => front < c.stop) chunks front) (hle : front ≤ a)
    (hlaid : Laid a pieces) :
    exists last, Emission (fun front c => front < c.stop)
        (pieces.foldl (fun chunks piece =>
          chunks ++ [⟨piece.text, [], chunks.length, piece.start, piece.stop⟩]) chunks) last ∧
      last ≤ a + place pieces := by
  induction pieces generalizing chunks front a with
  | nil =>
      exact ⟨front, h, hle⟩
  | cons piece pieces ih =>
      rcases hlaid with ⟨_, hne, hstop, hrest⟩
      have hpos := List.length_pos_iff.mpr hne
      have hpush : Emission (fun front c => front < c.stop)
          (chunks ++ [⟨piece.text, [], chunks.length, piece.start, piece.stop⟩]) piece.stop := by
        apply Emission.push (c := ⟨piece.text, [], chunks.length, piece.start, piece.stop⟩) h
        · show front < piece.stop
          omega
        · rfl
      rcases ih hpush (Nat.le_refl _) hrest with ⟨last, hemission, hlast⟩
      refine ⟨last, hemission, ?_⟩
      rw [place_cons]
      omega

theorem fresh_mergeOversize {front : Nat}
    (hloop : Loop p chunkSize chunkOverlap units pre front s) (h : Fresh pre s)
    (hunits : units = pre ++ u :: rest) (hlaid : Laid 0 units) :
    Fresh (pre ++ [u]) (mergeOversize p u s) := by
  rcases h.flush hloop.group hunits hlaid with ⟨front', hemission, hle⟩
  rcases laid_forceSplitRunes u.text u.start with ⟨hpieces, hspell⟩
  rw [(laid_start hlaid hunits).1] at hpieces hspell
  rcases emission_forward hemission hle hpieces with ⟨last, hpushed, hlast⟩
  have hcurrent : (mergeOversize p u s).current = [] := by
    show s.flushNonempty.current = []
    rcases flushNonempty_cases s with ⟨hnil, hsame⟩ | ⟨_, hflush⟩
    · rw [hsame]
      exact hnil
    · rw [hflush]
      rfl
  refine ⟨last, ?_, ?_, ?_⟩
  · show Emission _ ((forceSplitRunes u.text u.start).foldl _ s.flushNonempty.chunks) _
    rw [(laid_start hlaid hunits).1]
    exact hpushed
  · have hpiecesPlace : place (forceSplitRunes u.text (place pre)) = u.text.length := by
      unfold place at hspell ⊢
      rw [hspell]
    rw [hpiecesPlace] at hlast
    rw [place_append, place_cons, place_nil]
    exact hlast
  · intro hopen
    exact absurd hcurrent hopen

variable (p chunkSize chunkOverlap) in
/-- The invariant holds after any number of units of which none closes two groups. -/
theorem fresh_after (hlaid : Laid 0 units) (honce : ¬ ClosedTwice p chunkSize chunkOverlap units)
    (pre : List SplitUnit) :
    forall rest, units = pre ++ rest ->
      Fresh pre (after p chunkSize chunkOverlap pre) := by
  induction pre using List.reverseRecOn with
  | nil =>
      intro rest _
      exact ⟨0, Emission.nil, Nat.le_refl _, fun h => absurd rfl h⟩
  | append_singleton pre u ih =>
      intro rest hunits
      rw [List.append_assoc, List.singleton_append] at hunits
      have h := ih (u :: rest) hunits
      rcases loop_after p chunkSize chunkOverlap hlaid pre (u :: rest) hunits with
        ⟨front, hloop⟩
      rw [after_concat]
      unfold step
      split
      · exact fresh_mergeOversize hloop h hunits hlaid
      · rename_i hshort
        apply fresh_mergeUnit hloop h hunits hlaid
        intro htwice
        exact honce ⟨pre, u, rest, hunits, Nat.le_of_not_lt hshort, htwice⟩

/-- A group that is closed before a unit is in it ends where the chunk before it ends. -/
theorem repeated_end (hlaid : Laid 0 units) (h : ClosedTwice p chunkSize chunkOverlap units) :
    exists chunks c d more, mergeUnits p units chunkSize chunkOverlap =
      chunks ++ c :: d :: more ∧ c.stop = d.stop := by
  rcases h with ⟨before, u, rest, hunits, hsize, hfull, hopen, hlong⟩
  rcases loop_after p chunkSize chunkOverlap hlaid before (u :: rest) hunits with ⟨front, hloop⟩
  rcases opening_ready hloop hunits hlaid with ⟨front', hready⟩
  have hlater := after_chunks p chunkSize chunkOverlap (before ++ [u]) rest
  rw [List.append_assoc, List.singleton_append, ← hunits,
    after_short hsize, mergeUnit_eq] at hlater
  rcases hready.group.ends hunits hlaid hopen
    (opening p chunkSize chunkOverlap
      (after p chunkSize chunkOverlap before) u).chunks.length with
    ⟨_, _, _, _, _, hstop'⟩
  have hopening := opening_cases p chunkSize chunkOverlap
    (after p chunkSize chunkOverlap before) u
  generalize after p chunkSize chunkOverlap before = s
    at hlater hopening hfull hloop hopen hlong hstop'
  generalize opening p chunkSize chunkOverlap s u = s'
    at hlater hopening hopen hlong hstop'
  cases hopening with
  | kept _ _ _ hfits =>
      exact absurd hfull hfits
  | ended _ _ _ hfits =>
      exact absurd hfull hfits
  | opened hopen' hchunks _ =>
      rcases hloop.group.ends hunits hlaid hopen' s.chunks.length with ⟨_, _, _, _, _, hstop⟩
      have hpushed : (push u (capCurrent u s')).chunks =
          s.chunks ++ [buildChunk s.current s.chunks.length] ++
            [buildChunk s'.current s'.chunks.length] := by
        rw [← hchunks]
        show (capCurrent u s').chunks = _
        unfold capCurrent flushNonempty
        rw [if_pos hlong, if_neg (by simpa using hopen)]
        rfl
      rw [hpushed] at hlater
      rcases hlater.trans (flushNonempty_chunks _) with ⟨more, hmore⟩
      refine ⟨s.chunks, _, _, more, ?_, hstop.trans hstop'.symm⟩
      have hmerged : mergeUnits p units chunkSize chunkOverlap =
          (after p chunkSize chunkOverlap units).flushNonempty.chunks := rfl
      rw [hmerged, ← hmore]
      simp only [List.append_assoc, List.cons_append, List.nil_append]

/-- The chunks of some units advance exactly where no unit closes two groups. -/
theorem mergeUnits_advances_iff (hlaid : Laid 0 units) :
    Advances (mergeUnits p units chunkSize chunkOverlap) <->
      ¬ ClosedTwice p chunkSize chunkOverlap units := by
  constructor
  · intro h htwice
    rcases repeated_end hlaid htwice with ⟨chunks, c, d, more, heq, hsame⟩
    have hstops := h.stops
    rw [heq, List.isChain_append_cons_cons] at hstops
    exact absurd hsame (Nat.ne_of_lt hstops.2.1)
  · intro honce
    have hunits : units = units ++ [] := (List.append_nil units).symm
    rcases loop_after p chunkSize chunkOverlap hlaid units [] hunits with ⟨front, hloop⟩
    rcases (fresh_after p chunkSize chunkOverlap hlaid honce units [] hunits).flush hloop.group
      hunits hlaid with ⟨last, hforward, _⟩
    have hmade : Emission (Made p chunkSize chunkOverlap units)
        (mergeUnits p units chunkSize chunkOverlap) (place units) := mergeUnits_emission hlaid
    have hboth := (hmade.and hforward).2
    constructor
    · intro c hmem
      rcases hboth.made c hmem with ⟨before, ⟨hmade, hlt⟩, _⟩
      exact Nat.lt_of_le_of_lt hmade.start_le hlt
    · exact hforward.neighbours.1

end Runs

/-- The recursive splitter advances exactly where no unit closes two groups: the
one it does not fit into, and the overlap and header that open the next. -/
theorem splitText_advances_iff (p : Patterns) (text : Text) (chunkSize chunkOverlap : Nat)
    (separators : List Text) :
    Advances (splitText p text chunkSize chunkOverlap separators) <->
      ¬ ClosedTwice p (effectiveSize chunkSize) chunkOverlap
        (unitsOf p text chunkSize separators) := by
  rw [splitText_eq]
  exact mergeUnits_advances_iff (unitsOf_laid p text chunkSize separators).1

/-!
# A unit that closes two groups
-/

/-- What the patterns find in lower case words between line feeds: nothing. -/
def plainPatterns : Patterns where
  latex := noMatches
  image := noMatches
  link := noMatches
  tableHeader := noMatches
  tableRows := noMatches
  fence := noMatches
  tableStart _ := none
  tableEnd _ := false
  tableRow _ := false
  markdownHeading _ := none
  numberedSection _ := false
  allCapsHeading _ := false
  visualSeparator _ := false
  pageFooter _ := false
  germanChapter _ := false
  englishChapter _ := false
  chineseChapter _ := false
  excessiveBlanks := noMatches
  tableStart_bar _ _ h := by cases h
  tableRow_bar _ h := by cases h

/-- Two short lines and one that is nearly as long as the cap. -/
def twoClosings : Text :=
  List.replicate 700 'a' ++ '\n' :: (List.replicate 50 'b' ++ '\n' :: List.replicate 7490 'c')

set_option maxRecDepth 100000 in
theorem spans_twoClosings : (splitText plainPatterns twoClosings 8000 100 [['\n']]).map
    TextChunk.span = [⟨0, 752⟩, ⟨701, 752⟩, ⟨752, 8242⟩] := by
  decide +kernel

/-- The second line is pushed again before the third. -/
theorem twoClosings_repeats :
    ¬ Advances (splitText plainPatterns twoClosings 8000 100 [['\n']]) := by
  intro h
  have hstops : List.IsChain (fun m n : Span => m.stop < n.stop)
      ((splitText plainPatterns twoClosings 8000 100 [['\n']]).map TextChunk.span) :=
    (List.isChain_map TextChunk.span).mpr h.stops
  rw [spans_twoClosings, List.isChain_cons_cons] at hstops
  exact absurd hstops.1 (Nat.lt_irrefl 752)

end Chunker
end KnowledgeBrain
