import KnowledgeBrain.Chunker.Protected

/-!
# The states of the packing loop

What the loop over the boundaries pushes: the blocks collected, when the next
one does not fit, and the chunks of a block that is too long for itself.
-/

namespace KnowledgeBrain
namespace Chunker

open Foundation HeuristicState

section States

variable (p : Patterns) (runes : Text) (cfg : SplitterConfig) (bounds : List Boundary)

namespace HeuristicState

/-- The state after some boundaries. -/
def after (before : List Boundary) : HeuristicState :=
  before.foldl (step p runes cfg bounds)
    ⟨[], (bounds.head?.map Boundary.runeStart).getD 0,
      (bounds.head?.map Boundary.runeStart).getD 0⟩

theorem after_concat (before : List Boundary) (b : Boundary) :
    after p runes cfg bounds (before ++ [b]) =
      step p runes cfg bounds (after p runes cfg bounds before) b := by
  unfold after
  rw [List.foldl_append]
  rfl

/-- The next block is too long for any chunk. -/
def MeetsOversize (s : HeuristicState) (b : Boundary) : Prop :=
  cfg.chunkSize < b.runeStart - s.curEnd

/-- The next block does not fit, and what is collected is long enough. -/
def Overruns (s : HeuristicState) (b : Boundary) : Prop :=
  ¬ MeetsOversize cfg s b ∧ cfg.chunkSize < b.runeStart - s.chunkStart ∧
    max (cfg.chunkSize / 4) 50 ≤ s.curEnd - s.chunkStart

/-- What is collected is closed before the boundaries that are left. -/
def Closes (s : HeuristicState) : List Boundary -> Prop
  | [] => True
  | b :: _ => MeetsOversize cfg s b ∨ Overruns cfg s b

end HeuristicState

/-- What the packing loop emits: the blocks collected, unless they are blank, and
the chunks of an oversize block. -/
inductive Emits (c : TextChunk) : Prop where
  | packed (before rest : List Boundary) (hbounds : bounds.drop 1 = before ++ rest)
      (hcloses : Closes cfg (after p runes cfg bounds before) rest)
      (hopen : (after p runes cfg bounds before).chunkStart <
        (after p runes cfg bounds before).curEnd)
      (hink : isBlank (slice runes (after p runes cfg bounds before).chunkStart
        (after p runes cfg bounds before).curEnd) = false)
      (hcontent : c.content = slice runes c.start c.stop)
      (hstart : c.start = (after p runes cfg bounds before).chunkStart)
      (hstop : c.stop = (after p runes cfg bounds before).curEnd)
  | block (before : List Boundary) (b : Boundary) (rest : List Boundary) (sub : TextChunk)
      (hbounds : bounds.drop 1 = before ++ b :: rest)
      (hlong : MeetsOversize cfg (after p runes cfg bounds before) b)
      (hsub : sub ∈ splitText p (slice runes
        (after p runes cfg bounds before).curEnd b.runeStart)
        cfg.chunkSize cfg.chunkOverlap cfg.separators)
      (hcontent : c.content = sub.content)
      (hstart : c.start = (after p runes cfg bounds before).curEnd + sub.start)
      (hstop : c.stop = (after p runes cfg bounds before).curEnd + sub.stop)

end States

section Steps

variable {p : Patterns} {runes : Text} {cfg : SplitterConfig} {bounds : List Boundary}

theorem appendChunk_cases (runes : Text) (start stop : Nat) (out : List TextChunk) :
    (start < stop ∧ isBlank (slice runes start stop) = false ∧
        appendChunk runes start stop out =
          out ++ [⟨slice runes start stop, [], out.length, start, stop⟩]) ∨
      ((stop ≤ start ∨ isBlank (slice runes start stop) = true) ∧
        appendChunk runes start stop out = out) := by
  unfold appendChunk
  split
  · rename_i hempty
    exact Or.inr ⟨Or.inl hempty, rfl⟩
  · rename_i hopen
    dsimp only
    split
    · rename_i hblank
      exact Or.inr ⟨Or.inr hblank, rfl⟩
    · rename_i hink
      exact Or.inl ⟨Nat.lt_of_not_le hopen, by simpa using hink, rfl⟩

theorem prefix_appendChunk (runes : Text) (start stop : Nat) (out : List TextChunk) :
    out <+: appendChunk runes start stop out := by
  rcases appendChunk_cases runes start stop out with ⟨_, _, heq⟩ | ⟨_, heq⟩
  · rw [heq]
    exact List.prefix_append _ _
  · rw [heq]

namespace HeuristicState

/-- What one boundary does: an oversize block closes what is collected and is
pushed for itself, a block that does not fit closes what is collected, and any
other is added. -/
inductive Step (p : Patterns) (runes : Text) (cfg : SplitterConfig) (bounds : List Boundary)
    (s : HeuristicState) (b : Boundary) (s' : HeuristicState) : Prop where
  | oversize (hlong : MeetsOversize cfg s b)
      (hout : s'.out = appendChunk runes s.chunkStart s.curEnd s.out ++
        relocate (appendChunk runes s.chunkStart s.curEnd s.out).length s.curEnd (fun _ => [])
          (splitText p (slice runes s.curEnd b.runeStart) cfg.chunkSize cfg.chunkOverlap
            cfg.separators))
      (hstart : s'.chunkStart = b.runeStart)
  | closed (hover : Overruns cfg s b)
      (hout : s'.out = appendChunk runes s.chunkStart s.curEnd s.out)
      (hstart : s'.chunkStart = applyOverlapAligned runes s.curEnd cfg.chunkOverlap bounds)
  | kept (hfits : ¬ MeetsOversize cfg s b ∧ ¬ Overruns cfg s b) (hout : s'.out = s.out)
      (hstart : s'.chunkStart = s.chunkStart)

variable (p runes cfg bounds) in
theorem step_cases (s : HeuristicState) (b : Boundary) :
    Step p runes cfg bounds s b (step p runes cfg bounds s b) := by
  unfold step
  dsimp only
  split
  · rename_i hlong
    refine .oversize hlong ?_ rfl
    have happend : (if s.chunkStart < s.curEnd then appendChunk runes s.chunkStart s.curEnd s.out
        else s.out) = appendChunk runes s.chunkStart s.curEnd s.out := by
      split
      · rfl
      · rename_i hempty
        unfold appendChunk
        rw [if_pos (Nat.le_of_not_lt hempty)]
    rw [happend]
    unfold appendOversize
    rw [if_neg]
    rw [Nat.not_le]
    exact Nat.lt_of_sub_pos (Nat.lt_of_le_of_lt (Nat.zero_le _) hlong)
  · rename_i hshort
    split
    · rename_i hover
      exact .closed ⟨hshort, hover⟩ rfl rfl
    · rename_i hfits
      exact .kept ⟨hshort, fun h => hfits h.2⟩ rfl rfl

theorem prefix_step (s : HeuristicState) (b : Boundary) :
    s.out <+: (step p runes cfg bounds s b).out := by
  cases step_cases p runes cfg bounds s b with
  | oversize _ hout _ =>
      rw [hout]
      exact (prefix_appendChunk _ _ _ _).trans (List.prefix_append _ _)
  | closed _ hout _ =>
      rw [hout]
      exact prefix_appendChunk _ _ _ _
  | kept _ hout _ =>
      rw [hout]

theorem prefix_after (before later : List Boundary) :
    (after p runes cfg bounds before).out <+: (after p runes cfg bounds (before ++ later)).out := by
  induction later using List.reverseRecOn with
  | nil =>
      rw [List.append_nil]
  | append_singleton later b ih =>
      rw [← List.append_assoc, after_concat]
      exact ih.trans (prefix_step _ b)

end HeuristicState

theorem packBlocks_eq (bounds : List Boundary) :
    packBlocks p runes cfg bounds =
      appendChunk runes (after p runes cfg bounds (bounds.drop 1)).chunkStart
        (after p runes cfg bounds (bounds.drop 1)).curEnd
        (after p runes cfg bounds (bounds.drop 1)).out := by
  show (if (after p runes cfg bounds (bounds.drop 1)).chunkStart <
      (after p runes cfg bounds (bounds.drop 1)).curEnd then _ else _) = _
  split
  · rfl
  · rename_i hempty
    unfold appendChunk
    rw [if_pos (Nat.le_of_not_lt hempty)]
    rfl

theorem exists_mem_relocate {subs : List TextChunk} {sub : TextChunk} (hmem : sub ∈ subs)
    (seq base : Nat) (header : TextChunk -> Text) :
    exists c, c ∈ relocate seq base header subs ∧ c.content = sub.content ∧
      c.start = base + sub.start ∧ c.stop = base + sub.stop := by
  induction subs generalizing seq with
  | nil =>
      cases hmem
  | cons first subs ih =>
      rcases List.mem_cons.mp hmem with rfl | hmem
      · exact ⟨_, List.mem_cons_self, rfl, rfl, rfl⟩
      · rcases ih hmem (seq + 1) with ⟨c, hc, heq⟩
        exact ⟨c, List.mem_cons_of_mem _ hc, heq⟩

theorem emits_appendChunk {before rest : List Boundary} (hbounds : bounds.drop 1 = before ++ rest)
    (hcloses : Closes cfg (after p runes cfg bounds before) rest)
    (hold : forall c, c ∈ (after p runes cfg bounds before).out ->
      Emits p runes cfg bounds c) :
    forall c, c ∈ appendChunk runes (after p runes cfg bounds before).chunkStart
        (after p runes cfg bounds before).curEnd
        (after p runes cfg bounds before).out ->
      Emits p runes cfg bounds c := by
  intro c hmem
  rcases appendChunk_cases runes (after p runes cfg bounds before).chunkStart
    (after p runes cfg bounds before).curEnd
    (after p runes cfg bounds before).out with ⟨hopen, hink, heq⟩ | ⟨_, heq⟩
  · rw [heq] at hmem
    rcases List.mem_append.mp hmem with hmem | hnew
    · exact hold c hmem
    · rw [List.mem_singleton.mp hnew]
      exact .packed before rest hbounds hcloses hopen hink rfl rfl rfl
  · rw [heq] at hmem
    exact hold c hmem

theorem emits_after (before : List Boundary) :
    forall rest, bounds.drop 1 = before ++ rest ->
      forall c, c ∈ (after p runes cfg bounds before).out ->
        Emits p runes cfg bounds c := by
  induction before using List.reverseRecOn with
  | nil =>
      intro rest _ c hmem
      cases hmem
  | append_singleton before b ih =>
      intro rest hbounds
      rw [List.append_assoc, List.singleton_append] at hbounds
      have hold := ih (b :: rest) hbounds
      have hstep := step_cases p runes cfg bounds
        (after p runes cfg bounds before) b
      rw [← after_concat] at hstep
      intro c hmem
      cases hstep with
      | oversize hlong hout _ =>
          rw [hout] at hmem
          rcases List.mem_append.mp hmem with hmem | hmem
          · exact emits_appendChunk hbounds (Or.inl hlong) hold c hmem
          · rcases mem_relocate hmem with ⟨sub, hsub, hcontent, hstart, hstop⟩
            exact .block before b rest sub hbounds hlong hsub hcontent hstart hstop
      | closed hover hout _ =>
          rw [hout] at hmem
          exact emits_appendChunk hbounds (Or.inr hover) hold c hmem
      | kept _ hout _ =>
          rw [hout] at hmem
          exact hold c hmem

variable {c : TextChunk}

theorem emits_of_mem (hmem : c ∈ packBlocks p runes cfg bounds) :
    Emits p runes cfg bounds c := by
  rw [packBlocks_eq] at hmem
  have hbounds : bounds.drop 1 = bounds.drop 1 ++ [] := (List.append_nil _).symm
  exact emits_appendChunk hbounds trivial (emits_after (bounds.drop 1) [] hbounds) c hmem

theorem mem_packBlocks_of_after {before rest : List Boundary}
    (hbounds : bounds.drop 1 = before ++ rest) (hmem : c ∈ (after p runes cfg bounds before).out) :
    c ∈ packBlocks p runes cfg bounds := by
  rw [packBlocks_eq]
  apply (prefix_appendChunk _ _ _ _).subset
  rw [hbounds]
  exact (prefix_after before rest).subset hmem

theorem exists_mem_of_emits (h : Emits p runes cfg bounds c) :
    exists d, d ∈ packBlocks p runes cfg bounds ∧ d.content = c.content ∧ d.start = c.start ∧
      d.stop = c.stop := by
  cases h with
  | packed before rest hbounds hcloses hopen hink hcontent hstart hstop =>
      have happend : exists d, d ∈ appendChunk runes
            (after p runes cfg bounds before).chunkStart
            (after p runes cfg bounds before).curEnd
            (after p runes cfg bounds before).out ∧
          d.content = c.content ∧ d.start = c.start ∧ d.stop = c.stop := by
        rcases appendChunk_cases runes (after p runes cfg bounds before).chunkStart
          (after p runes cfg bounds before).curEnd
          (after p runes cfg bounds before).out with ⟨_, _, heq⟩ | ⟨hnone, _⟩
        · rw [heq, hcontent, hstart, hstop]
          exact ⟨_, List.mem_append_right _ List.mem_cons_self, rfl, rfl, rfl⟩
        · rcases hnone with hempty | hblank
          · exact absurd hopen (Nat.not_lt.mpr hempty)
          · rw [hblank] at hink
            cases hink
      rcases happend with ⟨d, hd, hsame⟩
      refine ⟨d, ?_, hsame⟩
      cases rest with
      | nil =>
          rw [List.append_nil] at hbounds
          rw [packBlocks_eq, hbounds]
          exact hd
      | cons b rest =>
          have hbounds' : bounds.drop 1 = (before ++ [b]) ++ rest := by
            rw [hbounds, List.append_assoc, List.singleton_append]
          apply mem_packBlocks_of_after hbounds'
          have hstep := step_cases p runes cfg bounds
            (after p runes cfg bounds before) b
          rw [← after_concat] at hstep
          cases hstep with
          | oversize _ hout _ =>
              rw [hout]
              exact List.mem_append_left _ hd
          | closed _ hout _ =>
              rw [hout]
              exact hd
          | kept hfits _ _ =>
              rcases hcloses with hlong | hover
              · exact absurd hlong hfits.1
              · exact absurd hover hfits.2
  | block before b rest sub hbounds hlong hsub hcontent hstart hstop =>
      have hbounds' : bounds.drop 1 = (before ++ [b]) ++ rest := by
        rw [hbounds, List.append_assoc, List.singleton_append]
      have hstep := step_cases p runes cfg bounds
        (after p runes cfg bounds before) b
      rw [← after_concat] at hstep
      cases hstep with
      | oversize _ hout _ =>
          rcases exists_mem_relocate hsub (appendChunk runes
            (after p runes cfg bounds before).chunkStart
            (after p runes cfg bounds before).curEnd
            (after p runes cfg bounds before).out).length
            (after p runes cfg bounds before).curEnd (fun _ => []) with
            ⟨d, hd, hdcontent, hdstart, hdstop⟩
          refine ⟨d, ?_, hdcontent.trans hcontent.symm, hdstart.trans hstart.symm,
            hdstop.trans hstop.symm⟩
          apply mem_packBlocks_of_after hbounds'
          rw [hout]
          exact List.mem_append_right _ hd
      | closed hover _ _ =>
          exact absurd hlong hover.1
      | kept hfits _ _ =>
          exact absurd hlong hfits.1

/-!
# Lengths
-/

theorem applyOverlapAligned_window (runes : Text) (curEnd overlap : Nat)
    (bounds : List Boundary) :
    curEnd - 2 * overlap ≤ applyOverlapAligned runes curEnd overlap bounds := by
  unfold applyOverlapAligned
  split
  · exact Nat.sub_le _ _
  · dsimp only
    split
    · exact (lineStartBack_bounds runes (curEnd - 2 * overlap) (curEnd - overlap)
        (curEnd - overlap) (Nat.le_refl _) (by omega)).1
    · rename_i q rest hcons
      have hbest := (foldl_max_bounds rest q).2
      rw [← hcons, List.mem_filter, Bool.and_eq_true, decide_eq_true_eq] at hbest
      exact hbest.2.1

/-- What is collected is never longer than two chunks. -/
theorem collected_within (hsize : 50 ≤ cfg.chunkSize)
    (hoverlap : cfg.chunkOverlap ≤ cfg.chunkSize / 2) (before : List Boundary) :
    (after p runes cfg bounds before).curEnd -
      (after p runes cfg bounds before).chunkStart ≤ 2 * cfg.chunkSize := by
  induction before using List.reverseRecOn with
  | nil =>
      show (bounds.head?.map Boundary.runeStart).getD 0 -
        (bounds.head?.map Boundary.runeStart).getD 0 ≤ _
      omega
  | append_singleton before b ih =>
      have hstep := step_cases p runes cfg bounds
        (after p runes cfg bounds before) b
      rw [after_concat, curEnd_step]
      cases hstep with
      | oversize _ _ hstart =>
          rw [hstart]
          omega
      | closed hover _ hstart =>
          have hshort := hover.1
          unfold MeetsOversize at hshort
          have hwindow := applyOverlapAligned_window runes
            (after p runes cfg bounds before).curEnd cfg.chunkOverlap bounds
          rw [hstart]
          omega
      | kept hfits _ hstart =>
          rcases hfits with ⟨hshort, hroom⟩
          unfold Overruns at hroom
          unfold MeetsOversize at hroom hshort
          rw [hstart]
          omega

end Steps

/-!
# The size of heuristic chunks

Blocks are collected up to two chunks at most.  Only a unit of an oversize block
that the recursive splitter cannot divide is longer.
-/

section Units

variable {p : Patterns} {text : Text} {separators : List Text} {chunkSize : Nat}

theorem atom_within {units : List SplitUnit} (hlaid : Laid 0 units) {u : SplitUnit}
    (hatom : Atom units u) : u.stop ≤ place units ∧ u.stop = u.start + u.text.length := by
  rcases hatom with ⟨hmem, _⟩ | ⟨whole, hmem, _, hslice⟩
  · rcases hlaid.within u hmem with ⟨_, hhigh, hlength⟩
    rw [Nat.zero_add] at hhigh
    exact ⟨hhigh, hlength⟩
  · rcases hlaid.within whole hmem with ⟨_, hhigh, hlength⟩
    rcases laid_forceSplitRunes whole.text whole.start with ⟨hpieces, hspell⟩
    rcases hpieces.within u hslice with ⟨_, hhigh', hlength'⟩
    have hplace : place (forceSplitRunes whole.text whole.start) = whole.text.length := by
      unfold place
      rw [hspell]
    exact ⟨by omega, hlength'⟩

/-- A chunk of the recursive splitter that is too long is one indivisible unit. -/
theorem splitText_indivisible (hsize : 0 < chunkSize) {chunkOverlap : Nat} {c : TextChunk}
    (hmem : c ∈ splitText p text chunkSize chunkOverlap separators)
    (hlong : chunkSize < c.content.length) :
    Indivisible p text separators c.content ∧ c.content = slice text c.start c.stop ∧
      c.stop ≤ text.length ∧ chunkSize < text.length := by
  rcases splitText_emission p text chunkSize chunkOverlap separators with ⟨front, hemission⟩
  rw [effectiveSize_eq hsize] at hemission
  rcases hemission.made c hmem with ⟨before, hmade, _⟩
  rcases hmade.long hlong with ⟨_, u, hatom, hcontent, hstart, hstop⟩
  rcases unitsOf_laid p text chunkSize separators with ⟨hlaid, htext⟩
  rcases atom_within hlaid hatom with ⟨hhigh, hlength⟩
  unfold place at hhigh
  rw [htext, ← hstop] at hhigh
  rw [← hstart, ← hstop] at hlength
  rcases hmade.content with ⟨header, hslice, _⟩
  rw [htext] at hslice
  have hheader : header = [] := by
    have htotal := congrArg List.length hslice
    rw [List.length_append, length_slice hhigh, hcontent] at htotal
    apply List.length_eq_zero_iff.mp
    omega
  rw [hheader, List.nil_append] at hslice
  refine ⟨?_, hslice, hhigh, ?_⟩
  · rw [hcontent] at hlong ⊢
    exact indivisible_of_atom hsize hatom hlong
  · rw [hcontent] at hlong
    omega

end Units

/-!
# The heuristic tier
-/

/-- No chunk is longer than two, but for an indivisible unit of a block that is
longer than one. -/
def Sized (p : Patterns) (text : Text) (cfg : SplitterConfig) (chunks : List TextChunk) : Prop :=
  forall c, c ∈ chunks -> c.content.length ≤ 2 * cfg.chunkSize ∨
    exists a b, cfg.chunkSize < (slice text a b).length ∧ a ≤ c.start ∧ c.stop ≤ b ∧
      c.content = slice text c.start c.stop ∧
      Indivisible p (slice text a b) cfg.separators c.content

/-- A chunk of a block, with its offsets in the text. -/
theorem splitText_sized (p : Patterns) (text : Text) {cfg : SplitterConfig}
    (hsize : 0 < cfg.chunkSize) {a b : Nat} {c sub : TextChunk} (hcontent : c.content = sub.content)
    (hstart : c.start = a + sub.start) (hstop : c.stop = a + sub.stop)
    (hmem : sub ∈ splitText p (slice text a b) cfg.chunkSize cfg.chunkOverlap cfg.separators) :
    c.content.length ≤ 2 * cfg.chunkSize ∨
      exists a b, cfg.chunkSize < (slice text a b).length ∧ a ≤ c.start ∧ c.stop ≤ b ∧
        c.content = slice text c.start c.stop ∧
        Indivisible p (slice text a b) cfg.separators c.content := by
  rw [hcontent]
  by_cases hlong : cfg.chunkSize < sub.content.length
  · rcases splitText_indivisible hsize hmem hlong with ⟨hpiece, hslice, hhigh, hblock⟩
    have hend : c.stop ≤ b := by
      unfold slice at hhigh hblock
      simp only [List.length_drop, List.length_take] at hhigh hblock
      omega
    refine Or.inr ⟨a, b, hblock, hstart ▸ Nat.le_add_right a sub.start, hend, ?_, hpiece⟩
    rw [hslice, slice_slice text sub.start (hstop ▸ hend), ← hstart, ← hstop]
  · left
    omega

theorem packBlocks_sized (p : Patterns) (text : Text) {cfg : SplitterConfig}
    (hsize : 50 ≤ cfg.chunkSize) (hoverlap : cfg.chunkOverlap ≤ cfg.chunkSize / 2)
    (bounds : List Boundary) : Sized p text cfg (packBlocks p text cfg bounds) := by
  intro c hmem
  cases emits_of_mem hmem with
  | packed before rest _ _ _ _ hcontent hstart hstop =>
      left
      have hwithin := @collected_within p text cfg bounds hsize hoverlap before
      rw [← hstart, ← hstop] at hwithin
      rw [hcontent]
      unfold slice
      simp only [List.length_drop, List.length_take]
      omega
  | block before b rest sub _ _ hsub hcontent hstart hstop =>
      exact splitText_sized p text (by omega) hcontent hstart hstop hsub

/-- A chunk of the heuristic tier has at most twice the chunk size, or is an
indivisible unit of an oversize block. -/
theorem splitByHeuristics_sized (p : Patterns) (text : Text) (cfg : SplitterConfig)
    (hsize : 50 ≤ cfg.chunkSize) (hoverlap : cfg.chunkOverlap ≤ cfg.chunkSize / 2) :
    Sized p text cfg (splitByHeuristics p text cfg) := by
  have hwhole : Sized p text cfg
      (splitText p text cfg.chunkSize cfg.chunkOverlap cfg.separators) := by
    intro c hmem
    rw [← slice_all text] at hmem
    exact splitText_sized p text (by omega) rfl (Nat.zero_add _).symm (Nat.zero_add _).symm hmem
  unfold splitByHeuristics
  split
  · intro c hmem
    cases hmem
  · split
    · exact hwhole
    · dsimp only
      split
      · exact hwhole
      · exact packBlocks_sized p text hsize hoverlap _

/-- The table, with chunks of fifty characters. -/
theorem splitByHeuristics_sized_table :
    Sized tablePatterns tableText (sizedConfig 50)
      (splitByHeuristics tablePatterns tableText (sizedConfig 50)) :=
  splitByHeuristics_sized tablePatterns tableText (sizedConfig 50) (by decide) (by decide)

end Chunker
end KnowledgeBrain
