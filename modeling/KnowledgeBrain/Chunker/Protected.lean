import KnowledgeBrain.Chunker.Progress

/-!
# Protected regions stay whole

The regions kept are disjoint, every match lost overlaps one of them, and the
scan over the text finds their characters.  A region within the cap is a unit,
and chunks start and end between units.
-/

namespace KnowledgeBrain
namespace Chunker

open Foundation

/-- Two spans have a position in common. -/
def Overlaps (a b : Span) : Prop :=
  a.start < b.stop ∧ b.start < a.stop

/-!
# The regions kept
-/

instance : Std.Total spanBefore where
  total a b := by
    unfold spanBefore
    omega

instance : IsTrans Span spanBefore where
  trans a b c hab hbc := by
    unfold spanBefore at *
    omega

/-- A span is kept, overlaps one that is kept, or starts before the end of the
last one. -/
theorem keepDisjoint_complete (lastEnd : Nat) {ms : List Span}
    (hsorted : ms.Pairwise fun a b => a.start ≤ b.start)
    (hlong : forall m, m ∈ ms -> m.start < m.stop) :
    forall m, m ∈ ms -> m ∈ keepDisjoint lastEnd ms ∨
      (exists kept, kept ∈ keepDisjoint lastEnd ms ∧ Overlaps m kept) ∨ m.start < lastEnd := by
  induction ms generalizing lastEnd with
  | nil =>
      intro m hmem
      cases hmem
  | cons first rest ih =>
      rcases List.pairwise_cons.mp hsorted with ⟨hfirst, hrest⟩
      have hlong' : forall m, m ∈ rest -> m.start < m.stop := fun m hm =>
        hlong m (List.mem_cons_of_mem first hm)
      intro m hmem
      simp only [keepDisjoint]
      split
      · rcases List.mem_cons.mp hmem with rfl | hmem
        · exact Or.inl List.mem_cons_self
        · rcases ih first.stop hrest hlong' m hmem with
            hkept | ⟨kept, hkept, hover⟩ | hearly
          · exact Or.inl (List.mem_cons_of_mem first hkept)
          · exact Or.inr (Or.inl ⟨kept, List.mem_cons_of_mem first hkept, hover⟩)
          · right
            left
            exact ⟨first, List.mem_cons_self, hearly,
              Nat.lt_of_le_of_lt (hfirst m hmem) (hlong' m hmem)⟩
      · rename_i htaken
        rcases List.mem_cons.mp hmem with rfl | hmem
        · exact Or.inr (Or.inr (Nat.lt_of_not_le htaken))
        · exact ih lastEnd hrest hlong' m hmem

theorem protectedSpans_complete (p : Patterns) (text : Text) {pat : Pattern} {m : Span}
    (hpat : pat ∈ p.protectedPatterns) (hmem : m ∈ pat.findIter text) (hlong : m.start < m.stop) :
    matchBytes text m ∈ protectedSpans p text ∨
      exists kept, kept ∈ protectedSpans p text ∧ Overlaps (matchBytes text m) kept := by
  have hstop := ((pat.ordered text).mem m hmem).2.2
  have hfound : matchBytes text m ∈ p.protectedMatches text := by
    apply List.mem_filter.mpr
    constructor
    · exact List.mem_flatMap.mpr ⟨pat, hpat, List.mem_map.mpr ⟨m, hmem, rfl⟩⟩
    · exact decide_eq_true (byteOffset_lt text hlong hstop)
  have hsorted : ((p.protectedMatches text).insertionSort spanBefore).Pairwise
      fun a b => a.start ≤ b.start := by
    apply (List.pairwise_insertionSort spanBefore (p.protectedMatches text)).imp
    intro a b hab
    unfold spanBefore at hab
    omega
  have hpositive : forall n, n ∈ (p.protectedMatches text).insertionSort spanBefore ->
      n.start < n.stop := by
    intro n hn
    have hn' := (List.perm_insertionSort spanBefore (p.protectedMatches text)).mem_iff.mp hn
    exact of_decide_eq_true (List.mem_filter.mp hn').2
  rcases keepDisjoint_complete 0 hsorted hpositive (matchBytes text m)
    ((List.perm_insertionSort spanBefore (p.protectedMatches text)).mem_iff.mpr hfound) with
    hkept | hover | hearly
  · exact Or.inl hkept
  · exact Or.inr hover
  · exact absurd hearly (Nat.not_lt_zero _)

theorem pairwise_of_ordered {lo hi : Nat} {ms : List Span} (h : Span.Ordered lo hi ms) :
    ms.Pairwise fun a b => a.stop ≤ b.start := by
  induction ms generalizing lo with
  | nil =>
      exact List.Pairwise.nil
  | cons m ms ih =>
      apply List.pairwise_cons.mpr
      constructor
      · intro n hn
        exact (h.2.2.mem n hn).1
      · exact ih h.2.2

/-!
# Characters
-/

theorem byteOffset_succ {text : Text} {k : Nat} {c : Char} {rest : Text}
    (hdrop : text.drop k = c :: rest) :
    byteOffset text (k + 1) = byteOffset text k + c.utf8Size ∧ text.drop (k + 1) = rest := by
  constructor
  · rw [byteOffset_add, hdrop]
    simp [byteLen]
  · rw [← List.drop_drop, hdrop]
    rfl

/-- The scan stops at the character that a byte offset belongs to. -/
theorem advanceRunes_spec {text : Text} {k j : Nat} (hle : k ≤ j) (hj : j ≤ text.length) :
    advanceRunes (byteOffset text j) k (byteOffset text k) (text.drop k) =
      (j, byteOffset text j, text.drop j) := by
  obtain ⟨n, rfl⟩ := Nat.le.dest hle
  induction n generalizing k with
  | zero =>
      cases text.drop k with
      | nil =>
          rfl
      | cons c rest =>
          simp only [Nat.add_zero, advanceRunes, if_neg (Nat.lt_irrefl _)]
  | succ n ih =>
      have hlt : k < text.length := by omega
      have hdrop := List.drop_eq_getElem_cons hlt
      have hbytes := byteOffset_lt text (show k < k + (n + 1) by omega) hj
      rcases byteOffset_succ hdrop with ⟨hnext, hrest⟩
      rw [hdrop, advanceRunes, if_pos hbytes, ← hnext, ← hrest]
      have hstep := ih (k := k + 1) (by omega) (by omega)
      rw [show k + 1 + n = k + (n + 1) by omega] at hstep
      exact hstep

theorem spansToRunes_spec {text : Text} {k : Nat} {cs : List Span}
    (hordered : Span.Ordered k text.length cs) :
    spansToRunes k (byteOffset text k) (text.drop k) (cs.map (matchBytes text)) = cs := by
  induction cs generalizing k with
  | nil =>
      rfl
  | cons c cs ih =>
      rcases hordered with ⟨hstart, hspan, hrest⟩
      have hstop := hrest.le
      simp only [List.map_cons, spansToRunes, matchBytes]
      rw [advanceRunes_spec hstart (Nat.le_trans hspan hstop)]
      dsimp only
      rw [advanceRunes_spec hspan hstop]
      dsimp only
      rw [ih hrest]

theorem protectedSpansRune_spec (p : Patterns) (text : Text) :
    (protectedSpansRune text (protectedSpans p text)).map (matchBytes text) =
        protectedSpans p text ∧
      Span.Ordered 0 text.length (protectedSpansRune text (protectedSpans p text)) ∧
      forall c, c ∈ protectedSpansRune text (protectedSpans p text) -> c.start < c.stop := by
  rcases protectedSpans_regions p text with ⟨cs, hcs, hordered, hlong⟩
  have hrunes : protectedSpansRune text (protectedSpans p text) = cs := by
    have hzero : byteOffset text 0 = 0 := by simp [byteOffset, byteLen]
    have hscan := spansToRunes_spec hordered
    rw [hzero, List.drop_zero, ← hcs] at hscan
    exact hscan
  rw [hrunes]
  exact ⟨hcs.symm, hordered, hlong⟩

/-!
# Regions are units
-/

/-- A region within the cap is one unit. -/
theorem region_mem_unitsBetween {text : Text} (separators : List Text) (chunkSize : Nat)
    {k : Nat} {cs : List Span} (hordered : Span.Ordered k text.length cs)
    (hlong : forall c, c ∈ cs -> c.start < c.stop) {c : Span} (hmem : c ∈ cs)
    (hcap : c.stop - c.start ≤ hardCap) :
    (⟨slice text c.start c.stop, c.start, c.stop⟩ : SplitUnit) ∈
      unitsBetween text separators chunkSize (byteOffset text k) k (cs.map (matchBytes text)) := by
  induction cs generalizing k with
  | nil =>
      cases hmem
  | cons d cs ih =>
      rcases hordered with ⟨hstart, hspan, hrest⟩
      have hlt := hlong d List.mem_cons_self
      have hstop := hrest.le
      have hlength : (slice text d.start d.stop).length = d.stop - d.start :=
        length_slice hrest.le
      have hnext : d.start + (d.stop - d.start) = d.stop := Nat.add_sub_cancel' hspan
      have hprot : byteSlice text (byteOffset text d.start) (byteOffset text d.stop) =
          slice text d.start d.stop := byteSlice_byteOffset text hspan
      have hrune : (if byteOffset text k < byteOffset text d.start then
          k + (byteSlice text (byteOffset text k) (byteOffset text d.start)).length else k) =
          d.start := by
        rw [byteSlice_byteOffset text hstart,
          length_slice (Nat.le_trans hspan hstop)]
        split
        · omega
        · rename_i hgap
          by_contra hne
          exact hgap (byteOffset_lt text (by omega) (by omega))
      simp only [List.map_cons, unitsBetween, matchBytes]
      rw [hprot, hrune, hlength, hnext]
      rcases List.mem_cons.mp hmem with rfl | hmem
      · apply List.mem_append_left
        apply List.mem_append_right
        unfold protectedUnits
        rw [if_neg (by omega), hlength, hnext]
        exact List.mem_singleton.mpr rfl
      · apply List.mem_append_right
        exact ih hrest (fun e he => hlong e (List.mem_cons_of_mem d he)) hmem

theorem region_mem_unitsOf (p : Patterns) (text : Text) (chunkSize : Nat) (separators : List Text)
    {c : Span} (hmem : c ∈ protectedSpansRune text (protectedSpans p text))
    (hcap : c.stop - c.start ≤ hardCap) :
    (⟨slice text c.start c.stop, c.start, c.stop⟩ : SplitUnit) ∈
      unitsOf p text chunkSize separators := by
  rcases protectedSpansRune_spec p text with ⟨hmap, hordered, hlong⟩
  have hunit := region_mem_unitsBetween separators (effectiveSize chunkSize) hordered hlong hmem
    hcap
  have hzero : byteOffset text 0 = 0 := by simp [byteOffset, byteLen]
  rw [hmap, hzero] at hunit
  exact hunit

/-!
# Chunks start and end between units
-/

section Runs

variable {p : Patterns} {chunkSize chunkOverlap : Nat} {units : List SplitUnit}

/-- A chunk is a window of units, or lies in a unit longer than the cap. -/
inductive Aligned (units : List SplitUnit) (c : TextChunk) : Prop where
  | window (before run rest : List SplitUnit) (hunits : units = before ++ run ++ rest)
      (hstart : c.start = place before) (hstop : c.stop = place (before ++ run))
  | inside (before rest : List SplitUnit) (whole : SplitUnit)
      (hunits : units = before ++ whole :: rest) (hlong : hardCap < whole.text.length)
      (hstart : place before ≤ c.start) (hstop : c.stop ≤ place (before ++ [whole]))

theorem Laid.within {a : Nat} {pieces : List SplitUnit} (hlaid : Laid a pieces) :
    forall piece, piece ∈ pieces -> a ≤ piece.start ∧ piece.stop ≤ a + place pieces ∧
      piece.stop = piece.start + piece.text.length := by
  induction pieces generalizing a with
  | nil =>
      intro piece hmem
      cases hmem
  | cons first pieces ih =>
      rcases hlaid with ⟨hstart, _, hstop, hrest⟩
      intro piece hmem
      rw [place_cons]
      rcases List.mem_cons.mp hmem with rfl | hmem
      · omega
      · have hlater := ih hrest piece hmem
        omega

theorem mergeUnits_aligned (hlaid : Laid 0 units) :
    forall c, c ∈ mergeUnits p units chunkSize chunkOverlap -> Aligned units c := by
  apply mergeUnits_chunks (Aligned units) hlaid
  · intro pre rest front current curLen seq hunits hgroup hopen
    rcases hgroup.ends hunits hlaid hopen seq with ⟨before, run, hpre, hstart, _, hstop⟩
    exact .window before run rest (hpre ▸ hunits) hstart (hpre ▸ hstop)
  · intro pre u rest piece seq hunits hlong hpiece
    rcases laid_forceSplitRunes u.text u.start with ⟨hpieces, hspell⟩
    have hstart := (laid_start hlaid hunits).1
    rcases hpieces.within piece hpiece with ⟨hlow, hhigh, _⟩
    have hlength : place (forceSplitRunes u.text u.start) = u.text.length := by
      unfold place
      rw [hspell]
    rw [hlength] at hhigh
    refine .inside pre rest u hunits hlong ?_ ?_
    · rw [← hstart]
      exact hlow
    · rw [place_append, place_cons, place_nil, ← hstart]
      exact hhigh

/-- What a range says of a unit: it holds all of it, or none of it. -/
def AllOrNone (c : TextChunk) (m : Span) : Prop :=
  (c.start ≤ m.start ∧ m.stop ≤ c.stop) ∨ c.stop ≤ m.start ∨ m.stop ≤ c.start

theorem place_mono {us vs : List SplitUnit} (h : us <+: vs) : place us ≤ place vs := by
  rcases h with ⟨more, rfl⟩
  rw [place_append]
  exact Nat.le_add_right _ _

theorem place_outside {before later left right : List SplitUnit} {u : SplitUnit}
    (hunits : units = before ++ later) (hu : units = left ++ u :: right) :
    place before ≤ place left ∨ place (left ++ [u]) ≤ place before := by
  have hbefore : before <+: units := hunits ▸ List.prefix_append _ _
  have hleft : left ++ [u] <+: units := by
    rw [hu]
    exact ⟨right, by simp⟩
  rcases List.prefix_or_prefix_of_prefix hbefore hleft with hshort | hlong
  · rcases List.prefix_concat_iff.mp hshort with rfl | hshort
    · exact Or.inr (Nat.le_refl _)
    · exact Or.inl (place_mono hshort)
  · exact Or.inr (place_mono hlong)

/-- A chunk has all or none of a unit within the cap. -/
theorem Aligned.allOrNone {c : TextChunk} (h : Aligned units c) {left right : List SplitUnit}
    {u : SplitUnit} (hu : units = left ++ u :: right) (hcap : u.text.length ≤ hardCap)
    {m : Span} (hstart : m.start = place left) (hstop : m.stop = place (left ++ [u])) :
    AllOrNone c m := by
  unfold AllOrNone
  rw [hstart, hstop]
  cases h with
  | window before run rest hunits hcstart hcstop =>
      have hback := place_outside hunits hu
      rw [List.append_assoc] at hunits
      have hfront := place_outside hunits hu
      rw [← hcstart] at hfront
      rw [← hcstop] at hback
      rcases hfront with hfront | hfront
      · rcases hback with hback | hback
        · exact Or.inr (Or.inl hback)
        · exact Or.inl ⟨hfront, hback⟩
      · exact Or.inr (Or.inr hfront)
  | inside before rest whole hunits hlong hcstart hcstop =>
      have hwhole : before ++ [whole] <+: units := by
        rw [hunits]
        exact ⟨rest, by simp⟩
      have hleft : left ++ [u] <+: units := by
        rw [hu]
        exact ⟨right, by simp⟩
      have hdifferent : before ++ [whole] ≠ left ++ [u] := by
        intro heq
        have hlast := (List.append_inj' heq rfl).2
        rw [List.singleton_inj.mp hlast] at hlong
        exact absurd hlong (Nat.not_lt.mpr hcap)
      rcases List.prefix_or_prefix_of_prefix hwhole hleft with hshort | hshort
      · rcases List.prefix_concat_iff.mp hshort with heq | hshort
        · exact absurd heq hdifferent
        · exact Or.inr (Or.inl (Nat.le_trans hcstop (place_mono hshort)))
      · rcases List.prefix_concat_iff.mp hshort with heq | hshort
        · exact absurd heq.symm hdifferent
        · exact Or.inr (Or.inr (Nat.le_trans (place_mono hshort) hcstart))

end Runs

/-!
# The splitter
-/

/-- What the protected regions of a text are, and what the chunks make of those
within the cap. -/
structure RegionsAtomic (p : Patterns) (text : Text) (chunks : List TextChunk) : Prop where
  disjoint : (protectedSpans p text).Pairwise fun a b => a.start < b.start ∧ a.stop ≤ b.start
  ranges : forall m, m ∈ protectedSpans p text -> m.start < m.stop ∧ m.stop ≤ byteLen text
  complete : forall pat, pat ∈ p.protectedPatterns -> forall m, m ∈ pat.findIter text ->
    m.start < m.stop -> matchBytes text m ∈ protectedSpans p text ∨
      exists kept, kept ∈ protectedSpans p text ∧ Overlaps (matchBytes text m) kept
  runes : (protectedSpansRune text (protectedSpans p text)).map (matchBytes text) =
    protectedSpans p text
  inText : forall m, m ∈ protectedSpansRune text (protectedSpans p text) ->
    m.start < m.stop ∧ m.stop ≤ text.length
  atomic : forall m, m ∈ protectedSpansRune text (protectedSpans p text) ->
    m.stop - m.start ≤ hardCap -> (forall c, c ∈ chunks -> AllOrNone c m) ∧
      exists c, c ∈ chunks ∧ c.start ≤ m.start ∧ m.stop ≤ c.stop

/-- A region within the cap is in every chunk all or not at all. -/
theorem splitText_allOrNone (p : Patterns) (text : Text) (chunkSize chunkOverlap : Nat)
    (separators : List Text) {m : Span}
    (hmem : m ∈ protectedSpansRune text (protectedSpans p text))
    (hcap : m.stop - m.start ≤ hardCap) :
    forall c, c ∈ splitText p text chunkSize chunkOverlap separators -> AllOrNone c m := by
  rcases protectedSpansRune_spec p text with ⟨_, hordered, _⟩
  have hrange := hordered.mem m hmem
  have hlaid := (unitsOf_laid p text chunkSize separators).1
  rcases List.append_of_mem (region_mem_unitsOf p text chunkSize separators hmem hcap) with
    ⟨left, right, hu⟩
  rcases laid_start hlaid hu with ⟨hstart, hstop, _⟩
  have hlength : (slice text m.start m.stop).length = m.stop - m.start :=
    length_slice hrange.2.2
  rw [splitText_eq]
  intro c hc
  apply (mergeUnits_aligned hlaid c hc).allOrNone hu
  · rw [hlength]
    exact hcap
  · exact hstart
  · rw [place_append, place_cons, place_nil]
    exact hstop

/-- Protected regions are disjoint and complete, are found at their characters,
and those within the cap are cut by no chunk. -/
theorem splitText_regionsAtomic (p : Patterns) (text : Text) (chunkSize chunkOverlap : Nat)
    (separators : List Text) :
    RegionsAtomic p text (splitText p text chunkSize chunkOverlap separators) := by
  rcases protectedSpansRune_spec p text with ⟨hmap, hordered, hlong⟩
  constructor
  · rw [← hmap, List.pairwise_map]
    apply (pairwise_of_ordered hordered).imp_of_mem
    intro a b ha hb hab
    have hlt := hlong a ha
    have hstop := (hordered.mem b hb).2
    constructor
    · exact byteOffset_lt text (Nat.lt_of_lt_of_le hlt hab) (Nat.le_trans hstop.1 hstop.2)
    · exact byteOffset_mono text hab
  · intro m hm
    rw [← hmap] at hm
    rcases List.mem_map.mp hm with ⟨c, hc, rfl⟩
    have hrange := (hordered.mem c hc).2.2
    constructor
    · exact byteOffset_lt text (hlong c hc) hrange
    · rw [← byteOffset_length]
      exact byteOffset_mono text hrange
  · intro pat hpat m hmem hne
    exact protectedSpans_complete p text hpat hmem hne
  · exact hmap
  · intro m hm
    exact ⟨hlong m hm, (hordered.mem m hm).2.2⟩
  · intro m hm hcap
    have hwhole := splitText_allOrNone p text chunkSize chunkOverlap separators hm hcap
    refine ⟨hwhole, ?_⟩
    have hrange := (hordered.mem m hm).2.2
    have hlt := hlong m hm
    rcases (emitted_splitText p text chunkSize chunkOverlap separators).covers.covered m.start
      (by omega) trivial with ⟨covering, hcovering, hlow, hhigh⟩
    rcases List.mem_map.mp hcovering with ⟨c, hc, rfl⟩
    refine ⟨c, hc, ?_⟩
    rcases hwhole c hc with hall | hbefore | hafter
    · exact hall
    · exact absurd hhigh (Nat.not_lt.mpr hbefore)
    · exact absurd (Nat.lt_of_lt_of_le hlt hafter) (Nat.not_lt.mpr hlow)

end Chunker
end KnowledgeBrain
