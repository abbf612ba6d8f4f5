import KnowledgeBrain.Chunker.Splitter

/-!
# The units tile the text

Whatever is protected and wherever the separators stand, the units follow each
other without a gap and spell the text.
-/

namespace KnowledgeBrain
namespace Chunker

open Foundation

/-- Non-empty units that follow each other from a position on. -/
def Laid : Nat -> List SplitUnit -> Prop
  | _, [] => True
  | a, u :: us => u.start = a ∧ u.text ≠ [] ∧ u.stop = a + u.text.length ∧ Laid u.stop us

@[simp]
theorem unitsText_nil : unitsText [] = [] := rfl

@[simp]
theorem unitsText_cons (u : SplitUnit) (us : List SplitUnit) :
    unitsText (u :: us) = u.text ++ unitsText us := rfl

@[simp]
theorem unitsText_append (us vs : List SplitUnit) :
    unitsText (us ++ vs) = unitsText us ++ unitsText vs := by
  simp [unitsText]

variable {a : Nat}

theorem laid_append {us vs : List SplitUnit} :
    Laid a (us ++ vs) <-> Laid a us ∧ Laid (a + (unitsText us).length) vs := by
  induction us generalizing a with
  | nil => simp [Laid]
  | cons u us ih =>
      simp only [List.cons_append, Laid, unitsText_cons, List.length_append]
      rw [ih]
      constructor
      · rintro ⟨hstart, htext, hstop, hus, hvs⟩
        rw [hstop, Nat.add_assoc] at hvs
        exact ⟨⟨hstart, htext, hstop, hus⟩, hvs⟩
      · rintro ⟨⟨hstart, htext, hstop, hus⟩, hvs⟩
        rw [← Nat.add_assoc, ← hstop] at hvs
        exact ⟨hstart, htext, hstop, hus, hvs⟩

theorem Laid.suffix {us vs : List SplitUnit} (h : Laid a vs) (hsuffix : us <:+ vs) :
    exists b, a ≤ b ∧ Laid b us ∧
      b + (unitsText us).length = a + (unitsText vs).length := by
  obtain ⟨pre, rfl⟩ := hsuffix
  refine ⟨a + (unitsText pre).length, Nat.le_add_right _ _, (laid_append.mp h).2, ?_⟩
  simp [Nat.add_assoc]

variable {u : SplitUnit}

theorem Laid.ends {us : List SplitUnit} (h : Laid a (u :: us)) :
    forall v, (u :: us).getLast? = some v -> v.stop = a + (unitsText (u :: us)).length := by
  induction us generalizing a u with
  | nil =>
      intro v hv
      cases hv
      simpa using h.2.2.1
  | cons w us ih =>
      intro v hv
      rw [List.getLast?_cons_cons] at hv
      have hrest := ih h.2.2.2 v hv
      rw [hrest, h.2.2.1]
      simp [Nat.add_assoc]

variable {parts : List Text}

theorem laid_unitsFrom (a : Nat) (h : forall part, part ∈ parts -> part ≠ []) :
    Laid a (unitsFrom a parts) := by
  induction parts generalizing a with
  | nil => trivial
  | cons part parts ih =>
      exact ⟨rfl, h part List.mem_cons_self, rfl,
        ih _ fun q hq => h q (List.mem_cons_of_mem _ hq)⟩

theorem unitsText_unitsFrom (a : Nat) (parts : List Text) :
    unitsText (unitsFrom a parts) = parts.flatten := by
  induction parts generalizing a with
  | nil => rfl
  | cons part parts ih =>
      simp [unitsFrom, ih]

/-!
# Separators
-/

theorem ordered_literalMatches (sep : Text) (hsep : sep ≠ []) (pos skip : Nat) (t : Text)
    (hskip : skip ≤ t.length) :
    Span.Ordered (pos + skip) (pos + t.length) (literalMatches sep pos skip t) := by
  induction t generalizing pos skip with
  | nil =>
      simp only [literalMatches, Span.Ordered]
      exact Nat.add_le_add_left hskip pos
  | cons c t ih =>
      have hlength : pos + (c :: t).length = pos + 1 + t.length := by
        simp only [List.length_cons]
        omega
      rw [hlength]
      cases skip with
      | succ skip =>
          have hrest := ih (pos + 1) skip (Nat.le_of_succ_le_succ hskip)
          rwa [Nat.add_assoc, Nat.add_comm 1 skip] at hrest
      | zero =>
          simp only [literalMatches]
          split
          · rename_i hmatch
            have hsize := (List.isPrefixOf_iff_prefix.mp hmatch).length_le
            have hpos := List.length_pos_iff.mpr hsep
            rw [List.length_cons] at hsize
            have hrest := ih (pos + 1) (sep.length - 1) (by omega)
            rw [show pos + 1 + (sep.length - 1) = pos + sep.length by omega] at hrest
            exact ⟨Nat.le_refl _, Nat.le_add_right _ _, hrest⟩
          · have hrest := ih (pos + 1) 0 (Nat.zero_le _)
            revert hrest
            cases literalMatches sep (pos + 1) 0 t with
            | nil =>
                intro hrest
                exact Nat.le_trans (by omega) hrest
            | cons m ms =>
                intro hrest
                exact ⟨Nat.le_trans (by omega) hrest.1, hrest.2⟩

theorem slice_append_drop (t : Text) {a b : Nat} (hab : a ≤ b) :
    slice t a b ++ t.drop b = t.drop a := by
  have hsplit : t.drop b = (t.drop a).drop (b - a) := by
    rw [List.drop_drop, Nat.add_sub_cancel' hab]
  rw [slice_eq_take_drop, hsplit]
  exact List.take_append_drop _ _

variable {t : Text}

theorem slice_ne_nil {a b : Nat} (hab : a < b) (hb : b ≤ t.length) :
    slice t a b ≠ [] := by
  intro hempty
  have hlength := congrArg List.length hempty
  rw [length_slice hb] at hlength
  exact absurd hlength (Nat.sub_ne_zero_of_lt hab)

variable {text : Text} {ms : List Span}

/-- The pieces spell the text behind the last match. -/
theorem flatten_piecesAt {last : Nat} (h : Span.Ordered last text.length ms) :
    (piecesAt text last ms).flatten = text.drop last := by
  induction ms generalizing last with
  | nil =>
      simp only [piecesAt]
      split
      · simp
      · rename_i hend
        rw [List.flatten_nil, List.drop_eq_nil_of_le (Nat.le_of_not_lt hend)]
  | cons m ms ih =>
      obtain ⟨hlast, hspan, hrest⟩ := h
      have hpiece : forall a b : Nat, a ≤ b ->
          (if a < b then [slice text a b] else []).flatten = slice text a b := by
        intro a b hab
        split
        · simp
        · rename_i hempty
          rw [Nat.le_antisymm hab (Nat.le_of_not_lt hempty), slice_self]
          rfl
      simp only [piecesAt, List.flatten_append]
      rw [hpiece _ _ hlast, hpiece _ _ hspan, ih hrest, List.append_assoc,
        slice_append_drop text hspan, slice_append_drop text hlast]

theorem piecesAt_ne_nil {last : Nat} (h : Span.Ordered last text.length ms) :
    forall piece, piece ∈ piecesAt text last ms -> piece ≠ [] := by
  induction ms generalizing last with
  | nil =>
      intro piece hmem
      simp only [piecesAt] at hmem
      split at hmem
      · rename_i hlt
        rw [List.mem_singleton.mp hmem]
        exact List.drop_eq_nil_iff.not.mpr (Nat.not_le.mpr hlt)
      · cases hmem
  | cons m ms ih =>
      obtain ⟨_, hspan, hrest⟩ := h
      have hpiece : forall {a b : Nat} {piece : Text}, b ≤ text.length ->
          piece ∈ (if a < b then [slice text a b] else []) -> piece ≠ [] := by
        intro a b piece hb hmem
        split at hmem
        · rename_i hab
          rw [List.mem_singleton.mp hmem]
          exact slice_ne_nil hab hb
        · cases hmem
      intro piece hmem
      simp only [piecesAt, List.mem_append] at hmem
      rcases hmem with (hbefore | hmatch) | hafter
      · exact hpiece (Nat.le_trans hspan hrest.le) hbefore
      · exact hpiece hrest.le hmatch
      · exact ih hrest piece hafter

/-- Cutting at separators loses nothing. -/
theorem flatten_splitBySeparators (chunkSize : Nat) (separators : List Text) (text : Text) :
    (splitBySeparators chunkSize separators text).flatten = text := by
  induction separators generalizing text with
  | nil => simp [splitBySeparators]
  | cons sep remaining ih =>
      unfold splitBySeparators
      split
      · simp
      · split
        · exact ih text
        · rename_i hsep
          have hordered := ordered_literalMatches sep
            (by simpa using hsep) 0 0 text (Nat.zero_le _)
          simp only [Nat.zero_add] at hordered
          dsimp only
          split
          · exact ih text
          · have hpieces := flatten_piecesAt hordered
            rw [List.drop_zero] at hpieces
            conv_rhs => rw [← hpieces]
            generalize piecesAt text 0 (literalMatches sep 0 0 text) = pieces
            rw [List.flatMap_def, List.flatten_flatten, List.map_map]
            congr 1
            conv_rhs => rw [← List.map_id pieces]
            apply List.map_congr_left
            intro piece _
            dsimp only [Function.comp_apply, id]
            split
            · exact ih piece
            · simp

theorem splitBySeparators_ne_nil (chunkSize : Nat) (separators : List Text) (htext : text ≠ []) :
    forall piece, piece ∈ splitBySeparators chunkSize separators text -> piece ≠ [] := by
  induction separators generalizing text with
  | nil =>
      intro piece hmem
      rw [List.mem_singleton.mp hmem]
      exact htext
  | cons sep remaining ih =>
      intro piece hmem
      unfold splitBySeparators at hmem
      split at hmem
      · rw [List.mem_singleton.mp hmem]
        exact htext
      · split at hmem
        · exact ih htext piece hmem
        · rename_i hsep
          have hordered := ordered_literalMatches sep
            (by simpa using hsep) 0 0 text (Nat.zero_le _)
          simp only [Nat.zero_add] at hordered
          dsimp only at hmem
          split at hmem
          · exact ih htext piece hmem
          · obtain ⟨whole, hwhole, hpiece⟩ := List.mem_flatMap.mp hmem
            have hne := piecesAt_ne_nil hordered whole hwhole
            split at hpiece
            · exact ih hne piece hpiece
            · rw [List.mem_singleton.mp hpiece]
              exact hne

theorem laid_separators (chunkSize : Nat) (separators : List Text) (a : Nat) (htext : text ≠ []) :
    Laid a (unitsFrom a (splitBySeparators chunkSize separators text)) ∧
      unitsText (unitsFrom a (splitBySeparators chunkSize separators text)) = text := by
  refine ⟨laid_unitsFrom a (splitBySeparators_ne_nil chunkSize separators htext), ?_⟩
  rw [unitsText_unitsFrom, flatten_splitBySeparators]

/-!
# Forced pieces
-/

theorem forcedEnd_bounds {runes : Text} {offset : Nat} (hoffset : offset < runes.length) :
    offset < forcedEnd runes offset ∧ forcedEnd runes offset ≤ runes.length := by
  have hcap : 0 < hardCap := by decide
  have hlimit : offset < min (offset + hardCap) runes.length := by omega
  unfold forcedEnd
  dsimp only
  split
  · split
    · rename_i i hsnap
      have hmem := List.mem_of_find?_eq_some hsnap
      rw [List.mem_reverse, List.mem_range'_1] at hmem
      omega
    · omega
  · omega

theorem laid_forcePieces (runes : Text) (base fuel offset : Nat)
    (hfuel : runes.length ≤ offset + fuel) :
    Laid (base + offset) (forcePieces runes base fuel offset) ∧
      unitsText (forcePieces runes base fuel offset) = runes.drop offset := by
  induction fuel generalizing offset with
  | zero =>
      refine ⟨trivial, ?_⟩
      rw [Nat.add_zero] at hfuel
      rw [List.drop_eq_nil_of_le hfuel]
      rfl
  | succ fuel ih =>
      simp only [forcePieces]
      split
      · rename_i hoffset
        obtain ⟨hlt, hle⟩ := forcedEnd_bounds hoffset
        obtain ⟨hlaid, htext⟩ := ih (forcedEnd runes offset) (by omega)
        refine ⟨⟨rfl, slice_ne_nil hlt hle, ?_, hlaid⟩, ?_⟩
        · rw [length_slice hle]
          dsimp only
          omega
        · rw [unitsText_cons, htext]
          exact slice_append_drop runes (Nat.le_of_lt hlt)
      · rename_i hend
        refine ⟨trivial, ?_⟩
        rw [List.drop_eq_nil_of_le (Nat.le_of_not_lt hend)]
        rfl

theorem laid_forceSplitRunes (text : Text) (base : Nat) :
    Laid base (forceSplitRunes text base) ∧ unitsText (forceSplitRunes text base) = text :=
  laid_forcePieces text base text.length 0 (by omega)

theorem laid_protectedUnits {protText : Text} (hne : protText ≠ []) (a : Nat) :
    Laid a (protectedUnits protText a) ∧ unitsText (protectedUnits protText a) = protText := by
  unfold protectedUnits
  split
  · exact laid_forceSplitRunes protText a
  · exact ⟨⟨rfl, hne, rfl, trivial⟩, by simp⟩

/-!
# Protected regions
-/

theorem le_of_byteOffset_le {i j : Nat} (hi : i ≤ t.length) (h : byteOffset t i ≤ byteOffset t j) :
    i ≤ j := by
  apply Nat.le_of_not_lt
  intro hlt
  exact absurd (byteOffset_lt t hlt hi) (Nat.not_lt.mpr h)

theorem lt_of_byteOffset_lt {i j : Nat} (h : byteOffset t i < byteOffset t j) : i < j := by
  apply Nat.lt_of_not_le
  intro hle
  exact absurd (byteOffset_mono t hle) (Nat.not_le.mpr h)

/-- A byte span of non-empty text between character boundaries. -/
def Region (t : Text) (m : Span) : Prop :=
  exists c : Span, m = matchBytes t c ∧ c.start < c.stop ∧ c.stop ≤ t.length

theorem region_protectedMatches (p : Patterns) (t : Text) :
    forall m, m ∈ p.protectedMatches t -> Region t m := by
  intro m hmem
  obtain ⟨hmatch, hpos⟩ := List.mem_filter.mp hmem
  obtain ⟨pat, _, hfound⟩ := List.mem_flatMap.mp hmatch
  obtain ⟨c, hc, rfl⟩ := List.mem_map.mp hfound
  obtain ⟨_, _, hstop⟩ := (pat.ordered t).mem c hc
  exact ⟨c, rfl, lt_of_byteOffset_lt (of_decide_eq_true hpos), hstop⟩

/-- The regions kept, by the characters they address. -/
theorem keepDisjoint_regions {k : Nat} (hk : k ≤ t.length) (hms : forall m, m ∈ ms -> Region t m) :
    exists cs : List Span, keepDisjoint (byteOffset t k) ms = cs.map (matchBytes t) ∧
      Span.Ordered k t.length cs ∧ forall c, c ∈ cs -> c.start < c.stop := by
  induction ms generalizing k with
  | nil =>
      refine ⟨[], rfl, hk, ?_⟩
      intro c hmem
      cases hmem
  | cons m ms ih =>
      obtain ⟨c, rfl, hne, hstop⟩ := hms m List.mem_cons_self
      have hrest : forall m, m ∈ ms -> Region t m := fun m hm =>
        hms m (List.mem_cons_of_mem _ hm)
      simp only [keepDisjoint]
      split
      · rename_i hfree
        obtain ⟨cs, hcs, hordered, hlong⟩ := ih hstop hrest
        refine ⟨c :: cs, ?_, ⟨le_of_byteOffset_le hk hfree, Nat.le_of_lt hne, hordered⟩, ?_⟩
        · rw [List.map_cons, ← hcs]
          rfl
        · intro d hd
          rcases List.mem_cons.mp hd with rfl | hd
          · exact hne
          · exact hlong d hd
      · exact ih hk hrest

theorem protectedSpans_regions (p : Patterns) (t : Text) :
    exists cs : List Span, protectedSpans p t = cs.map (matchBytes t) ∧
      Span.Ordered 0 t.length cs ∧ forall c, c ∈ cs -> c.start < c.stop := by
  have hzero : byteOffset t 0 = 0 := by simp [byteOffset, byteLen]
  have hsorted : forall m, m ∈ (p.protectedMatches t).insertionSort spanBefore -> Region t m := by
    intro m hmem
    exact region_protectedMatches p t m ((List.perm_insertionSort _ _).mem_iff.mp hmem)
  have hkept := keepDisjoint_regions (k := 0) (Nat.zero_le _) hsorted
  rwa [hzero] at hkept

/-- The units from a position on spell the rest of the text. -/
theorem laid_unitsBetween (text : Text) (separators : List Text) (chunkSize : Nat) {k : Nat}
    {cs : List Span} (hordered : Span.Ordered k text.length cs)
    (hlong : forall c, c ∈ cs -> c.start < c.stop) :
    Laid k (unitsBetween text separators chunkSize (byteOffset text k) k
        (cs.map (matchBytes text))) ∧
      unitsText (unitsBetween text separators chunkSize (byteOffset text k) k
        (cs.map (matchBytes text))) = text.drop k := by
  induction cs generalizing k with
  | nil =>
      simp only [List.map_nil, unitsBetween]
      rw [← byteOffset_length]
      split
      · rename_i hlt
        have hk := lt_of_byteOffset_lt hlt
        rw [byteSlice_byteOffset text (Nat.le_of_lt hk)]
        have hrest : slice text k text.length = text.drop k := by
          simp [slice]
        rw [hrest]
        exact laid_separators chunkSize separators k (List.drop_eq_nil_iff.not.mpr (by omega))
      · rename_i hend
        have hk : text.length ≤ k :=
          le_of_byteOffset_le (Nat.le_refl _) (Nat.le_of_not_lt hend)
        refine ⟨trivial, ?_⟩
        rw [List.drop_eq_nil_of_le hk]
        rfl
  | cons c cs ih =>
      obtain ⟨hstart, hspan, hrest⟩ := hordered
      have hlt := hlong c List.mem_cons_self
      have hstop := hrest.le
      obtain ⟨hlaid, htext⟩ := ih hrest fun d hd => hlong d (List.mem_cons_of_mem _ hd)
      have hprot : byteSlice text (byteOffset text c.start) (byteOffset text c.stop) =
          slice text c.start c.stop := byteSlice_byteOffset text hspan
      have hprotLength : (slice text c.start c.stop).length = c.stop - c.start :=
        length_slice hstop
      obtain ⟨hlaidProt, htextProt⟩ :=
        laid_protectedUnits (slice_ne_nil hlt hstop) c.start
      have hnext : c.start + (c.stop - c.start) = c.stop := Nat.add_sub_cancel' hspan
      have htail : Laid c.start (protectedUnits (slice text c.start c.stop) c.start ++
            unitsBetween text separators chunkSize (byteOffset text c.stop) c.stop
              (cs.map (matchBytes text))) ∧
          unitsText (protectedUnits (slice text c.start c.stop) c.start ++
            unitsBetween text separators chunkSize (byteOffset text c.stop) c.stop
              (cs.map (matchBytes text))) = text.drop c.start := by
        constructor
        · apply laid_append.mpr
          rw [htextProt, hprotLength, hnext]
          exact ⟨hlaidProt, hlaid⟩
        · rw [unitsText_append, htextProt, htext]
          exact slice_append_drop text hspan
      simp only [List.map_cons, unitsBetween, matchBytes]
      rw [hprot, hprotLength]
      by_cases hgap : k < c.start
      · have hbytes : byteOffset text k < byteOffset text c.start :=
          byteOffset_lt text hgap (by omega)
        have hpre : byteSlice text (byteOffset text k) (byteOffset text c.start) =
            slice text k c.start := byteSlice_byteOffset text hstart
        have hpreLength : k + (slice text k c.start).length = c.start := by
          rw [length_slice (by omega)]
          omega
        rw [if_pos hbytes, if_pos hbytes, hpre, hpreLength, hnext, List.append_assoc]
        obtain ⟨hlaidPre, htextPre⟩ := laid_separators chunkSize separators k
          (slice_ne_nil hgap (by omega : c.start ≤ text.length))
        constructor
        · apply laid_append.mpr
          rw [htextPre, hpreLength]
          exact ⟨hlaidPre, htail.1⟩
        · rw [unitsText_append, htextPre, htail.2]
          exact slice_append_drop text hstart
      · have heq : k = c.start := Nat.le_antisymm hstart (Nat.le_of_not_lt hgap)
        subst heq
        rw [if_neg (Nat.lt_irrefl _), if_neg (Nat.lt_irrefl _), hnext, List.nil_append]
        exact htail

theorem laid_buildUnits (p : Patterns) (text : Text) (separators : List Text)
    (chunkSize : Nat) :
    Laid 0 (buildUnitsWithProtection text (protectedSpans p text) separators chunkSize) ∧
      unitsText (buildUnitsWithProtection text (protectedSpans p text) separators chunkSize) =
        text := by
  obtain ⟨cs, hcs, hordered, hlong⟩ := protectedSpans_regions p text
  have hzero : byteOffset text 0 = 0 := by simp [byteOffset, byteLen]
  have hunits := laid_unitsBetween text separators chunkSize hordered hlong
  rw [← hcs, hzero] at hunits
  exact hunits

/-!
# What a unit is

A unit is a protected region, a slice of one that is longer than the cap, or a
piece of the text between them.  A piece that is still too long is divided by
none of the separators.
-/

/-- No separator occurs in the text, or it is the text. -/
def Undivided (separators : List Text) (text : Text) : Prop :=
  forall sep, sep ∈ separators -> sep ≠ [] -> sep <:+: text -> sep = text

theorem eq_of_infix_of_infix {t u : Text} (h : t <:+: u) (h' : u <:+: t) : t = u :=
  h.eq_of_length (Nat.le_antisymm h.length_le h'.length_le)

/-!
# Between the matches
-/

/-- No occurrence of a text begins between two positions. -/
def NoneFrom (sep text : Text) (a b : Nat) : Prop :=
  forall i, a ≤ i -> i < b -> ¬ sep <+: text.drop i

theorem exists_prefix_of_infix_slice {sep text : Text} (hsep : sep ≠ []) {a b : Nat}
    (hoccurs : sep <:+: slice text a b) : exists i, a ≤ i ∧ i < b ∧ sep <+: text.drop i := by
  rcases hoccurs with ⟨before, after, heq⟩
  have hpos := List.length_pos_iff.mpr hsep
  have hlength := congrArg List.length heq
  have hdrop : (slice text a b).drop before.length = sep ++ after := by
    rw [← heq, List.append_assoc, List.drop_left]
  refine ⟨a + before.length, Nat.le_add_right _ _, ?_, ?_⟩
  · simp only [slice, List.length_append, List.length_drop, List.length_take] at hlength
    omega
  · have hleads : sep <+: (text.take b).drop (a + before.length) := by
      rw [← List.drop_drop]
      unfold slice at hdrop
      rw [hdrop]
      exact List.prefix_append sep after
    rw [List.drop_take] at hleads
    exact hleads.trans (List.take_prefix _ _)

theorem not_infix_slice {sep text : Text} (hsep : sep ≠ []) {a b : Nat}
    (hnone : NoneFrom sep text a b) : ¬ sep <:+: slice text a b := by
  intro hoccurs
  rcases exists_prefix_of_infix_slice hsep hoccurs with ⟨i, hlow, hhigh, hleads⟩
  exact hnone i hlow hhigh hleads

/-- A piece is a separator, or has none. -/
theorem piecesAt_literalMatches {sep text : Text} (hsep : sep ≠ []) (t : Text) (pos skip last : Nat)
    (ht : t = text.drop pos) (hlast : last ≤ pos + skip)
    (hnone : NoneFrom sep text last (pos + skip)) :
    forall piece, piece ∈ piecesAt text last (literalMatches sep pos skip t) ->
      piece = sep ∨ ¬ sep <:+: piece := by
  induction t generalizing pos skip last with
  | nil =>
      intro piece hmem
      have hend : text.length ≤ pos := List.drop_eq_nil_iff.mp ht.symm
      simp only [literalMatches, piecesAt] at hmem
      split at hmem
      · cases List.mem_singleton.mp hmem
        right
        have hslice : text.drop last = slice text last text.length := by
          simp [slice]
        rw [hslice]
        apply not_infix_slice hsep
        intro i hlow hhigh
        exact hnone i hlow (by omega)
      · cases hmem
  | cons c t ih =>
      have ht' : t = text.drop (pos + 1) := by
        rw [← List.drop_drop, ← ht]
        rfl
      cases skip with
      | succ skip =>
          simp only [literalMatches]
          have hsame : pos + (skip + 1) = pos + 1 + skip := by omega
          rw [hsame] at hlast hnone
          exact ih (pos + 1) skip last ht' hlast hnone
      | zero =>
          rw [Nat.add_zero] at hlast hnone
          simp only [literalMatches]
          split
          · rename_i hmatch
            have hleads := List.isPrefixOf_iff_prefix.mp hmatch
            have hpos := List.length_pos_iff.mpr hsep
            intro piece hmem
            simp only [piecesAt, List.mem_append] at hmem
            rcases hmem with (hbefore | hmatched) | hafter
            · split at hbefore
              · cases List.mem_singleton.mp hbefore
                exact Or.inr (not_infix_slice hsep hnone)
              · cases hbefore
            · split at hmatched
              · cases List.mem_singleton.mp hmatched
                left
                rw [slice_eq_take_drop, ← ht, Nat.add_sub_cancel_left]
                exact (List.prefix_iff_eq_take.mp hleads).symm
              · cases hmatched
            · refine ih (pos + 1) (sep.length - 1) (pos + sep.length) ht' (by omega) ?_ piece hafter
              intro i hlow hhigh
              omega
          · rename_i hmiss
            apply ih (pos + 1) 0 last ht' (by omega)
            intro i hlow hhigh
            by_cases hi : i < pos
            · exact hnone i hlow hi
            · have heq : i = pos := by omega
              rw [heq, ← ht]
              intro hleads
              exact hmiss (List.isPrefixOf_iff_prefix.mpr hleads)

theorem pieces_separator_or_free {sep : Text} (hsep : sep ≠ []) (text : Text) :
    forall piece, piece ∈ piecesAt text 0 (literalMatches sep 0 0 text) ->
      piece = sep ∨ ¬ sep <:+: piece := by
  apply piecesAt_literalMatches hsep text 0 0 0
  · rw [List.drop_zero]
  · exact Nat.le_refl 0
  · intro i _ hhigh
    exact absurd hhigh (Nat.not_lt_zero i)

theorem infix_of_mem_flatten {text part : Text} (hflat : parts.flatten = text)
    (hmem : part ∈ parts) : part <:+: text := by
  rcases List.append_of_mem hmem with ⟨before, after, rfl⟩
  refine ⟨before.flatten, after.flatten, ?_⟩
  rw [← hflat]
  simp

/-- A text that is cut into one piece is that piece. -/
theorem eq_of_single_piece {sep text piece : Text} (hsep : sep ≠ [])
    (hpieces : (piecesAt text 0 (literalMatches sep 0 0 text)).length ≤ 1) (hne : text ≠ [])
    (hoccurs : sep <:+: text) (hpiece : piece <:+: text) (hin : sep <:+: piece) : sep = piece := by
  have hordered := ordered_literalMatches sep hsep 0 0 text (Nat.zero_le _)
  simp only [Nat.zero_add] at hordered
  have hflat := flatten_piecesAt hordered
  rw [List.drop_zero] at hflat
  have hfree := pieces_separator_or_free hsep text
  cases hcut : piecesAt text 0 (literalMatches sep 0 0 text) with
  | nil =>
      rw [hcut] at hflat
      exact absurd hflat.symm hne
  | cons first rest =>
      rw [hcut] at hpieces hflat hfree
      have hrest : rest = [] := by
        cases rest with
        | nil =>
            rfl
        | cons second rest =>
            simp at hpieces
      rw [hrest] at hflat hfree
      simp only [List.flatten_cons, List.flatten_nil, List.append_nil] at hflat
      subst hflat
      rcases hfree first List.mem_cons_self with heq | hnone
      · rw [heq] at hpiece
        exact eq_of_infix_of_infix hin hpiece
      · exact absurd hoccurs hnone

variable {chunkSize : Nat}

/-- A piece that is longer than the chunk size is divided by no separator. -/
theorem splitBySeparators_undivided (hsize : 0 < chunkSize) (separators : List Text) (text : Text) :
    forall piece, piece ∈ splitBySeparators chunkSize separators text ->
      chunkSize < piece.length -> Undivided separators piece := by
  induction separators generalizing text with
  | nil =>
      intro piece _ _ sep hsep
      cases hsep
  | cons sep remaining ih =>
      intro piece hmem hlong
      have hwhole : piece <:+: text :=
        infix_of_mem_flatten (flatten_splitBySeparators chunkSize (sep :: remaining) text) hmem
      unfold splitBySeparators at hmem
      split at hmem
      · rename_i hshort
        cases List.mem_singleton.mp hmem
        exfalso
        simp only [Bool.or_eq_true, Bool.and_eq_true, decide_eq_true_eq] at hshort
        rcases hshort with hempty | ⟨_, hle⟩
        · rw [List.isEmpty_iff.mp hempty] at hlong
          exact absurd hlong (Nat.not_lt_zero chunkSize)
        · omega
      · split at hmem
        · rename_i hempty
          intro other hother hne hoccurs
          rcases List.mem_cons.mp hother with rfl | hother
          · exact absurd (List.isEmpty_iff.mp hempty) hne
          · exact ih text piece hmem hlong other hother hne hoccurs
        · rename_i hsepFull
          have hsep : sep ≠ [] := by
            simpa using hsepFull
          dsimp only at hmem
          split at hmem
          · rename_i hone
            intro other hother hne hoccurs
            rcases List.mem_cons.mp hother with rfl | hother
            · apply eq_of_single_piece hsep hone _ (hoccurs.trans hwhole) hwhole hoccurs
              rintro rfl
              have hle := hwhole.length_le
              simp only [List.length_nil] at hle
              omega
            · exact ih text piece hmem hlong other hother hne hoccurs
          · rcases List.mem_flatMap.mp hmem with ⟨part, hpart, hpiece⟩
            have hpartFree := pieces_separator_or_free hsep text part hpart
            have hin : piece <:+: part := by
              split at hpiece
              · exact infix_of_mem_flatten
                  (flatten_splitBySeparators chunkSize remaining part) hpiece
              · rw [List.mem_singleton.mp hpiece]
            intro other hother hne hoccurs
            rcases List.mem_cons.mp hother with rfl | hother
            · rcases hpartFree with heq | hnone
              · rw [heq] at hin
                exact eq_of_infix_of_infix hoccurs hin
              · exact absurd (hoccurs.trans hin) hnone
            · split at hpiece
              · exact ih part piece hpiece hlong other hother hne hoccurs
              · rename_i hstop
                rw [List.mem_singleton.mp hpiece] at hlong
                exfalso
                apply hstop
                simp only [Bool.and_eq_true, decide_eq_true_eq]
                refine ⟨⟨hsize, hlong⟩, ?_⟩
                cases remaining with
                | nil =>
                    cases hother
                | cons first rest =>
                    rfl

/-- The pieces of a text lose nothing, none is empty, and under a limit those
that are too long are undivided. -/
theorem splitBySeparators_pieces (separators : List Text) (chunkSize : Nat) {text : Text}
    (htext : text ≠ []) :
    (forall piece, piece ∈ splitBySeparators chunkSize separators text -> piece ≠ []) ∧
      (splitBySeparators chunkSize separators text).flatten = text ∧
      (0 < chunkSize -> forall piece, piece ∈ splitBySeparators chunkSize separators text ->
        chunkSize < piece.length -> Undivided separators piece) := by
  constructor
  · exact splitBySeparators_ne_nil chunkSize separators htext
  constructor
  · exact flatten_splitBySeparators chunkSize separators text
  · intro hsize
    exact splitBySeparators_undivided hsize separators text

theorem splitBySeparators_pieces_sample :
    (splitBySeparators 2 [['\n'], [' ']] ['a', '\n', 'b', ' ', 'c']).flatten =
        ['a', '\n', 'b', ' ', 'c'] ∧
      forall piece, piece ∈ splitBySeparators 2 [['\n'], [' ']] ['a', '\n', 'b', ' ', 'c'] ->
        2 < piece.length -> Undivided [['\n'], [' ']] piece := by
  have hpieces := @splitBySeparators_pieces [['\n'], [' ']] 2 ['a', '\n', 'b', ' ', 'c']
    (by decide)
  exact ⟨hpieces.2.1, hpieces.2.2 (by decide)⟩

/-- Without a limit only the first separator that divides the text is used. -/
theorem splitBySeparators_without_limit :
    ¬ (forall (text : Text) (separators : List Text) (chunkSize : Nat), text ≠ [] ->
      forall piece, piece ∈ splitBySeparators chunkSize separators text ->
        chunkSize < piece.length -> Undivided separators piece) := by
  intro hall
  have hmem : ['b', ' ', 'c'] ∈
      splitBySeparators 0 [['\n'], [' ']] ['a', '\n', 'b', ' ', 'c'] := by
    decide
  have hundivided := hall ['a', '\n', 'b', ' ', 'c'] [['\n'], [' ']] 0 (by decide) _ hmem
    (by decide)
  have hin : [' '] <:+: ['b', ' ', 'c'] := ⟨['b'], ['c'], rfl⟩
  exact absurd (hundivided [' '] (by decide) (by decide) hin) (by decide)

/-!
# What cannot be divided
-/

/-- A protected region, or a piece without separators. -/
def WholePiece (p : Patterns) (block : Text) (separators : List Text) (piece : Text) : Prop :=
  (exists m, m ∈ protectedSpans p block ∧ piece = byteSlice block m.start m.stop) ∨
    Undivided separators piece

/-- A unit that the recursive splitter leaves as it is: a region, a piece without
separators, or a slice of one of them that is longer than the cap. -/
inductive Indivisible (p : Patterns) (block : Text) (separators : List Text) (piece : Text) :
    Prop where
  | whole (hwhole : WholePiece p block separators piece)
  | slice (whole : Text) (base : Nat) (u : SplitUnit) (hwhole : WholePiece p block separators whole)
      (hlong : hardCap < whole.length) (hmem : u ∈ forceSplitRunes whole base)
      (htext : piece = u.text)

theorem mem_unitsFrom (hmem : u ∈ unitsFrom a parts) :
    u.text ∈ parts := by
  induction parts generalizing a with
  | nil =>
      cases hmem
  | cons part parts ih =>
      rcases List.mem_cons.mp hmem with rfl | hmem
      · exact List.mem_cons_self
      · exact List.mem_cons_of_mem part (ih hmem)

variable {separators : List Text} {p : Patterns}

theorem wholePiece_of_separators (hsize : 0 < chunkSize) {between : Text}
    (hmem : u ∈ unitsFrom a (splitBySeparators chunkSize separators between))
    (hlong : chunkSize < u.text.length) : WholePiece p text separators u.text :=
  Or.inr (splitBySeparators_undivided hsize separators between u.text (mem_unitsFrom hmem) hlong)

/-- A unit that is longer than a chunk is whole, or a slice of a region. -/
theorem indivisible_of_unitsBetween (hsize : 0 < chunkSize) (regions : List Span)
    (hregions : forall m, m ∈ regions -> m ∈ protectedSpans p text) (bytePos runePos : Nat) :
    forall u, u ∈ unitsBetween text separators chunkSize bytePos runePos regions ->
      chunkSize < u.text.length -> WholePiece p text separators u.text ∨
        exists whole base, WholePiece p text separators whole ∧ hardCap < whole.length ∧
          u ∈ forceSplitRunes whole base := by
  induction regions generalizing bytePos runePos with
  | nil =>
      intro u hmem hlong
      simp only [unitsBetween] at hmem
      split at hmem
      · exact Or.inl (wholePiece_of_separators hsize hmem hlong)
      · cases hmem
  | cons m rest ih =>
      intro u hmem hlong
      simp only [unitsBetween, List.mem_append] at hmem
      rcases hmem with (hbefore | hprotected) | hafter
      · split at hbefore
        · exact Or.inl (wholePiece_of_separators hsize hbefore hlong)
        · cases hbefore
      · have hregion : WholePiece p text separators (byteSlice text m.start m.stop) :=
          Or.inl ⟨m, hregions m List.mem_cons_self, rfl⟩
        unfold protectedUnits at hprotected
        split at hprotected
        · rename_i hover
          exact Or.inr ⟨_, _, hregion, hover, hprotected⟩
        · cases List.mem_singleton.mp hprotected
          exact Or.inl hregion
      · exact ih (fun m' hm' => hregions m' (List.mem_cons_of_mem m hm')) _ _ u hafter hlong

end Chunker
end KnowledgeBrain
