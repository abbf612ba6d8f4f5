import KnowledgeBrain.Evidence.Selection

/-!
# Aliases

The view of a pack supplies every character once.  A range of the support that
is not in the view has an alias whose segments tile it, unless it is empty and
nothing that is supplied of its source reaches its place.
-/

namespace KnowledgeBrain
namespace Evidence

open Foundation SupportingIndex

section

variable {digest : String -> String} {source : Entry} {items : List Entry}

/-!
# Segments
-/

theorem sameSource_sorted (source : Entry) (items : List Entry) :
    ((sameSource source (sortBy compareStart items)).map Entry.span).Pairwise
      fun m n => m.start ≤ n.start := by
  rw [List.pairwise_map]
  apply ((pairwise_sortBy compareStart items).filter _).imp
  intro a b hle
  exact Nat.isLE_compare.mp hle

theorem mem_sameSource_sorted {item : Entry} :
    item ∈ sameSource source (sortBy compareStart items) <->
      item ∈ items ∧ item.sourceRangeId = source.sourceRangeId := by
  rw [mem_sameSource, mem_sortBy]

theorem sameSource_apart (hitems : Disjoint items) :
    ((sameSource source (sortBy compareStart items)).map Entry.span).Pairwise Span.Apart := by
  rw [List.pairwise_map]
  have hall : (sortBy compareStart items).Pairwise ApartEntries :=
    (perm_sortBy compareStart items).symm.pairwise hitems.apart ApartEntries.symm
  have hsame := hall.filter fun entry => entry.sourceRangeId == source.sourceRangeId
  apply hsame.imp_of_mem
  intro a b ha hb hapart
  exact hapart ((mem_sameSource.mp ha).2.trans (mem_sameSource.mp hb).2.symm)

/-- The segments of a range with characters are the clipped items. -/
theorem spans_segmentsOf (hnonempty : source.start < source.stop) :
    (segmentsOf source items).map SourceSegment.span =
      Span.clips source.span ((sameSource source (sortBy compareStart items)).map Entry.span) := by
  unfold segmentsOf Span.clips
  induction sameSource source (sortBy compareStart items) with
  | nil =>
      rfl
  | cons item rest ih =>
      rw [List.map_cons, List.map_cons]
      by_cases hpart :
          (Span.clip source.span item.span).start < (Span.clip source.span item.span).stop
      · have hsegment : segmentIn source item = some ⟨item.rangeId,
            (Span.clip source.span item.span).start, (Span.clip source.span item.span).stop⟩ :=
          if_pos (Or.inl hpart)
        rw [List.filterMap_cons_some hsegment, List.filter_cons_of_pos (by simpa using hpart),
          List.map_cons, ih]
        rfl
      · have hsegment : segmentIn source item = none := by
          apply if_neg
          rintro (hnot | ⟨hempty, _⟩)
          · exact hpart hnot
          · omega
        rw [List.filterMap_cons_none hsegment, List.filter_cons_of_neg (by simpa using hpart), ih]

theorem segmentsOf_tiles (hnonempty : source.start < source.stop) (hitems : Disjoint items)
    (hcovered : forall i, source.span.Contains i -> Supplied items source.sourceRangeId i) :
    TilesRange source (segmentsOf source items) := by
  unfold TilesRange
  rw [if_pos hnonempty, spans_segmentsOf hnonempty]
  show Span.Tiles source.span.start source.span.stop _
  apply Span.tiles_clips (sameSource_sorted source items) (sameSource_apart hitems)
    (Nat.le_refl _) (Nat.le_of_lt hnonempty)
  · intro i hlow hhigh
    rcases hcovered i ⟨hlow, hhigh⟩ with ⟨item, hmem, hsame, hin⟩
    exact ⟨item.span, List.mem_map_of_mem (mem_sameSource_sorted.mpr ⟨hmem, hsame⟩), hin⟩
  · intro m _ i hlow hhigh
    omega

theorem clip_of_empty (hempty : source.start = source.stop) {item : Entry}
    (hreach : item.start ≤ source.start ∧ source.start ≤ item.stop) :
    Span.clip source.span item.span = ⟨source.start, source.stop⟩ := by
  have hstart : max item.start source.start = source.start := by omega
  have hstop : min item.stop source.stop = source.stop := by omega
  show (⟨max item.start source.start, min item.stop source.stop⟩ : Span) = _
  rw [hstart, hstop]

theorem segmentIn_of_empty (hempty : source.start = source.stop) {item : Entry}
    {segment : SourceSegment} :
    segmentIn source item = some segment <->
      (item.start ≤ source.start ∧ source.start ≤ item.stop) ∧
        segment = ⟨item.rangeId, source.start, source.stop⟩ := by
  unfold segmentIn
  constructor
  · intro hsegment
    simp only at hsegment
    split at hsegment
    · rename_i hshared
      have hreach : item.start ≤ source.start ∧ source.start ≤ item.stop := by
        simp only [Span.clip, Entry.span] at hshared
        omega
      rw [clip_of_empty hempty hreach] at hsegment
      exact ⟨hreach, (Option.some.inj hsegment).symm⟩
    · cases hsegment
  · rintro ⟨hreach, rfl⟩
    simp only [clip_of_empty hempty hreach]
    exact if_pos (Or.inr ⟨hempty, hempty⟩)

theorem mem_segmentsOf_of_empty (hempty : source.start = source.stop) {segment : SourceSegment} :
    segment ∈ segmentsOf source items <->
      exists item, item ∈ items ∧ Touches source item ∧
        segment = ⟨item.rangeId, source.start, source.stop⟩ := by
  unfold segmentsOf
  rw [List.mem_filterMap]
  constructor
  · rintro ⟨item, hmem, hsegment⟩
    rcases mem_sameSource_sorted.mp hmem with ⟨hitem, hsame⟩
    rcases (segmentIn_of_empty hempty).mp hsegment with ⟨hreach, rfl⟩
    exact ⟨item, hitem, ⟨hsame, hreach⟩, rfl⟩
  · rintro ⟨item, hitem, ⟨hsame, hreach⟩, rfl⟩
    exact ⟨item, mem_sameSource_sorted.mpr ⟨hitem, hsame⟩,
      (segmentIn_of_empty hempty).mpr ⟨hreach, rfl⟩⟩

theorem segmentsOf_tiles_of_empty (hempty : source.start = source.stop) {item : Entry}
    (hitem : item ∈ items) (htouch : Touches source item) :
    TilesRange source (segmentsOf source items) := by
  unfold TilesRange
  rw [if_neg (by omega)]
  constructor
  · apply List.ne_nil_of_mem
    exact (mem_segmentsOf_of_empty hempty).mpr ⟨item, hitem, htouch, rfl⟩
  · intro segment hmem
    rcases (mem_segmentsOf_of_empty hempty).mp hmem with ⟨_, _, _, rfl⟩
    rfl

/-!
# One range of the support
-/

/-- A range is in the view, by itself or by an alias. -/
def Named (source : Entry) (state : ViewState) : Prop :=
  source ∈ state.selected ∨ exists named, named ∈ state.aliases ∧
    named.rangeId = source.rangeId ∧ TilesRange source named.segments

theorem Named.mono {state state' : ViewState} (hselected : state.selected ⊆ state'.selected)
    (haliases : state.aliases ⊆ state'.aliases) (h : Named source state) : Named source state' := by
  rcases h with hmem | ⟨named, hmem, hnamed⟩
  · exact Or.inl (hselected hmem)
  · exact Or.inr ⟨named, haliases hmem, hnamed⟩

/-- What a step adds: the pieces, and an alias unless the range is whole. -/
structure Viewing (body : List Entry) (state : ViewState) (source : Entry) (pieces : List Entry)
    (state' : ViewState) : Prop where
  cuts : Cuts source (body ++ state.selected) pieces
  selected : state'.selected = state.selected ++ pieces
  aliases : state'.aliases = if isWhole source pieces ||
    (segmentsOf source (body ++ (state.selected ++ pieces))).isEmpty then state.aliases
    else state.aliases ++ [⟨source.rangeId, segmentsOf source (body ++ (state.selected ++ pieces))⟩]

variable {body done added : List Entry} {state state' : ViewState}

theorem addView_viewing (h : Given body done state.selected) (source : Entry) :
    exists pieces state', uncovered digest source (body ++ state.selected) = .ok pieces ∧
      addView digest body state source = .ok state' ∧ Viewing body state source pieces state' := by
  rcases @uncovered_cuts digest source (body ++ state.selected) h.disjoint.ordered with
    ⟨pieces, huncovered, hcuts⟩
  refine ⟨pieces, _, huncovered, ok_bind huncovered, ?_⟩
  constructor
  · exact hcuts
  · rfl
  · rfl

theorem Viewing.given (hview : Viewing body state source added state')
    (h : Given body done state.selected) : Given body (done ++ [source]) state'.selected := by
  rw [hview.selected]
  constructor
  · rw [← List.append_assoc]
    exact h.disjoint.append hview.cuts
  · intro piece hmem
    rcases List.mem_append.mp hmem with hold | hnew
    · rcases h.parts piece hold with ⟨earlier, hearlier, hpart⟩
      exact ⟨earlier, List.mem_append_left _ hearlier, hpart⟩
    · exact ⟨source, List.mem_append_right _ (List.mem_singleton_self source),
        hview.cuts.source piece hnew, hview.cuts.range piece hnew⟩
  · intro earlier hmem i hin
    rw [← List.append_assoc]
    rcases List.mem_append.mp hmem with hold | hnew
    · exact (h.covered earlier hold i hin).mono (List.subset_append_left _ _)
    · rcases List.mem_singleton.mp hnew with rfl
      exact hview.cuts.covered i hin

theorem Viewing.selected_subset (hview : Viewing body state source added state') :
    state.selected ⊆ state'.selected := by
  rw [hview.selected]
  exact List.subset_append_left _ _

theorem Viewing.aliases_subset (hview : Viewing body state source added state') :
    state.aliases ⊆ state'.aliases := by
  rw [hview.aliases]
  split
  · exact fun _ hmem => hmem
  · exact List.subset_append_left _ _

/-- The digest of a fragment never names the range it is a proper part of. -/
def FairName (digest : String -> String) (source : Entry) : Prop :=
  forall start stop, source.rangeId = fragmentId digest source.sourceRangeId start stop ->
    start = source.start ∧ stop = source.stop

/-- A single piece with the name of the range is the range. -/
theorem mem_of_isWhole (hfair : FairName digest source) (hne : source.start ≠ source.stop)
    {occupied : List Entry} (huncovered : uncovered digest source occupied = .ok added)
    (hwhole : isWhole source added = true) : source ∈ added := by
  rw [uncovered_eq_pieces hne] at huncovered
  cases huncovered
  unfold pieces at hwhole ⊢
  rcases hgaps : Span.gaps source.stop source.start (occupiedSpans source occupied) with
    _ | ⟨g, _ | ⟨g', rest⟩⟩
  · rw [hgaps] at hwhole
    cases hwhole
  · rw [hgaps] at hwhole
    have hname : (pieceIn digest source g).rangeId = source.rangeId := by
      simpa [isWhole] using hwhole
    have hself : pieceIn digest source g = source := by
      unfold pieceIn at hname ⊢
      split
      · rfl
      · rename_i hpart
        rw [if_neg hpart] at hname
        rcases hfair g.start g.stop hname.symm with ⟨hstart, hstop⟩
        apply absurd _ hpart
        show g = ⟨source.start, source.stop⟩
        rw [← hstart, ← hstop]
    rw [List.map_singleton, hself]
    exact List.mem_singleton_self source
  · rw [hgaps] at hwhole
    cases hwhole

/-- A range with characters is in the view after its step. -/
theorem Viewing.named (hview : Viewing body state source added state')
    (h : Given body done state.selected) (hfair : FairName digest source)
    (huncovered : uncovered digest source (body ++ state.selected) = .ok added)
    (hnonempty : source.start < source.stop) : Named source state' := by
  cases hwhole : isWhole source added with
  | true =>
      apply Or.inl
      rw [hview.selected]
      exact List.mem_append_right _
        (mem_of_isWhole hfair (Nat.ne_of_lt hnonempty) huncovered hwhole)
  | false =>
      have hgiven := hview.given h
      rw [hview.selected] at hgiven
      have htiles := segmentsOf_tiles hnonempty hgiven.disjoint
        (hgiven.covered source (List.mem_append_right _ (List.mem_singleton_self source)))
      have hsome : (segmentsOf source (body ++ (state.selected ++ added))).isEmpty = false := by
        cases hsegments : segmentsOf source (body ++ (state.selected ++ added)) with
        | nil =>
            rw [hsegments] at htiles
            unfold TilesRange at htiles
            rw [if_pos hnonempty] at htiles
            have hsame : source.start = source.stop := htiles
            omega
        | cons segment rest =>
            rfl
      apply Or.inr
      refine ⟨⟨source.rangeId, _⟩, ?_, rfl, htiles⟩
      rw [hview.aliases, hwhole, hsome]
      exact List.mem_append_right _ (List.mem_singleton_self _)

/-!
# Empty ranges
-/

theorem Viewing.of_first (hview : Viewing body state source added state')
    (hempty : source.start = source.stop)
    (huncovered : uncovered digest source (body ++ state.selected) = .ok added)
    (hfirst : forall item, item ∈ body ++ state.selected ->
      item.sourceRangeId ≠ source.sourceRangeId) :
    added = [source] ∧ source ∈ state'.selected := by
  have hnone : (sameSource source (body ++ state.selected)).isEmpty = true := by
    rw [List.isEmpty_iff, List.eq_nil_iff_forall_not_mem]
    intro item hmem
    rcases mem_sameSource.mp hmem with ⟨hitem, hsame⟩
    exact hfirst item hitem hsame
  rw [uncovered_of_empty hempty, hnone, if_pos rfl] at huncovered
  cases huncovered
  refine ⟨rfl, ?_⟩
  rw [hview.selected]
  exact List.mem_append_right _ (List.mem_singleton_self source)

/-- An empty range whose source is supplied gets an alias at most. -/
theorem Viewing.of_later (hview : Viewing body state source added state')
    (hempty : source.start = source.stop)
    (huncovered : uncovered digest source (body ++ state.selected) = .ok added) {item : Entry}
    (hitem : item ∈ body ++ state.selected) (hsame : item.sourceRangeId = source.sourceRangeId) :
    state'.selected = state.selected ∧ state'.aliases =
      if (segmentsOf source (body ++ state.selected)).isEmpty then state.aliases
      else state.aliases ++ [⟨source.rangeId, segmentsOf source (body ++ state.selected)⟩] := by
  have hsome : (sameSource source (body ++ state.selected)).isEmpty = false := by
    rw [List.isEmpty_eq_false_iff]
    exact List.ne_nil_of_mem (mem_sameSource.mpr ⟨hitem, hsame⟩)
  rw [uncovered_of_empty hempty, hsome, if_neg Bool.false_ne_true] at huncovered
  cases huncovered
  have hselected := hview.selected
  have haliases := hview.aliases
  rw [List.append_nil] at hselected haliases
  exact ⟨hselected, haliases⟩

/-- What is known after some ranges, when every empty one was reached. -/
structure Progress (body done : List Entry) (state : ViewState) : Prop where
  given : Given body done state.selected
  touched : forall entry, entry ∈ done -> exists item, item ∈ body ++ state.selected ∧
    Touches entry item
  named : forall entry, entry ∈ done -> Named entry state

theorem Progress.append (h : Progress body done state)
    (hview : Viewing body state source added state')
    (htouched : exists item, item ∈ body ++ state'.selected ∧ Touches source item)
    (hnamed : Named source state') : Progress body (done ++ [source]) state' := by
  constructor
  · exact hview.given h.given
  · intro entry hmem
    rcases List.mem_append.mp hmem with hold | hnew
    · rcases h.touched entry hold with ⟨item, hitem, htouch⟩
      refine ⟨item, ?_, htouch⟩
      rcases List.mem_append.mp hitem with hbody | hselected
      · exact List.mem_append_left _ hbody
      · exact List.mem_append_right _ (hview.selected_subset hselected)
    · rcases List.mem_singleton.mp hnew with rfl
      exact htouched
  · intro entry hmem
    rcases List.mem_append.mp hmem with hold | hnew
    · exact (h.named entry hold).mono hview.selected_subset hview.aliases_subset
    · rcases List.mem_singleton.mp hnew with rfl
      exact hnamed

/-- What an entry with characters reaches, something that is supplied reaches. -/
theorem touches_of_supplied {entry : Entry} (hnonempty : entry.start < entry.stop)
    (hcovered : forall i, entry.span.Contains i -> Supplied items entry.sourceRangeId i)
    (htouch : Touches source entry) : exists item, item ∈ items ∧ Touches source item := by
  rcases htouch with ⟨hsame, hlow, hhigh⟩
  by_cases hlast : source.start = entry.stop
  · rcases hcovered (source.start - 1)
      ⟨by show entry.start ≤ _; omega, by show _ < entry.stop; omega⟩
      with ⟨item, hitem, hsource, hin⟩
    have hlow' : item.start ≤ source.start - 1 := hin.1
    have hhigh' : source.start - 1 < item.stop := hin.2
    exact ⟨item, hitem, hsource.trans hsame, by omega, by omega⟩
  · rcases hcovered source.start ⟨hlow, by show _ < entry.stop; omega⟩ with
      ⟨item, hitem, hsource, hin⟩
    have hhigh' : source.start < item.stop := hin.2
    exact ⟨item, hitem, hsource.trans hsame, hin.1, by omega⟩

theorem Progress.touches (h : Progress body done state) (hordered : forall entry, entry ∈ done ->
    entry.start ≤ entry.stop) {entry : Entry} (hentry : entry ∈ body ++ done)
    (htouch : Touches source entry) :
    exists item, item ∈ body ++ state.selected ∧ Touches source item := by
  rcases List.mem_append.mp hentry with hbody | hdone
  · exact ⟨entry, List.mem_append_left _ hbody, htouch⟩
  · by_cases hnonempty : entry.start < entry.stop
    · exact touches_of_supplied hnonempty (h.given.covered entry hdone) htouch
    · -- The entry is empty and at the same place.
      have hplace : entry.start = source.start := by
        have := hordered entry hdone
        have := htouch.2
        omega
      rcases h.touched entry hdone with ⟨item, hitem, hsame, hreach⟩
      refine ⟨item, hitem, hsame.trans htouch.1, ?_⟩
      rw [← hplace]
      exact hreach

theorem sameSource_of_item (h : Given body done state.selected) {item : Entry}
    (hitem : item ∈ body ++ state.selected) :
    exists entry, entry ∈ body ++ done ∧ entry.sourceRangeId = item.sourceRangeId ∧
      entry.start ≤ item.start ∧ item.stop ≤ entry.stop := by
  rcases List.mem_append.mp hitem with hbody | hselected
  · exact ⟨item, List.mem_append_left _ hbody, rfl, Nat.le_refl _, Nat.le_refl _⟩
  · rcases h.parts item hselected with ⟨entry, hentry, hsame, hlow, _, hhigh⟩
    exact ⟨entry, List.mem_append_right _ hentry, hsame.symm, hlow, hhigh⟩

/-- One range, empty ones being the first of their source or reached. -/
theorem Progress.addView (h : Progress body done state)
    (hordered : forall entry, entry ∈ done ++ [source] -> entry.start ≤ entry.stop)
    (hfair : FairName digest source)
    (hreached : source.start = source.stop ->
      (forall entry, entry ∈ body ++ done -> entry.sourceRangeId ≠ source.sourceRangeId) ∨
        exists entry, entry ∈ body ++ done ∧ Touches source entry) :
    exists state', addView digest body state source = .ok state' ∧
      Progress body (done ++ [source]) state' := by
  rcases @addView_viewing digest body done state h.given source with
    ⟨added, state', huncovered, hrun, hview⟩
  refine ⟨state', hrun, ?_⟩
  have hself := hordered source (List.mem_append_right _ (List.mem_singleton_self source))
  by_cases hnonempty : source.start < source.stop
  · apply h.append hview
    · have hgiven := hview.given h.given
      apply touches_of_supplied hnonempty
        (hgiven.covered source (List.mem_append_right _ (List.mem_singleton_self source)))
      exact ⟨rfl, Nat.le_refl _, hself⟩
    · exact hview.named h.given hfair huncovered hnonempty
  · have hempty : source.start = source.stop := by omega
    rcases hreached hempty with hfirst | ⟨entry, hentry, htouch⟩
    · have hfirst' : forall item, item ∈ body ++ state.selected ->
          item.sourceRangeId ≠ source.sourceRangeId := by
        intro item hitem hsame
        rcases sameSource_of_item h.given hitem with ⟨entry, hentry, hsource, _⟩
        exact hfirst entry hentry (hsource.trans hsame)
      have hmem := (hview.of_first hempty huncovered hfirst').2
      apply h.append hview
      · exact ⟨source, List.mem_append_right _ hmem, rfl, Nat.le_refl _, hself⟩
      · exact Or.inl hmem
    · rcases h.touches (fun entry hmem => hordered entry (List.mem_append_left _ hmem)) hentry
        htouch
        with ⟨item, hitem, htouch'⟩
      rcases hview.of_later hempty huncovered hitem htouch'.1 with ⟨hselected, haliases⟩
      have htiles := segmentsOf_tiles_of_empty hempty hitem htouch'
      apply h.append hview
      · rw [hselected]
        exact ⟨item, hitem, htouch'⟩
      · apply Or.inr
        refine ⟨⟨source.rangeId, _⟩, ?_, rfl, htiles⟩
        have hsome : (segmentsOf source (body ++ state.selected)).isEmpty = false := by
          rw [List.isEmpty_eq_false_iff]
          apply List.ne_nil_of_mem
          exact (mem_segmentsOf_of_empty hempty).mpr ⟨item, hitem, htouch', rfl⟩
        rw [haliases, hsome]
        exact List.mem_append_right _ (List.mem_singleton_self _)

/-- The loop over the ranges that are left. -/
theorem Progress.foldlM {rest : List Entry} (h : Progress body done state)
    (hordered : forall entry, entry ∈ done ++ rest -> entry.start ≤ entry.stop)
    (hfair : forall entry, entry ∈ rest -> FairName digest entry)
    (hreached : forall earlier source later, done ++ rest = earlier ++ source :: later ->
      source.start = source.stop ->
      (forall entry, entry ∈ body ++ earlier -> entry.sourceRangeId ≠ source.sourceRangeId) ∨
        exists entry, entry ∈ body ++ earlier ∧ Touches source entry) :
    exists state', rest.foldlM (Evidence.addView digest body) state = .ok state' ∧
      Progress body (done ++ rest) state' := by
  induction rest generalizing done state with
  | nil =>
      refine ⟨state, rfl, ?_⟩
      rw [List.append_nil]
      exact h
  | cons source rest ih =>
      have hsplit : done ++ source :: rest = done ++ [source] ++ rest := by
        rw [List.append_assoc]
        rfl
      rw [hsplit] at hordered hreached ⊢
      rcases @Progress.addView digest source body done state h
        (fun entry hmem => hordered entry (List.mem_append_left _ hmem))
        (hfair source List.mem_cons_self)
        (hreached done source rest hsplit.symm) with ⟨next, hstep, hnext⟩
      rcases ih hnext hordered (fun entry hmem => hfair entry (List.mem_cons_of_mem _ hmem))
        hreached with ⟨state', hrun, hprogress⟩
      refine ⟨state', ?_, hprogress⟩
      rw [List.foldlM_cons, ok_bind hstep]
      exact hrun

/-!
# Ranges that are lost
-/

/-- A range is neither in the view nor named by an alias. -/
structure Missing (lost : Entry) (state : ViewState) : Prop where
  selected : lost ∉ state.selected
  aliases : forall named, named ∈ state.aliases -> named.rangeId ≠ lost.rangeId

theorem piece_of_uncovered {occupied : List Entry} {piece : Entry}
    (huncovered : uncovered digest source occupied = .ok added) (hmem : piece ∈ added) :
    piece = source ∨ piece.start < piece.stop := by
  by_cases hempty : source.start = source.stop
  · rw [uncovered_of_empty hempty] at huncovered
    cases huncovered
    split at hmem
    · exact Or.inl (List.mem_singleton.mp hmem)
    · cases hmem
  · rw [uncovered_eq_pieces hempty] at huncovered
    cases huncovered
    rcases List.mem_map.mp hmem with ⟨g, hg, rfl⟩
    have hrange := Span.mem_gaps_range hg
    apply Or.inr
    have hspan := @span_pieceIn digest source g
    have hstart := congrArg Span.start hspan
    have hstop := congrArg Span.stop hspan
    simp only [Entry.span] at hstart hstop
    omega

theorem Missing.step {lost : Entry} (hlost : lost.start = lost.stop) (h : Missing lost state)
    (hview : Viewing body state source added state')
    (huncovered : uncovered digest source (body ++ state.selected) = .ok added)
    (hother : source.rangeId ≠ lost.rangeId) : Missing lost state' := by
  constructor
  · rw [hview.selected, List.mem_append]
    rintro (hold | hnew)
    · exact h.selected hold
    · rcases piece_of_uncovered huncovered hnew with rfl | hnonempty
      · exact hother rfl
      · omega
  · intro named hmem
    rw [hview.aliases] at hmem
    split at hmem
    · exact h.aliases named hmem
    · rcases List.mem_append.mp hmem with hold | hnew
      · exact h.aliases named hold
      · rcases List.mem_singleton.mp hnew with rfl
        exact hother

/-- Of every source that was asked for, something is supplied. -/
structure Sourced (body done : List Entry) (state : ViewState) : Prop where
  given : Given body done state.selected
  sourced : forall entry, entry ∈ body ++ done -> exists item, item ∈ body ++ state.selected ∧
    item.sourceRangeId = entry.sourceRangeId

theorem Sourced.start (hbody : Disjoint body) : Sourced body [] {} := by
  constructor
  · exact Given.start hbody
  · intro entry hmem
    rw [List.append_nil] at hmem
    exact ⟨entry, List.mem_append_left _ hmem, rfl⟩

theorem Sourced.step (h : Sourced body done state) (hle : source.start ≤ source.stop)
    (hview : Viewing body state source added state')
    (huncovered : uncovered digest source (body ++ state.selected) = .ok added) :
    Sourced body (done ++ [source]) state' := by
  have hnext := hview.given h.given
  have hkeep : forall item, item ∈ body ++ state.selected -> item ∈ body ++ state'.selected := by
    intro item hitem
    rcases List.mem_append.mp hitem with hbody | hselected
    · exact List.mem_append_left _ hbody
    · exact List.mem_append_right _ (hview.selected_subset hselected)
  constructor
  · exact hnext
  · intro entry hmem
    rw [← List.append_assoc] at hmem
    rcases List.mem_append.mp hmem with hold | hnew
    · rcases h.sourced entry hold with ⟨item, hitem, hsame⟩
      exact ⟨item, hkeep item hitem, hsame⟩
    · rcases List.mem_singleton.mp hnew with rfl
      by_cases hempty : entry.start = entry.stop
      · by_cases hsame : exists item, item ∈ body ++ state.selected ∧
            item.sourceRangeId = entry.sourceRangeId
        · rcases hsame with ⟨item, hitem, hsame⟩
          exact ⟨item, hkeep item hitem, hsame⟩
        · have hgiven := (hview.of_first hempty huncovered fun item hitem heq =>
            hsame ⟨item, hitem, heq⟩).2
          exact ⟨entry, List.mem_append_right _ hgiven, rfl⟩
      · have hin : entry.span.Contains entry.start :=
          ⟨Nat.le_refl _, by show entry.start < entry.stop; omega⟩
        rcases hnext.covered entry (List.mem_append_right _ (List.mem_singleton_self entry))
          entry.start hin with ⟨item, hitem, hsame, _⟩
        exact ⟨item, hitem, hsame⟩

/-- Other ranges, one after the other. -/
theorem Missing.foldlM {lost : Entry} (hlost : lost.start = lost.stop) {rest : List Entry}
    (hsourced : Sourced body done state) (h : Missing lost state)
    (hordered : forall entry, entry ∈ rest -> entry.start ≤ entry.stop)
    (hother : forall entry, entry ∈ rest -> entry.rangeId ≠ lost.rangeId) :
    exists state', rest.foldlM (Evidence.addView digest body) state = .ok state' ∧
      Sourced body (done ++ rest) state' ∧ Missing lost state' := by
  induction rest generalizing done state with
  | nil =>
      refine ⟨state, rfl, ?_, h⟩
      rw [List.append_nil]
      exact hsourced
  | cons source rest ih =>
      rcases @addView_viewing digest body done state hsourced.given source with
        ⟨added, next, huncovered, hstep, hview⟩
      have hmissing := h.step hlost hview huncovered (hother source List.mem_cons_self)
      have hnext := hsourced.step (hordered source List.mem_cons_self) hview huncovered
      rcases ih hnext hmissing (fun entry hmem => hordered entry (List.mem_cons_of_mem _ hmem))
        fun entry hmem => hother entry (List.mem_cons_of_mem _ hmem) with
        ⟨state', hrun, hsourced', hmissing'⟩
      refine ⟨state', ?_, ?_, hmissing'⟩
      · rw [List.foldlM_cons, ok_bind hstep]
        exact hrun
      · rw [List.append_assoc] at hsourced'
        exact hsourced'

/-- An empty range whose source is supplied, but not at its place, is lost. -/
theorem Missing.of_unreached {lost : Entry} (hlost : lost.start = lost.stop)
    (hsourced : Sourced body done state) (h : Missing lost state)
    (hsame : exists entry, entry ∈ body ++ done ∧ entry.sourceRangeId = lost.sourceRangeId)
    (hunreached : forall entry, entry ∈ body ++ done -> ¬ Touches lost entry) :
    exists state', Evidence.addView digest body state lost = .ok state' ∧
      Sourced body (done ++ [lost]) state' ∧ Missing lost state' := by
  rcases @addView_viewing digest body done state hsourced.given lost with
    ⟨added, next, huncovered, hstep, hview⟩
  refine ⟨next, hstep, hsourced.step (Nat.le_of_eq hlost) hview huncovered, ?_⟩
  rcases hsame with ⟨entry, hentry, hentrySame⟩
  rcases hsourced.sourced entry hentry with ⟨item, hitem, hitemSame⟩
  rcases hview.of_later hlost huncovered hitem (hitemSame.trans hentrySame) with
    ⟨hselected, haliases⟩
  have hnone : (segmentsOf lost (body ++ state.selected)).isEmpty = true := by
    rw [List.isEmpty_iff, List.eq_nil_iff_forall_not_mem]
    intro segment hmem
    rcases (mem_segmentsOf_of_empty hlost).mp hmem with ⟨reach, hreach, ⟨hsource, hlow, hhigh⟩, _⟩
    rcases sameSource_of_item hsourced.given hreach with ⟨whole, hwhole, hwholeSame, hstart, hstop⟩
    apply hunreached whole hwhole
    exact ⟨hwholeSame.trans hsource, Nat.le_trans hstart hlow, Nat.le_trans hhigh hstop⟩
  rw [hnone, if_pos rfl] at haliases
  constructor
  · rw [hselected]
    exact h.selected
  · rw [haliases]
    exact h.aliases

end

/-!
# Every cited character exactly once

When `select` and `source_view` supply every character once, and the inputs on
which they do not: a condition that the body already has as a plain range, and
an empty excerpt at a place that nothing supplied reaches.
-/

variable {digest : String -> String} {pack : Pack}

/-!
## The view
-/

theorem viewBody_disjoint (hfair : FairPack digest pack) : Disjoint (viewBody pack) := by
  constructor
  · intro entry hmem
    exact hfair.body.ordered entry (List.mem_filter.mp hmem).1
  · exact hfair.body.apart.filter _

theorem mem_viewSupporting {source : Entry} :
    source ∈ viewSupporting pack <-> source ∈ pack.supporting ∧
      source.rangeId ∉ hostReviewedRanges pack ∧ source.rangeId ∉ pack.body.map Entry.rangeId := by
  unfold viewSupporting
  rw [List.mem_filter, Bool.and_eq_true, Bool.not_eq_true', Bool.not_eq_true',
    List.contains_eq_mem, List.contains_eq_mem, decide_eq_false_iff_not, decide_eq_false_iff_not]

theorem viewSupporting_ordered (hfair : FairPack digest pack) {source : Entry}
    (hmem : source ∈ viewSupporting pack) : source.start ≤ source.stop :=
  hfair.ordered source (mem_viewSupporting.mp hmem).1

theorem viewsOnce_of_reached (hfair : FairPack digest pack) (hreached : EmptyRangesReached pack) :
    ViewsOnce digest pack := by
  have hstart : Progress (viewBody pack) [] {} := by
    constructor
    · exact Given.start (viewBody_disjoint hfair)
    · intro entry hmem
      cases hmem
    · intro entry hmem
      cases hmem
  rcases @Progress.foldlM digest (viewBody pack) [] {} (viewSupporting pack) hstart
    (fun entry hmem => viewSupporting_ordered hfair hmem)
    (fun entry hmem => hfair.named entry (mem_viewSupporting.mp hmem).1) hreached with
    ⟨state, hrun, hprogress⟩
  refine ⟨_, ok_bind hrun, hprogress.given.disjoint, ?_⟩
  intro source hmem hhost hbody
  exact hprogress.named source (mem_viewSupporting.mpr ⟨hmem, hhost, hbody⟩)

/-- A pack that is viewed as it should be has no empty range that is not reached. -/
theorem reached_of_viewsOnce (hfair : FairPack digest pack)
    (hunique : (pack.supporting.map Entry.rangeId).Nodup) (hview : ViewsOnce digest pack) :
    EmptyRangesReached pack := by
  intro earlier lost later hsplit hempty
  by_contra hneither
  rw [not_or] at hneither
  rcases hneither with ⟨hsame, hunreached⟩
  have hsame' : exists entry, entry ∈ viewBody pack ++ earlier ∧
      entry.sourceRangeId = lost.sourceRangeId := by
    by_contra hnone
    exact hsame fun entry hmem heq => hnone ⟨entry, hmem, heq⟩
  have hids : ((viewSupporting pack).map Entry.rangeId).Nodup :=
    hunique.sublist (List.filter_sublist.map _)
  rw [hsplit, List.map_append, List.map_cons, List.nodup_append, List.nodup_cons] at hids
  have hordered : forall entry, entry ∈ earlier ++ lost :: later -> entry.start ≤ entry.stop := by
    intro entry hmem
    rw [← hsplit] at hmem
    exact viewSupporting_ordered hfair hmem
  have hmissing : Missing lost {} := by
    constructor
    · intro hmem
      cases hmem
    · intro named hmem
      cases hmem
  -- The ranges before, the range itself and the ranges after it leave it out.
  rcases @Missing.foldlM digest (viewBody pack) [] {} lost hempty earlier
    (Sourced.start (viewBody_disjoint hfair)) hmissing
    (fun entry hmem => hordered entry (List.mem_append_left _ hmem))
    (fun entry hmem heq => hids.2.2 entry.rangeId (List.mem_map_of_mem hmem) lost.rangeId
      List.mem_cons_self heq) with ⟨first, hfirst, hsourced, hmissing⟩
  rw [List.nil_append] at hsourced
  rcases @Missing.of_unreached digest (viewBody pack) earlier first lost hempty hsourced hmissing
    hsame' (fun entry hmem htouch => hunreached ⟨entry, hmem, htouch⟩) with
    ⟨second, hsecond, hsourced, hmissing⟩
  rcases @Missing.foldlM digest (viewBody pack) (earlier ++ [lost]) second lost hempty later
    hsourced hmissing
    (fun entry hmem => hordered entry (List.mem_append_right _ (List.mem_cons_of_mem _ hmem)))
    (fun entry hmem heq => hids.2.1.1 (by rw [← heq]; exact List.mem_map_of_mem hmem)) with
    ⟨last, hlast, _, hmissing⟩
  have hrun : sourceView digest pack = .ok ⟨viewBody pack, last.selected,
      pack.body.filter isTemplateRow, last.aliases⟩ := by
    unfold sourceView
    rw [hsplit, List.foldlM_append, ok_bind hfirst, List.foldlM_cons, ok_bind hsecond,
      ok_bind hlast]
    rfl
  rcases hview with ⟨view, hview, _, hnamed⟩
  rw [hrun] at hview
  cases hview
  have hlost : lost ∈ viewSupporting pack := by
    rw [hsplit]
    exact List.mem_append_right _ List.mem_cons_self
  rcases mem_viewSupporting.mp hlost with ⟨hmem, hhost, hbody⟩
  rcases hnamed lost hmem hhost hbody with hselected | ⟨named, halias, hid, _⟩
  · exact hmissing.selected hselected
  · exact hmissing.aliases named halias hid

/-!
## Both
-/

/-- `select` supplies every character of a body and its context once exactly when
no condition is asked for that is a plain range of the context.  `source_view`
supplies every character of a pack once, with every range in it or an alias,
when every empty range is reached, and, for ranges with different identities,
only then. -/
theorem characters_are_supplied_once (digest : String -> String) :
    (forall (P : Patterns) (source : SourceIndex) (decisions : List ScopeDecision)
      (analysis : Bool) (index : SupportingIndex) (body : List Entry),
      SupportingIndex.build P digest source.ranges decisions analysis = .ok index ->
      Body source body ->
      exists demands, index.demandsOfBody body = .ok demands ∧
        (SelectsOnce digest index body <-> clashes [] demands = false)) ∧
    (forall pack, FairPack digest pack ->
      (EmptyRangesReached pack -> ViewsOnce digest pack) ∧
      ((pack.supporting.map Entry.rangeId).Nodup -> ViewsOnce digest pack ->
        EmptyRangesReached pack)) := by
  constructor
  · intro P source decisions analysis index body hbuild hbody
    exact selectsOnce_iff (build_sound hbuild) hbody
  · intro pack hfair
    exact ⟨viewsOnce_of_reached hfair, reached_of_viewsOnce hfair⟩

/-!
## A table whose header is a reviewed condition
-/

/-- Patterns that find nothing. -/
def quietPatterns : Patterns :=
  { navigation := fun _ => false, condition := fun _ => false, explicitSection := fun _ => false
    replacement := fun _ => false, scopeOnly := fun _ => false
    topicalCondition := fun _ => false, namedScope := fun _ => false
    scopeBackref := fun _ => false, scopeReference := fun _ => false
    listCondition := fun _ => false, priority := fun _ => false, applicability := fun _ => false
    formScopeLine := fun _ => false, localField := fun _ => false
    directNamedScope := fun _ => false, terminators := fun _ _ _ => []
    terminators_between := by
      intro text offset boundary stop hmem
      cases hmem
    terminators_sorted := fun _ _ _ => List.Pairwise.nil }

def tableRow (id : String) (place : Nat) (header : Bool) : Entry :=
  { rangeId := id, sourceRangeId := id, documentId := "tender", unitId := "table"
    kind := "table_row", text := ['限', '价'], start := 0, stop := 2
    row := some ⟨place, place + 1, 1, []⟩, tableId := some "table", header := header }

/-- A header and one row. -/
def priceTable : SourceIndex :=
  { documentId := "tender", documentVersion := "1"
    ranges := [tableRow "head" 0 true, tableRow "row" 1 false]
    distinct := by decide
    own := by decide
    ordered := by decide
    lengths := by decide
    unscoped := by decide }

theorem priceTable_body : Body priceTable priceTable.ranges := by
  constructor
  · intro entry hmem
    exact SourceIndex.has_of_mem hmem
  · constructor
    · exact priceTable.ordered
    · apply List.pairwise_pair.mpr
      intro hsame
      exact absurd hsame (by decide)

/-- The index of the table, for some decisions. -/
def priceIndex (conditions : List (String × Nat × Condition)) : SupportingIndex :=
  { ranges := priceTable.ranges, analysis := true, introductions := [], conditions := conditions
    issues := [], sections := [("unlocated", ⟨"", none⟩)] }

/-- The header of the table bound to its row. -/
def headerDecision : ScopeDecision := ⟨"head", true, ["row"]⟩

def headerCondition : Condition :=
  ⟨tableRow "head" 0 true, reviewedBinding (tableRow "head" 0 true) headerDecision⟩

/-- A part of a text, and an empty excerpt of it further on. -/
def excerptOf (id : String) (start stop : Nat) : Entry :=
  { rangeId := id, sourceRangeId := "text", documentId := "tender", unitId := "unit"
    kind := "section", text := List.replicate (stop - start) '文', start := start, stop := stop }

def farExcerpt : Pack :=
  { body := [excerptOf "front" 0 3], supporting := [excerptOf "place" 7 7] }

/-- The empty excerpt is where the body ends. -/
def nearExcerpt : Pack :=
  { body := [excerptOf "front" 0 3], supporting := [excerptOf "place" 3 3] }

theorem fairPack_of_one {body source : Entry} (hbody : body.start ≤ body.stop)
    (hsource : source.start ≤ source.stop)
    (hname : forall start stop,
      source.rangeId ≠ fragmentId (fun text => text) source.sourceRangeId start stop) :
    FairPack (fun text => text) ⟨[body], [source]⟩ := by
  constructor
  · constructor
    · intro entry hmem
      rcases List.mem_singleton.mp hmem with rfl
      exact hbody
    · exact List.pairwise_singleton ..
  · intro entry hmem
    rcases List.mem_singleton.mp hmem with rfl
    exact hsource
  · intro entry hmem start stop hid
    rcases List.mem_singleton.mp hmem with rfl
    exact absurd hid (hname start stop)

theorem place_ne_fragmentId (start stop : Nat) :
    "place" ≠ fragmentId (fun text => text) "text" start stop := by
  intro heq
  have hlist := congrArg String.toList heq
  rw [fragmentId, shortId, String.toList_append] at hlist
  have hhead := congrArg List.head? hlist
  simp at hhead

/-- Without decisions the table is given once, and an excerpt where the body ends
has an alias. -/
theorem plain_table_is_supplied_once :
    SelectsOnce (fun text => text) (priceIndex []) priceTable.ranges ∧
      ViewsOnce (fun text => text) nearExcerpt := by
  have hboth := characters_are_supplied_once fun text => text
  have hbuild : SupportingIndex.build quietPatterns (fun text => text) priceTable.ranges [] true =
      .ok (priceIndex []) := by
    rfl
  constructor
  · rcases hboth.1 quietPatterns priceTable [] true (priceIndex []) priceTable.ranges hbuild
      priceTable_body with ⟨demands, hdemands, hiff⟩
    apply hiff.mpr
    have hvalue : (priceIndex []).demandsOfBody priceTable.ranges =
        .ok [.give (tableRow "head" 0 true) .header, .give (tableRow "head" 0 true) .header] := by
      rfl
    rw [hvalue] at hdemands
    cases hdemands
    rfl
  · have hfair : FairPack (fun text => text) nearExcerpt :=
      fairPack_of_one (by decide) (by decide) place_ne_fragmentId
    apply (hboth.2 nearExcerpt hfair).1
    intro earlier source later hsplit _
    have hview : viewSupporting nearExcerpt = [excerptOf "place" 3 3] := by
      decide +kernel
    rw [hview] at hsplit
    cases earlier with
    | nil =>
        cases hsplit
        exact Or.inr ⟨excerptOf "front" 0 3, by decide +kernel, rfl, by decide, by decide⟩
    | cons entry rest =>
        simp at hsplit

/-- With the header bound to its row `select` stops with a missing key, and an
excerpt behind what is supplied of its source has no alias. -/
theorem bound_header_and_far_excerpt_fail :
    SupportingIndex.build quietPatterns (fun text => text) priceTable.ranges [headerDecision] true =
      .ok (priceIndex [("unlocated", 0, headerCondition)]) ∧
    Body priceTable priceTable.ranges ∧
    ¬ SelectsOnce (fun text => text) (priceIndex [("unlocated", 0, headerCondition)])
      priceTable.ranges ∧
    FairPack (fun text => text) farExcerpt ∧ ¬ ViewsOnce (fun text => text) farExcerpt := by
  refine ⟨rfl, priceTable_body, ?_,
    fairPack_of_one (by decide) (by decide) place_ne_fragmentId, ?_⟩
  · rintro ⟨selection, support, hvisit, _⟩
    have hfault : (priceIndex [("unlocated", 0, headerCondition)]).visitBody priceTable.ranges =
        .error .missingKey := by
      rfl
    rw [hfault] at hvisit
    cases hvisit
  · rintro ⟨view, hview, _, hnamed⟩
    have hempty : sourceView (fun text => text) farExcerpt =
        .ok ⟨[excerptOf "front" 0 3], [], [], []⟩ := by
      rfl
    rw [hempty] at hview
    cases hview
    rcases hnamed (excerptOf "place" 7 7) (by decide) (by decide) (by decide) with
      hselected | ⟨named, halias, _⟩
    · cases hselected
    · cases halias

end Evidence
end KnowledgeBrain
