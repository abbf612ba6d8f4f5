import KnowledgeBrain.Evidence.Support

/-!
# Every character once

What `_uncovered` gives of a candidate is apart from what is there and leaves
nothing of the candidate out.  The loops that give one candidate after the
other keep the entries of every source range apart.
-/

namespace KnowledgeBrain
namespace Evidence

open Foundation SupportingIndex

section

/-- Two entries do not share a character. -/
def ApartEntries (a b : Entry) : Prop :=
  a.sourceRangeId = b.sourceRangeId -> Span.Apart a.span b.span

theorem ApartEntries.symm {a b : Entry} (h : ApartEntries a b) : ApartEntries b a :=
  fun hsource => (h hsource.symm).symm

/-- A character of a source range is in one of the entries. -/
def Supplied (entries : List Entry) (sourceRangeId : String) (i : Nat) : Prop :=
  exists entry, entry ∈ entries ∧ entry.sourceRangeId = sourceRangeId ∧ entry.span.Contains i

theorem Supplied.mono {entries more : List Entry} (hsub : entries ⊆ more) {sourceRangeId : String}
    {i : Nat} (h : Supplied entries sourceRangeId i) : Supplied more sourceRangeId i := by
  rcases h with ⟨entry, hmem, hsource, hin⟩
  exact ⟨entry, hsub hmem, hsource, hin⟩

/-!
# One candidate
-/

/-- The pieces of a candidate that the occupied entries leave. -/
structure Cuts (candidate : Entry) (occupied pieces : List Entry) : Prop where
  source : forall piece, piece ∈ pieces -> piece.sourceRangeId = candidate.sourceRangeId
  range : forall piece, piece ∈ pieces ->
    candidate.start ≤ piece.start ∧ piece.start ≤ piece.stop ∧ piece.stop ≤ candidate.stop
  fresh : forall piece, piece ∈ pieces -> forall entry, entry ∈ occupied -> ApartEntries entry piece
  apart : pieces.Pairwise ApartEntries
  covered : forall i, candidate.span.Contains i ->
    Supplied (occupied ++ pieces) candidate.sourceRangeId i

variable {digest : String -> String} {candidate : Entry} {occupied : List Entry}

instance : Std.TransCmp compareStart where
  eq_swap := fun {a b} => @Std.OrientedCmp.eq_swap Nat compare _ a.start b.start
  isLE_trans := fun {a b c} => @Std.TransCmp.isLE_trans Nat compare _ a.start b.start c.start

/-- The spans that a candidate is cut against. -/
def occupiedSpans (candidate : Entry) (occupied : List Entry) : List Span :=
  (sortBy compareStart (sameSource candidate occupied)).map Entry.span

theorem mem_sameSource {entry : Entry} :
    entry ∈ sameSource candidate occupied <->
      entry ∈ occupied ∧ entry.sourceRangeId = candidate.sourceRangeId := by
  unfold sameSource
  rw [List.mem_filter, beq_iff_eq]

theorem mem_occupiedSpans {m : Span} :
    m ∈ occupiedSpans candidate occupied <->
      exists entry, entry ∈ occupied ∧ entry.sourceRangeId = candidate.sourceRangeId ∧
        entry.span = m := by
  unfold occupiedSpans
  rw [List.mem_map]
  constructor
  · rintro ⟨entry, hmem, hspan⟩
    rcases mem_sameSource.mp (mem_sortBy.mp hmem) with ⟨hoccupied, hsource⟩
    exact ⟨entry, hoccupied, hsource, hspan⟩
  · rintro ⟨entry, hoccupied, hsource, hspan⟩
    exact ⟨entry, mem_sortBy.mpr (mem_sameSource.mpr ⟨hoccupied, hsource⟩), hspan⟩

theorem pairwise_occupiedSpans (candidate : Entry) (occupied : List Entry) :
    (occupiedSpans candidate occupied).Pairwise fun m n => m.start ≤ n.start := by
  unfold occupiedSpans
  rw [List.pairwise_map]
  apply (pairwise_sortBy compareStart _).imp
  intro a b hle
  exact Nat.isLE_compare.mp hle

/-- The piece of a candidate in a gap. -/
def pieceIn (digest : String -> String) (candidate : Entry) (g : Span) : Entry :=
  if g = candidate.span then candidate else candidate.cut digest g.start g.stop

theorem span_pieceIn (g : Span) : (pieceIn digest candidate g).span = g := by
  unfold pieceIn
  split
  · rename_i heq
    exact heq.symm
  · rfl

theorem source_pieceIn (g : Span) :
    (pieceIn digest candidate g).sourceRangeId = candidate.sourceRangeId := by
  unfold pieceIn
  split
  · rfl
  · rfl

/-- The pieces of a candidate with characters. -/
def pieces (digest : String -> String) (candidate : Entry) (occupied : List Entry) : List Entry :=
  (Span.gaps candidate.stop candidate.start (occupiedSpans candidate occupied)).map
    (pieceIn digest candidate)

theorem uncovered_eq_pieces (hne : candidate.start ≠ candidate.stop) :
    uncovered digest candidate occupied = .ok (pieces digest candidate occupied) := by
  unfold uncovered
  rw [if_neg hne]
  apply mapM_of_ok
  intro g hmem
  have hrange := Span.mem_gaps_range hmem
  unfold pieceOf pieceIn
  split
  · rfl
  · exact fragment_eq_ok digest ⟨hrange.1, Nat.le_of_lt hrange.2.1, hrange.2.2⟩

theorem pieces_cut (hordered : forall entry, entry ∈ occupied -> entry.start ≤ entry.stop) :
    Cuts candidate occupied (pieces digest candidate occupied) := by
  have hgap : forall piece, piece ∈ pieces digest candidate occupied ->
      piece.span ∈ Span.gaps candidate.stop candidate.start (occupiedSpans candidate occupied) := by
    intro piece hmem
    rcases List.mem_map.mp hmem with ⟨g, hg, rfl⟩
    rw [span_pieceIn]
    exact hg
  have hsource : forall piece, piece ∈ pieces digest candidate occupied ->
      piece.sourceRangeId = candidate.sourceRangeId := by
    intro piece hmem
    rcases List.mem_map.mp hmem with ⟨g, _, rfl⟩
    exact source_pieceIn g
  constructor
  · exact hsource
  · intro piece hmem
    have hrange := Span.mem_gaps_range (hgap piece hmem)
    exact ⟨hrange.1, Nat.le_of_lt hrange.2.1, hrange.2.2⟩
  · intro piece hmem entry hoccupied hsame
    apply Span.Apart.symm
    apply Span.apart_of_mem_gaps (pairwise_occupiedSpans candidate occupied) (hgap piece hmem)
    exact mem_occupiedSpans.mpr ⟨entry, hoccupied, hsame.trans (hsource piece hmem), rfl⟩
  · unfold pieces
    rw [List.pairwise_map]
    have hspans : forall m, m ∈ occupiedSpans candidate occupied -> m.start ≤ m.stop := by
      intro m hmem
      rcases mem_occupiedSpans.mp hmem with ⟨entry, hoccupied, _, rfl⟩
      exact hordered entry hoccupied
    apply (Span.pairwise_gaps hspans).imp
    intro g g' hapart _
    rw [span_pieceIn, span_pieceIn]
    exact hapart
  · intro i hin
    rcases @Span.contains_or_gaps candidate.stop candidate.start
      (occupiedSpans candidate occupied) i hin.1 hin.2 with ⟨m, hmem, hm⟩ | ⟨g, hmem, hg⟩
    · rcases mem_occupiedSpans.mp hmem with ⟨entry, hoccupied, hsame, rfl⟩
      exact ⟨entry, List.mem_append_left _ hoccupied, hsame, hm⟩
    · refine ⟨pieceIn digest candidate g, ?_, source_pieceIn g, ?_⟩
      · exact List.mem_append_right _ (List.mem_map_of_mem hmem)
      · rw [span_pieceIn]
        exact hg

theorem cuts_nil_of_empty (hnone : forall i, ¬ candidate.span.Contains i) :
    Cuts candidate occupied [] := by
  constructor
  · intro piece hmem
    cases hmem
  · intro piece hmem
    cases hmem
  · intro piece hmem
    cases hmem
  · exact List.Pairwise.nil
  · intro i hin
    exact absurd hin (hnone i)

theorem cuts_self_of_empty (hempty : candidate.start = candidate.stop)
    (hnone : forall i, ¬ candidate.span.Contains i) : Cuts candidate occupied [candidate] := by
  constructor
  · intro piece hmem
    rcases List.mem_singleton.mp hmem with rfl
    rfl
  · intro piece hmem
    rcases List.mem_singleton.mp hmem with rfl
    exact ⟨Nat.le_refl _, Nat.le_of_eq hempty, Nat.le_refl _⟩
  · intro piece hmem entry _ _ i _ hin
    rcases List.mem_singleton.mp hmem with rfl
    exact hnone i hin
  · exact List.pairwise_singleton ..
  · intro i hin
    exact absurd hin (hnone i)

theorem uncovered_of_empty (hempty : candidate.start = candidate.stop) :
    uncovered digest candidate occupied =
      .ok (if (sameSource candidate occupied).isEmpty then [candidate] else []) :=
  if_pos hempty

theorem uncovered_cuts (hordered : forall entry, entry ∈ occupied -> entry.start ≤ entry.stop) :
    exists pieces, uncovered digest candidate occupied = .ok pieces ∧
      Cuts candidate occupied pieces := by
  by_cases hempty : candidate.start = candidate.stop
  · have hnone : forall i, ¬ candidate.span.Contains i := by
      rintro i ⟨hlow, hhigh⟩
      have hlow' : candidate.start ≤ i := hlow
      have hhigh' : i < candidate.stop := hhigh
      omega
    rw [uncovered_of_empty hempty]
    cases (sameSource candidate occupied).isEmpty with
    | true =>
        exact ⟨[candidate], rfl, cuts_self_of_empty hempty hnone⟩
    | false =>
        exact ⟨[], rfl, cuts_nil_of_empty hnone⟩
  · exact ⟨_, uncovered_eq_pieces hempty, pieces_cut hordered⟩

/-!
# One candidate after the other
-/

/-- Entries of which no two share a character. -/
structure Disjoint (entries : List Entry) : Prop where
  ordered : forall entry, entry ∈ entries -> entry.start ≤ entry.stop
  apart : entries.Pairwise ApartEntries

theorem Disjoint.append {entries pieces : List Entry} (h : Disjoint entries)
    (hcuts : Cuts candidate entries pieces) : Disjoint (entries ++ pieces) := by
  constructor
  · intro entry hmem
    rcases List.mem_append.mp hmem with hold | hnew
    · exact h.ordered entry hold
    · exact (hcuts.range entry hnew).2.1
  · rw [List.pairwise_append]
    exact ⟨h.apart, hcuts.apart, fun entry hold piece hnew => hcuts.fresh piece hnew entry hold⟩

/-- What is known once some values have been given on top of a body. -/
structure Given (body values selected : List Entry) : Prop where
  disjoint : Disjoint (body ++ selected)
  parts : forall piece, piece ∈ selected -> exists value, value ∈ values ∧
    piece.sourceRangeId = value.sourceRangeId ∧
    value.start ≤ piece.start ∧ piece.start ≤ piece.stop ∧ piece.stop ≤ value.stop
  covered : forall value, value ∈ values -> forall i, value.span.Contains i ->
    Supplied (body ++ selected) value.sourceRangeId i

/-- One value of the context. -/
theorem Given.addSupport {body values selected : List Entry} (h : Given body values selected)
    (value : Entry) : exists selected', addSupport digest body selected value = .ok selected' ∧
      Given body (values ++ [value]) selected' := by
  rcases @uncovered_cuts digest value (body ++ selected) h.disjoint.ordered with
    ⟨pieces, huncovered, hcuts⟩
  refine ⟨selected ++ pieces, ok_bind huncovered, ?_⟩
  constructor
  · rw [← List.append_assoc]
    exact h.disjoint.append hcuts
  · intro piece hmem
    rcases List.mem_append.mp hmem with hold | hnew
    · rcases h.parts piece hold with ⟨earlier, hearlier, hpart⟩
      exact ⟨earlier, List.mem_append_left _ hearlier, hpart⟩
    · exact ⟨value, List.mem_append_right _ (List.mem_singleton_self value),
        hcuts.source piece hnew, hcuts.range piece hnew⟩
  · intro earlier hmem i hin
    rw [← List.append_assoc]
    rcases List.mem_append.mp hmem with hold | hnew
    · exact (h.covered earlier hold i hin).mono (List.subset_append_left _ _)
    · rw [List.mem_singleton] at hnew
      subst hnew
      exact hcuts.covered i hin

theorem Given.foldlM {body : List Entry} (values : List Entry) {before selected : List Entry}
    (h : Given body before selected) :
    exists selected',
      values.foldlM (SupportingIndex.addSupport digest body) selected = .ok selected' ∧
      Given body (before ++ values) selected' := by
  induction values generalizing before selected with
  | nil =>
      refine ⟨selected, rfl, ?_⟩
      rw [List.append_nil]
      exact h
  | cons value values ih =>
      rcases h.addSupport value with ⟨next, hstep, hnext⟩
      rcases ih hnext with ⟨selected', hrun, hgiven⟩
      refine ⟨selected', ?_, ?_⟩
      · rw [List.foldlM_cons, ok_bind hstep]
        exact hrun
      · rw [List.append_assoc] at hgiven
        exact hgiven

theorem Given.start {body : List Entry} (h : Disjoint body) : Given body [] [] := by
  constructor
  · rw [List.append_nil]
    exact h
  · intro piece hmem
    cases hmem
  · intro value hmem
    cases hmem

end

/-!
# The view that is sent

A pack may hold excerpts that overlap its body and each other.  The view gives
every character once and keeps the identity of an excerpt as an alias of the
pieces that have its characters.
-/

structure Pack where
  body : List Entry
  supporting : List Entry

/-- A range that was found to say nothing. -/
def isHostReviewed (source : Entry) : Bool :=
  source.empty && isBlankText source.text &&
    (decide (source.nonRequirementReason = some .blankPage) ||
      (decide (source.nonRequirementReason = some .reviewedDecorativeImage) &&
        source.imageDisposition.any fun review =>
          review.status == "reviewed" && review.classification == "decorative"))

/-- `host_reviewed_ranges`. -/
def hostReviewedRanges (pack : Pack) : List String :=
  ((pack.body ++ pack.supporting).filter isHostReviewed).map Entry.rangeId

/-- A cell that is more than a blank field. -/
def isFilledCell (cell : Cell) : Bool :=
  !isBlankText cell.text || cell.formula.any (fun formula => !formula.isEmpty) ||
    cell.imageAnchor.isSome || decide (1 < cell.rowSpan)

/-- `_template_row`. -/
def isTemplateRow (source : Entry) : Bool :=
  source.empty && decide (source.nonRequirementReason = some .emptyTableRow) &&
    isBlankText source.text && source.imageUnitIds.isEmpty &&
    source.tableId.any (fun id => !id.isEmpty) &&
    source.row.any fun row => !row.cells.any isFilledCell

/-- The body without what is only named. -/
def viewBody (pack : Pack) : List Entry :=
  pack.body.filter fun source =>
    !(hostReviewedRanges pack).contains source.rangeId &&
      !((pack.body.filter isTemplateRow).map Entry.rangeId).contains source.rangeId

/-- The support that is neither only named nor part of the body. -/
def viewSupporting (pack : Pack) : List Entry :=
  pack.supporting.filter fun source =>
    !(hostReviewedRanges pack).contains source.rangeId &&
      !(pack.body.map Entry.rangeId).contains source.rangeId

structure SourceSegment where
  rangeId : String
  start : Nat
  stop : Nat
deriving DecidableEq

def SourceSegment.span (segment : SourceSegment) : Span :=
  ⟨segment.start, segment.stop⟩

structure SourceAlias where
  rangeId : String
  segments : List SourceSegment
deriving DecidableEq

/-- The part of an item that a range shares with it; an empty range shares the
place it is at. -/
def segmentIn (source item : Entry) : Option SourceSegment :=
  let shared := Span.clip source.span item.span
  if shared.start < shared.stop ∨ (source.start = source.stop ∧ shared.start = shared.stop) then
    some ⟨item.rangeId, shared.start, shared.stop⟩
  else none

def segmentsOf (source : Entry) (items : List Entry) : List SourceSegment :=
  (sameSource source (sortBy compareStart items)).filterMap (segmentIn source)

structure ViewState where
  selected : List Entry := []
  aliases : List SourceAlias := []

/-- `len(pieces) == 1 and pieces[0]["range_id"] == source["range_id"]`. -/
def isWhole (source : Entry) : List Entry -> Bool
  | [piece] => piece.rangeId == source.rangeId
  | _ => false

def addView (digest : String -> String) (body : List Entry) (state : ViewState) (source : Entry) :
    Except Fault ViewState := do
  let pieces <- uncovered digest source (body ++ state.selected)
  let selected := state.selected ++ pieces
  let segments := segmentsOf source (body ++ selected)
  return {
    selected := selected
    aliases := if isWhole source pieces || segments.isEmpty then state.aliases
      else state.aliases ++ [⟨source.rangeId, segments⟩] }

structure SourceView where
  body : List Entry
  supporting : List Entry
  templates : List Entry
  aliases : List SourceAlias

/-- The part of `source_view` that decides what is supplied. -/
def sourceView (digest : String -> String) (pack : Pack) : Except Fault SourceView := do
  let state <- (viewSupporting pack).foldlM (addView digest (viewBody pack)) {}
  return {
    body := viewBody pack
    supporting := state.selected
    templates := pack.body.filter isTemplateRow
    aliases := state.aliases }

/-!
# What the view is for
-/

/-- The segments follow each other over the interval of a range; for an empty
range each is at its place. -/
def TilesRange (source : Entry) (segments : List SourceSegment) : Prop :=
  if source.start < source.stop then
    Span.Tiles source.start source.stop (segments.map SourceSegment.span)
  else segments ≠ [] ∧ forall segment, segment ∈ segments -> segment.span = source.span

/-- Every character once, and every range by itself or by an alias. -/
def ViewsOnce (digest : String -> String) (pack : Pack) : Prop :=
  exists view, sourceView digest pack = .ok view ∧ Disjoint (view.body ++ view.supporting) ∧
    forall source, source ∈ pack.supporting -> source.rangeId ∉ hostReviewedRanges pack ->
      source.rangeId ∉ pack.body.map Entry.rangeId ->
      source ∈ view.supporting ∨ exists named, named ∈ view.aliases ∧
        named.rangeId = source.rangeId ∧ TilesRange source named.segments

/-- A pack whose body does not overlap itself.  The digest that a fragment is
named by is not the name of a range with another interval. -/
structure FairPack (digest : String -> String) (pack : Pack) : Prop where
  body : Disjoint pack.body
  ordered : forall source, source ∈ pack.supporting -> source.start ≤ source.stop
  named : forall source, source ∈ pack.supporting -> forall start stop,
    source.rangeId = fragmentId digest source.sourceRangeId start stop ->
      start = source.start ∧ stop = source.stop

/-- An entry of the same range reaches the place of an empty range. -/
def Touches (source entry : Entry) : Prop :=
  entry.sourceRangeId = source.sourceRangeId ∧ entry.start ≤ source.start ∧
    source.start ≤ entry.stop

/-- Every empty range of the support is the first of its source, or stands where
the body or an earlier range reaches. -/
def EmptyRangesReached (pack : Pack) : Prop :=
  forall earlier source later, viewSupporting pack = earlier ++ source :: later ->
    source.start = source.stop ->
    (forall entry, entry ∈ viewBody pack ++ earlier ->
      entry.sourceRangeId ≠ source.sourceRangeId) ∨
    exists entry, entry ∈ viewBody pack ++ earlier ∧ Touches source entry

end Evidence
end KnowledgeBrain
