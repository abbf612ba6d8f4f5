import KnowledgeBrain.Evidence.Aliases
import KnowledgeBrain.Evidence.Partition

/-!
# The finished plan

The links between fragments are set once all packs are known, and every pack is
measured again with them.  A request that does not show the links cannot have
changed.
-/

namespace KnowledgeBrain
namespace Evidence

open Foundation SupportingIndex

/-!
# Links
-/

def Selector.unlinked (item : Selector) : Selector :=
  { item with previousFragmentId := none, nextFragmentId := none }

def Entry.unlinked (entry : Entry) : Entry :=
  { entry with previousFragmentId := none, nextFragmentId := none }

def RenderedPack.unlinked (pack : RenderedPack) : RenderedPack :=
  { pack with body := pack.body.map Entry.unlinked }

section Fields

variable {item item' : Selector}

theorem rangeId_of_unlinked (h : item'.unlinked = item.unlinked) :
    item'.rangeId = item.rangeId := by
  show item'.unlinked.rangeId = item.unlinked.rangeId
  rw [h]

theorem source_of_unlinked (h : item'.unlinked = item.unlinked) :
    item'.sourceRangeId = item.sourceRangeId := by
  show item'.unlinked.sourceRangeId = item.unlinked.sourceRangeId
  rw [h]

theorem span_of_unlinked (h : item'.unlinked = item.unlinked) : item'.span = item.span := by
  show item'.unlinked.span = item.unlinked.span
  rw [h]

end Fields

namespace StructuralPlanner

variable {Payload : Type} {planner : StructuralPlanner Payload}

/-- The request does not depend on the links of the body. -/
def IgnoresLinks (planner : StructuralPlanner Payload) : Prop :=
  forall pack pack' : RenderedPack, pack.unlinked = pack'.unlinked ->
    planner.payload pack = planner.payload pack'

@[simp]
theorem linked_unlinked (before after : List Selector) (item : Selector) :
    (linked before after item).unlinked = item.unlinked := by
  unfold linked
  simp only
  split
  · rfl
  · rfl

theorem linkBody_unlinked (before after : List Selector) (items : List Selector) :
    (linkBody before after items).map Selector.unlinked = items.map Selector.unlinked := by
  induction items generalizing before with
  | nil =>
      rfl
  | cons item rest ih =>
      rw [linkBody, List.map_cons, List.map_cons, linked_unlinked, ih]

/-- A pack with other links. -/
structure Relinked (pack pack' : PlannedPack) : Prop where
  body : pack'.body.map Selector.unlinked = pack.body.map Selector.unlinked
  rest : pack' = { pack with body := pack'.body }

theorem linkPacks_relinked (before : List Selector) (packs : List PlannedPack) :
    List.Forall₂ Relinked packs (linkPacks before packs) := by
  induction packs generalizing before with
  | nil =>
      exact .nil
  | cons pack rest ih =>
      rw [linkPacks]
      apply List.Forall₂.cons
      · exact ⟨linkBody_unlinked before _ pack.body, rfl⟩
      · exact ih (before ++ pack.body)

/-- Links make no difference to what an entry is split into. -/
theorem Splits.relink {entry : Entry} {part part' : List Selector} (h : Splits entry part)
    (hsame : part'.map Selector.unlinked = part.map Selector.unlinked) : Splits entry part' := by
  have hspans : part'.map Selector.span = part.map Selector.span := by
    have := congrArg (List.map Selector.span) hsame
    rw [List.map_map, List.map_map] at this
    exact this
  have hlength : part'.length = part.length := by
    have := congrArg List.length hsame
    rw [List.length_map, List.length_map] at this
    exact this
  rcases h with ⟨item, rfl, hid, hsource, hspan⟩ | ⟨htwo, hsource, htiles⟩
  · rcases List.length_eq_one_iff.mp hlength with ⟨item', rfl⟩
    have hitem : item'.unlinked = item.unlinked := List.singleton_inj.mp hsame
    refine Or.inl ⟨item', rfl, ?_, ?_, ?_⟩
    · exact (rangeId_of_unlinked hitem).trans hid
    · exact (source_of_unlinked hitem).trans hsource
    · exact (span_of_unlinked hitem).trans hspan
  · refine Or.inr ⟨?_, ?_, ?_⟩
    · rw [hlength]
      exact htwo
    · intro item' hmem
      have hthere : item'.unlinked ∈ part.map Selector.unlinked := by
        rw [← hsame]
        exact List.mem_map_of_mem hmem
      rcases List.mem_map.mp hthere with ⟨item, hitem, heq⟩
      exact (source_of_unlinked heq).symm.trans (hsource item hitem)
    · rw [hspans]
      exact htiles

theorem Lists.relink {entries : List Entry} {body body' : List Selector} (h : Lists entries body)
    (hsame : body'.map Selector.unlinked = body.map Selector.unlinked) : Lists entries body' := by
  rcases h with ⟨parts, rfl, hparts⟩
  induction hparts generalizing body' with
  | nil =>
      rw [List.flatten_nil, List.map_nil, List.map_eq_nil_iff] at hsame
      rw [hsame]
      exact lists_nil
  | @cons entry part entries parts hfirst _ ih =>
      rw [List.flatten_cons, List.map_append, List.map_eq_append_iff] at hsame
      rcases hsame with ⟨part', others, rfl, hpart, hothers⟩
      have hone : Lists [entry] part' := by
        refine ⟨[part'], ?_, .cons (hfirst.relink hpart) .nil⟩
        rw [List.flatten_singleton]
      exact hone.append (ih hothers)

theorem placed_relink {source : SourceIndex} {item item' : Selector} (h : Placed source item)
    (hsame : item'.unlinked = item.unlinked) : Placed source item' := by
  have hstart : item'.start = item.start := congrArg Span.start (span_of_unlinked hsame)
  have hstop : item'.stop = item.stop := congrArg Span.stop (span_of_unlinked hsame)
  unfold Placed
  rw [source_of_unlinked hsame, hstart, hstop]
  exact h

variable {pack pack' : PlannedPack}

theorem Relinked.located (h : Relinked pack pack') (hlocated : Located planner pack) :
    Located planner pack' := by
  constructor
  · intro item' hmem
    have hthere : item'.unlinked ∈ pack.body.map Selector.unlinked := by
      rw [← h.body]
      exact List.mem_map_of_mem hmem
    rcases List.mem_map.mp hthere with ⟨item, hitem, heq⟩
    exact placed_relink (hlocated.body item hitem) heq.symm
  · rw [h.rest]
    exact hlocated.supporting

/-!
# The last measurement
-/

/-- Selectors that differ in their links are read as entries that differ in theirs. -/
theorem mapM_materialize_relink {source : SourceIndex} {items items' : List Selector}
    (hplaced : forall item, item ∈ items -> Placed source item)
    (hsame : items'.map Selector.unlinked = items.map Selector.unlinked) :
    exists entries entries', items.mapM source.materialize = .ok entries ∧
      items'.mapM source.materialize = .ok entries' ∧
      entries'.map Entry.unlinked = entries.map Entry.unlinked := by
  induction items generalizing items' with
  | nil =>
      rw [List.map_nil, List.map_eq_nil_iff] at hsame
      rw [hsame]
      exact ⟨[], [], rfl, rfl, rfl⟩
  | cons item rest ih =>
      rw [List.map_cons, List.map_eq_cons_iff] at hsame
      rcases hsame with ⟨item', rest', rfl, hitem, hrest⟩
      rcases hplaced item List.mem_cons_self with ⟨base, hbase, hsource, hrange⟩
      have hfirst := SourceIndex.materialize_of_mem hbase hsource hrange
      have hfirst' : source.materialize item' = .ok (rendered base item') := by
        have hstart : item'.start = item.start := congrArg Span.start (span_of_unlinked hitem)
        have hstop : item'.stop = item.stop := congrArg Span.stop (span_of_unlinked hitem)
        apply SourceIndex.materialize_of_mem hbase
        · exact (source_of_unlinked hitem).trans hsource
        · rw [hstart, hstop]
          exact hrange
      have hentry : (rendered base item').unlinked = (rendered base item).unlinked := by
        show rendered base item'.unlinked = rendered base item.unlinked
        rw [hitem]
      rcases ih (fun other hmem => hplaced other (List.mem_cons_of_mem item hmem)) hrest with
        ⟨entries, entries', hentries, hentries', hall⟩
      refine ⟨rendered base item :: entries, rendered base item' :: entries', ?_, ?_, ?_⟩
      · rw [List.mapM_cons, ok_bind hfirst, ok_bind hentries]
        rfl
      · rw [List.mapM_cons, ok_bind hfirst', ok_bind hentries']
        rfl
      · rw [List.map_cons, List.map_cons, hentry, hall]

theorem Relinked.render (h : Relinked pack pack') (hlocated : Located planner pack) :
    exists rendered rendered', planner.render pack = .ok rendered ∧
      planner.render pack' = .ok rendered' ∧ rendered'.unlinked = rendered.unlinked := by
  rcases mapM_materialize_relink hlocated.body h.body with
    ⟨body, body', hbody, hbody', hsame⟩
  rcases mapM_materialize hlocated.supporting with ⟨supporting, hsupporting⟩
  have hsupporting' : pack'.supporting.mapM planner.source.materialize = .ok supporting := by
    rw [h.rest]
    exact hsupporting
  unfold StructuralPlanner.render
  rw [ok_bind hbody, ok_bind hsupporting, ok_bind hbody', ok_bind hsupporting']
  refine ⟨_, _, rfl, rfl, ?_⟩
  rw [h.rest]
  simp only [RenderedPack.unlinked, hsame]

/-- A pack of the plan: its request was measured, and it fits or is reported. -/
structure Final (planner : StructuralPlanner Payload) (pack : PlannedPack) : Prop where
  located : Located planner pack
  measured : Measured planner pack
  settled : admitted pack = true ∨ planner.indivisible pack ∈ pack.issues

theorem finish_ends (hlocated : Located planner pack) (hsettled : Settled planner pack)
    (h : Relinked pack pack') :
    Ends (fun final => Final planner final ∧ final.body = pack'.body)
      (fun fault => fault = .finalLinksChanged ∧ ¬ IgnoresLinks planner)
      (planner.finish pack') := by
  rcases h.render hlocated with ⟨rendered, rendered', hrender, hrender', hsame⟩
  have hbudget : pack'.budget = pack.budget := by
    rw [h.rest]
  unfold StructuralPlanner.finish
  rw [ok_bind hrender']
  by_cases hchanged : admitted pack' = true ∧ (planner.measureOf rendered').fits = false
  · simp only [reject, hchanged, and_self, ↓reduceIte]
    refine ⟨rfl, ?_⟩
    intro hignores
    have hadmitted : admitted pack = true := by
      unfold admitted at *
      rw [← hbudget]
      exact hchanged.1
    rcases hsettled with ⟨_, measured, hmeasured, hpack⟩ | ⟨hfails, _⟩
    · rw [hrender, Except.ok.injEq] at hmeasured
      subst hmeasured
      -- The request with the links is the one that was measured to fit.
      have hpayload : planner.payload rendered' = planner.payload rendered := hignores _ _ hsame
      have hfits : (planner.measureOf rendered).fits = true := by
        rw [← hpack]
        exact hadmitted
      have hmeasure : planner.measureOf rendered' = planner.measureOf rendered := by
        unfold measureOf
        rw [hpayload]
      rw [← hmeasure, hchanged.2] at hfits
      cases hfits
    · rw [hadmitted] at hfails
      cases hfails
  · simp only
    rw [reject_bind hchanged]
    refine ⟨?_, rfl⟩
    have hlocated' := h.located hlocated
    constructor
    · exact ⟨hlocated'.body, hlocated'.supporting⟩
    · exact ⟨rendered', hrender', rfl⟩
    · rcases hsettled with ⟨hadmitted, _⟩ | ⟨_, hissue⟩
      · apply Or.inl
        show (planner.measureOf rendered').fits = true
        rw [← Bool.not_eq_false]
        intro hfails
        apply hchanged
        refine ⟨?_, hfails⟩
        unfold admitted at *
        rw [hbudget]
        exact hadmitted
      · apply Or.inr
        show planner.indivisible pack' ∈ pack'.issues
        rw [h.rest]
        exact hissue

theorem finishAll_ends {packs packs' : List PlannedPack}
    (hsettled : forall pack, pack ∈ packs -> Located planner pack ∧ Settled planner pack)
    (h : List.Forall₂ Relinked packs packs') :
    Ends (fun finals => (forall final, final ∈ finals -> Final planner final) ∧
        finals.flatMap PlannedPack.body = packs'.flatMap PlannedPack.body)
      (fun fault => fault = .finalLinksChanged ∧ ¬ IgnoresLinks planner)
      (packs'.mapM planner.finish) := by
  induction h with
  | nil =>
      rw [List.mapM_nil]
      refine ⟨?_, rfl⟩
      intro final hmem
      cases hmem
  | @cons pack pack' rest rest' hfirst _ ih =>
      have hpack := hsettled pack List.mem_cons_self
      rw [List.mapM_cons]
      apply Ends.bind (finish_ends hpack.1 hpack.2 hfirst)
      rintro final ⟨hfinal, hbody⟩
      apply Ends.bind (ih fun other hmem => hsettled other (List.mem_cons_of_mem pack hmem))
      rintro finals ⟨hfinals, hbodies⟩
      constructor
      · intro other hmem
        rcases List.mem_cons.mp hmem with rfl | hlater
        · exact hfinal
        · exact hfinals other hlater
      · rw [List.flatMap_cons, List.flatMap_cons, hbody, hbodies]

theorem unlinked_bodies {packs packs' : List PlannedPack} (h : List.Forall₂ Relinked packs packs') :
    (packs'.flatMap PlannedPack.body).map Selector.unlinked =
      (packs.flatMap PlannedPack.body).map Selector.unlinked := by
  induction h with
  | nil =>
      rfl
  | cons hfirst _ ih =>
      rw [List.flatMap_cons, List.flatMap_cons, List.map_append, List.map_append, hfirst.body, ih]

/-!
# `plan`
-/

/-- The plan of a document: its ranges in order, with their text, in packs that
were measured and fit or are reported. -/
structure Partitions (planner : StructuralPlanner Payload) (packs : List PlannedPack) : Prop where
  ranges : Lists planner.source.ranges (packs.flatMap PlannedPack.body)
  texts : forall pack, pack ∈ packs -> forall item, item ∈ pack.body ->
    exists base entry, base ∈ planner.source.ranges ∧ item.sourceRangeId = base.rangeId ∧
      planner.source.materialize item = .ok entry ∧
      entry.text = slice base.text (item.start - base.start) (item.stop - base.start)
  measured : forall pack, pack ∈ packs -> Measured planner pack
  settled : forall pack, pack ∈ packs ->
    pack.budget.fits = true ∨ planner.indivisible pack ∈ pack.issues

/-- Every plan ends.  It partitions the document, unless the index refuses a
body, or the last links change a request that shows them. -/
theorem plan_partitions (planner : StructuralPlanner Payload) {P : Patterns}
    {decisions : List ScopeDecision} {analysis : Bool}
    (hbuild : SupportingIndex.build P planner.digest planner.source.ranges decisions analysis =
      .ok planner.index) :
    Ends (Partitions planner)
      (fun fault => Refused planner fault ∨ (fault = .finalLinksChanged ∧ ¬ IgnoresLinks planner))
      planner.plan := by
  have hindex : SoundIndex planner.source planner.index := build_sound hbuild
  unfold plan
  apply Ends.bind
  · apply (chapters_ends hindex).mono (fun _ hgrows => hgrows)
    intro fault hrefused
    exact Or.inl hrefused
  · rintro state ⟨packs, hpacks, hsettled, hlists⟩
    have hstate : state.packs = packs := hpacks
    have hrelinked := linkPacks_relinked [] packs
    rw [hstate]
    apply (finishAll_ends hsettled hrelinked).mono
    · rintro finals ⟨hfinals, hbodies⟩
      constructor
      · rw [hbodies]
        exact hlists.relink (unlinked_bodies hrelinked)
      · intro final hmem item hitem
        rcases materialize_of_placed ((hfinals final hmem).located.body item hitem) with
          ⟨base, hbase, hsource, hrun⟩
        exact ⟨base, _, hbase, hsource, hrun, rfl⟩
      · intro final hmem
        exact (hfinals final hmem).measured
      · intro final hmem
        exact (hfinals final hmem).settled
    · intro fault hfault
      exact Or.inr hfault

/-!
# A paragraph that has to be divided
-/

def letterRange : Entry :=
  { rangeId := "letters", sourceRangeId := "letters", documentId := "tender", unitId := "p1"
    kind := "text", text := ['A', 'B', 'C', 'D'], start := 0, stop := 4 }

def blankRange : Entry :=
  { rangeId := "blank", sourceRangeId := "blank", documentId := "tender", unitId := "p2"
    kind := "text", text := [], start := 0, stop := 0, empty := true }

def letterSource : SourceIndex :=
  { documentId := "tender", documentVersion := "1"
    ranges := [letterRange, blankRange]
    distinct := by decide
    own := by decide
    ordered := by decide
    lengths := by decide
    unscoped := by decide }

/-- Requests of at most two characters fit. -/
def letterPlanner : StructuralPlanner Nat :=
  { source := letterSource
    index := { ranges := letterSource.ranges, analysis := false, introductions := []
               conditions := [], issues := [], sections := [("unlocated", ⟨"", none⟩)] }
    digest := fun identity => identity
    payload := fun pack => (pack.body.map fun entry => entry.text.length).foldl (fun n m => n + m) 0
    measure := fun characters => { fits := decide (characters ≤ 2), inputTokens := characters }
    version := "1"
    jsonSize := fun entry => entry.text.length
    sentenceEnds := fun _ => [] }

theorem letterPlanner_ignoresLinks : IgnoresLinks letterPlanner := by
  intro pack pack' hsame
  have hbodies : pack.body.map Entry.unlinked = pack'.body.map Entry.unlinked :=
    congrArg RenderedPack.body hsame
  have hlengths : forall entries : List Entry, entries.map (fun entry => entry.text.length) =
      (entries.map Entry.unlinked).map fun entry => entry.text.length := by
    intro entries
    rw [List.map_map]
    rfl
  show (pack.body.map fun entry => entry.text.length).foldl _ 0 =
    (pack'.body.map fun entry => entry.text.length).foldl _ 0
  rw [hlengths pack.body, hbodies, ← hlengths pack'.body]

theorem letters_are_partitioned :
    Ends (Partitions letterPlanner) (Refused letterPlanner) letterPlanner.plan := by
  have hbuild : SupportingIndex.build quietPatterns letterPlanner.digest letterPlanner.source.ranges
      [] false = .ok letterPlanner.index := rfl
  apply (plan_partitions letterPlanner hbuild).mono
  · intro packs hpacks
    exact hpacks
  · rintro fault (hrefused | ⟨_, hchanged⟩)
    · exact hrefused
    · exact absurd letterPlanner_ignoresLinks hchanged

end StructuralPlanner
end Evidence
end KnowledgeBrain
