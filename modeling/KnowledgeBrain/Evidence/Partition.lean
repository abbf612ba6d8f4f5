import KnowledgeBrain.Evidence.Planner
import KnowledgeBrain.Evidence.Selection

/-!
# What the planner does with a document

Whatever the budget says, the packs have every range of the source once and in
order, whole or in fragments that follow each other.  A pack is there because
its request fits or because it cannot be divided any more.
-/

namespace KnowledgeBrain
namespace Evidence

open Foundation SupportingIndex

namespace StructuralPlanner

variable {Payload : Type} {planner : StructuralPlanner Payload}

/-!
# Candidates
-/

/-- A selector names a part of a range of the source. -/
def Placed (source : SourceIndex) (item : Selector) : Prop :=
  exists base, base ∈ source.ranges ∧ item.sourceRangeId = base.rangeId ∧
    base.start ≤ item.start ∧ item.start ≤ item.stop ∧ item.stop ≤ base.stop

theorem placed_selector {source : SourceIndex} {entry : Entry} (h : source.Has entry) :
    Placed source (selector entry) :=
  h

theorem materialize_of_placed {source : SourceIndex} {item : Selector} (h : Placed source item) :
    exists base, base ∈ source.ranges ∧ item.sourceRangeId = base.rangeId ∧
      source.materialize item = .ok (rendered base item) := by
  rcases h with ⟨base, hbase, hsource, hrange⟩
  exact ⟨base, hbase, hsource, SourceIndex.materialize_of_mem hbase hsource hrange⟩

theorem mapM_materialize {source : SourceIndex} {items : List Selector}
    (h : forall item, item ∈ items -> Placed source item) :
    exists entries, items.mapM source.materialize = .ok entries := by
  induction items with
  | nil =>
      exact ⟨[], rfl⟩
  | cons item rest ih =>
      rcases materialize_of_placed (h item List.mem_cons_self) with ⟨base, _, _, hfirst⟩
      rcases ih fun other hmem => h other (List.mem_cons_of_mem item hmem) with ⟨entries, hrest⟩
      refine ⟨rendered base item :: entries, ?_⟩
      rw [List.mapM_cons, ok_bind hfirst, ok_bind hrest]
      rfl

/-- All that a pack refers to is in the source. -/
structure Located (planner : StructuralPlanner Payload) (pack : PlannedPack) : Prop where
  body : forall item, item ∈ pack.body -> Placed planner.source item
  supporting : forall item, item ∈ pack.supporting -> Placed planner.source item

theorem Located.render {pack : PlannedPack} (h : Located planner pack) :
    exists rendered, planner.render pack = .ok rendered := by
  rcases mapM_materialize h.body with ⟨body, hbody⟩
  rcases mapM_materialize h.supporting with ⟨supporting, hsupporting⟩
  unfold StructuralPlanner.render
  rw [ok_bind hbody, ok_bind hsupporting]
  exact ⟨_, rfl⟩

/-- The budget of a pack is what its complete request measures. -/
def Measured (planner : StructuralPlanner Payload) (pack : PlannedPack) : Prop :=
  exists rendered, planner.render pack = .ok rendered ∧ pack.budget = planner.measureOf rendered

/-- A pack that was measured for a body. -/
structure Candidate (planner : StructuralPlanner Payload) (body : List Entry) (pack : PlannedPack) :
    Prop where
  body : pack.body = body.map selector
  located : Located planner pack
  measured : Measured planner pack

/-- The error of a selection that the index refuses. -/
def Refused (planner : StructuralPlanner Payload) (fault : Fault) : Prop :=
  fault = .missingKey ∧ exists body, Body planner.source body ∧
    planner.index.select planner.digest body = .error .missingKey

/-- A body of the source is refused, or has a support that is in the source. -/
theorem select_ends (hindex : SoundIndex planner.source planner.index) {body : List Entry}
    (hbody : Body planner.source body) :
    Ends (fun support => forall entry, entry ∈ support.supporting -> planner.source.Has entry)
      (Refused planner) (planner.index.select planner.digest body) := by
  rcases (met_start planner.source).visitBody hindex hbody.has with ⟨demands, _, hbad, hgood⟩
  cases hclash : clashes [] demands.flatten with
  | true =>
      have hselect : planner.index.select planner.digest body = .error .missingKey := by
        unfold select visitBody
        rw [hbad hclash]
        rfl
      rw [hselect]
      exact ⟨rfl, body, hbody, hselect⟩
  | false =>
      rcases hgood hclash with ⟨selection, hvisit, hmet⟩
      rcases @select_of_visitBody planner.index planner.digest body selection hbody.disjoint hvisit
        with ⟨support, hselect, hgiven⟩
      rw [hselect]
      intro entry hmem
      rcases hgiven.parts entry hmem with ⟨value, hvalue, hsource, hstart, hle, hstop⟩
      rcases hmet.has value (mem_arranged.mp hvalue) with ⟨base, hbase, hown, hlow, _, hhigh⟩
      exact ⟨base, hbase, hsource.trans hown, Nat.le_trans hlow hstart, hle,
        Nat.le_trans hstop hhigh⟩

theorem packOf_located {body : List Entry} {reason : BoundaryReason} {support : Support}
    {budget : Measurement} (hbody : Body planner.source body)
    (hsupport : forall entry, entry ∈ support.supporting -> planner.source.Has entry) :
    Located planner (planner.packOf body reason support budget) := by
  constructor
  · intro item hmem
    rcases List.mem_map.mp hmem with ⟨entry, hentry, rfl⟩
    exact placed_selector (hbody.has entry hentry)
  · intro item hmem
    rcases List.mem_map.mp hmem with ⟨entry, hentry, rfl⟩
    exact placed_selector (hsupport entry hentry)

theorem candidate_ends (hindex : SoundIndex planner.source planner.index) {body : List Entry}
    (hbody : Body planner.source body) (reason : BoundaryReason) (state : PlanState) :
    Ends (fun result => Candidate planner body result.1 ∧ result.2.packs = state.packs)
      (Refused planner) (planner.candidate body reason state) := by
  unfold StructuralPlanner.candidate
  apply Ends.bind (select_ends hindex hbody)
  intro support hsupport
  rcases (@packOf_located _ planner body reason support ⟨false, 0, 0, none, 0, 0⟩ hbody
    hsupport).render with ⟨rendered, hrender⟩
  rw [ok_bind hrender]
  apply Ends.ok
  constructor
  · constructor
    · rfl
    · exact packOf_located hbody hsupport
    · exact ⟨rendered, hrender, rfl⟩
  · rfl

/-!
# Bodies
-/

theorem Body.sublist {source : SourceIndex} {entries body : List Entry} (h : Body source body)
    (hsub : entries.Sublist body) : Body source entries := by
  constructor
  · intro entry hmem
    exact h.has entry (hsub.subset hmem)
  · constructor
    · intro entry hmem
      exact h.disjoint.ordered entry (hsub.subset hmem)
    · exact h.disjoint.apart.sublist hsub

theorem body_singleton {source : SourceIndex} {entry : Entry} (h : source.Has entry) :
    Body source [entry] := by
  rcases h with ⟨base, hbase, hsource, hrange⟩
  constructor
  · intro other hmem
    rcases List.mem_singleton.mp hmem with rfl
    exact ⟨base, hbase, hsource, hrange⟩
  · constructor
    · intro other hmem
      rcases List.mem_singleton.mp hmem with rfl
      exact hrange.2.1
    · exact List.pairwise_singleton ..

theorem body_ranges (source : SourceIndex) : Body source source.ranges := by
  constructor
  · intro entry hmem
    exact SourceIndex.has_of_mem hmem
  · constructor
    · exact source.ordered
    · have hdistinct := source.distinct
      rw [List.Nodup, List.pairwise_map] at hdistinct
      apply hdistinct.imp_of_mem
      intro a b ha hb hne hsame
      rw [source.own a ha, source.own b hb] at hsame
      exact absurd hsame hne

/-!
# What a step adds
-/

/-- An entry as a body has it: whole, or in fragments that tile it. -/
def Splits (entry : Entry) (part : List Selector) : Prop :=
  (exists item, part = [item] ∧ item.rangeId = entry.rangeId ∧
    item.sourceRangeId = entry.sourceRangeId ∧ item.span = entry.span) ∨
  (2 ≤ part.length ∧ (forall item, item ∈ part -> item.sourceRangeId = entry.sourceRangeId) ∧
    Span.Tiles entry.start entry.stop (part.map Selector.span))

/-- A body has the entries one after the other. -/
def Lists (entries : List Entry) (body : List Selector) : Prop :=
  exists parts, body = parts.flatten ∧ List.Forall₂ Splits entries parts

/-- A pack was taken because it fits, or it is reported. -/
def Settled (planner : StructuralPlanner Payload) (pack : PlannedPack) : Prop :=
  (admitted pack = true ∧ Measured planner pack) ∨
    (admitted pack = false ∧ planner.indivisible pack ∈ pack.issues)

/-- The packs that a step has added have its entries. -/
def Grows (planner : StructuralPlanner Payload) (entries : List Entry) (state state' : PlanState) :
    Prop :=
  exists packs, state'.packs = state.packs ++ packs ∧
    (forall pack, pack ∈ packs -> Located planner pack ∧ Settled planner pack) ∧
    Lists entries (packs.flatMap PlannedPack.body)

theorem lists_nil : Lists [] [] :=
  ⟨[], rfl, .nil⟩

theorem Lists.append {first second : List Entry} {body more : List Selector}
    (hfirst : Lists first body) (hsecond : Lists second more) :
    Lists (first ++ second) (body ++ more) := by
  rcases hfirst with ⟨parts, rfl, hparts⟩
  rcases hsecond with ⟨others, rfl, hothers⟩
  refine ⟨parts ++ others, List.flatten_append.symm, ?_⟩
  exact List.rel_append hparts hothers

theorem splits_selector (entry : Entry) : Splits entry [selector entry] :=
  Or.inl ⟨selector entry, rfl, rfl, rfl, rfl⟩

theorem lists_selectors (entries : List Entry) : Lists entries (entries.map selector) := by
  refine ⟨entries.map fun entry => [selector entry], ?_, ?_⟩
  · induction entries with
    | nil =>
        rfl
    | cons entry rest ih =>
        rw [List.map_cons, List.map_cons, List.flatten_cons, ih]
        rfl
  · induction entries with
    | nil =>
        exact .nil
    | cons entry rest ih =>
        exact .cons (splits_selector entry) ih

theorem Grows.refl (state : PlanState) : Grows planner [] state state := by
  refine ⟨[], ?_, ?_, lists_nil⟩
  · rw [List.append_nil]
  · intro pack hmem
    cases hmem

theorem Grows.trans {first second : List Entry} {state middle state' : PlanState}
    (hfirst : Grows planner first state middle) (hsecond : Grows planner second middle state') :
    Grows planner (first ++ second) state state' := by
  rcases hfirst with ⟨packs, hpacks, hsettled, hlists⟩
  rcases hsecond with ⟨others, hothers, hsettled', hlists'⟩
  refine ⟨packs ++ others, ?_, ?_, ?_⟩
  · rw [hothers, hpacks, List.append_assoc]
  · intro pack hmem
    rcases List.mem_append.mp hmem with hold | hnew
    · exact hsettled pack hold
    · exact hsettled' pack hnew
  · rw [List.flatMap_append]
    exact hlists.append hlists'

theorem Grows.of_pack {body : List Entry} {pack : PlannedPack} {state state' : PlanState}
    (hbody : pack.body = body.map selector) (hlocated : Located planner pack)
    (hsettled : Settled planner pack) (hstate : state'.packs = state.packs ++ [pack]) :
    Grows planner body state state' := by
  refine ⟨[pack], hstate, ?_, ?_⟩
  · intro other hmem
    rcases List.mem_singleton.mp hmem with rfl
    exact ⟨hlocated, hsettled⟩
  · rw [List.flatMap_cons, List.flatMap_nil, List.append_nil, hbody]
    exact lists_selectors body

theorem Grows.of_packs_eq {entries : List Entry} {state middle state' : PlanState}
    (hgrows : Grows planner entries middle state') (hsame : middle.packs = state.packs) :
    Grows planner entries state state' := by
  unfold Grows at *
  rw [← hsame]
  exact hgrows

theorem grows_blocked {body : List Entry} {rejected : PlannedPack} {state : PlanState}
    (hcandidate : Candidate planner body rejected) (hfails : admitted rejected = false) :
    Grows planner body state (planner.blocked rejected state) := by
  apply @Grows.of_pack _ planner body (planner.blockedPack rejected)
  · exact hcandidate.body
  · exact ⟨hcandidate.located.body, hcandidate.located.supporting⟩
  · apply Or.inr
    refine ⟨hfails, ?_⟩
    exact List.mem_append_right _ (List.mem_singleton_self _)
  · rfl

/-!
# `partition`
-/

theorem countWithin_le (room : Nat) (weights : List Nat) :
    countWithin room weights ≤ weights.length := by
  induction weights generalizing room with
  | nil =>
      exact Nat.le_refl 0
  | cons w ws ih =>
      rw [countWithin]
      split
      · exact Nat.succ_le_succ (ih (room - w))
      · exact Nat.zero_le _

theorem firstCount_between {groups : List (List Entry)} (hne : groups ≠ []) (state : PlanState) :
    1 ≤ planner.firstCount groups state ∧ planner.firstCount groups state < groups.length + 1 := by
  have hlength : 0 < groups.length := List.length_pos_of_ne_nil hne
  unfold firstCount
  split
  · omega
  · rename_i room _
    have hle := countWithin_le room (groups.map planner.weightOf)
    rw [List.length_map] at hle
    omega

theorem take_flatten_sublist {A : Type} (n : Nat) (groups : List (List A)) :
    (groups.take n).flatten.Sublist groups.flatten :=
  (List.take_sublist n groups).flatten

/-- What a fallback has to do with a single group. -/
def Resolves (planner : StructuralPlanner Payload) (fallback : Fallback) (group : List Entry) :
    Prop :=
  forall rejected state, Candidate planner group rejected -> admitted rejected = false ->
    Ends (Grows planner group state) (Refused planner) (fallback group rejected state)

theorem all_hasBase {body : List Entry} (hbody : Body planner.source body) :
    body.all planner.hasBase = true := by
  rw [List.all_eq_true]
  intro entry hmem
  rcases hbody.has entry hmem with ⟨base, hbase, hsource, _⟩
  unfold hasBase
  rw [hsource, SourceIndex.byId_of_mem hbase]
  rfl

theorem partition_ends (hindex : SoundIndex planner.source planner.index) {fallback : Fallback}
    (reason : BoundaryReason) {groups : List (List Entry)}
    (hbody : Body planner.source groups.flatten)
    (hfallback : forall group, group ∈ groups -> Resolves planner fallback group)
    (state : PlanState) :
    Ends (Grows planner groups.flatten state) (Refused planner)
      (planner.partition fallback reason groups state) := by
  induction hlength : groups.length using Nat.strongRecOn generalizing groups state with
  | _ length ih =>
      cases groups with
      | nil =>
          rw [partition]
          exact Grows.refl state
      | cons group rest =>
          have hcount := @firstCount_between _ planner (group :: rest) (List.cons_ne_nil _ _) state
          have hprobe : forall n s, 1 ≤ n -> n ≤ (group :: rest).length -> s.packs = state.packs ->
              Ends (fun r => Candidate planner ((group :: rest).take n).flatten r.1 ∧
                r.2.packs = state.packs) (Refused planner)
                (planner.probe (group :: rest) reason n s) := by
            intro n s _ _ hsame
            apply (candidate_ends hindex (Body.sublist hbody (take_flatten_sublist n _))
              reason s).mono
            · rintro result ⟨hcandidate, hpacks⟩
              exact ⟨hcandidate, hpacks.trans hsame⟩
            · intro fault hfault
              exact hfault
          rw [partition, reject_bind (not_not_intro (all_hasBase hbody))]
          apply Ends.bind (Probing.search_ends hprobe hcount.1 hcount.2 (Nat.le_refl _) rfl)
          rintro ⟨⟨found, pack⟩, next⟩ ⟨hpacks, hfound⟩
          cases found with
          | some count =>
              rcases hfound with ⟨⟨hone, _⟩, hcandidate, hfits⟩
              -- The groups are those of the pack and those behind it.
              have hsplit : (group :: rest).flatten =
                  ((group :: rest).take count).flatten ++ (rest.drop (count - 1)).flatten := by
                have hdrop : rest.drop (count - 1) = (group :: rest).drop count := by
                  rw [← Nat.sub_add_cancel hone, List.drop_succ_cons, Nat.add_sub_cancel]
                rw [hdrop, ← List.flatten_append, List.take_append_drop]
              have hpack : Grows planner ((group :: rest).take count).flatten state
                  { next with packs := next.packs ++ [pack] } := by
                apply Grows.of_pack hcandidate.body hcandidate.located
                · exact Or.inl ⟨hfits, hcandidate.measured⟩
                · show next.packs ++ [pack] = state.packs ++ [pack]
                  rw [hpacks]
              have hlater : Body planner.source (rest.drop (count - 1)).flatten := by
                apply Body.sublist hbody
                rw [hsplit]
                exact List.sublist_append_right _ _
              have hshort : (rest.drop (count - 1)).length < length := by
                rw [List.length_drop, ← hlength, List.length_cons]
                omega
              apply (ih _ hshort hlater _ { next with packs := next.packs ++ [pack] } rfl).mono
              · intro state' hgrows
                rw [hsplit]
                exact hpack.trans hgrows
              · intro fault hfault
                exact hfault
              · intro other hmem
                exact hfallback other (List.mem_cons_of_mem group (List.mem_of_mem_drop hmem))
          | none =>
              rcases hfound with ⟨hcandidate, hfails⟩
              have hgroup : Candidate planner group pack := by
                have hone : ((group :: rest).take 1).flatten = group := by
                  rw [List.take_succ_cons, List.take_zero, List.flatten_singleton]
                rw [hone] at hcandidate
                exact hcandidate
              apply Ends.bind (hfallback group List.mem_cons_self pack next hgroup hfails)
              intro middle hmiddle
              have hlater : Body planner.source rest.flatten := by
                apply Body.sublist hbody
                rw [List.flatten_cons]
                exact List.sublist_append_right _ _
              have hshort : rest.length < length := by
                rw [← hlength, List.length_cons]
                omega
              apply (ih _ hshort hlater _ middle rfl).mono
              · intro state' hgrows
                rw [List.flatten_cons]
                exact (hmiddle.of_packs_eq hpacks).trans hgrows
              · intro fault hfault
                exact hfault
              · intro other hmem
                exact hfallback other (List.mem_cons_of_mem group hmem)

/-!
# `split_range`
-/

theorem nearest_mem {middle cut : Nat} {bs : List Nat} (h : nearest middle bs = some cut) :
    cut ∈ bs := by
  cases bs with
  | nil =>
      cases h
  | cons b rest =>
      rw [nearest, Option.some.injEq] at h
      rw [← h]
      apply foldl_invariant_mem (P := fun best => best ∈ b :: rest)
      · intro best other hmem hbest
        split
        · exact List.mem_cons_of_mem b hmem
        · exact hbest
      · exact List.mem_cons_self

theorem boundaries_between {entry : Entry} {b : Nat} (hmem : b ∈ planner.boundaries entry) :
    entry.start < b ∧ b < entry.stop := by
  unfold boundaries at hmem
  split at hmem
  · have hbetween := of_decide_eq_true (List.mem_filter.mp hmem).2
    omega
  · unfold cellBoundaries at hmem
    split at hmem
    · cases hmem
    · exact of_decide_eq_true (List.mem_filter.mp hmem).2

theorem cutOf_between {entry : Entry} {cut : Nat} (h : planner.cutOf entry = some cut) :
    entry.start < cut ∧ cut < entry.stop := by
  unfold cutOf at h
  split at h
  · cases h
  · rename_i hlong
    simp only [Option.some.injEq] at h
    cases hnearest : nearest ((entry.start + entry.stop) / 2) (planner.boundaries entry) with
    | none =>
        rw [hnearest, Option.getD_none] at h
        omega
    | some b =>
        rw [hnearest, Option.getD_some] at h
        rw [← h]
        exact boundaries_between (nearest_mem hnearest)

/-- The two entries that a cut makes. -/
structure Halves (entry : Entry) (cut : Nat) (first second : Entry) : Prop where
  firstSource : first.sourceRangeId = entry.sourceRangeId
  secondSource : second.sourceRangeId = entry.sourceRangeId
  firstSpan : first.span = ⟨entry.start, cut⟩
  secondSpan : second.span = ⟨cut, entry.stop⟩
  inside : entry.start < cut ∧ cut < entry.stop

theorem split_cases (entry : Entry) :
    planner.split entry = .ok [] ∨
      exists cut first second, planner.split entry = .ok [first, second] ∧
        Halves entry cut first second := by
  unfold StructuralPlanner.split
  cases hcut : planner.cutOf entry with
  | none =>
      exact Or.inl rfl
  | some cut =>
      have hinside := cutOf_between hcut
      apply Or.inr
      refine ⟨cut,
        { entry.cut planner.digest entry.start cut with
          previousFragmentId := some reservedId
          nextFragmentId := some (entry.cut planner.digest cut entry.stop).rangeId },
        { entry.cut planner.digest cut entry.stop with
          previousFragmentId := some (entry.cut planner.digest entry.start cut).rangeId
          nextFragmentId := some reservedId }, ?_, ?_⟩
      · simp only
        rw [ok_bind (fragment_eq_ok planner.digest ⟨Nat.le_refl _, hinside.1.le, hinside.2.le⟩),
          ok_bind (fragment_eq_ok planner.digest ⟨hinside.1.le, hinside.2.le, Nat.le_refl _⟩)]
        rfl
      · exact ⟨rfl, rfl, rfl, rfl, hinside⟩

theorem has_part {source : SourceIndex} {entry part : Entry} (h : source.Has entry)
    (hsource : part.sourceRangeId = entry.sourceRangeId) (hlow : entry.start ≤ part.start)
    (hle : part.start ≤ part.stop) (hhigh : part.stop ≤ entry.stop) : source.Has part := by
  rcases h with ⟨base, hbase, hown, hstart, _, hstop⟩
  exact ⟨base, hbase, hsource.trans hown, Nat.le_trans hstart hlow, hle, Nat.le_trans hhigh hstop⟩

theorem Halves.first_has {source : SourceIndex} {entry first second : Entry} {cut : Nat}
    (h : Halves entry cut first second) (hentry : source.Has entry) : source.Has first := by
  have hstart : first.start = entry.start := congrArg Span.start h.firstSpan
  have hstop : first.stop = cut := congrArg Span.stop h.firstSpan
  have hinside := h.inside
  exact has_part hentry h.firstSource (by omega) (by omega) (by omega)

theorem Halves.second_has {source : SourceIndex} {entry first second : Entry} {cut : Nat}
    (h : Halves entry cut first second) (hentry : source.Has entry) : source.Has second := by
  have hstart : second.start = cut := congrArg Span.start h.secondSpan
  have hstop : second.stop = entry.stop := congrArg Span.stop h.secondSpan
  have hinside := h.inside
  exact has_part hentry h.secondSource (by omega) (by omega) (by omega)

theorem Halves.body {source : SourceIndex} {entry first second : Entry} {cut : Nat}
    (h : Halves entry cut first second) (hentry : source.Has entry) :
    Body source [first, second] := by
  have hfirst := body_singleton (h.first_has hentry)
  have hsecond := body_singleton (h.second_has hentry)
  constructor
  · intro other hmem
    rcases List.mem_cons.mp hmem with rfl | hmem
    · exact hfirst.has other List.mem_cons_self
    · exact hsecond.has other hmem
  · constructor
    · intro other hmem
      rcases List.mem_cons.mp hmem with rfl | hmem
      · exact hfirst.disjoint.ordered other List.mem_cons_self
      · exact hsecond.disjoint.ordered other hmem
    · rw [List.pairwise_cons]
      refine ⟨?_, List.pairwise_singleton ..⟩
      intro other hmem _
      rcases List.mem_singleton.mp hmem with rfl
      rw [h.firstSpan, h.secondSpan]
      intro i hbefore hafter
      exact absurd hbefore.2 (Nat.not_lt_of_le hafter.1)

theorem Tiles.append {start middle stop : Nat} {ms ns : List Span}
    (hfirst : Span.Tiles start middle ms) (hsecond : Span.Tiles middle stop ns) :
    Span.Tiles start stop (ms ++ ns) := by
  induction ms generalizing start with
  | nil =>
      cases hfirst
      exact hsecond
  | cons m ms ih =>
      rcases hfirst with ⟨hstart, hlt, hrest⟩
      exact ⟨hstart, hlt, ih hrest⟩

theorem Splits.tiles {entry : Entry} {part : List Selector} (h : Splits entry part)
    (hlt : entry.start < entry.stop) :
    0 < part.length ∧ (forall item, item ∈ part -> item.sourceRangeId = entry.sourceRangeId) ∧
      Span.Tiles entry.start entry.stop (part.map Selector.span) := by
  rcases h with ⟨item, rfl, _, hsource, hspan⟩ | ⟨hlength, hsource, htiles⟩
  · refine ⟨Nat.zero_lt_one, ?_, ?_⟩
    · intro other hmem
      rcases List.mem_singleton.mp hmem with rfl
      exact hsource
    · rw [List.map_singleton, hspan]
      exact ⟨rfl, hlt, rfl⟩
  · exact ⟨by omega, hsource, htiles⟩

/-- What has both halves of an entry has the entry in fragments. -/
theorem Halves.lists {entry first second : Entry} {cut : Nat} {body : List Selector}
    (h : Halves entry cut first second) (hlists : Lists [first, second] body) :
    Lists [entry] body := by
  rcases hlists with ⟨parts, rfl, hparts⟩
  rcases List.forall₂_cons_left_iff.mp hparts with ⟨part, rest, hfirst, hrest, rfl⟩
  rcases List.forall₂_cons_left_iff.mp hrest with ⟨part', rest', hsecond, hnil, rfl⟩
  rw [List.forall₂_nil_left_iff] at hnil
  subst hnil
  have hstart : first.start = entry.start := congrArg Span.start h.firstSpan
  have hmiddle : first.stop = cut := congrArg Span.stop h.firstSpan
  have hmiddle' : second.start = cut := congrArg Span.start h.secondSpan
  have hstop : second.stop = entry.stop := congrArg Span.stop h.secondSpan
  have hinside := h.inside
  have htiles := hfirst.tiles (by omega)
  have htiles' := hsecond.tiles (by omega)
  rw [hstart, hmiddle] at htiles
  rw [hmiddle', hstop] at htiles'
  refine ⟨[part ++ part'], ?_, .cons (Or.inr ⟨?_, ?_, ?_⟩) .nil⟩
  · simp only [List.flatten_cons, List.flatten_nil, List.append_nil]
  · rw [List.length_append]
    omega
  · intro item hmem
    rcases List.mem_append.mp hmem with hleft | hright
    · exact (htiles.2.1 item hleft).trans h.firstSource
    · exact (htiles'.2.1 item hright).trans h.secondSource
  · rw [List.map_append]
    exact Tiles.append htiles.2.2 htiles'.2.2

theorem Halves.grows {entry first second : Entry} {cut : Nat} {state state' : PlanState}
    (h : Halves entry cut first second) (hgrows : Grows planner [first, second] state state') :
    Grows planner [entry] state state' := by
  rcases hgrows with ⟨packs, hpacks, hsettled, hlists⟩
  exact ⟨packs, hpacks, hsettled, h.lists hlists⟩

/-- A bound for the characters is enough for an entry to be divided to its end. -/
theorem splitRange_ends (hindex : SoundIndex planner.source planner.index) (size : Nat)
    {entry : Entry} (hsize : entry.stop - entry.start ≤ size) (hentry : planner.source.Has entry) :
    Resolves planner (onFirst (planner.splitRange size)) [entry] := by
  induction size generalizing entry with
  | zero =>
      intro rejected state hcandidate hfails
      exact grows_blocked hcandidate hfails
  | succ size ih =>
      intro rejected state hcandidate hfails
      show Ends _ _ (planner.splitRange (size + 1) entry rejected state)
      rw [splitRange]
      rcases @split_cases _ planner entry with hnone | ⟨cut, first, second, hsplit, hhalves⟩
      · rw [ok_bind hnone]
        exact grows_blocked hcandidate hfails
      · rw [ok_bind hsplit]
        have hinside := hhalves.inside
        have hminimum : entry.start ≤ entry.start ∧ entry.start ≤ min entry.stop (entry.start + 1) ∧
            min entry.stop (entry.start + 1) ≤ entry.stop := by omega
        simp only [List.isEmpty_cons, Bool.false_eq_true, ↓reduceIte]
        rw [ok_bind (fragment_eq_ok planner.digest hminimum)]
        have hbody : Body planner.source
            [entry.cut planner.digest entry.start (min entry.stop (entry.start + 1))] :=
          body_singleton (has_part hentry rfl hminimum.1 hminimum.2.1 hminimum.2.2)
        apply Ends.bind (candidate_ends hindex hbody .minimumBodyProbe state)
        rintro ⟨probe, next⟩ ⟨_, hpacks⟩
        simp only
        split
        · exact (@grows_blocked _ planner [entry] rejected next hcandidate
            hfails).of_packs_eq hpacks
        · have hflat : ([first, second].map fun child => [child]).flatten = [first, second] := rfl
          have hfirst : first.stop - first.start ≤ size := by
            have hstart : first.start = entry.start := congrArg Span.start hhalves.firstSpan
            have hstop : first.stop = cut := congrArg Span.stop hhalves.firstSpan
            omega
          have hsecond : second.stop - second.start ≤ size := by
            have hstart : second.start = cut := congrArg Span.start hhalves.secondSpan
            have hstop : second.stop = entry.stop := congrArg Span.stop hhalves.secondSpan
            omega
          have hrun := @partition_ends _ planner hindex (onFirst (planner.splitRange size))
            .textOrCellFragment ([first, second].map fun child => [child])
            (hhalves.body hentry) ?_ next
          · apply hrun.mono
            · intro state' hgrows
              exact hhalves.grows (hgrows.of_packs_eq hpacks)
            · intro fault hfault
              exact hfault
          · intro group hmem
            rcases List.mem_map.mp hmem with ⟨child, hchild, rfl⟩
            rcases List.mem_cons.mp hchild with rfl | hchild
            · exact ih hfirst (hhalves.first_has hentry)
            · rcases List.mem_singleton.mp hchild with rfl
              exact ih hsecond (hhalves.second_has hentry)

theorem splitWhole_ends (hindex : SoundIndex planner.source planner.index) {entry : Entry}
    (hentry : planner.source.Has entry) : Resolves planner (onFirst planner.splitWhole) [entry] :=
  splitRange_ends hindex (entry.stop - entry.start) (Nat.le_refl _) hentry

/-!
# The levels above
-/

theorem splitStructure_ends (hindex : SoundIndex planner.source planner.index)
    {entries : List Entry} (hbody : Body planner.source entries) :
    Resolves planner planner.splitStructure entries := by
  intro rejected state hcandidate hfails
  unfold splitStructure
  split
  · rename_i hone
    rcases List.length_eq_one_iff.mp hone with ⟨entry, rfl⟩
    exact splitWhole_ends hindex (hbody.has entry List.mem_cons_self) rejected state hcandidate
      hfails
  · have hflat : (entries.map fun entry => [entry]).flatten = entries := by
      rw [← List.flatMap_def]
      exact List.flatMap_singleton' entries
    have hgroups : Body planner.source (entries.map fun entry => [entry]).flatten := by
      rw [hflat]
      exact hbody
    have hrun := @partition_ends _ planner hindex (onFirst planner.splitWhole) .nativeRowGroup
      (entries.map fun entry => [entry]) hgroups ?_ state
    · rw [hflat] at hrun
      exact hrun
    · intro group hmem
      rcases List.mem_map.mp hmem with ⟨entry, hentry, rfl⟩
      exact splitWhole_ends hindex (hbody.has entry hentry)

theorem flatten_groupsBy {K : Type} [DecidableEq K] (key : Entry -> K) (entries : List Entry) :
    (groupsBy key entries).flatten = entries :=
  List.flatten_splitBy _ entries

theorem body_group {source : SourceIndex} {groups : List (List Entry)}
    (hbody : Body source groups.flatten) {group : List Entry} (hmem : group ∈ groups) :
    Body source group :=
  Body.sublist hbody (List.sublist_flatten_of_mem hmem)

theorem splitSection_ends (hindex : SoundIndex planner.source planner.index)
    {entries : List Entry} (hbody : Body planner.source entries) :
    Resolves planner planner.splitSection entries := by
  intro rejected state hcandidate hfails
  have hflat := flatten_groupsBy structureKey entries
  unfold splitSection
  simp only
  split
  · exact splitStructure_ends hindex hbody rejected state hcandidate hfails
  · have hgroups : Body planner.source (groupsBy structureKey entries).flatten := by
      rw [hflat]
      exact hbody
    have hrun := @partition_ends _ planner hindex planner.splitStructure .nativeStructurePrefix
      (groupsBy structureKey entries) hgroups ?_ state
    · rw [hflat] at hrun
      exact hrun
    · intro group hmem
      exact splitStructure_ends hindex (body_group hgroups hmem)

theorem chapters_ends (hindex : SoundIndex planner.source planner.index) :
    Ends (Grows planner planner.source.ranges {}) (Refused planner)
      (planner.partition planner.splitSection .completeAdjacentSections planner.chapters {}) := by
  have hflat : planner.chapters.flatten = planner.source.ranges := flatten_groupsBy _ _
  have hgroups : Body planner.source planner.chapters.flatten := by
    rw [hflat]
    exact body_ranges planner.source
  have hrun := @partition_ends _ planner hindex planner.splitSection .completeAdjacentSections
    planner.chapters hgroups ?_ {}
  · rw [hflat] at hrun
    exact hrun
  · intro group hmem
    exact splitSection_ends hindex (body_group hgroups hmem)

end StructuralPlanner
end Evidence
end KnowledgeBrain
