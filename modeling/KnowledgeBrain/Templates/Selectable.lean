import KnowledgeBrain.Templates.NativeOrder

/-!
# Selection by spans

What a span selects does not depend on the other spans of a request; a request
collects what its spans select and keeps each part once.
-/

namespace KnowledgeBrain
namespace Templates

open Foundation MaximalRuns

/-- Supplied parts under distinct identities and keys, all of them registered. -/
structure SubPool (parts registered : PartPool) : Prop where
  identities : (parts.map Prod.fst).Nodup
  keys : (parts.map fun entry => templatePartKey entry.2).Nodup
  registeredKeys : (registered.map fun entry => templatePartKey entry.2).Nodup
  registered : forall entry, entry ∈ parts ->
    templatePartKey entry.2 ∈ registered.map fun entry => templatePartKey entry.2

namespace SubPool

variable {parts registered : PartPool}

variable {part : TemplatePart}

theorem lookup_eq_some (h : SubPool parts registered) {identity : String} :
    parts.lookup identity = some part <-> (identity, part) ∈ parts := by
  constructor
  · exact fun hlookup =>
      @Table.mem_rows_of_lookup String TemplatePart identity part _ ⟨parts, h.identities⟩ hlookup
  · exact fun hmem => Table.lookup_rows_of_mem h.identities hmem

theorem aliasOf_eq_some (h : SubPool parts registered) {key : PartKey} {identity : String} :
    aliasOf parts key = some identity <->
      exists part, (identity, part) ∈ parts ∧ templatePartKey part = key := by
  unfold aliasOf
  constructor
  · intro hfound
    rcases Option.map_eq_some_iff.mp hfound with ⟨⟨other, part⟩, hentry, rfl⟩
    have hmem := List.mem_reverse.mp (List.mem_of_find?_eq_some hentry)
    have hkey := List.find?_some hentry
    exact ⟨part, hmem, by simpa using hkey⟩
  · rintro ⟨part, hmem, hkey⟩
    cases hfind : parts.reverse.find? fun entry => templatePartKey entry.2 = key with
    | none =>
        have hnone := List.find?_eq_none.mp hfind (identity, part) (List.mem_reverse.mpr hmem)
        simp [hkey] at hnone
    | some entry =>
        have hentry := List.mem_reverse.mp (List.mem_of_find?_eq_some hfind)
        have hfound := List.find?_some hfind
        have hsame : entry = (identity, part) := by
          apply List.inj_on_of_nodup_map h.keys hentry hmem
          simpa [hkey] using hfound
        rw [hsame]
        rfl

theorem aliasOf_injective (h : SubPool parts registered) {key key' : PartKey} {identity : String}
    (hkey : aliasOf parts key = some identity) (hkey' : aliasOf parts key' = some identity) :
    key = key' := by
  rcases h.aliasOf_eq_some.mp hkey with ⟨part, hmem, rfl⟩
  rcases h.aliasOf_eq_some.mp hkey' with ⟨part', hmem', rfl⟩
  have hsame := List.inj_on_of_nodup_map h.identities hmem hmem' rfl
  cases hsame
  rfl

end SubPool

/-!
# One span
-/

/-- The place of a part in the native order. -/
def nativePlace (ordered : PartPool) (part : TemplatePart) : Nat :=
  (ordered.map fun entry => templatePartKey entry.2).idxOf (templatePartKey part)

theorem find_last_place {keys : List PartKey} (hnodup : keys.Nodup) {key : PartKey}
    (hmem : key ∈ keys) :
    (keys.zipIdx.reverse.find? fun entry => entry.1 = key) = some (key, keys.idxOf key) := by
  have hplace : (key, keys.idxOf key) ∈ keys.zipIdx := by
    rw [List.mem_zipIdx_iff_getElem?]
    exact List.getElem?_idxOf hmem
  cases hfind : keys.zipIdx.reverse.find? fun entry => entry.1 = key with
  | none =>
      have hnone := List.find?_eq_none.mp hfind _ (List.mem_reverse.mpr hplace)
      simp at hnone
  | some entry =>
      rcases entry with ⟨found, place⟩
      have hentry := List.mem_reverse.mp (List.mem_of_find?_eq_some hfind)
      have hfound := List.find?_some hfind
      have hsame : found = key := by simpa using hfound
      have hget : keys[place]? = some found := List.mem_zipIdx_iff_getElem?.mp hentry
      rcases List.getElem?_eq_some_iff.mp hget with ⟨hlt, hat⟩
      rw [← hsame, ← hat, hnodup.idxOf_getElem place hlt]

/-- What is selected by the places of two ends. -/
def between (keys : List PartKey) (start stop : Nat) : List PartKey :=
  (keys.drop start).take (stop + 1 - start)

theorem mem_between {keys : List PartKey} {start stop : Nat} {key : PartKey} :
    key ∈ between keys start stop <->
      exists m, start ≤ m ∧ m ≤ stop ∧ keys[m]? = some key := by
  unfold between
  rw [List.mem_iff_getElem?]
  constructor
  · rintro ⟨n, hn⟩
    rw [List.getElem?_take] at hn
    by_cases hless : n < stop + 1 - start
    · rw [if_pos hless, List.getElem?_drop] at hn
      exact ⟨start + n, by omega, by omega, hn⟩
    · rw [if_neg hless] at hn
      cases hn
  · rintro ⟨m, hstart, hstop, hm⟩
    refine ⟨m - start, ?_⟩
    rw [List.getElem?_take, if_pos (by omega), List.getElem?_drop,
      Nat.add_sub_cancel' hstart]
    exact hm

theorem nodup_between {keys : List PartKey} (h : keys.Nodup) (start stop : Nat) :
    (between keys start stop).Nodup :=
  h.sublist ((List.take_sublist _ _).trans (List.drop_sublist _ _))

section Selecting

variable {parts registered ordered : PartPool} {path : List PathStep}

theorem checkEndpoint_eq_ok {ordinal : Nat} {field identity : String} :
    checkEndpoint parts path ordinal field identity = .ok part <->
      parts.lookup identity = some part := by
  unfold checkEndpoint
  cases hlookup : parts.lookup identity with
  | none =>
      simp
  | some found =>
      simp

theorem checkSpan_eq_ok {entry : Span × Nat} :
    checkSpan parts path entry = .ok () <->
      exists first last, parts.lookup entry.1.startPartId = some first ∧
        parts.lookup entry.1.endPartId = some last ∧ first.digest = last.digest := by
  unfold checkSpan
  constructor
  · intro h
    rcases bind_eq_ok h with ⟨first, hfirst, h⟩
    rcases bind_eq_ok h with ⟨last, hlast, h⟩
    refine ⟨first, last, checkEndpoint_eq_ok.mp hfirst, checkEndpoint_eq_ok.mp hlast, ?_⟩
    by_contra hdiffers
    rw [if_pos hdiffers] at h
    cases h
  · rintro ⟨first, last, hfirst, hlast, hsame⟩
    rw [ok_bind (checkEndpoint_eq_ok.mpr hfirst), ok_bind (checkEndpoint_eq_ok.mpr hlast),
      if_neg (fun hdiffers => hdiffers hsame)]
    rfl

theorem placeOf_of_lookup (hpool : SubPool parts registered) (hperm : ordered.Perm registered)
    {ordinal : Nat} {field identity : String} (hlookup : parts.lookup identity = some part) :
    placeOf parts (ordered.map fun entry => templatePartKey entry.2) path ordinal field identity =
      .ok (nativePlace ordered part) := by
  have hkeys := hperm.map fun entry => templatePartKey entry.2
  have hmem := hkeys.mem_iff.mpr (hpool.registered _ (hpool.lookup_eq_some.mp hlookup))
  unfold placeOf
  rw [ok_bind (checkEndpoint_eq_ok.mpr hlookup),
    find_last_place (hkeys.nodup_iff.mpr hpool.registeredKeys) hmem]
  rfl

/-- The ends of a span in order, and everything between them supplied. -/
structure Selectable (parts ordered : PartPool) (first last : TemplatePart) : Prop where
  inOrder : nativePlace ordered first ≤ nativePlace ordered last
  supplied : forall key,
    key ∈ between (ordered.map fun entry => templatePartKey entry.2) (nativePlace ordered first)
      (nativePlace ordered last) -> (aliasOf parts key).isSome = true

theorem selectSpan_eq_ok (hpool : SubPool parts registered) (hperm : ordered.Perm registered)
    {entry : Span × Nat} {first last : TemplatePart} {selected : List PartKey}
    (hfirst : parts.lookup entry.1.startPartId = some first)
    (hlast : parts.lookup entry.1.endPartId = some last) :
    selectSpan parts (ordered.map fun entry => templatePartKey entry.2) path entry =
        .ok selected <->
      Selectable parts ordered first last ∧
        selected = between (ordered.map fun entry => templatePartKey entry.2)
          (nativePlace ordered first) (nativePlace ordered last) := by
  unfold selectSpan
  rw [ok_bind (placeOf_of_lookup hpool hperm hfirst), ok_bind (placeOf_of_lookup hpool hperm hlast)]
  by_cases hafter : nativePlace ordered first > nativePlace ordered last
  · rw [if_pos hafter]
    constructor
    · intro h
      cases h
    · rintro ⟨⟨horder, _⟩, _⟩
      omega
  · rw [if_neg hafter]
    show (if (between _ _ _).any _ = true then _ else _) = _ <-> _
    by_cases hhole : (between (ordered.map fun entry => templatePartKey entry.2)
        (nativePlace ordered first) (nativePlace ordered last)).any
        (fun key => (aliasOf parts key).isNone) = true
    · rw [if_pos hhole]
      constructor
      · intro h
        cases h
      · rintro ⟨⟨_, hsupplied⟩, _⟩
        rcases List.any_eq_true.mp hhole with ⟨key, hkey, hnone⟩
        have hsome := hsupplied key hkey
        rw [Option.isNone_iff_eq_none.mp hnone] at hsome
        cases hsome
    · rw [if_neg hhole]
      constructor
      · intro h
        cases h
        refine ⟨⟨by omega, ?_⟩, rfl⟩
        intro key hkey
        rw [← Option.not_isNone, Bool.not_eq_true']
        by_contra hnone
        exact hhole (List.any_eq_true.mpr ⟨key, hkey, by simpa using hnone⟩)
      · rintro ⟨_, rfl⟩
        rfl

end Selecting

/-!
# Collecting
-/

/-- The keys that were met have been collected, each once. -/
structure Collected (parts : PartPool) (keys : List PartKey)
    (state : List String × List PartKey) : Prop where
  nodup : state.2.Nodup
  identities : state.1 = state.2.filterMap (aliasOf parts)
  mem_iff : forall key, key ∈ state.2 <-> key ∈ keys

theorem filterMap_concat (parts : PartPool) (keys : List PartKey) (key : PartKey) :
    (keys ++ [key]).filterMap (aliasOf parts) =
      keys.filterMap (aliasOf parts) ++ (aliasOf parts key).toList := by
  rw [List.filterMap_append]
  cases halias : aliasOf parts key with
  | none =>
      simp [halias]
  | some identity =>
      simp [halias]

theorem Collected.add {parts : PartPool} {keys : List PartKey}
    {state : List String × List PartKey} (h : Collected parts keys state) (key : PartKey) :
    Collected parts (keys ++ [key]) (addSelected parts state key) := by
  unfold addSelected
  by_cases hmem : key ∈ state.2
  · rw [if_pos hmem]
    refine ⟨h.nodup, h.identities, ?_⟩
    intro other
    rw [h.mem_iff, List.mem_append, List.mem_singleton]
    constructor
    · exact Or.inl
    · rintro (hother | rfl)
      · exact hother
      · exact (h.mem_iff _).mp hmem
  · rw [if_neg hmem]
    constructor
    · show (state.2 ++ [key]).Nodup
      exact List.nodup_append.mpr ⟨h.nodup, List.nodup_singleton key, by
        rintro a ha b hb rfl
        rw [List.mem_singleton.mp hb] at ha
        exact hmem ha⟩
    · rw [filterMap_concat, h.identities]
    · intro other
      rw [List.mem_append, List.mem_append, h.mem_iff]

theorem Collected.fold {parts : PartPool} {keys : List PartKey}
    {state : List String × List PartKey} (h : Collected parts keys state) (more : List PartKey) :
    Collected parts (keys ++ more) (more.foldl (addSelected parts) state) := by
  induction more generalizing keys state with
  | nil =>
      rw [List.append_nil]
      exact h
  | cons key rest ih =>
      rw [List.foldl_cons, List.append_cons]
      exact ih (h.add key)

/-- Fresh keys are collected as they stand. -/
theorem foldl_addSelected_of_nodup {parts : PartPool} (keys : List PartKey)
    (state : List String × List PartKey) (hnodup : keys.Nodup)
    (hfresh : forall key, key ∈ keys -> key ∉ state.2) :
    keys.foldl (addSelected parts) state =
      (state.1 ++ keys.filterMap (aliasOf parts), state.2 ++ keys) := by
  induction keys generalizing state with
  | nil =>
      simp
  | cons key rest ih =>
      rcases List.nodup_cons.mp hnodup with ⟨hkey, hrest⟩
      have hstep : addSelected parts state key =
          (state.1 ++ (aliasOf parts key).toList, state.2 ++ [key]) :=
        if_neg (hfresh key List.mem_cons_self)
      rw [List.foldl_cons, hstep, ih _ hrest]
      · have hcons : (key :: rest).filterMap (aliasOf parts) =
            (aliasOf parts key).toList ++ rest.filterMap (aliasOf parts) := by
          cases halias : aliasOf parts key <;> simp [halias]
        rw [hcons, List.append_assoc, List.append_assoc]
        rfl
      · intro other hother hseen
        rcases List.mem_append.mp hseen with hseen | hseen
        · exact hfresh other (List.mem_cons_of_mem key hother) hseen
        · rw [List.mem_singleton.mp hseen] at hother
          exact hkey hother

theorem nodup_filterMap_alias {parts registered : PartPool} (hpool : SubPool parts registered)
    {keys : List PartKey} (h : keys.Nodup) : (keys.filterMap (aliasOf parts)).Nodup := by
  apply h.filterMap
  intro key key' identity hkey hkey'
  exact hpool.aliasOf_injective hkey hkey'

/-!
# Selectable spans

The advertised runs are cut where a part was not supplied or the document
changes; a span is expanded if nothing between its ends was not supplied.  Both
say the same of two parts.
-/

variable {repository : String -> Except TemplateError (List String)}
  {parts registered ordered : PartPool} {path : List PathStep}

/-- Two parts of one advertised run, the first before the second. -/
def SameRun (parts ordered : PartPool) (runs : List (String × String)) (a b : TemplatePart) :
    Prop :=
  exists run, run ∈ runs ∧ exists first last, (run.1, first) ∈ parts ∧ (run.2, last) ∈ parts ∧
    nativePlace ordered first ≤ nativePlace ordered a ∧
    nativePlace ordered a < nativePlace ordered b ∧
    nativePlace ordered b ≤ nativePlace ordered last

/-- The supplied parts from one part to another in native order. -/
def visibleBetween (parts ordered : PartPool) (a b : TemplatePart) : List String :=
  (ordered.filter fun entry => decide (nativePlace ordered a ≤ nativePlace ordered entry.2 ∧
    nativePlace ordered entry.2 ≤ nativePlace ordered b)).filterMap
      fun entry => aliasOf parts (templatePartKey entry.2)

/-!
# Places
-/

section Pool

variable (hpool : SubPool parts registered)

include hpool

theorem keys_nodup (hperm : ordered.Perm registered) :
    (ordered.map fun entry => templatePartKey entry.2).Nodup :=
  (hperm.map _).nodup_iff.mpr hpool.registeredKeys

theorem nativePlace_of_getElem? (hperm : ordered.Perm registered) {n : Nat}
    {entry : String × TemplatePart} (hn : ordered[n]? = some entry)
    (hkey : templatePartKey entry.2 = templatePartKey part) : nativePlace ordered part = n := by
  have hget : (ordered.map fun entry => templatePartKey entry.2)[n]? =
      some (templatePartKey part) := by
    rw [List.getElem?_map, hn, ← hkey]
    rfl
  rcases List.getElem?_eq_some_iff.mp hget with ⟨hlt, hat⟩
  unfold nativePlace
  rw [← hat, (keys_nodup hpool hperm).idxOf_getElem n hlt]

theorem exists_getElem?_nativePlace (hperm : ordered.Perm registered)
    {entry : String × TemplatePart} (hmem : entry ∈ parts) :
    exists found, ordered[nativePlace ordered entry.2]? = some found ∧
      templatePartKey found.2 = templatePartKey entry.2 := by
  have hkey := (hperm.map fun entry => templatePartKey entry.2).mem_iff.mpr
    (hpool.registered entry hmem)
  have hget := List.getElem?_idxOf hkey
  rw [List.getElem?_map] at hget
  exact Option.map_eq_some_iff.mp hget

omit hpool in
/-- The places of a slice, by the places of its items. -/
theorem filter_eq_between {keys : List PartKey} (hnodup : keys.Nodup) {start stop : Nat}
    (horder : start ≤ stop) :
    keys.filter (fun key => decide (start ≤ keys.idxOf key ∧ keys.idxOf key ≤ stop)) =
      between keys start stop := by
  have hplace : forall {n : Nat} {key : PartKey}, keys[n]? = some key -> keys.idxOf key = n := by
    intro n key hn
    rcases List.getElem?_eq_some_iff.mp hn with ⟨hlt, rfl⟩
    exact hnodup.idxOf_getElem n hlt
  have hsplit : keys = keys.take start ++ (between keys start stop ++ keys.drop (stop + 1)) := by
    have hrest : keys.drop (stop + 1) = (keys.drop start).drop (stop + 1 - start) := by
      rw [List.drop_drop, show start + (stop + 1 - start) = stop + 1 by omega]
    rw [hrest, between, List.take_append_drop, List.take_append_drop]
  have hbefore : (keys.take start).filter
      (fun key => decide (start ≤ keys.idxOf key ∧ keys.idxOf key ≤ stop)) = [] := by
    apply List.filter_eq_nil_iff.mpr
    intro key hkey
    rcases List.mem_iff_getElem?.mp hkey with ⟨n, hn⟩
    rw [List.getElem?_take] at hn
    by_cases hless : n < start
    · rw [if_pos hless] at hn
      rw [hplace hn]
      simp [hless]
    · rw [if_neg hless] at hn
      cases hn
  have hwithin : (between keys start stop).filter
      (fun key => decide (start ≤ keys.idxOf key ∧ keys.idxOf key ≤ stop)) =
        between keys start stop := by
    apply List.filter_eq_self.mpr
    intro key hkey
    rcases mem_between.mp hkey with ⟨m, hstart, hstop, hm⟩
    rw [hplace hm]
    simp [hstart, hstop]
  have hbehind : (keys.drop (stop + 1)).filter
      (fun key => decide (start ≤ keys.idxOf key ∧ keys.idxOf key ≤ stop)) = [] := by
    apply List.filter_eq_nil_iff.mpr
    intro key hkey
    rcases List.mem_iff_getElem?.mp hkey with ⟨n, hn⟩
    rw [List.getElem?_drop] at hn
    rw [hplace hn]
    simp only [decide_eq_true_eq]
    omega
  calc
    keys.filter (fun key => decide (start ≤ keys.idxOf key ∧ keys.idxOf key ≤ stop)) =
        (keys.take start ++ (between keys start stop ++ keys.drop (stop + 1))).filter
          (fun key => decide (start ≤ keys.idxOf key ∧ keys.idxOf key ≤ stop)) := by
      rw [← hsplit]
    _ = between keys start stop := by
      rw [List.filter_append, List.filter_append, hbefore, hwithin, hbehind]
      simp

theorem filterMap_between (hperm : ordered.Perm registered) {a b : TemplatePart}
    (horder : nativePlace ordered a ≤ nativePlace ordered b) :
    (between (ordered.map fun entry => templatePartKey entry.2) (nativePlace ordered a)
      (nativePlace ordered b)).filterMap (aliasOf parts) = visibleBetween parts ordered a b := by
  rw [← filter_eq_between (keys_nodup hpool hperm) horder, List.filter_map, List.filterMap_map]
  rfl

/-!
# Spans and runs
-/

/-- Nothing between two parts is hidden or of another document. -/
theorem solid_iff_selectable (hordered : orderedTemplateParts repository registered = .ok ordered)
    {a b : String × TemplatePart} (ha : a ∈ parts) (hb : b ∈ parts) :
    (nativePlace ordered a.2 ≤ nativePlace ordered b.2 ∧
      MaximalRuns.Solid (fun entry => aliasOf parts (templatePartKey entry.2))
        (fun entry => entry.2.digest) ordered (nativePlace ordered a.2)
        (nativePlace ordered b.2)) <->
      a.2.digest = b.2.digest ∧ Selectable parts ordered a.2 b.2 := by
  have hperm := perm_orderedTemplateParts hordered
  rcases exists_getElem?_nativePlace hpool hperm ha with ⟨first, hfirst, hfirstKey⟩
  rcases exists_getElem?_nativePlace hpool hperm hb with ⟨last, hlast, hlastKey⟩
  have hfirstDigest : first.2.digest = a.2.digest := congrArg PartKey.digest hfirstKey
  have hlastDigest : last.2.digest = b.2.digest := congrArg PartKey.digest hlastKey
  constructor
  · rintro ⟨horder, hsolid⟩
    constructor
    · have hblock := (hsolid _ horder (Nat.le_refl _)).2
      rw [blockAt, blockAt, hfirst, hlast] at hblock
      have hsame : last.2.digest = first.2.digest := Option.some.inj hblock
      rw [← hfirstDigest, ← hlastDigest, hsame]
    · constructor
      · exact horder
      · intro key hkey
        rcases mem_between.mp hkey with ⟨m, hstart, hstop, hm⟩
        rw [List.getElem?_map] at hm
        rcases Option.map_eq_some_iff.mp hm with ⟨entry, hentry, rfl⟩
        have hname := (hsolid m hstart hstop).1
        rw [nameAt, hentry] at hname
        exact hname
  · rintro ⟨hdigest, horder, hsupplied⟩
    refine ⟨horder, ?_⟩
    intro m hstart hstop
    have hlength := (List.getElem?_eq_some_iff.mp hlast).1
    have hentry : ordered[m]? = some ordered[m] :=
      List.getElem?_eq_getElem (Nat.lt_of_le_of_lt hstop hlength)
    constructor
    · rw [nameAt, hentry]
      apply hsupplied
      apply mem_between.mpr
      refine ⟨m, hstart, hstop, ?_⟩
      rw [List.getElem?_map, hentry]
      rfl
    · have hbetween := digest_between hordered hstart hstop hfirst hentry hlast
        (by rw [hfirstDigest, hlastDigest, hdigest])
      rw [blockAt, blockAt, hfirst, hentry]
      exact congrArg some hbetween

/-- An advertised run is a stretch without holes, and all such stretches are in one. -/
theorem sameRun_iff (hordered : orderedTemplateParts repository registered = .ok ordered)
    {a b : String × TemplatePart} (ha : a ∈ parts) (hb : b ∈ parts)
    (hkeys : templatePartKey a.2 ≠ templatePartKey b.2) :
    SameRun parts ordered (MaximalRuns.walk (fun entry => aliasOf parts (templatePartKey entry.2))
        (fun entry => entry.2.digest) ordered) a.2 b.2 <->
      a.2.digest = b.2.digest ∧ Selectable parts ordered a.2 b.2 := by
  have hperm := perm_orderedTemplateParts hordered
  rcases reported_walk (fun entry => aliasOf parts (templatePartKey entry.2))
    (fun entry : String × TemplatePart => entry.2.digest) ordered with ⟨ends, hreported⟩
  have hplace : forall {m : Nat} {identity : String},
      nameAt (fun entry => aliasOf parts (templatePartKey entry.2)) ordered m =
        some identity ->
      exists part, (identity, part) ∈ parts ∧ nativePlace ordered part = m := by
    intro m identity hname
    rcases Option.bind_eq_some_iff.mp hname with ⟨entry, hentry, halias⟩
    rcases hpool.aliasOf_eq_some.mp halias with ⟨part, hpart, hkey⟩
    exact ⟨part, hpart, nativePlace_of_getElem? hpool hperm hentry hkey.symm⟩
  rw [← solid_iff_selectable hpool hordered ha hb]
  constructor
  · rintro ⟨run, hrun, first, last, hfirst, hlast, hstart, hless, hstop⟩
    have hnames : (some run.1, some run.2) ∈
        (MaximalRuns.walk (fun entry => aliasOf parts (templatePartKey entry.2))
          (fun entry => entry.2.digest) ordered).map fun run => (some run.1, some run.2) :=
      List.mem_map.mpr ⟨run, hrun, rfl⟩
    rw [hreported.names] at hnames
    rcases List.mem_map.mp hnames with ⟨place, hmem, hname⟩
    rcases Prod.mk.inj hname with ⟨hfirstName, hlastName⟩
    rcases hplace hfirstName with ⟨first', hfirst', hfirstPlace⟩
    rcases hplace hlastName with ⟨last', hlast', hlastPlace⟩
    have hfirstSame := List.inj_on_of_nodup_map hpool.identities hfirst hfirst' rfl
    have hlastSame := List.inj_on_of_nodup_map hpool.identities hlast hlast' rfl
    cases hfirstSame
    cases hlastSame
    rcases hreported.within place hmem with ⟨_, _, hsolid⟩
    refine ⟨Nat.le_of_lt hless, hsolid.sub ?_ ?_ (Nat.le_of_lt hless)⟩
    · rw [← hfirstPlace]
      exact hstart
    · rw [← hlastPlace]
      exact hstop
  · rintro ⟨horder, hsolid⟩
    rcases exists_getElem?_nativePlace hpool hperm ha with ⟨first, hfirst, hfirstKey⟩
    rcases exists_getElem?_nativePlace hpool hperm hb with ⟨last, hlast, hlastKey⟩
    have hless : nativePlace ordered a.2 < nativePlace ordered b.2 := by
      apply Nat.lt_of_le_of_ne horder
      intro hsame
      rw [hsame, hlast] at hfirst
      cases hfirst
      exact hkeys (hfirstKey.symm.trans hlastKey)
    have hbound := (List.getElem?_eq_some_iff.mp hlast).1
    rcases hreported.covered _ _ hless hbound hsolid with ⟨place, hmem, hstart, hstop⟩
    rcases hreported.within place hmem with ⟨hplaces, _, hwhole⟩
    have hnames : (nameAt (fun entry => aliasOf parts (templatePartKey entry.2)) ordered
          place.1, nameAt (fun entry => aliasOf parts (templatePartKey entry.2)) ordered
          place.2) ∈ ends.map fun place =>
        (nameAt (fun entry => aliasOf parts (templatePartKey entry.2)) ordered place.1,
          nameAt (fun entry => aliasOf parts (templatePartKey entry.2)) ordered
            place.2) :=
      List.mem_map.mpr ⟨place, hmem, rfl⟩
    rw [← hreported.names] at hnames
    rcases List.mem_map.mp hnames with ⟨run, hrun, hname⟩
    rcases Prod.mk.inj hname with ⟨hfirstName, hlastName⟩
    rcases hplace hfirstName.symm with ⟨start, hstartMem, hstartPlace⟩
    rcases hplace hlastName.symm with ⟨stop, hstopMem, hstopPlace⟩
    refine ⟨run, hrun, start, stop, hstartMem, hstopMem, ?_, hless, ?_⟩
    · rw [hstartPlace]
      exact hstart
    · rw [hstopPlace]
      exact hstop

/-!
# Expansion
-/

omit hpool in
/-- What a span selects when it is accepted. -/
def Chosen (parts ordered : PartPool) (span : Span) (selected : List PartKey) : Prop :=
  exists first last, parts.lookup span.startPartId = some first ∧
    parts.lookup span.endPartId = some last ∧ first.digest = last.digest ∧
    Selectable parts ordered first last ∧
    selected = between (ordered.map fun entry => templatePartKey entry.2)
      (nativePlace ordered first) (nativePlace ordered last)

theorem expandSpan_of_chosen (hperm : ordered.Perm registered) {entry : Span × Nat}
    {selected : List PartKey} (h : Chosen parts ordered entry.1 selected)
    (state : List String × List PartKey) :
    checkSpan parts path entry = .ok () ∧
      expandSpan parts (ordered.map fun entry => templatePartKey entry.2) path state entry =
        .ok (selected.foldl (addSelected parts) state) := by
  rcases h with ⟨first, last, hfirst, hlast, hdigest, hselectable, hselected⟩
  constructor
  · exact checkSpan_eq_ok.mpr ⟨first, last, hfirst, hlast, hdigest⟩
  · unfold expandSpan
    rw [ok_bind ((selectSpan_eq_ok hpool hperm hfirst hlast).mpr ⟨hselectable, hselected⟩)]
    rfl

theorem chosen_of_expandSpan (hperm : ordered.Perm registered) {entry : Span × Nat}
    {state state' : List String × List PartKey} (hcheck : checkSpan parts path entry = .ok ())
    (hexpand : expandSpan parts (ordered.map fun entry => templatePartKey entry.2) path state
      entry = .ok state') :
    exists selected, Chosen parts ordered entry.1 selected ∧
      state' = selected.foldl (addSelected parts) state := by
  rcases checkSpan_eq_ok.mp hcheck with ⟨first, last, hfirst, hlast, hdigest⟩
  unfold expandSpan at hexpand
  rcases bind_eq_ok hexpand with ⟨selected, hselect, hstate⟩
  rcases (selectSpan_eq_ok hpool hperm hfirst hlast).mp hselect with ⟨hselectable, hselected⟩
  cases hstate
  exact ⟨selected, ⟨first, last, hfirst, hlast, hdigest, hselectable, hselected⟩, rfl⟩

variable {spans : List Span}

theorem expandSpans_of_chosen (hperm : ordered.Perm registered) {choices : List (List PartKey)}
    (h : List.Forall₂ (Chosen parts ordered) spans choices) (n : Nat)
    (state : List String × List PartKey) :
    (spans.zipIdx n).forM (checkSpan parts path) = .ok () ∧
      (spans.zipIdx n).foldlM
        (expandSpan parts (ordered.map fun entry => templatePartKey entry.2) path) state =
          .ok (choices.flatten.foldl (addSelected parts) state) := by
  induction h generalizing n state with
  | nil =>
      exact ⟨rfl, rfl⟩
  | @cons span selected spans choices hfirst _ ih =>
      have hspan := @expandSpan_of_chosen parts registered ordered path hpool hperm
        (span, n) selected
        hfirst state
      rcases ih (n + 1) (selected.foldl (addSelected parts) state) with ⟨hchecks, hexpands⟩
      rw [List.zipIdx_cons, List.foldlM_cons, ok_bind hspan.2, List.flatten_cons,
        List.foldl_append]
      exact ⟨(ok_bind hspan.1).trans hchecks, hexpands⟩

theorem chosen_of_expandSpans (hperm : ordered.Perm registered)
    {n : Nat} {state state' : List String × List PartKey}
    (hchecks : (spans.zipIdx n).forM (checkSpan parts path) = .ok ())
    (hexpands : (spans.zipIdx n).foldlM
      (expandSpan parts (ordered.map fun entry => templatePartKey entry.2) path) state =
        .ok state') :
    exists choices, List.Forall₂ (Chosen parts ordered) spans choices ∧
      state' = choices.flatten.foldl (addSelected parts) state := by
  induction spans generalizing n state with
  | nil =>
      cases hexpands
      exact ⟨[], .nil, rfl⟩
  | cons span rest ih =>
      rw [List.zipIdx_cons] at hchecks
      rw [List.zipIdx_cons, List.foldlM_cons] at hexpands
      rcases bind_eq_ok hchecks with ⟨_, hcheck, hchecks⟩
      rcases bind_eq_ok hexpands with ⟨next, hexpand, hexpands⟩
      rcases chosen_of_expandSpan hpool hperm hcheck hexpand with ⟨selected, hchosen, rfl⟩
      rcases ih hchecks hexpands with ⟨choices, hall, rfl⟩
      refine ⟨selected :: choices, .cons hchosen hall, ?_⟩
      rw [List.flatten_cons, List.foldl_append]

/-- A request is expanded if each of its spans is accepted. -/
theorem expandTemplateSpans_eq_ok (hspans : spans ≠ []) {result : List String} :
    expandTemplateSpans repository parts spans path registered = .ok result <->
      exists ordered choices, orderedTemplateParts repository registered = .ok ordered ∧
        List.Forall₂ (Chosen parts ordered) spans choices ∧
        result = (choices.flatten.foldl (addSelected parts) ([], [])).1 := by
  unfold expandTemplateSpans
  rw [if_neg hspans]
  constructor
  · intro h
    rcases bind_eq_ok h with ⟨_, hchecks, h⟩
    rcases bind_eq_ok h with ⟨ordered, hordered, h⟩
    rcases bind_eq_ok h with ⟨state, hexpands, h⟩
    cases h
    rcases chosen_of_expandSpans hpool (perm_orderedTemplateParts hordered) hchecks hexpands with
      ⟨choices, hall, rfl⟩
    exact ⟨ordered, choices, hordered, hall, rfl⟩
  · rintro ⟨ordered, choices, hordered, hall, rfl⟩
    rcases expandSpans_of_chosen hpool (perm_orderedTemplateParts hordered) hall 0 ([], []) with
      ⟨hchecks, hexpands⟩
    rw [ok_bind hchecks, ok_bind hordered]
    exact ok_bind hexpands

theorem expand_one {span : Span} {result : List String} :
    expandTemplateSpans repository parts [span] path registered = .ok result <->
      exists ordered, orderedTemplateParts repository registered = .ok ordered ∧
        exists selected, Chosen parts ordered span selected ∧
          result = selected.filterMap (aliasOf parts) := by
  rw [expandTemplateSpans_eq_ok hpool (List.cons_ne_nil span [])]
  have hresult : forall {ordered : PartPool} {selected : List PartKey},
      orderedTemplateParts repository registered = .ok ordered ->
      Chosen parts ordered span selected ->
      ([selected].flatten.foldl (addSelected parts) ([], [])).1 =
        selected.filterMap (aliasOf parts) := by
    rintro ordered selected hordered ⟨first, last, _, _, _, _, rfl⟩
    have hkeys := keys_nodup hpool (perm_orderedTemplateParts hordered)
    rw [List.flatten_singleton, foldl_addSelected_of_nodup _ _ (nodup_between hkeys _ _)
      (fun _ _ hmem => List.not_mem_nil hmem)]
    exact List.nil_append _
  constructor
  · rintro ⟨ordered, choices, hordered, hall, rfl⟩
    cases hall with
    | cons hchosen hrest =>
        cases hrest
        exact ⟨ordered, hordered, _, hchosen, hresult hordered hchosen⟩
  · rintro ⟨ordered, hordered, selected, hchosen, rfl⟩
    exact ⟨ordered, [selected], hordered, .cons hchosen .nil, (hresult hordered hchosen).symm⟩

/-- Accepted spans expand together to the parts of all of them. -/
theorem expand_union {path' : List PathStep}
    {results : List (List String)} (hall : List.Forall₂ (fun span result =>
      expandTemplateSpans repository parts [span] path registered = .ok result) spans results) :
    exists result, expandTemplateSpans repository parts spans path' registered = .ok result ∧
      result.Nodup ∧ forall identity, identity ∈ result <->
        exists selected, selected ∈ results ∧ identity ∈ selected := by
  cases spans with
  | nil =>
      cases hall
      exact ⟨[], rfl, List.nodup_nil, by simp⟩
  | cons span rest =>
      have hordering : exists ordered,
          orderedTemplateParts repository registered = .ok ordered := by
        cases hall with
        | cons hfirst _ =>
            rcases (expand_one hpool).mp hfirst with ⟨ordered, hordered, _⟩
            exact ⟨ordered, hordered⟩
      rcases hordering with ⟨ordered, hordered⟩
      have hchoices : forall {spans : List Span} {results : List (List String)},
          List.Forall₂ (fun span result =>
            expandTemplateSpans repository parts [span] path registered = .ok result)
            spans results ->
          exists choices, List.Forall₂ (Chosen parts ordered) spans choices ∧
            results = choices.map fun selected => selected.filterMap (aliasOf parts) := by
        intro spans results h
        induction h with
        | nil =>
            exact ⟨[], .nil, rfl⟩
        | cons hfirst _ ih =>
            rcases ih with ⟨choices, hrest, rfl⟩
            rcases (expand_one hpool).mp hfirst with ⟨ordered', hordered', selected, hchosen, rfl⟩
            have hsame : ordered' = ordered := by
              rw [hordered'] at hordered
              cases hordered
              rfl
            rw [hsame] at hchosen
            exact ⟨selected :: choices, .cons hchosen hrest, rfl⟩
      rcases hchoices hall with ⟨choices, hchosen, rfl⟩
      have hempty : Collected parts [] (([], []) : List String × List PartKey) :=
        ⟨List.nodup_nil, rfl, fun _ => Iff.rfl⟩
      have hcollected := hempty.fold choices.flatten
      refine ⟨_, (expandTemplateSpans_eq_ok hpool (List.cons_ne_nil span rest)).mpr
        ⟨ordered, choices, hordered, hchosen, rfl⟩, ?_, ?_⟩
      · rw [hcollected.identities]
        exact nodup_filterMap_alias hpool hcollected.nodup
      · intro identity
        rw [hcollected.identities, List.mem_filterMap]
        constructor
        · rintro ⟨key, hkey, halias⟩
          rw [hcollected.mem_iff, List.nil_append, List.mem_flatten] at hkey
          rcases hkey with ⟨selected, hselected, hkey⟩
          exact ⟨_, List.mem_map.mpr ⟨selected, hselected, rfl⟩,
            List.mem_filterMap.mpr ⟨key, hkey, halias⟩⟩
        · rintro ⟨_, hresult, hidentity⟩
          rcases List.mem_map.mp hresult with ⟨selected, hselected, rfl⟩
          rcases List.mem_filterMap.mp hidentity with ⟨key, hkey, halias⟩
          refine ⟨key, ?_, halias⟩
          rw [hcollected.mem_iff, List.nil_append]
          exact List.mem_flatten.mpr ⟨selected, hselected, hkey⟩

end Pool

/-!
# Runs
-/

theorem templatePartRuns_eq_ok (hparts : parts ≠ []) {runs : List (String × String)} :
    templatePartRuns repository parts registered = .ok runs <->
      exists ordered, orderedTemplateParts repository registered = .ok ordered ∧
        runs = MaximalRuns.walk (fun entry => aliasOf parts (templatePartKey entry.2))
          (fun entry => entry.2.digest) ordered := by
  unfold templatePartRuns
  rw [if_neg hparts]
  constructor
  · intro h
    rcases bind_eq_ok h with ⟨ordered, hordered, h⟩
    cases h
    exact ⟨ordered, hordered, rfl⟩
  · rintro ⟨ordered, hordered, rfl⟩
    rw [ok_bind hordered]
    rfl

/-- Advertised runs are the selectable spans, and accepted spans are united. -/
theorem advertised_iff_selectable (hpool : SubPool parts registered) (path' : List PathStep) :
    (forall a b, a ∈ parts -> b ∈ parts -> templatePartKey a.2 ≠ templatePartKey b.2 ->
      forall result,
        expandTemplateSpans repository parts [⟨a.1, b.1⟩] path registered = .ok result <->
          exists ordered runs, orderedTemplateParts repository registered = .ok ordered ∧
            templatePartRuns repository parts registered = .ok runs ∧
            SameRun parts ordered runs a.2 b.2 ∧
            result = visibleBetween parts ordered a.2 b.2) ∧
      forall spans results, List.Forall₂ (fun span result =>
        expandTemplateSpans repository parts [span] path registered = .ok result) spans results ->
        exists result, expandTemplateSpans repository parts spans path' registered = .ok result ∧
          result.Nodup ∧ forall identity, identity ∈ result <->
            exists selected, selected ∈ results ∧ identity ∈ selected := by
  constructor
  · intro a b ha hb hkeys result
    have hparts : parts ≠ [] := List.ne_nil_of_mem ha
    have hfirst := hpool.lookup_eq_some.mpr ha
    have hlast := hpool.lookup_eq_some.mpr hb
    rw [expand_one hpool]
    constructor
    · rintro ⟨ordered, hordered, selected, hchosen, rfl⟩
      rcases hchosen with ⟨first, last, hstart, hstop, hsame, hselectable, rfl⟩
      rw [hfirst] at hstart
      rw [hlast] at hstop
      cases hstart
      cases hstop
      refine ⟨ordered, _, hordered, (templatePartRuns_eq_ok hparts).mpr ⟨ordered, hordered, rfl⟩,
        (sameRun_iff hpool hordered ha hb hkeys).mpr ⟨hsame, hselectable⟩, ?_⟩
      exact filterMap_between hpool (perm_orderedTemplateParts hordered) hselectable.inOrder
    · rintro ⟨ordered, runs, hordered, hruns, hsameRun, rfl⟩
      rcases (templatePartRuns_eq_ok hparts).mp hruns with ⟨ordered', hordered', rfl⟩
      rw [hordered] at hordered'
      cases hordered'
      rcases (sameRun_iff hpool hordered ha hb hkeys).mp hsameRun with ⟨hsame, hselectable⟩
      exact ⟨ordered, hordered, _, ⟨a.2, b.2, hfirst, hlast, hsame, hselectable, rfl⟩,
        (filterMap_between hpool (perm_orderedTemplateParts hordered) hselectable.inOrder).symm⟩
  · intro spans results hall
    exact expand_union hpool hall

/-- Four paragraphs of a document and one of another. -/
def paragraphs : PartPool :=
  [("p1", ⟨"d", "u1", [], none⟩), ("p2", ⟨"d", "u2", [], none⟩), ("p3", ⟨"d", "u3", [], none⟩),
    ("p4", ⟨"d", "u4", [], none⟩), ("p5", ⟨"e", "u1", [], none⟩)]

/-- The third is not shown. -/
def shownParagraphs : PartPool :=
  paragraphs.filter fun entry => entry.1 ≠ "p3"

def paragraphUnits (_ : String) : Except TemplateError (List String) :=
  .ok ["u1", "u2", "u3", "u4"]

theorem subPool_paragraphs : SubPool shownParagraphs paragraphs where
  identities := by decide
  keys := by decide
  registeredKeys := by decide
  registered := by decide

/-- The first two can be selected together, the second and the fourth cannot. -/
theorem advertised_paragraphs :
    (exists ordered runs, orderedTemplateParts paragraphUnits paragraphs = .ok ordered ∧
      templatePartRuns paragraphUnits shownParagraphs paragraphs = .ok runs ∧
      SameRun shownParagraphs ordered runs ⟨"d", "u1", [], none⟩ ⟨"d", "u2", [], none⟩ ∧
      ["p1", "p2"] = visibleBetween shownParagraphs ordered ⟨"d", "u1", [], none⟩
        ⟨"d", "u2", [], none⟩) ∧
    (forall ordered runs, orderedTemplateParts paragraphUnits paragraphs = .ok ordered ->
      templatePartRuns paragraphUnits shownParagraphs paragraphs = .ok runs ->
      ¬ SameRun shownParagraphs ordered runs ⟨"d", "u2", [], none⟩ ⟨"d", "u4", [], none⟩) ∧
    exists result, expandTemplateSpans paragraphUnits shownParagraphs
        [⟨"p1", "p2"⟩, ⟨"p5", "p5"⟩, ⟨"p2", "p2"⟩] [] paragraphs = .ok result ∧
      result.Nodup ∧ forall identity, identity ∈ result <->
        exists selected, selected ∈ [["p1", "p2"], ["p5"], ["p2"]] ∧ identity ∈ selected := by
  have hclaim := @advertised_iff_selectable paragraphUnits shownParagraphs paragraphs []
    subPool_paragraphs []
  refine ⟨?_, ?_, ?_⟩
  · exact (hclaim.1 ("p1", ⟨"d", "u1", [], none⟩) ("p2", ⟨"d", "u2", [], none⟩) (by decide)
      (by decide) (by decide) ["p1", "p2"]).mp (by rfl)
  · intro ordered runs hordered hruns hsame
    have hexpand := (hclaim.1 ("p2", ⟨"d", "u2", [], none⟩) ("p4", ⟨"d", "u4", [], none⟩)
      (by decide) (by decide) (by decide) _).mpr ⟨ordered, runs, hordered, hruns, hsame, rfl⟩
    cases hexpand
  · exact hclaim.2 [⟨"p1", "p2"⟩, ⟨"p5", "p5"⟩, ⟨"p2", "p2"⟩] [["p1", "p2"], ["p5"], ["p2"]]
      (.cons (by rfl) (.cons (by rfl) (.cons (by rfl) .nil)))

end Templates
end KnowledgeBrain
