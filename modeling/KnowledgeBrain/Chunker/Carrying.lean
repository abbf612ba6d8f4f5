import KnowledgeBrain.Chunker.Strides

/-!
# Groups that are carried over

The next group starts where the one before it started when the overlap has room
for all of its units, and the header that is put in front of them drops none.
-/

namespace KnowledgeBrain
namespace Chunker

open Foundation MergeState

/-- A unit that an overlap can start with. -/
def Solid (u : SplitUnit) : Prop :=
  isBlank u.text = false ∧ isSeparatorOnly u.text = false

namespace MergeState

/-- The units of the group, without the header in front of them. -/
def groupRun (s : MergeState) : List SplitUnit :=
  s.current.filter fun u => u.start != u.stop

/-- The header that is put in front of some units drops none of them: there is
none, or it is too long beside the unit, or all have room. -/
def Spared (chunkSize : Nat) (headers : Text) (u : SplitUnit) (run : List SplitUnit) : Prop :=
  headers = [] ∨ chunkSize < headers.length + u.text.length ∨
    place run + (u.text.length + headers.length) ≤ chunkSize

/-- The unit does not fit into the group, and the overlap has room for all units
of the group, also beside the unit and the header that is put in front. -/
structure CarriesAll (p : Patterns) (chunkSize chunkOverlap : Nat) (s : MergeState)
    (u : SplitUnit) : Prop where
  full : Overflows p chunkSize s u
  overlap : place s.groupRun ≤ chunkOverlap
  room : place s.groupRun + u.text.length ≤ chunkSize
  solid : exists first, s.groupRun.head? = some first ∧ Solid first
  header : Spared chunkSize (usableHeaders chunkSize (watched p s u).ht) u s.groupRun

end MergeState

section Carrying

variable {p : Patterns} {chunkSize chunkOverlap : Nat} {units run header : List SplitUnit}

variable {a nextLen : Nat} {u : SplitUnit}

theorem laid_ne (hlaid : Laid a run) : forall v, v ∈ run -> v.start ≠ v.stop := by
  induction run generalizing a with
  | nil =>
      intro v hv
      cases hv
  | cons first run ih =>
      rcases hlaid with ⟨hstart, hne, hstop, hrest⟩
      intro v hv
      rcases List.mem_cons.mp hv with rfl | hv
      · have hpos := List.length_pos_iff.mpr hne
        omega
      · exact ih hrest v hv

/-- Units that fit into the overlap are all taken. -/
theorem overlapTail_all (more kept : List SplitUnit) (overlapLen : Nat)
    (hoverlap : overlapLen + place run ≤ chunkOverlap)
    (hroom : overlapLen + place run + nextLen ≤ chunkSize) :
    overlapTail chunkOverlap chunkSize nextLen (run ++ more) kept overlapLen =
      overlapTail chunkOverlap chunkSize nextLen more (run.reverse ++ kept)
        (overlapLen + place run) := by
  induction run generalizing kept overlapLen with
  | nil =>
      rfl
  | cons v run ih =>
      rw [place_cons] at hoverlap hroom
      rw [List.cons_append]
      simp only [overlapTail]
      rw [if_neg (by omega), if_neg (by omega), ih (v :: kept) _ (by omega) (by omega),
        List.reverse_cons, place_cons, List.append_assoc, List.singleton_append, Nat.add_assoc]

theorem trimOverlap_solid (kept : List SplitUnit) (overlapLen : Nat) :
    forall first, (trimOverlap kept overlapLen).1.head? = some first -> Solid first := by
  induction kept generalizing overlapLen with
  | nil =>
      intro first hfirst
      cases hfirst
  | cons v rest ih =>
      simp only [trimOverlap]
      split
      · exact ih _
      · rename_i hkept
        intro first hfirst
        cases hfirst
        simp only [Bool.or_eq_true, not_or, Bool.not_eq_true] at hkept
        exact ⟨hkept.1.2, hkept.2⟩

theorem trimOverlap_of_solid {first : SplitUnit} {rest : List SplitUnit} {overlapLen : Nat}
    (hne : first.start ≠ first.stop) (hsolid : Solid first) :
    (trimOverlap (first :: rest) overlapLen).1 = first :: rest := by
  simp only [trimOverlap]
  rw [if_neg]
  simp [hne, hsolid.1, hsolid.2]

theorem place_reverse (us : List SplitUnit) : place us.reverse = place us := by
  induction us with
  | nil =>
      rfl
  | cons v us ih =>
      rw [List.reverse_cons, place_append, ih, place_cons, place_cons, place_nil, Nat.add_zero,
        Nat.add_comm]

/-- The overlap is all units of a group exactly when they fit and do not start blank. -/
theorem computeOverlap_all_iff (hlaid : Laid a run) (hopen : run ≠ [])
    (hheader : header = [] ∨ exists text, header = [⟨text, a, a⟩]) :
    (computeOverlap (header ++ run) chunkOverlap chunkSize nextLen).1 = run <->
      place run ≤ chunkOverlap ∧ place run + nextLen ≤ chunkSize ∧
        exists first, run.head? = some first ∧ Solid first := by
  constructor
  · intro hall
    rcases computeOverlap_measured (header ++ run) chunkOverlap chunkSize nextLen with
      ⟨hmeasured, hroom⟩
    have hcounted := hmeasured.counted
    rw [hall] at hcounted hroom
    refine ⟨hcounted ▸ hmeasured.within, hcounted ▸ hroom.resolve_left hopen, ?_⟩
    cases hrun : run with
    | nil =>
        exact absurd hrun hopen
    | cons first rest =>
        refine ⟨first, rfl, ?_⟩
        unfold computeOverlap at hall
        split at hall
        · exact absurd hall.symm hopen
        · apply trimOverlap_solid _ _ first
          rw [hall, hrun]
          rfl
  · rintro ⟨hoverlap, hroom, first, hfirst, hsolid⟩
    cases hrun : run with
    | nil =>
        exact absurd hrun hopen
    | cons v rest =>
        rw [hrun] at hfirst hlaid
        cases hfirst
        have hpos := List.length_pos_iff.mpr hlaid.2.1
        have hne := laid_ne hlaid first List.mem_cons_self
        have hsome : chunkOverlap ≠ 0 := by
          rw [hrun, place_cons] at hoverlap
          omega
        have htail : overlapTail chunkOverlap chunkSize nextLen (header ++ run).reverse [] 0 =
            overlapTail chunkOverlap chunkSize nextLen header.reverse run (place run) := by
          rw [List.reverse_append,
            overlapTail_all _ [] 0 (by rwa [place_reverse, Nat.zero_add])
              (by rwa [place_reverse, Nat.zero_add]),
            List.reverse_reverse, List.append_nil, place_reverse, Nat.zero_add]
        unfold computeOverlap
        rw [if_neg hsome, ← hrun, htail, hrun]
        dsimp only
        rcases hheader with rfl | ⟨text, rfl⟩
        · exact trimOverlap_of_solid hne hsolid
        · simp only [List.reverse_singleton, overlapTail]
          split
          · exact trimOverlap_of_solid hne hsolid
          · split
            · exact trimOverlap_of_solid hne hsolid
            · rw [trimOverlap, if_pos (by simp)]
              exact trimOverlap_of_solid hne hsolid

theorem shrink_all_iff {extra : Nat} (hopen : run ≠ []) :
    (shrink chunkSize extra run (place run)).1 = run <->
      place run + extra ≤ chunkSize := by
  cases run with
  | nil =>
      exact absurd rfl hopen
  | cons v rest =>
      simp only [shrink]
      split
      · rename_i hlong
        constructor
        · intro hall
          have hsuffix := shrink_suffix chunkSize extra rest (place (v :: rest) - v.text.length)
          rw [hall] at hsuffix
          exact absurd hsuffix.length_le (by simp)
        · intro hfits
          exact absurd hlong (Nat.not_lt.mpr hfits)
      · rename_i hfits
        exact ⟨fun _ => Nat.le_of_not_lt hfits, fun _ => rfl⟩

namespace MergeState

/-- The units that stay when the header is put in front of them. -/
def keptUnits (chunkSize : Nat) (headers : Text) (u : SplitUnit) (s : MergeState) :
    List SplitUnit :=
  if headers ≠ [] ∧ headers.length + u.text.length ≤ chunkSize then
    (shrink chunkSize (u.text.length + headers.length) s.current s.curLen).1
  else s.current

theorem overflow_full {headers : Text} {s : MergeState} (hopen : s.current ≠ [])
    (hlong : chunkSize < s.curLen + u.text.length + headers.length) :
    overflow p chunkSize chunkOverlap headers u s = injectHeader p chunkSize headers u
      { s.flush with
        current := (computeOverlap s.current chunkOverlap chunkSize u.text.length).1
        curLen := (computeOverlap s.current chunkOverlap chunkSize u.text.length).2 } := by
  unfold overflow
  rw [if_pos (by simpa using ⟨hlong, hopen⟩)]

theorem injectHeader_start (headers : Text) (u : SplitUnit) (s : MergeState) :
    (keptUnits chunkSize headers u s ≠ [] -> (injectHeader p chunkSize headers u s).current ≠ []) ∧
      ((injectHeader p chunkSize headers u s).current ≠ [] ->
        (injectHeader p chunkSize headers u s).groupStart =
          ((keptUnits chunkSize headers u s).head?.map SplitUnit.start).getD u.start) := by
  have hplain : forall {kept : List SplitUnit}, kept ≠ [] ->
      (kept.head?.map SplitUnit.start).getD 0 = (kept.head?.map SplitUnit.start).getD u.start := by
    intro kept hkept
    cases kept with
    | nil =>
        exact absurd rfl hkept
    | cons v rest =>
        rfl
  unfold injectHeader keptUnits
  by_cases hfits : headers ≠ [] ∧ headers.length + u.text.length ≤ chunkSize
  · rw [if_pos hfits, if_pos (by simpa using hfits)]
    dsimp only
    split
    · exact ⟨fun _ => List.cons_ne_nil _ _, fun _ => rfl⟩
    · exact ⟨id, hplain⟩
  · rw [if_neg hfits, if_neg (by simpa using hfits)]
    exact ⟨id, hplain⟩

end MergeState

/-- Some last units of a group start where it starts exactly when they are all of it. -/
theorem start_le_iff {kept : List SplitUnit} (hlaid : Laid a run) (hopen : run ≠ [])
    (hsuffix : kept <:+ run) (hu : u.start = a + place run) :
    (kept.head?.map SplitUnit.start).getD u.start ≤ a <-> kept = run := by
  rcases hsuffix with ⟨dropped, rfl⟩
  have hpos : forall {us : List SplitUnit} {b : Nat}, Laid b us -> us ≠ [] -> 0 < place us := by
    intro us b hus hne
    cases us with
    | nil =>
        exact absurd rfl hne
    | cons v us =>
        have hlength := List.length_pos_iff.mpr hus.2.1
        rw [place_cons]
        omega
  cases kept with
  | nil =>
      constructor
      · intro hle
        have hlong := hpos hlaid hopen
        rw [show (([] : List SplitUnit).head?.map SplitUnit.start).getD u.start = u.start from rfl]
          at hle
        omega
      · intro heq
        exact absurd heq.symm hopen
  | cons v rest =>
      rcases laid_append.mp hlaid with ⟨hdropped, hkept⟩
      have hstart : v.start = a + place dropped := hkept.1
      show v.start ≤ a <-> _
      constructor
      · intro hle
        have hnone : dropped = [] := by
          by_contra hne
          have hlong := hpos hdropped hne
          omega
        rw [hnone]
        rfl
      · intro heq
        have hnone : dropped = [] := by
          have hlength := congrArg List.length heq
          rw [List.length_append] at hlength
          exact List.length_eq_zero_iff.mp (by omega)
        rw [hstart, hnone, place_nil]
        exact Nat.le_refl _

/-- An overlap does not start with the header of the group. -/
theorem suffix_of_header {ov : List SplitUnit}
    (hheader : header = [] ∨ exists text, header = [⟨text, a, a⟩]) (hsuffix : ov <:+ header ++ run)
    (hhead : forall v, ov.head? = some v -> v.start ≠ v.stop) : ov <:+ run := by
  rcases hheader with rfl | ⟨text, rfl⟩
  · exact hsuffix
  · rw [List.singleton_append, List.suffix_cons_iff] at hsuffix
    rcases hsuffix with rfl | hrun
    · exact absurd rfl (hhead _ rfl)
    · exact hrun

/-- The next group starts where the one before it started exactly when the overlap
is all of it and the header drops nothing of that. -/
theorem carried_iff {headers : Text} {s : MergeState} (hlaid : Laid a run) (hopen : run ≠ [])
    (hsuffix : s.current <:+ run) (hcounted : s.curLen = place s.current)
    (hu : u.start = a + place run) :
    (injectHeader p chunkSize headers u s).current ≠ [] ∧
        (injectHeader p chunkSize headers u s).groupStart ≤ a <->
      s.current = run ∧ Spared chunkSize headers u run := by
  rcases @injectHeader_start p chunkSize headers u s with ⟨hnonempty, hstart⟩
  have hkept : keptUnits chunkSize headers u s = run <->
      s.current = run ∧ Spared chunkSize headers u run := by
    unfold keptUnits
    by_cases hfits : headers ≠ [] ∧ headers.length + u.text.length ≤ chunkSize
    · rw [if_pos hfits]
      constructor
      · intro hall
        have hback := shrink_suffix chunkSize (u.text.length + headers.length) s.current s.curLen
        rw [hall] at hback
        have hsame := hsuffix.eq_of_length_le hback.length_le
        rw [hcounted, hsame] at hall
        exact ⟨hsame, Or.inr (Or.inr ((shrink_all_iff hopen).mp hall))⟩
      · rintro ⟨hsame, hroom⟩
        rw [hcounted, hsame]
        apply (shrink_all_iff hopen).mpr
        rcases hroom with hnone | hlong | hroom
        · exact absurd hnone hfits.1
        · exact absurd hfits.2 (Nat.not_le.mpr hlong)
        · exact hroom
    · rw [if_neg hfits]
      refine ⟨fun hsame => ⟨hsame, ?_⟩, And.left⟩
      by_cases hnone : headers = []
      · exact Or.inl hnone
      · exact Or.inr (Or.inl (Nat.lt_of_not_le fun hle => hfits ⟨hnone, hle⟩))
  have hkeptSuffix : keptUnits chunkSize headers u s <:+ run := by
    unfold keptUnits
    split
    · exact (shrink_suffix _ _ _ _).trans hsuffix
    · exact hsuffix
  rw [← hkept, ← start_le_iff hlaid hopen hkeptSuffix hu]
  constructor
  · rintro ⟨hne, hle⟩
    rw [← hstart hne]
    exact hle
  · intro hle
    have hne := hnonempty (((start_le_iff hlaid hopen hkeptSuffix hu).mp hle).symm ▸ hopen)
    exact ⟨hne, (hstart hne).symm ▸ hle⟩

/-- The last unit of a group is not a header. -/
theorem after_last (hlaid : Laid 0 units) (pre rest : List SplitUnit)
    (hunits : units = pre ++ rest) :
    (after p chunkSize chunkOverlap pre).current = [] ∨ exists init v,
      (after p chunkSize chunkOverlap pre).current = init ++ [v] ∧ v.start ≠ v.stop := by
  cases pre using List.reverseRecOn with
  | nil =>
      exact Or.inl rfl
  | append_singleton pre u =>
      rw [List.append_assoc, List.singleton_append] at hunits
      rcases laid_start hlaid hunits with ⟨hstart, hstop, hne⟩
      have hpos := List.length_pos_iff.mpr hne
      rw [after_concat]
      unfold step
      split
      · left
        show (flushNonempty _).current = []
        rcases flushNonempty_cases (after p chunkSize chunkOverlap pre) with
          ⟨hnil, hsame⟩ | ⟨_, hflush⟩
        · rw [hsame]
          exact hnil
        · rw [hflush]
          rfl
      · right
        exact ⟨_, u, rfl, by omega⟩

/-- The overlap starts where the group starts exactly when it carries all of its units. -/
theorem reopens_iff (hlaid : Laid 0 units) {pre rest : List SplitUnit}
    (hunits : units = pre ++ u :: rest) :
    Reopens p chunkSize chunkOverlap
        (after p chunkSize chunkOverlap pre) u <->
      CarriesAll p chunkSize chunkOverlap
        (after p chunkSize chunkOverlap pre) u := by
  rcases loop_after p chunkSize chunkOverlap hlaid pre (u :: rest) hunits with ⟨front, hloop⟩
  have hlast := @after_last p chunkSize chunkOverlap units hlaid pre (u :: rest) hunits
  have hstart := (laid_start hlaid hunits).1
  generalize after p chunkSize chunkOverlap pre = s at hloop hlast ⊢
  suffices hiff : Overflows p chunkSize s u ->
      ((opening p chunkSize chunkOverlap s u).current ≠ [] ∧
        (opening p chunkSize chunkOverlap s u).groupStart ≤ s.groupStart <->
      (place s.groupRun ≤ chunkOverlap ∧ place s.groupRun + u.text.length ≤ chunkSize ∧
        exists first, s.groupRun.head? = some first ∧ Solid first) ∧
        Spared chunkSize (usableHeaders chunkSize (watched p s u).ht) u s.groupRun) by
    constructor
    · rintro ⟨hfull, hback⟩
      rcases (hiff hfull).mp hback with ⟨⟨hoverlap, hroom, hsolid⟩, hheader⟩
      exact ⟨hfull, hoverlap, hroom, hsolid, hheader⟩
    · intro h
      exact ⟨h.full, (hiff h.full).mpr ⟨⟨h.overlap, h.room, h.solid⟩, h.header⟩⟩
  intro hfull
  have hcurrent : (watched p s u).current = s.current := by
    rcases watched_cases p s u with ⟨_, hsame, _⟩ | ⟨_, hnil, _⟩
    · exact hsame
    · exact absurd hnil hfull.1
  have hopen : s.current ≠ [] := hcurrent ▸ hfull.1
  rcases hloop.group.window with ⟨before, header, run, hpre, hgroup, hheader, _, _, _⟩
  have hshape : header = [] ∨ exists text, header = [⟨text, place before, place before⟩] :=
    hheader.imp id fun ⟨text, heq, _⟩ => ⟨text, heq⟩
  have hrunLaid : Laid (place before) run := by
    have hall : units = before ++ run ++ u :: rest := by
      rw [hunits, hpre]
    exact laid_window hall hlaid
  have hrun : run ≠ [] := by
    rintro rfl
    rw [List.append_nil] at hgroup
    rcases hlast with hnil | ⟨init, v, hend, hne⟩
    · exact hopen hnil
    · rcases hshape with rfl | ⟨text, rfl⟩
      · exact hopen hgroup
      · rw [hend] at hgroup
        have hv := congrArg List.getLast? hgroup
        rw [List.getLast?_concat] at hv
        cases hv
        exact hne rfl
  have hgroupRun : s.groupRun = run := by
    unfold groupRun
    rw [hgroup, List.filter_append]
    have hall : run.filter (fun v => v.start != v.stop) = run := by
      apply List.filter_eq_self.mpr
      intro v hv
      simpa using laid_ne hrunLaid v hv
    rw [hall]
    rcases hshape with rfl | ⟨text, rfl⟩
    · rfl
    · simp
  have hgroupStart : s.groupStart = place before :=
    (hgroup ▸ (buildChunk_ends hrunLaid hshape (hgroup ▸ hopen) 0).1 :)
  have hu : u.start = place before + place run := by
    rw [hstart, hpre, place_append]
  have hwhole : (watched p s u).current = header ++ run := hcurrent.trans hgroup
  have hall := @computeOverlap_all_iff chunkSize chunkOverlap run header (place before)
    u.text.length hrunLaid hrun hshape
  rcases computeOverlap_suffix (header ++ run) chunkOverlap chunkSize u.text.length with
    ⟨hsuffix, hhead⟩
  have hkept := suffix_of_header hshape hsuffix hhead
  have hcounted := (computeOverlap_measured (header ++ run) chunkOverlap chunkSize
    u.text.length).1.counted
  rw [← hwhole] at hall hkept hcounted
  have hopening : opening p chunkSize chunkOverlap s u = _ :=
    overflow_full hfull.1 hfull.2
  rw [hgroupRun, hgroupStart, ← hall, hopening]
  exact carried_iff hrunLaid hrun hkept hcounted hu

end Carrying

/-- At some unit all units of the group before it are carried over. -/
def Carried (p : Patterns) (chunkSize chunkOverlap : Nat) (units : List SplitUnit) : Prop :=
  exists before u rest, units = before ++ u :: rest ∧ u.text.length ≤ hardCap ∧
    CarriesAll p chunkSize chunkOverlap
      (after p chunkSize chunkOverlap before) u

/-- The recursive splitter does not repeat itself on a text. -/
def SplitsOnward (p : Patterns) (cfg : SplitterConfig) (text : Text) : Prop :=
  ¬ ClosedTwice p (effectiveSize cfg.chunkSize) cfg.chunkOverlap
      (unitsOf p text cfg.chunkSize cfg.separators) ∧
    ¬ Carried p (effectiveSize cfg.chunkSize) cfg.chunkOverlap
      (unitsOf p text cfg.chunkSize cfg.separators)

theorem splitText_strides_iff (p : Patterns) (cfg : SplitterConfig) (text : Text) :
    Strides (splitText p text cfg.chunkSize cfg.chunkOverlap cfg.separators) <->
      SplitsOnward p cfg text := by
  have hlaid := (unitsOf_laid p text cfg.chunkSize cfg.separators).1
  rw [splitText_eq, mergeUnits_strides_iff hlaid]
  apply and_congr_right
  intro _
  apply not_congr
  constructor
  · rintro ⟨before, u, rest, hunits, hsize, hreopens⟩
    exact ⟨before, u, rest, hunits, hsize, (reopens_iff hlaid hunits).mp hreopens⟩
  · rintro ⟨before, u, rest, hunits, hsize, hcarries⟩
    exact ⟨before, u, rest, hunits, hsize, (reopens_iff hlaid hunits).mpr hcarries⟩

theorem SplitsOnward.advances {p : Patterns} {cfg : SplitterConfig} {text : Text}
    (h : SplitsOnward p cfg text) :
    Advances (splitText p text cfg.chunkSize cfg.chunkOverlap cfg.separators) := by
  rw [splitText_eq]
  exact (mergeUnits_advances_iff (unitsOf_laid p text cfg.chunkSize cfg.separators).1).mpr h.1

end Chunker
end KnowledgeBrain
