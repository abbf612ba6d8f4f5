import KnowledgeBrain.Chunker.Respects

/-!
# Injected headers

A chunk is longer than what it addresses exactly when the merging loop has put
the header of a table in front of its group.  Every tier has its long chunks from
that loop.
-/

namespace KnowledgeBrain
namespace Chunker

open Foundation MergeState

/-- The content is as long as the range. -/
def Plain (c : TextChunk) : Prop :=
  c.content.length = c.stop - c.start

/-- No unit is a header in front of the others. -/
def Unmarked (units : List SplitUnit) : Prop :=
  forall v, v ∈ units -> v.start ≠ v.stop

namespace MergeState

/-- A group that is full is closed, and the header is put in front of the next. -/
def putsHeader (p : Patterns) (chunkSize chunkOverlap : Nat) (headers : Text) (u : SplitUnit)
    (s : MergeState) : Bool :=
  let ov := computeOverlap s.current chunkOverlap chunkSize u.text.length
  let kept := (shrink chunkSize (u.text.length + headers.length) ov.1 ov.2).1
  decide (chunkSize < s.curLen + u.text.length + headers.length) && !s.current.isEmpty &&
    (!headers.isEmpty && decide (headers.length + u.text.length ≤ chunkSize)) &&
    (!headerAlreadyPresent headers (unitsText kept) u.text &&
      !p.headerColumnMismatch headers u.text)

/-- The branch of the loop that injects a header is taken at a unit. -/
def injects (p : Patterns) (chunkSize chunkOverlap : Nat) (s : MergeState) (u : SplitUnit) :
    Bool :=
  decide (u.text.length ≤ hardCap) &&
    putsHeader p chunkSize chunkOverlap (usableHeaders chunkSize (watched p s u).ht) u
      (watched p s u)

/-- It is taken at some unit from a state on. -/
def injectsFrom (p : Patterns) (chunkSize chunkOverlap : Nat) : MergeState -> List SplitUnit -> Bool
  | _, [] => false
  | s, u :: rest => injects p chunkSize chunkOverlap s u ||
      injectsFrom p chunkSize chunkOverlap (step p chunkSize chunkOverlap s u) rest

/-- No header is in a chunk or in the group that is open. -/
def Bare (s : MergeState) : Prop :=
  (forall c, c ∈ s.chunks -> Plain c) ∧ Unmarked s.current

end MergeState

section Loop

variable {p : Patterns} {chunkSize chunkOverlap : Nat} {done : Text} {s : MergeState}

variable {u : SplitUnit}

theorem plain_buildChunk {a : Nat} {current : List SplitUnit} (h : Collected done a current)
    (hne : current ≠ []) (seq : Nat) : Plain (buildChunk current seq) <-> Unmarked current := by
  rcases buildChunk_collected h hne seq with ⟨hstart, hstop, _⟩
  rcases h with ⟨hdr, run, rfl, hmarker, hlaid, _, hend⟩
  unfold Plain
  rw [hstart, hstop]
  show (unitsText (hdr ++ run)).length = _ <-> _
  rw [unitsText_append, List.length_append]
  rcases hmarker with rfl | ⟨text, hbar, rfl⟩
  · exact ⟨fun _ => laid_ne hlaid, fun _ => by simp; omega⟩
  · have hpos := List.length_pos_of_mem hbar
    constructor
    · intro hlength
      simp at hlength
      omega
    · intro hnone
      exact absurd rfl (hnone ⟨text, a, a⟩ List.mem_cons_self)

theorem bare_flushNonempty (hs : Merging done s) : Bare s.flushNonempty <-> Bare s := by
  rcases flushNonempty_cases s with ⟨_, hsame⟩ | ⟨hopen, hflush⟩
  · rw [hsame]
  · rcases hs.emitted with ⟨a, hcollected, _⟩
    rw [hflush]
    unfold Bare
    rw [← plain_buildChunk hcollected hopen s.chunks.length]
    constructor
    · rintro ⟨hchunks, _⟩
      exact ⟨fun c hc => hchunks c (List.mem_append_left _ hc),
        hchunks _ (List.mem_append_right _ List.mem_cons_self)⟩
    · rintro ⟨hchunks, hlast⟩
      refine ⟨fun c hc => ?_, fun v hv => by cases hv⟩
      rcases List.mem_append.mp hc with hc | hc
      · exact hchunks c hc
      · rw [List.mem_singleton.mp hc]
        exact hlast

theorem unmarked_injectHeader (headers : Text) (hs : Unmarked s.current) :
    Unmarked (injectHeader p chunkSize headers u s).current <->
      (!headers.isEmpty && decide (headers.length + u.text.length ≤ chunkSize) &&
        (!headerAlreadyPresent headers (unitsText (shrink chunkSize
          (u.text.length + headers.length) s.current s.curLen).1) u.text &&
          !p.headerColumnMismatch headers u.text)) = false := by
  have hkept : Unmarked (shrink chunkSize (u.text.length + headers.length) s.current s.curLen).1 :=
    fun v hv => hs v ((shrink_suffix _ _ _ _).subset hv)
  unfold injectHeader
  split
  · rename_i hfits
    rw [hfits, Bool.true_and]
    dsimp only
    split
    · rename_i hput
      rw [hput]
      refine ⟨fun hnone => absurd rfl (hnone _ List.mem_cons_self), fun h => by cases h⟩
    · rename_i hplain
      exact ⟨fun _ => by simpa using hplain, fun _ => hkept⟩
  · rename_i hnone
    exact ⟨fun _ => by simp only [Bool.eq_false_iff.mpr hnone, Bool.false_and], fun _ => hs⟩

theorem bare_overflow {headers : Text} (hs : Merging done s) :
    Bare (overflow p chunkSize chunkOverlap headers u s) <->
      Bare s ∧ putsHeader p chunkSize chunkOverlap headers u s = false := by
  unfold putsHeader
  by_cases hfull : s.current ≠ [] ∧ chunkSize < s.curLen + u.text.length + headers.length
  · rcases hs.emitted with ⟨a, hcollected, _⟩
    rcases computeOverlap_suffix s.current chunkOverlap chunkSize u.text.length with
      ⟨hsuffix, hhead⟩
    rcases collected_suffix hcollected hsuffix hhead with ⟨b, _, hlaid, _, _⟩
    have hflush := bare_flushNonempty hs
    rcases flushNonempty_cases s with ⟨hnil, _⟩ | ⟨_, hsame⟩
    · exact absurd hnil hfull.1
    · rw [hsame] at hflush
      have hinject := @unmarked_injectHeader p chunkSize { s.flush with
        current := (computeOverlap s.current chunkOverlap chunkSize u.text.length).1
        curLen := (computeOverlap s.current chunkOverlap chunkSize u.text.length).2 } u headers
        (laid_ne hlaid)
      rw [overflow_full hfull.1 hfull.2, ← hflush]
      have hclosed : (decide (chunkSize < s.curLen + u.text.length + headers.length) &&
          !s.current.isEmpty) = true := by simpa using ⟨hfull.2, hfull.1⟩
      rw [hclosed, Bool.true_and, ← hinject]
      unfold Bare
      rw [injectHeader_chunks]
      exact ⟨fun h => ⟨⟨h.1, fun v hv => by cases hv⟩, h.2⟩, fun h => ⟨h.1.1, h.2⟩⟩
  · have hkept : (decide (chunkSize < s.curLen + u.text.length + headers.length) &&
        !s.current.isEmpty) = false := by
      rw [Bool.eq_false_iff]
      intro hclosed
      rw [Bool.and_eq_true, decide_eq_true_eq] at hclosed
      exact hfull ⟨by simpa using hclosed.2, hclosed.1⟩
    have hsame : overflow p chunkSize chunkOverlap headers u s = s := by
      unfold overflow
      rw [if_neg (Bool.eq_false_iff.mp hkept)]
    rw [hsame, hkept]
    simp

theorem bare_push (hne : u.start ≠ u.stop) : Bare (push u s) <-> Bare s := by
  refine and_congr_right fun _ => ⟨fun h v hv => h v (List.mem_append_left _ hv), ?_⟩
  intro h v hv
  rcases List.mem_append.mp hv with hv | hv
  · exact h v hv
  · rw [List.mem_singleton.mp hv]
    exact hne

theorem bare_pieces {pieces : List SplitUnit} {chunks : List TextChunk} {a : Nat}
    (hlaid : Laid a pieces) :
    (forall c, c ∈ pieces.foldl (fun chunks piece =>
        chunks ++ [⟨piece.text, [], chunks.length, piece.start, piece.stop⟩]) chunks -> Plain c) <->
      forall c, c ∈ chunks -> Plain c := by
  constructor
  · intro h c hc
    exact h c ((pieces_chunks pieces chunks).subset hc)
  · intro h c hc
    rcases mem_pushPieces hc with hc | ⟨piece, seq, hpiece, rfl⟩
    · exact h c hc
    · have hlength := (hlaid.within piece hpiece).2.2
      show piece.text.length = piece.stop - piece.start
      omega

theorem bare_step (hs : Merging done s) (hstart : u.start = done.length) (hne : u.text ≠ [])
    (hstop : u.stop = done.length + u.text.length) :
    Bare (step p chunkSize chunkOverlap s u) <->
      Bare s ∧ injects p chunkSize chunkOverlap s u = false := by
  unfold step injects
  split
  · rename_i hlong
    rw [decide_eq_false (Nat.not_le.mpr hlong), Bool.false_and, ← bare_flushNonempty hs]
    unfold mergeOversize pushPieces Bare
    rw [bare_pieces (laid_forceSplitRunes u.text u.start).1]
    simp
  · rename_i hshort
    have hpos := List.length_pos_iff.mpr hne
    have htracked : Merging done { s with ht := s.ht.update p u.text } :=
      ⟨HeaderTracker.barred_update p u.text hs.barred, hs.emitted⟩
    have hwatched : Merging done (watched p s u) ∧ (Bare (watched p s u) <-> Bare s) := by
      unfold watched
      dsimp only
      split
      · exact ⟨merging_flushNonempty htracked, bare_flushNonempty htracked⟩
      · exact ⟨htracked, Iff.rfl⟩
    have hover := merging_overflow p chunkSize chunkOverlap hwatched.1
      (@usableHeaders_bar chunkSize _ hwatched.1.barred) hstart
    rw [decide_eq_true (Nat.le_of_not_lt hshort), Bool.true_and, ← hwatched.2,
      ← bare_overflow hwatched.1, mergeUnit_eq, bare_push (by omega)]
    unfold capCurrent
    split
    · exact bare_flushNonempty hover
    · exact Iff.rfl

theorem bare_foldl {units : List SplitUnit} (hs : Merging done s)
    (hlaid : Laid done.length units) :
    Bare (units.foldl (step p chunkSize chunkOverlap) s) <->
      Bare s ∧ injectsFrom p chunkSize chunkOverlap s units = false := by
  induction units generalizing done s with
  | nil =>
      exact ⟨fun h => ⟨h, rfl⟩, And.left⟩
  | cons u units ih =>
      rcases hlaid with ⟨hstart, hne, hstop, hrest⟩
      have hstep := merging_step p chunkSize chunkOverlap hs hstart hne hstop
      rw [List.foldl_cons, ih hstep (by rwa [List.length_append, ← hstop]),
        bare_step hs hstart hne hstop, injectsFrom, Bool.or_eq_false_iff, and_assoc]

end Loop

/-- The recursive splitter injects a header when it splits a text. -/
def splitInjects (p : Patterns) (cfg : SplitterConfig) (text : Text) : Bool :=
  injectsFrom p (effectiveSize cfg.chunkSize) cfg.chunkOverlap MergeState.start
    (unitsOf p text cfg.chunkSize cfg.separators)

theorem splitText_plain_iff (p : Patterns) (cfg : SplitterConfig) (text : Text) :
    (forall c, c ∈ splitText p text cfg.chunkSize cfg.chunkOverlap cfg.separators -> Plain c) <->
      splitInjects p cfg text = false := by
  have hlaid := (unitsOf_laid p text cfg.chunkSize cfg.separators).1
  have hempty : Laid ([] : Text).length (unitsOf p text cfg.chunkSize cfg.separators) := hlaid
  have hall := @bare_foldl p (effectiveSize cfg.chunkSize) cfg.chunkOverlap [] MergeState.start _
    merging_start hempty
  have hstart : Bare MergeState.start := by
    constructor
    · intro c hc
      cases hc
    · intro v hv
      cases hv
  have hmerged := merging_foldl p (effectiveSize cfg.chunkSize) cfg.chunkOverlap merging_start
    hempty
  rw [splitText_eq, ← show _ <-> splitInjects p cfg text = false from
    hall.trans (and_iff_right hstart), ← bare_flushNonempty hmerged]
  have hnil := (emitted_flushNonempty hmerged).1
  unfold Bare
  rw [hnil]
  exact ⟨fun h => ⟨h, fun v hv => by cases hv⟩, And.left⟩


/-!
# The tiers
-/

/-- What a block or section adds is as long as its range when nothing is injected. -/
theorem plain_relocate {seq base : Nat} {header : TextChunk -> Text} {subs : List TextChunk} :
    (forall c, c ∈ relocate seq base header subs -> Plain c) <->
      forall c, c ∈ subs -> Plain c := by
  induction subs generalizing seq with
  | nil =>
      exact Iff.rfl
  | cons sub subs ih =>
      simp only [relocate]
      rw [List.forall_mem_cons, List.forall_mem_cons, ih]
      apply and_congr_left
      intro _
      show sub.content.length = base + sub.stop - (base + sub.start) <-> _
      rw [Nat.add_sub_add_left]
      exact Iff.rfl

theorem plain_append {chunks more : List TextChunk} :
    (forall c, c ∈ chunks ++ more -> Plain c) <->
      (forall c, c ∈ chunks -> Plain c) ∧ forall c, c ∈ more -> Plain c :=
  List.forall_mem_append

section Tiers

variable (p : Patterns) (cfg : SplitterConfig)

/-- A header is injected into an oversize block, from a state on. -/
def blocksInject (t : Text) (bounds : List Boundary) : HeuristicState -> List Boundary -> Bool
  | _, [] => false
  | s, b :: rest =>
      (decide (cfg.chunkSize < b.runeStart - s.curEnd) &&
          splitInjects p cfg (slice t s.curEnd b.runeStart)) ||
        blocksInject t bounds (HeuristicState.step p t cfg bounds s b) rest

/-- A header is injected when the heuristic tier splits a text. -/
def heuristicsInject (t : Text) : Bool :=
  let bounds := dropBoundsInsideSpans (findHeuristicBoundaries p t cfg.languages)
    (protectedSpansRune t (protectedSpans p t))
  if t.length ≤ cfg.chunkSize ∨ bounds = [] then splitInjects p cfg t
  else
    let closed := closeBounds t.length bounds
    let first := (closed.head?.map Boundary.runeStart).getD 0
    blocksInject p cfg t closed ⟨[], first, first⟩ (closed.drop 1)

/-- A header is injected into a section that does not fit. -/
def sectionsInject (primaryLevel : Nat) (runes : Text) :
    HeadingHierarchy -> List HeadingBoundary -> Bool
  | _, [] => false
  | h, b :: rest =>
      let stop := sectionStop runes rest
      let h := if b.line.isEmpty then h else h.observe p b.line
      let sectionRunes := slice runes b.runeStart stop
      (decide (b.runeStart < stop) &&
          decide (cfg.chunkSize < h.breadcrumbWithHashes.length + 2 + sectionRunes.length) &&
          splitInjects p cfg sectionRunes) ||
        sectionsInject primaryLevel runes (observeSubHeadings p sectionRunes primaryLevel h) rest

/-- A header is injected when the heading tier splits a text. -/
def headingsInject (t : Text) (profile : Option DocProfile) : Bool :=
  let primaryLevel := (profile.getD (profileDocument p t)).dominantHeadingLevel
  let bounds := findHeadingBoundaries p t primaryLevel
  if primaryLevel = 0 ∨ bounds.length ≤ 1 then splitInjects p cfg t
  else sectionsInject p cfg primaryLevel t HeadingHierarchy.new bounds

variable {p cfg} {t : Text} {bounds : List Boundary}

theorem plain_appendChunk {start stop : Nat} (out : List TextChunk) (hstop : stop ≤ t.length) :
    (forall c, c ∈ appendChunk t start stop out -> Plain c) <-> forall c, c ∈ out -> Plain c := by
  rcases appendChunk_cases t start stop out with ⟨_, _, heq⟩ | ⟨_, heq⟩
  · rw [heq, plain_append]
    refine and_iff_left fun c hc => ?_
    rw [List.mem_singleton.mp hc]
    exact length_slice hstop
  · rw [heq]

theorem plain_blocks {rest : List Boundary} {s : HeuristicState} (hend : s.curEnd ≤ t.length)
    (hrest : forall b, b ∈ rest -> b.runeStart ≤ t.length) :
    (forall c, c ∈ (rest.foldl (HeuristicState.step p t cfg bounds) s).out -> Plain c) <->
      (forall c, c ∈ s.out -> Plain c) ∧ blocksInject p cfg t bounds s rest = false := by
  induction rest generalizing s with
  | nil =>
      exact ⟨fun h => ⟨h, rfl⟩, And.left⟩
  | cons b rest ih =>
      rcases List.forall_mem_cons.mp hrest with ⟨hb, hlater⟩
      rw [List.foldl_cons, ih (by rwa [curEnd_step]) hlater,
        blocksInject, Bool.or_eq_false_iff, ← and_assoc]
      apply and_congr_left
      intro _
      have hstep := HeuristicState.step_cases p t cfg bounds s b
      generalize HeuristicState.step p t cfg bounds s b = s' at hstep ⊢
      cases hstep with
      | oversize hlong hout _ =>
          have hlong' : cfg.chunkSize < b.runeStart - s.curEnd := hlong
          rw [hout, plain_append, plain_appendChunk _ hend, plain_relocate, splitText_plain_iff,
            decide_eq_true hlong', Bool.true_and]
      | closed hover hout _ =>
          have hshort : ¬ cfg.chunkSize < b.runeStart - s.curEnd := hover.1
          rw [hout, plain_appendChunk _ hend, decide_eq_false hshort]
          simp
      | kept hfits hout _ =>
          have hshort : ¬ cfg.chunkSize < b.runeStart - s.curEnd := hfits.1
          rw [hout, decide_eq_false hshort]
          simp

variable (p) in
theorem splitByHeuristics_plain_iff (cfg : SplitterConfig) (hfull : t.isEmpty = false) :
    (forall c, c ∈ splitByHeuristics p t cfg -> Plain c) <->
      heuristicsInject p cfg t = false := by
  unfold splitByHeuristics heuristicsInject
  rw [if_neg (Bool.eq_false_iff.mp hfull)]
  dsimp only
  split
  · rename_i hshort
    rw [if_pos (Or.inl hshort)]
    exact splitText_plain_iff p cfg t
  · rename_i hlong
    split
    · rename_i hnone
      rw [if_pos (Or.inr (List.isEmpty_iff.mp hnone))]
      exact splitText_plain_iff p cfg t
    · rename_i hsome
      have hne := mt List.isEmpty_iff.mpr hsome
      have hbounds := closeBounds_wellBounded p t cfg.languages _ hne
      rw [if_neg (not_or.mpr ⟨hlong, hne⟩), packBlocks_eq]
      generalize closeBounds t.length _ = closed at hbounds ⊢
      have hend := (@packing_after p t cfg closed hbounds (closed.drop 1) []
        (List.append_nil _).symm).stop
      have hzero : (closed.head?.map Boundary.runeStart).getD 0 ≤ t.length := by
        rw [hbounds.zero]
        exact Nat.zero_le _
      have hblocks := @plain_blocks p cfg t closed (closed.drop 1)
        ⟨[], (closed.head?.map Boundary.runeStart).getD 0,
          (closed.head?.map Boundary.runeStart).getD 0⟩ hzero hbounds.within
      rw [plain_appendChunk _ hend]
      refine hblocks.trans (and_iff_right fun c hc => ?_)
      cases hc

theorem plain_sectionChunks {primaryLevel start stop seq : Nat} {h : HeadingHierarchy}
    (hstop : stop ≤ t.length) :
    (forall c, c ∈ sectionChunks p cfg primaryLevel (slice t start stop) start stop seq h ->
        Plain c) <->
      (decide (start < stop) && decide (cfg.chunkSize <
          h.breadcrumbWithHashes.length + 2 + (slice t start stop).length) &&
        splitInjects p cfg (slice t start stop)) = false := by
  unfold sectionChunks
  dsimp only
  split
  · rename_i hempty
    rw [decide_eq_false (Nat.not_lt.mpr hempty)]
    simp
  · rename_i hopen
    rw [decide_eq_true (Nat.lt_of_not_le hopen), Bool.true_and]
    split
    · rename_i hfits
      rw [decide_eq_false (Nat.not_lt.mpr hfits)]
      refine ⟨fun _ => rfl, fun _ c hc => ?_⟩
      rw [List.mem_singleton.mp hc]
      exact length_slice hstop
    · rename_i hlong
      rw [decide_eq_true (Nat.lt_of_not_le hlong), Bool.true_and, plain_relocate,
        splitText_plain_iff]

theorem plain_splitSections {primaryLevel seq : Nat} {h : HeadingHierarchy}
    {bounds : List HeadingBoundary} (hbounds : forall b, b ∈ bounds -> b.runeStart ≤ t.length) :
    (forall c, c ∈ splitSections p cfg primaryLevel t seq h bounds -> Plain c) <->
      sectionsInject p cfg primaryLevel t h bounds = false := by
  induction bounds generalizing seq h with
  | nil =>
      exact ⟨fun _ => rfl, fun _ c hc => by cases hc⟩
  | cons b rest ih =>
      have hstop : sectionStop t rest ≤ t.length := by
        cases rest with
        | nil =>
            exact Nat.le_refl _
        | cons next rest =>
            exact hbounds next (List.mem_cons_of_mem _ List.mem_cons_self)
      simp only [splitSections, sectionsInject]
      rw [plain_append, plain_sectionChunks hstop, Bool.or_eq_false_iff,
        ih fun c hc => hbounds c (List.mem_cons_of_mem _ hc)]

/-!
# Joined chunks
-/

/-- The content is not shorter than the range. -/
def Roomy (c : TextChunk) : Prop :=
  c.start ≤ c.stop ∧ c.stop - c.start ≤ c.content.length

theorem plain_coalesceFrom {chunkSize target : Nat} {cur : TextChunk} {rest : List TextChunk}
    (curLen : Nat) (hcur : Roomy cur) (hrest : forall c, c ∈ rest -> Roomy c) :
    (forall c, c ∈ coalesceFrom chunkSize target cur curLen rest -> Plain c) <->
      Plain cur ∧ forall c, c ∈ rest -> Plain c := by
  induction rest generalizing cur curLen with
  | nil =>
      simp [coalesceFrom]
  | cons next rest ih =>
      rcases List.forall_mem_cons.mp hrest with ⟨hnext, hlater⟩
      simp only [coalesceFrom]
      rw [List.forall_mem_cons, ← and_assoc]
      split
      · rename_i hjoin
        simp only [Bool.and_eq_true, beq_iff_eq] at hjoin
        have hmeet := hjoin.1.1.2
        unfold Roomy at hcur hnext
        rw [ih _ ⟨by dsimp only; omega, by dsimp only; rw [List.length_append]; omega⟩ hlater]
        apply and_congr_left
        intro _
        unfold Plain
        dsimp only
        rw [List.length_append]
        omega
      · rw [List.forall_mem_cons, ih _ hnext hlater, and_assoc]

theorem plain_coalesceTinyChunks {input : List TextChunk} (chunkSize : Nat)
    (hinput : forall c, c ∈ input -> Roomy c) :
    (forall c, c ∈ coalesceTinyChunks input chunkSize -> Plain c) <->
      forall c, c ∈ input -> Plain c := by
  unfold coalesceTinyChunks
  split
  · rename_i first second rest
    rcases List.forall_mem_cons.mp hinput with ⟨hfirst, hrest⟩
    split
    · exact Iff.rfl
    · rw [List.forall_mem_cons, ← plain_coalesceFrom first.content.length hfirst hrest]
      unfold renumber
      constructor
      · intro h c hc
        rcases List.getElem_of_mem hc with ⟨i, hi, rfl⟩
        have hplain := h _ (List.mem_mapIdx.mpr ⟨i, hi, rfl⟩)
        exact hplain
      · intro h c hc
        rcases List.mem_mapIdx.mp hc with ⟨i, hi, rfl⟩
        have hplain := h _ (List.getElem_mem hi)
        exact hplain
  · exact Iff.rfl

theorem Emitted.roomy {P : Nat -> Prop} {front : Nat} {chunks : List TextChunk}
    (h : Emitted P t front chunks) : forall c, c ∈ chunks -> Roomy c := by
  intro c hc
  rcases h.stop_le hc with ⟨hle, hstop⟩
  rcases h.led c hc with ⟨header, hcontent, _⟩
  refine ⟨hle, ?_⟩
  rw [hcontent, List.length_append, length_slice hstop]
  omega

/-- A chunk with an injected header is put behind others, from a chunk on. -/
def joinsInjected (chunkSize target : Nat) : TextChunk -> Nat -> List TextChunk -> Bool
  | _, _, [] => false
  | cur, curLen, next :: rest =>
      let shared := commonHeadingPrefix cur.contextHeader next.contextHeader
      if !shared.isEmpty && cur.stop == next.start && decide (curLen < target) &&
          decide (curLen + next.content.length ≤ chunkSize) then
        decide (next.content.length ≠ next.stop - next.start) ||
          joinsInjected chunkSize target
            { cur with
              content := cur.content ++ next.content
              contextHeader := shared
              stop := next.stop }
            (curLen + next.content.length) rest
      else joinsInjected chunkSize target next next.content.length rest

theorem Led.of_plain {c : TextChunk} (h : Led t c) (hstop : c.stop ≤ t.length)
    (hplain : c.content.length = c.stop - c.start) : c.content = slice t c.start c.stop := by
  rcases h with ⟨header, hcontent, _⟩
  have hlength := congrArg List.length hcontent
  rw [List.length_append, length_slice hstop] at hlength
  rw [hcontent, List.eq_nil_of_length_eq_zero (show header.length = 0 by omega), List.nil_append]

theorem led_coalesceFrom {chunkSize target : Nat} {cur : TextChunk} {rest : List TextChunk}
    {curLen : Nat} (hcur : cur.start ≤ cur.stop ∧ Led t cur)
    (hrest : forall c, c ∈ rest -> (c.start ≤ c.stop ∧ c.stop ≤ t.length) ∧ Led t c)
    (hjoins : joinsInjected chunkSize target cur curLen rest = false) :
    forall c, c ∈ coalesceFrom chunkSize target cur curLen rest -> Led t c := by
  induction rest generalizing cur curLen with
  | nil =>
      intro c hc
      rw [List.mem_singleton.mp hc]
      exact hcur.2
  | cons next rest ih =>
      rcases List.forall_mem_cons.mp hrest with ⟨⟨⟨hle, hstop⟩, hnext⟩, hlater⟩
      simp only [joinsInjected] at hjoins
      simp only [coalesceFrom]
      split
      · rename_i hjoin
        rw [if_pos hjoin, Bool.or_eq_false_iff] at hjoins
        simp only [Bool.and_eq_true, beq_iff_eq] at hjoin
        have hmeet := hjoin.1.1.2
        have hplain := hnext.of_plain hstop (by simpa using hjoins.1)
        rcases hcur with ⟨hopen, header, hcontent, hbar⟩
        refine ih ⟨?_, header, ?_, hbar⟩ hlater hjoins.2
        · dsimp only
          omega
        · dsimp only
          rw [hcontent, hplain, List.append_assoc, hmeet,
            slice_append_slice t (hmeet ▸ hopen) hle]
      · rename_i hapart
        rw [if_neg hapart] at hjoins
        rw [List.forall_mem_cons]
        exact ⟨hcur.2, ih ⟨hle, hnext⟩ hlater hjoins⟩

variable (p cfg) in
/-- A chunk with an injected header is put behind others by the heading tier. -/
def headingsJoin (t : Text) (profile : Option DocProfile) : Bool :=
  let primaryLevel := (profile.getD (profileDocument p t)).dominantHeadingLevel
  let bounds := findHeadingBoundaries p t primaryLevel
  if primaryLevel = 0 ∨ bounds.length ≤ 1 then false
  else
    match splitSections p cfg primaryLevel t 0 HeadingHierarchy.new bounds with
    | [] => false
    | first :: rest =>
        joinsInjected cfg.chunkSize (max (cfg.chunkSize / 2) 200) first first.content.length rest

variable (p) in
theorem led_splitByHeadings (cfg : SplitterConfig) (profile : Option DocProfile)
    (hfull : t.isEmpty = false) (hjoins : headingsJoin p cfg t profile = false) :
    forall c, c ∈ splitByHeadings p t cfg profile -> Led t c := by
  have hlegacy :=
    (emitted_splitText p t cfg.chunkSize cfg.chunkOverlap cfg.separators).led
  unfold headingsJoin at hjoins
  unfold splitByHeadings
  rw [if_neg (Bool.eq_false_iff.mp hfull)]
  dsimp only at hjoins ⊢
  split
  · exact hlegacy
  · rename_i hlevel
    split
    · exact hlegacy
    · rename_i hmany
      have hsections := (emitted_sections p t cfg
        (profile.getD (profileDocument p t)).dominantHeadingLevel).1
      rw [if_neg (not_or.mpr ⟨hlevel, hmany⟩)] at hjoins
      generalize splitSections p cfg _ t 0 _ _ = sections at hjoins hsections ⊢
      unfold coalesceTinyChunks
      split
      · split
        · exact hsections.led
        · have hall := fun c hc => And.intro (hsections.stop_le (c := c) hc) (hsections.led c hc)
          rcases List.forall_mem_cons.mp hall with ⟨hfirst, hrest⟩
          have hled := led_coalesceFrom ⟨hfirst.1.1, hfirst.2⟩ hrest hjoins
          intro c hc
          rcases List.mem_mapIdx.mp hc with ⟨i, hi, rfl⟩
          have hmem := hled _ (List.getElem_mem hi)
          exact hmem
      · exact hsections.led

variable (p) in
theorem splitByHeadings_plain_iff (cfg : SplitterConfig) (profile : Option DocProfile)
    (hfull : t.isEmpty = false) :
    (forall c, c ∈ splitByHeadings p t cfg profile -> Plain c) <->
      headingsInject p cfg t profile = false := by
  unfold splitByHeadings headingsInject
  rw [if_neg (Bool.eq_false_iff.mp hfull)]
  dsimp only
  split
  · rename_i hzero
    rw [if_pos (Or.inl hzero)]
    exact splitText_plain_iff p cfg t
  · rename_i hlevel
    split
    · rename_i hsingle
      rw [if_pos (Or.inr hsingle)]
      exact splitText_plain_iff p cfg t
    · rename_i hmany
      have hsections := emitted_sections p t cfg
        (profile.getD (profileDocument p t)).dominantHeadingLevel
      rw [if_neg (not_or.mpr ⟨hlevel, hmany⟩),
        plain_coalesceTinyChunks _ hsections.1.roomy, plain_splitSections hsections.2]

end Tiers

end Chunker
end KnowledgeBrain
