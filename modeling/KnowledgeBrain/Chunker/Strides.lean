import KnowledgeBrain.Chunker.Sizes

/-!
# Starts and ends ascend

A chunk starts where the one before it starts when the overlap is all that was
collected, and ends where it ends when the group is closed before a unit is in
it.  The heuristic tier has the same two ways to repeat a chunk.
-/

namespace KnowledgeBrain
namespace Chunker

open Foundation MergeState

/-- The next chunk starts and ends behind the start and the end of the one before. -/
def Strides (chunks : List TextChunk) : Prop :=
  List.IsChain (fun c d => c.start < d.start ∧ c.stop < d.stop) chunks

section Splitter

variable (p : Patterns) (chunkSize chunkOverlap : Nat)

namespace MergeState

/-- Where the chunk of the group will start. -/
def groupStart (s : MergeState) : Nat :=
  (s.current.head?.map SplitUnit.start).getD 0

/-- The overlap and the header start where the group that is closed starts. -/
def Reopens (s : MergeState) (u : SplitUnit) : Prop :=
  Overflows p chunkSize s u ∧ (opening p chunkSize chunkOverlap s u).current ≠ [] ∧
    (opening p chunkSize chunkOverlap s u).groupStart ≤ s.groupStart

end MergeState

/-- At some unit a group is opened where the group before it was opened. -/
def Reopened (units : List SplitUnit) : Prop :=
  exists before u rest, units = before ++ u :: rest ∧ u.text.length ≤ hardCap ∧
    Reopens p chunkSize chunkOverlap
      (after p chunkSize chunkOverlap before) u

end Splitter

section Runs

variable {p : Patterns} {chunkSize chunkOverlap : Nat} {units : List SplitUnit}

variable {chunks : List TextChunk}

theorem isChain_concat {R : TextChunk -> TextChunk -> Prop} {c : TextChunk}
    (h : List.IsChain R chunks) (hlast : forall last, chunks.getLast? = some last -> R last c) :
    List.IsChain R (chunks ++ [c]) := by
  apply List.isChain_append.mpr
  refine ⟨h, List.IsChain.singleton c, ?_⟩
  intro last hmem d hd
  cases hd
  exact hlast last hmem

theorem isChain_and {R R' : TextChunk -> TextChunk -> Prop} (h : List.IsChain R chunks)
    (h' : List.IsChain R' chunks) :
    List.IsChain (fun c d => R c d ∧ R' c d) chunks := by
  induction chunks with
  | nil =>
      exact List.IsChain.nil
  | cons c rest ih =>
      cases rest with
      | nil =>
          exact List.IsChain.singleton c
      | cons d rest =>
          rw [List.isChain_cons_cons] at h h' ⊢
          exact ⟨⟨h.1, h'.1⟩, ih h.2 h'.2⟩

/-- The starts of the chunks ascend, and the group that is open starts behind them. -/
structure Starting (pre : List SplitUnit) (s : MergeState) : Prop where
  starts : List.IsChain (fun c d => c.start < d.start) s.chunks
  ahead : forall last, s.chunks.getLast? = some last -> last.start < place pre ∧
    (s.current ≠ [] -> last.start < s.groupStart)

variable {pre rest : List SplitUnit} {s : MergeState} {front : Nat}

theorem Starting.close (h : Starting pre s) (hfresh : Fresh pre s)
    (hloop : Loop p chunkSize chunkOverlap units pre front s) (hunits : units = pre ++ rest)
    (hlaid : Laid 0 units) (hopen : s.current ≠ []) :
    List.IsChain (fun c d => c.start < d.start)
        (s.chunks ++ [buildChunk s.current s.chunks.length]) ∧
      (buildChunk s.current s.chunks.length).start < place pre := by
  constructor
  · apply isChain_concat h.starts
    intro last hlast
    exact (h.ahead last hlast).2 hopen
  · rcases hfresh with ⟨last, hemission, _, hbehind⟩
    rcases hloop.group.ends hunits hlaid hopen s.chunks.length with
      ⟨_, _, _, hstart, hlow, _⟩
    rw [hstart]
    have hfront := (hloop.emitted.and hemission).1
    exact Nat.lt_of_le_of_lt hlow (hfront ▸ hbehind hopen)

theorem Starting.closed {s s' : MergeState} (h : Starting pre s) (hfresh : Fresh pre s)
    (hloop : Loop p chunkSize chunkOverlap units pre front s) (hunits : units = pre ++ rest)
    (hlaid : Laid 0 units) (hopen : s.current ≠ [])
    (hchunks : s'.chunks = s.chunks ++ [buildChunk s.current s.chunks.length])
    (hbehind : s'.current ≠ [] -> s.groupStart < s'.groupStart) : Starting pre s' := by
  rcases h.close hfresh hloop hunits hlaid hopen with ⟨hchain, hlow⟩
  constructor
  · rw [hchunks]
    exact hchain
  · intro last hlast
    rw [hchunks, List.getLast?_concat] at hlast
    cases hlast
    exact ⟨hlow, hbehind⟩

theorem groupStart_push (hopen : s.current ≠ []) (u : SplitUnit) :
    (push u s).groupStart = s.groupStart := by
  unfold groupStart push
  cases hcurrent : s.current with
  | nil =>
      exact absurd hcurrent hopen
  | cons first more =>
      rfl

variable {u : SplitUnit}

theorem Starting.push {pre : List SplitUnit} (h : Starting pre s) (hstart : u.start = place pre) :
    Starting (pre ++ [u]) (push u s) := by
  constructor
  · exact h.starts
  · intro last hlast
    rcases h.ahead last hlast with ⟨hlow, hbehind⟩
    constructor
    · rw [place_append]
      exact Nat.lt_of_lt_of_le hlow (Nat.le_add_right _ _)
    · intro _
      by_cases hopen : s.current = []
      · show last.start < ((s.current ++ [u]).head?.map SplitUnit.start).getD 0
        rw [hopen]
        show last.start < u.start
        rw [hstart]
        exact hlow
      · rw [groupStart_push hopen]
        exact hbehind hopen

theorem starting_mergeUnit (hloop : Loop p chunkSize chunkOverlap units pre front
      (after p chunkSize chunkOverlap pre))
    (hfresh : Fresh pre (after p chunkSize chunkOverlap pre))
    (h : Starting pre (after p chunkSize chunkOverlap pre))
    (hunits : units = pre ++ u :: rest) (hlaid : Laid 0 units)
    (honce : ¬ ClosesTwice p chunkSize chunkOverlap
      (after p chunkSize chunkOverlap pre) u)
    (hnew : ¬ Reopens p chunkSize chunkOverlap
      (after p chunkSize chunkOverlap pre) u) :
    Starting (pre ++ [u]) (mergeUnit p chunkSize chunkOverlap u
      (after p chunkSize chunkOverlap pre)) := by
  have hstart := (laid_start hlaid hunits).1
  generalize after p chunkSize chunkOverlap pre = s at hloop hfresh h honce hnew ⊢
  rw [mergeUnit_eq]
  refine Starting.push ?_ hstart
  have hopening := opening_cases p chunkSize chunkOverlap s u
  have hcap := capCurrent_cases u (opening p chunkSize chunkOverlap s u)
  have honce' := fun hfull => not_and.mp honce hfull
  have hnew' := fun hfull => not_and.mp hnew hfull
  generalize opening p chunkSize chunkOverlap s u = s' at hopening hcap honce' hnew' ⊢
  cases hopening with
  | kept hchunks hcurrent _ _ =>
      rcases hcap with hsame | ⟨_, hopen, hflush⟩
      · rw [hsame]
        constructor
        · rw [hchunks]
          exact h.starts
        · unfold groupStart
          rw [hchunks, hcurrent]
          exact h.ahead
      · rw [hflush]
        rw [hcurrent] at hopen
        refine h.closed hfresh hloop hunits hlaid hopen ?_ fun hnone => absurd rfl hnone
        show s'.chunks ++ [buildChunk s'.current s'.chunks.length] = _
        rw [hchunks, hcurrent]
  | ended hopen hchunks hcurrent _ =>
      rcases hcap with hsame | ⟨_, hopen', _⟩
      · rw [hsame]
        exact h.closed hfresh hloop hunits hlaid hopen hchunks fun hopen' => absurd hcurrent hopen'
      · exact absurd hcurrent hopen'
  | opened hopen hchunks hfull =>
      rcases hcap with hsame | ⟨hlong, hopen', _⟩
      · rw [hsame]
        refine h.closed hfresh hloop hunits hlaid hopen hchunks fun hopen' => ?_
        exact Nat.lt_of_not_le fun hle => hnew' hfull ⟨hopen', hle⟩
      · exact absurd ⟨hopen', hlong⟩ (honce' hfull)

/-- The starts of pieces that follow each other ascend. -/
theorem starts_pieces {pieces : List SplitUnit} {a : Nat}
    (h : List.IsChain (fun c d => c.start < d.start) chunks)
    (hlast : forall last, chunks.getLast? = some last -> last.start < a) (hlaid : Laid a pieces) :
    List.IsChain (fun c d => c.start < d.start) (pieces.foldl (fun chunks piece =>
        chunks ++ [⟨piece.text, [], chunks.length, piece.start, piece.stop⟩]) chunks) ∧
      forall last, (pieces.foldl (fun chunks piece =>
        chunks ++ [⟨piece.text, [], chunks.length, piece.start, piece.stop⟩]) chunks).getLast? =
          some last -> last.start < a + place pieces := by
  induction pieces generalizing chunks a with
  | nil =>
      exact ⟨h, hlast⟩
  | cons piece pieces ih =>
      rcases hlaid with ⟨hstart, hne, hstop, hrest⟩
      have hpos := List.length_pos_iff.mpr hne
      have hpush : List.IsChain (fun c d : TextChunk => c.start < d.start)
          (chunks ++ [⟨piece.text, [], chunks.length, piece.start, piece.stop⟩]) := by
        apply isChain_concat h
        intro last hmem
        show last.start < piece.start
        rw [hstart]
        exact hlast last hmem
      rw [List.foldl_cons, place_cons, ← Nat.add_assoc, ← hstop]
      apply ih hpush _ hrest
      intro last hmem
      rw [List.getLast?_concat] at hmem
      cases hmem
      show piece.start < piece.stop
      omega

theorem starting_mergeOversize (hloop : Loop p chunkSize chunkOverlap units pre front s)
    (hfresh : Fresh pre s) (h : Starting pre s) (hunits : units = pre ++ u :: rest)
    (hlaid : Laid 0 units) : Starting (pre ++ [u]) (mergeOversize p u s) := by
  have hflushed : Starting pre s.flushNonempty ∧ s.flushNonempty.current = [] := by
    rcases flushNonempty_cases s with ⟨hnil, hsame⟩ | ⟨hopen, hflush⟩
    · rw [hsame]
      exact ⟨h, hnil⟩
    · rw [hflush]
      exact ⟨h.closed hfresh hloop hunits hlaid hopen rfl fun hnone => absurd rfl hnone, rfl⟩
  rcases hflushed with ⟨hstarting, hnil⟩
  rcases laid_forceSplitRunes u.text u.start with ⟨hpieces, hspell⟩
  have hstart := (laid_start hlaid hunits).1
  rw [hstart] at hpieces hspell
  rcases starts_pieces hstarting.starts (fun last hlast => (hstarting.ahead last hlast).1) hpieces
    with ⟨hchain, hlast⟩
  have hplace : place (forceSplitRunes u.text (place pre)) = u.text.length := by
    unfold place at hspell ⊢
    rw [hspell]
  rw [hplace] at hlast
  constructor
  · show List.IsChain _ ((forceSplitRunes u.text u.start).foldl _ s.flushNonempty.chunks)
    rw [hstart]
    exact hchain
  · intro last hmem
    have hmem' : ((forceSplitRunes u.text u.start).foldl (fun chunks piece =>
        chunks ++ [⟨piece.text, [], chunks.length, piece.start, piece.stop⟩])
        s.flushNonempty.chunks).getLast? = some last := hmem
    rw [hstart] at hmem'
    constructor
    · rw [place_append, place_cons, place_nil]
      exact hlast last hmem'
    · intro hopen
      exact absurd hnil hopen

variable (p chunkSize chunkOverlap) in
theorem starting_after (hlaid : Laid 0 units) (honce : ¬ ClosedTwice p chunkSize chunkOverlap units)
    (hnew : ¬ Reopened p chunkSize chunkOverlap units) (pre : List SplitUnit) :
    forall rest, units = pre ++ rest ->
      Starting pre (after p chunkSize chunkOverlap pre) := by
  induction pre using List.reverseRecOn with
  | nil =>
      intro rest _
      constructor
      · exact List.IsChain.nil
      · intro last hlast
        cases hlast
  | append_singleton pre u ih =>
      intro rest hunits
      rw [List.append_assoc, List.singleton_append] at hunits
      have h := ih (u :: rest) hunits
      have hfresh := fresh_after p chunkSize chunkOverlap hlaid honce pre (u :: rest) hunits
      rcases loop_after p chunkSize chunkOverlap hlaid pre (u :: rest) hunits with ⟨front, hloop⟩
      rw [after_concat]
      unfold step
      split
      · exact starting_mergeOversize hloop hfresh h hunits hlaid
      · rename_i hshort
        apply starting_mergeUnit hloop hfresh h hunits hlaid
        · intro htwice
          exact honce ⟨pre, u, rest, hunits, Nat.le_of_not_lt hshort, htwice⟩
        · intro hsame
          exact hnew ⟨pre, u, rest, hunits, Nat.le_of_not_lt hshort, hsame⟩

/-- A unit closes the group that is open, or adds to it. -/
theorem step_start (before : List SplitUnit) (u : SplitUnit)
    (hopen : (after p chunkSize chunkOverlap before).current ≠ []) :
    (exists c, (after p chunkSize chunkOverlap before).chunks ++ [c] <+:
        (after p chunkSize chunkOverlap (before ++ [u])).chunks ∧
        c.start = (after p chunkSize chunkOverlap before).groupStart) ∨
      ((after p chunkSize chunkOverlap (before ++ [u])).chunks =
          (after p chunkSize chunkOverlap before).chunks ∧
        (after p chunkSize chunkOverlap (before ++ [u])).current ≠ [] ∧
        (after p chunkSize chunkOverlap (before ++ [u])).groupStart =
          (after p chunkSize chunkOverlap before).groupStart) := by
  rw [after_concat]
  generalize after p chunkSize chunkOverlap before = s at hopen ⊢
  unfold step
  split
  · left
    refine ⟨buildChunk s.current s.chunks.length, ?_, rfl⟩
    have hflush : s.flushNonempty.chunks = s.chunks ++ [buildChunk s.current s.chunks.length] := by
      rcases flushNonempty_cases s with ⟨hnil, _⟩ | ⟨_, hflush⟩
      · exact absurd hnil hopen
      · rw [hflush]
        rfl
    rw [← hflush]
    exact pieces_chunks _ _
  · rw [mergeUnit_eq]
    have hopening := opening_cases p chunkSize chunkOverlap s u
    have hcap := capCurrent_cases u (opening p chunkSize chunkOverlap s u)
    have hkept := capCurrent_chunks u (opening p chunkSize chunkOverlap s u)
    generalize opening p chunkSize chunkOverlap s u = s' at hopening hcap hkept ⊢
    cases hopening with
    | kept hchunks hcurrent _ _ =>
        rcases hcap with hsame | ⟨_, _, hflush⟩
        · right
          rw [hsame]
          refine ⟨hchunks, ?_, ?_⟩
          · show s'.current ++ [u] ≠ []
            simp
          · rw [groupStart_push (hcurrent ▸ hopen)]
            unfold groupStart
            rw [hcurrent]
        · left
          refine ⟨buildChunk s'.current s'.chunks.length, ?_, ?_⟩
          · rw [hflush, ← hchunks]
            exact List.prefix_rfl
          · show s'.groupStart = s.groupStart
            unfold groupStart
            rw [hcurrent]
    | ended _ hchunks _ _ =>
        left
        refine ⟨buildChunk s.current s.chunks.length, ?_, rfl⟩
        rw [← hchunks]
        exact hkept
    | opened _ hchunks _ =>
        left
        refine ⟨buildChunk s.current s.chunks.length, ?_, rfl⟩
        rw [← hchunks]
        exact hkept

theorem chunks_mergeUnits (before later : List SplitUnit) :
    (after p chunkSize chunkOverlap before).chunks <+:
      mergeUnits p (before ++ later) chunkSize chunkOverlap :=
  (after_chunks p chunkSize chunkOverlap before later).trans (flushNonempty_chunks _)

/-- The next chunk of the loop is that of the group that is open. -/
theorem next_start (later : List SplitUnit) :
    forall before, (after p chunkSize chunkOverlap before).current ≠ [] ->
      exists c more, mergeUnits p (before ++ later) chunkSize chunkOverlap =
        (after p chunkSize chunkOverlap before).chunks ++ c :: more ∧
        c.start = (after p chunkSize chunkOverlap before).groupStart := by
  induction later with
  | nil =>
      intro before hopen
      rw [List.append_nil]
      refine ⟨buildChunk (after p chunkSize chunkOverlap before).current
        (after p chunkSize chunkOverlap before).chunks.length, [], ?_, rfl⟩
      show (after p chunkSize chunkOverlap before).flushNonempty.chunks = _
      rcases flushNonempty_cases (after p chunkSize chunkOverlap before) with
        ⟨hnil, _⟩ | ⟨_, hflush⟩
      · exact absurd hnil hopen
      · rw [hflush]
        rfl
  | cons u later ih =>
      intro before hopen
      have hall : before ++ u :: later = (before ++ [u]) ++ later := by
        rw [List.append_assoc, List.singleton_append]
      rcases step_start before u hopen with ⟨c, hleads, hstart⟩ | ⟨hchunks, hopen', hstart⟩
      · rcases hleads.trans (chunks_mergeUnits (before ++ [u]) later) with ⟨more, hmore⟩
        refine ⟨c, more, ?_, hstart⟩
        rw [hall, ← hmore, List.append_assoc, List.singleton_append]
      · rcases ih (before ++ [u]) hopen' with ⟨c, more, hmore, hstart'⟩
        refine ⟨c, more, ?_, hstart'.trans hstart⟩
        rw [hall, hmore, hchunks]

/-- A group that is opened where the one before it was opened starts where its chunk starts. -/
theorem repeated_start (h : Reopened p chunkSize chunkOverlap units) :
    exists chunks c d more, mergeUnits p units chunkSize chunkOverlap =
      chunks ++ c :: d :: more ∧ d.start ≤ c.start := by
  rcases h with ⟨before, u, rest, hunits, hsize, hfull, hopen, hsame⟩
  have hopening := opening_cases p chunkSize chunkOverlap
    (after p chunkSize chunkOverlap before) u
  cases hopening with
  | kept _ _ _ hfits =>
      exact absurd hfull hfits
  | ended _ _ _ hfits =>
      exact absurd hfull hfits
  | opened _ hchunks _ =>
      have hafter : after p chunkSize chunkOverlap (before ++ [u]) =
          push u (capCurrent u (opening p chunkSize chunkOverlap
            (after p chunkSize chunkOverlap before) u)) :=
        after_short hsize
      have hnext : exists d, d.start = (opening p chunkSize chunkOverlap
          (after p chunkSize chunkOverlap before) u).groupStart ∧
          exists more, mergeUnits p ((before ++ [u]) ++ rest) chunkSize chunkOverlap =
            (opening p chunkSize chunkOverlap
              (after p chunkSize chunkOverlap before) u).chunks ++ d :: more := by
        rcases capCurrent_cases u (opening p chunkSize chunkOverlap
          (after p chunkSize chunkOverlap before) u) with hkept | ⟨_, _, hflush⟩
        · rw [hkept] at hafter
          have hopen' :
              (after p chunkSize chunkOverlap (before ++ [u])).current ≠ [] := by
            rw [hafter]
            show _ ++ [u] ≠ []
            simp
          rcases next_start rest (before ++ [u]) hopen' with ⟨d, more, hmore, hstart⟩
          refine ⟨d, ?_, more, ?_⟩
          · rw [hstart, hafter, groupStart_push hopen]
          · rw [hmore, hafter]
            rfl
        · rw [hflush] at hafter
          rcases @chunks_mergeUnits p chunkSize chunkOverlap (before ++ [u]) rest with ⟨more, hmore⟩
          rw [hafter] at hmore
          refine ⟨buildChunk (opening p chunkSize chunkOverlap
            (after p chunkSize chunkOverlap before) u).current
            (opening p chunkSize chunkOverlap
              (after p chunkSize chunkOverlap before) u).chunks.length, rfl, more, ?_⟩
          rw [← hmore]
          show _ ++ [_] ++ more = _
          rw [List.append_assoc, List.singleton_append]
      rcases hnext with ⟨d, hstart, more, hmore⟩
      rw [List.append_assoc, List.singleton_append, ← hunits, hchunks, List.append_assoc,
        List.singleton_append] at hmore
      refine ⟨_, _, d, more, hmore, ?_⟩
      rw [hstart]
      exact hsame

/-- The chunks of some units stride exactly where no unit closes two groups or
opens one where the one before was opened. -/
theorem mergeUnits_strides_iff (hlaid : Laid 0 units) :
    Strides (mergeUnits p units chunkSize chunkOverlap) <->
      ¬ ClosedTwice p chunkSize chunkOverlap units ∧
        ¬ Reopened p chunkSize chunkOverlap units := by
  constructor
  · intro h
    constructor
    · intro htwice
      rcases repeated_end hlaid htwice with ⟨chunks, c, d, more, heq, hsame⟩
      unfold Strides at h
      rw [heq, List.isChain_append_cons_cons] at h
      exact absurd hsame (Nat.ne_of_lt h.2.1.2)
    · intro hagain
      rcases repeated_start hagain with ⟨chunks, c, d, more, heq, hsame⟩
      unfold Strides at h
      rw [heq, List.isChain_append_cons_cons] at h
      exact absurd h.2.1.1 (Nat.not_lt.mpr hsame)
  · rintro ⟨honce, hnew⟩
    have hunits : units = units ++ [] := (List.append_nil units).symm
    have hfresh := fresh_after p chunkSize chunkOverlap hlaid honce units [] hunits
    have hstarting := starting_after p chunkSize chunkOverlap hlaid honce hnew units [] hunits
    rcases loop_after p chunkSize chunkOverlap hlaid units [] hunits with ⟨front, hloop⟩
    have hstarts : List.IsChain (fun c d => c.start < d.start)
        (mergeUnits p units chunkSize chunkOverlap) := by
      show List.IsChain _ (after p chunkSize chunkOverlap units).flushNonempty.chunks
      rcases flushNonempty_cases (after p chunkSize chunkOverlap units) with
        ⟨_, hsame⟩ | ⟨hopen, hflush⟩
      · rw [hsame]
        exact hstarting.starts
      · rw [hflush]
        exact (hstarting.close hfresh hloop hunits hlaid hopen).1
    exact isChain_and hstarts ((mergeUnits_advances_iff hlaid).mpr honce).stops

end Runs

end Chunker
end KnowledgeBrain
