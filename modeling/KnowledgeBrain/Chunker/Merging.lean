import KnowledgeBrain.Chunker.Units

/-!
# Merging units

The units read so far spell a prefix of the text.  The chunks pushed and the
units collected cover it, and every chunk is the text it addresses behind at
most one table header.
-/

namespace KnowledgeBrain
namespace Chunker

open Foundation

def TextChunk.span (c : TextChunk) : Span :=
  ⟨c.start, c.stop⟩

/-- Numbered from zero on. -/
def Numbered (chunks : List TextChunk) : Prop :=
  chunks.map TextChunk.seq = List.range chunks.length

variable {c : TextChunk}

theorem numbered_push {chunks : List TextChunk} (h : Numbered chunks)
    (hseq : c.seq = chunks.length) : Numbered (chunks ++ [c]) := by
  unfold Numbered at h ⊢
  rw [List.map_append, h, List.length_append, List.length_singleton, List.range_succ,
    List.map_singleton, hseq]

/-- The content is what the chunk addresses, behind a table header perhaps. -/
def Led (t : Text) (c : TextChunk) : Prop :=
  exists h : Text, c.content = h ++ slice t c.start c.stop ∧ (h = [] ∨ '|' ∈ h)

theorem Led.extend {t : Text} (h : Led t c) (more : Text) (hstop : c.stop ≤ t.length) :
    Led (t ++ more) c := by
  obtain ⟨header, hcontent, hbar⟩ := h
  refine ⟨header, ?_, hbar⟩
  rw [slice_append_left more hstop]
  exact hcontent

/-- Chunks of a text that cover the positions of interest before the front. -/
structure Emitted (P : Nat -> Prop) (t : Text) (front : Nat) (chunks : List TextChunk) :
    Prop where
  numbered : Numbered chunks
  covers : Span.Covers P t.length front (chunks.map TextChunk.span)
  led : forall c, c ∈ chunks -> Led t c

namespace Emitted

variable {P : Nat -> Prop} {t : Text} {front : Nat} {chunks : List TextChunk}

theorem nil (P : Nat -> Prop) (t : Text) : Emitted P t 0 [] where
  numbered := rfl
  covers := Span.Covers.nil P t.length
  led := by
    intro c hmem
    cases hmem

theorem stop_le (h : Emitted P t front chunks) (hmem : c ∈ chunks) :
    c.start ≤ c.stop ∧ c.stop ≤ t.length :=
  h.covers.ranges c.span (List.mem_map.mpr ⟨c, hmem, rfl⟩)

theorem extend (h : Emitted P t front chunks) (more : Text) :
    Emitted P (t ++ more) front chunks where
  numbered := h.numbered
  covers := h.covers.extend (by simp)
  led := by
    intro c hmem
    exact (h.led c hmem).extend more (h.stop_le hmem).2

theorem push {front' : Nat} (h : Emitted P t front chunks) (hseq : c.seq = chunks.length)
    (hstart : c.start = front) (hle : c.start ≤ c.stop) (hstop : c.stop ≤ t.length)
    (hlow : front ≤ front') (hhigh : front' ≤ c.stop) (hled : Led t c) :
    Emitted P t front' (chunks ++ [c]) where
  numbered := numbered_push h.numbered hseq
  covers := by
    rw [List.map_append]
    exact h.covers.push hstart hle hstop hlow hhigh
  led := by
    intro d hmem
    rcases List.mem_append.mp hmem with hold | hnew
    · exact h.led d hold
    · rw [List.mem_singleton.mp hnew]
      exact hled

end Emitted

/-!
# The units collected
-/

/-- A header marker in front of a position, or nothing. -/
def Marker (a : Nat) (hdr : List SplitUnit) : Prop :=
  hdr = [] ∨ exists h : Text, '|' ∈ h ∧ hdr = [⟨h, a, a⟩]

/-- The units collected spell the text read from a position on, behind a header
perhaps. -/
def Collected (done : Text) (a : Nat) (current : List SplitUnit) : Prop :=
  exists hdr run, current = hdr ++ run ∧ Marker a hdr ∧ Laid a run ∧
    unitsText run <:+ done ∧ a + (unitsText run).length = done.length

theorem collected_nil (done : Text) : Collected done done.length [] :=
  ⟨[], [], rfl, Or.inl rfl, trivial, List.nil_suffix, rfl⟩

variable {done : Text}

theorem collected_le {a : Nat} {current : List SplitUnit} (h : Collected done a current) :
    a ≤ done.length := by
  obtain ⟨_, _, _, _, _, _, hend⟩ := h
  omega

/-- The chunk of the units collected. -/
theorem buildChunk_collected {a : Nat} {current : List SplitUnit} (h : Collected done a current)
    (hne : current ≠ []) (seq : Nat) :
    (buildChunk current seq).start = a ∧ (buildChunk current seq).stop = done.length ∧
      Led done (buildChunk current seq) := by
  obtain ⟨hdr, run, rfl, hmarker, hlaid, hsuffix, hend⟩ := h
  have hstart : (buildChunk (hdr ++ run) seq).start = a := by
    rcases hmarker with rfl | ⟨header, _, rfl⟩
    · cases run with
      | nil => exact absurd rfl hne
      | cons u run => exact hlaid.1
    · rfl
  have hstop : (buildChunk (hdr ++ run) seq).stop = done.length := by
    cases run with
    | nil =>
        rcases hmarker with rfl | ⟨header, _, rfl⟩
        · exact absurd rfl hne
        · simpa [buildChunk] using hend
    | cons u run =>
        obtain ⟨v, hv⟩ : exists v, (u :: run).getLast? = some v := by
          rw [List.getLast?_eq_some_getLast (List.cons_ne_nil u run)]
          exact ⟨_, rfl⟩
        have hlast : (hdr ++ u :: run).getLast? = some v := by
          rw [List.getLast?_append, hv]
          rfl
        simp only [buildChunk, hlast, Option.map_some, Option.getD_some]
        rw [hlaid.ends v hv]
        exact hend
  refine ⟨hstart, hstop, unitsText hdr, ?_, ?_⟩
  · have hslice : slice done a done.length = unitsText run := by
      rw [← slice_of_suffix hsuffix]
      congr 1
      omega
    rw [hstart, hstop, hslice]
    exact unitsText_append hdr run
  · rcases hmarker with rfl | ⟨header, hbar, rfl⟩
    · exact Or.inl rfl
    · right
      simpa using hbar

theorem collected_suffix {a : Nat} {current ov : List SplitUnit} (h : Collected done a current)
    (hsuffix : ov <:+ current) (hhead : forall u, ov.head? = some u -> u.start ≠ u.stop) :
    exists b, a ≤ b ∧ Laid b ov ∧ unitsText ov <:+ done ∧
      b + (unitsText ov).length = done.length := by
  obtain ⟨hdr, run, rfl, hmarker, hlaid, htext, hend⟩ := h
  have hrun : ov <:+ run := by
    rcases hmarker with rfl | ⟨header, _, rfl⟩
    · exact hsuffix
    · rw [List.singleton_append, List.suffix_cons_iff] at hsuffix
      rcases hsuffix with rfl | hrun
      · exact absurd rfl (hhead _ rfl)
      · exact hrun
  obtain ⟨b, hab, hlaid', hend'⟩ := hlaid.suffix hrun
  refine ⟨b, hab, hlaid', ?_, hend'.trans hend⟩
  obtain ⟨pre, rfl⟩ := hrun
  rw [unitsText_append] at htext
  exact (List.suffix_append _ _).trans htext

/-!
# The overlap
-/

theorem overlapTail_suffix (chunkOverlap chunkSize nextLen : Nat) (before kept : List SplitUnit)
    (overlapLen : Nat) :
    (overlapTail chunkOverlap chunkSize nextLen before kept overlapLen).1 <:+
      before.reverse ++ kept := by
  induction before generalizing kept overlapLen with
  | nil => exact List.suffix_rfl
  | cons u before ih =>
      simp only [overlapTail]
      split
      · exact List.suffix_append _ _
      · split
        · exact List.suffix_append _ _
        · rw [List.reverse_cons, List.append_assoc]
          exact ih (u :: kept) _

theorem trimOverlap_suffix (kept : List SplitUnit) (overlapLen : Nat) :
    (trimOverlap kept overlapLen).1 <:+ kept ∧
      forall u, (trimOverlap kept overlapLen).1.head? = some u -> u.start ≠ u.stop := by
  induction kept generalizing overlapLen with
  | nil =>
      refine ⟨List.suffix_rfl, ?_⟩
      intro u hu
      cases hu
  | cons u rest ih =>
      simp only [trimOverlap]
      split
      · obtain ⟨hsuffix, hhead⟩ := ih (overlapLen - u.text.length)
        exact ⟨hsuffix.trans (List.suffix_cons u rest), hhead⟩
      · rename_i hkept
        refine ⟨List.suffix_rfl, ?_⟩
        intro v hv
        cases hv
        simp only [Bool.or_eq_true, beq_iff_eq, not_or] at hkept
        exact hkept.1.1

theorem computeOverlap_suffix (current : List SplitUnit) (chunkOverlap chunkSize nextLen : Nat) :
    (computeOverlap current chunkOverlap chunkSize nextLen).1 <:+ current ∧
      forall u, (computeOverlap current chunkOverlap chunkSize nextLen).1.head? = some u ->
        u.start ≠ u.stop := by
  unfold computeOverlap
  split
  · refine ⟨List.nil_suffix, ?_⟩
    intro u hu
    cases hu
  · obtain ⟨hsuffix, hhead⟩ := trimOverlap_suffix
      (overlapTail chunkOverlap chunkSize nextLen current.reverse [] 0).1
      (overlapTail chunkOverlap chunkSize nextLen current.reverse [] 0).2
    refine ⟨hsuffix.trans ?_, hhead⟩
    have htail := overlapTail_suffix chunkOverlap chunkSize nextLen current.reverse [] 0
    simpa using htail

theorem shrink_suffix (chunkSize extra : Nat) (current : List SplitUnit) (curLen : Nat) :
    (MergeState.shrink chunkSize extra current curLen).1 <:+ current := by
  induction current generalizing curLen with
  | nil => exact List.suffix_rfl
  | cons u rest ih =>
      simp only [MergeState.shrink]
      split
      · exact (ih _).trans (List.suffix_cons u rest)
      · exact List.suffix_rfl

/-!
# The invariant of the loop
-/

/-- Every position counts. -/
def Everywhere (_ : Nat) : Prop := True

structure Merging (done : Text) (s : MergeState) : Prop where
  barred : s.ht.Barred
  emitted : exists a, Collected done a s.current ∧ Emitted Everywhere done a s.chunks

variable (p : Patterns)

namespace MergeState

theorem merging_start : Merging [] start where
  barred := HeaderTracker.barred_new
  emitted := ⟨0, collected_nil [], Emitted.nil _ _⟩

variable {s : MergeState}

theorem emitted_flush {a b : Nat} (hcollected : Collected done a s.current)
    (hemitted : Emitted Everywhere done a s.chunks) (hne : s.current ≠ []) (hab : a ≤ b)
    (hb : b ≤ done.length) :
    Emitted Everywhere done b s.flush.chunks := by
  obtain ⟨hstart, hstop, hled⟩ := buildChunk_collected hcollected hne s.chunks.length
  apply hemitted.push rfl hstart _ _ hab _ hled
  · rw [hstart, hstop]
    exact collected_le hcollected
  · rw [hstop]
  · rw [hstop]
    exact hb

theorem emitted_flushNonempty (hs : Merging done s) :
    s.flushNonempty.current = [] ∧ s.flushNonempty.ht = s.ht ∧
      Emitted Everywhere done done.length s.flushNonempty.chunks := by
  obtain ⟨a, hcollected, hemitted⟩ := hs.emitted
  unfold flushNonempty
  split
  · rename_i hempty
    have hnil : s.current = [] := List.isEmpty_iff.mp hempty
    have hend : a = done.length := by
      obtain ⟨hdr, run, heq, _, _, _, hend⟩ := hcollected
      rw [hnil] at heq
      obtain ⟨_, rfl⟩ := List.append_eq_nil_iff.mp heq.symm
      simpa using hend
    rw [hend] at hemitted
    exact ⟨hnil, rfl, hemitted⟩
  · rename_i hfull
    refine ⟨rfl, rfl, emitted_flush hcollected hemitted ?_ (collected_le hcollected)
      (Nat.le_refl _)⟩
    simpa using hfull

theorem merging_flushNonempty (hs : Merging done s) :
    Merging done s.flushNonempty := by
  obtain ⟨hcurrent, hht, hemitted⟩ := emitted_flushNonempty hs
  refine ⟨?_, done.length, ?_, hemitted⟩
  · rw [hht]
    exact hs.barred
  · rw [hcurrent]
    exact collected_nil done

theorem usableHeaders_bar {chunkSize : Nat} {ht : HeaderTracker} (hbarred : ht.Barred)
    (hne : usableHeaders chunkSize ht ≠ []) : '|' ∈ usableHeaders chunkSize ht := by
  unfold usableHeaders at hne ⊢
  split
  · rename_i hlong
    rw [if_pos hlong] at hne
    exact absurd rfl hne
  · rename_i hshort
    rw [if_neg hshort] at hne
    unfold HeaderTracker.getHeaders at hne ⊢
    cases hactive : ht.activeHeader with
    | none =>
        rw [hactive] at hne
        exact absurd rfl hne
    | some header => exact hbarred header hactive

variable {u : SplitUnit}

theorem merging_injectHeader (chunkSize : Nat) {headers : Text} {b : Nat}
    (hbarred : s.ht.Barred) (hheaders : headers ≠ [] -> '|' ∈ headers)
    (hstart : u.start = done.length) (hlaid : Laid b s.current)
    (htext : unitsText s.current <:+ done) (hend : b + (unitsText s.current).length = done.length)
    (hemitted : forall b', b ≤ b' -> b' ≤ done.length ->
      Emitted Everywhere done b' s.chunks) :
    Merging done (injectHeader p chunkSize headers u s) := by
  have hplain : Merging done s :=
    ⟨hbarred, b, ⟨[], s.current, rfl, Or.inl rfl, hlaid, htext, hend⟩,
      hemitted b (Nat.le_refl _) (by omega)⟩
  unfold injectHeader
  split
  · rename_i hfits
    have hbar : '|' ∈ headers := by
      apply hheaders
      intro hempty
      rw [hempty] at hfits
      cases hfits
    have hsuffix := shrink_suffix chunkSize (u.text.length + headers.length) s.current s.curLen
    dsimp only
    generalize shrink chunkSize (u.text.length + headers.length) s.current s.curLen = kept
      at hsuffix
    obtain ⟨run, runLen⟩ := kept
    obtain ⟨b', hle, hlaid', hend'⟩ := hlaid.suffix hsuffix
    have htext' : unitsText run <:+ done := by
      obtain ⟨pre, hpre⟩ := hsuffix
      rw [← hpre, unitsText_append] at htext
      exact (List.suffix_append _ _).trans htext
    have hend'' : b' + (unitsText run).length = done.length := hend'.trans hend
    have hemitted' := hemitted b' hle (by omega)
    dsimp only
    split
    · have hpos : (run.head?.map SplitUnit.start).getD u.start = b' := by
        cases run with
        | nil =>
            simp only [unitsText_nil, List.length_nil, Nat.add_zero] at hend''
            exact hstart.trans hend''.symm
        | cons v run => exact hlaid'.1
      refine ⟨hbarred, b', ⟨[⟨headers, b', b'⟩], run, ?_, Or.inr ⟨headers, hbar, rfl⟩, hlaid',
        htext', hend''⟩, hemitted'⟩
      rw [hpos]
      rfl
    · exact ⟨hbarred, b', ⟨[], run, rfl, Or.inl rfl, hlaid', htext', hend''⟩, hemitted'⟩
  · exact hplain

theorem merging_overflow (chunkSize chunkOverlap : Nat) {headers : Text} (hs : Merging done s)
    (hheaders : headers ≠ [] -> '|' ∈ headers) (hstart : u.start = done.length) :
    Merging done (overflow p chunkSize chunkOverlap headers u s) := by
  unfold overflow
  split
  · rename_i hfull
    have hne : s.current ≠ [] := by
      intro hempty
      simp [hempty] at hfull
    obtain ⟨a, hcollected, hemitted⟩ := hs.emitted
    obtain ⟨hsuffix, hhead⟩ :=
      computeOverlap_suffix s.current chunkOverlap chunkSize u.text.length
    dsimp only
    obtain ⟨b, hab, hlaid, htext, hend⟩ := collected_suffix hcollected hsuffix hhead
    apply merging_injectHeader p chunkSize (b := b)
    · exact hs.barred
    · exact hheaders
    · exact hstart
    · exact hlaid
    · exact htext
    · exact hend
    · intro b' hb hb'
      exact emitted_flush hcollected hemitted hne (Nat.le_trans hab hb) hb'
  · exact hs

theorem merging_capCurrent (u : SplitUnit) (hs : Merging done s) :
    Merging done (capCurrent u s) := by
  unfold capCurrent
  split
  · exact merging_flushNonempty hs
  · exact hs

theorem merging_push (hs : Merging done s) (hstart : u.start = done.length) (hne : u.text ≠ [])
    (hstop : u.stop = done.length + u.text.length) : Merging (done ++ u.text) (push u s) := by
  obtain ⟨a, ⟨hdr, run, hcurrent, hmarker, hlaid, htext, hend⟩, hemitted⟩ := hs.emitted
  refine ⟨hs.barred, a, ⟨hdr, run ++ [u], ?_, hmarker, ?_, ?_, ?_⟩, hemitted.extend u.text⟩
  · simp [push, hcurrent]
  · apply laid_append.mpr
    rw [hend]
    exact ⟨hlaid, hstart, hne, hstop, trivial⟩
  · obtain ⟨pre, rfl⟩ := htext
    exact ⟨pre, by simp⟩
  · simp only [unitsText_append, unitsText_cons, unitsText_nil, List.append_nil,
      List.length_append]
    omega

theorem merging_mergeUnit (chunkSize chunkOverlap : Nat) (hs : Merging done s)
    (hstart : u.start = done.length) (hne : u.text ≠ [])
    (hstop : u.stop = done.length + u.text.length) :
    Merging (done ++ u.text) (mergeUnit p chunkSize chunkOverlap u s) := by
  have htracked : Merging done { s with ht := s.ht.update p u.text } :=
    ⟨HeaderTracker.barred_update p u.text hs.barred, hs.emitted⟩
  unfold mergeUnit
  dsimp only
  generalize hs1 : (if ({ s with ht := s.ht.update p u.text } : MergeState).ht.headerEndedThisUnit
    then ({ s with ht := s.ht.update p u.text } : MergeState).flushNonempty
    else { s with ht := s.ht.update p u.text }) = s1
  have hready : Merging done s1 := by
    rw [← hs1]
    split
    · exact merging_flushNonempty htracked
    · exact htracked
  apply merging_push _ hstart hne hstop
  apply merging_capCurrent
  exact merging_overflow p chunkSize chunkOverlap hready
    (usableHeaders_bar hready.barred) hstart

/-- Pieces that follow the text read are pushed one by one. -/
theorem emitted_pieces {pieces : List SplitUnit} {chunks : List TextChunk}
    (hemitted : Emitted Everywhere done done.length chunks) (hlaid : Laid done.length pieces) :
    Emitted Everywhere (done ++ unitsText pieces) (done ++ unitsText pieces).length
      (pieces.foldl (fun chunks piece =>
        chunks ++ [⟨piece.text, [], chunks.length, piece.start, piece.stop⟩]) chunks) := by
  induction pieces generalizing done chunks with
  | nil => simpa using hemitted
  | cons piece pieces ih =>
      obtain ⟨hstart, hne, hstop, hrest⟩ := hlaid
      have hlength : (done ++ piece.text).length = piece.stop := by
        rw [List.length_append, hstop]
      rw [unitsText_cons, ← List.append_assoc, List.foldl_cons]
      apply ih
      · apply (hemitted.extend piece.text).push rfl hstart
        · exact hstart ▸ hstop ▸ Nat.le_add_right _ _
        · exact Nat.le_of_eq hlength.symm
        · simp
        · exact Nat.le_of_eq hlength
        · refine ⟨[], ?_, Or.inl rfl⟩
          have hslice := slice_of_suffix (List.suffix_append done piece.text)
          rw [hlength, hstop, Nat.add_sub_cancel] at hslice
          dsimp only
          rw [hstart, hstop, hslice]
          rfl
      · rw [hlength]
        exact hrest

theorem merging_mergeOversize (hs : Merging done s) (hstart : u.start = done.length) :
    Merging (done ++ u.text) (mergeOversize p u s) := by
  obtain ⟨hcurrent, hht, hemitted⟩ := emitted_flushNonempty hs
  obtain ⟨hlaid, htext⟩ := laid_forceSplitRunes u.text u.start
  rw [hstart] at hlaid
  have hpieces := emitted_pieces hemitted hlaid
  rw [← hstart, htext] at hpieces
  refine ⟨?_, (done ++ u.text).length, ?_, hpieces⟩
  · simp only [mergeOversize, pushPieces]
    rw [hht]
    exact HeaderTracker.barred_update p u.text hs.barred
  · simp only [mergeOversize, pushPieces]
    rw [hcurrent]
    exact collected_nil _

theorem merging_step (chunkSize chunkOverlap : Nat) (hs : Merging done s)
    (hstart : u.start = done.length) (hne : u.text ≠ [])
    (hstop : u.stop = done.length + u.text.length) :
    Merging (done ++ u.text) (step p chunkSize chunkOverlap s u) := by
  unfold step
  split
  · exact merging_mergeOversize p hs hstart
  · exact merging_mergeUnit p chunkSize chunkOverlap hs hstart hne hstop

theorem merging_foldl (chunkSize chunkOverlap : Nat) {units : List SplitUnit} (hs : Merging done s)
    (hlaid : Laid done.length units) :
    Merging (done ++ unitsText units) (units.foldl (step p chunkSize chunkOverlap) s) := by
  induction units generalizing done s with
  | nil => simpa using hs
  | cons u units ih =>
      obtain ⟨hstart, hne, hstop, hrest⟩ := hlaid
      rw [unitsText_cons, ← List.append_assoc, List.foldl_cons]
      apply ih (merging_step p chunkSize chunkOverlap hs hstart hne hstop)
      rw [List.length_append, ← hstop]
      exact hrest

end MergeState

theorem emitted_mergeUnits (chunkSize chunkOverlap : Nat) {t : Text} {units : List SplitUnit}
    (hlaid : Laid 0 units) (htext : unitsText units = t) :
    Emitted Everywhere t t.length (mergeUnits p units chunkSize chunkOverlap) := by
  have hlaid' : Laid ([] : Text).length units := hlaid
  have hmerged := MergeState.merging_foldl p chunkSize chunkOverlap MergeState.merging_start
    hlaid'
  rw [List.nil_append, htext] at hmerged
  exact (MergeState.emitted_flushNonempty hmerged).2.2

theorem emitted_splitText (text : Text) (chunkSize chunkOverlap : Nat) (separators : List Text) :
    Emitted Everywhere text text.length
      (splitText p text chunkSize chunkOverlap separators) := by
  unfold splitText
  split
  · rename_i hempty
    rw [List.isEmpty_iff.mp hempty]
    exact Emitted.nil _ _
  · dsimp only
    generalize (if chunkSize = 0 then defaultChunkSize else chunkSize) = size
    obtain ⟨hlaid, htext⟩ := laid_buildUnits p text separators size
    exact emitted_mergeUnits p size chunkOverlap hlaid htext

end Chunker
end KnowledgeBrain
