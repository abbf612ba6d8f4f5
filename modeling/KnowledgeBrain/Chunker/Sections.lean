import KnowledgeBrain.Chunker.Strategy
import KnowledgeBrain.Chunker.Merging

/-!
# Sections cover the text

The sections between the heading boundaries follow each other, each of them is
covered, and joining small neighbours loses nothing.
-/

namespace KnowledgeBrain
namespace Chunker

open Foundation

/-!
# Positions of lines
-/

theorem lines_induction {motive : Text -> Prop} (last : forall line, '\n' ∉ line -> motive line)
    (next : forall line rest, '\n' ∉ line -> motive rest -> motive (line ++ '\n' :: rest))
    (t : Text) : motive t := by
  induction hlength : t.length using Nat.strong_induction_on generalizing t with
  | _ n ih =>
      by_cases hmem : '\n' ∈ t
      · rcases List.eq_append_cons_of_mem hmem with ⟨line, rest, rfl, hline⟩
        apply next line rest hline
        apply ih rest.length _ rest rfl
        rw [← hlength, List.length_append, List.length_cons]
        omega
      · exact last t hmem

theorem lines_last {line : Text} (h : '\n' ∉ line) : lines line = [line] :=
  List.splitOn_eq_singleton h

theorem lines_next {line : Text} (h : '\n' ∉ line) (rest : Text) :
    lines (line ++ '\n' :: rest) = line :: lines rest :=
  List.splitOn_append_cons_self_of_not_mem h rest

theorem lines_append (t u : Text) : lines (t ++ '\n' :: u) = lines t ++ lines u :=
  List.splitOn_append_cons_self t u

/-- The length of lines that all end with a line feed. -/
def endedLength (ls : List Text) : Nat :=
  (ls.map fun line => line.length + 1).sum

theorem endedLength_lines (t : Text) : endedLength (lines t) = t.length + 1 := by
  induction t using lines_induction with
  | last line hline =>
      rw [lines_last hline]
      rfl
  | next line rest hline ih =>
      rw [lines_next hline]
      unfold endedLength at ih ⊢
      rw [List.map_cons, List.sum_cons, ih, List.length_append, List.length_cons]
      omega

theorem openLinesFrom_sorted (pos : Nat) (inFence : Bool) (ls : List Text) :
    (openLinesFrom pos inFence ls).Pairwise (fun e f => e.1 < f.1) ∧
      forall e, e ∈ openLinesFrom pos inFence ls -> pos ≤ e.1 ∧ e.1 < pos + endedLength ls := by
  induction ls generalizing pos inFence with
  | nil =>
      constructor
      · exact List.Pairwise.nil
      · intro e hmem
        cases hmem
  | cons line rest ih =>
      have hrest : forall fence,
          (openLinesFrom (pos + line.length + (if rest.isEmpty then 0 else 1)) fence
              rest).Pairwise (fun e f => e.1 < f.1) ∧
            forall e, e ∈ openLinesFrom (pos + line.length + (if rest.isEmpty then 0 else 1))
                fence rest ->
              pos < e.1 ∧ e.1 < pos + endedLength (line :: rest) := by
        intro fence
        cases rest with
        | nil =>
            constructor
            · exact List.Pairwise.nil
            · intro e hmem
              cases hmem
        | cons second rest =>
            rcases ih (pos + line.length + 1) fence with ⟨hsorted, hbounds⟩
            constructor
            · exact hsorted
            · intro e hmem
              have hrange := hbounds e hmem
              unfold endedLength at hrange ⊢
              rw [List.map_cons, List.sum_cons]
              omega
      simp only [openLinesFrom]
      have hkept : forall fence,
          (openLinesFrom (pos + line.length + (if rest.isEmpty then 0 else 1)) fence
              rest).Pairwise (fun e f => e.1 < f.1) ∧
            forall e, e ∈ openLinesFrom (pos + line.length + (if rest.isEmpty then 0 else 1))
                fence rest ->
              pos ≤ e.1 ∧ e.1 < pos + endedLength (line :: rest) := by
        intro fence
        constructor
        · exact (hrest fence).1
        · intro e hmem
          have hrange := (hrest fence).2 e hmem
          exact ⟨Nat.le_of_lt hrange.1, hrange.2⟩
      split
      · exact hkept (!inFence)
      · split
        · exact hkept inFence
        · constructor
          · apply List.pairwise_cons.mpr
            exact ⟨fun e hmem => ((hrest inFence).2 e hmem).1, (hrest inFence).1⟩
          · intro e hmem
            rcases List.mem_cons.mp hmem with rfl | hmem
            · constructor
              · exact Nat.le_refl pos
              · unfold endedLength
                rw [List.map_cons, List.sum_cons]
                omega
            · exact (hkept inFence).2 e hmem

theorem openLines_positions (t : Text) :
    ((openLines t).map Prod.fst).Pairwise (· ≤ ·) ∧
      forall q, q ∈ (openLines t).map Prod.fst -> q ≤ t.length := by
  rcases openLinesFrom_sorted 0 false (lines t) with ⟨hsorted, hbounds⟩
  constructor
  · exact List.pairwise_map.mpr (hsorted.imp Nat.le_of_lt)
  · intro q hmem
    rcases List.mem_map.mp hmem with ⟨e, he, rfl⟩
    have hhigh := (hbounds e he).2
    rw [endedLength_lines, Nat.zero_add] at hhigh
    exact Nat.le_of_lt_succ hhigh

variable (p : Patterns)

/-- New boundaries stand at positions of lines. -/
theorem foldl_addBoundary (primaryLevel : Nat) (posLines : List (Nat × Text))
    (bounds : List HeadingBoundary) :
    exists qs : List Nat, qs.Sublist (posLines.map Prod.fst) ∧
      (posLines.foldl (addBoundary p primaryLevel) bounds).map HeadingBoundary.runeStart =
        bounds.map HeadingBoundary.runeStart ++ qs := by
  induction posLines generalizing bounds with
  | nil => exact ⟨[], List.Sublist.refl _, by simp⟩
  | cons posLine rest ih =>
      have hone : (addBoundary p primaryLevel bounds posLine).map HeadingBoundary.runeStart =
            bounds.map HeadingBoundary.runeStart ∨
          (addBoundary p primaryLevel bounds posLine).map HeadingBoundary.runeStart =
            bounds.map HeadingBoundary.runeStart ++ [posLine.1] := by
        unfold addBoundary
        split
        · exact Or.inl rfl
        · split
          · split
            · exact Or.inr (by simp)
            · left
              cases bounds <;> rfl
          · exact Or.inl rfl
      obtain ⟨qs, hsub, heq⟩ := ih (addBoundary p primaryLevel bounds posLine)
      rw [List.foldl_cons]
      rcases hone with hkept | hadded
      · rw [hkept] at heq
        exact ⟨qs, hsub.cons _, heq⟩
      · rw [hadded, List.append_assoc] at heq
        exact ⟨posLine.1 :: qs, hsub.cons_cons _, heq⟩

theorem headingBoundaries_positions (t : Text) (primaryLevel : Nat) :
    exists qs : List Nat,
      (findHeadingBoundaries p t primaryLevel).map HeadingBoundary.runeStart = 0 :: qs ∧
        qs.Pairwise (· ≤ ·) ∧ forall q, q ∈ qs -> q ≤ t.length := by
  unfold findHeadingBoundaries
  split
  · refine ⟨[], rfl, List.Pairwise.nil, ?_⟩
    intro q hmem
    cases hmem
  · obtain ⟨qs, hsub, heq⟩ := foldl_addBoundary p primaryLevel (openLines t) [⟨0, []⟩]
    obtain ⟨hsorted, hbounds⟩ := openLines_positions t
    exact ⟨qs, heq, hsorted.sublist hsub, fun q hq => hbounds q (hsub.subset hq)⟩

/-!
# Relocated chunks
-/

theorem span_relocate (seq base : Nat) (header : TextChunk -> Text) (subs : List TextChunk) :
    (relocate seq base header subs).map TextChunk.span =
      (subs.map TextChunk.span).map (Span.shift base) := by
  induction subs generalizing seq with
  | nil => rfl
  | cons sub subs ih =>
      simp only [relocate, List.map_cons, ih]
      rfl

theorem seq_relocate (seq base : Nat) (header : TextChunk -> Text) (subs : List TextChunk) :
    (relocate seq base header subs).map TextChunk.seq = List.range' seq subs.length := by
  induction subs generalizing seq with
  | nil => rfl
  | cons sub subs ih =>
      simp only [relocate, List.map_cons, ih, List.length_cons, List.range'_succ]

variable {c : TextChunk}

theorem mem_relocate {seq base : Nat} {header : TextChunk -> Text} {subs : List TextChunk}
    (hmem : c ∈ relocate seq base header subs) :
    exists sub, sub ∈ subs ∧ c.content = sub.content ∧ c.start = base + sub.start ∧
      c.stop = base + sub.stop := by
  induction subs generalizing seq with
  | nil => cases hmem
  | cons sub subs ih =>
      rcases List.mem_cons.mp hmem with rfl | hrest
      · exact ⟨sub, List.mem_cons_self, rfl, rfl, rfl⟩
      · obtain ⟨found, hfound, heq⟩ := ih hrest
        exact ⟨found, List.mem_cons_of_mem _ hfound, heq⟩

variable {P : Nat -> Prop} {t : Text}

/-- Chunks of the slice behind the front move the front to its end. -/
theorem Emitted.relocate {front stop : Nat} {chunks subs : List TextChunk}
    (h : Emitted P t front chunks) (hle : front ≤ stop) (hstop : stop ≤ t.length)
    (header : TextChunk -> Text)
    (hsubs : Emitted Everywhere (slice t front stop) (slice t front stop).length subs) :
    Emitted P t stop (chunks ++ Chunker.relocate chunks.length front header subs) := by
  have hlength : (slice t front stop).length = stop - front := length_slice hstop
  refine ⟨?_, ?_, ?_⟩
  · have hcount : (Chunker.relocate chunks.length front header subs).length = subs.length := by
      have hseqs := congrArg List.length (seq_relocate chunks.length front header subs)
      simpa using hseqs
    have hjoin : List.range' 0 chunks.length ++ List.range' chunks.length subs.length =
        List.range' 0 (chunks.length + subs.length) := by
      have happend := List.range'_append_1 (s := 0) (m := chunks.length) (n := subs.length)
      rwa [Nat.zero_add] at happend
    unfold Numbered
    rw [List.map_append, h.numbered, seq_relocate, List.length_append, hcount,
      List.range_eq_range', List.range_eq_range']
    exact hjoin
  · have hcovers := hsubs.covers
    rw [hlength] at hcovers
    have happend := h.covers.append hcovers (by omega) fun _ _ => trivial
    rw [Nat.add_sub_cancel' hle] at happend
    rw [List.map_append, span_relocate]
    exact happend
  · intro c hmem
    rcases List.mem_append.mp hmem with hold | hnew
    · exact h.led c hold
    · obtain ⟨sub, hsub, hcontent, hstart, hend⟩ := mem_relocate hnew
      obtain ⟨lead, hlead, hbar⟩ := hsubs.led sub hsub
      have hrange := (hsubs.stop_le hsub).2
      rw [hlength] at hrange
      refine ⟨lead, ?_, hbar⟩
      rw [hcontent, hlead, hstart, hend, slice_slice t sub.start (by omega)]

/-!
# The sections
-/

theorem emitted_sectionChunks (cfg : SplitterConfig) (primaryLevel : Nat) {start stop : Nat}
    {prior : List TextChunk} (h : HeadingHierarchy) (hprior : Emitted P t start prior)
    (hle : start ≤ stop) (hstop : stop ≤ t.length) :
    Emitted P t stop (prior ++ sectionChunks p cfg primaryLevel (slice t start stop) start stop
      prior.length h) := by
  unfold sectionChunks
  dsimp only
  split
  · rename_i hempty
    rw [Nat.le_antisymm hempty hle, List.append_nil]
    exact hprior
  · split
    · exact hprior.push rfl rfl hle hstop hle (Nat.le_refl _) ⟨[], rfl, Or.inl rfl⟩
    · exact hprior.relocate hle hstop _ (emitted_splitText p _ cfg.chunkSize cfg.chunkOverlap
        cfg.separators)

/-- The sections behind a boundary cover the rest of the text. -/
theorem emitted_splitSections (cfg : SplitterConfig) (primaryLevel : Nat) {b : HeadingBoundary}
    {rest : List HeadingBoundary} {prior : List TextChunk} (h : HeadingHierarchy)
    (hprior : Emitted P t b.runeStart prior)
    (hsorted : ((b :: rest).map HeadingBoundary.runeStart).Pairwise (· ≤ ·))
    (hbounds : forall c, c ∈ b :: rest -> c.runeStart ≤ t.length) :
    Emitted P t t.length
      (prior ++ splitSections p cfg primaryLevel t prior.length h (b :: rest)) := by
  induction rest generalizing b prior h with
  | nil =>
      simp only [splitSections, sectionStop, List.append_nil]
      exact emitted_sectionChunks p cfg primaryLevel _ hprior
        (hbounds b List.mem_cons_self) (Nat.le_refl _)
  | cons next rest ih =>
      rw [splitSections]
      simp only [sectionStop]
      obtain ⟨hfirst, hlater⟩ := List.pairwise_cons.mp hsorted
      have hsection := emitted_sectionChunks p cfg primaryLevel
        (if b.line.isEmpty then h else h.observe p b.line) hprior
        (hfirst next.runeStart (by simp)) (hbounds next (by simp))
      rw [← List.append_assoc, ← List.length_append]
      exact ih _ hsection hlater fun c hc => hbounds c (List.mem_cons_of_mem _ hc)

/-!
# Joined chunks
-/

/-- The number of characters that are not white space. -/
def ink (t : Text) : Nat :=
  t.countP fun c => !isWhitespace c

/-- The content is the text addressed, or longer and with more ink. -/
def Carries (content addressed : Text) : Prop :=
  content = addressed ∨
    (addressed.length < content.length ∧ ink addressed < ink content)

theorem ink_append (t u : Text) : ink (t ++ u) = ink t + ink u := by
  simp [ink]

theorem ink_pos_of_bar (h : '|' ∈ t) : 0 < ink t := by
  unfold ink
  rw [List.countP_pos_iff]
  exact ⟨'|', h, by decide⟩

theorem Led.carries (h : Led t c) :
    Carries c.content (slice t c.start c.stop) := by
  obtain ⟨header, hcontent, rfl | hbar⟩ := h
  · exact Or.inl hcontent
  · right
    have hink := ink_pos_of_bar hbar
    have hlength := List.length_pos_of_mem hbar
    rw [hcontent, ink_append, List.length_append]
    omega

theorem Carries.append {c d t u : Text} (hc : Carries c t) (hd : Carries d u) :
    Carries (c ++ d) (t ++ u) := by
  unfold Carries
  rw [ink_append, ink_append, List.length_append, List.length_append]
  rcases hc with rfl | ⟨hclen, hcink⟩
  · rcases hd with rfl | ⟨hdlen, hdink⟩
    · exact Or.inl rfl
    · right
      omega
  · right
    rcases hd with rfl | ⟨hdlen, hdink⟩
    · omega
    · omega

/-- What is kept of every chunk when small neighbours are joined. -/
def Kept (t : Text) (c : TextChunk) : Prop :=
  c.start ≤ c.stop ∧ Carries c.content (slice t c.start c.stop)

theorem covers_coalesceFrom {hi front : Nat} (chunkSize target : Nat) (before : List Span)
    {cur : TextChunk} {rest : List TextChunk} (curLen : Nat)
    (h : Span.Covers P hi front (before ++ cur.span :: rest.map TextChunk.span)) :
    Span.Covers P hi front
      (before ++ (coalesceFrom chunkSize target cur curLen rest).map TextChunk.span) := by
  induction rest generalizing before cur curLen with
  | nil => exact h
  | cons next rest ih =>
      simp only [coalesceFrom]
      split
      · rename_i hjoin
        simp only [Bool.and_eq_true, beq_iff_eq] at hjoin
        apply ih
        exact h.join hjoin.1.1.2
      · rw [List.map_cons] at h ⊢
        rw [← List.singleton_append, ← List.append_assoc] at h ⊢
        exact ih _ next.content.length h

theorem kept_coalesceFrom (chunkSize target : Nat) {cur : TextChunk} {rest : List TextChunk}
    (curLen : Nat) (hcur : Kept t cur) (hrest : forall c, c ∈ rest -> Kept t c) :
    forall c, c ∈ coalesceFrom chunkSize target cur curLen rest -> Kept t c := by
  induction rest generalizing cur curLen with
  | nil =>
      intro c hmem
      rw [List.mem_singleton.mp hmem]
      exact hcur
  | cons next rest ih =>
      have hnext := hrest next List.mem_cons_self
      have hlater : forall c, c ∈ rest -> Kept t c := fun c hc =>
        hrest c (List.mem_cons_of_mem _ hc)
      simp only [coalesceFrom]
      split
      · rename_i hjoin
        simp only [Bool.and_eq_true, beq_iff_eq] at hjoin
        have hmeet := hjoin.1.1.2
        apply ih _ _ hlater
        refine ⟨Nat.le_trans hcur.1 (hmeet ▸ hnext.1), ?_⟩
        have hcarries := hcur.2.append hnext.2
        rw [hmeet, slice_append_slice t (hmeet ▸ hcur.1) hnext.1] at hcarries
        exact hcarries
      · intro c hmem
        rcases List.mem_cons.mp hmem with rfl | hc
        · exact hcur
        · exact ih _ hnext hlater c hc

theorem span_renumber (chunks : List TextChunk) :
    (renumber chunks).map TextChunk.span = chunks.map TextChunk.span := by
  apply List.ext_getElem
  · simp [renumber]
  · intro i hleft hright
    simp [renumber, TextChunk.span]

theorem numbered_renumber (chunks : List TextChunk) : Numbered (renumber chunks) := by
  unfold Numbered
  apply List.ext_getElem
  · simp
  · intro i hleft hright
    simp [renumber]

/-- Chunks of a whole text: what every tier returns. -/
structure Chunked (P : Nat -> Prop) (t : Text) (chunks : List TextChunk) : Prop where
  numbered : Numbered chunks
  covers : Span.Covers P t.length t.length (chunks.map TextChunk.span)
  carries : forall c, c ∈ chunks -> Carries c.content (slice t c.start c.stop)

variable {chunks : List TextChunk}

theorem Chunked.range (h : Chunked P t chunks) (hc : c ∈ chunks) :
    c.start ≤ c.stop ∧ c.stop ≤ t.length :=
  h.covers.ranges c.span (List.mem_map.mpr ⟨c, hc, rfl⟩)

theorem exists_chunk_of_covers {hi front i : Nat}
    (h : Span.Covers P hi front (chunks.map TextChunk.span)) (hlt : i < front) (hp : P i) :
    exists c, c ∈ chunks ∧ c.start ≤ i ∧ i < c.stop := by
  obtain ⟨m, hmem, hcover⟩ := h.covered i hlt hp
  obtain ⟨c, hc, rfl⟩ := List.mem_map.mp hmem
  exact ⟨c, hc, hcover⟩

theorem Emitted.chunked (h : Emitted P t t.length chunks) : Chunked P t chunks where
  numbered := h.numbered
  covers := h.covers
  carries := by
    intro c hmem
    exact (h.led c hmem).carries

theorem chunked_coalesceTinyChunks (chunkSize : Nat) (h : Emitted P t t.length chunks) :
    Chunked P t (coalesceTinyChunks chunks chunkSize) := by
  unfold coalesceTinyChunks
  split
  · rename_i first second rest
    split
    · exact h.chunked
    · refine ⟨numbered_renumber _, ?_, ?_⟩
      · rw [span_renumber]
        exact covers_coalesceFrom chunkSize _ [] first.content.length h.covers
      · have hkept : forall c, c ∈ first :: second :: rest -> Kept t c := fun c hc =>
          ⟨(h.stop_le hc).1, (h.led c hc).carries⟩
        intro c hmem
        obtain ⟨i, hi, rfl⟩ := List.mem_mapIdx.mp hmem
        exact (kept_coalesceFrom chunkSize _ first.content.length
          (hkept first List.mem_cons_self) (fun d hd => hkept d (List.mem_cons_of_mem _ hd))
          _ (List.getElem_mem hi)).2
  · exact h.chunked

/-- The sections of a text cover it. -/
theorem emitted_sections (text : Text) (cfg : SplitterConfig) (primaryLevel : Nat) :
    Emitted Everywhere text text.length (splitSections p cfg primaryLevel text 0
        HeadingHierarchy.new (findHeadingBoundaries p text primaryLevel)) ∧
      forall b, b ∈ findHeadingBoundaries p text primaryLevel -> b.runeStart ≤ text.length := by
  obtain ⟨qs, heq, hsorted, hbounds⟩ := headingBoundaries_positions p text primaryLevel
  generalize findHeadingBoundaries p text primaryLevel = bounds at heq
  cases bounds with
  | nil => cases heq
  | cons b rest =>
      rw [List.map_cons, List.cons.injEq] at heq
      obtain ⟨hzero, hrest⟩ := heq
      have hstart : Emitted Everywhere text b.runeStart [] := by
        rw [hzero]
        exact Emitted.nil _ _
      have hwithin : forall c, c ∈ b :: rest -> c.runeStart ≤ text.length := by
        intro c hc
        rcases List.mem_cons.mp hc with rfl | hc
        · rw [hzero]
          exact Nat.zero_le _
        · exact hbounds c.runeStart (hrest ▸ List.mem_map.mpr ⟨c, hc, rfl⟩)
      refine ⟨?_, hwithin⟩
      apply emitted_splitSections p cfg _ HeadingHierarchy.new hstart _ hwithin
      rw [List.map_cons, hrest, hzero]
      exact List.pairwise_cons.mpr ⟨fun q _ => Nat.zero_le q, hsorted⟩

/-- The heading tier covers every position. -/
theorem chunked_splitByHeadings (text : Text) (cfg : SplitterConfig) (profile : Option DocProfile) :
    Chunked Everywhere text (splitByHeadings p text cfg profile) := by
  have hlegacy : Chunked Everywhere text
      (splitText p text cfg.chunkSize cfg.chunkOverlap cfg.separators) :=
    (emitted_splitText p text cfg.chunkSize cfg.chunkOverlap cfg.separators).chunked
  unfold splitByHeadings
  split
  · rename_i hempty
    rw [List.isEmpty_iff.mp hempty]
    exact (Emitted.nil _ _).chunked
  · dsimp only
    split
    · exact hlegacy
    · split
      · exact hlegacy
      · exact chunked_coalesceTinyChunks _ (emitted_sections p text cfg _).1

end Chunker
end KnowledgeBrain
