import KnowledgeBrain.Chunker.Blocks

/-!
# No text is lost

Whichever tier the validator lets through, the chunks are numbered, in range,
in order, and hold every character that is not white space.
-/

namespace KnowledgeBrain
namespace Chunker

open Foundation

/-- What a tier returns, and that it covers every position or only puts headers
in front of what it addresses. -/
structure TierOutput (t : Text) (chunks : List TextChunk) : Prop where
  chunked : Chunked (Inked t) t chunks
  whole : Span.Covers Everywhere t.length t.length (chunks.map TextChunk.span) ∨
    forall c, c ∈ chunks -> Led t c

theorem Chunked.tierOutput {t : Text} {chunks : List TextChunk}
    (h : Chunked Everywhere t chunks) : TierOutput t chunks where
  chunked := ⟨h.numbered, h.covers.weaken fun _ _ => trivial, h.carries⟩
  whole := Or.inl h.covers

namespace Engine

variable (e : Engine)

theorem tierOutput_splitText (text : Text) (cfg : SplitterConfig) :
    TierOutput text (splitText e.patterns text cfg.chunkSize cfg.chunkOverlap cfg.separators) :=
  (emitted_splitText e.patterns text cfg.chunkSize cfg.chunkOverlap
    cfg.separators).chunked.tierOutput

theorem tierOutput_runTier (tier : StrategyTier) (text : Text) (cfg : SplitterConfig)
    (profile : Option DocProfile) : TierOutput text (e.runTier tier text cfg profile) := by
  cases tier with
  | heading => exact (chunked_splitByHeadings e.patterns text cfg profile).tierOutput
  | heuristic =>
      have hemitted := emitted_splitByHeuristics e.patterns text cfg
      exact ⟨hemitted.chunked, Or.inr hemitted.led⟩
  | legacy => exact e.tierOutput_splitText text cfg

theorem splitText_ne_nil {text : Text} (cfg : SplitterConfig) (hne : text ≠ []) :
    splitText e.patterns text cfg.chunkSize cfg.chunkOverlap cfg.separators ≠ [] := by
  intro hnil
  have hemitted := emitted_splitText e.patterns text cfg.chunkSize cfg.chunkOverlap
    cfg.separators
  obtain ⟨m, hmem, _⟩ := hemitted.covers.covered 0 (List.length_pos_iff.mpr hne) trivial
  rw [hnil] at hmem
  cases hmem

/-- The first tier left that the validator accepts, or the recursive splitter. -/
def acceptedTier (e : Engine) (text : Text) (cfg : SplitterConfig)
    (profile : Option DocProfile) : List StrategyTier -> StrategyTier
  | [] => .legacy
  | tier :: rest =>
      if validateChunks (e.runTier tier text cfg profile) text.length cfg.chunkSize then tier
      else e.acceptedTier text cfg profile rest

theorem runChain_eq {text : Text} {cfg : SplitterConfig} {profile : Option DocProfile}
    {lastLegacy : List TextChunk}
    (hlegacy : lastLegacy = [] ∨ lastLegacy = e.runTier .legacy text cfg profile)
    (chain : List StrategyTier) :
    e.runChain text cfg profile lastLegacy chain =
      e.runTier (e.acceptedTier text cfg profile chain) text cfg profile := by
  induction chain generalizing lastLegacy with
  | nil =>
      simp only [runChain, acceptedTier]
      split
      · rfl
      · rename_i hfull
        rcases hlegacy with rfl | hlegacy
        · exact absurd rfl hfull
        · exact hlegacy
  | cons tier rest ih =>
      simp only [runChain, acceptedTier]
      split
      · rfl
      · apply ih
        split
        · rename_i hlast
          exact Or.inr (hlast.1 ▸ rfl)
        · exact hlegacy

theorem runTier_acceptedTier_ne_nil {text : Text} (cfg : SplitterConfig)
    (profile : Option DocProfile) (hne : text ≠ []) (chain : List StrategyTier) :
    e.runTier (e.acceptedTier text cfg profile chain) text cfg profile ≠ [] := by
  induction chain with
  | nil => exact e.splitText_ne_nil cfg hne
  | cons tier rest ih =>
      simp only [acceptedTier]
      split
      · rename_i hvalid
        intro hnil
        rw [hnil] at hvalid
        cases hvalid
      · exact ih

/-- The tier whose chunks are the answer, and the profile it gets. -/
def accepted (e : Engine) (text : Text) (cfg : SplitterConfig) :
    StrategyTier × Option DocProfile :=
  let (chain, profile) := e.resolveChainWithProfile text (e.ensureDefaults cfg)
  (e.acceptedTier text (e.ensureDefaults cfg) profile chain, profile)

theorem split_eq {text : Text} (cfg : SplitterConfig) (hne : text ≠ []) :
    e.split text cfg =
      e.runTier (e.accepted text cfg).1 text (e.ensureDefaults cfg) (e.accepted text cfg).2 := by
  unfold split accepted
  rw [show text.isEmpty = false by simpa using hne]
  exact e.runChain_eq (Or.inl rfl) _

theorem split_spec {text : Text} (cfg : SplitterConfig) (hne : text ≠ []) :
    e.split text cfg ≠ [] ∧ TierOutput text (e.split text cfg) := by
  rw [e.split_eq cfg hne]
  exact ⟨e.runTier_acceptedTier_ne_nil _ _ hne _, e.tierOutput_runTier _ text _ _⟩

/-- No text is lost by chunking. -/
theorem split_loses_nothing (e : Engine) (text : Text) (cfg : SplitterConfig)
    (hne : text ≠ []) :
    e.split text cfg ≠ [] ∧
      (e.split text cfg).map TextChunk.seq = List.range (e.split text cfg).length ∧
      (forall c, c ∈ e.split text cfg -> c.start ≤ c.stop ∧ c.stop ≤ text.length) ∧
      ((e.split text cfg).map TextChunk.start).Pairwise (· ≤ ·) ∧
      forall i r, text[i]? = some r -> isWhitespace r = false ->
        exists c, c ∈ e.split text cfg ∧ c.start ≤ i ∧ i < c.stop := by
  obtain ⟨hsome, houtput⟩ := e.split_spec cfg hne
  refine ⟨hsome, houtput.chunked.numbered, fun c hc => houtput.chunked.range hc, ?_, ?_⟩
  · have hstarts := houtput.chunked.covers.starts
    rw [List.pairwise_map] at hstarts ⊢
    exact hstarts
  · intro i r hr hink
    have hlt : i < text.length := (List.getElem?_eq_some_iff.mp hr).1
    exact exists_chunk_of_covers houtput.chunked.covers hlt ⟨r, hr, hink⟩

end Engine

/-!
# A table
-/

def tableHead : Text := "|A|\n|---|\n".toList

def firstRow : Text := "|1|\n".toList

def secondRow : Text := "|2|\n".toList

def tableText : Text := tableHead ++ firstRow ++ secondRow

/-- A pattern without matches. -/
def noMatches : Pattern where
  findIter _ := []
  ordered t := Nat.zero_le t.length

/-- The header of the table, wherever rows follow it. -/
def headMatches (t : Text) : List Span :=
  if t ∈ [tableHead, tableHead ++ firstRow, tableHead ++ secondRow, tableText] then [⟨0, 10⟩]
  else []

/-- The lines of the table. -/
def rowMatches (t : Text) : List Span :=
  if t = tableHead then [⟨0, 4⟩, ⟨4, 10⟩]
  else if t ∈ [tableHead ++ firstRow, tableHead ++ secondRow] then
    [⟨0, 4⟩, ⟨4, 10⟩, ⟨10, 14⟩]
  else if t = tableText then
    [⟨0, 4⟩, ⟨4, 10⟩, ⟨10, 14⟩, ⟨14, 18⟩]
  else []

/-- Only blank text and text that does not start with a bar end a table. -/
def endsTable (t : Text) : Bool :=
  (t.dropWhile isWhitespace).head? != some '|'

theorem ordered_headMatches (t : Text) : Span.Ordered 0 t.length (headMatches t) := by
  unfold headMatches
  split
  · rename_i hmem
    simp only [List.mem_cons, List.not_mem_nil, or_false] at hmem
    rcases hmem with rfl | rfl | rfl | rfl <;> decide
  · exact Nat.zero_le _

theorem ordered_rowMatches (t : Text) : Span.Ordered 0 t.length (rowMatches t) := by
  unfold rowMatches
  split
  · rename_i heq
    rw [heq]
    decide
  · split
    · rename_i hmem
      simp only [List.mem_cons, List.not_mem_nil, or_false] at hmem
      rcases hmem with rfl | rfl <;> decide
    · split
      · rename_i heq
        rw [heq]
        decide
      · exact Nat.zero_le _

/-- What the patterns find in texts made of the lines of the table. -/
def tablePatterns : Patterns where
  latex := noMatches
  image := noMatches
  link := noMatches
  tableHeader := ⟨headMatches, ordered_headMatches⟩
  tableRows := ⟨rowMatches, ordered_rowMatches⟩
  fence := noMatches
  tableStart t := if t = tableHead then some tableHead else none
  tableEnd := endsTable
  tableRow t := decide (t ∈ [['|', '1', '|'], ['|', '2', '|']])
  markdownHeading _ := none
  numberedSection _ := false
  allCapsHeading _ := false
  visualSeparator _ := false
  pageFooter _ := false
  germanChapter _ := false
  englishChapter _ := false
  chineseChapter _ := false
  excessiveBlanks := noMatches
  tableStart_bar := by
    intro t m h
    split at h
    · cases h
      decide
    · cases h
  tableRow_bar := by
    intro t h
    simp only [List.mem_cons, List.not_mem_nil, or_false, decide_eq_true_eq] at h
    rcases h with rfl | rfl <;> decide

def tableEngine : Engine where
  patterns := tablePatterns
  charsForTokenLimit tokens _ := tokens

/-- The recursive splitter with a chunk size and the defaults. -/
def sizedConfig (chunkSize : Nat) : SplitterConfig where
  chunkSize := chunkSize
  chunkOverlap := 0
  separators := []
  strategy := ""
  tokenLimit := 0
  languages := []

/-- The bar of the last row is in a chunk. -/
theorem Engine.split_loses_nothing_table :
    exists c, c ∈ tableEngine.split tableText (sizedConfig 14) ∧ c.start ≤ 16 ∧ 16 < c.stop :=
  (Engine.split_loses_nothing tableEngine tableText (sizedConfig 14) (by decide)).2.2.2.2
    16 '|' (by decide) (by decide)

end Chunker
end KnowledgeBrain
