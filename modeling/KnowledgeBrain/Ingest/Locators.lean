import KnowledgeBrain.Chunker.Progress
import KnowledgeBrain.DocReader.Contract
import Mathlib.Algebra.Ring.Int.Defs

/-!
# Source locators of chunks

The chunking stage attaches to every chunk the units whose rendered spans meet
its bytes, and to the first chunk the units that have none.  Then it drops the
blank chunks.
-/

namespace KnowledgeBrain
namespace Ingest

open Foundation
open Chunker (Text TextChunk SplitterConfig Engine byteLen byteOffset isWhitespace isBlank ink)
open DocReader (StructuredSourceUnit SourceContract SourceUnitIdentity RenderedSpan UnitKind
  SourceLocator TableGrid)

inductive Resolution where
  | resolved
  | unresolved
deriving DecidableEq

/-- An entry of `source_locator`. -/
structure SourceHit where
  key : String
  unitId : String
  ordinal : Nat
  kind : UnitKind
  locator : SourceLocator
  grid : Option TableGrid
  identity : Option SourceUnitIdentity
  resolution : Resolution

/-- The fields of a `Chunk` that the chunking stage fills. -/
structure Chunk where
  chunkType : String
  content : Text
  contextHeader : Text
  startAt : Int
  endAt : Int
  sourceLocator : Option (List SourceHit)

/-- `n as i32`. -/
def asI32 (n : Nat) : Int :=
  if n % 2 ^ 32 < 2 ^ 31 then ((n % 2 ^ 32 : Nat) : Int)
  else ((n % 2 ^ 32 : Nat) : Int) - 2 ^ 32

def toDomainChunk (c : TextChunk) : Chunk where
  chunkType := "text"
  content := c.content
  contextHeader := c.contextHeader
  startAt := asI32 c.start
  endAt := asI32 c.stop
  sourceLocator := none

def toDomain (raw : List TextChunk) : List Chunk :=
  raw.map toDomainChunk

/-- `split_from_config` without parents and children. -/
def splitFromConfig (e : Engine) (markdown : Text) (cfg : SplitterConfig) : List Chunk :=
  toDomain (e.split markdown cfg)

/-!
# Annotation
-/

/-- The byte offsets of the characters, and of the end. -/
def charBytes : Nat -> Text -> List Nat
  | byte, [] => [byte]
  | byte, c :: t => byte :: charBytes (byte + c.utf8Size) t

/-- The byte at a stored character position. -/
def byteAt (markdown : Text) (position : Int) : Nat :=
  ((charBytes 0 markdown)[(max position 0).toNat]?).getD (byteLen markdown)

/-- `SourceContract::unit`. -/
def unitIdentity (contract : SourceContract) (unitId : String) : Option SourceUnitIdentity :=
  contract.units.find? fun unit => unit.unitId == unitId

def identityOf (contract : Option SourceContract) (unit : StructuredSourceUnit) :
    Option SourceUnitIdentity :=
  contract.bind fun contract => unitIdentity contract unit.key

/-- The bytes a unit was rendered as, as far as the contract knows them. -/
def spansOf (contract : Option SourceContract) (unit : StructuredSourceUnit) :
    List RenderedSpan :=
  ((identityOf contract unit).map SourceUnitIdentity.renderedSpans).getD []

def hitOf (contract : Option SourceContract) (unit : StructuredSourceUnit)
    (resolution : Resolution) : SourceHit where
  key := unit.key
  unitId := unit.key
  ordinal := unit.ordinal
  kind := unit.kind
  locator := unit.locator
  grid := unit.grid
  identity := identityOf contract unit
  resolution := resolution

def annotateUnit (contract : Option SourceContract) (chunkIndex start stop : Nat)
    (unit : StructuredSourceUnit) : Option SourceHit :=
  let identity := identityOf contract unit
  let mapped := identity.any fun u => !u.renderedSpans.isEmpty
  let intersects := identity.any fun u =>
    u.renderedSpans.any fun span => decide (span.startByte < stop) && decide (start < span.endByte)
  if intersects || (!mapped && chunkIndex == 0) then
    some (hitOf contract unit (if intersects then .resolved else .unresolved))
  else none

def annotateChunk (markdown : Text) (units : List StructuredSourceUnit)
    (contract : Option SourceContract) (chunkIndex : Nat) (chunk : Chunk) : Chunk :=
  let hits := units.filterMap (annotateUnit contract chunkIndex (byteAt markdown chunk.startAt)
    (byteAt markdown chunk.endAt))
  if hits.isEmpty then chunk else { chunk with sourceLocator := some hits }

def annotateSourceLocators (chunks : List Chunk) (markdown : Text)
    (units : List StructuredSourceUnit) (contract : Option SourceContract) : List Chunk :=
  chunks.mapIdx (annotateChunk markdown units contract)

def keepNonemptyChunks (chunks : List Chunk) : List Chunk :=
  chunks.filter fun c => !isBlank c.content

/-- The chunks `run_convert` stages. -/
def stagedChunks (e : Engine) (markdown : Text) (cfg : SplitterConfig)
    (units : List StructuredSourceUnit) (contract : Option SourceContract) : List Chunk :=
  keepNonemptyChunks
    (annotateSourceLocators (splitFromConfig e markdown cfg) markdown units contract)

/-!
# What locators say
-/

/-- The unit is in the locator of the chunk, with a resolution. -/
def Appears (contract : Option SourceContract) (c : Chunk) (unit : StructuredSourceUnit)
    (resolution : Resolution) : Prop :=
  exists hits, c.sourceLocator = some hits ∧ hitOf contract unit resolution ∈ hits

/-- A character that is not white space lies in the span. -/
def Visible (markdown : Text) (span : RenderedSpan) : Prop :=
  exists i r, markdown[i]? = some r ∧ isWhitespace r = false ∧
    span.startByte ≤ byteOffset markdown i ∧ byteOffset markdown (i + 1) ≤ span.endByte

/-- The span meets the bytes of the chunk. -/
def Meets (markdown : Text) (c : Chunk) (span : RenderedSpan) : Prop :=
  span.startByte < byteOffset markdown c.endAt.toNat ∧
    byteOffset markdown c.startAt.toNat < span.endByte

/-- Locators are complete and sound. -/
structure LocatorsTrue (markdown : Text) (units : List StructuredSourceUnit)
    (contract : Option SourceContract) (chunks : List Chunk) : Prop where
  complete : forall unit, unit ∈ units ->
    (exists span, span ∈ spansOf contract unit ∧ Visible markdown span) ->
    exists c, c ∈ chunks ∧ Appears contract c unit .resolved
  sound : forall c, c ∈ chunks -> forall unit, unit ∈ units ->
    Appears contract c unit .resolved ->
    exists span, span ∈ spansOf contract unit ∧ Meets markdown c span
  kept : chunks ≠ [] -> forall unit, unit ∈ units -> spansOf contract unit = [] ->
    exists c, c ∈ chunks ∧ Appears contract c unit .unresolved

/-- A unit without rendered spans is lost with a first chunk that is blank, when
another chunk is not. -/
def KeepsUnmapped (raw : List TextChunk) (units : List StructuredSourceUnit)
    (contract : Option SourceContract) : Prop :=
  (exists unit, unit ∈ units ∧ spansOf contract unit = []) ->
    (exists c, c ∈ raw ∧ isBlank c.content = false) ->
    exists first, raw.head? = some first ∧ isBlank first.content = false

/-!
# Offsets
-/

theorem getElem_charBytes (byte : Nat) (t : Text) {i : Nat} (hi : i ≤ t.length) :
    (charBytes byte t)[i]? = some (byte + byteOffset t i) := by
  induction t generalizing byte i with
  | nil =>
      rw [Nat.le_zero.mp hi]
      rfl
  | cons c t ih =>
      cases i with
      | zero =>
          rfl
      | succ i =>
          have hrest := ih (byte + c.utf8Size) (Nat.le_of_succ_le_succ hi)
          rw [charBytes, List.getElem?_cons_succ, hrest]
          unfold byteOffset
          rw [List.take_succ_cons, Chunker.byteLen_cons, Nat.add_assoc]

theorem asI32_of_lt {n : Nat} (h : n < 2 ^ 31) : asI32 n = (n : Int) := by
  have hmod : n % 2 ^ 32 = n := Nat.mod_eq_of_lt (by omega)
  unfold asI32
  rw [hmod, if_pos h]

theorem byteAt_of_le {markdown : Text} {n : Nat} (h : n ≤ markdown.length) :
    byteAt markdown (n : Int) = byteOffset markdown n := by
  unfold byteAt
  have hnat : (max (n : Int) 0).toNat = n := by
    omega
  rw [hnat, getElem_charBytes 0 markdown h, Option.getD_some, Nat.zero_add]

/-!
# Chunks that are staged
-/

section Staged

variable {markdown : Text} {units : List StructuredSourceUnit} {contract : Option SourceContract}

@[simp]
theorem annotateChunk_content (j : Nat) (c : Chunk) :
    (annotateChunk markdown units contract j c).content = c.content := by
  unfold annotateChunk
  dsimp only
  split
  · rfl
  · rfl

theorem annotateChunk_range (j : Nat) (c : Chunk) :
    (annotateChunk markdown units contract j c).startAt = c.startAt ∧
      (annotateChunk markdown units contract j c).endAt = c.endAt := by
  unfold annotateChunk
  dsimp only
  split
  · exact ⟨rfl, rfl⟩
  · exact ⟨rfl, rfl⟩

theorem mem_stagedChunks (e : Engine) (cfg : SplitterConfig) {c : Chunk} :
    c ∈ stagedChunks e markdown cfg units contract <->
      exists j raw, (e.split markdown cfg)[j]? = some raw ∧ isBlank raw.content = false ∧
        c = annotateChunk markdown units contract j (toDomainChunk raw) := by
  unfold stagedChunks keepNonemptyChunks annotateSourceLocators splitFromConfig toDomain
  rw [List.mem_filter, List.mem_mapIdx]
  constructor
  · rintro ⟨⟨j, hj, rfl⟩, hink⟩
    rw [List.length_map] at hj
    refine ⟨j, (e.split markdown cfg)[j], List.getElem?_eq_getElem hj, ?_, ?_⟩
    · rw [annotateChunk_content, List.getElem_map, Bool.not_eq_true'] at hink
      exact hink
    · rw [List.getElem_map]
  · rintro ⟨j, raw, hraw, hink, rfl⟩
    rcases List.getElem?_eq_some_iff.mp hraw with ⟨hj, rfl⟩
    refine ⟨⟨j, ?_, ?_⟩, ?_⟩
    · rw [List.length_map]
      exact hj
    · rw [List.getElem_map]
    · rw [annotateChunk_content]
      show (!isBlank (e.split markdown cfg)[j].content) = true
      rw [hink]
      rfl

theorem intersects_iff (contract : Option SourceContract) (start stop : Nat)
    (unit : StructuredSourceUnit) :
    ((identityOf contract unit).any fun u => u.renderedSpans.any fun span =>
        decide (span.startByte < stop) && decide (start < span.endByte)) = true <->
      exists span, span ∈ spansOf contract unit ∧ span.startByte < stop ∧ start < span.endByte := by
  unfold spansOf
  cases identityOf contract unit with
  | none =>
      simp
  | some identity =>
      simp

theorem mapped_iff (contract : Option SourceContract) (unit : StructuredSourceUnit) :
    ((identityOf contract unit).any fun u => !u.renderedSpans.isEmpty) = true <->
      spansOf contract unit ≠ [] := by
  unfold spansOf
  cases identityOf contract unit with
  | none =>
      simp
  | some identity =>
      simp

variable {unit : StructuredSourceUnit}

/-- A chunk resolves the units whose spans it meets; the first keeps the others. -/
theorem annotateUnit_eq_some {j start stop : Nat} {hit : SourceHit} :
    annotateUnit contract j start stop unit = some hit <->
      (hit = hitOf contract unit .resolved ∧
        exists span, span ∈ spansOf contract unit ∧ span.startByte < stop ∧ start < span.endByte) ∨
      (hit = hitOf contract unit .unresolved ∧ spansOf contract unit = [] ∧ j = 0) := by
  have hmeets := intersects_iff contract start stop unit
  have hmapped := mapped_iff contract unit
  unfold annotateUnit
  dsimp only
  by_cases hcase : exists span, span ∈ spansOf contract unit ∧ span.startByte < stop ∧
      start < span.endByte
  · rw [hmeets.mpr hcase]
    simp only [Bool.true_or, if_true, Option.some.injEq]
    constructor
    · intro heq
      exact Or.inl ⟨heq.symm, hcase⟩
    · rintro (⟨heq, _⟩ | ⟨_, hnone, _⟩)
      · exact heq.symm
      · rcases hcase with ⟨span, hmem, _⟩
        rw [hnone] at hmem
        cases hmem
  · rw [Bool.eq_false_iff.mpr fun h => hcase (hmeets.mp h)]
    simp only [Bool.false_or, Bool.false_eq_true, if_false, Bool.and_eq_true, beq_iff_eq]
    by_cases hfirst : spansOf contract unit = [] ∧ j = 0
    · rw [if_pos]
      · constructor
        · intro heq
          cases heq
          exact Or.inr ⟨rfl, hfirst⟩
        · rintro (⟨_, hmeet⟩ | ⟨heq, _⟩)
          · exact absurd hmeet hcase
          · rw [heq]
      · constructor
        · rw [Bool.not_eq_true', ← Bool.not_eq_true]
          intro h
          exact hmapped.mp h hfirst.1
        · exact hfirst.2
    · rw [if_neg]
      · constructor
        · intro heq
          cases heq
        · rintro (⟨_, hmeet⟩ | ⟨_, hnone⟩)
          · exact absurd hmeet hcase
          · exact absurd hnone hfirst
      · rintro ⟨hunmapped, hzero⟩
        apply hfirst
        constructor
        · by_cases hspans : spansOf contract unit = []
          · exact hspans
          · rw [hmapped.mpr hspans] at hunmapped
            cases hunmapped
        · exact hzero

variable {raw : TextChunk}

theorem appears_annotateChunk {j : Nat} {resolution : Resolution} :
    Appears contract (annotateChunk markdown units contract j (toDomainChunk raw)) unit
        resolution <->
      exists other, other ∈ units ∧
        annotateUnit contract j (byteAt markdown (asI32 raw.start))
          (byteAt markdown (asI32 raw.stop)) other = some (hitOf contract unit resolution) := by
  unfold Appears annotateChunk
  dsimp only [toDomainChunk]
  constructor
  · rintro ⟨hits, hlocator, hmem⟩
    split at hlocator
    · cases hlocator
    · cases hlocator
      exact List.mem_filterMap.mp hmem
  · intro hmem
    have hin := List.mem_filterMap.mpr hmem
    rw [if_neg]
    · exact ⟨_, rfl, hin⟩
    · intro hempty
      rw [List.isEmpty_iff.mp hempty] at hin
      cases hin

theorem spansOf_of_hit {unit other : StructuredSourceUnit} {r r' : Resolution}
    (h : hitOf contract unit r = hitOf contract other r') :
    spansOf contract unit = spansOf contract other := by
  have hidentity : identityOf contract unit = identityOf contract other :=
    congrArg SourceHit.identity h
  unfold spansOf
  rw [hidentity]

theorem appears_resolved {j : Nat} (hmem : unit ∈ units) :
    Appears contract (annotateChunk markdown units contract j (toDomainChunk raw)) unit
        .resolved <->
      exists span, span ∈ spansOf contract unit ∧
        span.startByte < byteAt markdown (asI32 raw.stop) ∧
        byteAt markdown (asI32 raw.start) < span.endByte := by
  rw [appears_annotateChunk]
  constructor
  · rintro ⟨other, hother, hhit⟩
    rcases annotateUnit_eq_some.mp hhit with ⟨heq, hspan⟩ | ⟨heq, _⟩
    · rw [spansOf_of_hit heq]
      exact hspan
    · cases congrArg SourceHit.resolution heq
  · intro hspan
    exact ⟨unit, hmem, annotateUnit_eq_some.mpr (Or.inl ⟨rfl, hspan⟩)⟩

theorem appears_unresolved {j : Nat} (hmem : unit ∈ units) :
    Appears contract (annotateChunk markdown units contract j (toDomainChunk raw)) unit
        .unresolved <-> spansOf contract unit = [] ∧ j = 0 := by
  rw [appears_annotateChunk]
  constructor
  · rintro ⟨other, hother, hhit⟩
    rcases annotateUnit_eq_some.mp hhit with ⟨heq, _⟩ | ⟨heq, hnone⟩
    · cases congrArg SourceHit.resolution heq
    · rw [spansOf_of_hit heq]
      exact hnone
  · intro hnone
    exact ⟨unit, hmem, annotateUnit_eq_some.mpr (Or.inr ⟨rfl, hnone⟩)⟩

end Staged

/-!
# Complete and sound
-/

section Truth

variable (e : Engine) (markdown : Text) (cfg : SplitterConfig)
  (units : List StructuredSourceUnit) (contract : Option SourceContract)

theorem split_range {j : Nat} {raw : TextChunk} (hraw : (e.split markdown cfg)[j]? = some raw) :
    raw.start ≤ raw.stop ∧ raw.stop ≤ markdown.length := by
  have hmem := List.mem_of_getElem? hraw
  have hne : markdown ≠ [] := by
    rintro rfl
    cases hmem
  exact (e.split_loses_nothing markdown cfg hne).2.2.1 raw hmem

theorem not_isBlank_of_addressed {raw : TextChunk} {i : Nat} {r : Char}
    (hcarries : Chunker.Carries raw.content (slice markdown raw.start raw.stop))
    (hr : markdown[i]? = some r) (hink : isWhitespace r = false) (hlow : raw.start ≤ i)
    (hhigh : i < raw.stop) : isBlank raw.content = false := by
  rw [← Bool.not_eq_true]
  intro hblank
  rcases hcarries with hcontent | ⟨_, hmore⟩
  · rw [hcontent] at hblank
    exact Chunker.not_inked_of_isBlank hblank i hlow hhigh ⟨r, hr, hink⟩
  · have hnone : ink raw.content = 0 := by
      apply List.countP_eq_zero.mpr
      intro c hc
      rw [Chunker.whitespace_of_isBlank hblank c hc]
      exact Bool.false_ne_true
    rw [hnone] at hmore
    exact Nat.not_lt_zero _ hmore

/-- The locators of units with spans are complete and sound. -/
theorem resolved_complete (hfits : markdown.length < 2 ^ 31) {unit : StructuredSourceUnit}
    (hunit : unit ∈ units)
    (hvisible : exists span, span ∈ spansOf contract unit ∧ Visible markdown span) :
    exists c, c ∈ stagedChunks e markdown cfg units contract ∧
      Appears contract c unit .resolved := by
  rcases hvisible with ⟨span, hspan, i, r, hr, hink, hstart, hstop⟩
  have hne : markdown ≠ [] := by
    rintro rfl
    cases hr
  rcases e.split_loses_nothing markdown cfg hne with ⟨_, _, hranges, _, hcovered⟩
  rcases hcovered i r hr hink with ⟨raw, hmem, hlow, hhigh⟩
  rcases hranges raw hmem with ⟨hle, hlen⟩
  rcases List.mem_iff_getElem?.mp hmem with ⟨j, hraw⟩
  refine ⟨annotateChunk markdown units contract j (toDomainChunk raw), ?_, ?_⟩
  · apply (mem_stagedChunks e cfg).mpr
    refine ⟨j, raw, hraw, ?_, rfl⟩
    exact not_isBlank_of_addressed markdown
      ((e.split_spec cfg hne).2.chunked.carries raw hmem) hr hink hlow hhigh
  · rw [appears_resolved hunit, asI32_of_lt (by omega), asI32_of_lt (by omega),
      byteAt_of_le hlen, byteAt_of_le (Nat.le_trans hle hlen)]
    have hbefore := Chunker.byteOffset_mono markdown hlow
    have hbehind : byteOffset markdown (i + 1) ≤ byteOffset markdown raw.stop :=
      Chunker.byteOffset_mono markdown (Nat.succ_le_of_lt hhigh)
    have hinside : byteOffset markdown i < byteOffset markdown (i + 1) :=
      Chunker.byteOffset_lt markdown (Nat.lt_succ_self i) (by omega)
    refine ⟨span, hspan, ?_, ?_⟩
    · omega
    · omega

theorem resolved_sound (hfits : markdown.length < 2 ^ 31) {c : Chunk}
    (hc : c ∈ stagedChunks e markdown cfg units contract) {unit : StructuredSourceUnit}
    (hunit : unit ∈ units) (happears : Appears contract c unit .resolved) :
    exists span, span ∈ spansOf contract unit ∧ Meets markdown c span := by
  rcases (mem_stagedChunks e cfg).mp hc with ⟨j, raw, hraw, _, rfl⟩
  rcases split_range e markdown cfg hraw with ⟨hle, hlen⟩
  have hstart := asI32_of_lt (n := raw.start) (by omega)
  have hstop := asI32_of_lt (n := raw.stop) (by omega)
  rw [appears_resolved hunit, hstart, hstop, byteAt_of_le hlen,
    byteAt_of_le (Nat.le_trans hle hlen)] at happears
  rcases happears with ⟨span, hspan, hmeets⟩
  refine ⟨span, hspan, ?_⟩
  unfold Meets
  rw [(annotateChunk_range j _).1, (annotateChunk_range j _).2]
  show span.startByte < byteOffset markdown (asI32 raw.stop).toNat ∧
    byteOffset markdown (asI32 raw.start).toNat < span.endByte
  rw [hstart, hstop]
  exact hmeets

/-- Units without spans are kept when the first chunk is, and only then. -/
theorem kept_iff :
    (stagedChunks e markdown cfg units contract ≠ [] -> forall unit, unit ∈ units ->
        spansOf contract unit = [] -> exists c, c ∈ stagedChunks e markdown cfg units contract ∧
          Appears contract c unit .unresolved) <->
      KeepsUnmapped (e.split markdown cfg) units contract := by
  constructor
  · rintro hkept ⟨unit, hunit, hnone⟩ ⟨other, hother, hink⟩
    rcases List.mem_iff_getElem?.mp hother with ⟨k, hk⟩
    have hsome : stagedChunks e markdown cfg units contract ≠ [] :=
      List.ne_nil_of_mem ((mem_stagedChunks e cfg).mpr ⟨k, other, hk, hink, rfl⟩)
    rcases hkept hsome unit hunit hnone with ⟨c, hc, happears⟩
    rcases (mem_stagedChunks e cfg).mp hc with ⟨j, raw, hraw, hfull, rfl⟩
    rw [appears_unresolved hunit] at happears
    rw [happears.2] at hraw
    exact ⟨raw, List.head?_eq_getElem? .. ▸ hraw, hfull⟩
  · intro hkeeps hsome unit hunit hnone
    rcases List.exists_mem_of_ne_nil _ hsome with ⟨c, hc⟩
    rcases (mem_stagedChunks e cfg).mp hc with ⟨k, other, hk, hink, _⟩
    rcases hkeeps ⟨unit, hunit, hnone⟩ ⟨other, List.mem_of_getElem? hk, hink⟩ with
      ⟨first, hfirst, hfull⟩
    rw [List.head?_eq_getElem?] at hfirst
    refine ⟨annotateChunk markdown units contract 0 (toDomainChunk first), ?_, ?_⟩
    · exact (mem_stagedChunks e cfg).mpr ⟨0, first, hfirst, hfull, rfl⟩
    · exact (appears_unresolved hunit).mpr ⟨hnone, rfl⟩

/-- Locators are true only if the first chunk keeps the units without spans, and
in a text whose positions fit the columns they are true then. -/
theorem stagedChunks_locators :
    (LocatorsTrue markdown units contract (stagedChunks e markdown cfg units contract) ->
        KeepsUnmapped (e.split markdown cfg) units contract) ∧
      (markdown.length < 2 ^ 31 ->
        KeepsUnmapped (e.split markdown cfg) units contract ->
        LocatorsTrue markdown units contract (stagedChunks e markdown cfg units contract)) := by
  constructor
  · intro h
    exact (kept_iff e markdown cfg units contract).mp h.kept
  · intro hfits hkeeps
    constructor
    · intro unit hunit hvisible
      exact resolved_complete e markdown cfg units contract hfits hunit hvisible
    · intro c hc unit hunit happears
      exact resolved_sound e markdown cfg units contract hfits hc hunit happears
    · exact (kept_iff e markdown cfg units contract).mpr hkeeps

end Truth

def plainEngine : Engine where
  patterns := Chunker.plainPatterns
  charsForTokenLimit tokens _ := tokens

/-- A unit the reader has no spans for. -/
def unmappedUnit : StructuredSourceUnit where
  key := "u0"
  ordinal := 0
  kind := .sectionUnit
  text := "word".toList
  locator := .attachment "a" "b"
  grid := none

def wordUnit : StructuredSourceUnit :=
  { unmappedUnit with key := "u1", ordinal := 1 }

/-- The second of two lines, rendered from the sixth byte on. -/
def wordContract : SourceContract where
  schemaVersion := 1
  documentRevision := ""
  parserVersion := ""
  markdownSha256 := ""
  units := [⟨"u1", 1, .sectionUnit, "", none, none, none, none, [], none, none, none, [⟨5, 9⟩],
    .complete, [], none, []⟩]

def twoLines : Text := "more\nword".toList

/-- One unit has a span, the other none; each is where it should be. -/
theorem twoLines_located : spansOf (some wordContract) wordUnit = [⟨5, 9⟩] ∧
    spansOf (some wordContract) unmappedUnit = [] ∧
    LocatorsTrue twoLines [unmappedUnit, wordUnit] (some wordContract)
      (stagedChunks plainEngine twoLines (Chunker.sizedConfig 4) [unmappedUnit, wordUnit]
        (some wordContract)) :=
  ⟨rfl, rfl, (stagedChunks_locators _ _ _ _ _).2 (by decide)
    fun _ _ => ⟨_, rfl, by decide⟩⟩

/-!
# A blank first chunk
-/

/-- A blank line and a word. -/
def indented : Text := "\n\nword".toList

theorem split_indented : (plainEngine.split indented (Chunker.sizedConfig 4)).map
    (fun c => c.content) = ["\n\n".toList, "word".toList] := by
  decide

/-- The blank line is dropped, and the unit with it. -/
theorem indented_loses_unit : ¬ LocatorsTrue indented [unmappedUnit] none
    (stagedChunks plainEngine indented (Chunker.sizedConfig 4) [unmappedUnit] none) := by
  intro h
  have hsplit := split_indented
  have hkeeps := (kept_iff plainEngine indented (Chunker.sizedConfig 4) [unmappedUnit] none).mp
    h.kept
  generalize plainEngine.split indented (Chunker.sizedConfig 4) = raw at hsplit hkeeps
  have hword : exists c, c ∈ raw ∧ isBlank c.content = false := by
    have hmem : "word".toList ∈ raw.map fun c => c.content := by
      rw [hsplit]
      exact List.mem_cons_of_mem _ List.mem_cons_self
    rcases List.mem_map.mp hmem with ⟨c, hc, hcontent⟩
    refine ⟨c, hc, ?_⟩
    rw [hcontent]
    decide
  rcases hkeeps ⟨unmappedUnit, List.mem_cons_self, rfl⟩ hword with ⟨first, hfirst, hfull⟩
  have hhead := congrArg List.head? hsplit
  rw [List.head?_map, hfirst] at hhead
  have hblank : first.content = "\n\n".toList := Option.some.inj hhead
  rw [hblank] at hfull
  exact absurd hfull (by decide)

end Ingest
end KnowledgeBrain
