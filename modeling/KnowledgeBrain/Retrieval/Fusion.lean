import KnowledgeBrain.Retrieval.Sources
import Mathlib.Data.Nat.Cast.Field

/-!
# The retrieval policy

The versioned policy artifact and its validation.  Recall and reranking read a
part of it; what is accepted keeps the numbers of that part in range.
-/

namespace KnowledgeBrain
namespace Retrieval

open Foundation ExactRational
open Chunker (Text)
open Workflow (Uuid)

/-- `RetrievalPolicyV2Error::Invalid`. -/
inductive PolicyError where
  | invalid (message : String)
deriving DecidableEq

/-!
# Constants
-/

def retrievalPolicySchemaV2 : Nat := 2

def retrievalPolicyMaxTopK : Nat := 1000000

def retrievalPolicyMaxTimeoutMs : Nat := 3600000

def retrievalPolicyMaxHits : Nat := 1000000

def retrievalPolicyMaxChunkBytes : Nat := 1073741824

def retrievalPolicyMaxTotalBytes : Nat := 1099511627776

def retrievalPolicyMaxRrfK : Nat := 1000000

def retrievalPolicyMaxWeightMillionths : Nat := 1000000000

def millionthsOne : Nat := 1000000

def trustedSourceTypesV2 : List String :=
  ["text", "parent_text", "image_ocr"]

def aPrimaryComparatorV2 : List String :=
  ["chunk_byte_length ASC", "document_id ASC", "source_chunk_id ASC"]

def aVersionComparatorV2 : List String :=
  ["product_id ASC", "product_version_id ASC"]

def bExactComparatorV2 : List String :=
  ["product_id ASC", "product_version_id ASC", "chunk_byte_length ASC", "document_id ASC",
    "source_chunk_id ASC"]

def cSemanticComparatorV2 : List String :=
  ["normalized_rerank_score DESC", "pre_rerank_rrf_rank ASC", "complete_source_identity ASC"]

def channelRankComparatorV2 : List String :=
  ["score_millionths DESC", "complete_signal_identity ASC"]

def preRerankRrfComparatorV2 : List String :=
  ["exact_rrf_score DESC", "vector_rank ASC NULLS LAST", "keyword_rank ASC NULLS LAST",
    "product_id ASC", "product_version_id ASC", "document_id ASC", "source_chunk_id ASC"]

/-!
# The artifact
-/

structure RetrievalRankingPolicyV2 where
  aPrimaryComparator : List Text
  aVersionComparator : List Text
  bExactComparator : List Text
  cSemanticComparator : List Text
  sourceFoldingVersion : Text
  channelScoreQuantizationVersion : Text
  channelRankComparator : List Text
  preRerankRrfComparator : List Text
  quotaSemanticsVersion : Text
deriving DecidableEq

structure RetrievalKeywordPolicyV2 extends KeywordPolicy where
  scoreVersion : Text
deriving DecidableEq

structure RetrievalEmbeddingPolicyV2 extends EmbeddingPolicy where
  policy : Text
  policyVersion : Text
  similarityVersion : Text
deriving DecidableEq

structure RetrievalRrfPolicyV2 extends RrfPolicy where
  scoreRepresentationVersion : Text
deriving DecidableEq

structure RetrievalRerankPolicyV2 extends RerankPolicy where
  providerProtocolVersion : Text
  timeoutMs : Nat
  scoreNormalizationVersion : Text
deriving DecidableEq

structure RetrievalRequestQuotasV2 where
  maxHits : Nat
  maxChunkBytes : Nat
  maxTotalBytes : Nat
deriving DecidableEq

structure RetrievalPolicyV2 where
  schemaVersion : Nat
  contractVersion : Text
  normalizationVersion : Text
  trustedSourceTypes : List Text
  ranking : RetrievalRankingPolicyV2
  keyword : RetrievalKeywordPolicyV2
  embedding : RetrievalEmbeddingPolicyV2
  rrf : RetrievalRrfPolicyV2
  rerank : RetrievalRerankPolicyV2
  requestQuotas : RetrievalRequestQuotasV2
deriving DecidableEq

/-- The part that recall and reranking read. -/
def RetrievalPolicyV2.readPart (policy : RetrievalPolicyV2) : RetrievalPolicy where
  keyword := policy.keyword.toKeywordPolicy
  embedding := policy.embedding.toEmbeddingPolicy
  rrf := policy.rrf.toRrfPolicy
  rerank := policy.rerank.toRerankPolicy

/-!
# Validation
-/

def validateSupportedIdentity (label : String) (value : Text) (supported : String) :
    Except PolicyError Unit :=
  reject (value ≠ supported.toList)
    (.invalid (label ++ " must use the supported identity " ++ supported))

def validateSupportedValues (label : String) (values : List Text) (supported : List String) :
    Except PolicyError Unit :=
  reject (values ≠ supported.map String.toList)
    (.invalid (label ++ " must use the supported canonical values in order"))

def validateSha256 (label : String) (value : Text) : Except PolicyError Unit :=
  reject (isSha256 value = false) (.invalid (label ++ " must be a lowercase 64-hex digest"))

def validateTopK (label : String) (value : Nat) : Except PolicyError Unit :=
  reject (value = 0 ∨ retrievalPolicyMaxTopK < value)
    (.invalid (label ++ " is outside the supported range"))

def validateThreshold (label : String) (value : Nat) : Except PolicyError Unit :=
  reject (millionthsOne < value) (.invalid (label ++ " must be between 0 and 1_000_000"))

def validateWeight (label : String) (value : Nat) : Except PolicyError Unit :=
  reject (value = 0 ∨ retrievalPolicyMaxWeightMillionths < value)
    (.invalid (label ++ " is outside the supported range"))

def RetrievalRankingPolicyV2.validate (ranking : RetrievalRankingPolicyV2) :
    Except PolicyError Unit := do
  validateSupportedValues "ranking.a_primary_comparator" ranking.aPrimaryComparator
    aPrimaryComparatorV2
  validateSupportedValues "ranking.a_version_comparator" ranking.aVersionComparator
    aVersionComparatorV2
  validateSupportedValues "ranking.b_exact_comparator" ranking.bExactComparator
    bExactComparatorV2
  validateSupportedValues "ranking.c_semantic_comparator" ranking.cSemanticComparator
    cSemanticComparatorV2
  validateSupportedIdentity "ranking.source_folding_version" ranking.sourceFoldingVersion
    "unique-live-trusted-source-v1"
  validateSupportedIdentity "ranking.channel_score_quantization_version"
    ranking.channelScoreQuantizationVersion "floor-unit-interval-millionths-v1"
  validateSupportedValues "ranking.channel_rank_comparator" ranking.channelRankComparator
    channelRankComparatorV2
  validateSupportedValues "ranking.pre_rerank_rrf_comparator" ranking.preRerankRrfComparator
    preRerankRrfComparatorV2
  validateSupportedIdentity "ranking.quota_semantics_version" ranking.quotaSemanticsVersion
    "fair-exact-prefix-fail-closed-v1"

def RetrievalKeywordPolicyV2.validate (keyword : RetrievalKeywordPolicyV2) :
    Except PolicyError Unit := do
  validateSupportedIdentity "keyword.tokenizer" keyword.tokenizer "latin-numeric-cjk-bigram"
  validateSupportedIdentity "keyword.tokenizer_version" keyword.tokenizerVersion "v1"
  validateSupportedIdentity "keyword.score_version" keyword.scoreVersion
    "postgres-ts-rank-cd-normalization32-millionths-v1"
  validateTopK "keyword.top_k" keyword.topK
  validateThreshold "keyword.threshold_millionths" keyword.thresholdMillionths

def RetrievalEmbeddingPolicyV2.validate (embedding : RetrievalEmbeddingPolicyV2) :
    Except PolicyError Unit := do
  validateSupportedIdentity "embedding.policy" embedding.policy "declared-version-model"
  validateSupportedIdentity "embedding.policy_version" embedding.policyVersion "v1"
  validateSupportedIdentity "embedding.similarity_version" embedding.similarityVersion
    "pgvector-cosine-clamp-zero-one-millionths-v1"
  validateSha256 "embedding.model_revision_sha256" embedding.modelRevisionSha256
  validateTopK "embedding.top_k" embedding.topK
  validateThreshold "embedding.threshold_millionths" embedding.thresholdMillionths

def RetrievalRrfPolicyV2.validate (rrf : RetrievalRrfPolicyV2) : Except PolicyError Unit := do
  reject (rrf.k = 0 ∨ retrievalPolicyMaxRrfK < rrf.k)
    (.invalid "rrf.k is outside the supported range")
  validateWeight "rrf.keyword_weight_millionths" rrf.keywordWeightMillionths
  validateWeight "rrf.vector_weight_millionths" rrf.vectorWeightMillionths
  validateSupportedIdentity "rrf.score_representation_version" rrf.scoreRepresentationVersion
    "reduced-u128-rational-v1"

def RetrievalRerankPolicyV2.validate (rerank : RetrievalRerankPolicyV2) :
    Except PolicyError Unit := do
  validateSupportedIdentity "rerank.provider_protocol_version" rerank.providerProtocolVersion
    "indexed-json-v1"
  validateSha256 "rerank.revision_sha256" rerank.revisionSha256
  validateSha256 "rerank.model_revision_sha256" rerank.modelRevisionSha256
  validateSha256 "rerank.config_revision_sha256" rerank.configRevisionSha256
  validateTopK "rerank.top_k" rerank.topK
  reject (rerank.timeoutMs = 0 ∨ retrievalPolicyMaxTimeoutMs < rerank.timeoutMs)
    (.invalid "rerank.timeout_ms is outside the supported range")
  validateSupportedIdentity "rerank.score_normalization_version"
    rerank.scoreNormalizationVersion "unit-interval-millionths-v1"

def RetrievalRequestQuotasV2.validate (quotas : RetrievalRequestQuotasV2) :
    Except PolicyError Unit :=
  reject (quotas.maxHits = 0 ∨ retrievalPolicyMaxHits < quotas.maxHits
      ∨ quotas.maxChunkBytes = 0 ∨ retrievalPolicyMaxChunkBytes < quotas.maxChunkBytes
      ∨ quotas.maxTotalBytes = 0 ∨ retrievalPolicyMaxTotalBytes < quotas.maxTotalBytes)
    (.invalid "request quotas are outside the supported range")

def RetrievalPolicyV2.validate (policy : RetrievalPolicyV2) : Except PolicyError Unit := do
  reject (policy.schemaVersion ≠ retrievalPolicySchemaV2)
    (.invalid "schema_version must be 2")
  reject (policy.contractVersion ≠ contractV2)
    (.invalid "contract_version must be knowledge-evidence-v2")
  validateSupportedIdentity "normalization_version" policy.normalizationVersion
    "unicode-whitespace-lowercase-v1"
  validateSupportedValues "trusted_source_types" policy.trustedSourceTypes trustedSourceTypesV2
  policy.ranking.validate
  policy.keyword.validate
  policy.embedding.validate
  policy.rrf.validate
  policy.rerank.validate
  policy.requestQuotas.validate

/-!
# What is accepted
-/

/-- The ranges of the numbers that rank fusion reads. -/
structure InRange (policy : RetrievalPolicy) : Prop where
  keywordTopK : policy.keyword.topK ≤ retrievalPolicyMaxTopK
  vectorTopK : policy.embedding.topK ≤ retrievalPolicyMaxTopK
  k_pos : 0 < policy.rrf.k
  k_le : policy.rrf.k ≤ retrievalPolicyMaxRrfK
  keywordWeight : policy.rrf.keywordWeightMillionths ≤ retrievalPolicyMaxWeightMillionths
  vectorWeight : policy.rrf.vectorWeightMillionths ≤ retrievalPolicyMaxWeightMillionths

theorem keyword_topK {keyword : RetrievalKeywordPolicyV2} (h : keyword.validate = .ok ()) :
    keyword.topK ≤ retrievalPolicyMaxTopK := by
  rcases reject_bind_eq_ok h with ⟨_, h⟩
  rcases reject_bind_eq_ok h with ⟨_, h⟩
  rcases reject_bind_eq_ok h with ⟨_, h⟩
  rcases reject_bind_eq_ok h with ⟨htop, _⟩
  exact Nat.le_of_not_lt (not_or.mp htop).2

theorem embedding_topK {embedding : RetrievalEmbeddingPolicyV2}
    (h : embedding.validate = .ok ()) : embedding.topK ≤ retrievalPolicyMaxTopK := by
  rcases reject_bind_eq_ok h with ⟨_, h⟩
  rcases reject_bind_eq_ok h with ⟨_, h⟩
  rcases reject_bind_eq_ok h with ⟨_, h⟩
  rcases reject_bind_eq_ok h with ⟨_, h⟩
  rcases reject_bind_eq_ok h with ⟨htop, _⟩
  exact Nat.le_of_not_lt (not_or.mp htop).2

/-- What validation accepts is in range. -/
theorem inRange_of_validate {policy : RetrievalPolicyV2} (h : policy.validate = .ok ()) :
    InRange policy.readPart := by
  rcases reject_bind_eq_ok h with ⟨_, h⟩
  rcases reject_bind_eq_ok h with ⟨_, h⟩
  rcases reject_bind_eq_ok h with ⟨_, h⟩
  rcases reject_bind_eq_ok h with ⟨_, h⟩
  rcases bind_eq_ok h with ⟨_, _, h⟩
  rcases bind_eq_ok h with ⟨_, hkeyword, h⟩
  rcases bind_eq_ok h with ⟨_, hembedding, h⟩
  rcases bind_eq_ok h with ⟨_, hrrf, _⟩
  rcases reject_bind_eq_ok hrrf with ⟨hk, hrrf⟩
  rcases reject_bind_eq_ok hrrf with ⟨hkeywordWeight, hrrf⟩
  rcases reject_bind_eq_ok hrrf with ⟨hvectorWeight, _⟩
  rw [not_or] at hk hkeywordWeight hvectorWeight
  constructor
  · exact keyword_topK hkeyword
  · exact embedding_topK hembedding
  · exact Nat.pos_of_ne_zero hk.1
  · exact Nat.le_of_not_lt hk.2
  · exact Nat.le_of_not_lt hkeywordWeight.2
  · exact Nat.le_of_not_lt hvectorWeight.2

/-!
# Rank fusion is exact

Within the ranges of an accepted policy no checked operation fails, and the
fused score is the sum of the reciprocal ranks.  The comparison by continued
fractions is the order of the rationals.
-/

namespace ExactRational

/-- The number that a fraction stands for. -/
def value (a : ExactRational) : Rat :=
  a.numerator / a.denominator

/-- A fraction in lowest terms that stands for a number. -/
structure Represents (a : ExactRational) (q : Rat) : Prop where
  reduced : Nat.Coprime a.numerator a.denominator
  value : a.value = q

theorem denominator_ne_zero (a : ExactRational) : (a.denominator : Rat) ≠ 0 :=
  Nat.cast_ne_zero.mpr (Nat.pos_iff_ne_zero.mp a.denominator_pos)

/-!
# Sums
-/

theorem gcd_eq {numerator denominator : Nat} (hpos : 0 < denominator) :
    gcd numerator denominator = Nat.gcd denominator numerator := by
  rw [gcd, gcdLoop_eq]
  exact max_eq_left (Nat.gcd_pos_of_pos_left numerator hpos)

theorem represents_reduce (numerator : Nat) {denominator : Nat} (hpos : 0 < denominator) :
    Represents (reduce numerator denominator hpos) ((numerator : Rat) / denominator) := by
  have hgcd : 0 < Nat.gcd denominator numerator := Nat.gcd_pos_of_pos_left numerator hpos
  constructor
  · show Nat.Coprime (numerator / gcd numerator denominator)
      (denominator / gcd numerator denominator)
    rw [gcd_eq hpos, Nat.gcd_comm]
    rw [Nat.gcd_comm] at hgcd
    exact Nat.coprime_div_gcd_div_gcd hgcd
  · show (((numerator / gcd numerator denominator : Nat) : Rat) /
      ((denominator / gcd numerator denominator : Nat) : Rat)) = _
    have hne : ((Nat.gcd denominator numerator : Nat) : Rat) ≠ 0 :=
      Nat.cast_ne_zero.mpr (Nat.pos_iff_ne_zero.mp hgcd)
    rw [gcd_eq hpos, Nat.cast_div (Nat.gcd_dvd_right denominator numerator) hne,
      Nat.cast_div (Nat.gcd_dvd_left denominator numerator) hne]
    exact div_div_div_cancel_right₀ hne _ _

theorem reduce_le (numerator : Nat) {denominator : Nat} (hpos : 0 < denominator) :
    (reduce numerator denominator hpos).numerator ≤ numerator ∧
      (reduce numerator denominator hpos).denominator ≤ denominator :=
  ⟨Nat.div_le_self _ _, Nat.div_le_self _ _⟩

theorem new_eq {numerator denominator : Nat} (hpos : 0 < denominator) :
    new numerator denominator = .ok (reduce numerator denominator hpos) := by
  unfold new
  rw [dif_neg (Nat.pos_iff_ne_zero.mp hpos)]

/-- A channel of an accepted policy: the fraction and its size. -/
theorem channel_represents {weight k rank : Nat}
    (hweight : weight ≤ retrievalPolicyMaxWeightMillionths) (hk : 0 < k)
    (hk' : k ≤ retrievalPolicyMaxRrfK) (hrank : rank ≤ retrievalPolicyMaxTopK) :
    exists a, channel weight k rank = .ok a ∧
      Represents a ((weight : Rat) / (million * (k + rank))) ∧
      a.numerator ≤ retrievalPolicyMaxWeightMillionths ∧
      a.denominator ≤ million * (retrievalPolicyMaxRrfK + retrievalPolicyMaxTopK) := by
  have hsum : k + rank ≤ retrievalPolicyMaxRrfK + retrievalPolicyMaxTopK :=
    Nat.add_le_add hk' hrank
  have hproduct : million * (k + rank) ≤
      million * (retrievalPolicyMaxRrfK + retrievalPolicyMaxTopK) :=
    Nat.mul_le_mul_left million hsum
  have hpos : 0 < million * (k + rank) :=
    Nat.mul_pos (by decide) (Nat.add_pos_left hk rank)
  have hadd : checkedAdd 128 k rank = some (k + rank) :=
    if_pos (Nat.lt_of_le_of_lt hsum (by decide))
  have hmul : checkedMul 128 million (k + rank) = some (million * (k + rank)) :=
    if_pos (Nat.lt_of_le_of_lt hproduct (by decide))
  refine ⟨reduce weight (million * (k + rank)) hpos, ?_, ?_, ?_, ?_⟩
  · unfold channel
    rw [hadd]
    show (require _ (checkedMul 128 million (k + rank)) >>= fun denominator =>
      new weight denominator) = _
    rw [hmul]
    exact new_eq hpos
  · have hrepresents := represents_reduce weight hpos
    push_cast at hrepresents
    exact hrepresents
  · exact Nat.le_trans (reduce_le weight hpos).1 hweight
  · exact Nat.le_trans (reduce_le weight hpos).2 hproduct

/-- Two channels of an accepted policy are added without overflow. -/
theorem add_represents {a b : ExactRational}
    (ha : a.numerator ≤ retrievalPolicyMaxWeightMillionths)
    (ha' : a.denominator ≤ million * (retrievalPolicyMaxRrfK + retrievalPolicyMaxTopK))
    (hb : b.numerator ≤ retrievalPolicyMaxWeightMillionths)
    (hb' : b.denominator ≤ million * (retrievalPolicyMaxRrfK + retrievalPolicyMaxTopK)) :
    exists c, a.add b = .ok c ∧ Represents c (a.value + b.value) := by
  have hleft := Nat.mul_le_mul ha hb'
  have hright := Nat.mul_le_mul hb ha'
  have hdenominator := Nat.mul_le_mul ha' hb'
  have hsum := Nat.add_le_add hleft hright
  have hpos : 0 < a.denominator * b.denominator :=
    Nat.mul_pos a.denominator_pos b.denominator_pos
  have hmulLeft : checkedMul 128 a.numerator b.denominator =
      some (a.numerator * b.denominator) :=
    if_pos (Nat.lt_of_le_of_lt hleft (by decide))
  have hmulRight : checkedMul 128 b.numerator a.denominator =
      some (b.numerator * a.denominator) :=
    if_pos (Nat.lt_of_le_of_lt hright (by decide))
  have hadd : checkedAdd 128 (a.numerator * b.denominator) (b.numerator * a.denominator) =
      some (a.numerator * b.denominator + b.numerator * a.denominator) :=
    if_pos (Nat.lt_of_le_of_lt hsum (by decide))
  have hmul : checkedMul 128 a.denominator b.denominator =
      some (a.denominator * b.denominator) :=
    if_pos (Nat.lt_of_le_of_lt hdenominator (by decide))
  refine ⟨reduce (a.numerator * b.denominator + b.numerator * a.denominator)
    (a.denominator * b.denominator) hpos, ?_, ?_⟩
  · unfold add
    rw [hmulLeft, hmulRight, hmul]
    show (require _ (checkedAdd 128 (a.numerator * b.denominator)
      (b.numerator * a.denominator)) >>= fun numerator =>
        new numerator (a.denominator * b.denominator)) = _
    rw [hadd]
    exact new_eq hpos
  · have hrepresents := represents_reduce
      (a.numerator * b.denominator + b.numerator * a.denominator) hpos
    refine ⟨hrepresents.reduced, hrepresents.value.trans ?_⟩
    have hane := a.denominator_ne_zero
    have hbne := b.denominator_ne_zero
    unfold value
    push_cast
    rw [div_add_div _ _ hane hbne, mul_comm (b.numerator : Rat)]

end ExactRational

/-- The reciprocal rank of a channel, where it has ranked the source. -/
def reciprocal (weightMillionths k : Nat) : Option Nat -> Rat
  | some rank => weightMillionths / (million * (k + rank))
  | none => 0

/-- The fused score of an accepted policy is the sum of the reciprocal ranks. -/
theorem rrfScore_represents {policy : RetrievalPolicy} (hpolicy : InRange policy)
    {vectorRank keywordRank : Option Nat}
    (hvector : forall rank, vectorRank = some rank -> rank ≤ policy.embedding.topK)
    (hkeyword : forall rank, keywordRank = some rank -> rank ≤ policy.keyword.topK)
    (hsome : vectorRank ≠ none ∨ keywordRank ≠ none) :
    exists score, rrfScore policy vectorRank keywordRank = .ok score ∧
      score.Represents (reciprocal policy.rrf.vectorWeightMillionths policy.rrf.k vectorRank +
        reciprocal policy.rrf.keywordWeightMillionths policy.rrf.k keywordRank) := by
  have hvectorPart : forall rank, vectorRank = some rank -> _ := fun rank hrank =>
    channel_represents hpolicy.vectorWeight hpolicy.k_pos hpolicy.k_le
      (Nat.le_trans (hvector rank hrank) hpolicy.vectorTopK)
  have hkeywordPart : forall rank, keywordRank = some rank -> _ := fun rank hrank =>
    channel_represents hpolicy.keywordWeight hpolicy.k_pos hpolicy.k_le
      (Nat.le_trans (hkeyword rank hrank) hpolicy.keywordTopK)
  cases vectorRank with
  | none =>
      cases keywordRank with
      | none =>
          exact absurd hsome (by simp)
      | some rank =>
          rcases hkeywordPart rank rfl with ⟨part, hpart, hrepresents, _, _⟩
          refine ⟨part, ?_, ?_⟩
          · unfold rrfScore
            show (channel _ _ rank >>= fun a => pure (some a)) >>= _ = _
            rw [hpart]
            rfl
          · show part.Represents (0 + _)
            rw [zero_add]
            exact hrepresents
  | some rank =>
      rcases hvectorPart rank rfl with ⟨old, hold, hrepresents, hnumerator, hdenominator⟩
      cases keywordRank with
      | none =>
          refine ⟨old, ?_, ?_⟩
          · unfold rrfScore
            show (channel _ _ rank >>= fun a => pure (some a)) >>= _ = _
            rw [hold]
            rfl
          · show old.Represents (_ + 0)
            rw [add_zero]
            exact hrepresents
      | some rank' =>
          rcases hkeywordPart rank' rfl with
            ⟨part, hpart, hrepresents', hnumerator', hdenominator'⟩
          rcases add_represents hnumerator hdenominator hnumerator'
            hdenominator' with ⟨score, hscore, hsum⟩
          refine ⟨score, ?_, ?_⟩
          · unfold rrfScore
            show (channel _ _ rank >>= fun a => pure (some a)) >>= _ = _
            rw [hold]
            show (channel _ _ rank' >>= fun a => pure (some a)) >>= _ = _
            rw [hpart]
            exact hscore
          · rw [hrepresents.value, hrepresents'.value] at hsum
            exact hsum

/-!
# The comparison
-/

theorem compare_congr {A B : Type} [LinearOrder A] [LinearOrder B] {a b : A} {c d : B}
    (hlt : a < b <-> c < d) (hgt : b < a <-> d < c) : compare a b = compare c d := by
  rcases lt_trichotomy a b with h | h | h
  · rw [compare_lt_iff_lt.mpr h, compare_lt_iff_lt.mpr (hlt.mp h)]
  · have hsame : c = d := by
      apply le_antisymm
      · exact not_lt.mp fun hlt' => absurd h (ne_of_gt (hgt.mpr hlt'))
      · exact not_lt.mp fun hlt' => absurd h (ne_of_lt (hlt.mpr hlt'))
    rw [compare_eq_iff_eq.mpr h, compare_eq_iff_eq.mpr hsame]
  · rw [compare_gt_iff_gt.mpr h, compare_gt_iff_gt.mpr (hgt.mp h)]

theorem cross_lt_of_div_lt {a b c d : Nat} (hb : 0 < b) (hlt : a / b < c / d) :
    a * d < c * b := by
  have hupper : a < (a / b + 1) * b := by
    have hdiv := Nat.lt_div_mul_add (a := a) hb
    rw [Nat.add_one_mul]
    exact hdiv
  have hlower : c / d * d ≤ c := Nat.div_mul_le_self c d
  have hd : 0 < d := by
    apply Nat.pos_of_ne_zero
    rintro rfl
    rw [Nat.div_zero] at hlt
    exact absurd hlt (Nat.not_lt_zero _)
  calc
    a * d < (a / b + 1) * b * d := Nat.mul_lt_mul_of_pos_right hupper hd
    _ ≤ c / d * b * d := Nat.mul_le_mul_right d (Nat.mul_le_mul_right b hlt)
    _ = c / d * d * b := Nat.mul_right_comm _ _ _
    _ ≤ c * b := Nat.mul_le_mul_right b hlower

theorem cross_lt_of_mod {a b c d : Nat} (hsame : a / b = c / d) :
    a * d < c * b <-> a % b * d < c % d * b := by
  have ha : a = b * (c / d) + a % b := by
    rw [← hsame]
    exact (Nat.div_add_mod a b).symm
  have hc : c = d * (c / d) + c % d := (Nat.div_add_mod c d).symm
  have hleft : a * d = b * (c / d) * d + a % b * d := by
    rw [← Nat.add_mul, ← ha]
  have hright : c * b = d * (c / d) * b + c % d * b := by
    rw [← Nat.add_mul, ← hc]
  have hcommon : d * (c / d) * b = b * (c / d) * d := by
    rw [Nat.mul_comm (d * (c / d)) b, Nat.mul_comm d, Nat.mul_assoc]
  rw [hleft, hright, hcommon, Nat.add_lt_add_iff_left]

theorem oriented_not (inverted : Bool) (ordering : Ordering) :
    oriented (!inverted) ordering = oriented inverted ordering.swap := by
  cases inverted with
  | false =>
      rfl
  | true =>
      unfold oriented
      simp

/-- The comparison by continued fractions compares the cross products. -/
theorem compareFractions_eq (a b c d : Nat) (hb : 0 < b) (hd : 0 < d) (inverted : Bool) :
    compareFractionsWithoutProducts a b c d hb hd inverted =
      oriented inverted (compare (a * d) (c * b)) := by
  induction a, b, c, d, hb, hd, inverted using compareFractionsWithoutProducts.induct with
  | case1 a b c d hb hd inverted hdiffer =>
      rw [compareFractionsWithoutProducts, if_pos hdiffer]
      congr 1
      rcases Nat.lt_or_gt_of_ne hdiffer with hlt | hgt
      · rw [compare_lt_iff_lt.mpr hlt, compare_lt_iff_lt.mpr (cross_lt_of_div_lt hb hlt)]
      · rw [compare_gt_iff_gt.mpr hgt, compare_gt_iff_gt.mpr (cross_lt_of_div_lt hd hgt)]
  | case2 a b c d hb hd inverted hsame hrest =>
      rw [compareFractionsWithoutProducts, if_neg hsame, dif_pos hrest]
      rw [not_not] at hsame
      congr 1
      apply compare_congr
      · rw [cross_lt_of_mod hsame]
        rcases hrest with hzero | hzero
        · rw [hzero, Nat.zero_mul]
          exact (Nat.mul_pos_iff_of_pos_right hb).symm
        · rw [hzero, Nat.zero_mul]
          exact iff_of_false (Nat.not_lt_zero _) (Nat.not_lt_zero _)
      · rw [cross_lt_of_mod hsame.symm]
        rcases hrest with hzero | hzero
        · rw [hzero, Nat.zero_mul]
          exact iff_of_false (Nat.not_lt_zero _) (Nat.not_lt_zero _)
        · rw [hzero, Nat.zero_mul]
          exact (Nat.mul_pos_iff_of_pos_right hd).symm
  | case3 a b c d hb hd inverted hsame hrest ih =>
      rw [compareFractionsWithoutProducts, if_neg hsame, dif_neg hrest, ih, oriented_not]
      rw [not_not] at hsame
      congr 1
      have hswap : (compare (b * (c % d)) (d * (a % b))).swap =
          compare (d * (a % b)) (b * (c % d)) :=
        (@Std.OrientedCmp.eq_swap Nat compare _ _ _).symm
      rw [hswap, Nat.mul_comm d, Nat.mul_comm b]
      exact compare_congr (cross_lt_of_mod hsame).symm (cross_lt_of_mod hsame.symm).symm

theorem cmpExact_eq (a b : ExactRational) : a.cmpExact b = compare a.value b.value := by
  have hcross : forall a b : ExactRational,
      a.numerator * b.denominator < b.numerator * a.denominator <-> a.value < b.value := by
    intro a b
    have ha : (0 : Rat) < a.denominator := Nat.cast_pos.mpr a.denominator_pos
    have hb : (0 : Rat) < b.denominator := Nat.cast_pos.mpr b.denominator_pos
    unfold ExactRational.value
    rw [div_lt_div_iff₀ ha hb]
    exact_mod_cast Iff.rfl
  unfold cmpExact
  rw [compareFractions_eq]
  exact compare_congr (hcross a b) (hcross b a)

/-!
# The comparison on machine integers

The loop divides numbers of 128 bits, and a division by zero would stop it.
Every turn that does not return leaves remainders that are not zero, so the loop
runs to the order that the comparison of natural numbers has.
-/

/-- `u128`. -/
abbrev U128 := BitVec 128

inductive Panic where
  | divideByZero
  | remainderByZero
deriving DecidableEq

def divide (a b : U128) : Except Panic U128 :=
  if b = 0 then .error .divideByZero else .ok (a / b)

def remainder (a b : U128) : Except Panic U128 :=
  if b = 0 then .error .remainderByZero else .ok (a % b)

/-- The variables of the loop. -/
structure Fractions where
  leftNumerator : U128
  leftDenominator : U128
  rightNumerator : U128
  rightDenominator : U128
  inverted : Bool
deriving DecidableEq

/-- One turn: the loop goes on with other fractions, or returns. -/
def compareTurn (s : Fractions) : Except Panic (Fractions ⊕ Ordering) := do
  let leftInteger ← divide s.leftNumerator s.leftDenominator
  let rightInteger ← divide s.rightNumerator s.rightDenominator
  if leftInteger ≠ rightInteger then
    return .inr (oriented s.inverted (compare leftInteger.toNat rightInteger.toNat))
  let leftRemainder ← remainder s.leftNumerator s.leftDenominator
  let rightRemainder ← remainder s.rightNumerator s.rightDenominator
  if leftRemainder = 0 ∨ rightRemainder = 0 then
    return .inr (oriented s.inverted (compare leftRemainder.toNat rightRemainder.toNat))
  return .inl ⟨s.leftDenominator, leftRemainder, s.rightDenominator, rightRemainder, !s.inverted⟩

/-- The loop, for so many turns at most. -/
def compareLoop : Nat -> Fractions -> Option (Except Panic Ordering)
  | 0, _ => none
  | turns + 1, s =>
      match compareTurn s with
      | .error panic => some (.error panic)
      | .ok (.inr ordering) => some (.ok ordering)
      | .ok (.inl next) => compareLoop turns next

theorem divide_eq_ok {a b : U128} (hb : b ≠ 0) : divide a b = .ok (a / b) :=
  if_neg hb

theorem remainder_eq_ok {a b : U128} (hb : b ≠ 0) : remainder a b = .ok (a % b) :=
  if_neg hb

theorem toNat_pos {b : U128} (hb : b ≠ 0) : 0 < b.toNat := by
  apply Nat.pos_of_ne_zero
  intro hzero
  exact hb (BitVec.eq_of_toNat_eq hzero)

theorem toNat_eq_zero {a : U128} : a = 0 <-> a.toNat = 0 := by
  constructor
  · rintro rfl
    rfl
  · exact fun hzero => BitVec.eq_of_toNat_eq hzero

/-- What a turn does, in natural numbers. -/
theorem compareTurn_eq {s : Fractions} (hleft : s.leftDenominator ≠ 0)
    (hright : s.rightDenominator ≠ 0) :
    compareTurn s =
      .ok (if s.leftNumerator.toNat / s.leftDenominator.toNat ≠
            s.rightNumerator.toNat / s.rightDenominator.toNat then
          .inr (oriented s.inverted (compare
            (s.leftNumerator.toNat / s.leftDenominator.toNat)
            (s.rightNumerator.toNat / s.rightDenominator.toNat)))
        else if s.leftNumerator.toNat % s.leftDenominator.toNat = 0 ∨
            s.rightNumerator.toNat % s.rightDenominator.toNat = 0 then
          .inr (oriented s.inverted (compare
            (s.leftNumerator.toNat % s.leftDenominator.toNat)
            (s.rightNumerator.toNat % s.rightDenominator.toNat)))
        else
          .inl ⟨s.leftDenominator, s.leftNumerator % s.leftDenominator, s.rightDenominator,
            s.rightNumerator % s.rightDenominator, !s.inverted⟩) := by
  have hintegers : s.leftNumerator / s.leftDenominator ≠ s.rightNumerator / s.rightDenominator <->
      s.leftNumerator.toNat / s.leftDenominator.toNat ≠
        s.rightNumerator.toNat / s.rightDenominator.toNat := by
    rw [not_iff_not, ← BitVec.toNat_inj, BitVec.toNat_udiv, BitVec.toNat_udiv]
  have hremainders : (s.leftNumerator % s.leftDenominator = 0 ∨
        s.rightNumerator % s.rightDenominator = 0) <->
      s.leftNumerator.toNat % s.leftDenominator.toNat = 0 ∨
        s.rightNumerator.toNat % s.rightDenominator.toNat = 0 := by
    rw [toNat_eq_zero, toNat_eq_zero, BitVec.toNat_umod, BitVec.toNat_umod]
  unfold compareTurn
  rw [divide_eq_ok hleft, divide_eq_ok hright, remainder_eq_ok hleft, remainder_eq_ok hright]
  show (if s.leftNumerator / s.leftDenominator ≠ s.rightNumerator / s.rightDenominator then _
    else _) = _
  by_cases hdiffer : s.leftNumerator.toNat / s.leftDenominator.toNat ≠
      s.rightNumerator.toNat / s.rightDenominator.toNat
  · rw [if_pos hdiffer, if_pos (hintegers.mpr hdiffer), BitVec.toNat_udiv, BitVec.toNat_udiv]
    rfl
  · rw [if_neg hdiffer, if_neg (fun h => hdiffer (hintegers.mp h))]
    show (if s.leftNumerator % s.leftDenominator = 0 ∨
      s.rightNumerator % s.rightDenominator = 0 then _ else _) = _
    by_cases hzero : s.leftNumerator.toNat % s.leftDenominator.toNat = 0 ∨
        s.rightNumerator.toNat % s.rightDenominator.toNat = 0
    · rw [if_pos hzero, if_pos (hremainders.mpr hzero), BitVec.toNat_umod, BitVec.toNat_umod]
      rfl
    · rw [if_neg hzero, if_neg (fun h => hzero (hremainders.mp h))]
      rfl

/-- The loop is the comparison of natural numbers. -/
theorem compareLoop_eq {turns : Nat} {s : Fractions} (hleft : s.leftDenominator ≠ 0)
    (hright : s.rightDenominator ≠ 0) (hturns : s.leftDenominator.toNat < turns) :
    compareLoop turns s = some (.ok (compareFractionsWithoutProducts s.leftNumerator.toNat
      s.leftDenominator.toNat s.rightNumerator.toNat s.rightDenominator.toNat
      (toNat_pos hleft) (toNat_pos hright) s.inverted)) := by
  induction turns generalizing s with
  | zero =>
      exact absurd hturns (Nat.not_lt_zero _)
  | succ turns ih =>
      rw [compareLoop, compareTurn_eq hleft hright, compareFractionsWithoutProducts]
      by_cases hdiffer : s.leftNumerator.toNat / s.leftDenominator.toNat ≠
          s.rightNumerator.toNat / s.rightDenominator.toNat
      · rw [if_pos hdiffer, if_pos hdiffer]
      · rw [if_neg hdiffer, if_neg hdiffer]
        by_cases hzero : s.leftNumerator.toNat % s.leftDenominator.toNat = 0 ∨
            s.rightNumerator.toNat % s.rightDenominator.toNat = 0
        · rw [if_pos hzero, dif_pos hzero]
        · rw [if_neg hzero, dif_neg hzero]
          rw [not_or, ← BitVec.toNat_umod, ← BitVec.toNat_umod] at hzero
          have hless : (s.leftNumerator % s.leftDenominator).toNat < turns := by
            have hmod := Nat.mod_lt s.leftNumerator.toNat (toNat_pos hleft)
            rw [← BitVec.toNat_umod] at hmod
            omega
          have hnext := @ih ⟨s.leftDenominator, s.leftNumerator % s.leftDenominator,
            s.rightDenominator, s.rightNumerator % s.rightDenominator, !s.inverted⟩
            (fun h => hzero.1 (toNat_eq_zero.mp h)) (fun h => hzero.2 (toNat_eq_zero.mp h)) hless
          simp only [BitVec.toNat_umod] at hnext
          exact hnext

/-- For all numerators and all denominators that are not zero the loop ends
without a panic, in the order of the cross products. -/
theorem compareLoop_cross (leftNumerator leftDenominator rightNumerator rightDenominator : U128)
    (hleft : leftDenominator ≠ 0) (hright : rightDenominator ≠ 0) {turns : Nat}
    (hturns : leftDenominator.toNat < turns) :
    compareLoop turns ⟨leftNumerator, leftDenominator, rightNumerator, rightDenominator, false⟩ =
      some (.ok (compare (leftNumerator.toNat * rightDenominator.toNat)
        (rightNumerator.toNat * leftDenominator.toNat))) := by
  rw [compareLoop_eq hleft hright hturns, compareFractions_eq]
  rfl

theorem compareLoop_cross_thirds :
    compareLoop 4 ⟨1, 3, BitVec.allOnes 128, 2, false⟩ = some (.ok .lt) := by
  have hcross := @compareLoop_cross 1 3 (BitVec.allOnes 128) 2 (by decide) (by decide) 4
    (by decide)
  rw [hcross]
  decide

end Retrieval
end KnowledgeBrain
