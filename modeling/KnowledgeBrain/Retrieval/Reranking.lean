import KnowledgeBrain.Retrieval.Sources
import KnowledgeBrain.Retrieval.Evidence
import Mathlib.Data.List.TakeWhile

/-!
# Scores and their order

Scores are compared as integers when candidates are sorted and as texts when
the batch is validated.  Both orders agree on the unit interval.
-/

namespace KnowledgeBrain
namespace Retrieval

open Foundation
open Chunker (Text byteLen)
open Workflow (Uuid)

section

variable {lib : Library}

/-!
# Texts of scores
-/

variable {score : Nat}

theorem fixedScore_eq (hscore : score ≤ million) :
    fixedScore score =
      (score / million).digitChar :: '.' :: fixedDigits 10 6 (score % million) := by
  have hdigit : score / million < 10 :=
    Nat.lt_of_le_of_lt (Nat.div_le_div_right hscore) (by decide)
  unfold fixedScore
  rw [Nat.toDigits_of_lt_base hdigit]
  rfl

theorem fixedScore_lt_iff {a b : Nat} (ha : a ≤ million) (hb : b ≤ million) :
    fixedScore a < fixedScore b <-> a < b := by
  have hpos : 0 < million := by decide
  have hda : a / million < 10 :=
    Nat.lt_of_le_of_lt (Nat.div_le_div_right ha) (by decide)
  have hdb : b / million < 10 :=
    Nat.lt_of_le_of_lt (Nat.div_le_div_right hb) (by decide)
  have htail : fixedDigits 10 6 (a % million) < fixedDigits 10 6 (b % million) <->
      a % million < b % million :=
    fixedDigits_lt_iff (Nat.mod_lt a hpos) (Nat.mod_lt b hpos)
  rw [fixedScore_eq ha, fixedScore_eq hb, List.cons_lt_cons_iff, List.cons_lt_cons_iff,
    digitChar_lt_iff hda hdb]
  refine Iff.trans ?_ (lt_iff_div_mod hpos).symm
  constructor
  · rintro (hlt | ⟨heq, hdot | ⟨_, hlt⟩⟩)
    · exact Or.inl hlt
    · exact absurd hdot (by decide)
    · exact Or.inr ⟨digitChar_injective_of_lt hda hdb heq, htail.mp hlt⟩
  · rintro (hlt | ⟨heq, hlt⟩)
    · exact Or.inl hlt
    · exact Or.inr ⟨congrArg Nat.digitChar heq, Or.inr ⟨rfl, htail.mpr hlt⟩⟩

theorem fixedScore_injective {a b : Nat} (ha : a ≤ million) (hb : b ≤ million)
    (heq : fixedScore a = fixedScore b) : a = b := by
  have hab := fixedScore_lt_iff ha hb
  have hba := fixedScore_lt_iff hb ha
  rw [heq] at hab hba
  have hnlt : ¬ a < b := fun h => List.lt_irrefl _ (hab.mpr h)
  have hngt : ¬ b < a := fun h => List.lt_irrefl _ (hba.mpr h)
  omega

theorem utf8Size_of_isDigit {c : Char} (hdigit : c.isDigit = true) : c.utf8Size = 1 := by
  unfold Char.isDigit at hdigit
  simp only [Bool.and_eq_true, decide_eq_true_eq] at hdigit
  unfold Char.utf8Size
  exact if_pos (Nat.le_trans hdigit.2 (by decide))

theorem byteLen_of_isDigit {t : Text} (hdigits : forall c, c ∈ t -> c.isDigit = true) :
    byteLen t = t.length := by
  induction t with
  | nil =>
      rfl
  | cons c rest ih =>
      rw [Chunker.byteLen_cons, utf8Size_of_isDigit (hdigits c List.mem_cons_self),
        ih fun c' hc' => hdigits c' (List.mem_cons_of_mem _ hc'), List.length_cons,
        Nat.add_comm]

/-- The text of a score is what the validator calls a unit interval score. -/
theorem isUnitIntervalMillionths_fixedScore (hscore : score ≤ million) :
    isUnitIntervalMillionths (fixedScore score) = true := by
  rcases Nat.lt_or_eq_of_le hscore with hlt | heq
  · have hzero : score / million = 0 := Nat.div_eq_of_lt hlt
    have hdigits : forall c, c ∈ fixedDigits 10 6 (score % million) -> c.isDigit = true :=
      fun c => isDigit_of_mem_fixedDigits
    have hlength : byteLen (fixedScore score) = 8 := by
      rw [fixedScore_eq hscore, hzero, Chunker.byteLen_cons, Chunker.byteLen_cons,
        byteLen_of_isDigit hdigits, length_fixedDigits]
      rfl
    have hstart : "0.".toList.isPrefixOf (fixedScore score) = true := by
      rw [fixedScore_eq hscore, hzero]
      rfl
    have hplaces : ((fixedScore score).drop 2).all Char.isDigit = true := by
      rw [fixedScore_eq hscore]
      exact List.all_eq_true.mpr hdigits
    unfold isUnitIntervalMillionths
    rw [hlength, hstart, hplaces]
    simp
  · rw [heq]
    decide +kernel

/-!
# Scores of a response
-/

theorem floor_le_million {q : Rat} (hq : ¬ (q < 0 ∨ 1 < q)) :
    (q * million).floor.toNat ≤ million := by
  rw [not_or, not_lt, not_lt] at hq
  have hle : q * million ≤ (million : Int) := by
    have hnonneg : (0 : Rat) ≤ million := Nat.cast_nonneg million
    have hmul := mul_le_mul_of_nonneg_right hq.2 hnonneg
    rw [one_mul] at hmul
    exact_mod_cast hmul
  have hfloor : (q * million).floor ≤ (million : Int) := by
    have := Rat.floor_le (q * million)
    exact_mod_cast this.trans hle
  exact Int.toNat_le.mpr hfloor

theorem scoreMillionths_le {value : JsonValue} (hscore : scoreMillionths lib value = .ok score) :
    score ≤ million := by
  unfold scoreMillionths at hscore
  obtain ⟨text, _, hscore⟩ := bind_eq_ok hscore
  obtain ⟨decimal, _, hscore⟩ := bind_eq_ok hscore
  obtain ⟨_, hunit, hscore⟩ := bind_eq_ok hscore
  cases hscore
  exact floor_le_million (reject_eq_ok.mp hunit)

/-- The scores filed so far are in range, and there is a place for every candidate. -/
structure Filed (n : Nat) (scores : List (Option Nat)) : Prop where
  length : scores.length = n
  le : forall score, some score ∈ scores -> score ≤ million

theorem recordScore_filed {n : Nat} {scores scores' : List (Option Nat)}
    {result : RerankResult} (hscores : Filed n scores)
    (hrecord : recordScore lib scores result = .ok scores') : Filed n scores' := by
  unfold recordScore at hrecord
  split at hrecord
  · cases hrecord
  · obtain ⟨score, hscore, hrecord⟩ := bind_eq_ok hrecord
    cases hrecord
    constructor
    · rw [List.length_set]
      exact hscores.length
    · intro score' hmem
      rcases List.mem_or_eq_of_mem_set hmem with hold | hnew
      · exact hscores.le score' hold
      · cases hnew
        exact scoreMillionths_le hscore

/-!
# The order of the suffix
-/

/-- The rerank order: higher scores first, then lower fused ranks. -/
def Precedes (a b : RerankedCandidate) : Prop :=
  b.scoreMillionths < a.scoreMillionths
    ∨ a.scoreMillionths = b.scoreMillionths
      ∧ a.candidate.preRerankRrfRank ≤ b.candidate.preRerankRrfRank

instance : Std.TransCmp compareReranked := by
  unfold compareReranked
  infer_instance

theorem precedes_of_isLE {a b : RerankedCandidate}
    (hle : (compareReranked a b).isLE = true) : Precedes a b := by
  unfold compareReranked at hle
  simp only [compareLex, compareOn] at hle
  rcases Nat.lt_trichotomy b.scoreMillionths a.scoreMillionths with hlt | heq | hgt
  · exact Or.inl hlt
  · refine Or.inr ⟨heq.symm, ?_⟩
    by_contra hrank
    rw [Nat.not_le] at hrank
    rw [heq, compare_eq_iff_eq.mpr rfl, Nat.compare_eq_gt.mpr hrank] at hle
    cases hle
  · rw [Nat.compare_eq_gt.mpr hgt] at hle
    cases hle

/-- What an accepted response makes of the candidates. -/
structure Reranked (candidates : List SemanticCandidate)
    (reranked : List RerankedCandidate) : Prop where
  perm : (reranked.map RerankedCandidate.candidate).Perm candidates
  scores : forall r, r ∈ reranked -> r.scoreMillionths ≤ million
  ordered : reranked.Pairwise Precedes

theorem withScore_eq_ok {entry : SemanticCandidate × Option Nat} {r : RerankedCandidate}
    (hscore : withScore entry = .ok r) :
    r.candidate = entry.1 ∧ entry.2 = some r.scoreMillionths := by
  unfold withScore at hscore
  obtain ⟨score, hrequire, hscore⟩ := bind_eq_ok hscore
  cases hscore
  exact ⟨rfl, require_eq_ok hrequire⟩

theorem reranked_of_ok {response : RerankResponse} {candidates : List SemanticCandidate}
    {policy : RetrievalPolicy} {revision : RerankRevision}
    {reranked : List RerankedCandidate}
    (happly : applyResponse lib response candidates policy revision = .ok reranked) :
    Reranked candidates reranked := by
  unfold applyResponse at happly
  obtain ⟨_, _, happly⟩ := bind_eq_ok happly
  obtain ⟨_, _, happly⟩ := bind_eq_ok happly
  obtain ⟨scores, hfold, happly⟩ := bind_eq_ok happly
  obtain ⟨_, _, happly⟩ := bind_eq_ok happly
  obtain ⟨output, hmap, happly⟩ := bind_eq_ok happly
  cases happly
  have hstart : Filed candidates.length (List.replicate candidates.length none) :=
    ⟨List.length_replicate, fun score hmem => by cases List.eq_of_mem_replicate hmem⟩
  have hfiled : Filed candidates.length scores :=
    foldlM_invariant (fun _ _ _ => recordScore_filed) hstart hfold
  have hcandidates : output.map RerankedCandidate.candidate = candidates := by
    have hzip : output.map RerankedCandidate.candidate = (candidates.zip scores).map Prod.fst :=
      map_of_mapM (fun _ _ h => (withScore_eq_ok h).1) hmap
    rw [hzip]
    exact List.map_fst_zip (Nat.le_of_eq hfiled.length.symm)
  constructor
  · have hperm := (perm_sortBy compareReranked output).map RerankedCandidate.candidate
    rw [hcandidates] at hperm
    exact hperm
  · intro r hr
    obtain ⟨entry, hentry, hscore⟩ := mem_of_mapM hmap (mem_sortBy.mp hr)
    apply hfiled.le
    rw [← (withScore_eq_ok hscore).2]
    exact (List.of_mem_zip hentry).2
  · exact (pairwise_sortBy compareReranked output).imp precedes_of_isLE

end

/-!
# Rerank responses as permutations

The scores of a response are numbers as `serde_json` prints them, and are read
as decimals.  A response whose scores are read puts the candidates in one order,
whatever order its results come in.
-/

/-!
## Texts of numbers
-/

def digitsValue (t : Text) : Option Nat :=
  if t ≠ [] ∧ t.all Char.isDigit = true then
    some (t.foldl (fun value c => 10 * value + (c.toNat - '0'.toNat)) 0)
  else none

/-- What stands before the first occurrence of a character, and what behind it. -/
def cutAt (c : Char) (t : Text) : Text × Option Text :=
  let rest := t.dropWhile fun r => r != c
  (t.takeWhile fun r => r != c, rest.tail?)

/-- The value of digits with perhaps a point and places behind it. -/
def mantissaValue (t : Text) : Option Rat := do
  let (whole, places) := cutAt '.' t
  let n ← digitsValue whole
  match places with
  | none => return n
  | some places =>
      let m ← digitsValue places
      return n + m / 10 ^ places.length

def scaled (value : Rat) (exponent : Text) : Option Rat :=
  match exponent with
  | '-' :: digits => (digitsValue digits).map fun n => value / 10 ^ n
  | '+' :: digits => (digitsValue digits).map fun n => value * 10 ^ n
  | digits => (digitsValue digits).map fun n => value * 10 ^ n

def unsignedValue (t : Text) : Option Rat := do
  let (mantissa, exponent) := cutAt 'e' t
  let value ← mantissaValue mantissa
  match exponent with
  | none => return value
  | some exponent => scaled value exponent

/-- The number that a printed number stands for. -/
def literalValue : Text -> Option Rat
  | '-' :: t => (unsignedValue t).map fun value => -value
  | t => unsignedValue t

def exponentOf (t : Text) : Option Int :=
  match (cutAt 'e' t).2 with
  | none => none
  | some ('-' :: digits) => (digitsValue digits).map fun n => -(n : Int)
  | some ('+' :: digits) => (digitsValue digits).map Int.ofNat
  | some digits => (digitsValue digits).map Int.ofNat

/-- A literal with one digit other than zero before the point, at most sixteen
behind it, and an exponent. -/
structure Scientific (t : Text) (q : Rat) (exponent : Int) : Prop where
  value : literalValue t = some q
  written : exponentOf t = some exponent
  nonzero : exponent ≠ 0
  digits : exists m : Nat, 10 ^ 16 ≤ m ∧ m < 10 ^ 17 ∧ |q| = m / 10 ^ 16 * 10 ^ exponent

/-- `Decimal::from_str` reads a plain literal of the length of printed numbers as it is.
With an exponent it reads numbers of 28 places exactly and smaller ones to 28 places,
refuses exponents below -28, and may refuse large numbers. -/
structure ReadsNumbers (lib : Library) : Prop where
  plain : forall t q, 'e' ∉ t -> t.length ≤ 24 -> literalValue t = some q ->
    lib.decimalFromStr t = some q
  small : forall t q exponent, Scientific t q exponent -> -28 ≤ exponent -> exponent < 0 ->
    exists d, lib.decimalFromStr t = some d ∧ |d - q| < 1 / 10 ^ 28 ∧ (-12 ≤ exponent -> d = q)
  tiny : forall t q exponent, Scientific t q exponent -> exponent < -28 ->
    lib.decimalFromStr t = none
  great : forall t q exponent, Scientific t q exponent -> 0 < exponent ->
    lib.decimalFromStr t = none ∨ lib.decimalFromStr t = some q

/-- `serde_json` prints a number as a plain literal of at most 24 characters, or with an
exponent. -/
def Printed (value : JsonValue) : Prop :=
  forall t, value.asNumber = some t -> exists q, literalValue t = some q ∧
    ('e' ∉ t ∧ t.length ≤ 24 ∨ exists exponent, Scientific t q exponent)

/-!
## What a response is to do
-/

def scoreOf (value : JsonValue) : Option Rat :=
  value.asNumber.bind literalValue

/-- A score that is a number of the unit interval. -/
def InUnit (value : JsonValue) : Prop :=
  exists q, scoreOf value = some q ∧ 0 ≤ q ∧ q ≤ 1

/-- A number that is printed with an exponent below -28. -/
def TooSmall (value : JsonValue) : Prop :=
  exists t, value.asNumber = some t ∧ exists exponent, exponentOf t = some exponent ∧
    exponent < -28

/-- A response of the right revision. -/
structure Identified (response : RerankResponse) (policy : RetrievalPolicy)
    (revision : RerankRevision) : Prop where
  sha256 : revision.sha256 = some policy.rerank.revisionSha256
  policyModel : response.modelRevisionSha256 = policy.rerank.modelRevisionSha256
  model : response.modelRevisionSha256 = revision.providerModelRevisionSha256
  policyConfig : response.configRevisionSha256 = policy.rerank.configRevisionSha256
  config : response.configRevisionSha256 = revision.configRevisionSha256

/-- The indices are a permutation, and the scores are in the unit interval. -/
structure Complete (n : Nat) (results : List RerankResult) : Prop where
  indices : (results.map RerankResult.index).Perm (List.range n)
  scores : forall result, result ∈ results -> InUnit result.score

/-- The candidates in the order of their scores. -/
structure Applied (candidates : List SemanticCandidate) (results : List RerankResult)
    (reranked : List RerankedCandidate) : Prop where
  perm : (reranked.map RerankedCandidate.candidate).Perm candidates
  scored : forall r, r ∈ reranked -> exists result q, result ∈ results ∧
    candidates[result.index]? = some r.candidate ∧ scoreOf result.score = some q ∧
    (r.scoreMillionths : Int) = (q * million).floor
  ordered : reranked.Pairwise fun a b => b.scoreMillionths < a.scoreMillionths ∨
    (a.scoreMillionths = b.scoreMillionths ∧
      a.candidate.preRerankRrfRank < b.candidate.preRerankRrfRank)
  texts : forall a, a ∈ reranked -> forall b, b ∈ reranked ->
    (fixedScore a.scoreMillionths < fixedScore b.scoreMillionths <->
      a.scoreMillionths < b.scoreMillionths)

/-- A response succeeds exactly if it is complete, and then its results put the
candidates in one order. -/
structure AppliesAsPermutation (lib : Library) (response : RerankResponse)
    (candidates : List SemanticCandidate) (policy : RetrievalPolicy)
    (revision : RerankRevision) : Prop where
  succeeds : (exists reranked,
      applyResponse lib response candidates policy revision = .ok reranked) <->
    Complete candidates.length response.results
  applied : forall reranked,
    applyResponse lib response candidates policy revision = .ok reranked ->
      Applied candidates response.results reranked
  unordered : forall reranked,
    applyResponse lib response candidates policy revision = .ok reranked ->
      forall results, results.Perm response.results ->
        applyResponse lib { response with results := results } candidates policy revision =
          .ok reranked

/-!
## One score
-/

section Library

variable {lib : Library}

theorem floor_nonneg {q : Rat} (hq : 0 ≤ q) : 0 ≤ (q * million).floor := by
  apply Rat.le_floor_iff.mpr
  rw [Int.cast_zero]
  exact mul_nonneg hq (Nat.cast_nonneg million)

theorem exponentOf_plain {t : Text} (hplain : 'e' ∉ t) : exponentOf t = none := by
  have hrest : t.dropWhile (fun r => r != 'e') = [] := by
    rw [List.dropWhile_eq_nil_iff]
    intro c hc
    exact bne_iff_ne.mpr fun heq => hplain (heq ▸ hc)
  unfold exponentOf cutAt
  rw [hrest]
  rfl

theorem Scientific.bounds {t : Text} {q : Rat} {exponent : Int} (h : Scientific t q exponent) :
    (10 : Rat) ^ exponent ≤ |q| ∧ |q| < 10 ^ (exponent + 1) := by
  obtain ⟨m, hlow, hhigh, habs⟩ := h.digits
  have hpos : (0 : Rat) < 10 ^ exponent := zpow_pos (by norm_num) exponent
  have hlow' : (10 : Rat) ^ 16 ≤ m := by exact_mod_cast hlow
  have hhigh' : (m : Rat) < 10 ^ 17 := by exact_mod_cast hhigh
  have hone : (1 : Rat) ≤ m / 10 ^ 16 := (one_le_div (by norm_num)).mpr hlow'
  have hten : (m : Rat) / 10 ^ 16 < 10 := by
    rw [div_lt_iff₀ (by norm_num)]
    exact hhigh'.trans_eq (by norm_num)
  rw [habs, zpow_add_one₀ (by norm_num), mul_comm _ (10 : Rat)]
  exact ⟨le_mul_of_one_le_left hpos.le hone, mul_lt_mul_of_pos_right hten hpos⟩

/-- A number with a negative exponent of at most 28 is read with its sign, below one, and
with its millionths. -/
theorem Scientific.read {t : Text} {q d : Rat} {exponent : Int} (h : Scientific t q exponent)
    (hlow : -28 ≤ exponent) (hneg : exponent < 0) (hnear : |d - q| < 1 / 10 ^ 28)
    (hexact : -12 ≤ exponent -> d = q) :
    q < 1 ∧ d < 1 ∧ (0 ≤ d <-> 0 ≤ q) ∧ (0 ≤ q -> (d * million).floor = (q * million).floor) := by
  have hbase : (1 : Rat) ≤ 10 := by norm_num
  have hone : |q| < 1 := by
    have hle : (10 : Rat) ^ (exponent + 1) ≤ 10 ^ (0 : Int) := zpow_le_zpow_right₀ hbase hneg
    exact h.bounds.2.trans_le (hle.trans_eq (zpow_zero 10))
  have hq := (abs_lt.mp hone).2
  rcases le_or_gt (-12) exponent with hplaces | hplaces
  · rw [hexact hplaces]
    exact ⟨hq, hq, Iff.rfl, fun _ => rfl⟩
  have hleast : 1 / 10 ^ 28 ≤ |q| := by
    have hle : (10 : Rat) ^ (-28 : Int) ≤ 10 ^ exponent := zpow_le_zpow_right₀ hbase hlow
    exact (by norm_num : (1 / 10 ^ 28 : Rat) = 10 ^ (-28 : Int)).trans_le (hle.trans h.bounds.1)
  have hmost : |q| < 1 / 10 ^ 12 := by
    have hle : (10 : Rat) ^ (exponent + 1) ≤ 10 ^ (-12 : Int) := zpow_le_zpow_right₀ hbase hplaces
    exact h.bounds.2.trans_le (hle.trans_eq (by norm_num))
  have hfirst := abs_lt.mp hnear
  have hsecond := abs_lt.mp hmost
  have hsign : 0 ≤ d <-> 0 ≤ q := by
    constructor
    · intro hd
      by_contra hnegative
      rw [abs_of_neg (not_le.mp hnegative)] at hleast
      linarith
    · intro hpositive
      rw [abs_of_nonneg hpositive] at hleast
      linarith
  refine ⟨hq, by norm_num at hfirst hsecond; linarith, hsign, ?_⟩
  intro hpositive
  have hfloor : forall r : Rat, 0 ≤ r -> r < 2 / 10 ^ 12 -> (r * million).floor = 0 := by
    intro r hr hsmall
    apply le_antisymm (Int.lt_add_one_iff.mp (Rat.floor_lt_iff.mpr _)) (floor_nonneg hr)
    unfold million
    norm_num at hsmall ⊢
    linarith
  rw [hfloor d (hsign.mpr hpositive), hfloor q hpositive]
  · norm_num at hsecond ⊢
    linarith
  · norm_num at hfirst hsecond ⊢
    linarith

/-- A number with a positive exponent is beyond the unit interval. -/
theorem Scientific.great {t : Text} {q : Rat} {exponent : Int} (h : Scientific t q exponent)
    (hpos : 0 < exponent) : ¬ (0 ≤ q ∧ q ≤ 1) := by
  rintro ⟨hlow, hhigh⟩
  have hone : (1 : Rat) < 10 ^ exponent := one_lt_zpow₀ (by norm_num) hpos
  have hle := h.bounds.1
  rw [abs_of_nonneg hlow] at hle
  linarith

/-- What is read of a printed number decides whether it is a score. -/
theorem scoreMillionths_of_read {value : JsonValue} {t : Text} {d : Rat}
    (hnumber : value.asNumber = some t) (hread : lib.decimalFromStr t = some d) {score : Nat} :
    scoreMillionths lib value = .ok score <->
      0 ≤ d ∧ d ≤ 1 ∧ (score : Int) = (d * million).floor := by
  unfold scoreMillionths
  rw [hnumber]
  show (require _ (lib.decimalFromStr t) >>= fun decimal => _) = _ <-> _
  rw [hread]
  show (reject (d < 0 ∨ 1 < d) _ >>= fun _ => _) = _ <-> _
  constructor
  · intro h
    rcases reject_bind_eq_ok h with ⟨hunit, h⟩
    cases h
    rw [not_or, not_lt, not_lt] at hunit
    exact ⟨hunit.1, hunit.2, Int.toNat_of_nonneg (floor_nonneg hunit.1)⟩
  · rintro ⟨hlow, hhigh, hscore⟩
    have hunit : ¬ (d < 0 ∨ 1 < d) := by
      rw [not_or, not_lt, not_lt]
      exact ⟨hlow, hhigh⟩
    rw [reject_bind hunit]
    show Except.ok (d * million).floor.toNat = _
    rw [← hscore, Int.toNat_natCast]

theorem scoreMillionths_of_unread {value : JsonValue} {t : Text}
    (hnumber : value.asNumber = some t) (hread : lib.decimalFromStr t = none) {score : Nat} :
    scoreMillionths lib value ≠ .ok score := by
  unfold scoreMillionths
  rw [hnumber]
  show (require _ (lib.decimalFromStr t) >>= fun decimal => _) ≠ _
  rw [hread]
  intro h
  cases h

/-- A printed number is read exactly if it is in the unit interval and its exponent is not
below -28. -/
theorem scoreMillionths_eq_ok_iff (hreads : ReadsNumbers lib) {value : JsonValue}
    (hprinted : Printed value) {score : Nat} :
    scoreMillionths lib value = .ok score <->
      ¬ TooSmall value ∧ exists q, scoreOf value = some q ∧ 0 ≤ q ∧ q ≤ 1 ∧
        (score : Int) = (q * million).floor := by
  cases hnumber : value.asNumber with
  | none =>
      unfold scoreMillionths scoreOf
      rw [hnumber]
      constructor
      · intro h
        cases h
      · rintro ⟨_, q, hq, _⟩
        cases hq
  | some t =>
      rcases hprinted t hnumber with ⟨q, hq, hform⟩
      have hscore : scoreOf value = some q := by
        rw [scoreOf, hnumber]
        exact hq
      have hsmall : TooSmall value <-> exists e, exponentOf t = some e ∧ e < -28 := by
        unfold TooSmall
        rw [hnumber]
        simp
      have hvalue : (exists q', scoreOf value = some q' ∧ 0 ≤ q' ∧ q' ≤ 1 ∧
          (score : Int) = (q' * million).floor) <->
          0 ≤ q ∧ q ≤ 1 ∧ (score : Int) = (q * million).floor := by
        rw [hscore]
        simp
      rw [hsmall, hvalue]
      rcases hform with ⟨hplain, hlength⟩ | ⟨exponent, hform⟩
      · rw [scoreMillionths_of_read hnumber (hreads.plain t q hplain hlength hq),
          exponentOf_plain hplain]
        simp
      rw [hform.written]
      rcases lt_trichotomy exponent 0 with hneg | hzero | hpos
      · by_cases hlow : -28 ≤ exponent
        · rcases hreads.small t q exponent hform hlow hneg with ⟨d, hread, hnear, hexact⟩
          rcases hform.read hlow hneg hnear hexact with ⟨hq1, hd1, hsign, hfloor⟩
          rw [scoreMillionths_of_read hnumber hread]
          constructor
          · rintro ⟨hd, _, hmillionths⟩
            refine ⟨?_, hsign.mp hd, hq1.le, hmillionths.trans (hfloor (hsign.mp hd))⟩
            rintro ⟨e, he, hlt⟩
            cases he
            exact absurd hlow (not_le.mpr hlt)
          · rintro ⟨_, hlow', _, hmillionths⟩
            exact ⟨hsign.mpr hlow', hd1.le, hmillionths.trans (hfloor hlow').symm⟩
        · have hrefused : ¬ scoreMillionths lib value = .ok score :=
            scoreMillionths_of_unread hnumber (hreads.tiny t q exponent hform (not_le.mp hlow))
          simp [hrefused, not_le.mp hlow]
      · exact absurd hzero hform.nonzero
      · have hrefused : ¬ scoreMillionths lib value = .ok score := by
          rcases hreads.great t q exponent hform hpos with hread | hread
          · exact scoreMillionths_of_unread hnumber hread
          · rw [scoreMillionths_of_read hnumber hread]
            exact fun h => hform.great hpos ⟨h.1, h.2.1⟩
        constructor
        · intro h
          exact absurd h hrefused
        · rintro ⟨_, hlow, hhigh, _⟩
          exact absurd ⟨hlow, hhigh⟩ (hform.great hpos)

/-!
## All scores
-/

/-- What filing the scores of some results makes of the list of scores. -/
structure Files (lib : Library) (results : List RerankResult) (scores scores' : List (Option Nat)) :
    Prop where
  length : scores'.length = scores.length
  nodup : (results.map RerankResult.index).Nodup
  free : forall result, result ∈ results -> scores[result.index]? = some none
  placed : forall result, result ∈ results -> exists score,
    scoreMillionths lib result.score = .ok score ∧ scores'[result.index]? = some (some score)
  kept : forall i, i ∉ results.map RerankResult.index -> scores'[i]? = scores[i]?

/-- A result is filed if its place is free and its score is read. -/
theorem recordScore_eq_ok_iff {scores scores' : List (Option Nat)} {result : RerankResult} :
    recordScore lib scores result = .ok scores' <->
      scores[result.index]? = some none ∧ exists score,
        scoreMillionths lib result.score = .ok score ∧
          scores' = scores.set result.index (some score) := by
  have hfree : ¬ (scores.length ≤ result.index ∨
      (scores[result.index]?.join).isSome = true) <-> scores[result.index]? = some none := by
    rw [not_or, Nat.not_le]
    constructor
    · rintro ⟨hlt, hnone⟩
      rw [List.getElem?_eq_getElem hlt] at hnone ⊢
      cases hplace : scores[result.index] with
      | none =>
          rfl
      | some score =>
          rw [hplace] at hnone
          exact absurd rfl hnone
    · intro hplace
      refine ⟨(List.getElem?_eq_some_iff.mp hplace).1, ?_⟩
      rw [hplace]
      exact Bool.false_ne_true
  unfold recordScore
  by_cases h : scores.length ≤ result.index ∨ (scores[result.index]?.join).isSome = true
  · rw [if_pos h]
    constructor
    · intro hrun
      cases hrun
    · rintro ⟨hplace, _⟩
      exact absurd h (hfree.mpr hplace)
  · rw [if_neg h]
    constructor
    · intro hrun
      rcases bind_eq_ok hrun with ⟨score, hscore, hrun⟩
      cases hrun
      exact ⟨hfree.mp h, score, hscore, rfl⟩
    · rintro ⟨_, score, hscore, rfl⟩
      rw [hscore]
      rfl

variable {results : List RerankResult}

theorem files_of_ok {scores scores' : List (Option Nat)}
    (hrun : results.foldlM (recordScore lib) scores = .ok scores') :
    Files lib results scores scores' := by
  induction results generalizing scores with
  | nil =>
      cases hrun
      exact ⟨rfl, List.nodup_nil, fun _ h => absurd h List.not_mem_nil,
        fun _ h => absurd h List.not_mem_nil, fun _ _ => rfl⟩
  | cons result results ih =>
      rw [List.foldlM_cons] at hrun
      rcases bind_eq_ok hrun with ⟨next, hfirst, hrest⟩
      rcases recordScore_eq_ok_iff.mp hfirst with ⟨hplace, score, hscore, rfl⟩
      have hlt := (List.getElem?_eq_some_iff.mp hplace).1
      have hfiles := ih hrest
      have hnew : result.index ∉ results.map RerankResult.index := by
        intro hmem
        rcases List.mem_map.mp hmem with ⟨other, hother, heq⟩
        have hfree := hfiles.free other hother
        rw [heq, List.getElem?_set_self hlt] at hfree
        cases hfree
      constructor
      · rw [hfiles.length, List.length_set]
      · rw [List.map_cons]
        exact List.nodup_cons.mpr ⟨hnew, hfiles.nodup⟩
      · intro other hother
        rcases List.mem_cons.mp hother with rfl | hother
        · exact hplace
        · have hne : result.index ≠ other.index := by
            intro heq
            exact hnew (heq ▸ List.mem_map_of_mem hother)
          have hfree := hfiles.free other hother
          rw [List.getElem?_set_ne hne] at hfree
          exact hfree
      · intro other hother
        rcases List.mem_cons.mp hother with rfl | hother
        · refine ⟨score, hscore, ?_⟩
          rw [hfiles.kept other.index hnew, List.getElem?_set_self hlt]
        · exact hfiles.placed other hother
      · intro i hi
        rw [List.map_cons, List.mem_cons, not_or] at hi
        rw [hfiles.kept i hi.2, List.getElem?_set_ne (Ne.symm hi.1)]

variable {scores : List (Option Nat)}

/-- Results with free places of their own and scores that are read are filed. -/
theorem exists_files (hnodup : (results.map RerankResult.index).Nodup)
    (hfree : forall result, result ∈ results -> scores[result.index]? = some none)
    (hread : forall result, result ∈ results -> exists score,
      scoreMillionths lib result.score = .ok score) :
    exists scores', results.foldlM (recordScore lib) scores = .ok scores' := by
  induction results generalizing scores with
  | nil =>
      exact ⟨scores, rfl⟩
  | cons result results ih =>
      rw [List.map_cons, List.nodup_cons] at hnodup
      rcases hread result List.mem_cons_self with ⟨score, hscore⟩
      have hfirst : recordScore lib scores result =
          .ok (scores.set result.index (some score)) :=
        recordScore_eq_ok_iff.mpr ⟨hfree result List.mem_cons_self, score, hscore, rfl⟩
      rw [List.foldlM_cons, ok_bind hfirst]
      apply ih hnodup.2
      · intro other hother
        have hne : result.index ≠ other.index := by
          intro heq
          exact hnodup.1 (heq ▸ List.mem_map_of_mem hother)
        rw [List.getElem?_set_ne hne]
        exact hfree other (List.mem_cons_of_mem result hother)
      · intro other hother
        exact hread other (List.mem_cons_of_mem result hother)

theorem Files.unique {results results' : List RerankResult}
    {scores scores₁ scores₂ : List (Option Nat)} (hperm : results'.Perm results)
    (h₁ : Files lib results scores scores₁) (h₂ : Files lib results' scores scores₂) :
    scores₂ = scores₁ := by
  apply List.ext_getElem?
  intro i
  by_cases hi : i ∈ results.map RerankResult.index
  · rcases List.mem_map.mp hi with ⟨result, hresult, rfl⟩
    rcases h₁.placed result hresult with ⟨score, hscore, hplace⟩
    rcases h₂.placed result (hperm.mem_iff.mpr hresult) with ⟨score', hscore', hplace'⟩
    cases hscore.symm.trans hscore'
    rw [hplace, hplace']
  · have hi' : i ∉ results'.map RerankResult.index := by
      intro hmem
      exact hi ((hperm.map RerankResult.index).mem_iff.mp hmem)
    rw [h₁.kept i hi, h₂.kept i hi']

/-!
## The response
-/

variable {response : RerankResponse} {candidates : List SemanticCandidate}
  {policy : RetrievalPolicy} {revision : RerankRevision}

variable {reranked : List RerankedCandidate}

/-- What a response of the right revision goes through when it is applied. -/
theorem applyResponse_eq_ok_iff (hid : Identified response policy revision) :
    applyResponse lib response candidates policy revision = .ok reranked <->
      response.results.length = candidates.length ∧ exists scores output,
        response.results.foldlM (recordScore lib) (List.replicate candidates.length none) =
          .ok scores ∧
        ¬ scores.any Option.isNone = true ∧
        (candidates.zip scores).mapM withScore = .ok output ∧
        reranked = sortBy compareReranked output := by
  have hidentity : ¬ (revision.sha256 ≠ some policy.rerank.revisionSha256
      ∨ response.modelRevisionSha256 ≠ policy.rerank.modelRevisionSha256
      ∨ response.modelRevisionSha256 ≠ revision.providerModelRevisionSha256
      ∨ response.configRevisionSha256 ≠ policy.rerank.configRevisionSha256
      ∨ response.configRevisionSha256 ≠ revision.configRevisionSha256) := by
    simp only [ne_eq, not_or, not_not]
    exact ⟨hid.sha256, hid.policyModel, hid.model, hid.policyConfig, hid.config⟩
  unfold applyResponse
  rw [reject_bind hidentity]
  constructor
  · intro h
    rcases reject_bind_eq_ok h with ⟨hlength, h⟩
    rcases bind_eq_ok h with ⟨scores, hscores, h⟩
    rcases reject_bind_eq_ok h with ⟨hfull, h⟩
    rcases bind_eq_ok h with ⟨output, houtput, h⟩
    cases h
    exact ⟨not_not.mp hlength, scores, output, hscores, hfull, houtput, rfl⟩
  · rintro ⟨hlength, scores, output, hscores, hfull, houtput, rfl⟩
    rw [reject_bind (not_not.mpr hlength), ok_bind hscores, reject_bind hfull, ok_bind houtput]
    rfl

theorem Files.perm {n : Nat} (hfiles : Files lib response.results (List.replicate n none) scores)
    (hlength : response.results.length = n) :
    (response.results.map RerankResult.index).Perm (List.range n) := by
  have hsubset : response.results.map RerankResult.index ⊆ List.range n := by
    intro i hi
    rcases List.mem_map.mp hi with ⟨result, hresult, rfl⟩
    have hlt := (List.getElem?_eq_some_iff.mp (hfiles.free result hresult)).1
    rw [List.length_replicate] at hlt
    exact List.mem_range.mpr hlt
  apply (List.subperm_of_subset hfiles.nodup hsubset).perm_of_length_le
  rw [List.length_range, List.length_map, hlength]

theorem Files.complete {n : Nat}
    (hfiles : Files lib response.results (List.replicate n none) scores)
    (hperm : (response.results.map RerankResult.index).Perm (List.range n)) :
    forall entry, entry ∈ scores -> exists score, entry = some score := by
  intro entry hmem
  rcases List.mem_iff_getElem?.mp hmem with ⟨i, hi⟩
  have hlt := (List.getElem?_eq_some_iff.mp hi).1
  rw [hfiles.length, List.length_replicate] at hlt
  rcases List.mem_map.mp (hperm.mem_iff.mpr (List.mem_range.mpr hlt)) with
    ⟨result, hresult, rfl⟩
  rcases hfiles.placed result hresult with ⟨score, _, hplace⟩
  exact ⟨score, Option.some.inj (hi.symm.trans hplace)⟩

/-- A complete response whose scores are read succeeds. -/
theorem applyResponse_succeeds (hid : Identified response policy revision)
    (hperm : (response.results.map RerankResult.index).Perm (List.range candidates.length))
    (hread : forall result, result ∈ response.results -> exists score,
      scoreMillionths lib result.score = .ok score) :
    exists reranked, applyResponse lib response candidates policy revision = .ok reranked := by
  have hlength : response.results.length = candidates.length := by
    have hlength := hperm.length_eq
    rw [List.length_map, List.length_range] at hlength
    exact hlength
  have hfree : forall result, result ∈ response.results ->
      (List.replicate candidates.length (none : Option Nat))[result.index]? = some none := by
    intro result hresult
    have hlt := List.mem_range.mp (hperm.mem_iff.mp (List.mem_map_of_mem hresult))
    exact List.getElem?_replicate_of_lt hlt
  rcases exists_files (hperm.nodup_iff.mpr List.nodup_range) hfree hread with ⟨scores, hscores⟩
  have hcomplete := (files_of_ok hscores).complete hperm
  have hfull : ¬ scores.any Option.isNone = true := by
    intro hany
    rcases List.any_eq_true.mp hany with ⟨entry, hentry, hnone⟩
    rcases hcomplete entry hentry with ⟨score, rfl⟩
    cases hnone
  have hstep : forall entry, entry ∈ candidates.zip scores ->
      exists r, withScore entry = .ok r ∧ True := by
    intro entry hentry
    rcases hcomplete entry.2 (List.of_mem_zip hentry).2 with ⟨score, hscore⟩
    refine ⟨⟨entry.1, score⟩, ?_, trivial⟩
    unfold withScore
    rw [hscore]
    rfl
  rcases exists_mapM_ok hstep with ⟨output, houtput, _⟩
  exact ⟨_, (applyResponse_eq_ok_iff hid).mpr
    ⟨hlength, scores, output, hscores, hfull, houtput, rfl⟩⟩

theorem strict_order (h : Reranked candidates reranked)
    (hranks : (candidates.map SemanticCandidate.preRerankRrfRank).Nodup) :
    reranked.Pairwise fun a b => b.scoreMillionths < a.scoreMillionths ∨
      (a.scoreMillionths = b.scoreMillionths ∧
        a.candidate.preRerankRrfRank < b.candidate.preRerankRrfRank) := by
  have hdistinct : reranked.Pairwise fun a b =>
      a.candidate.preRerankRrfRank ≠ b.candidate.preRerankRrfRank := by
    have hnodup := (h.perm.map SemanticCandidate.preRerankRrfRank).nodup_iff.mpr hranks
    rw [List.map_map] at hnodup
    exact List.pairwise_map.mp hnodup
  apply (h.ordered.and hdistinct).imp
  rintro a b ⟨hless | ⟨hsame, hle⟩, hne⟩
  · exact Or.inl hless
  · exact Or.inr ⟨hsame, Nat.lt_of_le_of_ne hle hne⟩

theorem applied_of_ok (hreads : ReadsNumbers lib)
    (hprinted : forall result, result ∈ response.results -> Printed result.score)
    (hid : Identified response policy revision)
    (hranks : (candidates.map SemanticCandidate.preRerankRrfRank).Nodup)
    (hrun : applyResponse lib response candidates policy revision = .ok reranked) :
    Applied candidates response.results reranked := by
  have hreranked := reranked_of_ok hrun
  rcases (applyResponse_eq_ok_iff hid).mp hrun with
    ⟨hlength, scores, output, hscores, _, houtput, rfl⟩
  have hfiles := files_of_ok hscores
  have hperm := hfiles.perm hlength
  constructor
  · exact hreranked.perm
  · intro r hr
    rcases mem_of_mapM houtput (mem_sortBy.mp hr) with ⟨entry, hentry, hscore⟩
    rcases withScore_eq_ok hscore with ⟨hcandidate, hplace⟩
    rcases List.mem_iff_getElem?.mp hentry with ⟨i, hi⟩
    rw [List.getElem?_zip_eq_some] at hi
    have hlt := (List.getElem?_eq_some_iff.mp hi.1).1
    rcases List.mem_map.mp (hperm.mem_iff.mpr (List.mem_range.mpr hlt)) with
      ⟨result, hresult, rfl⟩
    rcases hfiles.placed result hresult with ⟨score, hread, hplaced⟩
    have hsame : score = r.scoreMillionths := by
      have heq := Option.some.inj (hplaced.symm.trans hi.2)
      rw [hplace] at heq
      exact Option.some.inj heq
    rcases (scoreMillionths_eq_ok_iff hreads (hprinted result hresult)).mp hread with
      ⟨_, q, hq, _, _, hfloor⟩
    refine ⟨result, q, hresult, ?_, hq, ?_⟩
    · rw [hcandidate]
      exact hi.1
    · rw [← hsame]
      exact hfloor
  · exact strict_order hreranked hranks
  · intro a ha b hb
    exact fixedScore_lt_iff (hreranked.scores a ha) (hreranked.scores b hb)

/-- The order of the results does not matter. -/
theorem applyResponse_unordered (hid : Identified response policy revision)
    (hrun : applyResponse lib response candidates policy revision = .ok reranked)
    (hperm : results.Perm response.results) :
    applyResponse lib { response with results := results } candidates policy revision =
      .ok reranked := by
  have hid' : Identified { response with results := results } policy revision :=
    ⟨hid.sha256, hid.policyModel, hid.model, hid.policyConfig, hid.config⟩
  rcases (applyResponse_eq_ok_iff hid).mp hrun with
    ⟨hlength, scores, output, hscores, hfull, houtput, rfl⟩
  have hfiles := files_of_ok hscores
  have hnodup : (results.map RerankResult.index).Nodup :=
    (hperm.map RerankResult.index).nodup_iff.mpr hfiles.nodup
  rcases exists_files hnodup
    (fun result hmem => hfiles.free result (hperm.mem_iff.mp hmem))
    (fun result hmem => by
      rcases hfiles.placed result (hperm.mem_iff.mp hmem) with ⟨score, hscore, _⟩
      exact ⟨score, hscore⟩) with ⟨scores', hscores'⟩
  have hsame : scores' = scores := hfiles.unique hperm (files_of_ok hscores')
  rw [hsame] at hscores'
  exact (applyResponse_eq_ok_iff hid').mpr
    ⟨hperm.length_eq.trans hlength, scores, output, hscores', hfull, houtput, rfl⟩

/-- Responses are applied as permutations exactly if no complete response has a
score that is printed with an exponent below -28. -/
theorem applyResponse_applies_iff (hreads : ReadsNumbers lib)
    (hranks : (candidates.map SemanticCandidate.preRerankRrfRank).Nodup)
    (hid : Identified response policy revision)
    (hprinted : forall result, result ∈ response.results -> Printed result.score) :
    AppliesAsPermutation lib response candidates policy revision <->
      ¬ (Complete candidates.length response.results ∧
        exists result, result ∈ response.results ∧ TooSmall result.score) := by
  constructor
  · rintro h ⟨hcomplete, result, hresult, hsmall⟩
    rcases h.succeeds.mpr hcomplete with ⟨reranked, hrun⟩
    rcases (applyResponse_eq_ok_iff hid).mp hrun with ⟨_, scores, _, hscores, _, _, _⟩
    rcases (files_of_ok hscores).placed result hresult with ⟨score, hread, _⟩
    exact ((scoreMillionths_eq_ok_iff hreads (hprinted result hresult)).mp hread).1 hsmall
  · intro hread
    constructor
    · constructor
      · rintro ⟨reranked, hrun⟩
        rcases (applyResponse_eq_ok_iff hid).mp hrun with
          ⟨hlength, scores, _, hscores, _, _, _⟩
        have hfiles := files_of_ok hscores
        constructor
        · exact hfiles.perm hlength
        · intro result hresult
          rcases hfiles.placed result hresult with ⟨score, hread, _⟩
          rcases (scoreMillionths_eq_ok_iff hreads (hprinted result hresult)).mp hread with
            ⟨_, q, hq, hlow, hhigh, _⟩
          exact ⟨q, hq, hlow, hhigh⟩
      · intro hcomplete
        apply applyResponse_succeeds hid hcomplete.indices
        intro result hresult
        rcases hcomplete.scores result hresult with ⟨q, hq, hlow, hhigh⟩
        refine ⟨(q * million).floor.toNat, ?_⟩
        apply (scoreMillionths_eq_ok_iff hreads (hprinted result hresult)).mpr
        refine ⟨fun hsmall => hread ⟨hcomplete, result, hresult, hsmall⟩,
          q, hq, hlow, hhigh, Int.toNat_of_nonneg ?_⟩
        exact floor_nonneg hlow
    · intro reranked hrun
      exact applied_of_ok hreads hprinted hid hranks hrun
    · intro reranked hrun results hperm
      exact applyResponse_unordered hid hrun hperm

end Library

/-!
## Two responses
-/

/-- A library that reads literals whose exponents are not below -28. -/
def plainLibrary : Library where
  toLowercase c := [c.toLower]
  sha256Hex _ := []
  decimalFromStr t := if (exponentOf t).any (fun e => e < -28) then none else literalValue t
  parseUuid _ := none

theorem plainLibrary_reads {t : Text} (h : forall e, exponentOf t = some e -> -28 ≤ e) :
    plainLibrary.decimalFromStr t = literalValue t := by
  apply if_neg
  intro hany
  rcases (Option.any_eq_true _ _).mp hany with ⟨e, he, hlt⟩
  exact absurd (h e he) (not_le.mpr (of_decide_eq_true hlt))

theorem plainLibrary_readsNumbers : ReadsNumbers plainLibrary where
  plain t q hplain _ hvalue := by
    rw [plainLibrary_reads, hvalue]
    intro e he
    rw [exponentOf_plain hplain] at he
    cases he
  small t q exponent h hlow _ := by
    refine ⟨q, ?_, by norm_num, fun _ => rfl⟩
    rw [plainLibrary_reads, h.value]
    intro e he
    cases h.written.symm.trans he
    exact hlow
  tiny t q exponent h hlow := by
    apply if_pos
    rw [h.written]
    exact decide_eq_true hlow
  great t q exponent h hpos := by
    apply Or.inr
    rw [plainLibrary_reads, h.value]
    intro e he
    cases h.written.symm.trans he
    omega

def rankedCandidate (rank : Nat) : SemanticCandidate where
  documentId := 1
  sourceChunkId := rank
  productId := 1
  productVersionId := 1
  frozenDocumentDisplayName := "manual".toList
  chunkUtf8 := "flange".toList
  chunkSha256 := []
  chunkByteLength := 6
  sourceType := .text
  vectorRank := some rank
  keywordRank := none
  exactRrfScore := ⟨1, 60 + rank, Nat.add_pos_left (by decide) rank⟩
  preRerankRrfRank := rank

def manualPolicy : RetrievalPolicy where
  keyword := ⟨[], [], 10, 0⟩
  embedding := ⟨[], 10, 0⟩
  rrf := ⟨60, 500000, 500000⟩
  rerank := ⟨"rerank".toList, "model".toList, "config".toList, 10⟩

def manualRevision : RerankRevision where
  sha256 := some "rerank".toList
  providerModelRevisionSha256 := "model".toList
  configRevisionSha256 := "config".toList

def rerankResponse (results : List RerankResult) : RerankResponse where
  modelRevisionSha256 := "model".toList
  configRevisionSha256 := "config".toList
  results := results

theorem rerankResponse_identified (results : List RerankResult) :
    Identified (rerankResponse results) manualPolicy manualRevision :=
  ⟨rfl, rfl, rfl, rfl, rfl⟩

theorem printed_number {t : Text} {q : Rat} (hvalue : literalValue t = some q)
    (hform : 'e' ∉ t ∧ t.length ≤ 24 ∨ exists exponent, Scientific t q exponent) :
    Printed (.number t) := by
  intro t' heq
  cases heq
  exact ⟨q, hvalue, hform⟩

theorem scientific_millionth : Scientific "5e-7".toList (5 / 10 ^ 7) (-7) where
  value := by decide +kernel
  written := by decide
  nonzero := by decide
  digits := ⟨5 * 10 ^ 16, by norm_num, by norm_num, by norm_num [abs_of_pos]⟩

def plainResults : List RerankResult :=
  [⟨1, .number "5e-7".toList⟩, ⟨0, .number "0.25".toList⟩]

/-- A plain score, and one with an exponent. -/
theorem applyResponse_applies_plain :
    AppliesAsPermutation plainLibrary (rerankResponse plainResults)
      [rankedCandidate 1, rankedCandidate 2] manualPolicy manualRevision := by
  apply (applyResponse_applies_iff plainLibrary_readsNumbers (by decide)
    (rerankResponse_identified plainResults) _).mpr
  · rintro ⟨_, result, hresult, t, ht, exponent, hexponent, hlow⟩
    simp only [rerankResponse, plainResults, List.mem_cons, List.not_mem_nil,
      or_false] at hresult
    rcases hresult with rfl | rfl
    · cases ht
      cases scientific_millionth.written.symm.trans hexponent
      exact absurd hlow (by decide)
    · cases ht
      rw [exponentOf_plain (by decide)] at hexponent
      cases hexponent
  · intro result hresult
    simp only [rerankResponse, plainResults, List.mem_cons, List.not_mem_nil,
      or_false] at hresult
    rcases hresult with rfl | rfl
    · exact printed_number scientific_millionth.value (Or.inr ⟨_, scientific_millionth⟩)
    · have hvalue : literalValue "0.25".toList = some (1 / 4) := by decide +kernel
      exact printed_number hvalue (Or.inl ⟨by decide, by decide⟩)

theorem scientific_least : Scientific "5e-324".toList (5 / 10 ^ 324) (-324) where
  value := by decide +kernel
  written := by decide
  nonzero := by decide
  digits := ⟨5 * 10 ^ 16, by norm_num, by norm_num, by norm_num [abs_of_pos, div_eq_mul_inv]⟩

def tinyResults : List RerankResult :=
  [⟨0, .number "5e-324".toList⟩]

/-- The least positive score is refused, although it is in the unit interval. -/
theorem tiny_score_refused :
    ReadsNumbers plainLibrary ∧
      Identified (rerankResponse tinyResults) manualPolicy manualRevision ∧
      (forall result, result ∈ tinyResults -> Printed result.score) ∧
      ¬ AppliesAsPermutation plainLibrary (rerankResponse tinyResults) [rankedCandidate 1]
        manualPolicy manualRevision := by
  refine ⟨plainLibrary_readsNumbers, rerankResponse_identified tinyResults, ?_, ?_⟩
  · intro result hresult
    rw [List.mem_singleton.mp hresult]
    exact printed_number scientific_least.value (Or.inr ⟨_, scientific_least⟩)
  · intro h
    have hcomplete : Complete 1 tinyResults := by
      constructor
      · exact List.Perm.refl [0]
      · intro result hresult
        rw [List.mem_singleton.mp hresult]
        exact ⟨5 / 10 ^ 324, scientific_least.value, by decide +kernel, by decide +kernel⟩
    rcases h.succeeds.mpr hcomplete with ⟨reranked, hrun⟩
    have hfails : (applyResponse plainLibrary (rerankResponse tinyResults) [rankedCandidate 1]
        manualPolicy manualRevision).toOption = none := by
      decide +kernel
    rw [hrun] at hfails
    cases hfails

end Retrieval
end KnowledgeBrain
