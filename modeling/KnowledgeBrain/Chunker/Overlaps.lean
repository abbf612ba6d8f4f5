import KnowledgeBrain.Chunker.Sizes

/-!
# Where an overlap starts

At the last boundary within twice the overlap before the cut.  Without one the
text is searched back for a line feed, and without that the bare offset is taken.
-/

namespace KnowledgeBrain
namespace Chunker

open Foundation

variable {t : Text} {bounds : List Boundary} {low high curEnd overlap : Nat}

/-- Behind the last line feed above `low` and up to `high`, or at `high`. -/
inductive ScansTo (t : Text) (low high : Nat) : Nat -> Prop where
  | feed (i : Nat) (hlow : low < i) (hhigh : i ≤ high) (hfeed : t[i]? = some '\n')
      (hlast : forall j, i < j -> j ≤ high -> t[j]? ≠ some '\n') : ScansTo t low high (i + 1)
  | bare (hnone : forall j, low < j -> j ≤ high -> t[j]? ≠ some '\n') : ScansTo t low high high

theorem ScansTo.unique {i j : Nat} (h : ScansTo t low high i) (h' : ScansTo t low high j) :
    i = j := by
  cases h with
  | feed i hlow hhigh hfeed hlast =>
      cases h' with
      | feed j hlow' hhigh' hfeed' hlast' =>
          have hle : ¬ i < j := fun hlt => hlast j hlt hhigh' hfeed'
          have hge : ¬ j < i := fun hlt => hlast' i hlt hhigh hfeed
          omega
      | bare hnone =>
          exact absurd hfeed (hnone i hlow hhigh)
  | bare hnone =>
      cases h' with
      | feed j hlow' hhigh' hfeed' _ =>
          exact absurd hfeed' (hnone j hlow' hhigh')
      | bare _ =>
          rfl

theorem ScansTo.low_le {i : Nat} (h : ScansTo t low high i) (hle : low ≤ high) : low ≤ i := by
  cases h with
  | feed i hlow _ _ _ =>
      omega
  | bare _ =>
      exact hle

/-- The walk back, when there is no line feed on the way so far. -/
theorem scansTo_lineStartBack (hhigh : high < t.length ∨ high = 0) (i : Nat) (hi : i ≤ high)
    (hpassed : forall j, i < j -> j ≤ high -> t[j]? ≠ some '\n') :
    ScansTo t low high (lineStartBack t low high i) := by
  induction i with
  | zero =>
      apply ScansTo.bare
      intro j hlow hj
      exact hpassed j (by omega) hj
  | succ i ih =>
      simp only [lineStartBack]
      split
      · split
        · rename_i hinside hfeed
          exact .feed (i + 1) hinside.1 hi hfeed hpassed
        · rename_i hinside hplain
          apply ih (by omega)
          intro j hlt hj
          by_cases heq : j = i + 1
          · rw [heq]
            exact hplain
          · exact hpassed j (by omega) hj
      · rename_i houtside
        apply ScansTo.bare
        intro j hlow hj
        exact hpassed j (by omega) hj

/-- The boundary lies within twice the overlap before the cut. -/
def Near (curEnd overlap : Nat) (b : Boundary) : Prop :=
  curEnd - 2 * overlap ≤ b.runeStart ∧ b.runeStart < curEnd

/-- There is an overlap, and no boundary lies within twice of it before the cut. -/
def Unbounded (bounds : List Boundary) (curEnd overlap : Nat) : Prop :=
  overlap ≠ 0 ∧ forall b, b ∈ bounds -> ¬ Near curEnd overlap b

/-- The position at which an overlap before a cut starts. -/
inductive OverlapStart (t : Text) (bounds : List Boundary) (curEnd overlap : Nat) :
    Nat -> Prop where
  | none (hoverlap : overlap = 0) : OverlapStart t bounds curEnd overlap curEnd
  | aligned (b : Boundary) (hmem : b ∈ bounds) (hnear : Near curEnd overlap b)
      (hlast : forall k, k ∈ bounds -> Near curEnd overlap k -> k.runeStart ≤ b.runeStart) :
      OverlapStart t bounds curEnd overlap b.runeStart
  | scanned (i : Nat) (hunbounded : Unbounded bounds curEnd overlap)
      (hscan : ScansTo t (curEnd - 2 * overlap) (curEnd - overlap) i) :
      OverlapStart t bounds curEnd overlap i

theorem OverlapStart.unique {i j : Nat} (h : OverlapStart t bounds curEnd overlap i)
    (h' : OverlapStart t bounds curEnd overlap j) : i = j := by
  cases h with
  | none hoverlap =>
      cases h' with
      | none _ =>
          rfl
      | aligned b _ hnear _ =>
          unfold Near at hnear
          omega
      | scanned j hunbounded _ =>
          exact absurd hoverlap hunbounded.1
  | aligned b hmem hnear hlast =>
      cases h' with
      | none hoverlap =>
          unfold Near at hnear
          omega
      | aligned k hmem' hnear' hlast' =>
          exact Nat.le_antisymm (hlast' b hmem hnear) (hlast k hmem' hnear')
      | scanned j hunbounded _ =>
          exact absurd hnear (hunbounded.2 b hmem)
  | scanned i hunbounded hscan =>
      cases h' with
      | none hoverlap =>
          exact absurd hoverlap hunbounded.1
      | aligned k hmem' hnear' _ =>
          exact absurd hnear' (hunbounded.2 k hmem')
      | scanned j _ hscan' =>
          exact hscan.unique hscan'

theorem overlapStart_aligned (bounds : List Boundary) (overlap : Nat)
    (hend : curEnd ≤ t.length) :
    OverlapStart t bounds curEnd overlap (applyOverlapAligned t curEnd overlap bounds) := by
  unfold applyOverlapAligned
  split
  · rename_i hoverlap
    exact .none hoverlap
  · rename_i hoverlap
    dsimp only
    have hwindow : forall b, b ∈ bounds -> Near curEnd overlap b ->
        b.runeStart ∈ (bounds.map Boundary.runeStart).filter fun q =>
          decide (curEnd - 2 * overlap ≤ q) && decide (q < curEnd) := by
      intro b hb hnear
      rw [List.mem_filter, Bool.and_eq_true, decide_eq_true_eq, decide_eq_true_eq]
      exact ⟨List.mem_map.mpr ⟨b, hb, rfl⟩, hnear⟩
    split
    · rename_i hempty
      apply OverlapStart.scanned
      · refine ⟨hoverlap, fun b hb hnear => ?_⟩
        have hfound := hwindow b hb hnear
        rw [hempty] at hfound
        cases hfound
      · apply scansTo_lineStartBack _ _ (Nat.le_refl _)
        · intro j hlt hj
          omega
        · omega
    · rename_i q rest hcons
      rcases foldl_max_bounds rest q with ⟨hall, hbest⟩
      rw [← hcons, List.mem_filter, Bool.and_eq_true, decide_eq_true_eq, decide_eq_true_eq]
        at hbest
      rcases List.mem_map.mp hbest.1 with ⟨b, hb, heq⟩
      rw [← heq] at hbest ⊢
      apply OverlapStart.aligned b hb hbest.2
      intro k hk hnear
      rw [heq]
      apply hall
      rw [← hcons]
      exact hwindow k hk hnear

/-- What is collected is one block, and it is not longer than twice the overlap. -/
def GoesBack (bounds : List Boundary) (overlap : Nat) (s : HeuristicState) : Prop :=
  overlap ≠ 0 ∧ s.curEnd ≤ s.chunkStart + 2 * overlap ∧
    forall b, b ∈ bounds -> ¬ (s.chunkStart < b.runeStart ∧ b.runeStart < s.curEnd)

/-- The overlap of blocks starts where the blocks start exactly when they are a
single one within twice the overlap. -/
theorem overlap_behind_iff {s : HeuristicState} {i : Nat}
    (hopen : exists b, b ∈ bounds ∧ s.chunkStart ≤ b.runeStart ∧ b.runeStart < s.curEnd)
    (hstart : OverlapStart t bounds s.curEnd overlap i) :
    s.chunkStart < i <-> ¬ GoesBack bounds overlap s := by
  rcases hopen with ⟨first, hfirst, hlow, hhigh⟩
  unfold GoesBack
  cases hstart with
  | none hoverlap =>
      constructor
      · intro _ hback
        exact hback.1 hoverlap
      · intro _
        omega
  | aligned b hmem hnear hlast =>
      constructor
      · intro hbehind hback
        exact hback.2.2 b hmem ⟨hbehind, hnear.2⟩
      · intro hforward
        by_contra hle
        apply hforward
        unfold Near at hnear
        refine ⟨by omega, by omega, ?_⟩
        intro k hk hbetween
        have hbefore := hlast k hk ⟨by omega, hbetween.2⟩
        omega
  | scanned i hunbounded hscan =>
      have hfar := hunbounded.2 first hfirst
      have hlow' := hscan.low_le (by omega)
      unfold Near at hfar
      constructor
      · intro _ hback
        have hclose := hback.2.1
        omega
      · intro _
        omega

end Chunker
end KnowledgeBrain
