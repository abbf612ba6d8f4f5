import Mathlib.Data.Nat.Find
import Mathlib.Algebra.Order.Group.Nat
import KnowledgeBrain.Foundation.Intervals

/-!
# Nesting

A list of marks opens and closes regions.  The regions that are open at a place
are those whose opening mark stands before it and whose closing mark does not.
-/

namespace KnowledgeBrain
namespace Foundation

inductive Bracket where
  | opening
  | closing
  | neutral
deriving DecidableEq

/-- Openings less closings among the first marks. -/
def level (ms : List Bracket) (n : Nat) : Int :=
  ((ms.take n).count .opening : Int) - (ms.take n).count .closing

/-- No mark closes what is not open, and in the end nothing is open. -/
structure Balanced (ms : List Bracket) : Prop where
  nonneg : forall n, 0 ≤ level ms n
  settled : level ms ms.length = 0

/-- A region from its opening mark to its closing mark. -/
structure Matched (ms : List Bracket) (b e : Nat) : Prop where
  lt : b < e
  opening : ms[b]? = some .opening
  closing : ms[e]? = some .closing
  within : Balanced (slice ms (b + 1) e)

/-- The opening marks of the open regions, the innermost first. -/
def openAt (ms : List Bracket) : Nat -> List Nat
  | 0 => []
  | n + 1 =>
      match ms[n]? with
      | some .opening => n :: openAt ms n
      | some .closing => (openAt ms n).tail
      | _ => openAt ms n

variable {ms : List Bracket} {n b e : Nat}

/-!
# Levels
-/

theorem level_opening (h : ms[n]? = some .opening) : level ms (n + 1) = level ms n + 1 := by
  unfold level
  rw [List.take_add_one, h]
  simp
  omega

theorem level_closing (h : ms[n]? = some .closing) : level ms (n + 1) = level ms n - 1 := by
  unfold level
  rw [List.take_add_one, h]
  simp
  omega

theorem level_other (ho : ms[n]? ≠ some .opening) (hc : ms[n]? ≠ some .closing) :
    level ms (n + 1) = level ms n := by
  unfold level
  rw [List.take_add_one]
  cases hn : ms[n]? with
  | none =>
      simp
  | some mark =>
      cases mark with
      | opening =>
          exact absurd hn ho
      | closing =>
          exact absurd hn hc
      | neutral =>
          simp

theorem level_zero (ms : List Bracket) : level ms 0 = 0 := by
  simp [level]

theorem level_of_length_le (h : ms.length ≤ n) : level ms n = level ms ms.length := by
  unfold level
  rw [List.take_of_length_le h, List.take_length]

theorem level_slice {k : Nat} (hbe : b + k ≤ e) :
    level (slice ms b e) k = level ms (b + k) - level ms b := by
  have htake : ms.take (b + k) = ms.take b ++ (slice ms b e).take k := by
    unfold slice
    rw [List.take_add, List.drop_take, List.take_take, Nat.min_eq_left (by omega)]
  unfold level
  rw [htake, List.count_append, List.count_append]
  omega

/-!
# Open regions
-/

theorem lt_of_mem_openAt (h : b ∈ openAt ms n) : b < n := by
  induction n with
  | zero =>
      cases h
  | succ n ih =>
      unfold openAt at h
      split at h
      · rcases List.mem_cons.mp h with rfl | h
        · exact Nat.lt_succ_self _
        · exact Nat.lt_succ_of_lt (ih h)
      · exact Nat.lt_succ_of_lt (ih (List.mem_of_mem_tail h))
      · exact Nat.lt_succ_of_lt (ih h)

theorem openAt_opening (h : ms[n]? = some .opening) : openAt ms (n + 1) = n :: openAt ms n := by
  rw [openAt, h]

theorem openAt_closing (h : ms[n]? = some .closing) : openAt ms (n + 1) = (openAt ms n).tail := by
  rw [openAt, h]

theorem openAt_other (ho : ms[n]? ≠ some .opening) (hc : ms[n]? ≠ some .closing) :
    openAt ms (n + 1) = openAt ms n := by
  rw [openAt]
  split
  · next h => exact absurd h ho
  · next h => exact absurd h hc
  · rfl

theorem opening_of_mem_openAt (h : b ∈ openAt ms n) : ms[b]? = some .opening := by
  induction n with
  | zero =>
      cases h
  | succ n ih =>
      by_cases ho : ms[n]? = some .opening
      · rw [openAt_opening ho] at h
        rcases List.mem_cons.mp h with rfl | h
        · exact ho
        · exact ih h
      · by_cases hc : ms[n]? = some .closing
        · rw [openAt_closing hc] at h
          exact ih (List.mem_of_mem_tail h)
        · rw [openAt_other ho hc] at h
          exact ih h

theorem pairwise_openAt (ms : List Bracket) (n : Nat) : (openAt ms n).Pairwise (· > ·) := by
  induction n with
  | zero =>
      exact .nil
  | succ n ih =>
      by_cases ho : ms[n]? = some .opening
      · rw [openAt_opening ho]
        exact .cons (fun _ hmem => lt_of_mem_openAt hmem) ih
      · by_cases hc : ms[n]? = some .closing
        · rw [openAt_closing hc]
          exact ih.sublist (List.tail_sublist _)
        · rw [openAt_other ho hc]
          exact ih

theorem levels_openAt (hnonneg : forall n, 0 ≤ level ms n) (n : Nat) :
    (openAt ms n).map (level ms) = (List.range (level ms n).toNat).reverse.map Int.ofNat := by
  induction n with
  | zero =>
      simp [openAt, level_zero]
  | succ n ih =>
      have hlevel := hnonneg n
      by_cases ho : ms[n]? = some .opening
      · rw [openAt_opening ho, level_opening ho, List.map_cons, ih,
          show (level ms n + 1).toNat = (level ms n).toNat + 1 by omega, List.range_succ]
        simp [Int.toNat_of_nonneg hlevel]
      · by_cases hc : ms[n]? = some .closing
        · have hstep := hnonneg (n + 1)
          rw [level_closing hc] at hstep
          rw [openAt_closing hc, level_closing hc, List.map_tail, ih,
            show (level ms n).toNat = (level ms n - 1).toNat + 1 by omega, List.range_succ]
          simp
        · rw [openAt_other ho hc, level_other ho hc, ih]

theorem length_openAt (hnonneg : forall n, 0 ≤ level ms n) (n : Nat) :
    ((openAt ms n).length : Int) = level ms n := by
  have hlength := congrArg List.length (levels_openAt hnonneg n)
  simp only [List.length_map, List.length_reverse, List.length_range] at hlength
  have hlevel := hnonneg n
  omega

/-- A region stays open while the level stays above the one where it was opened. -/
theorem mem_openAt_iff (hnonneg : forall n, 0 ≤ level ms n) :
    b ∈ openAt ms n <-> b < n ∧ ms[b]? = some .opening ∧
      forall m, b < m -> m ≤ n -> level ms b < level ms m := by
  induction n with
  | zero =>
      simp [openAt]
  | succ n ih =>
      by_cases ho : ms[n]? = some .opening
      · rw [openAt_opening ho, List.mem_cons, ih]
        constructor
        · rintro (rfl | ⟨hless, hopening, hlevels⟩)
          · refine ⟨Nat.lt_succ_self _, ho, ?_⟩
            intro m hm hm'
            rw [show m = b + 1 by omega, level_opening ho]
            omega
          · refine ⟨Nat.lt_succ_of_lt hless, hopening, ?_⟩
            intro m hm hm'
            by_cases hlast : m = n + 1
            · rw [hlast, level_opening ho]
              have hbefore := hlevels n hless (Nat.le_refl n)
              omega
            · exact hlevels m hm (by omega)
        · rintro ⟨hless, hopening, hlevels⟩
          by_cases hlast : b = n
          · exact Or.inl hlast
          · exact Or.inr ⟨by omega, hopening, fun m hm hm' => hlevels m hm (by omega)⟩
      · by_cases hc : ms[n]? = some .closing
        · rw [openAt_closing hc]
          have hlevels := levels_openAt hnonneg n
          have hstep := hnonneg (n + 1)
          rw [level_closing hc] at hstep
          cases hopen : openAt ms n with
          | nil =>
              have hlength := length_openAt hnonneg n
              rw [hopen] at hlength
              simp only [List.length_nil] at hlength
              omega
          | cons innermost outer =>
              rw [hopen] at ih
              rw [List.tail_cons]
              have hsorted := pairwise_openAt ms n
              rw [hopen] at hsorted
              rw [hopen, show (level ms n).toNat = (level ms n - 1).toNat + 1 by omega,
                List.range_succ] at hlevels
              simp only [List.map_cons, List.reverse_append, List.reverse_cons, List.reverse_nil,
                List.nil_append, List.cons_append, List.map_cons] at hlevels
              rcases List.cons.inj hlevels with ⟨hinnermost, houter⟩
              have hinnermost' : level ms innermost = level ms n - 1 := by
                rw [hinnermost]
                show (((level ms n - 1).toNat : Nat) : Int) = _
                omega
              constructor
              · intro hmem
                rcases ih.mp (List.mem_cons_of_mem _ hmem) with ⟨hless, hopening, habove⟩
                refine ⟨Nat.lt_succ_of_lt hless, hopening, ?_⟩
                intro m hm hm'
                by_cases hlast : m = n + 1
                · have hlevel : level ms b ∈ outer.map (level ms) :=
                    List.mem_map.mpr ⟨b, hmem, rfl⟩
                  rw [houter] at hlevel
                  rcases List.mem_map.mp hlevel with ⟨k, hk, hkLevel⟩
                  have hkLess := List.mem_range.mp (List.mem_reverse.mp hk)
                  rw [hlast, level_closing hc, ← hkLevel]
                  show (k : Int) < level ms n - 1
                  omega
                · exact habove m hm (by omega)
              · rintro ⟨hless, hopening, habove⟩
                have hne : b ≠ n := by
                  rintro rfl
                  exact ho hopening
                have hmem := ih.mpr ⟨by omega, hopening, fun m hm hm' => habove m hm (by omega)⟩
                rcases List.mem_cons.mp hmem with rfl | hmem
                · have hlast := habove (n + 1) hless (Nat.le_refl _)
                  rw [level_closing hc] at hlast
                  omega
                · exact hmem
        · rw [openAt_other ho hc, ih]
          constructor
          · rintro ⟨hless, hopening, hlevels⟩
            refine ⟨Nat.lt_succ_of_lt hless, hopening, ?_⟩
            intro m hm hm'
            by_cases hlast : m = n + 1
            · rw [hlast, level_other ho hc]
              exact hlevels n hless (Nat.le_refl n)
            · exact hlevels m hm (by omega)
          · rintro ⟨hless, hopening, hlevels⟩
            have hne : b ≠ n := by
              rintro rfl
              exact ho hopening
            exact ⟨by omega, hopening, fun m hm hm' => hlevels m hm (by omega)⟩

/-!
# Matching
-/

theorem Matched.level_lt (h : Matched ms b e) {m : Nat} (hb : b < m) (he : m ≤ e) :
    level ms b < level ms m := by
  have hslice := @level_slice ms (b + 1) e (m - (b + 1)) (by omega)
  have hnonneg := h.within.nonneg (m - (b + 1))
  rw [hslice, show b + 1 + (m - (b + 1)) = m by omega, level_opening h.opening] at hnonneg
  omega

theorem Matched.level_succ (h : Matched ms b e) : level ms (e + 1) = level ms b := by
  have hlt := h.lt
  have hlength : e ≤ ms.length := by
    have := (List.getElem?_eq_some_iff.mp h.closing).1
    omega
  have hslice := @level_slice ms (b + 1) e (e - (b + 1)) (by omega)
  have hsettled := h.within.settled
  rw [length_slice hlength, hslice, show b + 1 + (e - (b + 1)) = e by omega,
    level_opening h.opening] at hsettled
  rw [level_closing h.closing]
  omega

/-- Every region of a balanced list is closed. -/
theorem exists_matched (hbalanced : Balanced ms) (h : ms[b]? = some .opening) :
    exists e, Matched ms b e := by
  have hlength := (List.getElem?_eq_some_iff.mp h).1
  have hreturns : exists m, b < m ∧ level ms m ≤ level ms b :=
    ⟨ms.length, hlength, by rw [hbalanced.settled]; exact hbalanced.nonneg b⟩
  -- the first place where the level is back
  have hfirst := Nat.find_spec hreturns
  have hbefore : forall m, m < Nat.find hreturns -> b < m -> level ms b < level ms m := by
    intro m hm hbm
    have hnot := Nat.find_min hreturns hm
    by_contra hle
    exact hnot ⟨hbm, by omega⟩
  generalize Nat.find hreturns = stop at hfirst hbefore
  rcases hfirst with ⟨hstop, hback⟩
  have hopened := level_opening h
  have hne : stop ≠ b + 1 := by
    rintro rfl
    omega
  have habove := hbefore (stop - 1) (by omega) (by omega)
  have hsucc : stop - 1 + 1 = stop := by omega
  have hclosing : ms[stop - 1]? = some .closing := by
    by_contra hc
    by_cases ho : ms[stop - 1]? = some .opening
    · have hlevel := level_opening ho
      rw [hsucc] at hlevel
      omega
    · have hlevel := level_other ho hc
      rw [hsucc] at hlevel
      omega
  have hlevel := level_closing hclosing
  rw [hsucc] at hlevel
  have hlong : stop - 1 ≤ ms.length := by
    have := (List.getElem?_eq_some_iff.mp hclosing).1
    omega
  refine ⟨stop - 1, by omega, h, hclosing, ?_, ?_⟩
  · intro n
    by_cases hn : b + 1 + n ≤ stop - 1
    · rw [level_slice hn, hopened]
      have := hbefore (b + 1 + n) (by omega) (by omega)
      omega
    · rw [level_of_length_le (by rw [length_slice hlong]; omega), length_slice hlong,
        level_slice (by omega), show b + 1 + (stop - 1 - (b + 1)) = stop - 1 by omega, hopened]
      omega
  · rw [length_slice hlong, level_slice (by omega),
      show b + 1 + (stop - 1 - (b + 1)) = stop - 1 by omega, hopened]
    omega

theorem mem_openAt_iff_matched (hbalanced : Balanced ms) :
    b ∈ openAt ms n <-> exists e, Matched ms b e ∧ b < n ∧ n ≤ e := by
  rw [mem_openAt_iff hbalanced.nonneg]
  constructor
  · rintro ⟨hless, hopening, hlevels⟩
    rcases exists_matched hbalanced hopening with ⟨e, hmatched⟩
    refine ⟨e, hmatched, hless, ?_⟩
    by_contra hafter
    have hlevel := hlevels (e + 1) (Nat.lt_succ_of_lt hmatched.lt) (by omega)
    rw [hmatched.level_succ] at hlevel
    omega
  · rintro ⟨e, hmatched, hless, hbefore⟩
    exact ⟨hless, hmatched.opening, fun m hm hm' => hmatched.level_lt hm (by omega)⟩

end Foundation
end KnowledgeBrain
