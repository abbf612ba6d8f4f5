import Mathlib.Data.List.Basic
import Mathlib.Data.List.Infix

/-!
# Slices and spans of lists

A slice is addressed by two positions.  A list of spans is in order when the
spans follow each other without overlapping.
-/

namespace KnowledgeBrain
namespace Foundation

section

variable {α : Type}

def slice (xs : List α) (a b : Nat) : List α :=
  (xs.take b).drop a

theorem length_slice {xs : List α} {a b : Nat} (hb : b ≤ xs.length) :
    (slice xs a b).length = b - a := by
  simp [slice, Nat.min_eq_left hb]

theorem slice_self (xs : List α) (a : Nat) : slice xs a a = [] := by
  simp [slice]

theorem slice_all (xs : List α) : slice xs 0 xs.length = xs := by
  simp [slice]

theorem slice_append_left {xs : List α} (ys : List α) {a b : Nat} (hb : b ≤ xs.length) :
    slice (xs ++ ys) a b = slice xs a b := by
  simp [slice, List.take_append_of_le_length hb]

theorem slice_of_suffix {xs ys : List α} (h : ys <:+ xs) :
    slice xs (xs.length - ys.length) xs.length = ys := by
  obtain ⟨pre, rfl⟩ := h
  unfold slice
  rw [List.take_length, List.length_append, Nat.add_sub_cancel]
  exact List.drop_left

theorem slice_eq_take_drop (xs : List α) (a b : Nat) :
    slice xs a b = (xs.drop a).take (b - a) := by
  unfold slice
  rw [List.drop_take]

theorem slice_append_slice (xs : List α) {a b c : Nat} (hab : a ≤ b) (hbc : b ≤ c) :
    slice xs a b ++ slice xs b c = slice xs a c := by
  have hb : xs.take b = (xs.take c).take b := by
    rw [List.take_take, Nat.min_eq_left hbc]
  unfold slice
  rw [hb]
  generalize xs.take c = ys
  have hsplit : ys.drop b = (ys.drop a).drop (b - a) := by
    rw [List.drop_drop, Nat.add_sub_cancel' hab]
  rw [List.drop_take, hsplit]
  exact List.take_append_drop (b - a) (ys.drop a)

theorem slice_slice (xs : List α) {a b : Nat} (s : Nat) {t : Nat} (ht : a + t ≤ b) :
    slice (slice xs a b) s t = slice xs (a + s) (a + t) := by
  unfold slice
  rw [List.take_drop, List.drop_drop, List.take_take, Nat.min_eq_left ht]

theorem slice_append_right (xs ys : List α) (a b : Nat) :
    slice (xs ++ ys) (xs.length + a) (xs.length + b) = slice ys a b := by
  unfold slice
  rw [List.take_length_add_append, List.drop_length_add_append]

/-!
# Spans
-/

structure Span where
  start : Nat
  stop : Nat
deriving DecidableEq

namespace Span

/-- The spans follow each other between two positions. -/
def Ordered (lo hi : Nat) : List Span -> Prop
  | [] => lo ≤ hi
  | m :: ms => lo ≤ m.start ∧ m.start ≤ m.stop ∧ Ordered m.stop hi ms

instance decidableOrdered (lo hi : Nat) : (ms : List Span) -> Decidable (Ordered lo hi ms)
  | [] => inferInstanceAs (Decidable (lo ≤ hi))
  | m :: ms =>
      have := decidableOrdered m.stop hi ms
      inferInstanceAs (Decidable (lo ≤ m.start ∧ m.start ≤ m.stop ∧ Ordered m.stop hi ms))

theorem Ordered.le {lo hi : Nat} {ms : List Span} (h : Ordered lo hi ms) : lo ≤ hi := by
  induction ms generalizing lo with
  | nil => exact h
  | cons m ms ih => exact Nat.le_trans h.1 (Nat.le_trans h.2.1 (ih h.2.2))

theorem Ordered.mem {lo hi : Nat} {ms : List Span} (h : Ordered lo hi ms) :
    forall m, m ∈ ms -> lo ≤ m.start ∧ m.start ≤ m.stop ∧ m.stop ≤ hi := by
  induction ms generalizing lo with
  | nil =>
      intro m hmem
      cases hmem
  | cons m ms ih =>
      intro k hmem
      rcases List.mem_cons.mp hmem with rfl | hrest
      · exact ⟨h.1, h.2.1, h.2.2.le⟩
      · obtain ⟨hlo, hspan, hhi⟩ := ih h.2.2 k hrest
        exact ⟨Nat.le_trans h.1 (Nat.le_trans h.2.1 hlo), hspan, hhi⟩

end Span

end

/-!
# Spans that cover positions

Spans are laid down from left to right, possibly overlapping.  Below a front
every position of interest lies in one of them.
-/

namespace Span

/-- Move a span to the right. -/
def shift (base : Nat) (m : Span) : Span :=
  ⟨base + m.start, base + m.stop⟩

/-- Spans below `hi` in the order of their starts, none of which starts behind
the front and which cover the positions of interest before it. -/
structure Covers (P : Nat -> Prop) (hi front : Nat) (spans : List Span) : Prop where
  ranges : forall m, m ∈ spans -> m.start ≤ m.stop ∧ m.stop ≤ hi
  starts : spans.Pairwise fun m n => m.start ≤ n.start
  before : forall m, m ∈ spans -> m.start ≤ front
  covered : forall i, i < front -> P i -> exists m, m ∈ spans ∧ m.start ≤ i ∧ i < m.stop

namespace Covers

variable {P Q : Nat -> Prop} {hi front : Nat} {spans : List Span}

theorem nil (P : Nat -> Prop) (hi : Nat) : Covers P hi 0 [] where
  ranges := by
    intro m hmem
    cases hmem
  starts := List.Pairwise.nil
  before := by
    intro m hmem
    cases hmem
  covered := by
    intro i hi
    cases hi

theorem extend {hi' : Nat} (h : Covers P hi front spans) (hle : hi ≤ hi') :
    Covers P hi' front spans where
  ranges := by
    intro m hmem
    exact ⟨(h.ranges m hmem).1, Nat.le_trans (h.ranges m hmem).2 hle⟩
  starts := h.starts
  before := h.before
  covered := h.covered

theorem weaken (h : Covers P hi front spans) (himp : forall i, Q i -> P i) :
    Covers Q hi front spans where
  ranges := h.ranges
  starts := h.starts
  before := h.before
  covered := by
    intro i hlt hq
    exact h.covered i hlt (himp i hq)

theorem skip {front' : Nat} (h : Covers P hi front spans) (hle : front ≤ front')
    (hnone : forall i, front ≤ i -> i < front' -> ¬ P i) : Covers P hi front' spans where
  ranges := h.ranges
  starts := h.starts
  before := by
    intro m hmem
    exact Nat.le_trans (h.before m hmem) hle
  covered := by
    intro i hlt hp
    by_cases hold : i < front
    · exact h.covered i hold hp
    · exact absurd hp (hnone i (Nat.le_of_not_lt hold) hlt)

/-- A span at the front lets the front move up to its end. -/
theorem push {m : Span} {front' : Nat} (h : Covers P hi front spans) (hstart : m.start = front)
    (hle : m.start ≤ m.stop) (hstop : m.stop ≤ hi) (hlow : front ≤ front')
    (hhigh : front' ≤ m.stop) : Covers P hi front' (spans ++ [m]) where
  ranges := by
    intro n hmem
    rcases List.mem_append.mp hmem with hold | hnew
    · exact h.ranges n hold
    · rw [List.mem_singleton.mp hnew]
      exact ⟨hle, hstop⟩
  starts := by
    apply List.pairwise_append.mpr
    refine ⟨h.starts, List.pairwise_singleton _ _, ?_⟩
    intro n hold k hnew
    rw [List.mem_singleton.mp hnew, hstart]
    exact h.before n hold
  before := by
    intro n hmem
    rcases List.mem_append.mp hmem with hold | hnew
    · exact Nat.le_trans (h.before n hold) hlow
    · rw [List.mem_singleton.mp hnew, hstart]
      exact hlow
  covered := by
    intro i hlt hp
    by_cases hold : i < front
    · obtain ⟨n, hmem, hcover⟩ := h.covered i hold hp
      exact ⟨n, List.mem_append_left _ hmem, hcover⟩
    · refine ⟨m, List.mem_append_right _ (List.mem_singleton.mpr rfl), ?_, ?_⟩
      · rw [hstart]
        exact Nat.le_of_not_lt hold
      · exact Nat.lt_of_lt_of_le hlt hhigh

/-- Spans that cover a part of the text from the front on. -/
theorem append {hi' front' : Nat} {more : List Span} (h : Covers P hi front spans)
    (hmore : Covers Q hi' front' more) (hfit : front + hi' ≤ hi)
    (himp : forall i, P (front + i) -> Q i) :
    Covers P hi (front + front') (spans ++ more.map (shift front)) where
  ranges := by
    intro m hmem
    rcases List.mem_append.mp hmem with hold | hnew
    · exact h.ranges m hold
    · obtain ⟨n, hn, rfl⟩ := List.mem_map.mp hnew
      obtain ⟨hle, hstop⟩ := hmore.ranges n hn
      exact ⟨Nat.add_le_add_left hle front,
        Nat.le_trans (Nat.add_le_add_left hstop front) hfit⟩
  starts := by
    apply List.pairwise_append.mpr
    refine ⟨h.starts, ?_, ?_⟩
    · rw [List.pairwise_map]
      exact hmore.starts.imp fun hle => Nat.add_le_add_left hle front
    · intro m hold n hnew
      obtain ⟨k, _, rfl⟩ := List.mem_map.mp hnew
      exact Nat.le_trans (h.before m hold) (Nat.le_add_right _ _)
  before := by
    intro m hmem
    rcases List.mem_append.mp hmem with hold | hnew
    · exact Nat.le_trans (h.before m hold) (Nat.le_add_right _ _)
    · obtain ⟨n, hn, rfl⟩ := List.mem_map.mp hnew
      exact Nat.add_le_add_left (hmore.before n hn) front
  covered := by
    intro i hlt hp
    by_cases hold : i < front
    · obtain ⟨m, hmem, hcover⟩ := h.covered i hold hp
      exact ⟨m, List.mem_append_left _ hmem, hcover⟩
    · obtain ⟨j, rfl⟩ := Nat.le.dest (Nat.le_of_not_lt hold)
      obtain ⟨m, hmem, hlow, hhigh⟩ :=
        hmore.covered j (Nat.lt_of_add_lt_add_left hlt) (himp j hp)
      refine ⟨shift front m, List.mem_append_right _ (List.mem_map.mpr ⟨m, hmem, rfl⟩), ?_, ?_⟩
      · exact Nat.add_le_add_left hlow front
      · exact Nat.add_lt_add_left hhigh front

/-- Two spans that meet may be joined. -/
theorem join {m n : Span} {before rest : List Span}
    (h : Covers P hi front (before ++ m :: n :: rest)) (hmeet : m.stop = n.start) :
    Covers P hi front (before ++ ⟨m.start, n.stop⟩ :: rest) := by
  have hm := h.ranges m (by simp)
  have hn := h.ranges n (by simp)
  have hcases : forall k, k ∈ before ++ ⟨m.start, n.stop⟩ :: rest ->
      k ∈ before ++ m :: n :: rest ∨ k = ⟨m.start, n.stop⟩ := by
    intro k hmem
    rcases List.mem_append.mp hmem with hold | hnew
    · exact Or.inl (List.mem_append_left _ hold)
    · rcases List.mem_cons.mp hnew with heq | hrest
      · exact Or.inr heq
      · exact Or.inl (List.mem_append_right _
          (List.mem_cons_of_mem _ (List.mem_cons_of_mem _ hrest)))
  refine ⟨?_, ?_, ?_, ?_⟩
  · intro k hmem
    rcases hcases k hmem with hold | rfl
    · exact h.ranges k hold
    · exact ⟨Nat.le_trans hm.1 (hmeet ▸ hn.1), hn.2⟩
  · have hstarts := h.starts
    rw [List.pairwise_append, List.pairwise_cons, List.pairwise_cons] at hstarts
    obtain ⟨hbefore, ⟨hmrest, _, hrest⟩, hacross⟩ := hstarts
    rw [List.pairwise_append, List.pairwise_cons]
    refine ⟨hbefore, ⟨?_, hrest⟩, ?_⟩
    · intro k hk
      exact hmrest k (List.mem_cons_of_mem _ hk)
    · intro k hk l hl
      rcases List.mem_cons.mp hl with rfl | hl
      · exact hacross k hk m List.mem_cons_self
      · exact hacross k hk l (List.mem_cons_of_mem _ (List.mem_cons_of_mem _ hl))
  · intro k hmem
    rcases hcases k hmem with hold | rfl
    · exact h.before k hold
    · exact h.before m (by simp)
  · intro i hlt hp
    obtain ⟨k, hmem, hlow, hhigh⟩ := h.covered i hlt hp
    rcases List.mem_append.mp hmem with hold | hnew
    · exact ⟨k, List.mem_append_left _ hold, hlow, hhigh⟩
    · rcases List.mem_cons.mp hnew with rfl | hnew
      · exact ⟨_, List.mem_append_right _ List.mem_cons_self, hlow,
          Nat.lt_of_lt_of_le hhigh (hmeet ▸ hn.1)⟩
      · rcases List.mem_cons.mp hnew with rfl | hrest
        · exact ⟨_, List.mem_append_right _ List.mem_cons_self,
            Nat.le_trans hm.1 (Nat.le_trans (Nat.le_of_eq hmeet) hlow), hhigh⟩
        · exact ⟨k, List.mem_append_right _ (List.mem_cons_of_mem _ hrest), hlow, hhigh⟩

end Covers

end Span

/-!
# Spans cut against each other

The gaps that spans in the order of their starts leave below a bound, and the
pieces that they cut out of one span.  A gap is apart from every span and
nothing between the spans and the gaps is left.  Spans that are apart from each
other and cover a span are cut into pieces that tile it.
-/

namespace Span

def Contains (m : Span) (i : Nat) : Prop :=
  m.start ≤ i ∧ i < m.stop

instance (m : Span) (i : Nat) : Decidable (m.Contains i) :=
  inferInstanceAs (Decidable (m.start ≤ i ∧ i < m.stop))

/-- No position is in both. -/
def Apart (m n : Span) : Prop :=
  forall i, m.Contains i -> ¬ n.Contains i

theorem Apart.symm {m n : Span} (h : Apart m n) : Apart n m :=
  fun i hn hm => h i hm hn

/-!
# Gaps
-/

/-- What is left between the cursor and the bound. -/
def rest (cursor bound : Nat) : List Span :=
  if cursor < bound then [⟨cursor, bound⟩] else []

/-- The gaps from the cursor on, for spans in the order of their starts. -/
def gaps (bound : Nat) : Nat -> List Span -> List Span
  | cursor, [] => rest cursor bound
  | cursor, m :: ms =>
      if bound ≤ m.start then rest cursor bound
      else if cursor < m.start then ⟨cursor, m.start⟩ :: gaps bound (max cursor m.stop) ms
      else gaps bound (max cursor m.stop) ms

variable {bound cursor : Nat} {ms : List Span} {g : Span}

theorem mem_rest (hmem : g ∈ rest cursor bound) : g = ⟨cursor, bound⟩ ∧ cursor < bound := by
  unfold rest at hmem
  split at hmem
  · rename_i hlt
    exact ⟨List.mem_singleton.mp hmem, hlt⟩
  · cases hmem

theorem mem_rest_of_lt (hlt : cursor < bound) : (⟨cursor, bound⟩ : Span) ∈ rest cursor bound := by
  unfold rest
  rw [if_pos hlt]
  exact List.mem_singleton_self _

theorem mem_gaps_range (hmem : g ∈ gaps bound cursor ms) :
    cursor ≤ g.start ∧ g.start < g.stop ∧ g.stop ≤ bound := by
  induction ms generalizing cursor with
  | nil =>
      rcases mem_rest hmem with ⟨rfl, hlt⟩
      exact ⟨Nat.le_refl _, hlt, Nat.le_refl _⟩
  | cons m ms ih =>
      rw [gaps] at hmem
      split at hmem
      · rcases mem_rest hmem with ⟨rfl, hlt⟩
        exact ⟨Nat.le_refl _, hlt, Nat.le_refl _⟩
      · split at hmem
        · rename_i hbound hlt
          rcases List.mem_cons.mp hmem with rfl | hlater
          · refine ⟨Nat.le_refl _, hlt, ?_⟩
            show m.start ≤ bound
            omega
          · have hrange := ih hlater
            omega
        · have hrange := ih hmem
          omega

/-- A gap is apart from every span, wherever the cursor starts. -/
theorem apart_of_mem_gaps (hsorted : ms.Pairwise fun m n => m.start ≤ n.start)
    (hmem : g ∈ gaps bound cursor ms) {m : Span} (hspan : m ∈ ms) : Apart g m := by
  induction ms generalizing cursor with
  | nil =>
      cases hspan
  | cons n ms ih =>
      rw [List.pairwise_cons] at hsorted
      have hafter : n.start ≤ m.start := by
        rcases List.mem_cons.mp hspan with rfl | htail
        · exact Nat.le_refl _
        · exact hsorted.1 m htail
      -- The later gaps begin behind the first span.
      have hlater : g ∈ gaps bound (max cursor n.stop) ms -> Apart g m := by
        intro hlater
        rcases List.mem_cons.mp hspan with rfl | htail
        · have hrange := mem_gaps_range hlater
          intro i hg hm
          have := hg.1
          have := hm.2
          omega
        · exact ih hsorted.2 hlater htail
      rw [gaps] at hmem
      split at hmem
      · rcases mem_rest hmem with ⟨rfl, _⟩
        intro i hg hm
        have := hg.2
        have := hm.1
        simp only at *
        omega
      · split at hmem
        · rcases List.mem_cons.mp hmem with rfl | hgap
          · intro i hg hm
            have := hg.2
            have := hm.1
            simp only at *
            omega
          · exact hlater hgap
        · exact hlater hmem

/-- The gaps are in order, each behind the one before it. -/
theorem pairwise_gaps (hspans : forall m, m ∈ ms -> m.start ≤ m.stop) :
    (gaps bound cursor ms).Pairwise Apart := by
  induction ms generalizing cursor with
  | nil =>
      unfold gaps rest
      split
      · exact List.pairwise_singleton ..
      · exact List.Pairwise.nil
  | cons m ms ih =>
      have htail := @ih (max cursor m.stop) fun n hmem => hspans n (List.mem_cons_of_mem m hmem)
      rw [gaps]
      split
      · unfold rest
        split
        · exact List.pairwise_singleton ..
        · exact List.Pairwise.nil
      · split
        · rw [List.pairwise_cons]
          constructor
          · intro g hmem i hfirst hg
            have hrange := mem_gaps_range hmem
            have hspan := hspans m List.mem_cons_self
            have := hfirst.2
            have := hg.1
            simp only at *
            omega
          · exact htail
        · exact htail

/-- A position between the cursor and the bound is in a span or in a gap. -/
theorem contains_or_gaps {i : Nat} (hlow : cursor ≤ i) (hhigh : i < bound) :
    (exists m, m ∈ ms ∧ m.Contains i) ∨ exists g, g ∈ gaps bound cursor ms ∧ g.Contains i := by
  induction ms generalizing cursor with
  | nil =>
      have hlt : cursor < bound := Nat.lt_of_le_of_lt hlow hhigh
      exact Or.inr ⟨_, mem_rest_of_lt hlt, hlow, hhigh⟩
  | cons m ms ih =>
      have hlater : m.stop ≤ i -> (exists n, n ∈ m :: ms ∧ n.Contains i) ∨
          exists g, g ∈ gaps bound (max cursor m.stop) ms ∧ g.Contains i := by
        intro hbehind
        rcases @ih (max cursor m.stop) (by omega) with ⟨n, hmem, hn⟩ | hgap
        · exact Or.inl ⟨n, List.mem_cons_of_mem m hmem, hn⟩
        · exact Or.inr hgap
      by_cases hin : m.Contains i
      · exact Or.inl ⟨m, List.mem_cons_self, hin⟩
      · rw [gaps]
        split
        · have hlt : cursor < bound := Nat.lt_of_le_of_lt hlow hhigh
          exact Or.inr ⟨_, mem_rest_of_lt hlt, hlow, hhigh⟩
        · split
          · by_cases hbefore : i < m.start
            · exact Or.inr ⟨⟨cursor, m.start⟩, List.mem_cons_self, hlow, hbefore⟩
            · have hbehind : m.stop ≤ i := by
                unfold Contains at hin
                omega
              rcases hlater hbehind with hspan | ⟨g, hmem, hg⟩
              · exact Or.inl hspan
              · exact Or.inr ⟨g, List.mem_cons_of_mem _ hmem, hg⟩
          · have hbehind : m.stop ≤ i := by
              unfold Contains at hin
              omega
            exact hlater hbehind

/-!
# Tilings
-/

/-- The pieces follow each other from the start to the stop, none of them empty. -/
def Tiles : Nat -> Nat -> List Span -> Prop
  | start, stop, [] => start = stop
  | start, stop, m :: ms => m.start = start ∧ start < m.stop ∧ Tiles m.stop stop ms

/-- The part of a span that lies in another. -/
def clip (within m : Span) : Span :=
  ⟨max m.start within.start, min m.stop within.stop⟩

def clips (within : Span) (ms : List Span) : List Span :=
  (ms.map (clip within)).filter fun m => decide (m.start < m.stop)

/-- Spans in the order of their starts, apart from each other, that cover a span
from the cursor on and have nothing of it before, are cut into its tiles. -/
theorem tiles_clips {within : Span} (hsorted : ms.Pairwise fun m n => m.start ≤ n.start)
    (hapart : ms.Pairwise Apart) (hstart : within.start ≤ cursor) (hstop : cursor ≤ within.stop)
    (hcover : forall i, cursor ≤ i -> i < within.stop -> exists m, m ∈ ms ∧ m.Contains i)
    (hfresh : forall m, m ∈ ms -> forall i, within.start ≤ i -> i < cursor -> ¬ m.Contains i) :
    Tiles cursor within.stop (clips within ms) := by
  induction ms generalizing cursor with
  | nil =>
      show cursor = within.stop
      by_contra hne
      rcases hcover cursor (Nat.le_refl _) (by omega) with ⟨m, hmem, _⟩
      cases hmem
  | cons m ms ih =>
      rw [List.pairwise_cons] at hsorted hapart
      by_cases hpart : (clip within m).start < (clip within m).stop
      · have hlist : clips within (m :: ms) = clip within m :: clips within ms := by
          unfold clips
          rw [List.map_cons, List.filter_cons_of_pos (by simpa using hpart)]
        rw [hlist]
        simp only [clip] at hpart
        have hcursor : max m.start within.start = cursor := by
          apply Nat.le_antisymm
          · -- Whatever covers the cursor starts no earlier than this span.
            rcases hcover cursor (Nat.le_refl _) (by
              have := hfresh m List.mem_cons_self (max m.start within.start)
              unfold Contains at this
              omega) with ⟨n, hmem, hn⟩
            have hafter : m.start ≤ n.start := by
              rcases List.mem_cons.mp hmem with rfl | htail
              · exact Nat.le_refl _
              · exact hsorted.1 n htail
            have := hn.1
            omega
          · by_contra hbefore
            have hnot := hfresh m List.mem_cons_self (max m.start within.start)
            unfold Contains at hnot
            omega
        refine ⟨hcursor, ?_, ?_⟩
        · show cursor < min m.stop within.stop
          omega
        · show Tiles (min m.stop within.stop) within.stop (clips within ms)
          apply ih hsorted.2 hapart.2
          · omega
          · omega
          · intro i hlow hhigh
            rcases hcover i (by omega) hhigh with ⟨n, hmem, hn⟩
            rcases List.mem_cons.mp hmem with rfl | htail
            · have := hn.2
              omega
            · exact ⟨n, htail, hn⟩
          · intro n htail i hlow hhigh hn
            by_cases hbefore : i < cursor
            · exact hfresh n (List.mem_cons_of_mem m htail) i hlow hbefore hn
            · apply hapart.1 n htail i _ hn
              constructor
              · omega
              · omega
      · have hlist : clips within (m :: ms) = clips within ms := by
          unfold clips
          rw [List.map_cons, List.filter_cons_of_neg (by simpa using hpart)]
        rw [hlist]
        simp only [clip] at hpart
        apply ih hsorted.2 hapart.2 hstart hstop
        · intro i hlow hhigh
          rcases hcover i hlow hhigh with ⟨n, hmem, hn⟩
          rcases List.mem_cons.mp hmem with rfl | htail
          · have := hn.1
            have := hn.2
            omega
          · exact ⟨n, htail, hn⟩
        · exact fun n htail => hfresh n (List.mem_cons_of_mem m htail)

end Span

end Foundation
end KnowledgeBrain
