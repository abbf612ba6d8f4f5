import Mathlib.Data.List.Basic
import Mathlib.Algebra.Group.Nat.Defs

/-!
# Maximal runs

A walk over a list collects the items that have a name and cuts where an item
has none or where the block changes.  What it reports are the ends of the
longest runs of at least two items.
-/

namespace KnowledgeBrain
namespace Foundation
namespace MaximalRuns

variable {A B D : Type}

/-- The ends of a run of at least two. -/
def close (runs : List (B × B)) (current : List B) : List (B × B) :=
  if 2 ≤ current.length then
    match current.head?, current.getLast? with
    | some first, some last => runs ++ [(first, last)]
    | _, _ => runs
  else runs

/-- The runs so far, the names of the current one and the block of the last item. -/
structure State (B D : Type) where
  runs : List (B × B)
  current : List B
  last : Option D

section Walk

variable [DecidableEq D] (name : A -> Option B) (block : A -> D)

def step (state : State B D) (a : A) : State B D :=
  match name a with
  | none => { runs := close state.runs state.current, current := [], last := some (block a) }
  | some b =>
      if some (block a) ≠ state.last then
        { runs := close state.runs state.current, current := [b], last := some (block a) }
      else { state with current := state.current ++ [b], last := some (block a) }

def walk (items : List A) : List (B × B) :=
  let state := items.foldl (step name block) { runs := [], current := [], last := none }
  close state.runs state.current

end Walk

variable (name : A -> Option B) (block : A -> D) (items : List A)

def nameAt (m : Nat) : Option B :=
  items[m]?.bind name

def blockAt (m : Nat) : Option D :=
  items[m]?.map block

/-- All items between two places have names, in one block. -/
def Solid (i j : Nat) : Prop :=
  forall m, i ≤ m -> m ≤ j -> (nameAt name items m).isSome = true ∧
    blockAt block items m = blockAt block items i

variable {name block items}

theorem Solid.sub {i j i' j' : Nat} (h : Solid name block items i j) (hi : i ≤ i') (hj : j' ≤ j)
    (hij : i' ≤ j') : Solid name block items i' j' := by
  intro m hm hm'
  have hstart := h i' hi (Nat.le_trans hij hj)
  have hplace := h m (Nat.le_trans hi hm) (Nat.le_trans hm' hj)
  exact ⟨hplace.1, hplace.2.trans hstart.2.symm⟩

/-- The places of the runs that were reported among the first items. -/
structure Reported (name : A -> Option B) (block : A -> D) (items : List A) (n : Nat)
    (runs : List (B × B)) (ends : List (Nat × Nat)) : Prop where
  names : runs.map (fun run => (some run.1, some run.2)) =
    ends.map fun place => (nameAt name items place.1, nameAt name items place.2)
  within : forall place, place ∈ ends -> place.1 < place.2 ∧ place.2 < n ∧
    Solid name block items place.1 place.2
  covered : forall i j, i < j -> j < n -> Solid name block items i j ->
    exists place, place ∈ ends ∧ place.1 ≤ i ∧ j ≤ place.2

/-- The walk after some items; `start` begins the current run. -/
structure Walked (name : A -> Option B) (block : A -> D) (items : List A) (n : Nat)
    (state : State B D) (start : Nat) : Prop where
  start_le : start ≤ n
  current : state.current.map some = (List.range' start (n - start)).map (nameAt name items)
  solid : start < n -> Solid name block items start (n - 1)
  last : 0 < n -> state.last = blockAt block items (n - 1)
  fresh : n = 0 -> state.last = none
  boundary : 0 < start -> forall j, start ≤ j -> ¬ Solid name block items (start - 1) j
  reported : exists ends, Reported name block items start state.runs ends

variable {state : State B D}

theorem Walked.length_current {n start : Nat} (h : Walked name block items n state start) :
    state.current.length = n - start := by
  have hlength := congrArg List.length h.current
  simpa using hlength

theorem Walked.start_le_of_solid {n start i j : Nat} (h : Walked name block items n state start)
    (hj : start ≤ j) (hsolid : Solid name block items i j) : start ≤ i := by
  by_contra hless
  apply h.boundary (by omega) j hj
  exact hsolid.sub (by omega) (Nat.le_refl j) (by omega)

/-- Closing the current run reports it if it has two items. -/
theorem Walked.close {n start : Nat} (h : Walked name block items n state start) :
    exists ends, Reported name block items n (close state.runs state.current) ends := by
  rcases h.reported with ⟨ends, hends⟩
  have hlength := h.length_current
  have hstart := h.start_le
  unfold MaximalRuns.close
  by_cases hlong : 2 ≤ state.current.length
  · have hhead : state.current.head?.map some = some (nameAt name items start) := by
      rw [← List.head?_map, h.current, List.head?_map, List.head?_range']
      simp [show n - start ≠ 0 by omega]
    have hlast : state.current.getLast?.map some = some (nameAt name items (n - 1)) := by
      rw [← List.getLast?_map, h.current, List.getLast?_map, List.getLast?_range']
      rw [if_neg (by omega), Option.map_some, show start + (n - start) - 1 = n - 1 by omega]
    rcases Option.map_eq_some_iff.mp hhead with ⟨first, hfirst, hfirstName⟩
    rcases Option.map_eq_some_iff.mp hlast with ⟨last, hlastItem, hlastName⟩
    rw [if_pos hlong, hfirst, hlastItem]
    refine ⟨ends ++ [(start, n - 1)], ?_, ?_, ?_⟩
    · rw [List.map_append, List.map_append, hends.names]
      simp [hfirstName, hlastName]
    · intro place hplace
      rcases List.mem_append.mp hplace with hplace | hplace
      · rcases hends.within place hplace with ⟨hless, hbound, hsolid⟩
        exact ⟨hless, by omega, hsolid⟩
      · rw [List.mem_singleton.mp hplace]
        exact ⟨show start < n - 1 by omega, show n - 1 < n by omega, h.solid (by omega)⟩
    · intro i j hij hj hsolid
      by_cases hold : j < start
      · rcases hends.covered i j hij hold hsolid with ⟨place, hplace, hcovers⟩
        exact ⟨place, List.mem_append_left _ hplace, hcovers⟩
      · refine ⟨(start, n - 1), List.mem_append_right _ List.mem_cons_self, ?_, ?_⟩
        · exact h.start_le_of_solid (by omega) hsolid
        · show j ≤ n - 1
          omega
  · rw [if_neg hlong]
    refine ⟨ends, hends.names, ?_, ?_⟩
    · intro place hplace
      rcases hends.within place hplace with ⟨hless, hbound, hsolid⟩
      exact ⟨hless, by omega, hsolid⟩
    · intro i j hij hj hsolid
      by_cases hold : j < start
      · exact hends.covered i j hij hold hsolid
      · have hge := h.start_le_of_solid (show start ≤ j by omega) hsolid
        omega

theorem solid_self {m : Nat} (h : (nameAt name items m).isSome = true) :
    Solid name block items m m := by
  intro k hk hk'
  rw [Nat.le_antisymm hk' hk]
  exact ⟨h, rfl⟩

theorem walked_step [DecidableEq D] {n start : Nat} (h : Walked name block items n state start)
    {a : A} (ha : items[n]? = some a) :
    exists start', Walked name block items (n + 1) (step name block state a) start' := by
  have hname : nameAt name items n = name a := by
    rw [nameAt, ha]
    rfl
  have hblock : blockAt block items n = some (block a) := by
    rw [blockAt, ha]
    rfl
  unfold step
  cases hfound : name a with
  | none =>
      -- the item has no name: nothing goes on across it
      refine ⟨n + 1, ?_⟩
      constructor
      · exact Nat.le_refl _
      · simp
      · exact fun hless => absurd hless (Nat.lt_irrefl _)
      · exact fun _ => hblock.symm
      · exact fun hzero => absurd hzero (Nat.succ_ne_zero n)
      · intro _ j hj hsolid
        have hplace := (hsolid n (Nat.le_refl n) (by omega)).1
        rw [hname, hfound] at hplace
        cases hplace
      · rcases h.close with ⟨ends, hends⟩
        refine ⟨ends, hends.names, ?_, ?_⟩
        · intro place hplace
          rcases hends.within place hplace with ⟨hless, hbound, hsolid⟩
          exact ⟨hless, by omega, hsolid⟩
        · intro i j hij hj hsolid
          by_cases hlast : j = n
          · have hplace := (hsolid n (by omega) (by omega)).1
            rw [hname, hfound] at hplace
            cases hplace
          · exact hends.covered i j hij (by omega) hsolid
  | some b =>
      have hself : Solid name block items n n := by
        apply solid_self
        rw [hname, hfound]
        rfl
      by_cases hdiffers : some (block a) ≠ state.last
      · simp only [if_pos hdiffers]
        refine ⟨n, ?_⟩
        constructor
        · exact Nat.le_succ n
        · simp [show n + 1 - n = 1 by omega, hname, hfound]
        · exact fun _ => hself
        · exact fun _ => hblock.symm
        · exact fun hzero => absurd hzero (Nat.succ_ne_zero n)
        · intro hpos j hj hsolid
          have hplace := (hsolid n (by omega) hj).2
          apply hdiffers
          rw [h.last hpos, ← hplace, hblock]
        · exact h.close
      · simp only [if_neg hdiffers]
        have hsame : state.last = some (block a) := by
          by_contra hne
          exact hdiffers fun heq => hne heq.symm
        have hpos : 0 < n := by
          by_contra hzero
          rw [h.fresh (by omega)] at hsame
          cases hsame
        have hblocks : blockAt block items (n - 1) = blockAt block items n := by
          rw [← h.last hpos, hsame, hblock]
        refine ⟨start, ?_⟩
        have hstart := h.start_le
        constructor
        · exact Nat.le_succ_of_le h.start_le
        · rw [List.map_append, h.current, show n + 1 - start = n - start + 1 by omega,
            List.range'_1_concat, List.map_append]
          simp [show start + (n - start) = n by omega, hname, hfound]
        · intro hless
          show Solid name block items start n
          by_cases hempty : start = n
          · rw [hempty]
            exact hself
          · intro m hm hm'
            by_cases hlast : m = n
            · rw [hlast]
              have hfirst := (h.solid (by omega) (n - 1) (by omega) (Nat.le_refl _)).2
              exact ⟨(hself n (Nat.le_refl n) (Nat.le_refl n)).1, hblocks.symm.trans hfirst⟩
            · exact h.solid (by omega) m hm (by omega)
        · exact fun _ => hblock.symm
        · exact fun hzero => absurd hzero (Nat.succ_ne_zero n)
        · exact h.boundary
        · exact h.reported

/-- The reported runs are the longest ones. -/
theorem reported_walk [DecidableEq D] (name : A -> Option B) (block : A -> D) (items : List A) :
    exists ends, Reported name block items items.length (walk name block items) ends := by
  have hrun : forall n, n ≤ items.length -> exists start,
      Walked name block items n ((items.take n).foldl (step name block)
        { runs := [], current := [], last := none }) start := by
    intro n
    induction n with
    | zero =>
        intro _
        refine ⟨0, ?_⟩
        constructor
        · exact Nat.le_refl 0
        · rfl
        · exact fun hless => absurd hless (Nat.lt_irrefl 0)
        · exact fun hless => absurd hless (Nat.lt_irrefl 0)
        · exact fun _ => rfl
        · exact fun hless => absurd hless (Nat.lt_irrefl 0)
        · refine ⟨[], rfl, ?_, ?_⟩
          · intro place hplace
            cases hplace
          · exact fun i j _ hj => absurd hj (Nat.not_lt_zero j)
    | succ n ih =>
        intro hlength
        rcases ih (by omega) with ⟨start, hwalked⟩
        have hget : items[n]? = some items[n] := List.getElem?_eq_getElem hlength
        rw [List.take_add_one, hget, Option.toList_some, List.foldl_append]
        exact walked_step hwalked hget
  rcases hrun items.length (Nat.le_refl _) with ⟨start, hwalked⟩
  rw [List.take_length] at hwalked
  exact hwalked.close

end MaximalRuns
end Foundation
end KnowledgeBrain
