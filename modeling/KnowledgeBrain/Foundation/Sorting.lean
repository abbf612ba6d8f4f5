import KnowledgeBrain.Foundation.Table
import KnowledgeBrain.Foundation.Folds
import Mathlib.Data.List.Sort
import Mathlib.Order.Compare
import Mathlib.Data.List.Perm.Basic

/-!
# Sorting by a comparison

A stable sort driven by a three-way comparison.  The result is a permutation
of the input whatever the comparison is, and is in order as soon as the
comparison is transitive.
-/

namespace KnowledgeBrain
namespace Foundation

section

variable {A : Type}

def sortBy (cmp : A -> A -> Ordering) (items : List A) : List A :=
  items.insertionSort fun a b => (cmp a b).isLE = true

theorem perm_sortBy (cmp : A -> A -> Ordering) (items : List A) :
    (sortBy cmp items).Perm items :=
  List.perm_insertionSort _ items

variable {cmp : A -> A -> Ordering}

@[simp]
theorem mem_sortBy {items : List A} {a : A} :
    a ∈ sortBy cmp items <-> a ∈ items :=
  (perm_sortBy cmp items).mem_iff

@[simp]
theorem length_sortBy (cmp : A -> A -> Ordering) (items : List A) :
    (sortBy cmp items).length = items.length :=
  (perm_sortBy cmp items).length_eq

theorem isLE_total [Std.OrientedCmp cmp] (a b : A) :
    (cmp a b).isLE = true ∨ (cmp b a).isLE = true := by
  have hswap : cmp a b = (cmp b a).swap := Std.OrientedCmp.eq_swap
  rw [hswap]
  cases cmp b a with
  | lt => exact Or.inr rfl
  | eq => exact Or.inl rfl
  | gt => exact Or.inl rfl

theorem pairwise_sortBy (cmp : A -> A -> Ordering) [Std.TransCmp cmp]
    (items : List A) :
    (sortBy cmp items).Pairwise fun a b => (cmp a b).isLE = true := by
  have htotal : Std.Total fun a b => (cmp a b).isLE = true := ⟨isLE_total⟩
  have htrans : IsTrans A fun a b => (cmp a b).isLE = true :=
    ⟨fun _ _ _ hab hbc => Std.TransCmp.isLE_trans hab hbc⟩
  exact List.pairwise_insertionSort _ items

theorem strict_sortBy [Std.TransCmp cmp] {items : List A} (hnodup : items.Nodup)
    (hseparates : forall a b, a ∈ items -> b ∈ items -> cmp a b = .eq -> a = b) :
    (sortBy cmp items).Pairwise fun a b => cmp a b = .lt := by
  have hne : (sortBy cmp items).Pairwise fun a b => a ≠ b :=
    (perm_sortBy cmp items).nodup_iff.mpr hnodup
  apply ((pairwise_sortBy cmp items).and hne).imp_of_mem
  intro a b ha hb hboth
  cases hcmp : cmp a b with
  | lt =>
      rfl
  | eq =>
      exact absurd (hseparates a b (mem_sortBy.mp ha) (mem_sortBy.mp hb) hcmp) hboth.2
  | gt =>
      rw [hcmp] at hboth
      exact absurd hboth.1 Bool.false_ne_true

theorem sortBy_eq_of_perm [Std.TransCmp cmp] {items items' : List A} (hperm : items.Perm items')
    (hseparates : forall a b, a ∈ items -> b ∈ items -> cmp a b = .eq -> a = b) :
    sortBy cmp items = sortBy cmp items' := by
  have hperm' : (sortBy cmp items).Perm (sortBy cmp items') :=
    (perm_sortBy cmp items).trans (hperm.trans (perm_sortBy cmp items').symm)
  apply hperm'.eq_of_pairwise _ (pairwise_sortBy cmp items) (pairwise_sortBy cmp items')
  intro a b ha hb hab hba
  apply hseparates a b (mem_sortBy.mp ha) (hperm.mem_iff.mpr (mem_sortBy.mp hb))
  exact Std.OrientedCmp.isLE_antisymm hab hba

end

/-!
# Reordering

What is computed from a collection in some order often does not depend on the
order: whether a map succeeds and what it collects, what is found by a key, and
what a loop with steps that commute arrives at.
-/

variable {A B Error K V : Type}

/-- A map that may fail collects the same results in any order. -/
theorem mapM_of_perm {f : A -> Except Error B} {items items' : List A}
    (hperm : items.Perm items') {results : List B} (hrun : items.mapM f = .ok results) :
    exists results', items'.mapM f = .ok results' ∧ results'.Perm results := by
  induction hperm generalizing results with
  | nil =>
      exact ⟨results, hrun, List.Perm.refl results⟩
  | cons a hperm ih =>
      rw [List.mapM_cons] at hrun
      rcases bind_eq_ok hrun with ⟨b, hfirst, hrun⟩
      rcases bind_eq_ok hrun with ⟨rest, hrest, hrun⟩
      cases hrun
      rcases ih hrest with ⟨rest', hrest', hsame⟩
      refine ⟨b :: rest', ?_, hsame.cons b⟩
      rw [List.mapM_cons, ok_bind hfirst, ok_bind hrest']
      rfl
  | swap a a' items =>
      rw [List.mapM_cons] at hrun
      rcases bind_eq_ok hrun with ⟨b', hsecond, hrun⟩
      rcases bind_eq_ok hrun with ⟨others, hothers, hrun⟩
      cases hrun
      rw [List.mapM_cons] at hothers
      rcases bind_eq_ok hothers with ⟨b, hfirst, hothers⟩
      rcases bind_eq_ok hothers with ⟨rest, hrest, hothers⟩
      cases hothers
      refine ⟨b :: b' :: rest, ?_, List.Perm.swap b' b rest⟩
      rw [List.mapM_cons, ok_bind hfirst, List.mapM_cons, ok_bind hsecond, ok_bind hrest]
      rfl
  | trans _ _ ih ih' =>
      rcases ih hrun with ⟨results', hrun', hsame⟩
      rcases ih' hrun' with ⟨results'', hrun'', hsame'⟩
      exact ⟨results'', hrun'', hsame'.trans hsame⟩

theorem find?_of_perm {p : A -> Bool} {items items' : List A} (hperm : items.Perm items')
    (hunique : forall a b, a ∈ items -> b ∈ items -> p a = true -> p b = true -> a = b) :
    items'.find? p = items.find? p := by
  cases hfind : items.find? p with
  | none =>
      rw [List.find?_eq_none] at hfind ⊢
      intro a ha
      exact hfind a (hperm.mem_iff.mpr ha)
  | some a =>
      cases hfind' : items'.find? p with
      | none =>
          rw [List.find?_eq_none] at hfind'
          exact absurd (List.find?_some hfind)
            (hfind' a (hperm.mem_iff.mp (List.mem_of_find?_eq_some hfind)))
      | some b =>
          have heq := hunique b a (hperm.mem_iff.mpr (List.mem_of_find?_eq_some hfind'))
            (List.mem_of_find?_eq_some hfind) (List.find?_some hfind') (List.find?_some hfind)
          rw [heq]

variable [DecidableEq K]

theorem lookup_of_perm {rows rows' : List (K × V)} (hperm : rows.Perm rows')
    (hnodup : (rows.map Prod.fst).Nodup) (k : K) : rows'.lookup k = rows.lookup k := by
  have hnodup' : (rows'.map Prod.fst).Nodup := (hperm.map Prod.fst).nodup_iff.mp hnodup
  have hsame : forall v, (Table.mk rows' hnodup').lookup k = some v <->
      (Table.mk rows hnodup).lookup k = some v := by
    intro v
    rw [Table.lookup_eq_some_iff_mem, Table.lookup_eq_some_iff_mem]
    exact hperm.mem_iff.symm
  exact Option.ext hsame

theorem rows_perm_of_lookup {t t' : Table K V} (hsame : forall k, t'.lookup k = t.lookup k) :
    t'.rows.Perm t.rows := by
  apply (List.perm_ext_iff_of_nodup (List.Nodup.of_map _ t'.nodup)
    (List.Nodup.of_map _ t.nodup)).mpr
  rintro ⟨k, v⟩
  rw [← Table.lookup_eq_some_iff_mem, ← Table.lookup_eq_some_iff_mem, hsame k]

end Foundation
end KnowledgeBrain
