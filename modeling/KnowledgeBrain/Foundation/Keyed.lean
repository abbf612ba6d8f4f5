import KnowledgeBrain.Foundation.Table
import Mathlib.Data.List.Perm.Basic

/-!
# Lists read by key

A list is read as a dictionary: the last entry of a key counts, or the first
where later ones are dropped.  Where no key occurs twice, an entry is found by
its key.
-/

namespace KnowledgeBrain
namespace Foundation

section

variable {A K : Type} [DecidableEq K] (key : A -> K)

/-- The last entry of every key. -/
def latestBy : List A -> List A
  | [] => []
  | a :: rest => if key a ∈ rest.map key then latestBy rest else a :: latestBy rest

def findBy (items : List A) (k : K) : Option A :=
  items.find? fun a => decide (key a = k)

/-- Changes the last entry of a key. -/
def modifyLast (k : K) (f : A -> A) : List A -> List A
  | [] => []
  | a :: rest =>
      if k ∈ rest.map key then a :: modifyLast k f rest
      else if key a = k then f a :: rest else a :: rest

variable {key}

variable {items : List A} {a : A}

theorem findBy_eq_some {k : K} (hfind : findBy key items k = some a) :
    a ∈ items ∧ key a = k := by
  constructor
  · exact List.mem_of_find?_eq_some hfind
  · simpa using List.find?_some hfind

theorem findBy_eq_none {k : K} :
    findBy key items k = none <-> k ∉ items.map key := by
  unfold findBy
  rw [List.find?_eq_none, List.mem_map]
  constructor
  · rintro hnone ⟨a, hmem, rfl⟩
    have habsent := hnone a hmem
    simp at habsent
  · intro habsent a hmem htrue
    exact habsent ⟨a, hmem, of_decide_eq_true htrue⟩

theorem findBy_of_mem (hunique : (items.map key).Nodup) (hmem : a ∈ items) :
    findBy key items (key a) = some a := by
  cases hfind : findBy key items (key a) with
  | none =>
      exact absurd (List.mem_map_of_mem hmem) (findBy_eq_none.mp hfind)
  | some b =>
      rcases findBy_eq_some hfind with ⟨hb, hkey⟩
      rw [List.inj_on_of_nodup_map hunique hb hmem hkey]

theorem findBy_map {f : A -> A} (hkey : forall a, key (f a) = key a) (items : List A) (k : K) :
    findBy key (items.map f) k = (findBy key items k).map f := by
  unfold findBy
  rw [List.find?_map]
  have hsame : ((fun a => decide (key a = k)) ∘ f) = fun a => decide (key a = k) := by
    funext a
    simp only [Function.comp, hkey]
  rw [hsame]

/-- The entries of one key, where no key occurs twice. -/
theorem filter_key_eq (hunique : (items.map key).Nodup) (k : K) :
    (items.filter fun a => decide (key a = k)) = (findBy key items k).toList := by
  induction items with
  | nil =>
      rfl
  | cons a rest ih =>
      rw [List.map_cons, List.nodup_cons] at hunique
      by_cases hkey : key a = k
      · have hrest : (rest.filter fun b => decide (key b = k)) = [] := by
          rw [List.filter_eq_nil_iff]
          intro b hmem htrue
          apply hunique.1
          rw [hkey, ← of_decide_eq_true htrue]
          exact List.mem_map_of_mem hmem
        simp only [findBy, List.filter_cons, List.find?_cons, hkey, decide_true, if_true, hrest,
          Option.toList_some]
      · have hrest := ih hunique.2
        simp only [findBy] at hrest
        simp only [findBy, List.filter_cons, List.find?_cons, hkey, decide_false,
          Bool.false_eq_true, if_false, hrest]

theorem filterMap_findBy (hunique : (items.map key).Nodup) (p : K -> Bool) :
    ((items.map key).filter p).filterMap (findBy key items) =
      items.filter fun a => p (key a) := by
  rw [List.filter_map, List.filterMap_map]
  have hsome : forall a, a ∈ items.filter (p ∘ key) ->
      (findBy key items ∘ key) a = some a := by
    intro a hmem
    exact findBy_of_mem hunique (List.mem_filter.mp hmem).1
  rw [List.filterMap_congr hsome, List.filterMap_some]
  rfl

theorem mem_of_mem_latestBy (hmem : a ∈ latestBy key items) :
    a ∈ items := by
  induction items with
  | nil =>
      exact hmem
  | cons b rest ih =>
      rw [latestBy] at hmem
      split at hmem
      · exact List.mem_cons_of_mem b (ih hmem)
      · rcases List.mem_cons.mp hmem with rfl | hrest
        · exact List.mem_cons_self
        · exact List.mem_cons_of_mem b (ih hrest)

theorem mem_latestBy_append {items later : List A} (hmem : a ∈ latestBy key (items ++ later)) :
    a ∈ later ∨ (a ∈ items ∧ key a ∉ later.map key) := by
  induction items with
  | nil =>
      exact Or.inl (mem_of_mem_latestBy hmem)
  | cons b rest ih =>
      have hrestCase : a ∈ latestBy key (rest ++ later) ->
          a ∈ later ∨ (a ∈ b :: rest ∧ key a ∉ later.map key) := by
        intro hrest
        rcases ih hrest with hlater | ⟨hitems, hnew⟩
        · exact Or.inl hlater
        · exact Or.inr ⟨List.mem_cons_of_mem b hitems, hnew⟩
      rw [List.cons_append, latestBy] at hmem
      split at hmem
      · exact hrestCase hmem
      · rename_i hlast
        rcases List.mem_cons.mp hmem with rfl | hrest
        · apply Or.inr
          constructor
          · exact List.mem_cons_self
          · intro hlater
            apply hlast
            rw [List.map_append]
            exact List.mem_append_right _ hlater
        · exact hrestCase hrest

theorem mem_modifyLast {R : A -> A -> Prop} (hrefl : forall a, R a a) {k : K} {f : A -> A}
    (hchange : forall a, key a = k -> R a (f a)) {b : A} (hmem : b ∈ modifyLast key k f items) :
    exists a, a ∈ items ∧ R a b := by
  induction items with
  | nil =>
      cases hmem
  | cons a rest ih =>
      rw [modifyLast] at hmem
      split at hmem
      · rcases List.mem_cons.mp hmem with rfl | hrest
        · exact ⟨b, List.mem_cons_self, hrefl b⟩
        · rcases ih hrest with ⟨a', hmem', hrel⟩
          exact ⟨a', List.mem_cons_of_mem a hmem', hrel⟩
      · split at hmem
        · rename_i hkey
          rcases List.mem_cons.mp hmem with rfl | hrest
          · exact ⟨a, List.mem_cons_self, hchange a hkey⟩
          · exact ⟨b, List.mem_cons_of_mem a hrest, hrefl b⟩
        · exact ⟨b, hmem, hrefl b⟩

theorem sublist_filterMap {A B K : Type} {f : A -> Option B} {key : A -> K} {key' : B -> K}
    (hkey : forall a b, f a = some b -> key' b = key a) (items : List A) :
    ((items.filterMap f).map key').Sublist (items.map key) := by
  induction items with
  | nil =>
      exact List.Sublist.refl []
  | cons a items ih =>
      rw [List.map_cons]
      cases hitem : f a with
      | none =>
          rw [List.filterMap_cons_none hitem]
          exact ih.cons (key a)
      | some b =>
          rw [List.filterMap_cons_some hitem, List.map_cons, hkey a b hitem]
          exact ih.cons_cons (key a)

/-!
# The first of each key
-/

section FirstBy

variable {B : Type}

/-- The entries whose key no entry before them has. -/
def firstBy (key : A -> K) : List A -> List A
  | [] => []
  | a :: rest => a :: (firstBy key rest).filter fun b => decide (key b ≠ key a)

theorem firstBy_sublist (key : A -> K) (items : List A) : (firstBy key items).Sublist items := by
  induction items with
  | nil =>
      exact List.Sublist.refl _
  | cons a rest ih =>
      exact (List.filter_sublist.trans ih).cons_cons a

theorem firstBy_map (f : A -> B) (key : B -> K) (items : List A) :
    firstBy key (items.map f) = (firstBy (key ∘ f) items).map f := by
  induction items with
  | nil =>
      rfl
  | cons a rest ih =>
      rw [List.map_cons, firstBy, firstBy, List.map_cons, ih, List.filter_map]
      rfl

theorem key_mem_firstBy (key : A -> K) (items : List A) (k : K) :
    k ∈ (firstBy key items).map key <-> k ∈ items.map key := by
  induction items with
  | nil =>
      rfl
  | cons a rest ih =>
      rw [firstBy, List.map_cons, List.map_cons, List.mem_cons, List.mem_cons]
      constructor
      · rintro (heq | hmem)
        · exact Or.inl heq
        · rcases List.mem_map.mp hmem with ⟨b, hb, rfl⟩
          exact Or.inr (ih.mp (List.mem_map_of_mem (List.mem_filter.mp hb).1))
      · rintro (heq | hmem)
        · exact Or.inl heq
        · by_cases hk : k = key a
          · exact Or.inl hk
          · rcases List.mem_map.mp (ih.mpr hmem) with ⟨b, hb, rfl⟩
            right
            exact List.mem_map_of_mem (List.mem_filter.mpr ⟨hb, by simpa using hk⟩)

theorem firstBy_append (key : A -> K) (xs ys : List A) :
    firstBy key (xs ++ ys) =
      firstBy key xs ++ (firstBy key ys).filter fun y => decide (key y ∉ xs.map key) := by
  induction xs with
  | nil =>
      simp [firstBy]
  | cons x xs ih =>
      rw [List.cons_append, firstBy, firstBy, ih, List.filter_append, List.filter_filter,
        List.cons_append]
      congr 2
      apply List.filter_congr
      intro y _
      by_cases hy : key y = key x
      · simp [hy]
      · simp [hy]

theorem firstBy_concat (key : A -> K) (xs : List A) (y : A) :
    firstBy key (xs ++ [y]) = firstBy key xs ++ if key y ∈ xs.map key then [] else [y] := by
  rw [firstBy_append]
  congr 1
  by_cases hy : key y ∈ xs.map key
  · rw [if_pos hy]
    simpa [firstBy] using hy
  · rw [if_neg hy]
    simpa [firstBy] using hy

end FirstBy

end

/-!
# Numbering

Items get labels in the order in which they are first met.  The label of an
item is made from the number of items that have one already, so that an item
keeps its label and no two items share one.
-/

variable {A B : Type} [DecidableEq A]

/-- An item gets the next label unless it has one. -/
def number (label : Nat -> B) (entries : List (A × B)) (a : A) : List (A × B) :=
  if (entries.lookup a).isSome then entries else entries ++ [(a, label entries.length)]

/-- Items with their labels, in the order of the labels. -/
structure Numbered (label : Nat -> B) (entries : List (A × B)) : Prop where
  labels : entries.map Prod.snd = (List.range entries.length).map label
  nodup : (entries.map Prod.fst).Nodup

omit [DecidableEq A] in
theorem numbered_nil (label : Nat -> B) : Numbered label ([] : List (A × B)) where
  labels := rfl
  nodup := List.nodup_nil

namespace Numbered

variable {label : Nat -> B} {entries : List (A × B)}

variable {b : B}

theorem mem_of_lookup (h : Numbered label entries) {a : A} (hlookup : entries.lookup a = some b) :
    (a, b) ∈ entries :=
  @Table.mem_rows_of_lookup A B a b _ ⟨entries, h.nodup⟩ hlookup

theorem lookup_of_mem (h : Numbered label entries) {a : A} (hmem : (a, b) ∈ entries) :
    entries.lookup a = some b :=
  Table.lookup_rows_of_mem h.nodup hmem

theorem number (h : Numbered label entries) (a : A) : Numbered label (number label entries a) := by
  unfold Foundation.number
  cases hlookup : entries.lookup a with
  | some b =>
      exact h
  | none =>
      have hfresh : a ∉ entries.map Prod.fst :=
        @Table.not_mem_keys_of_lookup_none A B a _ ⟨entries, h.nodup⟩ hlookup
      constructor
      · simp [List.range_succ, h.labels]
      · simp only [Option.isSome_none, Bool.false_eq_true, if_false, List.map_append]
        rw [List.nodup_append]
        refine ⟨h.nodup, List.nodup_singleton a, ?_⟩
        rintro k hk k' hk' rfl
        rw [List.mem_singleton.mp hk'] at hk
        exact hfresh hk

omit [DecidableEq A] in
theorem exists_place (h : Numbered label entries) {a : A} (hmem : (a, b) ∈ entries) :
    exists n, b = label n ∧ n < entries.length ∧ entries[n]? = some (a, b) := by
  rcases List.mem_iff_getElem?.mp hmem with ⟨n, hn⟩
  have hlt : n < entries.length := (List.getElem?_eq_some_iff.mp hn).1
  have hlabel := congrArg (fun labels => labels[n]?) h.labels
  simp only [List.getElem?_map, hn, List.getElem?_range hlt, Option.map_some] at hlabel
  exact ⟨n, Option.some.inj hlabel, hlt, hn⟩

omit [DecidableEq A] in
theorem eq_of_label_eq (h : Numbered label entries) (hlabel : Function.Injective label) {a a' : A}
    (hmem : (a, b) ∈ entries) (hmem' : (a', b) ∈ entries) : a = a' := by
  rcases h.exists_place hmem with ⟨n, hn, _, hget⟩
  rcases h.exists_place hmem' with ⟨n', hn', _, hget'⟩
  rw [hlabel (hn.symm.trans hn'), hget'] at hget
  cases hget
  rfl

theorem lookup_injective (h : Numbered label entries) (hlabel : Function.Injective label)
    {a a' : A} (ha : entries.lookup a = some b) (ha' : entries.lookup a' = some b) :
    a = a' :=
  h.eq_of_label_eq hlabel (h.mem_of_lookup ha) (h.mem_of_lookup ha')

variable [DecidableEq B]

theorem lookup_swap (h : Numbered label entries) (hlabel : Function.Injective label) {a : A} :
    (entries.map Prod.swap).lookup b = some a <-> entries.lookup a = some b := by
  have hnodup : ((entries.map Prod.swap).map Prod.fst).Nodup := by
    rw [List.map_map]
    show (entries.map Prod.snd).Nodup
    rw [h.labels]
    exact List.nodup_range.map hlabel
  constructor
  · intro hlookup
    have hmem := @Table.mem_rows_of_lookup B A b a _ ⟨_, hnodup⟩ hlookup
    rcases List.mem_map.mp hmem with ⟨⟨a', b'⟩, hrow, heq⟩
    cases heq
    exact h.lookup_of_mem hrow
  · intro hlookup
    apply Table.lookup_rows_of_mem hnodup
    exact List.mem_map.mpr ⟨(a, b), h.mem_of_lookup hlookup, rfl⟩

end Numbered

variable {label : Nat -> B} {entries : List (A × B)}

theorem lookup_number_of_some {a a' : A} (h : entries.lookup a = some b) :
    (number label entries a').lookup a = some b := by
  unfold number
  by_cases hsome : (entries.lookup a').isSome
  · rw [if_pos hsome]
    exact h
  · rw [if_neg hsome, List.lookup_append, h]
    rfl

theorem isSome_lookup_number (label : Nat -> B) (entries : List (A × B)) (a : A) :
    ((number label entries a).lookup a).isSome = true := by
  unfold number
  by_cases hsome : (entries.lookup a).isSome
  · rw [if_pos hsome]
    exact hsome
  · rw [if_neg hsome, List.lookup_append]
    simp

end Foundation
end KnowledgeBrain
