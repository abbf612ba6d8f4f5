import Mathlib.Data.List.Perm.Basic
import Mathlib.Data.List.Pairwise
import Mathlib.Logic.Relation
import Mathlib.Data.List.Nodup
import Mathlib.Logic.Function.Basic
import Mathlib.Algebra.Group.Nat.Defs

/-!
# Components of a list

The items of a list are joined by a relation between any two of them.  The
components are groups of joined items, without a link between two groups.
-/

namespace KnowledgeBrain
namespace Foundation

section

variable {A K : Type}

/-- Joined by links between items of the list. -/
def Joined (link : A -> A -> Prop) (items : List A) : A -> A -> Prop :=
  Relation.EqvGen fun a b => a ∈ items ∧ b ∈ items ∧ link a b

theorem Joined.mono {link : A -> A -> Prop} {items items' : List A}
    (hsub : forall a, a ∈ items -> a ∈ items') {a b : A} (h : Joined link items a b) :
    Joined link items' a b :=
  Relation.EqvGen.mono (fun x y (hxy : x ∈ items ∧ y ∈ items ∧ link x y) =>
    And.intro (hsub x hxy.1) (And.intro (hsub y hxy.2.1) hxy.2.2)) a b h

/-- Groups of joined items. -/
structure Components (link : A -> A -> Prop) (items : List A) (groups : List (List A)) :
    Prop where
  perm : groups.flatten.Perm items
  inhabited : forall group, group ∈ groups -> group ≠ []
  joined : forall group, group ∈ groups -> forall a b, a ∈ group -> b ∈ group ->
    Joined link items a b
  apart : groups.Pairwise fun group group' =>
    forall a b, a ∈ group -> b ∈ group' -> ¬ link a b

namespace Components

variable {link : A -> A -> Prop} {items : List A} {groups : List (List A)}

theorem exists_group (h : Components link items groups) {a : A} (ha : a ∈ items) :
    exists group, group ∈ groups ∧ a ∈ group :=
  List.mem_flatten.mp (h.perm.mem_iff.mpr ha)

theorem mem_of_link (h : Components link items groups) (hsymm : forall a b, link a b -> link b a)
    {group : List A} (hgroup : group ∈ groups) {a b : A} (ha : a ∈ group) (hb : b ∈ items)
    (hlink : link a b) : b ∈ group := by
  rcases h.exists_group hb with ⟨group', hgroup', hb'⟩
  by_cases heq : group = group'
  · rw [heq]
    exact hb'
  · have hsym : Std.Symm fun group group' : List A =>
        forall a b, a ∈ group -> b ∈ group' -> ¬ link a b :=
      ⟨fun x y hxy a b ha hb hab => hxy b a hb ha (hsymm a b hab)⟩
    exact absurd hlink (h.apart.forall hgroup hgroup' heq a b ha hb')

theorem mem_iff (h : Components link items groups) (hsymm : forall a b, link a b -> link b a)
    {group : List A} (hgroup : group ∈ groups) {a b : A} (ha : a ∈ group) :
    b ∈ group <-> Joined link items a b := by
  constructor
  · exact fun hb => h.joined group hgroup a b ha hb
  · intro hjoined
    have hboth : forall x y, Joined link items x y -> (x ∈ group <-> y ∈ group) := by
      intro x y hxy
      induction hxy with
      | rel x y hlink =>
          constructor
          · exact fun hx => h.mem_of_link hsymm hgroup hx hlink.2.1 hlink.2.2
          · exact fun hy => h.mem_of_link hsymm hgroup hy hlink.1 (hsymm x y hlink.2.2)
      | refl x => exact Iff.rfl
      | symm x y _ ih => exact ih.symm
      | trans x y z _ _ ihxy ihyz => exact ihxy.trans ihyz
    exact (hboth a b hjoined).mp ha

end Components

/-!
# Representatives

A function that maps items to a representative of their class, and what
becomes of it when two classes are joined.
-/

/-- Items have one representative exactly when they are related. -/
def Represents (rep : A -> K) (link : A -> A -> Prop) : Prop :=
  forall a b, rep a = rep b <-> Relation.EqvGen link a b

theorem represents_id : Represents (id : A -> A) fun _ _ => False := by
  intro a b
  constructor
  · intro h
    rw [show a = b from h]
    exact .refl b
  · intro h
    induction h with
    | rel _ _ hfalse => exact absurd hfalse id
    | refl _ => rfl
    | symm _ _ _ ih => exact ih.symm
    | trans _ _ _ _ _ ihab ihbc => exact ihab.trans ihbc

/-- The class of the one becomes part of the class of the other. -/
theorem Represents.join [DecidableEq K] {rep : A -> K} {link : A -> A -> Prop}
    (h : Represents rep link) (u v : A) :
    Represents (fun a => if rep a = rep u then rep v else rep a)
      (fun a b => link a b ∨ a = u ∧ b = v) := by
  have hold : forall a b, Relation.EqvGen link a b ->
      Relation.EqvGen (fun a b => link a b ∨ a = u ∧ b = v) a b :=
    Relation.EqvGen.mono fun x y hxy => Or.inl hxy
  have huv : Relation.EqvGen (fun a b => link a b ∨ a = u ∧ b = v) u v :=
    .rel u v (Or.inr ⟨rfl, rfl⟩)
  -- every item is joined to one that has its new representative
  have hclass : forall a, exists b, rep b = (if rep a = rep u then rep v else rep a) ∧
      Relation.EqvGen (fun a b => link a b ∨ a = u ∧ b = v) a b := by
    intro a
    by_cases ha : rep a = rep u
    · rw [if_pos ha]
      exact ⟨v, rfl, (hold a u ((h a u).mp ha)).trans _ _ _ huv⟩
    · rw [if_neg ha]
      exact ⟨a, rfl, .refl a⟩
  intro a b
  constructor
  · intro heq
    rcases hclass a with ⟨a', ha', haa'⟩
    rcases hclass b with ⟨b', hb', hbb'⟩
    have hsame : rep a' = rep b' := by
      rw [ha', hb']
      exact heq
    exact (haa'.trans _ _ _ (hold a' b' ((h a' b').mp hsame))).trans _ _ _ (hbb'.symm _ _)
  · intro hab
    induction hab with
    | rel a b hlink =>
        rcases hlink with hlink | ⟨rfl, rfl⟩
        · have hsame : rep a = rep b := (h a b).mpr (.rel a b hlink)
          simp only [hsame]
        · by_cases hsame : rep b = rep a
          · simp [hsame]
          · simp [hsame]
    | refl _ => rfl
    | symm _ _ _ ih => exact ih.symm
    | trans _ _ _ _ _ ihab ihbc => exact ihab.trans ihbc

end

/-!
# Groups under keys

Items are collected under their keys, in the order in which the keys are met.
-/

section

variable {A K : Type}

/-- `groups.setdefault(key, []).append(item)`. -/
def addTo [DecidableEq K] (groups : List (K × List A)) (key : K) (a : A) :
    List (K × List A) :=
  match groups with
  | [] => [(key, [a])]
  | (key', items) :: rest =>
      if key' = key then (key', items ++ [a]) :: rest else (key', items) :: addTo rest key a

/-- Groups of items under their keys. -/
structure Bucketed (key : A -> K) (items : List A) (groups : List (K × List A)) : Prop where
  perm : (groups.flatMap Prod.snd).Perm items
  nodup : (groups.map Prod.fst).Nodup
  inhabited : forall group, group ∈ groups -> group.2 ≠ []
  keyed : forall group, group ∈ groups -> forall a, a ∈ group.2 -> key a = group.1

theorem keys_addTo [DecidableEq K] (groups : List (K × List A)) (k : K) (a : A) (k' : K) :
    k' ∈ (addTo groups k a).map Prod.fst <-> k' = k ∨ k' ∈ groups.map Prod.fst := by
  induction groups with
  | nil =>
      simp [addTo]
  | cons group rest ih =>
      rcases group with ⟨key, items⟩
      rw [addTo]
      by_cases hkey : key = k
      · subst hkey
        simp
      · rw [if_neg hkey, List.map_cons, List.mem_cons, ih, List.map_cons, List.mem_cons]
        constructor
        · rintro (h | h | h)
          · exact Or.inr (Or.inl h)
          · exact Or.inl h
          · exact Or.inr (Or.inr h)
        · rintro (h | h | h)
          · exact Or.inr (Or.inl h)
          · exact Or.inl h
          · exact Or.inr (Or.inr h)

theorem bucketed_addTo [DecidableEq K] {key : A -> K} {items : List A}
    {groups : List (K × List A)} (h : Bucketed key items groups) (a : A) :
    Bucketed key (items ++ [a]) (addTo groups (key a) a) := by
  have hperm : forall groups : List (K × List A),
      ((addTo groups (key a) a).flatMap Prod.snd).Perm (groups.flatMap Prod.snd ++ [a]) := by
    intro groups
    induction groups with
    | nil =>
        exact List.Perm.refl _
    | cons group rest ih =>
        rcases group with ⟨key', members⟩
        rw [addTo]
        by_cases hkey : key' = key a
        · rw [if_pos hkey, List.flatMap_cons, List.flatMap_cons, List.append_assoc,
            List.append_assoc]
          exact (List.perm_append_comm).append_left members
        · rw [if_neg hkey, List.flatMap_cons, List.flatMap_cons, List.append_assoc]
          exact ih.append_left members
  have hnodup : forall groups : List (K × List A), (groups.map Prod.fst).Nodup ->
      ((addTo groups (key a) a).map Prod.fst).Nodup := by
    intro groups hgroups
    induction groups with
    | nil =>
        exact List.nodup_singleton _
    | cons group rest ih =>
        rcases group with ⟨key', members⟩
        rw [addTo]
        by_cases hkey : key' = key a
        · rw [if_pos hkey]
          exact hgroups
        · rw [if_neg hkey, List.map_cons, List.nodup_cons]
          rw [List.map_cons, List.nodup_cons] at hgroups
          refine ⟨?_, ih hgroups.2⟩
          intro hmem
          rcases (keys_addTo rest (key a) a key').mp hmem with heq | hrest
          · exact hkey heq
          · exact hgroups.1 hrest
  have hmem : forall (groups : List (K × List A)) group, group ∈ addTo groups (key a) a ->
      (forall group', group' ∈ groups -> group'.2 ≠ [] ∧
        forall b, b ∈ group'.2 -> key b = group'.1) ->
        group.2 ≠ [] ∧ forall b, b ∈ group.2 -> key b = group.1 := by
    intro groups
    induction groups with
    | nil =>
        intro group hgroup _
        rw [addTo, List.mem_singleton] at hgroup
        subst hgroup
        refine ⟨List.cons_ne_nil _ _, ?_⟩
        intro b hb
        rw [List.mem_singleton.mp hb]
    | cons first rest ih =>
        intro group hgroup hall
        rcases first with ⟨key', members⟩
        rw [addTo] at hgroup
        by_cases hkey : key' = key a
        · rw [if_pos hkey] at hgroup
          rcases List.mem_cons.mp hgroup with rfl | hrest
          · refine ⟨List.append_ne_nil_of_right_ne_nil _ (List.cons_ne_nil _ _), ?_⟩
            intro b hb
            rcases List.mem_append.mp hb with hb | hb
            · exact (hall _ List.mem_cons_self).2 b hb
            · rw [List.mem_singleton.mp hb]
              exact hkey.symm
          · exact hall group (List.mem_cons_of_mem _ hrest)
        · rw [if_neg hkey] at hgroup
          rcases List.mem_cons.mp hgroup with rfl | hrest
          · exact hall _ List.mem_cons_self
          · exact ih group hrest fun group' hgroup' => hall group' (List.mem_cons_of_mem _ hgroup')
  constructor
  · exact (hperm groups).trans (h.perm.append_right [a])
  · exact hnodup groups h.nodup
  · exact fun group hgroup =>
      (hmem groups group hgroup fun g hg => ⟨h.inhabited g hg, h.keyed g hg⟩).1
  · exact fun group hgroup =>
      (hmem groups group hgroup fun g hg => ⟨h.inhabited g hg, h.keyed g hg⟩).2

theorem Bucketed.mem_iff {key : A -> K} {items : List A} {groups : List (K × List A)}
    (h : Bucketed key items groups) {group : K × List A} (hgroup : group ∈ groups) {a b : A}
    (ha : a ∈ group.2) : b ∈ group.2 <-> b ∈ items ∧ key a = key b := by
  constructor
  · intro hb
    constructor
    · exact h.perm.mem_iff.mp (List.mem_flatMap.mpr ⟨group, hgroup, hb⟩)
    · rw [h.keyed group hgroup a ha, h.keyed group hgroup b hb]
  · rintro ⟨hb, hkey⟩
    rcases List.mem_flatMap.mp (h.perm.mem_iff.mpr hb) with ⟨other, hother, hmem⟩
    have hsame : other.1 = group.1 := by
      rw [← h.keyed other hother b hmem, ← hkey, h.keyed group hgroup a ha]
    rw [← List.inj_on_of_nodup_map h.nodup hother hgroup hsame]
    exact hmem

/-- Groups under keys that tell the components are the components. -/
theorem components_of_bucketed {key : A -> K} {link : A -> A -> Prop} {items : List A}
    {groups : List (K × List A)} (h : Bucketed key items groups)
    (hkey : forall a b, a ∈ items -> b ∈ items -> (key a = key b <-> Joined link items a b)) :
    Components link items (groups.map Prod.snd) where
  perm := by
    rw [← List.flatMap_def]
    exact h.perm
  inhabited := by
    intro group hgroup
    rcases List.mem_map.mp hgroup with ⟨pair, hpair, rfl⟩
    exact h.inhabited pair hpair
  joined := by
    intro group hgroup a b ha hb
    rcases List.mem_map.mp hgroup with ⟨pair, hpair, rfl⟩
    have hmem : forall c, c ∈ pair.2 -> c ∈ items := fun c hc =>
      h.perm.mem_iff.mp (List.mem_flatMap.mpr ⟨pair, hpair, hc⟩)
    apply (hkey a b (hmem a ha) (hmem b hb)).mp
    rw [h.keyed pair hpair a ha, h.keyed pair hpair b hb]
  apart := by
    rw [List.pairwise_map]
    have hdistinct : groups.Pairwise fun x y => x.1 ≠ y.1 := List.pairwise_map.mp h.nodup
    apply hdistinct.imp_of_mem
    intro x y hx hy hne a b ha hb hlink
    have ha' : a ∈ items := h.perm.mem_iff.mp (List.mem_flatMap.mpr ⟨x, hx, ha⟩)
    have hb' : b ∈ items := h.perm.mem_iff.mp (List.mem_flatMap.mpr ⟨y, hy, hb⟩)
    apply hne
    rw [← h.keyed x hx a ha, ← h.keyed y hy b hb]
    exact (hkey a b ha' hb').mpr (.rel a b ⟨ha', hb', hlink⟩)

end

/-!
# Union-find with path halving

Every item has a parent, and following the parents leads to the representative
of its class.  Looking for it shortens the way; joining two classes makes one
representative the parent of the other.
-/

namespace UnionFind

variable {A : Type} [DecidableEq A]

/-- The representative of an item, at most `fuel` steps away. -/
def root : Nat -> (A -> A) -> A -> (A -> A) × A
  | 0, parents, a => (parents, a)
  | fuel + 1, parents, a =>
      if parents a = a then (parents, a)
      else root fuel (Function.update parents a (parents (parents a))) (parents (parents a))

/-- Makes the representative of the one the parent of that of the other. -/
def join (fuel : Nat) (parents : A -> A) (a b : A) : A -> A :=
  let second := root fuel parents b
  let first := root fuel second.1 a
  Function.update first.1 first.2 second.2

/-- Parents that lead to representatives. -/
structure Forest (rep : A -> A) (depth : A -> Nat) (bound : Nat) (parents : A -> A) : Prop where
  rep_parent : forall a, rep (parents a) = rep a
  rep_root : forall a, parents a = a -> rep a = a
  depth_parent : forall a, parents a ≠ a -> depth (parents a) < depth a
  depth_root : forall a, parents a = a -> depth a = 0
  bounded : forall a, depth a ≤ bound

omit [DecidableEq A] in
theorem forest_id : Forest (id : A -> A) (fun _ => 0) 0 id where
  rep_parent := fun _ => rfl
  rep_root := fun _ _ => rfl
  depth_parent := fun _ h => absurd rfl h
  depth_root := fun _ _ => rfl
  bounded := fun _ => Nat.le_refl 0

namespace Forest

variable {rep : A -> A} {depth : A -> Nat} {bound : Nat} {parents : A -> A}

omit [DecidableEq A] in
theorem parent_rep (h : Forest rep depth bound parents) (a : A) : parents (rep a) = rep a := by
  induction hdepth : depth a using Nat.strongRecOn generalizing a with
  | _ n ih =>
      by_cases hroot : parents a = a
      · rw [h.rep_root a hroot]
        exact hroot
      · rw [← h.rep_parent a]
        exact ih _ (hdepth ▸ h.depth_parent a hroot) (parents a) rfl

/-- Shortening a way keeps the classes. -/
theorem halve (h : Forest rep depth bound parents) {a : A} (ha : parents a ≠ a) :
    depth (parents (parents a)) < depth a ∧
      Forest rep depth bound (Function.update parents a (parents (parents a))) := by
  have hshorter : depth (parents (parents a)) < depth a := by
    have hfirst := h.depth_parent a ha
    by_cases hroot : parents (parents a) = parents a
    · rw [hroot]
      exact hfirst
    · exact Nat.lt_trans (h.depth_parent (parents a) hroot) hfirst
  have hne : parents (parents a) ≠ a := by
    intro heq
    rw [heq] at hshorter
    exact absurd hshorter (Nat.lt_irrefl _)
  refine ⟨hshorter, ?_⟩
  constructor
  · intro b
    by_cases hb : b = a
    · subst hb
      rw [Function.update_self, h.rep_parent, h.rep_parent]
    · rw [Function.update_of_ne hb]
      exact h.rep_parent b
  · intro b hroot
    by_cases hb : b = a
    · subst hb
      rw [Function.update_self] at hroot
      exact absurd hroot hne
    · rw [Function.update_of_ne hb] at hroot
      exact h.rep_root b hroot
  · intro b hnot
    by_cases hb : b = a
    · subst hb
      rw [Function.update_self]
      exact hshorter
    · rw [Function.update_of_ne hb] at hnot ⊢
      exact h.depth_parent b hnot
  · intro b hroot
    by_cases hb : b = a
    · subst hb
      rw [Function.update_self] at hroot
      exact absurd hroot hne
    · rw [Function.update_of_ne hb] at hroot
      exact h.depth_root b hroot
  · exact h.bounded

theorem root (h : Forest rep depth bound parents) {fuel : Nat} {a : A} (hfuel : depth a ≤ fuel) :
    (root fuel parents a).2 = rep a ∧ Forest rep depth bound (root fuel parents a).1 := by
  induction fuel generalizing parents a with
  | zero =>
      have hroot : parents a = a := by
        by_contra hnot
        have hless := h.depth_parent a hnot
        omega
      exact ⟨(h.rep_root a hroot).symm, h⟩
  | succ fuel ih =>
      rw [UnionFind.root]
      by_cases hroot : parents a = a
      · rw [if_pos hroot]
        exact ⟨(h.rep_root a hroot).symm, h⟩
      · rw [if_neg hroot]
        rcases h.halve hroot with ⟨hshorter, hhalved⟩
        have hless : depth (parents (parents a)) ≤ fuel := by omega
        have hrest := ih hhalved hless
        rw [h.rep_parent, h.rep_parent] at hrest
        exact hrest

/-- Joining two classes. -/
theorem attach (h : Forest rep depth bound parents) (a b : A) :
    exists depth', Forest (fun c => if rep c = rep a then rep b else rep c) depth' (bound + 1)
      (Function.update parents (rep a) (rep b)) := by
  have hidem : forall c, rep (rep c) = rep c := fun c => h.rep_root _ (h.parent_rep c)
  by_cases hsame : rep a = rep b
  · refine ⟨depth, ?_⟩
    have hparents : Function.update parents (rep a) (rep b) = parents := by
      rw [← hsame]
      conv_lhs => rw [← h.parent_rep a, h.parent_rep a]
      funext c
      by_cases hc : c = rep a
      · rw [hc, Function.update_self, h.parent_rep]
      · rw [Function.update_of_ne hc]
    have hrep : (fun c => if rep c = rep a then rep b else rep c) = rep := by
      funext c
      by_cases hc : rep c = rep a
      · rw [if_pos hc, ← hsame, hc]
      · rw [if_neg hc]
    rw [hparents, hrep]
    exact { h with bounded := fun c => Nat.le_succ_of_le (h.bounded c) }
  · refine ⟨fun c => if rep c = rep a then depth c + 1 else depth c, ?_⟩
    have hb : rep (rep b) ≠ rep a := by
      rw [hidem]
      exact fun heq => hsame heq.symm
    constructor
    · intro c
      by_cases hc : c = rep a
      · subst hc
        rw [Function.update_self, if_neg hb, if_pos (hidem a), hidem]
      · rw [Function.update_of_ne hc, h.rep_parent]
    · intro c hroot
      by_cases hc : c = rep a
      · subst hc
        rw [Function.update_self] at hroot
        exact absurd hroot.symm hsame
      · rw [Function.update_of_ne hc] at hroot
        have hself := h.rep_root c hroot
        rw [if_neg (fun heq => hc (hself.symm.trans heq)), hself]
    · intro c hnot
      by_cases hc : c = rep a
      · subst hc
        rw [Function.update_self, if_neg hb, if_pos (hidem a),
          h.depth_root (rep b) (h.parent_rep b)]
        exact Nat.succ_pos _
      · rw [Function.update_of_ne hc] at hnot ⊢
        have hless := h.depth_parent c hnot
        rw [h.rep_parent]
        by_cases hclass : rep c = rep a
        · rw [if_pos hclass, if_pos hclass]
          omega
        · rw [if_neg hclass, if_neg hclass]
          exact hless
    · intro c hroot
      by_cases hc : c = rep a
      · subst hc
        rw [Function.update_self] at hroot
        exact absurd hroot.symm hsame
      · rw [Function.update_of_ne hc] at hroot
        have hself := h.rep_root c hroot
        rw [if_neg (fun heq => hc (hself.symm.trans heq))]
        exact h.depth_root c hroot
    · intro c
      have hless := h.bounded c
      by_cases hclass : rep c = rep a
      · rw [if_pos hclass]
        omega
      · rw [if_neg hclass]
        omega

theorem join (h : Forest rep depth bound parents) {fuel : Nat} (hfuel : bound ≤ fuel) (a b : A) :
    exists depth', Forest (fun c => if rep c = rep a then rep b else rep c) depth' (bound + 1)
      (join fuel parents a b) := by
  have hsecond := h.root (Nat.le_trans (h.bounded b) hfuel)
  have hfirst := hsecond.2.root (Nat.le_trans (h.bounded a) hfuel)
  unfold UnionFind.join
  simp only
  rw [hfirst.1, hsecond.1]
  exact hfirst.2.attach a b

end Forest

/-- A forest after some joins, with what has been joined. -/
structure Linked (link : A -> A -> Prop) (bound : Nat) (parents : A -> A) : Prop where
  forest : exists rep depth, Forest rep depth bound parents ∧ Represents rep link

omit [DecidableEq A] in
theorem linked_id : Linked (fun _ _ : A => False) 0 id where
  forest := ⟨id, fun _ => 0, forest_id, represents_id⟩

theorem Linked.join {link : A -> A -> Prop} {bound fuel : Nat} {parents : A -> A}
    (h : Linked link bound parents) (hfuel : bound ≤ fuel) (a b : A) :
    Linked (fun x y => link x y ∨ x = a ∧ y = b) (bound + 1) (join fuel parents a b) := by
  rcases h.forest with ⟨rep, depth, hforest, hrep⟩
  rcases hforest.join hfuel a b with ⟨depth', hjoined⟩
  exact ⟨_, depth', hjoined, hrep.join a b⟩

/-- Joins one after the other join what the links join. -/
theorem Linked.foldl {links done : List (A × A)} {fuel : Nat} {parents : A -> A}
    (hfuel : done.length + links.length ≤ fuel)
    (h : Linked (fun a b => (a, b) ∈ done) done.length parents) :
    Linked (fun a b => (a, b) ∈ done ++ links) (done ++ links).length
      (links.foldl (fun parents link => UnionFind.join fuel parents link.1 link.2) parents) := by
  induction links generalizing done parents with
  | nil =>
      rw [List.append_nil]
      exact h
  | cons link links ih =>
      rw [List.length_cons] at hfuel
      have hjoined := h.join (show done.length ≤ fuel by omega) link.1 link.2
      have hsame : (fun x y => (x, y) ∈ done ∨ x = link.1 ∧ y = link.2) =
          fun x y => (x, y) ∈ done ++ [link] := by
        funext x y
        rcases link with ⟨a, b⟩
        simp
      rw [hsame] at hjoined
      have hlength : done.length + 1 = (done ++ [link]).length := by simp
      rw [hlength] at hjoined
      have hrest := @ih (done ++ [link]) _ (by rw [← hlength]; omega) hjoined
      rw [List.append_assoc] at hrest
      exact hrest

theorem linked_links {links : List (A × A)} {fuel : Nat} (hfuel : links.length ≤ fuel) :
    Linked (fun a b => (a, b) ∈ links) links.length
      (links.foldl (fun parents link => UnionFind.join fuel parents link.1 link.2) id) := by
  have hstart : Linked (fun a b => (a, b) ∈ ([] : List (A × A))) ([] : List (A × A)).length id := by
    have hnone : (fun a b => (a, b) ∈ ([] : List (A × A))) = fun _ _ => False := by
      funext a b
      simp
    rw [hnone]
    exact linked_id
  have hlinked := @Linked.foldl A _ links [] fuel id (by simpa using hfuel) hstart
  rw [List.nil_append] at hlinked
  exact hlinked

/-!
# Collecting the classes
-/

section Collecting

variable {Item : Type} (name : Item -> A)

/-- An item is put to those with its representative. -/
def collect (fuel : Nat) (state : (A -> A) × List (A × List Item)) (item : Item) :
    (A -> A) × List (A × List Item) :=
  let found := root fuel state.1 (name item)
  (found.1, addTo state.2 found.2 item)

variable {name}

/-- Collecting finds the representatives of a forest and leaves them. -/
theorem bucketed_collect {rep : A -> A} {depth : A -> Nat} {bound fuel : Nat}
    (hfuel : bound ≤ fuel) {rest done : List Item} {state : (A -> A) × List (A × List Item)}
    (hforest : Forest rep depth bound state.1)
    (h : Bucketed (fun item => rep (name item)) done state.2) :
    Bucketed (fun item => rep (name item)) (done ++ rest)
      (rest.foldl (collect name fuel) state).2 := by
  induction rest generalizing done state with
  | nil =>
      rw [List.append_nil]
      exact h
  | cons item rest ih =>
      have hroot := hforest.root (Nat.le_trans (hforest.bounded (name item)) hfuel)
      have hnext : Bucketed (fun item => rep (name item)) (done ++ [item])
          (collect name fuel state item).2 := by
        unfold collect
        simp only
        rw [hroot.1]
        exact bucketed_addTo h item
      have hrest := ih hroot.2 hnext
      rw [List.append_assoc] at hrest
      exact hrest

theorem bucketed_links {links : List (A × A)} {fuel : Nat} (hfuel : links.length ≤ fuel)
    (items : List Item) :
    exists rep : A -> A, Represents rep (fun a b => (a, b) ∈ links) ∧
      Bucketed (fun item => rep (name item)) items (items.foldl (collect name fuel)
        (links.foldl (fun parents link => UnionFind.join fuel parents link.1 link.2) id,
          [])).2 := by
  rcases (linked_links hfuel).forest with ⟨rep, depth, hforest, hrep⟩
  have hempty : Bucketed (fun item => rep (name item)) [] [] := by
    constructor
    · exact List.Perm.refl []
    · exact List.nodup_nil
    · intro group hgroup
      cases hgroup
    · intro group hgroup
      cases hgroup
  have hgroups := @bucketed_collect A _ Item name rep depth _ fuel hfuel items [] (_, []) hforest
    hempty
  rw [List.nil_append] at hgroups
  exact ⟨rep, hrep, hgroups⟩

end Collecting

end UnionFind

end Foundation
end KnowledgeBrain
