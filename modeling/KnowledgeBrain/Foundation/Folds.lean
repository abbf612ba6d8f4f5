import Mathlib.Data.List.Basic
import Mathlib.Algebra.Group.Nat.Defs

/-!
# Loops over a list

A loop that updates a state, and a loop whose body may fail, keep whatever
every pass of their body keeps.
-/

namespace KnowledgeBrain
namespace Foundation

section

variable {State Item Error : Type}

theorem foldl_invariant {P : State -> Prop} {body : State -> Item -> State}
    (hbody : forall s x, P s -> P (body s x)) {items : List Item} {s : State}
    (hstart : P s) : P (items.foldl body s) := by
  induction items generalizing s with
  | nil =>
      exact hstart
  | cons x rest ih =>
      exact ih (hbody s x hstart)

theorem foldl_invariant_mem {P : State -> Prop} {body : State -> Item -> State}
    {items : List Item} (hbody : forall s x, x ∈ items -> P s -> P (body s x)) {s : State}
    (hstart : P s) : P (items.foldl body s) := by
  induction items generalizing s with
  | nil =>
      exact hstart
  | cons x rest ih =>
      apply ih
      · intro s' x' hmem
        exact hbody s' x' (List.mem_cons_of_mem x hmem)
      · exact hbody s x List.mem_cons_self hstart

theorem foldlM_invariant {P : State -> Prop}
    {body : State -> Item -> Except Error State}
    (hbody : forall s x s', P s -> body s x = .ok s' -> P s')
    {items : List Item} {s s' : State} (hstart : P s)
    (hrun : items.foldlM body s = .ok s') : P s' := by
  induction items generalizing s with
  | nil =>
      cases hrun
      exact hstart
  | cons x rest ih =>
      rw [List.foldlM_cons] at hrun
      cases hfirst : body s x with
      | error e =>
          rw [hfirst] at hrun
          cases hrun
      | ok next =>
          rw [hfirst] at hrun
          exact ih (hbody s x next hstart hfirst) hrun

variable {A B : Type} {x : Except Error A} {f : A -> Except Error B}
variable {items : List A} {results : List B} {b : B}

theorem bind_eq_ok (hrun : x >>= f = .ok b) : exists a, x = .ok a ∧ f a = .ok b := by
  cases x with
  | error e =>
      cases hrun
  | ok a =>
      exact ⟨a, rfl, hrun⟩

theorem mapM_eq_ok (hrun : items.mapM f = .ok results) :
    List.Forall₂ (fun a b => f a = .ok b) items results := by
  induction items generalizing results with
  | nil =>
      rw [List.mapM_nil] at hrun
      cases hrun
      exact .nil
  | cons a rest ih =>
      rw [List.mapM_cons] at hrun
      obtain ⟨b, hfirst, hrun⟩ := bind_eq_ok hrun
      obtain ⟨others, hrest, hrun⟩ := bind_eq_ok hrun
      cases hrun
      exact .cons hfirst (ih hrest)

theorem forM_eq_ok {f : A -> Except Error Unit} (hall : forall a, a ∈ items -> f a = .ok ()) :
    items.forM f = .ok () := by
  induction items with
  | nil =>
      rfl
  | cons a rest ih =>
      change (f a >>= fun _ => rest.forM f) = .ok ()
      rw [hall a List.mem_cons_self]
      exact ih fun a' hmem => hall a' (List.mem_cons_of_mem a hmem)

theorem exists_of_forall₂ {R : A -> B -> Prop} (hall : List.Forall₂ R items results)
    (hmem : b ∈ results) : exists a, a ∈ items ∧ R a b := by
  induction hall with
  | nil =>
      cases hmem
  | cons hfirst _ ih =>
      rcases List.mem_cons.mp hmem with rfl | hrest
      · exact ⟨_, List.mem_cons_self, hfirst⟩
      · obtain ⟨a, ha, hstep⟩ := ih hrest
        exact ⟨a, List.mem_cons_of_mem _ ha, hstep⟩

theorem forall₂_trans {C : Type} {R : A -> B -> Prop} {S : B -> C -> Prop}
    {T : A -> C -> Prop} (htrans : forall a b c, R a b -> S b c -> T a c) {as : List A}
    {bs : List B} {cs : List C} (hfirst : List.Forall₂ R as bs) (hsecond : List.Forall₂ S bs cs) :
    List.Forall₂ T as cs := by
  induction hfirst generalizing cs with
  | nil =>
      cases hsecond
      exact .nil
  | cons hab _ ih =>
      cases hsecond with
      | cons hbc hrest =>
          exact .cons (htrans _ _ _ hab hbc) (ih hrest)

theorem mem_of_mapM (hrun : items.mapM f = .ok results) (hmem : b ∈ results) :
    exists a, a ∈ items ∧ f a = .ok b := by
  rcases exists_of_forall₂ (mapM_eq_ok hrun) hmem with ⟨a, ha, hstep⟩
  exact ⟨a, ha, hstep⟩

theorem map_of_mapM {C : Type} {p : B -> C} {q : A -> C}
    (hstep : forall a b, f a = .ok b -> p b = q a) (hrun : items.mapM f = .ok results) :
    results.map p = items.map q := by
  have hall := mapM_eq_ok hrun
  clear hrun
  induction hall with
  | nil =>
      rfl
  | cons hfirst _ ih =>
      rw [List.map_cons, List.map_cons, hstep _ _ hfirst, ih]

theorem mapM_of_ok {g : A -> B} (hstep : forall a, a ∈ items -> f a = .ok (g a)) :
    items.mapM f = .ok (items.map g) := by
  induction items with
  | nil =>
      rfl
  | cons a rest ih =>
      rw [List.mapM_cons, hstep a List.mem_cons_self,
        ih fun a' ha' => hstep a' (List.mem_cons_of_mem _ ha')]
      rfl

theorem exists_mapM_ok {R : A -> B -> Prop}
    (hstep : forall a, a ∈ items -> exists b, f a = .ok b ∧ R a b) :
    exists results, items.mapM f = .ok results ∧ List.Forall₂ R items results := by
  induction items with
  | nil =>
      exact ⟨[], rfl, .nil⟩
  | cons a rest ih =>
      rcases hstep a List.mem_cons_self with ⟨b, hfirst, hR⟩
      rcases ih fun a' hmem => hstep a' (List.mem_cons_of_mem a hmem) with
        ⟨results, hrest, hall⟩
      refine ⟨b :: results, ?_, .cons hR hall⟩
      rw [List.mapM_cons, hfirst, hrest]
      rfl

/-!
# Guards
-/

/-- Stop with an error when a condition is met. -/
def reject (p : Prop) [Decidable p] (e : Error) : Except Error Unit :=
  if p then .error e else .ok ()

@[simp]
theorem reject_eq_ok {p : Prop} [Decidable p] {e : Error} {u : Unit} :
    reject p e = .ok u <-> ¬ p := by
  unfold reject
  by_cases hp : p
  · simp [hp]
  · simp [hp]

theorem ok_bind {a : A} (hx : x = .ok a) : x >>= f = f a := by
  rw [hx]
  rfl

theorem reject_bind {p : Prop} [Decidable p] {e : Error}
    {f : Unit -> Except Error B} (hp : ¬ p) : reject p e >>= f = f () :=
  ok_bind (reject_eq_ok.mpr hp)

theorem reject_bind_eq_ok {p : Prop} [Decidable p] {e : Error}
    {f : Unit -> Except Error B} (hrun : reject p e >>= f = .ok b) :
    ¬ p ∧ f () = .ok b := by
  rcases bind_eq_ok hrun with ⟨u, hguard, hnext⟩
  exact ⟨reject_eq_ok.mp hguard, hnext⟩

theorem countP_le_one {p : A -> Bool} {list : List A}
    (h : list.Pairwise fun a b => ¬ (p a = true ∧ p b = true)) : list.countP p ≤ 1 := by
  induction list with
  | nil =>
      exact Nat.zero_le _
  | cons a rest ih =>
      rcases List.pairwise_cons.mp h with ⟨hfirst, hrest⟩
      by_cases ha : p a = true
      · have hnone : rest.countP p = 0 :=
          List.countP_eq_zero.mpr fun b hb hpb => hfirst b hb ⟨ha, hpb⟩
        have hone : (a :: rest).countP p = 1 := by
          rw [List.countP_cons_of_pos ha, hnone]
        exact Nat.le_of_eq hone
      · rw [List.countP_cons_of_neg ha]
        exact ih hrest

end

/-!
# How a computation ends

A computation that may fail ends with a result or with an error.  The rules say
how it ends from how its parts end.
-/

variable {Error A B State Item : Type}

/-- A result has the one property, an error the other. -/
def Ends (P : A -> Prop) (Q : Error -> Prop) : Except Error A -> Prop
  | .ok a => P a
  | .error e => Q e

namespace Ends

variable {P : A -> Prop} {R : B -> Prop} {Q : Error -> Prop} {x : Except Error A}

theorem ok {a : A} (h : P a) : Ends P Q (.ok a) :=
  h

theorem error {e : Error} (h : Q e) : Ends P Q (.error e) :=
  h

theorem bind {f : A -> Except Error B} (hx : Ends P Q x)
    (hf : forall a, P a -> Ends R Q (f a)) : Ends R Q (x >>= f) := by
  cases x with
  | ok a =>
      exact hf a hx
  | error e =>
      exact hx

theorem mono {P' : A -> Prop} {Q' : Error -> Prop} (hx : Ends P Q x)
    (hP : forall a, P a -> P' a) (hQ : forall e, Q e -> Q' e) : Ends P' Q' x := by
  cases x with
  | ok a =>
      exact hP a hx
  | error e =>
      exact hQ e hx

theorem of_eq_ok {a : A} (hx : Ends P Q x) (heq : x = .ok a) : P a := by
  rw [heq] at hx
  exact hx

theorem mapM {f : Item -> Except Error B} {S : Item -> B -> Prop} {items : List Item}
    (hf : forall x, x ∈ items -> Ends (S x) Q (f x)) :
    Ends (List.Forall₂ S items) Q (items.mapM f) := by
  induction items with
  | nil =>
      exact Ends.ok .nil
  | cons x rest ih =>
      rw [List.mapM_cons]
      apply Ends.bind (hf x List.mem_cons_self)
      intro b hb
      apply Ends.bind (ih fun x' hmem => hf x' (List.mem_cons_of_mem x hmem))
      intro results hresults
      exact Ends.ok (.cons hb hresults)

end Ends

/-!
# Probing prefixes

A search for a prefix that fits.  Counts are probed one after the other: smaller
ones until one fits or a single group does not, then larger ones again, doubling
the step until one fails and halving the gap after that.  Nothing is assumed of
which counts fit.
-/

namespace Probing

variable (probe : Nat -> State -> Except Error (A × State)) (fits : A -> Bool)
variable (propose : State -> Nat -> Nat)

/-- The next larger count. -/
def trialCount (k : Nat) (narrowing : Bool) (count upper : Nat) : Nat :=
  if narrowing then (count + upper) / 2 else min (count + 2 ^ k) (upper - 1)

theorem trialCount_between {k : Nat} {narrowing : Bool} {count upper : Nat}
    (h : count + 1 < upper) :
    count < trialCount k narrowing count upper ∧ trialCount k narrowing count upper < upper := by
  have hpos : 0 < 2 ^ k := Nat.two_pow_pos k
  unfold trialCount
  split
  · omega
  · omega

/-- Larger counts than one that fits. -/
def grow (k : Nat) (narrowing : Bool) (count upper : Nat) (best : A) (s : State) :
    Except Error ((Nat × A) × State) :=
  if h : count + 1 < upper then do
    let trial <- probe (trialCount k narrowing count upper) s
    if fits trial.1 then
      grow (k + 1) narrowing (trialCount k narrowing count upper) upper trial.1 trial.2
    else grow k true count (trialCount k narrowing count upper) best trial.2
  else .ok ((count, best), s)
termination_by upper - count
decreasing_by
  · have := @trialCount_between k narrowing count upper h
    omega
  · have := @trialCount_between k narrowing count upper h
    omega

/-- The next smaller count. -/
def nextCount (s : State) (count : Nat) : Nat :=
  min (count - 1) (max 1 (propose s count))

/-- The count that was found with its result, or the result of a single group
that does not fit. -/
def search (count upper : Nat) (s : State) : Except Error ((Option Nat × A) × State) := do
  let first <- probe count s
  if fits first.1 then do
    let best <- grow probe fits 0 false count upper first.1 first.2
    return ((some best.1.1, best.1.2), best.2)
  else if _h : 1 < count then
    search (nextCount propose first.2 count) count first.2
  else .ok ((none, first.1), first.2)
termination_by count
decreasing_by
  unfold nextCount
  omega

variable {probe fits propose}
variable {Inv : State -> Prop} {Good : Nat -> A -> Prop} {Bad : Error -> Prop} {limit : Nat}

theorem grow_ends
    (hprobe : forall n s, 1 ≤ n -> n ≤ limit -> Inv s ->
      Ends (fun r => Good n r.1 ∧ Inv r.2) Bad (probe n s))
    {k : Nat} {narrowing : Bool} {count upper : Nat} {best : A} {s : State}
    (hcount : 1 ≤ count) (hupper : count < upper) (hlimit : upper ≤ limit + 1)
    (hbest : Good count best) (hfits : fits best = true) (hinv : Inv s) :
    Ends (fun r => (1 ≤ r.1.1 ∧ r.1.1 ≤ limit) ∧ Good r.1.1 r.1.2 ∧ fits r.1.2 = true ∧ Inv r.2) Bad
      (grow probe fits k narrowing count upper best s) := by
  induction k, narrowing, count, upper, best, s using grow.induct with
  | case1 k narrowing count upper best s h ihFits ihFails =>
      have hbetween := @trialCount_between k narrowing count upper h
      rw [grow, dif_pos h]
      apply Ends.bind (hprobe _ s (by omega) (by omega) hinv)
      rintro ⟨trial, s'⟩ ⟨hgood, hinv'⟩
      simp only
      split
      · rename_i htrial
        exact ihFits (trial, s') (by omega) hbetween.2 hlimit hgood htrial hinv'
      · exact ihFails (trial, s') hcount hbetween.1 (by omega) hbest hfits hinv'
  | case2 k narrowing count upper best s h =>
      rw [grow, dif_neg h]
      have hwithin : count ≤ limit := by omega
      exact ⟨⟨hcount, hwithin⟩, hbest, hfits, hinv⟩

/-- A search ends with a count whose result fits, or with a single group whose
result does not, or as a probe ends. -/
theorem search_ends
    (hprobe : forall n s, 1 ≤ n -> n ≤ limit -> Inv s ->
      Ends (fun r => Good n r.1 ∧ Inv r.2) Bad (probe n s))
    {count upper : Nat} {s : State} (hcount : 1 ≤ count) (hupper : count < upper)
    (hlimit : upper ≤ limit + 1) (hinv : Inv s) :
    Ends (fun r => Inv r.2 ∧
        match r.1.1 with
        | some n => (1 ≤ n ∧ n ≤ limit) ∧ Good n r.1.2 ∧ fits r.1.2 = true
        | none => Good 1 r.1.2 ∧ fits r.1.2 = false) Bad
      (search probe fits propose count upper s) := by
  induction count using Nat.strongRecOn generalizing upper s with
  | _ count ih =>
      rw [search]
      apply Ends.bind (hprobe count s hcount (by omega) hinv)
      rintro ⟨first, s'⟩ ⟨hgood, hinv'⟩
      simp only
      split
      · rename_i hfits
        apply Ends.bind (grow_ends hprobe hcount hupper hlimit hgood hfits hinv')
        rintro ⟨⟨n, best⟩, s''⟩ ⟨hn, hbest, hbestFits, hinv''⟩
        exact ⟨hinv'', hn, hbest, hbestFits⟩
      · rename_i hfails
        split
        · rename_i hmore
          have hnext : 1 ≤ nextCount propose s' count ∧ nextCount propose s' count < count := by
            unfold nextCount
            omega
          exact ih _ hnext.2 hnext.1 hnext.2 (by omega) hinv'
        · have hone : count = 1 := by omega
          rw [hone] at hgood
          exact ⟨hinv', hgood, Bool.not_eq_true _ ▸ hfails⟩

end Probing

end Foundation
end KnowledgeBrain
