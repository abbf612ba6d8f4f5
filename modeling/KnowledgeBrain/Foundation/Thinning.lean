import Mathlib.Data.List.Basic
import Mathlib.Data.List.Infix

/-!
# Greedy selection

Items are offered one after the other, and each is taken if it fits what has
been chosen before its turn.
-/

namespace KnowledgeBrain
namespace Foundation

section

variable {A : Type} (fits : List A -> A -> Prop) [forall chosen a, Decidable (fits chosen a)]

def offer (chosen : List A) (a : A) : List A :=
  if fits chosen a then chosen ++ [a] else chosen

/-- What is chosen after all items have been offered. -/
def fill (chosen offered : List A) : List A :=
  offered.foldl (offer fits) chosen

variable {fits}

@[simp]
theorem fill_nil (chosen : List A) : fill fits chosen [] = chosen := rfl

theorem fill_cons (chosen : List A) (a : A) (offered : List A) :
    fill fits chosen (a :: offered) = fill fits (offer fits chosen a) offered := rfl

theorem fill_append (chosen before after : List A) :
    fill fits chosen (before ++ after) = fill fits (fill fits chosen before) after :=
  List.foldl_append

variable {chosen : List A}

theorem offer_of_fits {a : A} (h : fits chosen a) :
    offer fits chosen a = chosen ++ [a] :=
  if_pos h

theorem offer_of_not_fits {a : A} (h : ¬ fits chosen a) :
    offer fits chosen a = chosen :=
  if_neg h

variable (fits) in
theorem fill_eq_append (chosen offered : List A) :
    exists added, added.Sublist offered ∧ fill fits chosen offered = chosen ++ added := by
  induction offered generalizing chosen with
  | nil =>
      exact ⟨[], List.Sublist.refl _, (List.append_nil chosen).symm⟩
  | cons a offered ih =>
      rw [fill_cons]
      by_cases h : fits chosen a
      · rw [offer_of_fits h]
        rcases ih (chosen ++ [a]) with ⟨added, hsub, heq⟩
        refine ⟨a :: added, hsub.cons_cons a, ?_⟩
        rw [heq, List.append_assoc, List.singleton_append]
      · rw [offer_of_not_fits h]
        rcases ih chosen with ⟨added, hsub, heq⟩
        exact ⟨added, hsub.cons a, heq⟩

theorem mem_fill {chosen offered : List A} {a : A} (h : a ∈ fill fits chosen offered) :
    a ∈ chosen ∨ a ∈ offered := by
  rcases fill_eq_append fits chosen offered with ⟨added, hsub, heq⟩
  rw [heq] at h
  rcases List.mem_append.mp h with hold | hnew
  · exact Or.inl hold
  · exact Or.inr (hsub.subset hnew)

theorem mem_fill_of_mem (offered : List A) {a : A} (h : a ∈ chosen) :
    a ∈ fill fits chosen offered := by
  rcases fill_eq_append fits chosen offered with ⟨added, _, heq⟩
  rw [heq]
  exact List.mem_append_left added h

theorem nodup_fill {chosen offered : List A} (hchosen : chosen.Nodup) (hoffered : offered.Nodup)
    (hnew : forall a, a ∈ offered -> a ∉ chosen) : (fill fits chosen offered).Nodup := by
  rcases fill_eq_append fits chosen offered with ⟨added, hsub, heq⟩
  rw [heq, List.nodup_append]
  refine ⟨hchosen, hoffered.sublist hsub, ?_⟩
  rintro a ha b hb rfl
  exact hnew a (hsub.subset hb) ha

theorem fill_invariant {P : List A -> Prop}
    (hstep : forall chosen a, P chosen -> fits chosen a -> P (chosen ++ [a])) (offered : List A)
    (hstart : P chosen) : P (fill fits chosen offered) := by
  induction offered generalizing chosen with
  | nil =>
      exact hstart
  | cons a offered ih =>
      rw [fill_cons]
      apply ih
      by_cases h : fits chosen a
      · rw [offer_of_fits h]
        exact hstep chosen a hstart h
      · rw [offer_of_not_fits h]
        exact hstart

theorem mem_fill_iff {chosen before after : List A} {a : A}
    (hnew : a ∉ chosen) (hbefore : a ∉ before) (hafter : a ∉ after) :
    a ∈ fill fits chosen (before ++ a :: after) <-> fits (fill fits chosen before) a := by
  rw [fill_append, fill_cons]
  constructor
  · intro hmem
    by_contra h
    rw [offer_of_not_fits h] at hmem
    rcases mem_fill hmem with hearly | hlate
    · rcases mem_fill hearly with hold | hold
      · exact hnew hold
      · exact hbefore hold
    · exact hafter hlate
  · intro h
    rw [offer_of_fits h]
    exact mem_fill_of_mem after (List.mem_append_right _ List.mem_cons_self)

end

/-!
# Lists without some entries

A list is thinned when some of the entries of one kind are left out.  A scan that
takes such an entry wherever it can finds out whether one list is a thinned other.
-/

section Thinning

variable {A : Type}

/-- The second list is the first without some of the entries `a`. -/
inductive Thinned (a : A) : List A -> List A -> Prop where
  | nil : Thinned a [] []
  | keep (b : A) {xs ys : List A} : Thinned a xs ys -> Thinned a (b :: xs) (b :: ys)
  | drop {xs ys : List A} : Thinned a xs ys -> Thinned a (a :: xs) ys

namespace Thinned

variable {a : A} {xs ys xs' ys' : List A}

theorem refl (a : A) (xs : List A) : Thinned a xs xs := by
  induction xs with
  | nil =>
      exact .nil
  | cons b xs ih =>
      exact .keep b ih

theorem drop_head (h : Thinned a xs (a :: ys)) : Thinned a xs ys := by
  induction xs with
  | nil =>
      cases h
  | cons b xs ih =>
      cases h with
      | keep b h =>
          exact .drop h
      | drop h =>
          exact .drop (ih h)

section Others

variable [DecidableEq A]

theorem others_eq (h : Thinned a xs ys) : xs.filter (· ≠ a) = ys.filter (· ≠ a) := by
  induction h with
  | nil =>
      rfl
  | keep b h ih =>
      rw [List.filter_cons, List.filter_cons, ih]
  | drop h ih =>
      rw [List.filter_cons, ih]
      simp

end Others

end Thinned

/-- What is left of the second list when the first has been gone through: an entry is
taken where it is the next one, and `a` is passed over elsewhere. -/
def passOver [DecidableEq A] (a : A) : List A -> List A -> Option (List A)
  | [], rest => some rest
  | b :: xs, [] => if b = a then passOver a xs [] else none
  | b :: xs, c :: rest =>
      if b = c then passOver a xs rest
      else if b = a then passOver a xs (c :: rest)
      else none

section Decision

variable [DecidableEq A] {a : A} {xs ys : List A}

theorem passOver_sound {rest : List A} (h : passOver a xs ys = some rest) :
    exists taken, ys = taken ++ rest ∧ Thinned a xs taken := by
  induction xs generalizing ys with
  | nil =>
      cases h
      exact ⟨[], rfl, .nil⟩
  | cons b xs ih =>
      cases ys with
      | nil =>
          unfold passOver at h
          split at h
          · rename_i hb
            rcases ih h with ⟨taken, hys, hthin⟩
            subst hb
            exact ⟨taken, hys, .drop hthin⟩
          · cases h
      | cons c ys =>
          unfold passOver at h
          split at h
          · rename_i hb
            rcases ih h with ⟨taken, rfl, hthin⟩
            subst hb
            exact ⟨b :: taken, rfl, .keep b hthin⟩
          · split at h
            · rename_i hb
              rcases ih h with ⟨taken, hys, hthin⟩
              subst hb
              exact ⟨taken, hys, .drop hthin⟩
            · cases h

theorem passOver_complete (h : Thinned a xs ys) : passOver a xs ys = some [] := by
  induction xs generalizing ys with
  | nil =>
      cases h
      rfl
  | cons b xs ih =>
      cases ys with
      | nil =>
          cases h with
          | drop h =>
              rw [passOver, if_pos rfl]
              exact ih h
      | cons c ys =>
          unfold passOver
          by_cases hbc : b = c
          · rw [if_pos hbc]
            apply ih
            cases h with
            | keep b h =>
                exact h
            | drop h =>
                -- the entry could have been left out later as well
                rw [← hbc] at h
                exact h.drop_head
          · rw [if_neg hbc]
            cases h with
            | keep b h =>
                exact absurd rfl hbc
            | drop h =>
                rw [if_pos rfl]
                exact ih h

theorem passOver_eq_nil : passOver a xs ys = some [] <-> Thinned a xs ys := by
  constructor
  · intro h
    rcases passOver_sound h with ⟨taken, hys, hthin⟩
    rw [List.append_nil] at hys
    rw [hys]
    exact hthin
  · exact passOver_complete

end Decision

end Thinning

end Foundation
end KnowledgeBrain
