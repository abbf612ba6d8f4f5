import KnowledgeBrain.Foundation.Folds
import Mathlib.Data.List.Forall2
import Mathlib.Data.List.Nodup
import Mathlib.Data.List.Perm.Basic
import Mathlib.Data.List.Count

/-!
# Forests

An ordered forest is empty, or a first root with the forest below it and the
forest of the roots after it.  A walk enters every node before the nodes below
it, with a state that is passed on, and leaves it after them with a result.
-/

namespace KnowledgeBrain
namespace Foundation

inductive Forest (A : Type) where
  | nil
  | cons (value : A) (children rest : Forest A)
deriving DecidableEq

namespace Forest

variable {A B C State Error : Type}

/-- The values, every node before the nodes below it. -/
def values : Forest A -> List A
  | .nil => []
  | .cons a children rest => a :: (children.values ++ rest.values)

def map (f : A -> B) : Forest A -> Forest B
  | .nil => .nil
  | .cons a children rest => .cons (f a) (children.map f) (rest.map f)

def isEmpty : Forest A -> Bool
  | .nil => true
  | .cons _ _ _ => false

theorem values_map (f : A -> B) (forest : Forest A) :
    (forest.map f).values = forest.values.map f := by
  induction forest with
  | nil =>
      rfl
  | cons a children rest ihChildren ihRest =>
      simp only [map, values, ihChildren, ihRest, List.map_cons, List.map_append]

theorem map_map (f : A -> B) (g : B -> C) (forest : Forest A) :
    (forest.map f).map g = forest.map fun a => g (f a) := by
  induction forest with
  | nil =>
      rfl
  | cons a children rest ihChildren ihRest =>
      simp only [map, ihChildren, ihRest]

/-!
# Walks
-/

variable (enter : State -> A -> Except Error State) (leave : A -> Except Error B)

def walk : Forest A -> State -> Except Error (Forest B × State)
  | .nil, s => .ok (.nil, s)
  | .cons a children rest, s => do
      let s <- enter s a
      let (children', s) <- walk children s
      let b <- leave a
      let (rest', s) <- walk rest s
      return (.cons b children' rest', s)

variable {enter leave}

variable {result : Forest B} {s s' : State}

theorem walk_cons_eq_ok {a : A} {children rest : Forest A}
    (hwalk : walk enter leave (.cons a children rest) s = .ok (result, s')) :
    exists s1 s2 children' b rest', enter s a = .ok s1 ∧
      walk enter leave children s1 = .ok (children', s2) ∧ leave a = .ok b ∧
      walk enter leave rest s2 = .ok (rest', s') ∧ result = .cons b children' rest' := by
  rw [walk] at hwalk
  rcases bind_eq_ok hwalk with ⟨s1, henter, hwalk⟩
  rcases bind_eq_ok hwalk with ⟨⟨children', s2⟩, hchildren, hwalk⟩
  rcases bind_eq_ok hwalk with ⟨b, hleave, hwalk⟩
  rcases bind_eq_ok hwalk with ⟨⟨rest', s3⟩, hrest, hwalk⟩
  cases hwalk
  exact ⟨s1, s2, children', b, rest', henter, hchildren, hleave, hrest, rfl⟩

variable {forest : Forest A}

theorem foldlM_values_of_walk (hwalk : walk enter leave forest s = .ok (result, s')) :
    forest.values.foldlM enter s = .ok s' := by
  induction forest generalizing s s' result with
  | nil =>
      cases hwalk
      rfl
  | cons a children rest ihChildren ihRest =>
      rcases walk_cons_eq_ok hwalk with
        ⟨s1, s2, children', b, rest', henter, hchildren, _, hrest, _⟩
      rw [values, List.foldlM_cons, henter]
      show (children.values ++ rest.values).foldlM enter s1 = .ok s'
      rw [List.foldlM_append, ihChildren hchildren]
      exact ihRest hrest

theorem forall₂_values_of_walk (hwalk : walk enter leave forest s = .ok (result, s')) :
    List.Forall₂ (fun a b => leave a = .ok b) forest.values result.values := by
  induction forest generalizing s s' result with
  | nil =>
      cases hwalk
      exact .nil
  | cons a children rest ihChildren ihRest =>
      rcases walk_cons_eq_ok hwalk with
        ⟨s1, s2, children', b, rest', _, hchildren, hleave, hrest, rfl⟩
      exact .cons hleave (List.rel_append (ihChildren hchildren) (ihRest hrest))

theorem map_eq_of_walk {f : A -> C} {g : B -> C}
    (hkeep : forall a b, leave a = .ok b -> g b = f a)
    (hwalk : walk enter leave forest s = .ok (result, s')) : result.map g = forest.map f := by
  induction forest generalizing s s' result with
  | nil =>
      cases hwalk
      rfl
  | cons a children rest ihChildren ihRest =>
      rcases walk_cons_eq_ok hwalk with
        ⟨s1, s2, children', b, rest', _, hchildren, hleave, hrest, rfl⟩
      rw [map, map, hkeep a b hleave, ihChildren hchildren, ihRest hrest]

end Forest

end Foundation
end KnowledgeBrain
