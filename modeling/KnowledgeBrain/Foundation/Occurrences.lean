import Mathlib.Data.List.Flatten

/-!
# Words in a text

Some words stand in a text one behind the other, and none of them in another.
What is done to a text away from the words leaves them there, and texts that
are joined hold the words of the first before those of the second.
-/

namespace KnowledgeBrain
namespace Foundation

variable {A : Type}

/-- The words stand in the text in this order, apart from each other. -/
def InOrder : List (List A) -> List A -> Prop
  | [], _ => True
  | word :: words, t => exists before rest, t = before ++ (word ++ rest) ∧ InOrder words rest

/-- The words stand in the texts in this order, and each of them in one text. -/
def InParts : List (List A) -> List (List A) -> Prop
  | words, [] => words = []
  | words, t :: ts => exists first later, words = first ++ later ∧ InOrder first t ∧
      InParts later ts

/-!
# One text
-/

section One

variable {words more : List (List A)} {s t : List A}

theorem InOrder.behind (h : InOrder words t) (s : List A) : InOrder words (s ++ t) := by
  cases words with
  | nil =>
      trivial
  | cons word words =>
      rcases h with ⟨before, rest, rfl, hrest⟩
      exact ⟨s ++ before, rest, by rw [List.append_assoc], hrest⟩

theorem InOrder.append (h : InOrder words s) (hmore : InOrder more t) :
    InOrder (words ++ more) (s ++ t) := by
  induction words generalizing s with
  | nil =>
      exact hmore.behind s
  | cons word words ih =>
      rcases h with ⟨before, rest, rfl, hrest⟩
      exact ⟨before, rest ++ t, by simp only [List.append_assoc], ih hrest⟩

theorem InOrder.before (h : InOrder words s) (t : List A) : InOrder words (s ++ t) := by
  have happend := @InOrder.append _ _ [] _ t h trivial
  rw [List.append_nil] at happend
  exact happend

theorem inOrder_self (word : List A) : InOrder [word] word :=
  ⟨[], [], (List.append_nil word).symm, trivial⟩

/-- A text without characters has no words. -/
theorem InOrder.of_nil (h : InOrder words ([] : List A))
    (hwords : forall word, word ∈ words -> word ≠ []) : words = [] := by
  cases words with
  | nil =>
      rfl
  | cons word words =>
      rcases h with ⟨before, rest, heq, _⟩
      have hword := (List.append_eq_nil_iff.mp (List.append_eq_nil_iff.mp heq.symm).2).1
      exact absurd hword (hwords word List.mem_cons_self)

theorem InOrder.flatMap {f : A -> List A} (h : InOrder words t)
    (hwords : forall word, word ∈ words -> word.flatMap f = word) :
    InOrder words (t.flatMap f) := by
  induction words generalizing t with
  | nil =>
      trivial
  | cons word words ih =>
      rcases h with ⟨before, rest, rfl, hrest⟩
      refine ⟨before.flatMap f, rest.flatMap f, ?_, ?_⟩
      · rw [List.flatMap_append, List.flatMap_append, hwords word List.mem_cons_self]
      · exact ih hrest fun word hmem => hwords word (List.mem_cons_of_mem _ hmem)

theorem dropWhile_append_of_neg {p : A -> Bool} {a : A} (ha : p a = false) (s t : List A) :
    (s ++ a :: t).dropWhile p = s.dropWhile p ++ a :: t := by
  induction s with
  | nil =>
      exact List.dropWhile_cons_of_neg (by simp [ha])
  | cons b s ih =>
      rw [List.cons_append, List.dropWhile_cons, List.dropWhile_cons, ih]
      split
      · rfl
      · rfl

/-- Words that do not start with such a character stay when such characters are dropped. -/
theorem InOrder.dropWhile {p : A -> Bool} (h : InOrder words t) (hwords : forall word,
    word ∈ words -> exists a rest, word = a :: rest ∧ p a = false) :
    InOrder words (t.dropWhile p) := by
  cases words with
  | nil =>
      trivial
  | cons word words =>
      rcases h with ⟨before, rest, rfl, hrest⟩
      rcases hwords word List.mem_cons_self with ⟨a, tail, rfl, ha⟩
      refine ⟨before.dropWhile p, rest, ?_, hrest⟩
      rw [List.cons_append]
      exact dropWhile_append_of_neg ha before (tail ++ rest)

theorem InOrder.dropWhileEnd {p : A -> Bool} (h : InOrder words t) (hwords : forall word,
    word ∈ words -> exists first a, word = first ++ [a] ∧ p a = false) :
    InOrder words (t.reverse.dropWhile p).reverse := by
  induction words generalizing t with
  | nil =>
      trivial
  | cons word words ih =>
      rcases h with ⟨before, rest, rfl, hrest⟩
      rcases hwords word List.mem_cons_self with ⟨first, a, rfl, ha⟩
      have hreverse : (before ++ (first ++ [a] ++ rest)).reverse =
          rest.reverse ++ a :: (first.reverse ++ before.reverse) := by
        rw [List.append_assoc, List.singleton_append, ← List.append_assoc, List.reverse_append,
          List.reverse_append, List.reverse_cons, List.append_assoc, List.singleton_append]
      refine ⟨before, (rest.reverse.dropWhile p).reverse, ?_, ?_⟩
      · rw [hreverse, dropWhile_append_of_neg ha]
        simp only [List.reverse_append, List.reverse_cons, List.reverse_reverse, List.append_assoc]
      · exact ih hrest fun word hmem => hwords word (List.mem_cons_of_mem _ hmem)

/-- A character that is in no word parts the words. -/
theorem InOrder.parted {c : A} (h : InOrder words (s ++ c :: t))
    (hwords : forall word, word ∈ words -> c ∉ word) :
    exists first later, words = first ++ later ∧ InOrder first s ∧ InOrder later t := by
  induction words generalizing s with
  | nil =>
      exact ⟨[], [], rfl, trivial, trivial⟩
  | cons word words ih =>
      have hword := hwords word List.mem_cons_self
      have hothers : forall other, other ∈ words -> c ∉ other :=
        fun other hmem => hwords other (List.mem_cons_of_mem _ hmem)
      rcases h with ⟨before, rest, heq, hrest⟩
      have hwithin : forall gap, s = before ++ (word ++ gap) -> rest = gap ++ c :: t ->
          exists first later, word :: words = first ++ later ∧ InOrder first s ∧
            InOrder later t := by
        intro gap hs hgap
        rw [hgap] at hrest
        rcases ih hrest hothers with ⟨first, later, rfl, hfirst, hlater⟩
        exact ⟨word :: first, later, rfl, ⟨before, gap, hs, hfirst⟩, hlater⟩
      rw [← List.append_assoc] at heq
      rcases List.append_eq_append_iff.mp heq with ⟨gap, hgap, hrest'⟩ | ⟨gap, hs, hrest'⟩
      · cases gap with
        | nil =>
            rw [List.append_nil] at hgap
            exact hwithin [] (by rw [List.append_nil, hgap]) hrest'.symm
        | cons d gap =>
            cases hrest'
            rcases List.append_eq_append_iff.mp hgap with ⟨x, rfl, hx⟩ | ⟨x, rfl, hx⟩
            · rw [hx] at hword
              exact absurd (List.mem_append_right x List.mem_cons_self) hword
            · cases x with
              | nil =>
                  rw [← List.nil_append word, ← hx] at hword
                  exact absurd List.mem_cons_self hword
              | cons e x =>
                  cases hx
                  exact ⟨[], word :: words, rfl, trivial, x, rest, List.append_assoc x word rest,
                    hrest⟩
      · rw [List.append_assoc] at hs
        exact hwithin gap hs hrest'

end One

/-!
# Several texts
-/

section Several

variable {words more : List (List A)} {ts us : List (List A)}

theorem inParts_single {t : List A} (h : InOrder words t) : InParts words [t] :=
  ⟨words, [], (List.append_nil words).symm, h, rfl⟩

theorem InParts.append (h : InParts words ts) (hmore : InParts more us) :
    InParts (words ++ more) (ts ++ us) := by
  induction ts generalizing words with
  | nil =>
      cases h
      exact hmore
  | cons t ts ih =>
      rcases h with ⟨first, later, rfl, hfirst, hlater⟩
      exact ⟨first, later ++ more, List.append_assoc .., hfirst, ih hlater⟩

theorem InParts.split (h : InParts words (ts ++ us)) :
    exists first later, words = first ++ later ∧ InParts first ts ∧ InParts later us := by
  induction ts generalizing words with
  | nil =>
      exact ⟨[], words, rfl, rfl, h⟩
  | cons t ts ih =>
      rcases h with ⟨first, later, rfl, hfirst, hlater⟩
      rcases ih hlater with ⟨middle, last, rfl, hmiddle, hlast⟩
      exact ⟨first ++ middle, last, (List.append_assoc ..).symm,
        ⟨first, middle, rfl, hfirst, hmiddle⟩, hlast⟩

theorem inParts_replicate_nil (n : Nat) : InParts [] (List.replicate n ([] : List A)) := by
  induction n with
  | zero =>
      rfl
  | succ n ih =>
      exact ⟨[], [], rfl, trivial, ih⟩

theorem InParts.flatten (h : InParts words ts) : InOrder words ts.flatten := by
  induction ts generalizing words with
  | nil =>
      cases h
      trivial
  | cons t ts ih =>
      rcases h with ⟨first, later, rfl, hfirst, hlater⟩
      exact hfirst.append (ih hlater)

theorem InParts.intercalate (h : InParts words ts) (sep : List A) :
    InOrder words (sep.intercalate ts) := by
  induction ts generalizing words with
  | nil =>
      cases h
      trivial
  | cons t ts ih =>
      rcases h with ⟨first, later, rfl, hfirst, hlater⟩
      cases ts with
      | nil =>
          cases hlater
          rw [List.intercalate_singleton, List.append_nil]
          exact hfirst
      | cons u ts =>
          rw [List.intercalate_cons_cons, List.append_assoc]
          exact hfirst.append ((ih hlater).behind sep)

/-- Each group of texts is replaced by one that holds the same words. -/
theorem InParts.flatMap {B : Type} {P : List A -> Prop} {f g : B -> List (List A)}
    {items : List B} (h : InParts words (items.flatMap g))
    (hwords : forall word, word ∈ words -> P word)
    (hparts : forall item, item ∈ items -> forall words, (forall word, word ∈ words -> P word) ->
      InParts words (g item) -> InParts words (f item)) :
    InParts words (items.flatMap f) := by
  induction items generalizing words with
  | nil =>
      exact h
  | cons item items ih =>
      rw [List.flatMap_cons] at h ⊢
      rcases h.split with ⟨first, later, rfl, hfirst, hlater⟩
      apply InParts.append
      · exact hparts item List.mem_cons_self first
          (fun word hmem => hwords word (List.mem_append_left later hmem)) hfirst
      · exact ih hlater (fun word hmem => hwords word (List.mem_append_right first hmem))
          fun item hmem => hparts item (List.mem_cons_of_mem _ hmem)

theorem InParts.map {f : List A -> List A} (h : InParts words ts)
    (hf : forall t, exists before, f t = before ++ t) : InParts words (ts.map f) := by
  induction ts generalizing words with
  | nil =>
      exact h
  | cons t ts ih =>
      rcases h with ⟨first, later, rfl, hfirst, hlater⟩
      rcases hf t with ⟨before, heq⟩
      refine ⟨first, later, rfl, ?_, ih hlater⟩
      rw [heq]
      exact hfirst.behind before

end Several

end Foundation
end KnowledgeBrain
