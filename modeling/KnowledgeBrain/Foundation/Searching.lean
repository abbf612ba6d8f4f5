import Mathlib.Data.List.Infix

/-!
# Searching a pattern

A search cuts a list at the first place where a pattern occurs.  What it finds
depends on the list up to the end of the pattern and on nothing behind it.
-/

namespace KnowledgeBrain
namespace Foundation

section Searching

variable {A : Type} [DecidableEq A]

/-- `find`, for a pattern that is not empty: what lies before and behind its first
occurrence. -/
def cutAt (pattern : List A) : List A -> Option (List A × List A)
  | [] => none
  | a :: rest =>
      if pattern.isPrefixOf (a :: rest) then some ([], (a :: rest).drop pattern.length)
      else (cutAt pattern rest).map fun (before, behind) => (a :: before, behind)

theorem cutAt_of_start {pattern : List A} {a : A} {rest : List A} (h : pattern <+: a :: rest) :
    cutAt pattern (a :: rest) = some ([], (a :: rest).drop pattern.length) := by
  rw [cutAt, if_pos (List.isPrefixOf_iff_prefix.mpr h)]

theorem cutAt_of_no_start {pattern : List A} {a : A} {rest : List A}
    (h : ¬ pattern <+: a :: rest) :
    cutAt pattern (a :: rest) =
      (cutAt pattern rest).map fun (before, behind) => (a :: before, behind) := by
  rw [cutAt, if_neg fun hleads => h (List.isPrefixOf_iff_prefix.mp hleads)]

variable {pattern t before behind : List A}

theorem cutAt_eq_some (h : cutAt pattern t = some (before, behind)) :
    t = before ++ (pattern ++ behind) := by
  induction t generalizing before with
  | nil =>
      cases h
  | cons a rest ih =>
      by_cases hleads : pattern <+: a :: rest
      · rw [cutAt_of_start hleads] at h
        cases h
        exact (List.prefix_iff_eq_append.mp hleads).symm
      · rw [cutAt_of_no_start hleads] at h
        rcases Option.map_eq_some_iff.mp h with ⟨⟨before', behind'⟩, hrest, heq⟩
        cases heq
        rw [ih hrest, List.cons_append]

theorem length_cutAt (h : cutAt pattern t = some (before, behind)) :
    behind.length + pattern.length ≤ t.length := by
  rw [cutAt_eq_some h, List.length_append, List.length_append]
  omega

/-- What lies behind the occurrence has no part in the search. -/
theorem cutAt_append (more : List A) (h : cutAt pattern t = some (before, behind)) :
    cutAt pattern (t ++ more) = some (before, behind ++ more) := by
  induction t generalizing before with
  | nil =>
      cases h
  | cons a rest ih =>
      by_cases hleads : pattern <+: a :: rest
      · have hlonger : pattern <+: a :: (rest ++ more) := by
          rw [← List.cons_append]
          exact hleads.trans (List.prefix_append _ _)
        rw [cutAt_of_start hleads] at h
        cases h
        rw [List.cons_append, cutAt_of_start hlonger, ← List.cons_append,
          List.drop_append_of_le_length hleads.length_le]
      · rw [cutAt_of_no_start hleads] at h
        rcases Option.map_eq_some_iff.mp h with ⟨⟨before', behind'⟩, hrest, heq⟩
        cases heq
        have hnot : ¬ pattern <+: a :: (rest ++ more) := by
          intro hlonger
          apply hleads
          have hle := length_cutAt hrest
          rw [← List.cons_append] at hlonger
          apply List.prefix_of_prefix_length_le hlonger (List.prefix_append _ _)
          rw [List.length_cons]
          omega
        rw [List.cons_append, cutAt_of_no_start hnot, ih hrest]
        rfl

theorem cutAt_eq_none {pattern : List A} (hpattern : pattern ≠ []) {t : List A} :
    cutAt pattern t = none <-> ¬ pattern <:+: t := by
  induction t with
  | nil =>
      rw [List.infix_nil]
      constructor
      · exact fun _ => hpattern
      · exact fun _ => rfl
  | cons a rest ih =>
      rw [List.infix_cons_iff, not_or]
      by_cases hleads : pattern <+: a :: rest
      · rw [cutAt_of_start hleads]
        simp [hleads]
      · rw [cutAt_of_no_start hleads, Option.map_eq_none_iff, ih]
        simp [hleads]

/-- An occurrence that ends in the first part is found there. -/
theorem cutAt_of_append {pattern t more before behind : List A} (hpattern : pattern ≠ [])
    (h : cutAt pattern (t ++ more) = some (before, behind))
    (hle : before.length + pattern.length ≤ t.length) :
    exists inside, cutAt pattern t = some (before, inside) ∧ behind = inside ++ more := by
  cases hcut : cutAt pattern t with
  | none =>
      have hsplit := cutAt_eq_some h
      rw [← List.append_assoc] at hsplit
      have hleads : before ++ pattern <+: t := by
        have hwhole : before ++ pattern <+: t ++ more := hsplit ▸ List.prefix_append _ _
        apply List.prefix_of_prefix_length_le hwhole (List.prefix_append _ _)
        rw [List.length_append]
        exact hle
      have habsent := (cutAt_eq_none hpattern).mp hcut
      exact absurd ((List.suffix_append before pattern).isInfix.trans hleads.isInfix) habsent
  | some found =>
      rcases found with ⟨before', inside⟩
      have hmore := cutAt_append more hcut
      rw [hmore] at h
      cases h
      exact ⟨inside, rfl, rfl⟩

/-- What is found is the first occurrence. -/
theorem cutAt_le {pattern xs ys before behind : List A}
    (h : cutAt pattern (xs ++ (pattern ++ ys)) = some (before, behind)) :
    before.length ≤ xs.length := by
  induction xs generalizing before with
  | nil =>
      rw [List.nil_append] at h
      cases hwhole : pattern ++ ys with
      | nil =>
          rw [hwhole] at h
          cases h
      | cons a rest =>
          have hstart : pattern <+: a :: rest := hwhole ▸ List.prefix_append pattern ys
          rw [hwhole, cutAt_of_start hstart] at h
          cases h
          exact Nat.le_refl 0
  | cons a xs ih =>
      rw [List.cons_append] at h
      by_cases hstart : pattern <+: a :: (xs ++ (pattern ++ ys))
      · rw [cutAt_of_start hstart] at h
        cases h
        exact Nat.zero_le _
      · rw [cutAt_of_no_start hstart] at h
        rcases Option.map_eq_some_iff.mp h with ⟨⟨before', behind'⟩, hrest, heq⟩
        cases heq
        exact Nat.succ_le_succ (ih hrest)

end Searching

/-!
# Replacing a pattern

The occurrences of a pattern are replaced from left to right, but for those that
overlap one before them.  A list is read as its occurrences and the entries
between them.  Any run of such tokens is read alone as it is read in the list,
so a part that cuts no occurrence is replaced as it is replaced in the whole.
-/

section Replacement

variable {A : Type}

/-- An entry that is kept, or an occurrence. -/
inductive Token (A : Type) where
  | kept (a : A)
  | found

/-- What the tokens spell, with a word for every occurrence. -/
def spell (word : List A) : List (Token A) -> List A
  | [] => []
  | .kept a :: tokens => a :: spell word tokens
  | .found :: tokens => word ++ spell word tokens

/-- No occurrence starts at an entry that is kept. -/
def Leftmost (old : List A) : List (Token A) -> Prop
  | [] => True
  | .kept a :: tokens => ¬ old <+: a :: spell old tokens ∧ Leftmost old tokens
  | .found :: tokens => Leftmost old tokens

@[simp]
theorem spell_append (word : List A) (xs ys : List (Token A)) :
    spell word (xs ++ ys) = spell word xs ++ spell word ys := by
  induction xs with
  | nil =>
      rfl
  | cons token xs ih =>
      cases token with
      | kept a =>
          rw [List.cons_append, spell, spell, ih, List.cons_append]
      | found =>
          rw [List.cons_append, spell, spell, ih, List.append_assoc]

variable {tokens : List (Token A)}

theorem spell_eq_nil {word : List A} (hword : word ≠ []) (hnil : spell word tokens = []) :
    tokens = [] := by
  cases tokens with
  | nil =>
      rfl
  | cons token tokens =>
      cases token with
      | kept a =>
          cases hnil
      | found =>
          exact absurd (List.append_eq_nil_iff.mp hnil).1 hword

variable {old : List A}

theorem Leftmost.right {xs ys : List (Token A)} (h : Leftmost old (xs ++ ys)) :
    Leftmost old ys := by
  induction xs with
  | nil =>
      exact h
  | cons token xs ih =>
      cases token with
      | kept a =>
          exact ih h.2
      | found =>
          exact ih h

theorem Leftmost.left {xs ys : List (Token A)} (h : Leftmost old (xs ++ ys)) :
    Leftmost old xs := by
  induction xs with
  | nil =>
      exact trivial
  | cons token xs ih =>
      cases token with
      | kept a =>
          constructor
          · intro hleads
            apply h.1
            show old <+: a :: spell old (xs ++ ys)
            rw [spell_append, ← List.cons_append]
            exact hleads.trans (List.prefix_append _ _)
          · exact ih h.2
      | found =>
          exact ih h

/-- Every list is read in tokens. -/
theorem exists_tokens (hold : old ≠ []) (t : List A) :
    exists tokens, Leftmost old tokens ∧ spell old tokens = t := by
  induction hlength : t.length using Nat.strong_induction_on generalizing t with
  | _ n ih =>
      cases t with
      | nil =>
          exact ⟨[], trivial, rfl⟩
      | cons a rest =>
          by_cases hleads : old <+: a :: rest
          · rcases hleads with ⟨behind, hbehind⟩
            have hpos := List.length_pos_iff.mpr hold
            have hsum := congrArg List.length hbehind
            rw [List.length_append] at hsum
            rcases ih behind.length (by omega) behind rfl with ⟨tokens, hleft, hspell⟩
            exact ⟨.found :: tokens, hleft, by rw [spell, hspell, hbehind]⟩
          · rcases ih rest.length (by rw [← hlength]; exact Nat.lt_succ_self _) rest rfl with
              ⟨tokens, hleft, hspell⟩
            refine ⟨.kept a :: tokens, ⟨?_, hleft⟩, by rw [spell, hspell]⟩
            rwa [hspell]

/-- A position is between two tokens, or inside an occurrence. -/
theorem spell_split {before after : List A} (h : spell old tokens = before ++ after) :
    (exists xs ys, tokens = xs ++ ys ∧ spell old xs = before ∧ spell old ys = after) ∨
      exists xs ys cut rest, tokens = xs ++ .found :: ys ∧ cut ≠ [] ∧ rest ≠ [] ∧
        before = spell old xs ++ cut ∧ old = cut ++ rest := by
  induction tokens generalizing before with
  | nil =>
      rcases List.append_eq_nil_iff.mp h.symm with ⟨rfl, rfl⟩
      exact Or.inl ⟨[], [], rfl, rfl, rfl⟩
  | cons token tokens ih =>
      cases before with
      | nil =>
          exact Or.inl ⟨[], token :: tokens, rfl, rfl, h⟩
      | cons b before =>
          cases token with
          | kept a =>
              rw [spell, List.cons_append, List.cons.injEq] at h
              rcases h with ⟨rfl, h⟩
              rcases ih h with ⟨xs, ys, rfl, rfl, rfl⟩ |
                ⟨xs, ys, cut, rest, rfl, hcut, hrest, rfl, hold⟩
              · exact Or.inl ⟨.kept a :: xs, ys, rfl, rfl, rfl⟩
              · exact Or.inr ⟨.kept a :: xs, ys, cut, rest, rfl, hcut, hrest, rfl, hold⟩
          | found =>
              rw [spell] at h
              rcases List.append_eq_append_iff.mp h with ⟨behind, hbefore, hspell⟩ |
                ⟨rest, hold, _⟩
              · rw [hbefore]
                rcases ih hspell with ⟨xs, ys, rfl, rfl, rfl⟩ |
                  ⟨xs, ys, cut, rest, rfl, hcut, hrest, rfl, hold⟩
                · exact Or.inl ⟨.found :: xs, ys, rfl, rfl, rfl⟩
                · exact Or.inr ⟨.found :: xs, ys, cut, rest, rfl, hcut, hrest,
                    by rw [spell, List.append_assoc], hold⟩
              · by_cases hrest : rest = []
                · subst hrest
                  rw [List.append_nil] at hold
                  subst hold
                  exact Or.inl ⟨[.found], tokens, rfl, List.append_nil _,
                    List.append_cancel_left h⟩
                · exact Or.inr ⟨[], tokens, b :: before, rest, rfl, List.cons_ne_nil _ _, hrest,
                    rfl, hold⟩

variable [DecidableEq A]

/-- Replaces the pattern: `skip` entries still belong to the last occurrence. -/
def replaceFrom (old new : List A) : Nat -> List A -> List A
  | _, [] => []
  | skip + 1, _ :: rest => replaceFrom old new skip rest
  | 0, a :: rest =>
      if old.isPrefixOf (a :: rest) then new ++ replaceFrom old new (old.length - 1) rest
      else a :: replaceFrom old new 0 rest

theorem replaceFrom_skip (old new xs rest : List A) :
    replaceFrom old new xs.length (xs ++ rest) = replaceFrom old new 0 rest := by
  induction xs with
  | nil =>
      rfl
  | cons a xs ih =>
      exact ih

/-- Replacing puts the new word for every occurrence. -/
theorem replaceFrom_spell (hold : old ≠ []) (new : List A) (h : Leftmost old tokens) :
    replaceFrom old new 0 (spell old tokens) = spell new tokens := by
  induction tokens with
  | nil =>
      rfl
  | cons token tokens ih =>
      cases token with
      | kept a =>
          have hnone : ¬ old.isPrefixOf (a :: spell old tokens) = true := by
            rw [List.isPrefixOf_iff_prefix]
            exact h.1
          rw [spell, replaceFrom, if_neg hnone, ih h.2, spell]
      | found =>
          rcases List.exists_cons_of_ne_nil hold with ⟨b, behind, rfl⟩
          have hfits : (b :: behind).isPrefixOf (b :: (behind ++ spell (b :: behind) tokens)) =
              true := by
            rw [List.isPrefixOf_iff_prefix]
            exact List.prefix_append _ _
          rw [spell, List.cons_append, replaceFrom, if_pos hfits]
          rw [List.length_cons, Nat.add_sub_cancel, replaceFrom_skip, ih h, spell]

end Replacement

/-!
# White space
-/

/-- `str.isspace` of one character. -/
def isSpace (c : Char) : Bool :=
  let n := c.toNat
  (9 ≤ n && n ≤ 13) || (28 ≤ n && n ≤ 32) || n == 0x85 || n == 0xA0 || n == 0x1680 ||
    (0x2000 ≤ n && n ≤ 0x200A) || n == 0x2028 || n == 0x2029 || n == 0x202F || n == 0x205F ||
    n == 0x3000

/-- `str.strip`. -/
def strip (text : List Char) : List Char :=
  ((text.dropWhile isSpace).reverse.dropWhile isSpace).reverse

end Foundation
end KnowledgeBrain
