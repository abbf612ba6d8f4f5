import Mathlib.Data.List.Basic
import Mathlib.Data.Nat.Digits.Defs
import Mathlib.Tactic.IntervalCases

/-!
# Fixed-width numerals

A number written with a fixed number of digits, the most significant first.
Numerals of one width are ordered as texts exactly as the numbers are.
-/

namespace KnowledgeBrain
namespace Foundation

def fixedDigits (base : Nat) : Nat -> Nat -> List Char
  | 0, _ => []
  | width + 1, n =>
      (n / base ^ width % base).digitChar :: fixedDigits base width (n % base ^ width)

@[simp]
theorem length_fixedDigits (base width n : Nat) :
    (fixedDigits base width n).length = width := by
  induction width generalizing n with
  | zero =>
      rfl
  | succ width ih =>
      rw [fixedDigits, List.length_cons, ih]

variable {a b : Nat}

theorem digitChar_lt_iff (ha : a < 10) (hb : b < 10) :
    a.digitChar < b.digitChar <-> a < b := by
  interval_cases a <;> interval_cases b <;> decide

theorem digitChar_injective_of_lt (ha : a < 10) (hb : b < 10) (heq : a.digitChar = b.digitChar) :
    a = b := by
  have hab := digitChar_lt_iff ha hb
  have hba := digitChar_lt_iff hb ha
  rw [heq] at hab hba
  have hirrefl : ¬ b.digitChar < b.digitChar := Nat.lt_irrefl _
  have hnlt : ¬ a < b := fun h => hirrefl (hab.mpr h)
  have hngt : ¬ b < a := fun h => hirrefl (hba.mpr h)
  omega

theorem lt_iff_div_mod {a b m : Nat} (hm : 0 < m) :
    a < b <-> a / m < b / m ∨ a / m = b / m ∧ a % m < b % m := by
  have ha := Nat.div_add_mod a m
  have hb := Nat.div_add_mod b m
  have hamod := Nat.mod_lt a hm
  have hbmod := Nat.mod_lt b hm
  constructor
  · intro hlt
    rcases Nat.lt_or_eq_of_le (Nat.div_le_div_right (Nat.le_of_lt hlt)) with
      hdiv | hdiv
    · exact Or.inl hdiv
    · rw [hdiv] at ha
      exact Or.inr ⟨hdiv, by omega⟩
  · rintro (hdiv | ⟨hdiv, hmod⟩)
    · exact Nat.lt_of_div_lt_div hdiv
    · rw [hdiv] at ha
      omega

theorem fixedDigits_lt_iff {width a b : Nat} (ha : a < 10 ^ width)
    (hb : b < 10 ^ width) :
    fixedDigits 10 width a < fixedDigits 10 width b <-> a < b := by
  induction width generalizing a b with
  | zero =>
      have hzero : a = 0 ∧ b = 0 := by omega
      rw [hzero.1, hzero.2]
      simp [fixedDigits]
  | succ width ih =>
      have hpos : 0 < 10 ^ width := Nat.pow_pos (by decide)
      have hda : a / 10 ^ width < 10 :=
        Nat.div_lt_of_lt_mul (by rw [Nat.pow_succ] at ha; omega)
      have hdb : b / 10 ^ width < 10 :=
        Nat.div_lt_of_lt_mul (by rw [Nat.pow_succ] at hb; omega)
      have htail := ih (Nat.mod_lt a hpos) (Nat.mod_lt b hpos)
      rw [fixedDigits, fixedDigits, List.cons_lt_cons_iff, htail,
        Nat.mod_eq_of_lt hda, Nat.mod_eq_of_lt hdb, digitChar_lt_iff hda hdb]
      refine Iff.trans ?_ (lt_iff_div_mod hpos).symm
      constructor
      · rintro (hlt | ⟨heq, hlt⟩)
        · exact Or.inl hlt
        · exact Or.inr ⟨digitChar_injective_of_lt hda hdb heq, hlt⟩
      · rintro (hlt | ⟨heq, hlt⟩)
        · exact Or.inl hlt
        · exact Or.inr ⟨congrArg Nat.digitChar heq, hlt⟩

theorem digitChar_injective (ha : a < 16) (hb : b < 16) (heq : a.digitChar = b.digitChar) :
    a = b := by
  have hall : ∀ a < 16, ∀ b < 16, a.digitChar = b.digitChar -> a = b := by decide
  exact hall a ha b hb heq

/-- Numerals up to base sixteen determine their number. -/
theorem fixedDigits_injective {base width a b : Nat} (hbase : base ≤ 16)
    (ha : a < base ^ width) (hb : b < base ^ width)
    (heq : fixedDigits base width a = fixedDigits base width b) : a = b := by
  induction width generalizing a b with
  | zero =>
      rw [Nat.pow_zero] at ha hb
      omega
  | succ width ih =>
      have hpos : 0 < base := by
        by_contra hzero
        have hbase0 : base = 0 := by omega
        rw [hbase0, Nat.pow_succ, Nat.mul_zero] at ha
        omega
      have hpow : 0 < base ^ width := Nat.pow_pos hpos
      have hda : a / base ^ width < base := Nat.div_lt_of_lt_mul (by rwa [Nat.pow_succ] at ha)
      have hdb : b / base ^ width < base := Nat.div_lt_of_lt_mul (by rwa [Nat.pow_succ] at hb)
      rw [fixedDigits, fixedDigits, List.cons.injEq, Nat.mod_eq_of_lt hda,
        Nat.mod_eq_of_lt hdb] at heq
      have hdiv : a / base ^ width = b / base ^ width :=
        digitChar_injective (Nat.lt_of_lt_of_le hda hbase) (Nat.lt_of_lt_of_le hdb hbase) heq.1
      have hmod : a % base ^ width = b % base ^ width :=
        ih (Nat.mod_lt a hpow) (Nat.mod_lt b hpow) heq.2
      rw [← Nat.div_add_mod a (base ^ width), ← Nat.div_add_mod b (base ^ width), hdiv, hmod]

theorem isDigit_of_mem_fixedDigits {width n : Nat} {c : Char}
    (hmem : c ∈ fixedDigits 10 width n) : c.isDigit = true := by
  induction width generalizing n with
  | zero =>
      cases hmem
  | succ width ih =>
      rw [fixedDigits, List.mem_cons] at hmem
      rcases hmem with heq | htail
      · have hdigit : n / 10 ^ width % 10 < 10 := Nat.mod_lt _ (by decide)
        rw [heq]
        interval_cases n / 10 ^ width % 10 <;> decide
      · exact ih htail

variable {m n : Nat}

theorem toDigits_injective (h : Nat.toDigits 10 m = Nat.toDigits 10 n) : m = n := by
  rw [← Nat.ofDigitChars_ten_toDigits (n := m), h, Nat.ofDigitChars_ten_toDigits]

theorem takeWhile_toDigits {sep : Char} (hsep : sep.isDigit = false) (n : Nat) (rest : List Char) :
    (Nat.toDigits 10 n ++ sep :: rest).takeWhile Char.isDigit = Nat.toDigits 10 n := by
  rw [List.takeWhile_append_of_pos]
  · rw [List.takeWhile_cons_of_neg (by simp [hsep]), List.append_nil]
  · intro c hc
    exact Nat.isDigit_of_mem_toDigits (by decide) (by decide) hc

theorem toDigits_append_inj {sep : Char} (hsep : sep.isDigit = false) {rest rest' : List Char}
    (h : Nat.toDigits 10 m ++ sep :: rest = Nat.toDigits 10 n ++ sep :: rest') :
    m = n ∧ rest = rest' := by
  have htake := congrArg (List.takeWhile Char.isDigit) h
  rw [takeWhile_toDigits hsep, takeWhile_toDigits hsep] at htake
  constructor
  · exact toDigits_injective htake
  · rw [htake] at h
    exact (List.cons.inj (List.append_cancel_left h)).2

theorem toString_injective (h : toString m = toString n) : m = n := by
  have hdigits := congrArg String.toList h
  have hm : (toString m).toList = Nat.toDigits 10 m := Nat.toList_repr
  have hn : (toString n).toList = Nat.toDigits 10 n := Nat.toList_repr
  rw [hm, hn] at hdigits
  exact toDigits_injective hdigits

/-!
# Self-delimiting codes

A code tells where the code of an item ends when no two items begin the same
text unless they are the same item.  Such codes can be written one after the
other, and the items be read back, as far as the shorter list goes.
-/

variable {A Symbol : Type}

def SelfDelimiting (code : A -> List Symbol) : Prop :=
  forall {a a' : A} {rest rest' : List Symbol},
    code a ++ rest = code a' ++ rest' -> a = a' ∧ rest = rest'

variable {code : A -> List Symbol}

theorem selfDelimiting_of_length {n : Nat} (hlength : forall a, (code a).length = n)
    (hinj : forall a a', code a = code a' -> a = a') :
    SelfDelimiting code := by
  intro a a' rest rest' h
  rcases List.append_inj h ((hlength a).trans (hlength a').symm) with ⟨hcode, hrest⟩
  exact ⟨hinj a a' hcode, hrest⟩

theorem selfDelimiting_of_header {size : A -> Nat} {header : Nat -> List Symbol}
    {body : A -> List Symbol} (hlength : forall a, (body a).length = size a)
    (hheader : forall {a a' : A} {rest rest' : List Symbol},
      header (size a) ++ rest = header (size a') ++ rest' -> size a = size a' ∧ rest = rest')
    (hinj : forall a a', body a = body a' -> a = a') :
    SelfDelimiting fun a => header (size a) ++ body a := by
  intro a a' rest rest' heq
  simp only [List.append_assoc] at heq
  rcases hheader heq with ⟨hsize, heq⟩
  have hsame : (body a).length = (body a').length := by
    rw [hlength, hlength, hsize]
  rcases List.append_inj heq hsame with ⟨hbody, hrest⟩
  exact ⟨hinj a a' hbody, hrest⟩

/-- Where two lists begin the same text, one of them begins with the other. -/
theorem SelfDelimiting.one_extends (h : SelfDelimiting code) {items items' : List A}
    {rest rest' : List Symbol} (heq : items.flatMap code ++ rest = items'.flatMap code ++ rest') :
    (exists more, items' = items ++ more ∧ rest = more.flatMap code ++ rest') ∨
      exists more, items = items' ++ more ∧ rest' = more.flatMap code ++ rest := by
  induction items generalizing items' with
  | nil =>
      exact Or.inl ⟨items', rfl, heq⟩
  | cons item items ih =>
      cases items' with
      | nil =>
          exact Or.inr ⟨item :: items, rfl, heq.symm⟩
      | cons item' items' =>
          simp only [List.flatMap_cons, List.append_assoc] at heq
          rcases h heq with ⟨rfl, htail⟩
          rcases ih htail with ⟨more, hitems, hrest⟩ | ⟨more, hitems, hrest⟩
          · exact Or.inl ⟨more, congrArg (item :: ·) hitems, hrest⟩
          · exact Or.inr ⟨more, congrArg (item :: ·) hitems, hrest⟩

theorem SelfDelimiting.of_length (h : SelfDelimiting code) {items items' : List A}
    (hlength : items.length = items'.length) {rest rest' : List Symbol}
    (heq : items.flatMap code ++ rest = items'.flatMap code ++ rest') :
    items = items' ∧ rest = rest' := by
  rcases h.one_extends heq with ⟨more, rfl, hrest⟩ | ⟨more, rfl, hrest⟩
  · have hmore : more = [] := by
      rw [List.length_append] at hlength
      exact List.eq_nil_of_length_eq_zero (by omega)
    subst hmore
    exact ⟨(List.append_nil items).symm, hrest⟩
  · have hmore : more = [] := by
      rw [List.length_append] at hlength
      exact List.eq_nil_of_length_eq_zero (by omega)
    subst hmore
    exact ⟨List.append_nil items', hrest.symm⟩

end Foundation
end KnowledgeBrain
