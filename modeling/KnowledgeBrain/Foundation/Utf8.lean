import KnowledgeBrain.Foundation.Searching
import KnowledgeBrain.Foundation.Streams
import Mathlib.Tactic.SplitIfs

/-!
# UTF-8

The bytes of a character below 128 are the character; those of any other
character are 128 at least.  So a pattern of such characters is found in the
bytes of a text where it is found in the text.
-/

namespace KnowledgeBrain
namespace Foundation

def utf8 (t : List Char) : List UInt8 :=
  t.flatMap String.utf8EncodeChar

def decodeUtf8 (bytes : List UInt8) : Option (List Char) :=
  bytes.toByteArray.utf8Decode?.map Array.toList

theorem decodeUtf8_utf8 (t : List Char) : decodeUtf8 (utf8 t) = some t := by
  have hdecode := List.utf8Decode?_utf8Encode (l := t)
  unfold decodeUtf8
  show (t.utf8Encode.utf8Decode?).map Array.toList = some t
  rw [hdecode, Option.map_some]

@[simp]
theorem utf8_nil : utf8 [] = [] := rfl

@[simp]
theorem utf8_cons (c : Char) (t : List Char) : utf8 (c :: t) = String.utf8EncodeChar c ++ utf8 t :=
  List.flatMap_cons

@[simp]
theorem utf8_append (t u : List Char) : utf8 (t ++ u) = utf8 t ++ utf8 u :=
  List.flatMap_append

/-!
# Characters below 128
-/

def IsAscii (c : Char) : Prop :=
  c.toNat < 128

instance (c : Char) : Decidable (IsAscii c) :=
  inferInstanceAs (Decidable (_ < _))

def asciiByte (c : Char) : UInt8 :=
  UInt8.ofNat c.toNat

theorem utf8EncodeChar_of_ascii {c : Char} (hc : IsAscii c) :
    String.utf8EncodeChar c = [asciiByte c] := by
  unfold String.utf8EncodeChar
  have hle : c.val.toNat ≤ 127 := Nat.le_of_lt_succ hc
  simp only
  rw [if_pos hle]
  rfl

theorem le_of_mem_utf8EncodeChar {c : Char} (hc : ¬ IsAscii c) {b : UInt8}
    (hb : b ∈ String.utf8EncodeChar c) : 128 ≤ b.toNat := by
  have hlarge : ¬ c.val.toNat ≤ 127 := fun h => hc (Nat.lt_succ_of_le h)
  have hvalid : c.val.toNat < 55296 ∨ 57343 < c.val.toNat ∧ c.val.toNat < 1114112 := c.valid
  unfold String.utf8EncodeChar at hb
  simp only [if_neg hlarge] at hb
  split at hb
  · simp only [List.mem_cons, List.not_mem_nil, or_false] at hb
    rcases hb with rfl | rfl <;> simp <;> omega
  · split at hb
    · simp only [List.mem_cons, List.not_mem_nil, or_false] at hb
      rcases hb with rfl | rfl | rfl <;> simp <;> omega
    · simp only [List.mem_cons, List.not_mem_nil, or_false] at hb
      rcases hb with rfl | rfl | rfl | rfl <;> simp <;> omega

theorem asciiByte_lt {c : Char} (hc : IsAscii c) : (asciiByte c).toNat < 128 := by
  unfold asciiByte
  rw [UInt8.toNat_ofNat', Nat.mod_eq_of_lt (Nat.lt_trans hc (by decide))]
  exact hc

theorem asciiByte_inj {c d : Char} (hc : IsAscii c) (hd : IsAscii d)
    (h : asciiByte c = asciiByte d) : c = d := by
  have hbytes := congrArg UInt8.toNat h
  unfold asciiByte at hbytes
  rw [UInt8.toNat_ofNat', UInt8.toNat_ofNat', Nat.mod_eq_of_lt (Nat.lt_trans hc (by decide)),
    Nat.mod_eq_of_lt (Nat.lt_trans hd (by decide))] at hbytes
  exact Char.toNat_inj.mp hbytes

/-!
# Patterns
-/

section Patterns

variable {pattern : List Char}

/-- A pattern starts the bytes of a text where it starts the text. -/
theorem utf8_prefix_iff (hascii : forall c, c ∈ pattern -> IsAscii c) {t : List Char} :
    utf8 pattern <+: utf8 t <-> pattern <+: t := by
  induction pattern generalizing t with
  | nil =>
      simp
  | cons c pattern ih =>
      have hc := hascii c List.mem_cons_self
      have ih := fun t => @ih (fun d hd => hascii d (List.mem_cons_of_mem c hd)) t
      rw [utf8_cons, utf8EncodeChar_of_ascii hc, List.singleton_append]
      cases t with
      | nil =>
          simp
      | cons d t =>
          rw [utf8_cons, List.cons_prefix_cons]
          by_cases hd : IsAscii d
          · rw [utf8EncodeChar_of_ascii hd, List.singleton_append, List.cons_prefix_cons, ih]
            constructor
            · rintro ⟨hbyte, hrest⟩
              exact ⟨asciiByte_inj hc hd hbyte, hrest⟩
            · rintro ⟨rfl, hrest⟩
              exact ⟨rfl, hrest⟩
          · constructor
            · intro hstart
              exfalso
              cases hbytes : String.utf8EncodeChar d with
              | nil =>
                  exact String.utf8EncodeChar_ne_nil hbytes
              | cons b bytes =>
                  rw [hbytes, List.cons_append, List.cons_prefix_cons] at hstart
                  have hlarge := le_of_mem_utf8EncodeChar hd (hbytes ▸ List.mem_cons_self)
                  have hsmall := asciiByte_lt hc
                  rw [hstart.1] at hsmall
                  omega
            · rintro ⟨rfl, _⟩
              exact absurd hc hd

/-- No pattern starts within the bytes of a larger character. -/
theorem cutAt_large {bytes rest : List UInt8} (hne : pattern ≠ [])
    (hascii : forall c, c ∈ pattern -> IsAscii c) (hlarge : forall b, b ∈ bytes -> 128 ≤ b.toNat) :
    cutAt (utf8 pattern) (bytes ++ rest) =
      (cutAt (utf8 pattern) rest).map fun (before, behind) => (bytes ++ before, behind) := by
  induction bytes with
  | nil =>
      simp
  | cons b bytes ih =>
      have hb := hlarge b List.mem_cons_self
      have hno : ¬ utf8 pattern <+: b :: (bytes ++ rest) := by
        cases pattern with
        | nil =>
            exact absurd rfl hne
        | cons c pattern =>
            have hc := hascii c List.mem_cons_self
            rw [utf8_cons, utf8EncodeChar_of_ascii hc, List.singleton_append, List.cons_prefix_cons]
            rintro ⟨rfl, _⟩
            have hsmall := asciiByte_lt hc
            omega
      rw [List.cons_append, cutAt_of_no_start hno, ih fun b hb =>
        hlarge b (List.mem_cons_of_mem _ hb), Option.map_map]
      rfl

/-- A pattern is found in the bytes of a text where it is found in the text. -/
theorem cutAt_utf8 (hne : pattern ≠ []) (hascii : forall c, c ∈ pattern -> IsAscii c)
    (t : List Char) :
    cutAt (utf8 pattern) (utf8 t) =
      (cutAt pattern t).map fun (before, behind) => (utf8 before, utf8 behind) := by
  induction t with
  | nil =>
      rfl
  | cons c t ih =>
      have hstart := @utf8_prefix_iff pattern hascii (c :: t)
      by_cases hc : IsAscii c
      · rw [utf8_cons, utf8EncodeChar_of_ascii hc, List.singleton_append] at hstart ⊢
        by_cases hleads : pattern <+: c :: t
        · rcases hleads with ⟨behind, hsplit⟩
          have hbytes : asciiByte c :: utf8 t = utf8 pattern ++ utf8 behind := by
            rw [← utf8_append, hsplit, utf8_cons, utf8EncodeChar_of_ascii hc, List.singleton_append]
          rw [cutAt_of_start (hstart.mpr ⟨behind, hsplit⟩), cutAt_of_start ⟨behind, hsplit⟩, hbytes,
            ← hsplit, List.drop_left, List.drop_left]
          rfl
        · rw [cutAt_of_no_start fun h => hleads (hstart.mp h), cutAt_of_no_start hleads, ih,
            Option.map_map, Option.map_map]
          congr 1
          funext found
          simp [utf8EncodeChar_of_ascii hc]
      · have hleads : ¬ pattern <+: c :: t := by
          intro hleads
          cases pattern with
          | nil =>
              exact hne rfl
          | cons d pattern =>
              rw [(List.cons_prefix_cons.mp hleads).1] at hascii
              exact hc (hascii c List.mem_cons_self)
        rw [utf8_cons, cutAt_large hne hascii fun b => le_of_mem_utf8EncodeChar hc, ih,
          cutAt_of_no_start hleads, Option.map_map, Option.map_map]
        congr 1

end Patterns

end Foundation
end KnowledgeBrain
