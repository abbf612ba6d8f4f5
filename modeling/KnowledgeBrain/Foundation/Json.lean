import KnowledgeBrain.Foundation.Sorting
import KnowledgeBrain.Foundation.Utf8
import Mathlib.Algebra.Ring.Nat
import Mathlib.Algebra.Order.BigOperators.Group.List
import Mathlib.Algebra.Order.Group.Nat

/-!
# JSON values

Values with their fields in the order they were set, as a program holds them.
A number is kept as its text.  Writing a value with sorted keys and reading it
back gives the same value with its fields in the order of their names.
-/

namespace KnowledgeBrain
namespace Foundation

inductive JsonValue where
  | null
  | bool (value : Bool)
  | number (token : String)
  | text (value : String)
  | array (items : List JsonValue)
  | object (fields : List (String × JsonValue))

namespace JsonValue

abbrev Fields := List (String × JsonValue)

def compareNames (a b : String × JsonValue) : Ordering :=
  compare a.1 b.1

instance : Std.TransCmp compareNames where
  eq_swap := fun {a b} => @Std.OrientedCmp.eq_swap String compare _ a.1 b.1
  isLE_trans := fun {a b c} => @Std.TransCmp.isLE_trans String compare _ a.1 b.1 c.1

/-- `\x7b**fields, name: value\x7d`. -/
def withField (name : String) (value : JsonValue) : Fields -> Fields
  | [] => [(name, value)]
  | (name', value') :: rest =>
      if name' = name then (name, value) :: rest
      else (name', value') :: withField name value rest

/-!
# Sorted keys
-/

mutual

/-- `json.loads(json.dumps(value, sort_keys=True))`. -/
def sortKeys : JsonValue -> JsonValue
  | .array items => .array (sortItems items)
  | .object fields => .object (sortBy compareNames (sortValues fields))
  | .null => .null
  | .bool value => .bool value
  | .number token => .number token
  | .text value => .text value

def sortItems : List JsonValue -> List JsonValue
  | [] => []
  | item :: rest => sortKeys item :: sortItems rest

def sortValues : Fields -> Fields
  | [] => []
  | (name, value) :: rest => (name, sortKeys value) :: sortValues rest

end

def sortFields (fields : Fields) : Fields :=
  sortBy compareNames (sortValues fields)

/-!
# Compact text
-/

/-- `json.dumps` for one character of a text. -/
def escapeChar (c : Char) : List Char :=
  if c = '"' ∨ c = '\\' then ['\\', c]
  else if c = '\n' then ['\\', 'n']
  else if c = '\r' then ['\\', 'r']
  else if c = '\t' then ['\\', 't']
  else if c.toNat = 8 then ['\\', 'b']
  else if c.toNat = 12 then ['\\', 'f']
  else if c.toNat < 32 then
    ['\\', 'u', '0', '0', Nat.digitChar (c.toNat / 16), Nat.digitChar (c.toNat % 16)]
  else [c]

def quote (text : String) : List Char :=
  '"' :: text.toList.flatMap escapeChar ++ ['"']

/-- The parts with a comma between each two. -/
def separated : List (List Char) -> List Char
  | [] => []
  | [part] => part
  | part :: rest => part ++ ',' :: separated rest

mutual

/-- `json.dumps(value, ensure_ascii=False, separators=(',', ':'))`. -/
def dumps : JsonValue -> List Char
  | .null => "null".toList
  | .bool true => "true".toList
  | .bool false => "false".toList
  | .number token => token.toList
  | .text value => quote value
  | .array items => '[' :: separated (dumpItems items) ++ [']']
  | .object fields => '\x7b' :: separated (dumpFields fields) ++ ['\x7d']

def dumpItems : List JsonValue -> List (List Char)
  | [] => []
  | item :: rest => dumps item :: dumpItems rest

def dumpFields : Fields -> List (List Char)
  | [] => []
  | (name, value) :: rest => (quote name ++ ':' :: dumps value) :: dumpFields rest

end

/-!
# Facts about the two
-/

theorem sortItems_eq (items : List JsonValue) : sortItems items = items.map sortKeys := by
  induction items with
  | nil => rfl
  | cons item rest ih => rw [sortItems, ih, List.map_cons]

theorem sortValues_eq (fields : Fields) :
    sortValues fields = fields.map fun field => (field.1, sortKeys field.2) := by
  induction fields with
  | nil => rfl
  | cons field rest ih => rw [sortValues, ih, List.map_cons]

theorem dumpItems_eq (items : List JsonValue) : dumpItems items = items.map dumps := by
  induction items with
  | nil => rfl
  | cons item rest ih => rw [dumpItems, ih, List.map_cons]

theorem dumpFields_eq (fields : Fields) :
    dumpFields fields = fields.map fun field => quote field.1 ++ ':' :: dumps field.2 := by
  induction fields with
  | nil => rfl
  | cons field rest ih => rw [dumpFields, ih, List.map_cons]

/-- An induction that reaches every value inside. -/
theorem deepInduction {P : JsonValue -> Prop} (hnull : P .null) (hbool : forall b, P (.bool b))
    (hnumber : forall t, P (.number t)) (htext : forall t, P (.text t))
    (harray : forall items, (forall v, v ∈ items -> P v) -> P (.array items))
    (hobject : forall fields : Fields, (forall field, field ∈ fields -> P field.2) ->
      P (.object fields)) (v : JsonValue) : P v := by
  refine @JsonValue.rec P (fun items => forall v, v ∈ items -> P v)
    (fun fields => forall field, field ∈ fields -> P field.2) (fun field => P field.2)
    hnull hbool hnumber htext harray hobject ?_ ?_ ?_ ?_ ?_ v
  · intro v hmem
    cases hmem
  · intro item rest hitem hrest v hmem
    rcases List.mem_cons.mp hmem with rfl | hmem
    · exact hitem
    · exact hrest v hmem
  · intro field hmem
    cases hmem
  · intro field rest hfield hrest field' hmem
    rcases List.mem_cons.mp hmem with rfl | hmem
    · exact hfield
    · exact hrest field' hmem
  · intro name value hvalue
    exact hvalue

theorem length_separated (parts : List (List Char)) :
    (separated parts).length = (parts.map List.length).sum + (parts.length - 1) := by
  induction parts with
  | nil => rfl
  | cons part rest ih =>
      cases rest with
      | nil => simp [separated]
      | cons next others =>
          change (part ++ ',' :: separated (next :: others)).length = _
          rw [List.length_append, List.length_cons, ih]
          simp only [List.map_cons, List.sum_cons, List.length_cons]
          omega

theorem length_separated_of_perm {parts parts' : List (List Char)}
    (h : (parts.map List.length).Perm (parts'.map List.length)) :
    (separated parts).length = (separated parts').length := by
  have hlength : parts.length = parts'.length := by
    simpa using h.length_eq
  rw [length_separated, length_separated, h.sum_nat, hlength]

/-- Sorting the keys keeps the length of the text. -/
theorem length_dumps_sortKeys (v : JsonValue) : (dumps (sortKeys v)).length = (dumps v).length := by
  induction v using deepInduction with
  | hnull => rfl
  | hbool b => rfl
  | hnumber t => rfl
  | htext t => rfl
  | harray items ih =>
      have hparts : ((items.map sortKeys).map dumps).map List.length =
          (items.map dumps).map List.length := by
        rw [List.map_map, List.map_map, List.map_map]
        exact List.map_congr_left ih
      simp only [sortKeys, dumps, sortItems_eq, dumpItems_eq, List.length_append, List.length_cons]
      rw [length_separated_of_perm (List.Perm.of_eq hparts)]
  | hobject fields ih =>
      have hvalues : ((fields.map fun field => (field.1, sortKeys field.2)).map
          fun field => quote field.1 ++ ':' :: dumps field.2).map List.length =
          (fields.map fun field => quote field.1 ++ ':' :: dumps field.2).map List.length := by
        rw [List.map_map, List.map_map, List.map_map]
        apply List.map_congr_left
        intro field hmem
        simp [ih field hmem]
      have hparts := ((perm_sortBy compareNames (sortValues fields)).map
        fun field => quote field.1 ++ ':' :: dumps field.2).map List.length
      rw [sortValues_eq, hvalues] at hparts
      simp only [sortKeys, dumps, dumpFields_eq, List.length_append, List.length_cons]
      rw [sortValues_eq, length_separated_of_perm hparts]

/-- Sorted keys stay as they are. -/
theorem sortKeys_sortKeys (v : JsonValue) : sortKeys (sortKeys v) = sortKeys v := by
  induction v using deepInduction with
  | hnull => rfl
  | hbool b => rfl
  | hnumber t => rfl
  | htext t => rfl
  | harray items ih =>
      simp only [sortKeys, sortItems_eq, List.map_map]
      congr 1
      exact List.map_congr_left ih
  | hobject fields ih =>
      have hsorted := pairwise_sortBy compareNames (sortValues fields)
      have hfixed : sortValues (sortBy compareNames (sortValues fields)) =
          sortBy compareNames (sortValues fields) := by
        rw [sortValues_eq (sortBy compareNames (sortValues fields))]
        refine (List.map_congr_left ?_).trans (List.map_id _)
        intro field hmem
        rw [mem_sortBy, sortValues_eq, List.mem_map] at hmem
        rcases hmem with ⟨original, horiginal, rfl⟩
        exact Prod.ext rfl (ih original horiginal)
      simp only [sortKeys]
      rw [hfixed]
      exact congrArg JsonValue.object hsorted.insertionSort_eq

end JsonValue

/-!
# Values equal up to the order of their keys

Objects compare by their keys, as dictionaries do.  Sorted keys are one form of
all values that are equal.
-/

namespace JsonValue

mutual

/-- No object has a key twice, at any depth. -/
def Distinct : JsonValue -> Prop
  | .array items => DistinctItems items
  | .object fields => (fields.map Prod.fst).Nodup ∧ DistinctFields fields
  | _ => True

def DistinctItems : List JsonValue -> Prop
  | [] => True
  | item :: rest => Distinct item ∧ DistinctItems rest

def DistinctFields : Fields -> Prop
  | [] => True
  | (_, value) :: rest => Distinct value ∧ DistinctFields rest

end

mutual

/-- `==` of two values. -/
def Same : JsonValue -> JsonValue -> Prop
  | .array items, .array items' => SameItems items items'
  | .object fields, .object fields' => fields.length = fields'.length ∧ SameFields fields fields'
  | .null, .null => True
  | .bool b, .bool b' => b = b'
  | .number t, .number t' => t = t'
  | .text t, .text t' => t = t'
  | _, _ => False

def SameItems : List JsonValue -> List JsonValue -> Prop
  | [], [] => True
  | item :: rest, item' :: rest' => Same item item' ∧ SameItems rest rest'
  | _, _ => False

/-- Every field has an equal one under its name. -/
def SameFields : Fields -> Fields -> Prop
  | [], _ => True
  | (name, value) :: rest, fields' =>
      (exists value', fields'.lookup name = some value' ∧ Same value value') ∧
        SameFields rest fields'

end

theorem distinctFields_iff {fields : Fields} :
    DistinctFields fields <-> forall field, field ∈ fields -> Distinct field.2 := by
  induction fields with
  | nil => simp [DistinctFields]
  | cons field rest ih =>
      rcases field with ⟨name, value⟩
      simp [DistinctFields, ih]

theorem sameFields_iff {fields fields' : Fields} :
    SameFields fields fields' <-> forall field, field ∈ fields ->
      exists value', fields'.lookup field.1 = some value' ∧ Same field.2 value' := by
  induction fields with
  | nil => simp [SameFields]
  | cons field rest ih =>
      rcases field with ⟨name, value⟩
      simp [SameFields, ih]

theorem map_fst_sortValues (fields : Fields) :
    (sortValues fields).map Prod.fst = fields.map Prod.fst := by
  rw [sortValues_eq, List.map_map]
  rfl

theorem sortBy_compareNames_of_perm {fields fields' : Fields}
    (hnodup : (fields.map Prod.fst).Nodup) (hperm : fields.Perm fields') :
    sortBy compareNames fields = sortBy compareNames fields' := by
  apply sortBy_eq_of_perm hperm
  intro a b ha hb hcmp
  exact List.inj_on_of_nodup_map hnodup ha hb (Std.LawfulEqCmp.eq_of_compare hcmp)

/-- Values that are equal have one form with sorted keys. -/
theorem sortKeys_eq_of_same (v : JsonValue) : forall v', Distinct v -> Distinct v' ->
    Same v v' -> sortKeys v = sortKeys v' := by
  induction v using deepInduction with
  | hnull =>
      intro v' _ _ h
      cases v' with
      | null => rfl
      | _ => exact absurd h (by simp [Same])
  | hbool b =>
      intro v' _ _ h
      cases v' with
      | bool b' =>
          simp only [Same] at h
          rw [h]
      | _ => exact absurd h (by simp [Same])
  | hnumber t =>
      intro v' _ _ h
      cases v' with
      | number t' =>
          simp only [Same] at h
          rw [h]
      | _ => exact absurd h (by simp [Same])
  | htext t =>
      intro v' _ _ h
      cases v' with
      | text t' =>
          simp only [Same] at h
          rw [h]
      | _ => exact absurd h (by simp [Same])
  | harray items ih =>
      intro v' hdistinct hdistinct' h
      cases v' with
      | array items' =>
          simp only [Same] at h
          simp only [Distinct] at hdistinct hdistinct'
          rw [sortKeys, sortKeys]
          congr 1
          induction items generalizing items' with
          | nil =>
              cases items' with
              | nil => rfl
              | cons item' rest' => exact absurd h (by simp [SameItems])
          | cons item rest ihRest =>
              cases items' with
              | nil => exact absurd h (by simp [SameItems])
              | cons item' rest' =>
                  simp only [SameItems] at h
                  simp only [DistinctItems] at hdistinct hdistinct'
                  rw [sortItems, sortItems,
                    ih item List.mem_cons_self item' hdistinct.1 hdistinct'.1 h.1,
                    ihRest (fun v hv => ih v (List.mem_cons_of_mem _ hv)) hdistinct.2 rest'
                      hdistinct'.2 h.2]
      | _ => exact absurd h (by simp [Same])
  | hobject fields ih =>
      intro v' hdistinct hdistinct' h
      cases v' with
      | object fields' =>
          simp only [Same] at h
          simp only [Distinct] at hdistinct hdistinct'
          rw [sortKeys, sortKeys]
          congr 1
          have hnodup : ((sortValues fields).map Prod.fst).Nodup := by
            rw [map_fst_sortValues]
            exact hdistinct.1
          apply sortBy_compareNames_of_perm hnodup
          have hsubset : sortValues fields ⊆ sortValues fields' := by
            intro field hfield
            rw [sortValues_eq] at hfield ⊢
            rcases List.mem_map.mp hfield with ⟨original, horiginal, rfl⟩
            rcases sameFields_iff.mp h.2 original horiginal with ⟨value', hlookup, hsame⟩
            have hmem : (original.1, value') ∈ fields' :=
              @Table.mem_rows_of_lookup String JsonValue _ _ _ ⟨fields', hdistinct'.1⟩ hlookup
            have hvalue := ih original horiginal value'
              (distinctFields_iff.mp hdistinct.2 original horiginal)
              (distinctFields_iff.mp hdistinct'.2 _ hmem) hsame
            rw [hvalue]
            exact List.mem_map.mpr ⟨(original.1, value'), hmem, rfl⟩
          have hsubperm := List.subperm_of_subset (List.Nodup.of_map _ hnodup) hsubset
          apply hsubperm.perm_of_length_le
          rw [sortValues_eq, sortValues_eq, List.length_map, List.length_map, h.1]
      | _ => exact absurd h (by simp [Same])

theorem lookup_sortFields {fields : Fields} (hnodup : (fields.map Prod.fst).Nodup)
    (name : String) : (sortFields fields).lookup name = (fields.lookup name).map sortKeys := by
  have hnodup' : ((sortValues fields).map Prod.fst).Nodup := by
    rw [map_fst_sortValues]
    exact hnodup
  rw [sortFields, lookup_of_perm (perm_sortBy compareNames (sortValues fields)).symm hnodup',
    sortValues_eq]
  exact Table.lookup_map_rows fields (fun _ value => sortKeys value) name

end JsonValue

/-!
# Fields of objects

What setting and leaving out a field does to the other fields, and how many
bytes an object takes with a field more.
-/

namespace JsonValue

/-!
## Reading fields
-/

theorem lookup_withField_of_ne {name other : String} (h : other ≠ name) (value : JsonValue)
    (fields : Fields) : (withField name value fields).lookup other = fields.lookup other := by
  induction fields with
  | nil =>
      simp [withField, List.lookup_cons, beq_eq_false_iff_ne.mpr h]
  | cons field rest ih =>
      rcases field with ⟨key, old⟩
      rw [withField]
      by_cases hkey : key = name
      · subst hkey
        rw [if_pos rfl]
        simp [List.lookup_cons, beq_eq_false_iff_ne.mpr h]
      · rw [if_neg hkey, List.lookup_cons, List.lookup_cons, ih]

theorem lookup_withField (name : String) (value : JsonValue) (fields : Fields) :
    (withField name value fields).lookup name = some value := by
  induction fields with
  | nil =>
      simp [withField]
  | cons field rest ih =>
      rcases field with ⟨key, old⟩
      rw [withField]
      by_cases hkey : key = name
      · rw [if_pos hkey]
        simp
      · rw [if_neg hkey, List.lookup_cons, ih]
        simp [beq_eq_false_iff_ne.mpr (Ne.symm hkey)]

theorem lookup_filter_ne {name other : String} (h : other ≠ name) (fields : Fields) :
    (fields.filter fun field => field.1 ≠ name).lookup other = fields.lookup other := by
  induction fields with
  | nil =>
      rfl
  | cons field rest ih =>
      rcases field with ⟨key, value⟩
      by_cases hkey : key = name
      · rw [List.filter_cons_of_neg (by simpa using hkey), ih, List.lookup_cons]
        simp [hkey, beq_eq_false_iff_ne.mpr h]
      · rw [List.filter_cons_of_pos (by simpa using hkey), List.lookup_cons, List.lookup_cons, ih]

/-!
## Bytes
-/

def textBytes (t : List Char) : Nat :=
  (utf8 t).length

/-- `len(json.dumps(value, ..).encode())`. -/
def byteLength (value : JsonValue) : Nat :=
  textBytes (dumps value)

/-- The bytes of a field, with the mark that ends it. -/
def fieldBytes (field : String × JsonValue) : Nat :=
  textBytes (quote field.1) + 1 + byteLength field.2 + 1

@[simp]
theorem textBytes_append (t u : List Char) : textBytes (t ++ u) = textBytes t + textBytes u := by
  unfold textBytes
  rw [utf8_append, List.length_append]

theorem textBytes_cons_ascii {c : Char} (hc : IsAscii c) (t : List Char) :
    textBytes (c :: t) = textBytes t + 1 := by
  unfold textBytes
  rw [utf8_cons, utf8EncodeChar_of_ascii hc, List.length_append, List.length_singleton,
    Nat.add_comm]

theorem textBytes_separated {parts : List (List Char)} (hne : parts ≠ []) :
    textBytes (separated parts) + 1 = (parts.map fun part => textBytes part + 1).sum := by
  induction parts with
  | nil =>
      exact absurd rfl hne
  | cons part rest ih =>
      cases rest with
      | nil =>
          simp [separated]
      | cons next others =>
          have hrest := ih (List.cons_ne_nil next others)
          show textBytes (part ++ ',' :: separated (next :: others)) + 1 = _
          rw [textBytes_append, textBytes_cons_ascii (by decide), List.map_cons, List.sum_cons]
          omega

theorem byteLength_object {fields : Fields} (hne : fields ≠ []) :
    byteLength (.object fields) = (fields.map fieldBytes).sum + 1 := by
  have hparts : dumpFields fields ≠ [] := by
    rw [dumpFields_eq]
    simpa using hne
  have hsum := textBytes_separated hparts
  rw [dumpFields_eq, List.map_map] at hsum
  have hfield : ((fun part => textBytes part + 1) ∘ fun field : String × JsonValue =>
      quote field.1 ++ ':' :: dumps field.2) = fieldBytes := by
    funext field
    show textBytes (quote field.1 ++ ':' :: dumps field.2) + 1 = _
    rw [textBytes_append, textBytes_cons_ascii (by decide)]
    unfold fieldBytes byteLength
    omega
  rw [hfield] at hsum
  unfold byteLength
  show textBytes ('\x7b' :: separated (dumpFields fields) ++ ['\x7d']) = _
  rw [List.cons_append, textBytes_cons_ascii (by decide), textBytes_append, dumpFields_eq,
    textBytes_cons_ascii (by decide)]
  have hnil : textBytes [] = 0 := rfl
  omega

theorem byteLength_array {items : List JsonValue} (hne : items ≠ []) :
    byteLength (.array items) = (items.map fun item => byteLength item + 1).sum + 1 := by
  have hparts : dumpItems items ≠ [] := by
    rw [dumpItems_eq]
    simpa using hne
  have hsum := textBytes_separated hparts
  rw [dumpItems_eq, List.map_map] at hsum
  have hitem : ((fun part => textBytes part + 1) ∘ dumps) =
      fun item => byteLength item + 1 := rfl
  rw [hitem] at hsum
  unfold byteLength
  show textBytes ('[' :: separated (dumpItems items) ++ [']']) = _
  rw [List.cons_append, textBytes_cons_ascii (by decide), textBytes_append, dumpItems_eq,
    textBytes_cons_ascii (by decide)]
  have hnil : textBytes [] = 0 := rfl
  unfold byteLength at hsum
  omega

theorem sum_withField_le (name : String) (value : JsonValue) (fields : Fields) :
    ((withField name value fields).map fieldBytes).sum ≤
      (fields.map fieldBytes).sum + fieldBytes (name, value) := by
  induction fields with
  | nil =>
      simp [withField]
  | cons field rest ih =>
      rcases field with ⟨key, old⟩
      rw [withField]
      split
      · simp only [List.map_cons, List.sum_cons]
        omega
      · simp only [List.map_cons, List.sum_cons]
        omega

theorem withField_ne_nil (name : String) (value : JsonValue) (fields : Fields) :
    withField name value fields ≠ [] := by
  cases fields with
  | nil =>
      simp [withField]
  | cons field rest =>
      rw [withField]
      split <;> simp

/-- A field that is left out takes its bytes with it. -/
theorem sum_filter_ne_le {name : String} {value : JsonValue} {fields : Fields}
    (h : fields.lookup name = some value) :
    ((fields.filter fun field => field.1 ≠ name).map fieldBytes).sum +
      fieldBytes (name, value) ≤ (fields.map fieldBytes).sum := by
  induction fields with
  | nil =>
      cases h
  | cons field rest ih =>
      rcases field with ⟨key, old⟩
      by_cases hkey : key = name
      · subst hkey
        rw [List.lookup_cons_self] at h
        cases h
        rw [List.filter_cons_of_neg (by simp), List.map_cons, List.sum_cons]
        have hrest := ((List.filter_sublist (p := fun field : String × JsonValue =>
          decide (field.1 ≠ key)) (l := rest)).map fieldBytes).sum_le_sum fun _ _ => Nat.zero_le _
        omega
      · rw [List.lookup_cons, beq_eq_false_iff_ne.mpr (Ne.symm hkey)] at h
        rw [List.filter_cons_of_pos (by simpa using hkey), List.map_cons, List.map_cons,
          List.sum_cons, List.sum_cons]
        have hrest := ih h
        omega

theorem byteLength_replaceField_le {name other : String} {value value' : JsonValue}
    {fields : Fields} (h : fields.lookup name = some value) :
    byteLength (.object (withField other value' (fields.filter fun field => field.1 ≠ name))) +
        byteLength (.object [(name, value)]) ≤
      byteLength (.object fields) + byteLength (.object [(other, value')]) := by
  have hne : fields ≠ [] := by
    intro hnil
    rw [hnil] at h
    cases h
  rw [byteLength_object (withField_ne_nil _ _ _), byteLength_object hne,
    byteLength_object (List.cons_ne_nil _ _), byteLength_object (List.cons_ne_nil _ _)]
  have hset := sum_withField_le other value' (fields.filter fun field => field.1 ≠ name)
  have hout := sum_filter_ne_le h
  simp only [List.map_cons, List.map_nil, List.sum_cons, List.sum_nil]
  omega

end JsonValue

end Foundation
end KnowledgeBrain
