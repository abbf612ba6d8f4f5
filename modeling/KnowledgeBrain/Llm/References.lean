import KnowledgeBrain.Foundation.Digits
import KnowledgeBrain.Llm.Wire

/-!
# Collected identities

The mapping numbers the identities of a payload in the order in which they are
met.  An identity keeps its reference whatever is collected after it.
-/

namespace KnowledgeBrain
namespace Llm

namespace Wire

open Foundation
open JsonValue (Fields)

/-- An entry of an identity field, if it is a text. -/
def textOf : JsonValue -> Option String
  | .text text => some text
  | _ => none

/-- The identities of a field. -/
def fieldIdentities {R : Type} (ref : R) (value : JsonValue) : List (R × String) :=
  (entriesOf value).filterMap fun entry => (textOf entry).map fun text => (ref, text)

mutual

/-- The identities that are collected from a value, in their order. -/
def collected : JsonValue -> List (Ref × String)
  | .object fields => collectedFields fields
  | .array items => collectedItems items
  | _ => []

def collectedFields : Fields -> List (Ref × String)
  | [] => []
  | (key, value) :: rest =>
      (match fieldRef key with
        | some ref => fieldIdentities ref value
        | none => collected value) ++ collectedFields rest

def collectedItems : List JsonValue -> List (Ref × String)
  | [] => []
  | item :: rest => collected item ++ collectedItems rest

end

def assignOne (mapping : Mapping) (identity : Ref × String) : Mapping :=
  assign identity.1 mapping (.text identity.2)

theorem assignOne_self (mapping : Mapping) (ref : Ref) (identity : String) :
    assignOne mapping (ref, identity) ref = number (shortRef ref) (mapping ref) identity :=
  Function.update_self _ _ _

theorem assignOne_of_ne (mapping : Mapping) {ref : Ref} {other : Ref × String}
    (h : ref ≠ other.1) : assignOne mapping other ref = mapping ref :=
  Function.update_of_ne h _ _

theorem foldl_assign (ref : Ref) (mapping : Mapping) (entries : List JsonValue) :
    entries.foldl (assign ref) mapping =
      (entries.filterMap fun entry => (textOf entry).map fun text => (ref, text)).foldl
        assignOne mapping := by
  induction entries generalizing mapping with
  | nil =>
      rfl
  | cons entry entries ih =>
      rw [List.foldl_cons, ih]
      cases entry with
      | text text => rfl
      | _ => rfl

mutual

theorem collect_eq (mapping : Mapping) : forall value : JsonValue,
    collect mapping value = (collected value).foldl assignOne mapping
  | .object fields => by
      rw [collect, collected]
      exact collectFields_eq mapping fields
  | .array items => by
      rw [collect, collected]
      exact collectItems_eq mapping items
  | .null => rfl
  | .bool _ => rfl
  | .number _ => rfl
  | .text _ => rfl

theorem collectFields_eq (mapping : Mapping) : forall fields : Fields,
    collectFields mapping fields = (collectedFields fields).foldl assignOne mapping
  | [] => rfl
  | (key, value) :: rest => by
      rw [collectFields, collectedFields, List.foldl_append]
      cases fieldRef key with
      | some ref =>
          simp only
          rw [collectFields_eq, foldl_assign]
          rfl
      | none =>
          simp only
          rw [collectFields_eq, collect_eq]

theorem collectItems_eq (mapping : Mapping) : forall items : List JsonValue,
    collectItems mapping items = (collectedItems items).foldl assignOne mapping
  | [] => rfl
  | item :: rest => by
      rw [collectItems, collectedItems, List.foldl_append, collectItems_eq, collect_eq]

end

theorem foldl_collect_eq (mapping : Mapping) (values : List JsonValue) :
    values.foldl collect mapping = (values.flatMap collected).foldl assignOne mapping := by
  induction values generalizing mapping with
  | nil =>
      rfl
  | cons value values ih =>
      rw [List.foldl_cons, ih, List.flatMap_cons, List.foldl_append, collect_eq]

/-!
# The numbers of the references
-/

theorem shortRef_injective (ref : Ref) : Function.Injective (shortRef ref) := by
  intro m n h
  have hnumber := toString_injective ((String.append_right_inj _).mp h)
  exact Nat.succ.inj hnumber

/-- The identities of every kind are numbered. -/
def AllNumbered (mapping : Mapping) : Prop :=
  forall ref, Numbered (shortRef ref) (mapping ref)

variable {mapping : Mapping}

theorem allNumbered_assignOne (h : AllNumbered mapping) (identity : Ref × String) :
    AllNumbered (assignOne mapping identity) := by
  intro ref
  rcases identity with ⟨other, identity⟩
  by_cases href : ref = other
  · subst href
    rw [assignOne_self]
    exact (h ref).number identity
  · rw [assignOne_of_ne mapping href]
    exact h ref

theorem allNumbered_foldl (h : AllNumbered mapping) (identities : List (Ref × String)) :
    AllNumbered (identities.foldl assignOne mapping) := by
  induction identities generalizing mapping with
  | nil =>
      exact h
  | cons identity identities ih =>
      exact ih (allNumbered_assignOne h identity)

theorem mappingOf_eq (batched : Bool) (fields : Fields) :
    mappingOf batched fields = ((if batched then (basis fields).flatMap collected else []) ++
      collected (.object (fields.filter fun field => field.1 ≠ "contract_feedback"))).foldl
        assignOne fun _ => [] := by
  rw [mappingOf, collect_eq, List.foldl_append]
  cases batched with
  | false => rfl
  | true => rw [if_pos rfl, if_pos rfl, foldl_collect_eq]

theorem allNumbered_mappingOf (batched : Bool) (fields : Fields) :
    AllNumbered (mappingOf batched fields) := by
  rw [mappingOf_eq]
  exact allNumbered_foldl (fun ref => numbered_nil (shortRef ref)) _

/-!
# References stay
-/

theorem lookup_assignOne_of_some {ref : Ref} {identity short : String}
    (h : (mapping ref).lookup identity = some short) (other : Ref × String) :
    (assignOne mapping other ref).lookup identity = some short := by
  rcases other with ⟨kind, other⟩
  by_cases href : ref = kind
  · subst href
    rw [assignOne_self]
    exact lookup_number_of_some h
  · rw [assignOne_of_ne mapping href]
    exact h

theorem lookup_foldl_of_some {ref : Ref} {identity short : String}
    (h : (mapping ref).lookup identity = some short) (others : List (Ref × String)) :
    (others.foldl assignOne mapping ref).lookup identity = some short := by
  induction others generalizing mapping with
  | nil =>
      exact h
  | cons other others ih =>
      exact ih (lookup_assignOne_of_some h other)

theorem exists_lookup_foldl {identities : List (Ref × String)} {ref : Ref} {identity : String}
    (hmem : (ref, identity) ∈ identities) (mapping : Mapping) :
    exists short, (identities.foldl assignOne mapping ref).lookup identity = some short := by
  induction identities generalizing mapping with
  | nil =>
      cases hmem
  | cons other others ih =>
      rcases List.mem_cons.mp hmem with rfl | hrest
      · have hsome : ((assignOne mapping (ref, identity) ref).lookup identity).isSome = true := by
          rw [assignOne_self]
          exact isSome_lookup_number _ _ _
        rcases Option.isSome_iff_exists.mp hsome with ⟨short, hshort⟩
        exact ⟨short, lookup_foldl_of_some hshort others⟩
      · exact ih hrest (assignOne mapping other)

end Wire

/-!
# Encoded and restored identities

A walk converts the identities of a value and nothing else.  References lead
back to the identities they stand for, a new identity names its work unit, and
everything else stays unbound.
-/

namespace Wire

open Foundation
open JsonValue (Fields)

/-!
## Identities of a value
-/

mutual

/-- The texts in the identity fields of a value. -/
def identities : JsonValue -> List (Option Ref × String)
  | .object fields => identitiesOfFields fields
  | .array items => identitiesOfItems items
  | _ => []

def identitiesOfFields : Fields -> List (Option Ref × String)
  | [] => []
  | (key, value) :: rest =>
      (match identityField key with
        | some ref => fieldIdentities ref value
        | none => identities value) ++ identitiesOfFields rest

def identitiesOfItems : List JsonValue -> List (Option Ref × String)
  | [] => []
  | item :: rest => identities item ++ identitiesOfItems rest

end

section Walks

variable (convert back : Option Ref -> String -> String)

/-- What a conversion makes of an identity. -/
def converted (identity : Option Ref × String) : Option Ref × String :=
  (identity.1, convert identity.1 identity.2)

theorem textOf_convertText (ref : Option Ref) (value : JsonValue) :
    textOf (convertText convert ref value) = (textOf value).map (convert ref) := by
  cases value with
  | text text => rfl
  | _ => rfl

theorem entriesOf_convertEntry (ref : Option Ref) (value : JsonValue) :
    entriesOf (convertEntry convert ref value) =
      (entriesOf value).map (convertText convert ref) := by
  cases value with
  | array items => rfl
  | _ => rfl

theorem fieldIdentities_convertEntry (ref : Option Ref) (value : JsonValue) :
    fieldIdentities ref (convertEntry convert ref value) =
      (fieldIdentities ref value).map (converted convert) := by
  unfold fieldIdentities
  rw [entriesOf_convertEntry, List.filterMap_map, List.map_filterMap]
  congr 1
  funext entry
  simp only [Function.comp_apply, textOf_convertText, Option.map_map]
  rfl

mutual

theorem identities_walk : forall value : JsonValue,
    identities (walk convert value) = (identities value).map (converted convert)
  | .object fields => by
      rw [walk, identities, identities]
      exact identitiesOfFields_walk fields
  | .array items => by
      rw [walk, identities, identities]
      exact identitiesOfItems_walk items
  | .null => rfl
  | .bool _ => rfl
  | .number _ => rfl
  | .text _ => rfl

theorem identitiesOfFields_walk : forall fields : Fields,
    identitiesOfFields (walkFields convert fields) =
      (identitiesOfFields fields).map (converted convert)
  | [] => rfl
  | (key, value) :: rest => by
      rw [walkFields, identitiesOfFields, identitiesOfFields, List.map_append,
        identitiesOfFields_walk rest]
      cases identityField key with
      | some ref =>
          simp only
          rw [fieldIdentities_convertEntry]
      | none =>
          simp only
          rw [identities_walk value]

theorem identitiesOfItems_walk : forall items : List JsonValue,
    identitiesOfItems (walkItems convert items) =
      (identitiesOfItems items).map (converted convert)
  | [] => rfl
  | item :: rest => by
      rw [walkItems, identitiesOfItems, identitiesOfItems, List.map_append,
        identitiesOfItems_walk rest, identities_walk item]

end

variable {convert back}

variable {ref : Option Ref}

theorem convertText_convertText {value : JsonValue}
    (h : forall text, textOf value = some text -> back ref (convert ref text) = text) :
    convertText back ref (convertText convert ref value) = value := by
  cases value with
  | text text =>
      show JsonValue.text (back ref (convert ref text)) = _
      rw [h text rfl]
  | _ => rfl

theorem convertEntry_convertEntry {value : JsonValue}
    (h : forall x, x ∈ fieldIdentities ref value -> back x.1 (convert x.1 x.2) = x.2) :
    convertEntry back ref (convertEntry convert ref value) = value := by
  have htext : forall entry, entry ∈ entriesOf value -> forall text, textOf entry = some text ->
      back ref (convert ref text) = text := by
    intro entry hentry text htext
    apply h (ref, text)
    exact List.mem_filterMap.mpr ⟨entry, hentry, by rw [htext]; rfl⟩
  cases value with
  | array items =>
      show JsonValue.array ((items.map (convertText convert ref)).map (convertText back ref)) = _
      rw [List.map_map]
      congr 1
      apply (List.map_congr_left ?_).trans (List.map_id items)
      exact fun entry hentry => convertText_convertText (htext entry hentry)
  | text text =>
      exact convertText_convertText (htext (.text text) List.mem_cons_self)
  | _ => rfl

mutual

theorem walk_walk : forall value : JsonValue,
    (forall x, x ∈ identities value -> back x.1 (convert x.1 x.2) = x.2) ->
      walk back (walk convert value) = value
  | .object fields, h => by
      rw [walk, walk, walkFields_walkFields fields h]
  | .array items, h => by
      rw [walk, walk, walkItems_walkItems items h]
  | .null, _ => rfl
  | .bool _, _ => rfl
  | .number _, _ => rfl
  | .text _, _ => rfl

theorem walkFields_walkFields : forall fields : Fields,
    (forall x, x ∈ identitiesOfFields fields -> back x.1 (convert x.1 x.2) = x.2) ->
      walkFields back (walkFields convert fields) = fields
  | [], _ => rfl
  | (key, value) :: rest, h => by
      have hrest : forall x, x ∈ identitiesOfFields rest ->
          back x.1 (convert x.1 x.2) = x.2 := by
        intro x hx
        apply h x
        rw [identitiesOfFields]
        exact List.mem_append_right _ hx
      have hfirst : forall x, x ∈ (match identityField key with
          | some ref => fieldIdentities ref value
          | none => identities value) -> back x.1 (convert x.1 x.2) = x.2 := by
        intro x hx
        apply h x
        rw [identitiesOfFields]
        exact List.mem_append_left _ hx
      rw [walkFields, walkFields, walkFields_walkFields rest hrest]
      cases hfield : identityField key with
      | some ref =>
          rw [hfield] at hfirst
          simp only
          rw [convertEntry_convertEntry hfirst]
      | none =>
          rw [hfield] at hfirst
          simp only
          rw [walk_walk value hfirst]

theorem walkItems_walkItems : forall items : List JsonValue,
    (forall x, x ∈ identitiesOfItems items -> back x.1 (convert x.1 x.2) = x.2) ->
      walkItems back (walkItems convert items) = items
  | [], _ => rfl
  | item :: rest, h => by
      have hfirst : forall x, x ∈ identities item -> back x.1 (convert x.1 x.2) = x.2 := by
        intro x hx
        apply h x
        rw [identitiesOfItems]
        exact List.mem_append_left _ hx
      have hrest : forall x, x ∈ identitiesOfItems rest -> back x.1 (convert x.1 x.2) = x.2 := by
        intro x hx
        apply h x
        rw [identitiesOfItems]
        exact List.mem_append_right _ hx
      rw [walkItems, walkItems, walk_walk item hfirst, walkItems_walkItems rest hrest]

end

end Walks

/-!
## References of a payload
-/

/-- An identity is known: of its kind, or as a rule or a range but not both. -/
def Known (mapping : Mapping) : Option Ref -> String -> Prop
  | some ref, identity => ((mapping ref).lookup identity).isSome = true
  | none, identity =>
      ((mapping .e).lookup identity).isSome ≠ ((mapping .r).lookup identity).isSome

/-- A text is a reference of its kind, or of a rule or a range. -/
def IsShort (mapping : Mapping) : Option Ref -> String -> Prop
  | some ref, text => exists identity, (mapping ref).lookup identity = some text
  | none, text => exists ref, (ref = .e ∨ ref = .r) ∧
      exists identity, (mapping ref).lookup identity = some text

theorem shortRef_ne (m n : Nat) : shortRef .e m ≠ shortRef .r n := by
  intro h
  have hlist := congrArg String.toList h
  simp [shortRef, Ref.letters] at hlist

theorem exists_shortRef {mapping : Mapping} (h : AllNumbered mapping) {ref : Ref}
    {identity short : String} (hlookup : (mapping ref).lookup identity = some short) :
    exists n, short = shortRef ref n := by
  rcases (h ref).exists_place ((h ref).mem_of_lookup hlookup) with ⟨n, hn, _⟩
  exact ⟨n, hn⟩

variable {wire : WirePayload}

theorem reverse_lookup (h : AllNumbered wire.mapping) {ref : Ref} {identity short : String} :
    (wire.reverse ref).lookup short = some identity <->
      (wire.mapping ref).lookup identity = some short :=
  (h ref).lookup_swap (shortRef_injective ref)

theorem reverse_lookup_eq_none (h : AllNumbered wire.mapping) {ref : Ref} {text : String}
    (hnot : forall identity, (wire.mapping ref).lookup identity ≠ some text) :
    (wire.reverse ref).lookup text = none := by
  cases hlookup : (wire.reverse ref).lookup text with
  | none =>
      rfl
  | some identity =>
      exact absurd ((reverse_lookup h).mp hlookup) (hnot identity)

theorem ruleOrRange_eq (table : Ref -> List (String × String)) (identity : String) :
    ruleOrRange table identity =
      ((table .e).lookup identity).toList ++ ((table .r).lookup identity).toList := by
  simp only [ruleOrRange, List.filterMap_cons, List.filterMap_nil]
  cases (table .e).lookup identity with
  | none =>
      cases (table .r).lookup identity with
      | none => rfl
      | some range => rfl
  | some rule =>
      cases (table .r).lookup identity with
      | none => rfl
      | some range => rfl

/-- The reference of a known identity leads back to it. -/
theorem restore_encode (h : AllNumbered wire.mapping) {identity : String}
    (hknown : Known wire.mapping ref identity) :
    wire.restore ref (encode wire.mapping ref identity) = identity := by
  cases ref with
  | some ref =>
      rcases Option.isSome_iff_exists.mp hknown with ⟨short, hshort⟩
      have hencode : encode wire.mapping (some ref) identity = short := by
        rw [encode, hshort]
        rfl
      rw [hencode, WirePayload.restore, (reverse_lookup h).mpr hshort]
  | none =>
      have hback : forall short, (wire.mapping .e).lookup identity = some short ∨
          (wire.mapping .r).lookup identity = some short ->
            wire.restore none short = identity := by
        intro short hshort
        have hselected : ruleOrRange wire.reverse short = [identity] := by
          rw [ruleOrRange_eq]
          rcases hshort with hrule | hrange
          · have hother : (wire.reverse .r).lookup short = none := by
              apply reverse_lookup_eq_none h
              intro other hother
              rcases exists_shortRef h hrule with ⟨m, hm⟩
              rcases exists_shortRef h hother with ⟨n, hn⟩
              exact shortRef_ne m n (hm.symm.trans hn)
            rw [(reverse_lookup h).mpr hrule, hother]
            rfl
          · have hother : (wire.reverse .e).lookup short = none := by
              apply reverse_lookup_eq_none h
              intro other hother
              rcases exists_shortRef h hrange with ⟨m, hm⟩
              rcases exists_shortRef h hother with ⟨n, hn⟩
              exact shortRef_ne n m (hn.symm.trans hm)
            rw [(reverse_lookup h).mpr hrange, hother]
            rfl
        rw [WirePayload.restore, hselected]
      have hselected := ruleOrRange_eq wire.mapping identity
      change ((wire.mapping .e).lookup identity).isSome ≠
        ((wire.mapping .r).lookup identity).isSome at hknown
      cases hrule : (wire.mapping .e).lookup identity with
      | none =>
          cases hrange : (wire.mapping .r).lookup identity with
          | none =>
              rw [hrule, hrange] at hknown
              exact absurd rfl hknown
          | some short =>
              rw [hrule, hrange] at hselected
              have hencode : encode wire.mapping none identity = short := by
                rw [encode, hselected]
                rfl
              rw [hencode]
              exact hback short (Or.inr hrange)
      | some short =>
          cases hrange : (wire.mapping .r).lookup identity with
          | none =>
              rw [hrule, hrange] at hselected
              have hencode : encode wire.mapping none identity = short := by
                rw [encode, hselected]
                rfl
              rw [hencode]
              exact hback short (Or.inl hrule)
          | some other =>
              rw [hrule, hrange] at hknown
              exact absurd rfl hknown

/-!
## New identities
-/

/-- A number without leading zeros. -/
def IsPositive : List Char -> Prop
  | [] => False
  | digit :: digits => ('1' ≤ digit ∧ digit ≤ '9') ∧ forall c, c ∈ digits -> '0' ≤ c ∧ c ≤ '9'

/-- A letter and a number, as an answer writes a new identity. -/
def IsSuffix (ref : Ref) (suffix : String) : Prop :=
  exists digits, suffix = ref.letters ++ String.ofList digits ∧ IsPositive digits

/-- The reference of a work unit of the request. -/
def IsUnit (wire : WirePayload) (unit : String) : Prop :=
  exists original, (wire.mapping .w).lookup original = some unit ∧
    original ∈ wire.originalWorkUnits

/-- A new identity of a known work unit. -/
def IsNew (wire : WirePayload) (ref : Ref) (unit suffix : String) : Prop :=
  ref ∈ WirePayload.declared ∧ IsUnit wire unit ∧ IsSuffix ref suffix

theorem isNewSuffix_iff {ref : Ref} {text : List Char} :
    WirePayload.isNewSuffix ref text = true <->
      exists digits, text = ref.letters.toList ++ digits ∧ IsPositive digits := by
  unfold WirePayload.isNewSuffix
  constructor
  · intro h
    cases hdrop : text.drop ref.letters.toList.length with
    | nil =>
        rw [hdrop] at h
        cases h
    | cons digit digits =>
        rw [hdrop] at h
        simp only [Bool.and_eq_true, decide_eq_true_eq, List.all_eq_true] at h
        rcases List.isPrefixOf_iff_prefix.mp h.1 with ⟨rest, hrest⟩
        refine ⟨rest, hrest.symm, ?_⟩
        rw [← hrest, List.drop_left] at hdrop
        rw [hdrop]
        exact h.2
  · rintro ⟨digits, rfl, hdigits⟩
    rw [List.drop_left]
    cases digits with
    | nil =>
        exact absurd hdigits id
    | cons digit digits =>
        simp only [Bool.and_eq_true, decide_eq_true_eq, List.all_eq_true]
        exact ⟨List.isPrefixOf_iff_prefix.mpr ⟨_, rfl⟩, hdigits⟩

end Wire

end Llm
end KnowledgeBrain
