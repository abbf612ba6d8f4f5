import KnowledgeBrain.Llm.References

/-!
# Answers with new identities

A new identity of a work unit of the request becomes an identity of that work
unit, and different ones stay different.  Whatever is neither new nor a
reference stays unbound.
-/

namespace KnowledgeBrain
namespace Llm

namespace Wire

open Foundation

variable {wire : WirePayload}

theorem colon_not_mem_digits (n : Nat) : ':' ∉ (toString n).toList := by
  intro hmem
  have hdigits : (toString n).toList = Nat.toDigits 10 n := Nat.toList_repr
  rw [hdigits] at hmem
  have hdigit := Nat.isDigit_of_mem_toDigits (by decide) (by decide) hmem
  exact absurd hdigit (by decide)

theorem colon_not_mem_shortRef (ref : Ref) (n : Nat) : ':' ∉ (shortRef ref n).toList := by
  intro hmem
  rw [shortRef, String.toList_append] at hmem
  rcases List.mem_append.mp hmem with hmem | hmem
  · cases ref <;> exact absurd hmem (by decide)
  · exact colon_not_mem_digits _ hmem

variable {ref : Ref}

theorem colon_not_mem_suffix {suffix : String} (h : IsSuffix ref suffix) :
    ':' ∉ suffix.toList := by
  rcases h with ⟨digits, rfl, hdigits⟩
  intro hmem
  rw [String.toList_append, String.toList_ofList] at hmem
  rcases List.mem_append.mp hmem with hmem | hmem
  · cases ref <;> exact absurd hmem (by decide)
  · cases digits with
    | nil =>
        cases hmem
    | cons digit digits =>
        rcases List.mem_cons.mp hmem with rfl | hmem
        · exact absurd hdigits.1.2 (by decide)
        · exact absurd (hdigits.2 ':' hmem).2 (by decide)

/-- The work units whose references an answer may use. -/
theorem namespaces_lookup (h : AllNumbered wire.mapping) {unit original : String} :
    wire.namespaces.lookup unit = some original <->
      (wire.mapping .w).lookup original = some unit ∧ original ∈ wire.originalWorkUnits := by
  have hreverse : ((wire.reverse .w).map Prod.fst).Nodup := by
    rw [WirePayload.reverse, List.map_map]
    show ((wire.mapping .w).map Prod.snd).Nodup
    rw [(h .w).labels]
    exact List.nodup_range.map (shortRef_injective .w)
  have hnodup : (wire.namespaces.map Prod.fst).Nodup :=
    hreverse.sublist (List.filter_sublist.map Prod.fst)
  constructor
  · intro hlookup
    have hmem := @Table.mem_rows_of_lookup String String unit original _ ⟨_, hnodup⟩ hlookup
    rcases List.mem_filter.mp hmem with ⟨hmem, horiginal⟩
    exact ⟨(reverse_lookup h).mp (Table.lookup_rows_of_mem hreverse hmem),
      of_decide_eq_true horiginal⟩
  · rintro ⟨hlookup, horiginal⟩
    apply Table.lookup_rows_of_mem hnodup
    refine List.mem_filter.mpr ⟨?_, decide_eq_true horiginal⟩
    exact @Table.mem_rows_of_lookup String String unit original _ ⟨_, hreverse⟩
      ((reverse_lookup h).mpr hlookup)

theorem parts_of_colon {unit rest : List Char} (h : ':' ∉ unit) :
    (unit ++ ':' :: rest).takeWhile (· ≠ ':') = unit ∧
      (unit ++ ':' :: rest).dropWhile (· ≠ ':') = ':' :: rest := by
  induction unit with
  | nil =>
      exact ⟨rfl, rfl⟩
  | cons c unit ih =>
      have hc : c ≠ ':' := fun heq => h (heq ▸ List.mem_cons_self)
      have hrest := ih fun hmem => h (List.mem_cons_of_mem c hmem)
      rw [List.cons_append, List.takeWhile_cons_of_pos (by simpa using hc),
        List.dropWhile_cons_of_pos (by simpa using hc), hrest.1]
      exact ⟨rfl, hrest.2⟩

/-- A new identity is one of its work unit. -/
theorem newIdentity_of_isNew (h : AllNumbered wire.mapping) {unit suffix : String}
    (hnew : IsNew wire ref unit suffix) :
    exists original, (wire.mapping .w).lookup original = some unit ∧
      wire.newIdentity ref (unit ++ ":" ++ suffix) = some (original ++ ":" ++ suffix) := by
  rcases hnew with ⟨hdeclared, ⟨original, hunit, horiginal⟩, hsuffix⟩
  refine ⟨original, hunit, ?_⟩
  have hcolon : ':' ∉ unit.toList := by
    rcases exists_shortRef h hunit with ⟨n, rfl⟩
    exact colon_not_mem_shortRef .w n
  have hlist : (unit ++ ":" ++ suffix).toList = unit.toList ++ ':' :: suffix.toList := by
    rw [String.toList_append, String.toList_append]
    simp
  have hparts := @parts_of_colon unit.toList suffix.toList hcolon
  have hform : WirePayload.isNewSuffix ref suffix.toList = true := by
    rcases hsuffix with ⟨digits, rfl, hdigits⟩
    apply isNewSuffix_iff.mpr
    exact ⟨digits, by rw [String.toList_append, String.toList_ofList], hdigits⟩
  unfold WirePayload.newIdentity
  rw [hlist, hparts.1, hparts.2]
  simp only [if_pos (And.intro hdeclared hform), String.ofList_toList,
    (namespaces_lookup h).mpr ⟨hunit, horiginal⟩]
  rfl

/-- What is taken for a new identity is one. -/
theorem isNew_of_newIdentity (h : AllNumbered wire.mapping) {identity restored : String}
    (hnew : wire.newIdentity ref identity = some restored) :
    exists unit suffix, identity = unit ++ ":" ++ suffix ∧ IsNew wire ref unit suffix := by
  unfold WirePayload.newIdentity at hnew
  have hjoin := @List.takeWhile_append_dropWhile Char (fun c => decide (c ≠ ':')) identity.toList
  have hhead := List.head?_dropWhile_not (fun c => decide (c ≠ ':')) identity.toList
  cases hdrop : identity.toList.dropWhile fun c => decide (c ≠ ':') with
  | nil =>
      rw [hdrop] at hnew
      cases hnew
  | cons colon suffix =>
      rw [hdrop] at hnew hjoin hhead
      have hcolon : colon = ':' := by simpa using hhead
      by_cases hform : ref ∈ WirePayload.declared ∧ WirePayload.isNewSuffix ref suffix = true
      · simp only [if_pos hform] at hnew
        rcases Option.map_eq_some_iff.mp hnew with ⟨original, hlookup, _⟩
        refine ⟨String.ofList (identity.toList.takeWhile fun c => decide (c ≠ ':')),
          String.ofList suffix, ?_, hform.1, ⟨original, (namespaces_lookup h).mp hlookup⟩, ?_⟩
        · apply String.toList_injective
          rw [hcolon] at hjoin
          simpa using hjoin.symm
        · rcases isNewSuffix_iff.mp hform.2 with ⟨digits, hdigits, hpositive⟩
          refine ⟨digits, ?_, hpositive⟩
          rw [hdigits, String.ofList_append, String.ofList_toList]
      · simp only [if_neg hform] at hnew
        cases hnew

/-- References and new identities apart, everything stays unbound. -/
theorem restore_unbound (h : AllNumbered wire.mapping) {ref : Option Ref} {identity : String}
    (hshort : ¬ IsShort wire.mapping ref identity)
    (hnew : ¬ exists kind unit suffix, ref = some kind ∧ identity = unit ++ ":" ++ suffix ∧
      IsNew wire kind unit suffix) : wire.restore ref identity = unbound identity := by
  cases ref with
  | none =>
      have hnone : forall kind, kind = .e ∨ kind = .r ->
          (wire.reverse kind).lookup identity = none := by
        intro kind hkind
        apply reverse_lookup_eq_none h
        intro original horiginal
        exact hshort ⟨kind, hkind, original, horiginal⟩
      have hselected : ruleOrRange wire.reverse identity = [] := by
        rw [ruleOrRange_eq, hnone .e (Or.inl rfl), hnone .r (Or.inr rfl)]
        rfl
      rw [WirePayload.restore, hselected]
  | some kind =>
      have hlookup : (wire.reverse kind).lookup identity = none := by
        apply reverse_lookup_eq_none h
        exact fun original horiginal => hshort ⟨original, horiginal⟩
      have hfresh : wire.newIdentity kind identity = none := by
        cases hrun : wire.newIdentity kind identity with
        | none =>
            rfl
        | some restored =>
            rcases isNew_of_newIdentity h hrun with ⟨unit, suffix, hparts, hisNew⟩
            exact absurd ⟨kind, unit, suffix, rfl, hparts, hisNew⟩ hnew
      rw [WirePayload.restore, hlookup, hfresh]
      rfl

theorem restore_of_isNew (h : AllNumbered wire.mapping) {unit suffix : String}
    (hnew : IsNew wire ref unit suffix) :
    exists original, (wire.mapping .w).lookup original = some unit ∧
      wire.restore (some ref) (unit ++ ":" ++ suffix) = original ++ ":" ++ suffix := by
  rcases newIdentity_of_isNew h hnew with ⟨original, hunit, hrun⟩
  refine ⟨original, hunit, ?_⟩
  have hlookup : (wire.reverse ref).lookup (unit ++ ":" ++ suffix) = none := by
    apply reverse_lookup_eq_none h
    intro identity hidentity
    rcases exists_shortRef h hidentity with ⟨n, hn⟩
    apply colon_not_mem_shortRef ref n
    rw [← hn, String.toList_append, String.toList_append]
    simp
  rw [WirePayload.restore, hlookup, hrun]
  rfl

theorem parts_of_last_colon {front front' back back' : List Char} (h : ':' ∉ back)
    (h' : ':' ∉ back') (heq : front ++ ':' :: back = front' ++ ':' :: back') :
    front = front' ∧ back = back' := by
  have hreverse : back.reverse ++ ':' :: front.reverse =
      back'.reverse ++ ':' :: front'.reverse := by
    have hflip := congrArg List.reverse heq
    simpa using hflip
  have hfirst := @parts_of_colon back.reverse front.reverse (by simpa using h)
  have hsecond := @parts_of_colon back'.reverse front'.reverse (by simpa using h')
  rw [hreverse] at hfirst
  have hback := hfirst.1.symm.trans hsecond.1
  have hfront := hfirst.2.symm.trans hsecond.2
  constructor
  · exact List.reverse_injective (List.cons.inj hfront).2
  · exact List.reverse_injective hback

/-- Different new identities stay different. -/
theorem restore_isNew_injective (h : AllNumbered wire.mapping) {ref ref' : Ref}
    {unit unit' suffix suffix' : String} (hnew : IsNew wire ref unit suffix)
    (hnew' : IsNew wire ref' unit' suffix')
    (heq : wire.restore (some ref) (unit ++ ":" ++ suffix) =
      wire.restore (some ref') (unit' ++ ":" ++ suffix')) : unit = unit' ∧ suffix = suffix' := by
  rcases restore_of_isNew h hnew with ⟨original, hunit, hrestore⟩
  rcases restore_of_isNew h hnew' with ⟨original', hunit', hrestore'⟩
  rw [hrestore, hrestore'] at heq
  have hlist : original.toList ++ ':' :: suffix.toList =
      original'.toList ++ ':' :: suffix'.toList := by
    have htexts := congrArg String.toList heq
    simpa using htexts
  have hparts := parts_of_last_colon (colon_not_mem_suffix hnew.2.2)
    (colon_not_mem_suffix hnew'.2.2) hlist
  have horiginal : original = original' := String.toList_injective hparts.1
  rw [horiginal, hunit'] at hunit
  exact ⟨(Option.some.inj hunit).symm, String.toList_injective hparts.2⟩

end Wire

/-!
# Short references are faithful

References of a request lead back to its identities, and the frozen basis of a
batch has the same references in every request about it.
-/

namespace Wire

open Foundation
open JsonValue (Fields Distinct Same dumps sortKeys sortFields sortItems withField
  lookup_withField lookup_withField_of_ne lookup_filter_ne)

/-!
## The order of the keys
-/

variable {digest : List Char -> String} {task : Task}

theorem hashable_sortKeys (value : JsonValue) : hashable (sortKeys value) = hashable value := by
  cases value <;> rfl

theorem unitId_sortKeys {value : JsonValue} (h : Distinct value) :
    unitId (sortKeys value) = unitId value := by
  cases value with
  | object fields =>
      show ((sortFields fields).lookup "work_unit_id").bind hashable = _
      rw [JsonValue.lookup_sortFields h.1]
      show _ = (fields.lookup "work_unit_id").bind hashable
      cases fields.lookup "work_unit_id" with
      | none => rfl
      | some value => exact hashable_sortKeys value
  | _ => rfl

theorem mapM_unitId_sortItems {units : List JsonValue} (h : JsonValue.DistinctItems units) :
    (sortItems units).mapM unitId = units.mapM unitId := by
  induction units with
  | nil =>
      rfl
  | cons unit units ih =>
      rw [sortItems, List.mapM_cons, List.mapM_cons, unitId_sortKeys h.1, ih h.2]

theorem isEmpty_sortFields (fields : Fields) : (sortFields fields).isEmpty = fields.isEmpty := by
  have hlength : (sortFields fields).length = fields.length := by
    rw [sortFields, length_sortBy, JsonValue.sortValues_eq, List.length_map]
  cases fields with
  | nil =>
      rfl
  | cons field rest =>
      cases hsorted : sortFields (field :: rest) with
      | nil =>
          rw [hsorted] at hlength
          cases hlength
      | cons first others => rfl

theorem unitIds_object (fields : Fields) :
    unitIds (.object fields) = if fields.isEmpty then some [] else none := by
  cases fields <;> rfl

theorem unitIds_sortKeys {value : JsonValue} (h : Distinct value) :
    unitIds (sortKeys value) = unitIds value := by
  cases value with
  | array units =>
      show ((sortItems units).mapM unitId).map List.flatten = _
      rw [mapM_unitId_sortItems h]
      rfl
  | object fields =>
      show unitIds (.object (sortFields fields)) = _
      rw [unitIds_object, unitIds_object, isEmpty_sortFields]
  | _ => rfl

theorem truthy_sortKeys (value : JsonValue) : truthy (sortKeys value) = truthy value := by
  cases value with
  | array items =>
      cases items with
      | nil => rfl
      | cons item rest => rfl
  | object fields =>
      show (!(sortFields fields).isEmpty) = !fields.isEmpty
      rw [isEmpty_sortFields]
  | _ => rfl

variable {payload : Fields}

theorem workUnitsOf_sortFields (h : Distinct (.object payload)) :
    workUnitsOf (sortFields payload) = workUnitsOf payload := by
  have hdistinct : forall name value, payload.lookup name = some value -> Distinct value := by
    intro name value hlookup
    have hmem := @Table.mem_rows_of_lookup String JsonValue name value _ ⟨payload, h.1⟩ hlookup
    exact JsonValue.distinctFields_iff.mp h.2 _ hmem
  have hunits : unitIds (((sortFields payload).lookup "work_units").getD (.array [])) =
      unitIds ((payload.lookup "work_units").getD (.array [])) := by
    rw [JsonValue.lookup_sortFields h.1]
    cases hlookup : payload.lookup "work_units" with
    | none => rfl
    | some value => exact unitIds_sortKeys (hdistinct _ value hlookup)
  unfold workUnitsOf
  rw [hunits, JsonValue.lookup_sortFields h.1]
  cases payload.lookup "work_unit_id" with
  | none => rfl
  | some value =>
      simp only [Option.map_some]
      rw [truthy_sortKeys, hashable_sortKeys]

theorem isSecondVersion_eq (payload : Fields) :
    isSecondVersion payload = match (payload.lookup "schema_version").map sortKeys with
      | some (.number token) => token = "2" || token = "2.0"
      | _ => false := by
  unfold isSecondVersion
  cases payload.lookup "schema_version" with
  | none => rfl
  | some value => cases value <;> rfl

/-- A batch is prepared from its form with sorted keys. -/
theorem prepare_eq_of_sortFields {payload payload' : Fields} (h : Distinct (.object payload))
    (h' : Distinct (.object payload')) (hsorted : sortFields payload = sortFields payload')
    (hbatched : isBatched .verify payload = true) (hversion : isSecondVersion payload = true) :
    prepare digest .verify payload' = prepare digest .verify payload := by
  have hunits : workUnitsOf payload' = workUnitsOf payload := by
    rw [← workUnitsOf_sortFields h', ← workUnitsOf_sortFields h, hsorted]
  have hlookup : forall name, (payload'.lookup name).map sortKeys =
      (payload.lookup name).map sortKeys := by
    intro name
    rw [← JsonValue.lookup_sortFields h'.1, ← JsonValue.lookup_sortFields h.1, hsorted]
  have hversion' : isSecondVersion payload' = true := by
    rw [isSecondVersion_eq, hlookup, ← isSecondVersion_eq]
    exact hversion
  have hbatched' : isBatched .verify payload' = true := by
    have hsame := congrArg Option.isSome (hlookup "work_units")
    rw [Option.isSome_map, Option.isSome_map] at hsame
    unfold isBatched at hbatched ⊢
    rw [hsame]
    exact hbatched
  have hshown : shown digest true payload' = shown digest true payload := by
    have hcanonical : sortKeys (.object payload') = sortKeys (.object payload) := by
      show JsonValue.object (sortFields payload') = .object (sortFields payload)
      rw [hsorted]
    unfold shown
    rw [hcanonical, if_pos rfl, if_pos rfl, hsorted]
  unfold prepare
  rw [hunits, hversion, hversion', hbatched, hbatched', hshown]
  cases workUnitsOf payload with
  | none => rfl
  | some units => rfl

/-!
## The frozen basis
-/

theorem lookup_modifyField {name : String} {f : JsonValue -> Option JsonValue}
    {fields modified : Fields} (hrun : modifyField name f fields = some modified) :
    (forall other, other ≠ name -> modified.lookup other = fields.lookup other) ∧
      (fields.lookup name).bind f = modified.lookup name := by
  unfold modifyField at hrun
  cases hlookup : fields.lookup name with
  | none =>
      rw [hlookup] at hrun
      cases hrun
      exact ⟨fun other _ => rfl, hlookup.symm⟩
  | some value =>
      rw [hlookup] at hrun
      rcases Option.bind_eq_some_iff.mp hrun with ⟨value', hvalue, hrun⟩
      cases hrun
      refine ⟨fun other hother => lookup_withField_of_ne hother value' fields, ?_⟩
      rw [lookup_withField]
      exact hvalue

/-- Batches with the same basis show the same basis. -/
theorem basis_eq {payload payload' fields fields' : Fields}
    (hnodup : (payload.map Prod.fst).Nodup) (hnodup' : (payload'.map Prod.fst).Nodup)
    (hsame : forall name, name ∈ basisFields ->
      (payload.lookup name).map sortKeys = (payload'.lookup name).map sortKeys)
    (hshown : shown digest true payload = some fields)
    (hshown' : shown digest true payload' = some fields') : basis fields = basis fields' := by
  have hstart : forall text text' name, name ∈ basisFields ->
      ((withField "request_ref" text (sortFields payload)).filter
        fun field => field.1 ≠ "run_id").lookup name =
      ((withField "request_ref" text' (sortFields payload')).filter
        fun field => field.1 ≠ "run_id").lookup name := by
    intro text text' name hname
    have hrun : name ≠ "run_id" := by
      rintro rfl
      revert hname
      decide
    have href : name ≠ "request_ref" := by
      rintro rfl
      revert hname
      decide
    rw [lookup_filter_ne hrun, lookup_filter_ne hrun, lookup_withField_of_ne href,
      lookup_withField_of_ne href, JsonValue.lookup_sortFields hnodup,
      JsonValue.lookup_sortFields hnodup', hsame name hname]
  unfold shown at hshown hshown'
  rw [if_pos rfl] at hshown hshown'
  have hfirst := lookup_modifyField hshown
  have hsecond := lookup_modifyField hshown'
  apply List.map_congr_left
  intro name hname
  congr 1
  by_cases hviews : name = "source_views"
  · subst hviews
    rw [← hfirst.2, ← hsecond.2, hstart _ _ _ hname]
  · rw [hfirst.1 name hviews, hsecond.1 name hviews, hstart _ _ _ hname]

theorem mappingOf_basis (fields : Fields) {identity : Ref × String}
    (hmem : identity ∈ (basis fields).flatMap collected) :
    exists short, (((basis fields).flatMap collected).foldl assignOne (fun _ => [])
        identity.1).lookup identity.2 = some short ∧
      (mappingOf true fields identity.1).lookup identity.2 = some short := by
  rcases exists_lookup_foldl hmem fun _ => [] with ⟨short, hshort⟩
  refine ⟨short, hshort, ?_⟩
  rw [mappingOf_eq, if_pos rfl, List.foldl_append]
  exact lookup_foldl_of_some hshort _

/-!
## Faithful requests
-/

/-- What the references of a request are. -/
structure Faithful (wire : WirePayload) : Prop where
  injective : forall ref identity identity' short,
    (wire.mapping ref).lookup identity = some short ->
      (wire.mapping ref).lookup identity' = some short -> identity = identity'
  roundTrip : forall value,
    (forall x, x ∈ identities value -> Known wire.mapping x.1 x.2) ->
      wire.decode (walk (encode wire.mapping) value) = value
  answers : forall response, identities (wire.decode response) =
    (identities response).map fun x => (x.1, wire.restore x.1 x.2)
  unbound : forall ref identity, ¬ IsShort wire.mapping ref identity ->
    (¬ exists kind unit suffix, ref = some kind ∧ identity = unit ++ ":" ++ suffix ∧
      IsNew wire kind unit suffix) -> wire.restore ref identity = "!unbound:" ++ identity
  declared : forall ref ref' unit unit' suffix suffix', IsNew wire ref unit suffix ->
    IsNew wire ref' unit' suffix' -> (unit, suffix) ≠ (unit', suffix') ->
      wire.restore (some ref) (unit ++ ":" ++ suffix) ≠
        wire.restore (some ref') (unit' ++ ":" ++ suffix')

theorem enabled_of_prepare {wire : WirePayload} (hrun : prepare digest task payload = some wire)
    (henabled : wire.enabled = true) :
    exists fields, shown digest (isBatched task payload) payload = some fields ∧
      wire.mapping = mappingOf (isBatched task payload) fields ∧
        isSecondVersion payload = true := by
  unfold prepare at hrun
  rcases Option.bind_eq_some_iff.mp hrun with ⟨units, _, hrun⟩
  by_cases hversion : task ∈ [Task.extract, .verify, .outline] ∧ isSecondVersion payload = true
  · rw [if_pos hversion] at hrun
    rcases Option.bind_eq_some_iff.mp hrun with ⟨fields, hshown, hrun⟩
    cases hrun
    exact ⟨fields, hshown, rfl, hversion.2⟩
  · rw [if_neg hversion] at hrun
    cases hrun
    cases henabled

theorem faithful_of_prepare {wire : WirePayload} (hrun : prepare digest task payload = some wire)
    (henabled : wire.enabled = true) :
    Faithful wire := by
  rcases enabled_of_prepare hrun henabled with ⟨fields, _, hmapping, _⟩
  have hnumbered : AllNumbered wire.mapping := by
    rw [hmapping]
    exact allNumbered_mappingOf _ fields
  have hdecode : forall response, wire.decode response = walk wire.restore response :=
    fun response => if_pos henabled
  constructor
  · intro ref identity identity' short h h'
    exact (hnumbered ref).lookup_injective (shortRef_injective ref) h h'
  · intro value hknown
    rw [hdecode]
    exact walk_walk value fun x hx => restore_encode hnumbered (hknown x hx)
  · intro response
    rw [hdecode]
    exact identities_walk wire.restore response
  · exact fun ref identity hshort hnew => restore_unbound hnumbered hshort hnew
  · intro ref ref' unit unit' suffix suffix' hnew hnew' hne heq
    rcases restore_isNew_injective hnumbered hnew hnew' heq with ⟨rfl, rfl⟩
    exact hne rfl

/-- The references of requests are faithful, and those of a basis are the same in every request
about it. -/
theorem short_references (digest : List Char -> String) :
    (forall task payload wire, prepare digest task payload = some wire ->
      wire.enabled = true -> Faithful wire) ∧
    (forall payload payload' wire, Distinct (.object payload) -> Distinct (.object payload') ->
      Same (.object payload) (.object payload') -> isBatched .verify payload = true ->
        prepare digest .verify payload = some wire -> wire.enabled = true ->
          prepare digest .verify payload' = some wire) ∧
    forall payload payload' wire wire' fields, (payload.map Prod.fst).Nodup ->
      (payload'.map Prod.fst).Nodup -> isBatched .verify payload = true ->
        isBatched .verify payload' = true -> prepare digest .verify payload = some wire ->
          prepare digest .verify payload' = some wire' -> wire.enabled = true ->
            wire'.enabled = true ->
              (forall name, name ∈ basisFields ->
                (payload.lookup name).map sortKeys = (payload'.lookup name).map sortKeys) ->
                shown digest true payload = some fields ->
                  forall identity, identity ∈ (basis fields).flatMap collected ->
                    exists short, (wire.mapping identity.1).lookup identity.2 = some short ∧
                      (wire'.mapping identity.1).lookup identity.2 = some short := by
  refine ⟨?_, ?_, ?_⟩
  · exact fun task payload wire hrun henabled => faithful_of_prepare hrun henabled
  · intro payload payload' wire h h' hsame hbatched hrun henabled
    rcases enabled_of_prepare hrun henabled with ⟨_, _, _, hversion⟩
    have hsorted := JsonValue.sortKeys_eq_of_same _ _ h h' hsame
    rw [prepare_eq_of_sortFields h h' (JsonValue.object.inj hsorted) hbatched hversion]
    exact hrun
  · intro payload payload' wire wire' fields hnodup hnodup' hbatched hbatched' hrun hrun' henabled
      henabled' hsame hshown identity hmem
    rcases enabled_of_prepare hrun henabled with ⟨first, hfirst, hmapping, _⟩
    rcases enabled_of_prepare hrun' henabled' with ⟨second, hsecond, hmapping', _⟩
    rw [hbatched] at hfirst hmapping
    rw [hbatched'] at hsecond hmapping'
    rw [hshown] at hfirst
    cases hfirst
    have hbasis := basis_eq hnodup hnodup' hsame hshown hsecond
    rcases mappingOf_basis fields hmem with ⟨short, hshort, hlookup⟩
    rw [hbasis] at hmem hshort
    rcases mappingOf_basis second hmem with ⟨short', hshort', hlookup'⟩
    rw [hshort] at hshort'
    cases hshort'
    refine ⟨short, ?_, ?_⟩
    · rw [hmapping]
      exact hlookup
    · rw [hmapping']
      exact hlookup'

/-- A batch of one work unit about one range. -/
def titleBatch : Fields :=
  [("schema_version", .number "2"),
    ("work_units", .array [.object [("work_unit_id", .text "associate-title")]]),
    ("issues", .array [.object [("issue_id", .text "issue-title"),
      ("range_id", .text "range-title")]])]

/-- The batch in its second round. -/
def secondRound : Fields :=
  ("round", .number "1") :: titleBatch

def enabledBy (payload : Fields) : Bool :=
  (prepare (fun _ => "digest") .verify payload).any fun wire => wire.enabled

theorem prepare_of_enabledBy {payload : Fields} (h : enabledBy payload = true) :
    exists wire, prepare (fun _ => "digest") .verify payload = some wire ∧ wire.enabled = true := by
  unfold enabledBy at h
  cases hrun : prepare (fun _ => "digest") .verify payload with
  | none =>
      rw [hrun] at h
      cases h
  | some wire =>
      rw [hrun] at h
      exact ⟨wire, rfl, h⟩

theorem titleBatch_faithful : exists wire wire',
    prepare (fun _ => "digest") .verify titleBatch = some wire ∧ Faithful wire ∧
      prepare (fun _ => "digest") .verify titleBatch.reverse = some wire ∧
      prepare (fun _ => "digest") .verify secondRound = some wire' ∧
      exists short, (wire.mapping .r).lookup "range-title" = some short ∧
        (wire'.mapping .r).lookup "range-title" = some short := by
  obtain ⟨wire, hrun, henabled⟩ :=
    prepare_of_enabledBy (show enabledBy titleBatch = true by decide +kernel)
  obtain ⟨wire', hrun', henabled'⟩ :=
    prepare_of_enabledBy (show enabledBy secondRound = true by decide +kernel)
  obtain ⟨hfaithful, hsame, hbasis⟩ := short_references fun _ => "digest"
  refine ⟨wire, wire', hrun, hfaithful .verify titleBatch wire hrun henabled, ?_, hrun', ?_⟩
  · apply hsame titleBatch titleBatch.reverse wire _ _ _ (by decide) hrun henabled
    · simp [titleBatch, JsonValue.Distinct, JsonValue.DistinctFields, JsonValue.DistinctItems]
    · simp [titleBatch, JsonValue.Distinct, JsonValue.DistinctFields, JsonValue.DistinctItems]
    · exact ⟨rfl, ⟨_, rfl, rfl⟩, ⟨_, rfl, ⟨rfl, ⟨_, rfl, rfl⟩, trivial⟩, trivial⟩,
        ⟨_, rfl, ⟨rfl, ⟨_, rfl, rfl⟩, ⟨_, rfl, rfl⟩, trivial⟩, trivial⟩, trivial⟩
  · apply hbasis titleBatch secondRound wire wire' _ (by decide) (by decide) (by decide) (by decide)
      hrun hrun' henabled henabled' _ rfl (.r, "range-title")
    · decide
    · intro name hname
      have hne : name ≠ "round" := fun heq => absurd (heq ▸ hname) (by decide)
      rw [secondRound, List.lookup_cons, beq_false_of_ne hne]

end Wire

end Llm
end KnowledgeBrain
