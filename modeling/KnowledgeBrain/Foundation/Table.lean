import Mathlib.Data.List.Basic
import Mathlib.Data.List.Nodup
import Mathlib.Data.List.Perm.Subperm

/-!
# Keyed tables

A table is a list of keyed rows whose keys are distinct, the way a relation
with a primary key is stored.  The operations are the statements a
transactional program issues: insert unless the key is taken, insert or
update, update the rows that match, delete the rows that match.

Every operation is described by what a later lookup returns, so that a proof
about a program never has to look at the order of the rows.
-/

namespace KnowledgeBrain
namespace Foundation

/-- Rows addressed by distinct keys. -/
structure Table (K V : Type) where
  rows : List (K × V)
  nodup : (rows.map Prod.fst).Nodup

namespace Table

variable {K V : Type}

def empty : Table K V where
  rows := []
  nodup := by simp

@[ext]
theorem ext {s t : Table K V} (hrows : s.rows = t.rows) : s = t := by
  cases s
  cases t
  cases hrows
  rfl

variable {k : K} {rows : List (K × V)} {v : V}

theorem lookup_rows_of_mem [BEq K] [LawfulBEq K] (hnodup : (rows.map Prod.fst).Nodup)
    (hmem : (k, v) ∈ rows) :
    rows.lookup k = some v := by
  induction rows with
  | nil =>
      cases hmem
  | cons row rest ih =>
      obtain ⟨k', v'⟩ := row
      rw [List.map_cons, List.nodup_cons] at hnodup
      rcases List.mem_cons.mp hmem with heq | hrest
      · cases heq
        exact List.lookup_cons_self
      · have hne : k ≠ k' := by
          intro hk
          apply hnodup.1
          subst hk
          exact List.mem_map.mpr ⟨(k, v), hrest, rfl⟩
        rw [List.lookup_cons, beq_eq_false_iff_ne.mpr hne]
        exact ih hnodup.2 hrest

variable [DecidableEq K]

def lookup (t : Table K V) (k : K) : Option V :=
  t.rows.lookup k

@[simp]
theorem lookup_empty (k : K) : (empty : Table K V).lookup k = none := rfl

variable {t : Table K V}

theorem mem_rows_of_lookup (hlookup : t.lookup k = some v) : (k, v) ∈ t.rows := by
  obtain ⟨before, after, hrows, _⟩ := List.lookup_eq_some_iff.mp hlookup
  rw [hrows]
  simp

theorem lookup_eq_some_iff_mem :
    t.lookup k = some v <-> (k, v) ∈ t.rows :=
  ⟨mem_rows_of_lookup, lookup_rows_of_mem t.nodup⟩

theorem not_mem_keys_of_lookup_none (hnone : t.lookup k = none) : k ∉ t.rows.map Prod.fst := by
  intro hmem
  obtain ⟨⟨k', v⟩, hrow, hk⟩ := List.mem_map.mp hmem
  change k' = k at hk
  subst hk
  rw [lookup_eq_some_iff_mem.mpr hrow] at hnone
  cases hnone

/-!
# Updating rows in place

An update rewrites values and never keys, so the table stays well formed
whatever the new values are.
-/

def mapRows (t : Table K V) (f : K -> V -> V) : Table K V where
  rows := t.rows.map fun row => (row.1, f row.1 row.2)
  nodup := by
    rw [List.map_map]
    exact t.nodup

omit [DecidableEq K] in
theorem mapRows_rows (t : Table K V) (f : K -> V -> V) :
    (t.mapRows f).rows = t.rows.map fun row => (row.1, f row.1 row.2) := rfl

theorem lookup_map_rows {W : Type} (rows : List (K × V)) (f : K -> V -> W) (k : K) :
    (rows.map fun row => (row.1, f row.1 row.2)).lookup k =
      (rows.lookup k).map (f k) := by
  induction rows with
  | nil =>
      rfl
  | cons row rest ih =>
      obtain ⟨k', v⟩ := row
      by_cases hk : k = k'
      · subst hk
        simp
      · simp [List.lookup_cons, beq_eq_false_iff_ne.mpr hk, ih]

@[simp]
theorem lookup_mapRows (t : Table K V) (f : K -> V -> V) (k : K) :
    (t.mapRows f).lookup k = (t.lookup k).map (f k) :=
  lookup_map_rows t.rows f k

theorem mapRows_eq_self {f : K -> V -> V} (hfix : forall k v, t.lookup k = some v -> f k v = v) :
    t.mapRows f = t := by
  apply ext
  rw [mapRows_rows]
  conv_rhs => rw [← List.map_id t.rows]
  apply List.map_congr_left
  intro row hrow
  obtain ⟨k, v⟩ := row
  rw [id_eq]
  rw [hfix k v (lookup_eq_some_iff_mem.mpr hrow)]

def modify (t : Table K V) (k : K) (f : V -> V) : Table K V :=
  t.mapRows fun k' v => if k' = k then f v else v

@[simp]
theorem lookup_modify_self (t : Table K V) (k : K) (f : V -> V) :
    (t.modify k f).lookup k = (t.lookup k).map f := by
  simp [modify]

theorem lookup_modify_of_ne {k k' : K} (t : Table K V) (f : V -> V)
    (hne : k' ≠ k) : (t.modify k f).lookup k' = t.lookup k' := by
  simp [modify, hne]

theorem lookup_modify (t : Table K V) (k k' : K) (f : V -> V) :
    (t.modify k f).lookup k' =
      if k' = k then (t.lookup k').map f else t.lookup k' := by
  by_cases hk : k' = k
  · subst hk
    simp
  · simp [hk, lookup_modify_of_ne t f hk]

theorem lookup_modify_cases {k k' : K} {f : V -> V} {v' : V}
    (hlookup : (t.modify k f).lookup k' = some v') :
    k' = k ∧ (exists v, t.lookup k = some v ∧ v' = f v) ∨
      k' ≠ k ∧ t.lookup k' = some v' := by
  rw [lookup_modify] at hlookup
  by_cases hk : k' = k
  · subst hk
    rw [if_pos rfl, Option.map_eq_some_iff] at hlookup
    obtain ⟨v, hv, heq⟩ := hlookup
    exact Or.inl ⟨rfl, v, hv, heq.symm⟩
  · rw [if_neg hk] at hlookup
    exact Or.inr ⟨hk, hlookup⟩

theorem modify_eq_self {f : V -> V} (hfix : forall v, t.lookup k = some v -> f v = v) :
    t.modify k f = t := by
  apply mapRows_eq_self
  intro k' v hlookup
  by_cases hk : k' = k
  · subst hk
    simp [hfix v hlookup]
  · simp [hk]

/-!
# Inserting rows

`insertNew` is an insertion that does nothing on a conflict; `upsert` updates
the conflicting row instead.
-/

def contains (t : Table K V) (k : K) : Bool :=
  (t.lookup k).isSome

def cons (t : Table K V) (k : K) (v : V) (hnone : t.lookup k = none) :
    Table K V where
  rows := (k, v) :: t.rows
  nodup := by
    rw [List.map_cons, List.nodup_cons]
    exact ⟨not_mem_keys_of_lookup_none hnone, t.nodup⟩

theorem lookup_cons (t : Table K V) (k : K) (v : V) (hnone : t.lookup k = none)
    (k' : K) :
    (t.cons k v hnone).lookup k' = if k' = k then some v else t.lookup k' := by
  unfold lookup cons
  by_cases hk : k' = k
  · subst hk
    simp
  · simp [List.lookup_cons, beq_eq_false_iff_ne.mpr hk, hk]

def insertNew (t : Table K V) (k : K) (v : V) : Table K V :=
  if hnone : t.lookup k = none then t.cons k v hnone else t

theorem lookup_insertNew (t : Table K V) (k k' : K) (v : V) :
    (t.insertNew k v).lookup k' =
      if k' = k then some ((t.lookup k).getD v) else t.lookup k' := by
  unfold insertNew
  by_cases hnone : t.lookup k = none
  · rw [dif_pos hnone, lookup_cons, hnone]
    rfl
  · rw [dif_neg hnone]
    obtain ⟨old, hold⟩ := Option.ne_none_iff_exists'.mp hnone
    by_cases hk : k' = k
    · subst hk
      simp [hold]
    · simp [hk]

theorem insertNew_of_contains {old : V} (v : V) (hold : t.lookup k = some old) :
    t.insertNew k v = t := by
  unfold insertNew
  rw [dif_neg]
  rw [hold]
  simp

theorem rows_insertNew (hnone : t.lookup k = none) :
    (t.insertNew k v).rows = (k, v) :: t.rows := by
  unfold insertNew
  rw [dif_pos hnone]
  rfl

theorem lookup_insertNew_eq_or (t : Table K V) (k k' : K) (v : V) :
    (t.insertNew k v).lookup k' = (t.lookup k').or (if k' = k then some v else none) := by
  rw [lookup_insertNew]
  by_cases hk : k' = k
  · subst hk
    cases t.lookup k' <;> simp
  · simp [hk]

/-- Every row of the table stays as it is. -/
def Stays (t t' : Table K V) : Prop :=
  forall k v, t.lookup k = some v -> t'.lookup k = some v

theorem stays_insertNew (t : Table K V) (k : K) (v : V) : t.Stays (t.insertNew k v) := by
  intro k' v' h
  rw [lookup_insertNew_eq_or, h]
  rfl

/-- Insert rows one after the other; the first of a key stays. -/
def insertAll (t : Table K V) (rows : List (K × V)) : Table K V :=
  rows.foldl (fun t row => t.insertNew row.1 row.2) t

theorem lookup_insertAll (t : Table K V) (rows : List (K × V)) (k : K) :
    (t.insertAll rows).lookup k = (t.lookup k).or (rows.lookup k) := by
  induction rows generalizing t with
  | nil => simp [insertAll]
  | cons row rest ih =>
      obtain ⟨k', v⟩ := row
      change ((t.insertNew k' v).insertAll rest).lookup k = _
      rw [ih, lookup_insertNew_eq_or, Option.or_assoc, List.lookup_cons]
      by_cases hk : k = k'
      · simp [hk]
      · simp [hk, beq_eq_false_iff_ne.mpr hk]

theorem lookup_insertAll_of_some (rows : List (K × V)) (hlookup : t.lookup k = some v) :
    (t.insertAll rows).lookup k = some v := by
  rw [lookup_insertAll, hlookup]
  rfl

theorem lookup_insertAll_of_mem (hnone : t.lookup k = none) (hnodup : (rows.map Prod.fst).Nodup)
    (hmem : (k, v) ∈ rows) :
    (t.insertAll rows).lookup k = some v := by
  rw [lookup_insertAll, hnone, Option.none_or]
  exact lookup_rows_of_mem hnodup hmem

theorem lookup_insertAll_cases (hlookup : (t.insertAll rows).lookup k = some v) :
    t.lookup k = some v ∨ (k, v) ∈ rows := by
  rw [lookup_insertAll, Option.or_eq_some_iff] at hlookup
  rcases hlookup with hold | ⟨_, hnew⟩
  · exact Or.inl hold
  · obtain ⟨before, after, hrows, _⟩ := List.lookup_eq_some_iff.mp hnew
    rw [hrows]
    exact Or.inr (by simp)

def upsert (t : Table K V) (k : K) (v : V) (f : V -> V) : Table K V :=
  if hnone : t.lookup k = none then t.cons k v hnone else t.modify k f

theorem lookup_upsert (t : Table K V) (k k' : K) (v : V) (f : V -> V) :
    (t.upsert k v f).lookup k' =
      if k' = k then some (((t.lookup k).map f).getD v) else t.lookup k' := by
  unfold upsert
  by_cases hnone : t.lookup k = none
  · rw [dif_pos hnone, lookup_cons, hnone]
    rfl
  · rw [dif_neg hnone, lookup_modify]
    obtain ⟨old, hold⟩ := Option.ne_none_iff_exists'.mp hnone
    by_cases hk : k' = k
    · subst hk
      simp [hold]
    · simp [hk]

theorem lookup_upsert_const (t : Table K V) (k k' : K) (v : V) :
    (t.upsert k v fun _ => v).lookup k' = if k' = k then some v else t.lookup k' := by
  rw [lookup_upsert]
  cases t.lookup k <;> rfl

/-!
# Selecting, counting and deleting rows
-/

def any (t : Table K V) (p : K -> V -> Bool) : Bool :=
  t.rows.any fun row => p row.1 row.2

variable {p : K -> V -> Bool}

theorem any_eq_true :
    t.any p = true <-> exists k v, t.lookup k = some v ∧ p k v = true := by
  unfold any
  rw [List.any_eq_true]
  constructor
  · rintro ⟨⟨k, v⟩, hmem, hp⟩
    exact ⟨k, v, lookup_eq_some_iff_mem.mpr hmem, hp⟩
  · rintro ⟨k, v, hlookup, hp⟩
    exact ⟨(k, v), lookup_eq_some_iff_mem.mp hlookup, hp⟩

theorem any_eq_false :
    t.any p = false <-> forall k v, t.lookup k = some v -> p k v = false := by
  rw [← Bool.not_eq_true, any_eq_true]
  constructor
  · intro hnone k v hlookup
    by_contra hp
    exact hnone ⟨k, v, hlookup, by simpa using hp⟩
  · rintro hall ⟨k, v, hlookup, hp⟩
    rw [hall k v hlookup] at hp
    cases hp

def count (t : Table K V) (p : K -> V -> Bool) : Nat :=
  t.rows.countP fun row => p row.1 row.2

theorem count_eq_zero :
    t.count p = 0 <-> forall k v, t.lookup k = some v -> p k v = false := by
  unfold count
  rw [List.countP_eq_zero]
  constructor
  · intro hall k v hlookup
    simpa using hall (k, v) (lookup_eq_some_iff_mem.mp hlookup)
  · intro hall row hmem
    simpa using hall row.1 row.2 (lookup_eq_some_iff_mem.mpr hmem)

omit [DecidableEq K] in
theorem count_mapRows_of_eq {f : K -> V -> V}
    (hsame : forall k v, (k, v) ∈ t.rows -> p k (f k v) = p k v) :
    (t.mapRows f).count p = t.count p := by
  unfold count
  rw [mapRows_rows, List.countP_map]
  apply List.countP_congr
  intro row hmem
  rw [Function.comp_apply, hsame row.1 row.2 hmem]

theorem count_insertNew (p : K -> V -> Bool) (hnone : t.lookup k = none) :
    (t.insertNew k v).count p = t.count p + (p k v).toNat := by
  unfold count
  rw [rows_insertNew hnone, List.countP_cons]
  cases p k v <;> rfl

/-- Among distinct keys an update changes one row only. -/
theorem countP_map_key_le (k : K) (f : V -> V) (p : K -> V -> Bool)
    (hnodup : (rows.map Prod.fst).Nodup) :
    ((rows.map fun row => (row.1, if row.1 = k then f row.2 else row.2)).countP
      fun row => p row.1 row.2) ≤ (rows.countP fun row => p row.1 row.2) + 1 := by
  induction rows with
  | nil => exact Nat.zero_le _
  | cons row rest ih =>
      rw [List.map_cons, List.nodup_cons] at hnodup
      rw [List.map_cons, List.countP_cons, List.countP_cons]
      by_cases hk : row.1 = k
      · -- The key does not come again, so the rest is as it was.
        have hrest : rest.map (fun row => (row.1, if row.1 = k then f row.2 else row.2)) =
            rest := by
          conv_rhs => rw [← List.map_id rest]
          apply List.map_congr_left
          intro other hmem
          have hne : other.1 ≠ k := by
            intro heq
            apply hnodup.1
            rw [hk, ← heq]
            exact List.mem_map.mpr ⟨other, hmem, rfl⟩
          rw [if_neg hne, id_eq]
        rw [hrest]
        split <;> split <;> omega
      · have hrest := ih hnodup.2
        simp only [if_neg hk]
        omega

theorem count_modify_le (t : Table K V) (k : K) (f : V -> V) (p : K -> V -> Bool) :
    (t.modify k f).count p ≤ t.count p + 1 :=
  countP_map_key_le k f p t.nodup

theorem length_le_count {keys : List K} (hnodup : keys.Nodup)
    (hrows : forall k, k ∈ keys -> exists v, t.lookup k = some v ∧ p k v = true) :
    keys.length ≤ t.count p := by
  unfold count
  rw [List.countP_eq_length_filter, ← List.length_map Prod.fst]
  apply List.Subperm.length_le
  apply List.subperm_of_subset hnodup
  intro k hmem
  obtain ⟨v, hlookup, hp⟩ := hrows k hmem
  exact List.mem_map.mpr
    ⟨(k, v), List.mem_filter.mpr ⟨lookup_eq_some_iff_mem.mp hlookup, hp⟩, rfl⟩

def filter (t : Table K V) (p : K -> V -> Bool) : Table K V where
  rows := t.rows.filter fun row => p row.1 row.2
  nodup := (List.Sublist.map Prod.fst List.filter_sublist).nodup t.nodup

theorem lookup_filter (t : Table K V) (p : K -> V -> Bool) (k : K) :
    (t.filter p).lookup k = (t.lookup k).filter (p k) := by
  cases hlookup : t.lookup k with
  | none =>
      cases hfilter : (t.filter p).lookup k with
      | none =>
          rfl
      | some v =>
          have hmem := lookup_eq_some_iff_mem.mp hfilter
          have hrow := (List.mem_filter.mp hmem).1
          rw [lookup_eq_some_iff_mem.mpr hrow] at hlookup
          cases hlookup
  | some v =>
      have hmem := lookup_eq_some_iff_mem.mp hlookup
      by_cases hp : p k v = true
      · rw [Option.filter_some, if_pos hp]
        apply lookup_eq_some_iff_mem.mpr
        exact List.mem_filter.mpr ⟨hmem, hp⟩
      · rw [Option.filter_some, if_neg hp]
        cases hfilter : (t.filter p).lookup k with
        | none =>
            rfl
        | some v' =>
            have hkept := List.mem_filter.mp (lookup_eq_some_iff_mem.mp hfilter)
            have hsame := lookup_eq_some_iff_mem.mpr hkept.1
            rw [hlookup] at hsame
            cases hsame
            exact absurd hkept.2 hp

theorem lookup_filter_of_true (hall : forall v, p k v = true) :
    (t.filter p).lookup k = t.lookup k := by
  rw [lookup_filter]
  cases t.lookup k with
  | none => rfl
  | some v => rw [Option.filter_some, if_pos (hall v)]

end Table

/-!
# Joins

A join that fans out along foreign keys repeats no row when every row says
which row it hangs from.
-/

theorem lookup_map_keys {K V : Type} [DecidableEq K] (f : K -> V) {k : K} {keys : List K}
    (hmem : k ∈ keys) : (keys.map fun k => (k, f k)).lookup k = some (f k) := by
  induction keys with
  | nil =>
      cases hmem
  | cons k' rest ih =>
      rw [List.map_cons, List.lookup_cons]
      by_cases hk : k = k'
      · simp [hk]
      · rw [beq_eq_false_iff_ne.mpr hk]
        exact ih ((List.mem_cons.mp hmem).resolve_left hk)

theorem filter_eq_singleton {A : Type} {items : List A} {p : A -> Bool} {a : A}
    (hnodup : items.Nodup) (hmem : a ∈ items) (hp : p a = true)
    (halone : forall a', a' ∈ items -> p a' = true -> a' = a) : items.filter p = [a] := by
  apply List.perm_singleton.mp
  apply (List.perm_ext_iff_of_nodup (hnodup.filter p) (List.nodup_singleton a)).mpr
  intro a'
  rw [List.mem_filter, List.mem_singleton]
  constructor
  · intro h
    exact halone a' h.1 h.2
  · rintro rfl
    exact ⟨hmem, hp⟩

theorem nodup_flatMap_of_owner {A B C : Type} {items : List A} {f : A -> List B}
    (g : A -> C) (owner : B -> C) (hitems : (items.map g).Nodup)
    (hf : forall a, a ∈ items -> (f a).Nodup)
    (howner : forall a b, a ∈ items -> b ∈ f a -> owner b = g a) :
    (items.flatMap f).Nodup := by
  rw [List.nodup_flatMap]
  refine ⟨hf, ?_⟩
  rw [List.Nodup, List.pairwise_map] at hitems
  apply hitems.imp_of_mem
  intro a a' ha ha' hne b hb hb'
  exact hne ((howner a b ha hb).symm.trans (howner a' b ha' hb'))

end Foundation
end KnowledgeBrain
