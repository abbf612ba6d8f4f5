import KnowledgeBrain.ObjectRegistry.Safety

/-!
# Runs of the registry

Transactions of any number of callers and workers interleave.  A worker of
`process_object_deletion` remembers across its two transactions only which
deletion it was let through for; it may be slow, die, or be started again.
-/

namespace KnowledgeBrain
namespace ObjectRegistry

open Foundation Database
open Workflow (Uuid Time)

/-!
# Objects move one way
-/

/-- The transitions of an object. -/
def ObjectState.Moves (a b : ObjectState) : Prop :=
  a = b ∨ a = .available ∧ b = .deleting ∨ a = .deleting ∧ b = .deleted

namespace Database

variable {db db' : Database} {object : ObjectIdentity} {owner : Owner} {ref : String}
variable {deletionId stagingId : Uuid}

/-- Every object is still there, the same bytes, at most one transition on. -/
def Advances (db db' : Database) : Prop :=
  forall ref row, db.objects.lookup ref = some row ->
    exists row', db'.objects.lookup ref = some row' ∧ row'.digest = row.digest ∧
      row.state.Moves row'.state

theorem Advances.of_kept
    (hkept : forall ref row, db.objects.lookup ref = some row ->
      db'.objects.lookup ref = some row) : Advances db db' := by
  intro ref row hrow
  exact ⟨row, hkept ref row hrow, rfl, Or.inl rfl⟩

theorem Advances.after_kept {db1 : Database}
    (hkept : forall ref row, db.objects.lookup ref = some row ->
      db1.objects.lookup ref = some row) (h : Advances db1 db') : Advances db db' := by
  intro ref row hrow
  exact h ref row (hkept ref row hrow)

theorem advances_modify {state : ObjectState} {row : ObjectRow}
    (hrow : db.objects.lookup ref = some row) (hmoves : row.state.Moves state)
    (hobjects : db'.objects = db.objects.modify ref fun row => { row with state := state }) :
    Advances db db' := by
  intro r old hold
  rw [hobjects, Table.lookup_modify]
  by_cases hr : r = ref
  · subst hr
    rw [if_pos rfl, hrow]
    have hsame : row = old := Option.some.inj (hrow.symm.trans hold)
    subst hsame
    exact ⟨{ row with state := state }, rfl, rfl, hmoves⟩
  · rw [if_neg hr, hold]
    exact ⟨old, rfl, rfl, Or.inl rfl⟩

theorem Released.advances (h : Released ref owner deletionId db db') : Advances db db' := by
  cases h with
  | kept row hrow howned =>
      exact Advances.of_kept fun _ _ h => h
  | requested row hrow hstate hfree hid hsingle =>
      exact advances_modify hrow (Or.inr (Or.inl ⟨hstate, rfl⟩)) rfl

variable {result : Option ObjectDeletionIdentity}

theorem advances_releaseUpload (h : db.releaseUpload stagingId ref = .ok (result, db')) :
    Advances db db' :=
  (releaseUpload_ok h).advances

variable {ownerUserId : Option Uuid} {now : Time}

theorem advances_stageObjectUpload
    (h : db.stageObjectUpload now stagingId object ownerUserId = .ok db') :
    Advances db db' := by
  obtain ⟨db1, hadd, h⟩ := bind_eq_ok h
  obtain ⟨_, _, h⟩ := bind_eq_ok h
  cases h
  exact Advances.of_kept fun _ _ => (addObjectReference_ok hadd).kept

theorem advances_publishObjectReference {staging : Option Uuid}
    (h : db.publishObjectReference now staging object owner ownerUserId = .ok db') :
    Advances db db' := by
  cases staging with
  | some stagingId =>
      obtain ⟨_, _, h⟩ := bind_eq_ok h
      obtain ⟨_, _, h⟩ := bind_eq_ok h
      obtain ⟨_, _, h⟩ := bind_eq_ok h
      obtain ⟨_, _, h⟩ := bind_eq_ok h
      obtain ⟨db1, hadd, h⟩ := bind_eq_ok h
      obtain ⟨⟨result, db2⟩, hrelease, h⟩ := bind_eq_ok h
      cases h
      exact (advances_releaseUpload hrelease).after_kept
        fun _ _ => (addObjectReference_ok hadd).kept
  | none =>
      obtain ⟨_, _, h⟩ := bind_eq_ok h
      obtain ⟨_, _, h⟩ := bind_eq_ok h
      obtain ⟨_, _, h⟩ := bind_eq_ok h
      exact Advances.of_kept fun _ _ => (addObjectReference_ok h).kept

theorem advances_abandonObjectUpload
    (h : db.abandonObjectUpload stagingId ownerUserId = .ok (result, db')) :
    Advances db db' := by
  unfold abandonObjectUpload at h
  cases hupload : db.uploads.lookup stagingId with
  | none =>
      rw [hupload] at h
      cases h
      exact Advances.of_kept fun _ _ h => h
  | some upload =>
      rw [hupload] at h
      obtain ⟨_, _, h⟩ := bind_eq_ok h
      exact advances_releaseUpload h

theorem advances_requestObjectUploadExpiry
    (h : db.requestObjectUploadExpiry now stagingId ownerUserId = .ok db') :
    Advances db db' := by
  unfold requestObjectUploadExpiry at h
  cases hupload : db.uploads.lookup stagingId with
  | none =>
      rw [hupload] at h
      cases h
      exact Advances.of_kept fun _ _ h => h
  | some upload =>
      rw [hupload] at h
      obtain ⟨_, _, h⟩ := bind_eq_ok h
      cases h
      exact Advances.of_kept fun _ _ h => h

theorem advances_expireOneObjectUpload
    (h : db.expireOneObjectUpload now stagingId = .ok (result, db')) : Advances db db' := by
  unfold expireOneObjectUpload at h
  cases hupload : db.uploads.lookup stagingId with
  | none =>
      rw [hupload] at h
      cases h
      exact Advances.of_kept fun _ _ h => h
  | some upload =>
      rw [hupload] at h
      by_cases hexpired : upload.expiresAt ≤ now
      · simp only [hexpired, if_true] at h
        exact advances_releaseUpload h
      · simp only [hexpired, if_false] at h
        cases h
        exact Advances.of_kept fun _ _ h => h

theorem advances_completeObjectDeletion {deletion : ObjectDeletionIdentity}
    (h : db.completeObjectDeletion now deletion = .ok db') : Advances db db' := by
  rcases completeObjectDeletion_ok h with rfl | ⟨hdeletable, _, rfl⟩
  · exact Advances.of_kept fun _ _ h => h
  · obtain ⟨row, hrow, _, hstate⟩ := hdeletable.row
    exact advances_modify hrow (Or.inr (Or.inr ⟨hstate, rfl⟩)) rfl

/-- The object of the digest has left the available state. -/
def Gone (db : Database) (digest : String) : Prop :=
  exists row, db.objects.lookup (objectRef digest) = some row ∧ row.digest = digest ∧
    row.state ≠ .available

theorem Gone.advances {digest : String} (hgone : db.Gone digest) (h : Advances db db') :
    db'.Gone digest := by
  obtain ⟨row, hrow, hdigest, hstate⟩ := hgone
  obtain ⟨row', hrow', hdigest', hmoves⟩ := h _ row hrow
  refine ⟨row', hrow', hdigest'.trans hdigest, ?_⟩
  rcases hmoves with hsame | ⟨hfrom, _⟩ | ⟨_, hto⟩
  · rw [← hsame]
    exact hstate
  · exact absurd hfrom hstate
  · rw [hto]
    simp

theorem Gone.unreferenced {digest : String} (hdb : Sound db) (hgone : db.Gone digest) :
    forall owner, db.references.lookup owner ≠ some (objectRef digest) := by
  intro owner hlookup
  obtain ⟨row, hrow, _, hstate⟩ := hgone
  obtain ⟨row', hrow', hstate'⟩ := hdb.available owner _ hlookup
  rw [hrow] at hrow'
  cases hrow'
  exact hstate hstate'

theorem Deletable.gone {deletion : ObjectDeletionIdentity} (hdb : Sound db)
    (h : Deletable deletion db) : db.Gone deletion.digest := by
  obtain ⟨row, hrow, hdigest, hstate⟩ := h.row
  have hcontent := hdb.content _ row hrow
  rw [hdigest] at hcontent
  refine ⟨row, hcontent ▸ hrow, hdigest, ?_⟩
  rw [hstate]
  simp

end Database

/-!
# Events
-/

/-- The registry, the deletions some worker was let through for, and the
digests whose bytes were removed. -/
structure World where
  db : Database
  inFlight : List ObjectDeletionIdentity
  purged : List String

inductive Event where
  | addObjectReference (object : ObjectIdentity) (owner : Owner)
  | releaseObjectReference (ref : String) (owner : Owner) (deletionId : Uuid)
  | stageObjectUpload (now : Time) (stagingId : Uuid) (object : ObjectIdentity)
      (ownerUserId : Option Uuid)
  | publishObjectReference (now : Time) (stagingId : Option Uuid) (object : ObjectIdentity)
      (owner : Owner) (ownerUserId : Option Uuid)
  | abandonObjectUpload (stagingId : Uuid) (ownerUserId : Option Uuid)
  | requestObjectUploadExpiry (now : Time) (stagingId : Uuid) (ownerUserId : Option Uuid)
  | expireOneObjectUpload (now : Time) (stagingId : Uuid)
  | objectDeletionPreflight (now : Time) (deletion : ObjectDeletionIdentity)
  | deleteRetainedBlob (deletion : ObjectDeletionIdentity)
  | completeObjectDeletion (now : Time) (deletion : ObjectDeletionIdentity)

namespace World

/-- Commit a transaction; a failed one is rolled back. -/
def commit (w : World) (result : Except RegistryError Database) : World :=
  match result with
  | .ok db => { w with db := db }
  | .error _ => w

/-- A worker goes on to the bytes only after a preflight that finds the
deletion open. -/
def clearDeletion (w : World) (deletion : ObjectDeletionIdentity)
    (result : Except RegistryError Bool) : World :=
  match result with
  | .ok false => { w with inFlight := deletion :: w.inFlight }
  | _ => w

end World

def step : Event -> World -> World
  | .addObjectReference object owner, w => w.commit (w.db.addObjectReference object owner)
  | .releaseObjectReference ref owner deletionId, w =>
      w.commit ((w.db.releaseObjectReference ref owner deletionId).map Prod.snd)
  | .stageObjectUpload now stagingId object ownerUserId, w =>
      w.commit (w.db.stageObjectUpload now stagingId object ownerUserId)
  | .publishObjectReference now stagingId object owner ownerUserId, w =>
      w.commit (w.db.publishObjectReference now stagingId object owner ownerUserId)
  | .abandonObjectUpload stagingId ownerUserId, w =>
      w.commit ((w.db.abandonObjectUpload stagingId ownerUserId).map Prod.snd)
  | .requestObjectUploadExpiry now stagingId ownerUserId, w =>
      w.commit (w.db.requestObjectUploadExpiry now stagingId ownerUserId)
  | .expireOneObjectUpload now stagingId, w =>
      w.commit ((w.db.expireOneObjectUpload now stagingId).map Prod.snd)
  | .objectDeletionPreflight now deletion, w =>
      w.clearDeletion deletion (w.db.objectDeletionPreflight now deletion)
  | .deleteRetainedBlob deletion, w => { w with purged := deletion.digest :: w.purged }
  | .completeObjectDeletion now deletion, w =>
      w.commit (w.db.completeObjectDeletion now deletion)

/-- Only the functions of the lifecycle release the reference of an upload, and
only a worker that passed the preflight removes bytes. -/
def Permitted : Event -> World -> Prop
  | .releaseObjectReference _ owner _, _ => owner.kind ≠ "object_upload_staging"
  | .deleteRetainedBlob deletion, w => deletion ∈ w.inFlight
  | _, _ => True

instance (e : Event) (w : World) : Decidable (Permitted e w) := by
  cases e <;> unfold Permitted <;> infer_instance

def start : World where
  db := ⟨Table.empty, Table.empty, Table.empty, Table.empty, Table.empty⟩
  inFlight := []
  purged := []

/-!
# Every transaction
-/

namespace World

theorem commit_eq_or (w : World) (result : Except RegistryError Database) :
    w.commit result = w ∨ exists db, result = .ok db ∧ w.commit result = { w with db := db } := by
  cases result with
  | error e => exact Or.inl rfl
  | ok db => exact Or.inr ⟨db, rfl, rfl⟩

end World

theorem map_snd_eq_ok {A : Type} {x : Except RegistryError (A × Database)} {db : Database}
    (h : x.map Prod.snd = .ok db) : exists a, x = .ok (a, db) := by
  cases x with
  | error e => cases h
  | ok value =>
      obtain ⟨a, db'⟩ := value
      cases h
      exact ⟨a, rfl⟩

/-- What a permitted event can do to the world. -/
inductive Effect (w : World) : World -> Prop
  | transaction (db : Database) (hsound : Database.Sound w.db -> Database.Sound db)
      (hadvances : Database.Advances w.db db) : Effect w { w with db := db }
  | admitted (deletion : ObjectDeletionIdentity) (h : Database.Deletable deletion w.db) :
      Effect w { w with inFlight := deletion :: w.inFlight }
  | purged (deletion : ObjectDeletionIdentity) (h : deletion ∈ w.inFlight) :
      Effect w { w with purged := deletion.digest :: w.purged }

theorem Effect.none (w : World) : Effect w w :=
  Effect.transaction w.db (fun h => h) (Database.Advances.of_kept fun _ _ h => h)

theorem Effect.commit {w : World} {result : Except RegistryError Database}
    (h : forall db, result = .ok db ->
      (Database.Sound w.db -> Database.Sound db) ∧ Database.Advances w.db db) :
    Effect w (w.commit result) := by
  rcases w.commit_eq_or result with hsame | ⟨db, hresult, hcommit⟩
  · rw [hsame]
    exact Effect.none w
  · rw [hcommit]
    exact Effect.transaction db (h db hresult).1 (h db hresult).2

theorem effect_step {e : Event} {w : World} (he : Permitted e w) : Effect w (step e w) := by
  cases e with
  | addObjectReference object owner =>
      apply Effect.commit
      intro db h
      have hregistered := addObjectReference_ok h
      exact ⟨hregistered.sound, Database.Advances.of_kept fun _ _ => hregistered.kept⟩
  | releaseObjectReference ref owner deletionId =>
      apply Effect.commit
      intro db h
      obtain ⟨_, h⟩ := map_snd_eq_ok h
      have hreleased := releaseObjectReference_ok h
      refine ⟨?_, hreleased.advances⟩
      intro hsound
      apply hreleased.sound hsound
      intro id upload _ howner
      exact he (congrArg Owner.kind howner).symm
  | stageObjectUpload now stagingId object ownerUserId =>
      apply Effect.commit
      intro db h
      exact ⟨fun hs => sound_stageObjectUpload hs h,
        advances_stageObjectUpload h⟩
  | publishObjectReference now stagingId object owner ownerUserId =>
      apply Effect.commit
      intro db h
      exact ⟨fun hs => sound_publishObjectReference hs h,
        advances_publishObjectReference h⟩
  | abandonObjectUpload stagingId ownerUserId =>
      apply Effect.commit
      intro db h
      obtain ⟨_, h⟩ := map_snd_eq_ok h
      exact ⟨fun hs => sound_abandonObjectUpload hs h,
        advances_abandonObjectUpload h⟩
  | requestObjectUploadExpiry now stagingId ownerUserId =>
      apply Effect.commit
      intro db h
      exact ⟨fun hs => sound_requestObjectUploadExpiry hs h,
        advances_requestObjectUploadExpiry h⟩
  | expireOneObjectUpload now stagingId =>
      apply Effect.commit
      intro db h
      obtain ⟨_, h⟩ := map_snd_eq_ok h
      exact ⟨fun hs => sound_expireOneObjectUpload hs h,
        advances_expireOneObjectUpload h⟩
  | objectDeletionPreflight now deletion =>
      rw [step]
      cases hpreflight : w.db.objectDeletionPreflight now deletion with
      | error e => exact Effect.none w
      | ok completed =>
          cases completed with
          | true => exact Effect.none w
          | false =>
              exact Effect.admitted deletion (objectDeletionPreflight_ok hpreflight)
  | deleteRetainedBlob deletion =>
      exact Effect.purged deletion he
  | completeObjectDeletion now deletion =>
      apply Effect.commit
      intro db h
      exact ⟨fun hs => sound_completeObjectDeletion hs h,
        advances_completeObjectDeletion h⟩

/-!
# Every run
-/

structure World.Sound (w : World) : Prop where
  db : w.db.Sound
  inFlight : forall deletion, deletion ∈ w.inFlight -> w.db.Gone deletion.digest
  purged : forall digest, digest ∈ w.purged -> w.db.Gone digest

variable {w w' : World}

theorem Effect.sound (h : Effect w w') (hw : w.Sound) : w'.Sound := by
  cases h with
  | transaction db hsound hadvances =>
      refine ⟨hsound hw.db, ?_, ?_⟩
      · intro deletion hmem
        exact (hw.inFlight deletion hmem).advances hadvances
      · intro digest hmem
        exact (hw.purged digest hmem).advances hadvances
  | admitted deletion hdeletable =>
      refine ⟨hw.db, ?_, hw.purged⟩
      intro other hmem
      rcases List.mem_cons.mp hmem with rfl | hmem
      · exact hdeletable.gone hw.db
      · exact hw.inFlight other hmem
  | purged deletion hadmitted =>
      refine ⟨hw.db, hw.inFlight, ?_⟩
      intro digest hmem
      rcases List.mem_cons.mp hmem with rfl | hmem
      · exact hw.inFlight deletion hadmitted
      · exact hw.purged digest hmem

theorem Effect.advances (h : Effect w w') :
    Database.Advances w.db w'.db := by
  cases h with
  | transaction db hsound hadvances => exact hadvances
  | admitted deletion hdeletable => exact Database.Advances.of_kept fun _ _ h => h
  | purged deletion hadmitted => exact Database.Advances.of_kept fun _ _ h => h

theorem Effect.purged_subset (h : Effect w w') : w.purged ⊆ w'.purged := by
  cases h with
  | transaction db hsound hadvances => exact List.Subset.refl _
  | admitted deletion hdeletable => exact List.Subset.refl _
  | purged deletion hadmitted => exact List.subset_cons_self _ _

theorem sound_start : start.Sound := by
  refine ⟨⟨?_, ?_, ?_, ?_, ?_, ?_, ?_, ?_⟩, ?_, ?_⟩ <;> simp [start]

theorem sound_of_reaches {w : World} (hrun : Reaches step Permitted start w) : w.Sound :=
  Reaches.invariant (fun _ _ hw he => (effect_step he).sound hw) sound_start hrun

theorem purged_subset_of_reaches {w later : World} (hrun : Reaches step Permitted w later) :
    w.purged ⊆ later.purged :=
  Reaches.preorder (P := fun _ => True) (R := fun w w' => w.purged ⊆ w'.purged)
    (fun _ => List.Subset.refl _) (fun _ _ _ => List.Subset.trans) (fun _ _ _ _ => trivial)
    (fun _ _ _ he => (effect_step he).purged_subset) trivial hrun

/-- References, uploads, requests and receipts agree with the states of the
objects; objects move one way; bytes go only when nothing refers to them, and
nothing ever refers to them again. -/
theorem objects_outlive_references {w : World} (hrun : Reaches step Permitted start w) :
    (forall owner ref, w.db.references.lookup owner = some ref ->
      exists row, w.db.objects.lookup ref = some row ∧ row.state = .available ∧
        w.db.receipts.lookup ref = none) ∧
    (forall ref row, w.db.objects.lookup ref = some row -> row.state = .available ->
      exists owner, w.db.references.lookup owner = some ref) ∧
    (forall id upload, w.db.uploads.lookup id = some upload ->
      w.db.references.lookup (stagingOwner id) = some upload.objectRef) ∧
    (forall e, Permitted e w -> Database.Advances w.db (step e w).db) ∧
    (forall ref row, w.db.objects.lookup ref = some row ->
      (row.state ≠ .available <-> exists id request,
        w.db.requests.lookup id = some request ∧ request.objectRef = ref)) ∧
    (forall id id' request request', w.db.requests.lookup id = some request ->
      w.db.requests.lookup id' = some request' -> request.objectRef = request'.objectRef ->
      id = id') ∧
    (forall deletion, Permitted (.deleteRetainedBlob deletion) w ->
      (exists row, w.db.objects.lookup (objectRef deletion.digest) = some row ∧
        row.digest = deletion.digest ∧ row.state ≠ .available) ∧
      forall owner, w.db.references.lookup owner ≠ some (objectRef deletion.digest)) ∧
    (forall digest later, digest ∈ w.purged -> Reaches step Permitted w later ->
      forall owner ref row, later.db.references.lookup owner = some ref ->
        later.db.objects.lookup ref = some row -> row.digest ≠ digest) := by
  have hw := sound_of_reaches hrun
  refine ⟨?_, hw.db.owned, hw.db.staged, ?_, ?_, hw.db.single, ?_, ?_⟩
  · intro owner ref hlookup
    obtain ⟨row, hrow, hstate⟩ := hw.db.available owner ref hlookup
    refine ⟨row, hrow, hstate, ?_⟩
    rw [Option.eq_none_iff_forall_ne_some]
    intro receipt hreceipt
    obtain ⟨row', hrow', hstate'⟩ := hw.db.receipts ref receipt hreceipt
    rw [hrow] at hrow'
    cases hrow'
    rw [hstate] at hstate'
    cases hstate'
  · intro e he
    exact (effect_step he).advances
  · intro ref row hrow
    constructor
    · exact hw.db.requested ref row hrow
    · rintro ⟨id, request, hrequest, rfl⟩
      obtain ⟨row', hrow', hstate'⟩ := hw.db.requests id request hrequest
      rw [hrow] at hrow'
      cases hrow'
      exact hstate'
  · intro deletion hadmitted
    have hgone := hw.inFlight deletion hadmitted
    exact ⟨hgone, hgone.unreferenced hw.db⟩
  · intro digest later hpurged hlater owner ref row hlookup hrow hdigest
    have hsound := sound_of_reaches (Relation.ReflTransGen.trans hrun hlater)
    have hgone := hsound.purged digest (purged_subset_of_reaches hlater hpurged)
    have hcontent := hsound.db.content ref row hrow
    rw [hdigest] at hcontent
    rw [hcontent] at hlookup
    exact hgone.unreferenced hsound.db owner hlookup

/-!
# A deletion from its upload to its receipt
-/

def letter : ObjectIdentity := ⟨"objects/ab", "ab", "text/plain", 3⟩

def letterDeletion : ObjectDeletionIdentity := ⟨7, "objects/ab", "ab", 3⟩

/-- An upload is staged and given up; its object is deleted by a worker, and a
later owner is turned away. -/
def letterEvents : List Event :=
  [.stageObjectUpload 0 7 letter none, .abandonObjectUpload 7 none,
    .objectDeletionPreflight 5 letterDeletion, .deleteRetainedBlob letterDeletion,
    .addObjectReference letter ⟨"knowledge_document", 4, "original"⟩,
    .completeObjectDeletion 6 letterDeletion]

theorem allowed_letterEvents : Allowed step Permitted start letterEvents := by
  decide +kernel

theorem letter_outlives_references :
    (perform step start letterEvents).purged = ["ab"] ∧
    (perform step start letterEvents).db.objects.lookup "objects/ab" =
      some ⟨"ab", "text/plain", 3, .deleted⟩ ∧
    forall owner ref row,
      (perform step start letterEvents).db.references.lookup owner = some ref ->
      (perform step start letterEvents).db.objects.lookup ref = some row ->
      row.digest ≠ "ab" := by
  have hpurged : (perform step start letterEvents).purged = ["ab"] := by decide +kernel
  have hrun := reaches_perform (Reaches.refl start) allowed_letterEvents
  obtain ⟨_, _, _, _, _, _, _, hnever⟩ := objects_outlive_references hrun
  refine ⟨hpurged, by decide +kernel, ?_⟩
  exact hnever "ab" _ (hpurged ▸ List.mem_singleton_self _) (Reaches.refl _)

end ObjectRegistry
end KnowledgeBrain
