import KnowledgeBrain.Foundation.Runs
import KnowledgeBrain.ObjectRegistry.Lifecycle

/-!
# What the lifecycle functions do

One lemma for each function says what a successful call has checked and what
it leaves behind.  Proofs about the registry use these and never look at the
order of the checks.
-/

namespace KnowledgeBrain
namespace ObjectRegistry

open Foundation Table
open Workflow (Uuid Time)

namespace Database

variable {db db' : Database} {object : ObjectIdentity} {owner : Owner} {ref : String}
variable {deletionId stagingId : Uuid} {result : Option ObjectDeletionIdentity}

theorem lockObject_eq_ok {row : ObjectRow} :
    db.lockObject ref = .ok row <-> db.objects.lookup ref = some row := by
  unfold lockObject
  cases db.objects.lookup ref with
  | none => simp
  | some row' => simp

/-- The columns of a registration after it has succeeded. -/
structure Registered (object : ObjectIdentity) (owner : Owner) (db db' : Database) :
    Prop where
  content : object.objectRef = objectRef object.digest
  objects : db'.objects = db.objects.insertNew object.objectRef (newObject object)
  references : db'.references = db.references.insertNew owner object.objectRef
  uploads : db'.uploads = db.uploads
  requests : db'.requests = db.requests
  receipts : db'.receipts = db.receipts
  fresh : db.receipts.lookup object.objectRef = none
  available : db'.objects.lookup object.objectRef = some (newObject object)
  owned : db'.references.lookup owner = some object.objectRef

theorem addObjectReference_ok (h : db.addObjectReference object owner = .ok db') :
    Registered object owner db db' := by
  obtain ⟨_, hcontent, h⟩ := bind_eq_ok h
  obtain ⟨registry, hlock, h⟩ := bind_eq_ok h
  obtain ⟨_, hfresh, h⟩ := bind_eq_ok h
  obtain ⟨_, hcheck, h⟩ := bind_eq_ok h
  obtain ⟨_, howned, h⟩ := bind_eq_ok h
  rw [reject_eq_ok, not_not] at hcontent
  rw [lockObject_eq_ok] at hlock
  rw [reject_eq_ok, Table.contains, Option.isSome_iff_ne_none, not_not] at hfresh
  rw [checkObject, reject_eq_ok] at hcheck
  rw [reject_eq_ok, not_not] at howned
  cases h
  have hrow : registry = newObject object := by
    cases registry
    simp only [not_or, not_not] at hcheck
    obtain ⟨hdigest, hmedia, hlength, hstate⟩ := hcheck
    simp only [newObject, ObjectRow.mk.injEq]
    exact ⟨hdigest, hmedia, hlength, hstate⟩
  exact
    { content := hcontent
      objects := rfl
      references := rfl
      uploads := rfl
      requests := rfl
      receipts := rfl
      fresh := hfresh
      available := hrow ▸ hlock
      owned := howned }

theorem Registered.kept (h : Registered object owner db db') {row : ObjectRow}
    (hrow : db.objects.lookup ref = some row) : db'.objects.lookup ref = some row := by
  rw [h.objects, lookup_insertNew]
  by_cases href : ref = object.objectRef
  · subst href
    rw [if_pos rfl, hrow]
    rfl
  · rw [if_neg href, hrow]

/-- The reference is gone, and the object too if it was the last one. -/
inductive Released (ref : String) (owner : Owner) (deletionId : Uuid) (db : Database) :
    Database -> Prop
  | kept (row : ObjectRow) (hrow : db.objects.lookup ref = some row)
      (howned : row.state = .available -> (db.dropReference ref owner).referenced ref = true) :
      Released ref owner deletionId db (db.dropReference ref owner)
  | requested (row : ObjectRow) (hrow : db.objects.lookup ref = some row)
      (hstate : row.state = .available)
      (hfree : (db.dropReference ref owner).referenced ref = false)
      (hid : db.requests.lookup deletionId = none)
      (hsingle : forall id request, db.requests.lookup id = some request ->
        request.objectRef ≠ ref) :
      Released ref owner deletionId db
        { db.dropReference ref owner with
          objects := db.objects.modify ref fun row => { row with state := .deleting }
          requests := db.requests.insertNew deletionId ⟨ref, row.digest, row.byteLength⟩ }

theorem releaseObjectReference_ok
    (h : db.releaseObjectReference ref owner deletionId = .ok (result, db')) :
    Released ref owner deletionId db db' := by
  obtain ⟨registry, hlock, h⟩ := bind_eq_ok h
  obtain ⟨db2, hrequest, h⟩ := bind_eq_ok h
  obtain ⟨_, _, h⟩ := bind_eq_ok h
  rw [lockObject_eq_ok] at hlock
  cases h
  unfold retireUnreferenced at hrequest
  by_cases hlast : registry.state = .available ∧ (db.dropReference ref owner).referenced ref = false
  · rw [if_pos hlast] at hrequest
    obtain ⟨_, hid, hrequest⟩ := bind_eq_ok hrequest
    obtain ⟨_, hsingle, hrequest⟩ := bind_eq_ok hrequest
    rw [reject_eq_ok, Table.contains, Option.isSome_iff_ne_none, not_not] at hid
    rw [reject_eq_ok, Bool.not_eq_true, any_eq_false] at hsingle
    cases hrequest
    apply Released.requested registry hlock hlast.1 hlast.2 hid
    intro id request hrow
    simpa using hsingle id request hrow
  · rw [if_neg hlast] at hrequest
    cases hrequest
    apply Released.kept registry hlock
    intro hstate
    by_contra hfree
    exact hlast ⟨hstate, by simpa using hfree⟩

theorem releaseUpload_ok (h : db.releaseUpload stagingId ref = .ok (result, db')) :
    Released ref (stagingOwner stagingId) stagingId (db.deleteUpload stagingId) db' :=
  releaseObjectReference_ok h

/-- What a preflight that lets the deletion continue has seen. -/
structure Deletable (deletion : ObjectDeletionIdentity) (db : Database) : Prop where
  row : exists row, db.objects.lookup deletion.objectRef = some row ∧
    row.digest = deletion.digest ∧ row.state = .deleting
  request : db.loadDeletion deletion.deletionId = some deletion
  free : forall owner, db.references.lookup owner ≠ some deletion.objectRef

theorem objectDeletionPreflight_ok {now : Time} {deletion : ObjectDeletionIdentity}
    (h : db.objectDeletionPreflight now deletion = .ok false) : Deletable deletion db := by
  obtain ⟨registry, hlock, h⟩ := bind_eq_ok h
  obtain ⟨_, hfence, h⟩ := bind_eq_ok h
  rw [lockObject_eq_ok] at hlock
  rw [reject_eq_ok, not_or, not_or, not_not, not_not, not_not] at hfence
  by_cases hcompleted : db.deletionCompleted deletion = true
  · rw [if_pos hcompleted] at h
    cases h
  · rw [if_neg hcompleted] at h
    obtain ⟨_, hcurrent, _⟩ := bind_eq_ok h
    rw [reject_eq_ok, not_or, not_not, Bool.not_eq_true, owned, Bool.or_eq_false_iff]
      at hcurrent
    exact
      { row := ⟨registry, hlock, hfence.2.1, hcurrent.1⟩
        request := hfence.1
        free := referenced_eq_false.mp hcurrent.2.1 }

/-- A completion either finds itself done or moves the object to its end. -/
theorem completeObjectDeletion_ok {now : Time} {deletion : ObjectDeletionIdentity}
    (h : db.completeObjectDeletion now deletion = .ok db') :
    db' = db ∨ (Deletable deletion db ∧ db.receipts.lookup deletion.objectRef = none ∧
      db' = { db with
        receipts := db.receipts.insertNew deletion.objectRef
          ⟨deletion.digest, deletion.byteLength, deletion.deletionId⟩
        objects := db.objects.modify deletion.objectRef fun row =>
          { row with state := .deleted } }) := by
  obtain ⟨completed, hpreflight, h⟩ := bind_eq_ok h
  cases completed with
  | true =>
      cases h
      exact Or.inl rfl
  | false =>
      obtain ⟨_, hfresh, h⟩ := bind_eq_ok h
      obtain ⟨_, _, h⟩ := bind_eq_ok h
      rw [reject_eq_ok, Table.contains, Option.isSome_iff_ne_none, not_not] at hfresh
      cases h
      exact Or.inr ⟨objectDeletionPreflight_ok hpreflight, hfresh, rfl⟩

end Database

/-!
# Lifetime of shared objects

The lifecycle functions run as transactions in any order, and a deletion
removes the bytes between two of them.  One invariant over the five tables is
kept by every transaction; the bytes of a digest are gone only after its
object has left the available state for good.
-/

/-!
## The invariant
-/

namespace Database

structure Sound (db : Database) : Prop where
  available : forall owner ref, db.references.lookup owner = some ref ->
    exists row, db.objects.lookup ref = some row ∧ row.state = .available
  owned : forall ref row, db.objects.lookup ref = some row -> row.state = .available ->
    exists owner, db.references.lookup owner = some ref
  staged : forall id upload, db.uploads.lookup id = some upload ->
    db.references.lookup (stagingOwner id) = some upload.objectRef
  requested : forall ref row, db.objects.lookup ref = some row -> row.state ≠ .available ->
    exists id request, db.requests.lookup id = some request ∧ request.objectRef = ref
  requests : forall id request, db.requests.lookup id = some request ->
    exists row, db.objects.lookup request.objectRef = some row ∧ row.state ≠ .available
  single : forall id id' request request', db.requests.lookup id = some request ->
    db.requests.lookup id' = some request' -> request.objectRef = request'.objectRef ->
    id = id'
  receipts : forall ref receipt, db.receipts.lookup ref = some receipt ->
    exists row, db.objects.lookup ref = some row ∧ row.state = .deleted
  content : forall ref row, db.objects.lookup ref = some row -> ref = objectRef row.digest

variable {db db' : Database} {object : ObjectIdentity} {owner : Owner} {ref : String}
variable {deletionId stagingId : Uuid}

theorem Registered.sound (hdb : Sound db) (h : Registered object owner db db') :
    Sound db' := by
  have hobject : forall r row, db'.objects.lookup r = some row ->
      r = object.objectRef ∧ row = newObject object ∨ db.objects.lookup r = some row := by
    intro r row hrow
    by_cases hr : r = object.objectRef
    · subst hr
      rw [h.available] at hrow
      exact Or.inl ⟨rfl, (Option.some.inj hrow).symm⟩
    · rw [h.objects, lookup_insertNew, if_neg hr] at hrow
      exact Or.inr hrow
  have hreference : forall o r, db.references.lookup o = some r ->
      db'.references.lookup o = some r := by
    intro o r hlookup
    rw [h.references, lookup_insertNew]
    by_cases ho : o = owner
    · subst ho
      rw [if_pos rfl, hlookup]
      rfl
    · rw [if_neg ho, hlookup]
  refine ⟨?_, ?_, ?_, ?_, ?_, ?_, ?_, ?_⟩
  · intro o r hlookup
    by_cases ho : o = owner
    · subst ho
      rw [h.owned] at hlookup
      cases hlookup
      exact ⟨_, h.available, rfl⟩
    · rw [h.references, lookup_insertNew, if_neg ho] at hlookup
      obtain ⟨row, hrow, hstate⟩ := hdb.available o r hlookup
      exact ⟨row, h.kept hrow, hstate⟩
  · intro r row hrow hstate
    rcases hobject r row hrow with ⟨hr, _⟩ | hold
    · subst hr
      exact ⟨owner, h.owned⟩
    · obtain ⟨o, ho⟩ := hdb.owned r row hold hstate
      exact ⟨o, hreference o r ho⟩
  · intro id upload hupload
    rw [h.uploads] at hupload
    exact hreference _ _ (hdb.staged id upload hupload)
  · intro r row hrow hstate
    rw [h.requests]
    rcases hobject r row hrow with ⟨_, hnew⟩ | hold
    · subst hnew
      exact absurd rfl hstate
    · exact hdb.requested r row hold hstate
  · intro id request hrequest
    rw [h.requests] at hrequest
    obtain ⟨row, hrow, hstate⟩ := hdb.requests id request hrequest
    exact ⟨row, h.kept hrow, hstate⟩
  · rw [h.requests]
    exact hdb.single
  · intro r receipt hreceipt
    rw [h.receipts] at hreceipt
    obtain ⟨row, hrow, hstate⟩ := hdb.receipts r receipt hreceipt
    exact ⟨row, h.kept hrow, hstate⟩
  · intro r row hrow
    rcases hobject r row hrow with ⟨hr, hnew⟩ | hold
    · rw [hr, hnew]
      exact h.content
    · exact hdb.content r row hold

theorem lookup_dropReference {o : Owner} {r : String} :
    (db.dropReference ref owner).references.lookup o = some r <->
      db.references.lookup o = some r ∧ ¬ (o = owner ∧ r = ref) := by
  rw [dropReference, lookup_filter]
  cases hlookup : db.references.lookup o with
  | none => simp
  | some r' =>
      by_cases hgone : o = owner ∧ r' = ref
      · obtain ⟨rfl, rfl⟩ := hgone
        simp
      · have hkept : (!decide (o = owner ∧ r' = ref)) = true := by
          rw [decide_eq_false hgone]
          rfl
        rw [Option.filter_some, if_pos hkept]
        constructor
        · intro h
          cases h
          exact ⟨rfl, hgone⟩
        · intro h
          exact h.1

/-- No upload depends on the reference. -/
def Unstaged (db : Database) (owner : Owner) : Prop :=
  forall id upload, db.uploads.lookup id = some upload -> stagingOwner id ≠ owner

theorem Released.sound (hdb : Sound db) (hunstaged : db.Unstaged owner)
    (h : Released ref owner deletionId db db') : Sound db' := by
  have hstaged : forall id upload, db.uploads.lookup id = some upload ->
      (db.dropReference ref owner).references.lookup (stagingOwner id) =
        some upload.objectRef := by
    intro id upload hupload
    rw [lookup_dropReference]
    refine ⟨hdb.staged id upload hupload, ?_⟩
    intro hgone
    exact hunstaged id upload hupload hgone.1
  cases h with
  | kept row hrow howned =>
      refine ⟨?_, ?_, hstaged, hdb.requested, hdb.requests, hdb.single, hdb.receipts,
        hdb.content⟩
      · intro o r hlookup
        exact hdb.available o r (lookup_dropReference.mp hlookup).1
      · intro r row' hrow' hstate
        by_cases hr : r = ref
        · subst hr
          have hsame : row = row' := Option.some.inj (hrow.symm.trans hrow')
          subst hsame
          exact referenced_eq_true.mp (howned hstate)
        · obtain ⟨o, ho⟩ := hdb.owned r row' hrow' hstate
          exact ⟨o, lookup_dropReference.mpr ⟨ho, fun hgone => hr hgone.2⟩⟩
  | requested row hrow hstate hfree hid hsingle =>
      have hrequest : forall id request, (db.requests.insertNew deletionId
          ⟨ref, row.digest, row.byteLength⟩).lookup id = some request ->
          id = deletionId ∧ request.objectRef = ref ∨
            id ≠ deletionId ∧ db.requests.lookup id = some request := by
        intro id request hlookup
        rw [lookup_insertNew] at hlookup
        by_cases hsame : id = deletionId
        · rw [if_pos hsame, hid] at hlookup
          cases hlookup
          exact Or.inl ⟨hsame, rfl⟩
        · rw [if_neg hsame] at hlookup
          exact Or.inr ⟨hsame, hlookup⟩
      refine ⟨?_, ?_, hstaged, ?_, ?_, ?_, ?_, ?_⟩
      · intro o r hlookup
        have hr : r ≠ ref := by
          intro hr
          subst hr
          exact referenced_eq_false.mp hfree o hlookup
        obtain ⟨row', hrow', hstate'⟩ := hdb.available o r (lookup_dropReference.mp hlookup).1
        refine ⟨row', ?_, hstate'⟩
        rw [lookup_modify, if_neg hr, hrow']
      · intro r row' hrow' hstate'
        rcases lookup_modify_cases hrow' with ⟨_, old, _, hnew⟩ | ⟨hr, hold⟩
        · subst hnew
          cases hstate'
        · obtain ⟨o, ho⟩ := hdb.owned r row' hold hstate'
          exact ⟨o, lookup_dropReference.mpr ⟨ho, fun hgone => hr hgone.2⟩⟩
      · intro r row' hrow' hstate'
        rcases lookup_modify_cases hrow' with ⟨hr, _⟩ | ⟨_, hold⟩
        · refine ⟨deletionId, ⟨ref, row.digest, row.byteLength⟩, ?_, hr.symm⟩
          rw [lookup_insertNew, if_pos rfl, hid]
          rfl
        · obtain ⟨id, request, hlookup, hr⟩ := hdb.requested r row' hold hstate'
          refine ⟨id, request, ?_, hr⟩
          have hne : id ≠ deletionId := by
            intro hsame
            rw [hsame, hid] at hlookup
            cases hlookup
          rw [lookup_insertNew, if_neg hne, hlookup]
      · intro id request hlookup
        rcases hrequest id request hlookup with ⟨_, href⟩ | ⟨_, hold⟩
        · refine ⟨{ row with state := .deleting }, ?_, by simp⟩
          rw [href, lookup_modify, if_pos rfl, hrow]
          rfl
        · obtain ⟨row', hrow', hstate'⟩ := hdb.requests id request hold
          refine ⟨row', ?_, hstate'⟩
          rw [lookup_modify, if_neg (hsingle id request hold), hrow']
      · intro id id' request request' hlookup hlookup' hsame
        rcases hrequest id request hlookup with ⟨hid1, href⟩ | ⟨_, hold⟩
        · rcases hrequest id' request' hlookup' with ⟨hid2, _⟩ | ⟨_, hold'⟩
          · rw [hid1, hid2]
          · exact absurd (hsame.symm.trans href) (hsingle id' request' hold')
        · rcases hrequest id' request' hlookup' with ⟨_, href'⟩ | ⟨_, hold'⟩
          · exact absurd (hsame.trans href') (hsingle id request hold)
          · exact hdb.single id id' request request' hold hold' hsame
      · intro r receipt hreceipt
        obtain ⟨row', hrow', hstate'⟩ := hdb.receipts r receipt hreceipt
        have hr : r ≠ ref := by
          intro hr
          subst hr
          rw [hrow] at hrow'
          cases hrow'
          rw [hstate] at hstate'
          cases hstate'
        refine ⟨row', ?_, hstate'⟩
        rw [lookup_modify, if_neg hr, hrow']
      · intro r row' hrow'
        rcases lookup_modify_cases hrow' with ⟨hr, old, hold, hnew⟩ | ⟨_, hold⟩
        · rw [hr, hnew]
          exact hdb.content ref old hold
        · exact hdb.content r row' hold

theorem Sound.deleteUpload (hdb : Sound db) : Sound (db.deleteUpload stagingId) := by
  refine ⟨hdb.available, hdb.owned, ?_, hdb.requested, hdb.requests, hdb.single,
    hdb.receipts, hdb.content⟩
  intro id upload hupload
  rw [Database.deleteUpload, lookup_filter, Option.filter_eq_some_iff] at hupload
  exact hdb.staged id upload hupload.1

theorem unstaged_deleteUpload : (db.deleteUpload stagingId).Unstaged (stagingOwner stagingId) := by
  intro id upload hupload howner
  rw [Database.deleteUpload, lookup_filter, Option.filter_eq_some_iff] at hupload
  have hid : id = stagingId := congrArg Owner.id howner
  subst hid
  simp at hupload

theorem sound_releaseUpload {result : Option ObjectDeletionIdentity} (hdb : Sound db)
    (h : db.releaseUpload stagingId ref = .ok (result, db')) : Sound db' :=
  (releaseUpload_ok h).sound hdb.deleteUpload unstaged_deleteUpload

variable {ownerUserId : Option Uuid} {now : Time}

theorem sound_stageObjectUpload (hdb : Sound db)
    (h : db.stageObjectUpload now stagingId object ownerUserId = .ok db') : Sound db' := by
  obtain ⟨db1, hadd, h⟩ := bind_eq_ok h
  obtain ⟨_, hmatches, h⟩ := bind_eq_ok h
  have hregistered := addObjectReference_ok hadd
  have hdb1 := hregistered.sound hdb
  rw [reject_eq_ok, not_not] at hmatches
  obtain ⟨row, hrow, href, _⟩ := hmatches
  cases h
  refine ⟨hdb1.available, hdb1.owned, ?_, hdb1.requested, hdb1.requests, hdb1.single,
    hdb1.receipts, hdb1.content⟩
  intro id upload hupload
  by_cases hid : id = stagingId
  · subst hid
    have hsame : row = upload := Option.some.inj (hrow.symm.trans hupload)
    subst hsame
    rw [href]
    exact hregistered.owned
  · rw [lookup_insertNew, if_neg hid] at hupload
    exact hdb1.staged id upload hupload

theorem sound_publishObjectReference {staging : Option Uuid} (hdb : Sound db)
    (h : db.publishObjectReference now staging object owner ownerUserId = .ok db') :
    Sound db' := by
  cases staging with
  | some stagingId =>
      obtain ⟨_, _, h⟩ := bind_eq_ok h
      obtain ⟨_, _, h⟩ := bind_eq_ok h
      obtain ⟨_, _, h⟩ := bind_eq_ok h
      obtain ⟨_, _, h⟩ := bind_eq_ok h
      obtain ⟨db1, hadd, h⟩ := bind_eq_ok h
      obtain ⟨⟨result, db2⟩, hrelease, h⟩ := bind_eq_ok h
      cases h
      exact sound_releaseUpload ((addObjectReference_ok hadd).sound hdb) hrelease
  | none =>
      obtain ⟨_, _, h⟩ := bind_eq_ok h
      obtain ⟨_, _, h⟩ := bind_eq_ok h
      obtain ⟨_, _, h⟩ := bind_eq_ok h
      exact (addObjectReference_ok h).sound hdb

theorem sound_abandonObjectUpload {result : Option ObjectDeletionIdentity} (hdb : Sound db)
    (h : db.abandonObjectUpload stagingId ownerUserId = .ok (result, db')) : Sound db' := by
  unfold abandonObjectUpload at h
  cases hupload : db.uploads.lookup stagingId with
  | none =>
      rw [hupload] at h
      cases h
      exact hdb
  | some upload =>
      rw [hupload] at h
      obtain ⟨_, _, h⟩ := bind_eq_ok h
      exact sound_releaseUpload hdb h

theorem sound_requestObjectUploadExpiry (hdb : Sound db)
    (h : db.requestObjectUploadExpiry now stagingId ownerUserId = .ok db') :
    Sound db' := by
  unfold requestObjectUploadExpiry at h
  cases hupload : db.uploads.lookup stagingId with
  | none =>
      rw [hupload] at h
      cases h
      exact hdb
  | some upload =>
      rw [hupload] at h
      obtain ⟨_, _, h⟩ := bind_eq_ok h
      cases h
      refine ⟨hdb.available, hdb.owned, ?_, hdb.requested, hdb.requests, hdb.single,
        hdb.receipts, hdb.content⟩
      intro id row hrow
      rw [lookup_modify] at hrow
      by_cases hid : id = stagingId
      · rw [if_pos hid, Option.map_eq_some_iff] at hrow
        obtain ⟨old, hold, rfl⟩ := hrow
        exact hdb.staged id old hold
      · rw [if_neg hid] at hrow
        exact hdb.staged id row hrow

theorem sound_expireOneObjectUpload {result : Option ObjectDeletionIdentity} (hdb : Sound db)
    (h : db.expireOneObjectUpload now stagingId = .ok (result, db')) :
    Sound db' := by
  unfold expireOneObjectUpload at h
  cases hupload : db.uploads.lookup stagingId with
  | none =>
      rw [hupload] at h
      cases h
      exact hdb
  | some upload =>
      rw [hupload] at h
      by_cases hexpired : upload.expiresAt ≤ now
      · simp only [hexpired, if_true] at h
        exact sound_releaseUpload hdb h
      · simp only [hexpired, if_false] at h
        cases h
        exact hdb

theorem sound_completeObjectDeletion {deletion : ObjectDeletionIdentity} (hdb : Sound db)
    (h : db.completeObjectDeletion now deletion = .ok db') : Sound db' := by
  rcases completeObjectDeletion_ok h with rfl | ⟨hdeletable, hfresh, rfl⟩
  · exact hdb
  · obtain ⟨row, hrow, _, hstate⟩ := hdeletable.row
    refine ⟨?_, ?_, hdb.staged, ?_, ?_, hdb.single, ?_, ?_⟩
    · intro o r hlookup
      obtain ⟨row', hrow', hstate'⟩ := hdb.available o r hlookup
      have hr : r ≠ deletion.objectRef := by
        intro hr
        subst hr
        exact hdeletable.free o hlookup
      refine ⟨row', ?_, hstate'⟩
      rw [lookup_modify, if_neg hr, hrow']
    · intro r row' hrow' hstate'
      rcases lookup_modify_cases hrow' with ⟨_, old, _, hnew⟩ | ⟨_, hold⟩
      · subst hnew
        cases hstate'
      · exact hdb.owned r row' hold hstate'
    · intro r row' hrow' hstate'
      rcases lookup_modify_cases hrow' with ⟨hr, _⟩ | ⟨_, hold⟩
      · subst hr
        apply hdb.requested _ row hrow
        rw [hstate]
        simp
      · exact hdb.requested r row' hold hstate'
    · intro id request hrequest
      obtain ⟨row', hrow', hstate'⟩ := hdb.requests id request hrequest
      rw [lookup_modify]
      by_cases hr : request.objectRef = deletion.objectRef
      · rw [if_pos hr, hrow']
        exact ⟨{ row' with state := .deleted }, rfl, by simp⟩
      · rw [if_neg hr, hrow']
        exact ⟨row', rfl, hstate'⟩
    · intro r receipt hreceipt
      rw [lookup_insertNew] at hreceipt
      by_cases hr : r = deletion.objectRef
      · subst hr
        refine ⟨{ row with state := .deleted }, ?_, rfl⟩
        rw [lookup_modify, if_pos rfl, hrow]
        rfl
      · rw [if_neg hr] at hreceipt
        obtain ⟨row', hrow', hstate'⟩ := hdb.receipts r receipt hreceipt
        refine ⟨row', ?_, hstate'⟩
        rw [lookup_modify, if_neg hr, hrow']
    · intro r row' hrow'
      rcases lookup_modify_cases hrow' with ⟨hr, old, hold, hnew⟩ | ⟨_, hold⟩
      · rw [hr, hnew]
        exact hdb.content _ old hold
      · exact hdb.content r row' hold

end Database

end ObjectRegistry
end KnowledgeBrain
