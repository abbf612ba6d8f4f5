import KnowledgeBrain.Workflow.Schema
import KnowledgeBrain.Foundation.Folds

/-!
# The object registry tables

Bytes are stored under their digest and shared by every owner that refers to
them.  The registry keeps one row for each object, one reference for each
owner, the staged uploads, and, once the last owner is gone, the deletion
request and the receipt of the finished deletion.

A reference row has two unique keys, the full row and the owner alone, so the
table is keyed by the owner.
-/

namespace KnowledgeBrain
namespace ObjectRegistry

open Foundation
open Workflow (Uuid Time)

inductive ObjectState where
  | available
  | deleting
  | deleted
deriving DecidableEq

/-- What a caller says about the bytes it refers to. -/
structure ObjectIdentity where
  objectRef : String
  digest : String
  mediaType : String
  byteLength : Int
deriving DecidableEq

/-- A row of `platform_objects`. -/
structure ObjectRow where
  digest : String
  mediaType : String
  byteLength : Int
  state : ObjectState
deriving DecidableEq

/-- The owner columns of `platform_object_references`. -/
structure Owner where
  kind : String
  id : Uuid
  occurrence : String
deriving DecidableEq

/-- A row of `platform_object_uploads`. -/
structure Upload where
  objectRef : String
  ownerUserId : Option Uuid
  createdAt : Time
  expiresAt : Time
deriving DecidableEq

/-- A row of `platform_object_deletion_requests`. -/
structure DeletionRequest where
  objectRef : String
  digest : String
  byteLength : Int
deriving DecidableEq

/-- A row of `platform_object_deletion_receipts`. -/
structure DeletionReceipt where
  digest : String
  byteLength : Int
  deletionId : Uuid
deriving DecidableEq

structure ObjectDeletionIdentity where
  deletionId : Uuid
  objectRef : String
  digest : String
  byteLength : Int
deriving DecidableEq

structure Database where
  objects : Table String ObjectRow
  references : Table Owner String
  uploads : Table Uuid Upload
  requests : Table Uuid DeletionRequest
  receipts : Table String DeletionReceipt

inductive RegistryError where
  | protocol (message : String)
  | rowNotFound
  | constraint (name : String)
deriving DecidableEq

/-- `platform::object_ref`. -/
def objectRef (digest : String) : String :=
  "objects/" ++ digest

/-- The reference an upload holds until it is published or given up. -/
def stagingOwner (stagingId : Uuid) : Owner :=
  ⟨"object_upload_staging", stagingId, "payload"⟩

namespace Database

/-- Some owner refers to the object. -/
def referenced (db : Database) (ref : String) : Bool :=
  db.references.any fun _ r => r = ref

theorem referenced_eq_true {db : Database} {ref : String} :
    db.referenced ref = true <-> exists owner, db.references.lookup owner = some ref := by
  unfold referenced
  rw [Table.any_eq_true]
  constructor
  · rintro ⟨owner, r, hlookup, hr⟩
    have hr : r = ref := of_decide_eq_true hr
    subst hr
    exact ⟨owner, hlookup⟩
  · rintro ⟨owner, hlookup⟩
    exact ⟨owner, ref, hlookup, decide_eq_true rfl⟩

theorem referenced_eq_false {db : Database} {ref : String} :
    db.referenced ref = false <-> forall owner, db.references.lookup owner ≠ some ref := by
  rw [← Bool.not_eq_true, referenced_eq_true]
  exact not_exists

end Database

/-!
# The object lifecycle functions

Every function is one database transaction, or a part of its caller's; a
function that fails leaves its transaction to be rolled back.  The row of the
object is locked first, so the transactions on one object run one after the
other.
-/

namespace Database

/-!
## References
-/

def lockObject (db : Database) (ref : String) : Except RegistryError ObjectRow :=
  match db.objects.lookup ref with
  | some row => .ok row
  | none => .error .rowNotFound

def checkObject (row : ObjectRow) (object : ObjectIdentity) : Except RegistryError Unit :=
  reject
    (row.digest ≠ object.digest ∨ row.mediaType ≠ object.mediaType ∨
      row.byteLength ≠ object.byteLength ∨ row.state ≠ .available)
    (.protocol "object registry identity mismatch or object unavailable")

/-- The row a first registration inserts. -/
def newObject (object : ObjectIdentity) : ObjectRow :=
  ⟨object.digest, object.mediaType, object.byteLength, .available⟩

def addObjectReference (object : ObjectIdentity) (owner : Owner) (db : Database) :
    Except RegistryError Database := do
  reject (object.objectRef ≠ objectRef object.digest)
    (.constraint "platform_objects_check")
  let db1 := { db with objects := db.objects.insertNew object.objectRef (newObject object) }
  let registry ← db1.lockObject object.objectRef
  reject (db.receipts.contains object.objectRef = true)
    (.protocol "deleted object digest cannot be revived")
  checkObject registry object
  let db2 := { db1 with references := db1.references.insertNew owner object.objectRef }
  reject (db2.references.lookup owner ≠ some object.objectRef)
    (.protocol "object owner occurrence already references another object")
  return db2

def loadDeletion (deletionId : Uuid) (db : Database) : Option ObjectDeletionIdentity :=
  (db.requests.lookup deletionId).map fun request =>
    ⟨deletionId, request.objectRef, request.digest, request.byteLength⟩

/-- The first statement of a release: the reference is gone. -/
def dropReference (ref : String) (owner : Owner) (db : Database) : Database :=
  { db with references := db.references.filter fun o r => !decide (o = owner ∧ r = ref) }

/-- The object turns unavailable and the deletion becomes durable. -/
def requestDeletion (ref : String) (registry : ObjectRow) (deletionId : Uuid)
    (db : Database) : Except RegistryError Database := do
  reject (db.requests.contains deletionId = true)
    (.constraint "platform_object_deletion_requests_pkey")
  reject ((db.requests.any fun _ request => request.objectRef = ref) = true)
    (.constraint "platform_object_deletion_requests_object_ref_key")
  return { db with
    objects := db.objects.modify ref fun row => { row with state := .deleting }
    requests := db.requests.insertNew deletionId ⟨ref, registry.digest, registry.byteLength⟩ }

/-- Only the release of the last reference changes the object. -/
def retireUnreferenced (ref : String) (registry : ObjectRow) (deletionId : Uuid)
    (db : Database) : Except RegistryError Database :=
  if registry.state = .available ∧ db.referenced ref = false then
    db.requestDeletion ref registry deletionId
  else .ok db

def releaseObjectReference (ref : String) (owner : Owner) (deletionId : Uuid)
    (db : Database) : Except RegistryError (Option ObjectDeletionIdentity × Database) := do
  let registry ← db.lockObject ref
  let db2 ← (db.dropReference ref owner).retireUnreferenced ref registry deletionId
  let deletion := db2.loadDeletion deletionId
  reject
    (∃ value ∈ deletion, value.objectRef ≠ ref ∨ value.digest ≠ registry.digest ∨
      value.byteLength ≠ registry.byteLength)
    (.protocol "object deletion identity mismatch")
  return (deletion, db2)

/-!
## Uploads
-/

/-- `expires_at` defaults to 24 hours after the insertion. -/
def uploadLease : Time := 24 * 60 * 60

def stageObjectUpload (now : Time) (stagingId : Uuid) (object : ObjectIdentity)
    (ownerUserId : Option Uuid) (db : Database) : Except RegistryError Database := do
  let db1 ← db.addObjectReference object (stagingOwner stagingId)
  let upload : Upload := ⟨object.objectRef, ownerUserId, now, now + uploadLease⟩
  let db2 := { db1 with uploads := db1.uploads.insertNew stagingId upload }
  reject
    (¬ ∃ row ∈ db2.uploads.lookup stagingId,
      row.objectRef = object.objectRef ∧ row.ownerUserId = ownerUserId)
    (.protocol "object upload staging identity mismatch")
  return db2

def lockUpload (db : Database) (stagingId : Uuid) : Except RegistryError Upload :=
  match db.uploads.lookup stagingId with
  | some upload => .ok upload
  | none => .error .rowNotFound

/-- The checks on the upload a publication consumes. -/
def checkUpload (now : Time) (ref : String) (ownerUserId : Option Uuid) (upload : Upload) :
    Except RegistryError Unit := do
  reject (upload.expiresAt ≤ now) (.protocol "object upload staging lease expired")
  reject (upload.objectRef ≠ ref ∨ upload.ownerUserId ≠ ownerUserId)
    (.protocol "object upload staging owner mismatch")

def deleteUpload (stagingId : Uuid) (db : Database) : Database :=
  { db with uploads := db.uploads.filter fun id _ => !decide (id = stagingId) }

/-- The upload row goes and its reference with it. -/
def releaseUpload (stagingId : Uuid) (ref : String) (db : Database) :
    Except RegistryError (Option ObjectDeletionIdentity × Database) :=
  (db.deleteUpload stagingId).releaseObjectReference ref (stagingOwner stagingId) stagingId

/-- An owner other than an upload refers to the object. -/
def published (db : Database) (ref : String) : Bool :=
  db.references.any fun owner r => r = ref ∧ owner.kind ≠ "object_upload_staging"

def publishObjectReference (now : Time) (stagingId : Option Uuid) (object : ObjectIdentity)
    (owner : Owner) (ownerUserId : Option Uuid) (db : Database) :
    Except RegistryError Database := do
  match stagingId with
  | some stagingId =>
      let upload ← db.lockUpload stagingId
      checkUpload now object.objectRef ownerUserId upload
      let registry ← db.lockObject object.objectRef
      checkObject registry object
      let db1 ← db.addObjectReference object owner
      let (_, db2) ← db1.releaseUpload stagingId object.objectRef
      return db2
  | none =>
      let registry ← db.lockObject object.objectRef
      checkObject registry object
      reject (db.published object.objectRef = false)
        (.protocol "object requires a valid upload staging identity")
      db.addObjectReference object owner

def abandonObjectUpload (stagingId : Uuid) (ownerUserId : Option Uuid) (db : Database) :
    Except RegistryError (Option ObjectDeletionIdentity × Database) := do
  match db.uploads.lookup stagingId with
  | some upload =>
      reject (upload.ownerUserId ≠ ownerUserId)
        (.protocol "object upload staging owner mismatch")
      db.releaseUpload stagingId upload.objectRef
  | none => return (db.loadDeletion stagingId, db)

def requestObjectUploadExpiry (now : Time) (stagingId : Uuid) (ownerUserId : Option Uuid)
    (db : Database) : Except RegistryError Database := do
  match db.uploads.lookup stagingId with
  | some upload =>
      reject (upload.ownerUserId ≠ ownerUserId)
        (.protocol "object upload staging owner mismatch")
      return { db with
        uploads := db.uploads.modify stagingId fun row =>
          { row with expiresAt := max now (row.createdAt + 1) } }
  | none => return db

def expireOneObjectUpload (now : Time) (stagingId : Uuid) (db : Database) :
    Except RegistryError (Option ObjectDeletionIdentity × Database) :=
  match db.uploads.lookup stagingId with
  | some upload =>
      if upload.expiresAt ≤ now then db.releaseUpload stagingId upload.objectRef
      else .ok (none, db)
  | none => .ok (db.loadDeletion stagingId, db)

/-!
## Deletion
-/

/-- The receipt of exactly this deletion exists. -/
def deletionCompleted (db : Database) (deletion : ObjectDeletionIdentity) : Bool :=
  decide (db.receipts.lookup deletion.objectRef =
    some ⟨deletion.digest, deletion.byteLength, deletion.deletionId⟩)

/-- Some owner or some upload that has not expired uses the object. -/
def owned (now : Time) (db : Database) (ref : String) : Bool :=
  db.referenced ref ||
    db.uploads.any fun _ upload => upload.objectRef = ref ∧ now < upload.expiresAt

def objectDeletionPreflight (now : Time) (deletion : ObjectDeletionIdentity)
    (db : Database) : Except RegistryError Bool := do
  let registry ← db.lockObject deletion.objectRef
  reject
    (db.loadDeletion deletion.deletionId ≠ some deletion ∨
      registry.digest ≠ deletion.digest ∨ registry.byteLength ≠ deletion.byteLength)
    (.protocol "object deletion business fence is not current")
  if db.deletionCompleted deletion then
    return true
  else
    reject (registry.state ≠ .deleting ∨ db.owned now deletion.objectRef = true)
      (.protocol "object deletion business fence is not current")
    return false

/-- The receipt is inserted and the object reaches its last state. -/
def recordDeletion (deletion : ObjectDeletionIdentity) (db : Database) :
    Except RegistryError Database := do
  reject (db.receipts.contains deletion.objectRef = true)
    (.constraint "platform_object_deletion_receipts_pkey")
  reject ((db.receipts.any fun _ receipt => receipt.deletionId = deletion.deletionId) = true)
    (.constraint "platform_object_deletion_receipts_deletion_id_key")
  return { db with
    receipts := db.receipts.insertNew deletion.objectRef
      ⟨deletion.digest, deletion.byteLength, deletion.deletionId⟩
    objects := db.objects.modify deletion.objectRef fun row => { row with state := .deleted } }

def completeObjectDeletion (now : Time) (deletion : ObjectDeletionIdentity)
    (db : Database) : Except RegistryError Database := do
  let completed ← db.objectDeletionPreflight now deletion
  if completed then
    return db
  else
    db.recordDeletion deletion

end Database

end ObjectRegistry
end KnowledgeBrain
