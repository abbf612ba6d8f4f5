import KnowledgeBrain.Foundation.Runs
import KnowledgeBrain.ObjectRegistry.Lifecycle

/-!
# Word versions and editor sessions

The tables of the Word editor, the errors of its handlers, and the
transactions in which they read and write.  A transaction has the project row
locked after its second statement, so that it runs as one step; any of its
statements may fail, and the confirmation of its commit may be lost.
-/

namespace KnowledgeBrain
namespace Editor

open Foundation
open Workflow (Uuid Time)

/-!
# Errors
-/

structure ApiErr where
  status : Nat
  code : String
  message : String
deriving DecidableEq

def forbidden : ApiErr :=
  ⟨403, "FORBIDDEN", "insufficient role"⟩

def notFound (message : String) : ApiErr :=
  ⟨404, "NOT_FOUND", message⟩

def validation (message : String) : ApiErr :=
  ⟨400, "VALIDATION", message⟩

def conflict (message : String) : ApiErr :=
  ⟨409, "DOCX_VERSION_CONFLICT", message⟩

def unavailable (message : String) : ApiErr :=
  ⟨503, "ONLYOFFICE_UNAVAILABLE", message⟩

/-- Every error of the database reads the same. -/
def pgError : ApiErr :=
  ⟨503, "TENDER_STORAGE_UNAVAILABLE", "招标数据暂不可用，请重试；部署时须完成对应迁移"⟩

/-!
# Tables
-/

inductive EditorMode where
  | view
  | edit
deriving DecidableEq

inductive SaveState where
  | pending
  | saved
  | failed
deriving DecidableEq

inductive Source where
  | generated
  | manual
  | recovered
deriving DecidableEq

/-- A row of `tender_draft_versions`. -/
structure Version where
  projectId : Uuid
  executionId : String
  roundId : Uuid
  revision : Nat
  parentVersionId : Option Uuid
  source : Source
  objectRef : String
  contentSha256 : String
  byteLength : Int
  outline : String
  createdByUserId : Uuid
deriving DecidableEq

/-- A row of `tender_draft_state`. -/
structure DraftState where
  versionId : Uuid
  sessionId : Option Uuid
  pendingSaveId : Option Uuid
  editorError : Option (String × Int)
deriving DecidableEq

/-- A row of `tender_draft_saves`. -/
structure Save where
  projectId : Uuid
  sessionId : Uuid
  parentVersionId : Uuid
  parentSha256 : String
  state : SaveState
  resultVersionId : Option Uuid
  callbackSha256 : Option String
  errorCode : Option Int
deriving DecidableEq

/-- A row of `tender_draft_recoveries`. -/
structure Recovery where
  callbackSha256 : String
  versionId : Uuid
deriving DecidableEq

/-- A row of `tender_editor_sessions`. -/
structure Session where
  projectId : Uuid
  baseVersionId : Uuid
  ownerUserId : Uuid
  mode : EditorMode
  closedAt : Option Time
deriving DecidableEq

structure Database where
  registry : ObjectRegistry.Database
  /-- The owners of the projects. -/
  projects : Table Uuid Uuid
  versions : Table Uuid Version
  draftState : Table Uuid DraftState
  saves : Table Uuid Save
  recoveries : Table Uuid Recovery
  sessions : Table Uuid Session

/-!
# Transactions
-/

/-- What becomes of a statement. -/
inductive Fault where
  | none
  | failed
  /-- A commit is done and its confirmation does not arrive. -/
  | lost
deriving DecidableEq

/-- The work of a transaction, the uploads it has published, and the coming faults. -/
structure Work where
  db : Database
  published : List (Uuid × Uuid)
  inserted : List Uuid
  faults : List Fault

abbrev Tx (A : Type) : Type :=
  StateT Work (Except ApiErr) A

/-- The next statement may fail. -/
def statement : Tx Unit := fun work =>
  match work.faults with
  | [] => .ok ((), work)
  | .none :: rest => .ok ((), { work with faults := rest })
  | _ :: _ => .error pgError

def query {A : Type} (read : Database -> A) : Tx A := do
  statement
  let work <- get
  return read work.db

def execute (write : Database -> Database) : Tx Unit := do
  statement
  modify fun work => { work with db := write work.db }

/-- A row that has to be there. -/
def fetchOne {A : Type} (read : Database -> Option A) : Tx A := do
  match <- query read with
  | some a => return a
  | none => throw pgError

/-- How a transaction ends. -/
inductive Ending (A : Type) where
  | commit (a : A)
  | rollback (a : A)
  /-- Nothing is said, and the transaction is dropped. -/
  | drop (a : A)

/-- What a finished transaction leaves. -/
structure Left (A : Type) where
  result : Except ApiErr A
  /-- The database if the transaction was committed. -/
  committed : Option Work

def runTransaction {A : Type} (body : Tx (Ending A)) (faults : List Fault) (db : Database) :
    Left A :=
  match (do statement; body : Tx (Ending A)).run ⟨db, [], [], faults⟩ with
  | .error e => ⟨.error e, none⟩
  | .ok (.drop a, _) => ⟨.ok a, none⟩
  | .ok (.rollback a, work) =>
      ⟨if work.faults.head?.getD .none = .none then .ok a else .error pgError, none⟩
  | .ok (.commit a, work) =>
      match work.faults.head?.getD .none with
      | .none => ⟨.ok a, some work⟩
      | .failed => ⟨.error pgError, none⟩
      | .lost => ⟨.error pgError, some work⟩

/-!
# Uploads
-/

def docx : String :=
  "application/vnd.openxmlformats-officedocument.wordprocessingml.document"

structure Blob where
  sha : String
  len : Int
  staging : Uuid
deriving DecidableEq

def Blob.identity (blob : Blob) : ObjectRegistry.ObjectIdentity :=
  ⟨ObjectRegistry.objectRef blob.sha, blob.sha, docx, blob.len⟩

/-- `publish_blob`. -/
def publishBlob (now : Time) (blob : Blob) (version owner : Uuid) : Tx Unit := do
  statement
  let work <- get
  match work.db.registry.publishObjectReference now (some blob.staging) blob.identity
    ⟨"tender_web_docx_version", version, "payload"⟩ (some owner) with
  | .error _ => throw pgError
  | .ok registry =>
      let db := { work.db with registry := registry }
      let published := (blob.staging, version) :: work.published
      set { work with db := db, published := published }

/-- A new row of `tender_draft_versions`. -/
def insertVersion (id : Uuid) (version : Version) : Tx Unit := do
  statement
  let work <- get
  if work.db.versions.contains id = true ∨ version.byteLength ≤ 0 then throw pgError
  else
    let db := { work.db with versions := work.db.versions.insertNew id version }
    set { work with db := db, inserted := id :: work.inserted }

/-- `project_lock`. -/
def projectLock (project owner : Uuid) : Tx Unit := do
  let found <- query fun db => db.projects.lookup project
  if found ≠ some owner then throw forbidden

/-- `COALESCE(max(revision),0)+1`. -/
def nextRevision (project : Uuid) (db : Database) : Nat :=
  (db.versions.rows.filter fun row => row.2.projectId = project).foldl
    (fun revision row => max revision row.2.revision) 0 + 1

/-!
# The handlers that stage Word files

An import, and the callbacks of the Word service.  Each stages the bytes that
it was given or has fetched and then decides, from the outcome of one
transaction, whether the staged upload was used.
-/

structure Capability where
  project : Uuid
  key : Uuid
  version : Uuid
  owner : Uuid
  mode : EditorMode
deriving DecidableEq

/-!
# Queries
-/

/-- The generated version of an execution. -/
def generatedVersion (project : Uuid) (execution : String) (db : Database) : Option Uuid :=
  (db.versions.rows.find? fun row => row.2.projectId = project ∧ row.2.executionId = execution ∧
    row.2.source = .generated).map Prod.fst

/-- `read_version`, before the error for none. -/
def findVersion (project version : Uuid) (db : Database) : Option Version :=
  (db.versions.lookup version).filter fun row => row.projectId = project

def findSave (save project key : Uuid) (db : Database) : Option Save :=
  (db.saves.lookup save).filter fun row => row.projectId = project ∧ row.sessionId = key

/-- The selected draft of a project, with its version. -/
structure Head where
  version : Uuid
  key : Option Uuid
  pending : Option Uuid
  sha : String
  roundId : Uuid
  executionId : String
deriving DecidableEq

def findHead (project : Uuid) (db : Database) : Option Head := do
  let draft <- db.draftState.lookup project
  let version <- db.versions.lookup draft.versionId
  return ⟨draft.versionId, draft.sessionId, draft.pendingSaveId, version.contentSha256,
    version.roundId, version.executionId⟩

/-- The query of `verify_session`. -/
def validSession (cap : Capability) (db : Database) : Bool :=
  match db.sessions.lookup cap.key with
  | some session => session.projectId = cap.project ∧ session.baseVersionId = cap.version ∧
      session.ownerUserId = cap.owner ∧ db.projects.lookup cap.project = some cap.owner ∧
      session.mode = cap.mode ∧ session.closedAt = none
  | none => false

/-!
# Transactions
-/

/-- The version that a staged file becomes. -/
def newVersion (project : Uuid) (execution : String) (round : Uuid) (revision : Nat)
    (parent : Option Uuid) (source : Source) (blob : Blob) (outline : String) (owner : Uuid) :
    Version :=
  ⟨project, execution, round, revision, parent, source, ObjectRegistry.objectRef blob.sha,
    blob.sha, blob.len, outline, owner⟩

/-- The transaction of `import_generated`. -/
def importTransaction (now : Time) (version round project : Uuid) (execution outline : String)
    (blob : Blob) (owner : Uuid) : Tx (Ending (Uuid × Bool)) := do
  projectLock project owner
  match <- query (generatedVersion project execution) with
  | some duplicate => return .rollback (duplicate, false)
  | none =>
      let revision <- query (nextRevision project)
      publishBlob now blob version owner
      insertVersion version
        (newVersion project execution round revision none .generated blob outline owner)
      execute fun db =>
        { db with draftState := db.draftState.insertNew project ⟨version, none, none, none⟩ }
      return .commit (version, true)

/-- `publish_save`. -/
def saveTransaction (now : Time) (version save : Uuid) (cap : Capability)
    (callbackSha outline : String) (blob : Blob) : Tx (Ending Unit) := do
  projectLock cap.project cap.owner
  let previous <- fetchOne (findSave save cap.project cap.key)
  if previous.state = .saved then
    if previous.callbackSha256 = some callbackSha then return .drop ()
    else throw (conflict "callback replay content changed")
  else
    let head <- fetchOne (findHead cap.project)
    if previous.state ≠ .pending ∨ head.version ≠ previous.parentVersionId ∨
        head.sha ≠ previous.parentSha256 ∨ head.key ≠ some cap.key ∨ head.pending ≠ some save then
      throw (conflict "saved Word parent or session changed")
    else
      let revision <- query (nextRevision cap.project)
      publishBlob now blob version cap.owner
      insertVersion version
        (newVersion cap.project head.executionId head.roundId revision
          (some previous.parentVersionId) .manual blob outline cap.owner)
      execute fun db => { db with
        draftState := db.draftState.modify cap.project fun draft =>
          { draft with versionId := version, pendingSaveId := none, editorError := none } }
      execute fun db => { db with
        saves := db.saves.modify save fun row =>
          { row with
            state := .saved, resultVersionId := some version, callbackSha256 := some callbackSha } }
      return .commit ()

/-- The transaction of `recover_final`. -/
def recoverTransaction (now : Time) (version : Uuid) (cap : Capability)
    (callbackSha outline : String) (blob : Blob) : Tx (Ending Bool) := do
  projectLock cap.project cap.owner
  match <- query fun db => db.recoveries.lookup cap.key with
  | some previous =>
      if previous.callbackSha256 = callbackSha then return .drop false
      else throw (conflict "final callback replay content changed")
  | none =>
      let head <- fetchOne (findHead cap.project)
      if head.key ≠ some cap.key then
        throw (conflict "the final callback belongs to an inactive editor")
      else
        let revision <- query (nextRevision cap.project)
        publishBlob now blob version cap.owner
        insertVersion version
          (newVersion cap.project head.executionId head.roundId revision (some head.version)
            .recovered blob outline cap.owner)
        execute fun db =>
          { db with recoveries := db.recoveries.insertNew cap.key ⟨callbackSha, version⟩ }
        execute fun db => { db with
          saves := db.saves.mapRows fun _ row =>
            if row.projectId = cap.project ∧ row.sessionId = cap.key ∧ row.state = .pending then
              { row with state := .failed, errorCode := some 2 }
            else row }
        execute fun db => { db with
          draftState := db.draftState.modify cap.project fun draft =>
            if draft.sessionId = some cap.key then
              { draft with sessionId := none, pendingSaveId := none, editorError := none }
            else draft }
        execute fun db => { db with
          sessions := db.sessions.modify cap.key fun session =>
            { session with closedAt := some now } }
        return .commit true

/-- The transaction of `record_failure`. -/
def failureTransaction (project key save : Uuid) (kind : String) (code : Int) :
    Tx (Ending Unit) := do
  execute fun db => { db with
    saves := db.saves.modify save fun row =>
      if row.projectId = project ∧ row.sessionId = key ∧ row.state = .pending then
        { row with state := .failed, errorCode := some code }
      else row }
  execute fun db => { db with
    draftState := db.draftState.modify project fun draft =>
      if draft.sessionId = some key ∧ draft.pendingSaveId = some save then
        { draft with pendingSaveId := none, editorError := some (kind, code) }
      else draft }
  return .commit ()

/-- The transaction of a callback that reports a closed editor. -/
def closeTransaction (now : Time) (cap : Capability) : Tx (Ending Unit) := do
  projectLock cap.project cap.owner
  execute fun db => { db with
    draftState := db.draftState.modify cap.project fun draft =>
      if draft.sessionId = some cap.key ∧ draft.pendingSaveId = none then
        { draft with sessionId := none, editorError := none }
      else draft }
  execute fun db => { db with
    sessions := db.sessions.modify cap.key fun session =>
      if (db.draftState.any fun _ draft => draft.sessionId = some cap.key) = true then session
      else { session with closedAt := some now } }
  return .commit ()

/-!
# Operations
-/

abbrev Bytes := List UInt8

/-- What a download returns: whether it succeeded, and the bytes up to the limit. -/
structure Response where
  success : Bool
  body : Except ApiErr Bytes

inductive Transaction where
  | importGenerated (project : Uuid) (execution outline : String) (blob : Blob) (owner : Uuid)
  | publishSave (save : Uuid) (cap : Capability) (callbackSha outline : String) (blob : Blob)
  | recoverFinal (cap : Capability) (callbackSha outline : String) (blob : Blob)
  | recordFailure (project key save : Uuid) (kind : String) (code : Int)
  | closeEditor (cap : Capability)

def Transaction.Result : Transaction -> Type
  | .importGenerated .. => Uuid × Bool
  | .publishSave .. => Unit
  | .recoverFinal .. => Bool
  | .recordFailure .. => Unit
  | .closeEditor .. => Unit

/-- What a handler asks of the database, the object store and other services. -/
inductive Op where
  | newUuid
  | readGenerated (project : Uuid) (execution : String)
  | readVersion (project version : Uuid)
  | readSave (save project key : Uuid)
  | readRecovery (key : Uuid)
  | verifySession (cap : Capability)
  | outline (execution : String) (bytes : Bytes)
  | fetch (url : String)
  | stageObjectUpload (blob : Blob) (owner : Uuid)
  | writeBlob (sha : String) (bytes : Bytes)
  | requestExpiry (blob : Blob) (owner : Uuid)
  | scheduleCleanup (staging : Uuid)
  | transaction (t : Transaction)

def Reply : Op -> Type
  | .newUuid => Uuid
  | .readGenerated .. => Except ApiErr (Option Uuid)
  | .readVersion .. => Except ApiErr (Option Version)
  | .readSave .. => Except ApiErr (Option Save)
  | .readRecovery .. => Except ApiErr (Option Recovery)
  | .verifySession .. => Except ApiErr Bool
  | .outline .. => Except ApiErr String
  | .fetch .. => Except ApiErr (Option Response)
  | .stageObjectUpload .. => Except ApiErr Unit
  | .writeBlob .. => Except Unit Unit
  | .requestExpiry .. => Except ApiErr Unit
  | .scheduleCleanup .. => Except String Unit
  | .transaction t => Except ApiErr t.Result

abbrev Handler (A : Type) : Type :=
  Program.Fallible Op Reply ApiErr A

def newUuid : Program Op Reply Uuid :=
  Program.perform Op.newUuid

/-- A request by the client, which may not be there; what is not sent has no response. -/
def fetch (url : String) : Handler (Option Response) :=
  ExceptT.mk (Program.perform (Op.fetch url))

def writeBlob (sha : String) (bytes : Bytes) : Program Op Reply (Except Unit Unit) :=
  Program.perform (Op.writeBlob sha bytes)

def readGenerated (project : Uuid) (execution : String) : Handler (Option Uuid) :=
  ExceptT.mk (Program.perform (Op.readGenerated project execution))

def readSave (save project key : Uuid) : Handler (Option Save) :=
  ExceptT.mk (Program.perform (Op.readSave save project key))

def readRecovery (key : Uuid) : Handler (Option Recovery) :=
  ExceptT.mk (Program.perform (Op.readRecovery key))

/-- The outline that `bridge` reads from the bytes. -/
def bridgeOutline (execution : String) (bytes : Bytes) : Handler String :=
  ExceptT.mk (Program.perform (Op.outline execution bytes))

def stageObjectUpload (blob : Blob) (owner : Uuid) : Handler Unit :=
  ExceptT.mk (Program.perform (Op.stageObjectUpload blob owner))

/-- `record_failure`. -/
def recordFailure (project key save : Uuid) (kind : String) (code : Int) : Handler Unit :=
  ExceptT.mk (Program.perform (Op.transaction (.recordFailure project key save kind code)))

/-- What a callback about a closed editor does once the session is verified. -/
def closeEditor (cap : Capability) : Handler Unit :=
  ExceptT.mk (Program.perform (Op.transaction (.closeEditor cap)))

/-- A transaction whose outcome the handler looks at. -/
def outcomeOf (t : Transaction) : Handler (Except ApiErr t.Result) :=
  ExceptT.lift (Program.perform (Op.transaction t))

def findVersionRow (project version : Uuid) : Handler (Option Version) :=
  ExceptT.mk (Program.perform (Op.readVersion project version))

def findValidSession (cap : Capability) : Handler Bool :=
  ExceptT.mk (Program.perform (Op.verifySession cap))

/-- `read_version`. -/
def readVersion (project version : Uuid) : Handler Version := do
  match <- findVersionRow project version with
  | some row => return row
  | none => throw (notFound "Word version")

/-- `verify_session`. -/
def verifySession (cap : Capability) : Handler Unit := do
  if (<- findValidSession cap) = false then throw forbidden

/-- What runs in the process itself. -/
structure Services where
  sha256 : Bytes -> String
  /-- The digest of a callback with its version and key. -/
  digest : String -> Uuid -> Uuid -> Except ApiErr String
  downloadUrl : String -> Except ApiErr String

/-!
# Handlers
-/

/-- `expire`; what goes wrong is ignored. -/
def expire (blob : Blob) (owner : Uuid) : Program Op Reply Unit := do
  let _ <- Program.perform (Op.requestExpiry blob owner)
  let _ <- Program.perform (Op.scheduleCleanup blob.staging)
  return ()

variable (services : Services)

/-- `stage`. -/
def stage (bytes : Bytes) (owner : Uuid) : Handler Blob := do
  let staging <- newUuid
  let blob : Blob := ⟨services.sha256 bytes, bytes.length, staging⟩
  stageObjectUpload blob owner
  match <- writeBlob blob.sha bytes with
  | .ok _ => return blob
  | .error _ =>
      expire blob owner
      throw (unavailable "Word object storage failed")

/-- `import_generated`. -/
def importGenerated (project : Uuid) (execution : String) (bytes : Bytes) (owner : Uuid) :
    Handler Version := do
  match <- readGenerated project execution with
  | some existing =>
      let previous <- readVersion project existing
      if previous.contentSha256 ≠ services.sha256 bytes then
        throw (conflict "the generated execution already has a different Word artifact")
      else return previous
  | none =>
      let outline <- bridgeOutline execution bytes
      let blob <- stage services bytes owner
      let result <- outcomeOf (.importGenerated project execution outline blob owner)
      match (result : Except ApiErr (Uuid × Bool)) with
      | .ok (version, published) =>
          if published = false then expire blob owner
          readVersion project version
      | .error error =>
          expire blob owner
          throw error

/-- The body of a callback, without its token. -/
structure CallbackBody where
  canonical : String
  key : Option Uuid
  status : Option Int
  forcesavetype : Option Int
  userdata : Option Uuid
  url : Option String

/-- A callback, with what its token and its ticket are found to say. -/
structure Callback where
  project : Uuid
  key : Uuid
  /-- `Office::load` and `capability`. -/
  capability : Except ApiErr Capability
  /-- `service_payload`. -/
  signed : Except ApiErr String
  body : CallbackBody

/-- `id(&value, field)`. -/
def identity (field : Option Uuid) : Except ApiErr Uuid :=
  match field with
  | some id => .ok id
  | none => .error (validation "stored Word identity is invalid")

/-- The file behind the link of a callback; the errors name what was asked for. -/
def download (what failed : String) (url : Option String) : Handler Bytes := do
  match url with
  | none => throw (validation what)
  | some url =>
      let url <- (services.downloadUrl url : Except ApiErr String)
      match <- fetch url with
      | none => throw (unavailable failed)
      | some response =>
          if response.success = false then throw (unavailable failed)
          else response.body

/-- `recover_final`. -/
def recoverFinal (cap : Capability) (body : CallbackBody) : Handler Unit := do
  let callbackSha <- services.digest body.canonical cap.version cap.key
  match <- readRecovery cap.key with
  | some previous =>
      if previous.callbackSha256 = callbackSha then return ()
      else throw (conflict "final callback replay content changed")
  | none =>
      verifySession cap
      let bytes <- download services "final Word callback URL missing" "final Word download failed"
        body.url
      let origin <- readVersion cap.project cap.version
      let outline <- bridgeOutline origin.executionId bytes
      let blob <- stage services bytes cap.owner
      let result <- outcomeOf (.recoverFinal cap callbackSha outline blob)
      match (result : Except ApiErr Bool) with
      | .ok true => return ()
      | .ok false =>
          expire blob cap.owner
          return ()
      | .error error =>
          expire blob cap.owner
          throw error

/-- A save callback that its saved row does not answer. -/
def saveCallback (cap : Capability) (save : Uuid) (callbackSha : String)
    (body : CallbackBody) : Handler Unit := do
  let bytes <- download services "Word callback URL missing" "Word saved file download failed"
    body.url
  let origin <- readVersion cap.project cap.version
  let outline <- bridgeOutline origin.executionId bytes
  let blob <- stage services bytes cap.owner
  let result <- outcomeOf (.publishSave save cap callbackSha outline blob)
  match (result : Except ApiErr Unit) with
  | .ok _ => return ()
  | .error error =>
      expire blob cap.owner
      throw error

/-- `callback_inner`. -/
def callbackInner (callback : Callback) : Handler Unit := do
  let cap <- callback.capability
  if cap.mode ≠ .edit then throw forbidden
  let signed <- callback.signed
  let body := callback.body
  if signed ≠ body.canonical then throw forbidden
  if (<- identity body.key) ≠ callback.key then throw forbidden
  match body.status with
  | none => throw (validation "Word callback status missing")
  | some status =>
      if status = 1 then verifySession cap
      else if status = 4 then
        verifySession cap
        closeEditor cap
      else if status = 2 then recoverFinal services cap body
      else if ¬ (status = 6 ∨ status = 7) ∨ body.forcesavetype ≠ some 0 then
        throw (validation "an explicit correlated Word save is required")
      else
        let save <- identity body.userdata
        let callbackSha <- services.digest body.canonical cap.version callback.key
        let previous <- readSave save callback.project callback.key
        match previous with
        | some row =>
            if row.state = .saved then
              if row.callbackSha256 = some callbackSha then return ()
              else throw (conflict "callback replay content changed")
            else
              verifySession cap
              if row.state ≠ .pending then throw (conflict "Word save is not pending")
              else if status = 7 then
                recordFailure callback.project callback.key save "callback" 7
              else saveCallback services cap save callbackSha body
        | none =>
            verifySession cap
            throw (conflict "Word save is not pending")

end Editor
end KnowledgeBrain
