import KnowledgeBrain.Editor.Handlers

/-!
# What the operations do

The handlers of all calls work on one database.  Beside it stands what has
happened to staged uploads: which call staged them, which version they were
published for, and whether their expiry was requested.
-/

namespace KnowledgeBrain
namespace Editor

open Foundation
open Workflow (Uuid Time)

structure World where
  db : Database
  now : Time
  /-- The uploads that calls have staged. -/
  staged : List (Nat × Uuid)
  /-- The uploads that committed transactions have published, with the versions. -/
  published : List (Uuid × Uuid)
  /-- The versions that committed transactions have inserted. -/
  inserted : List Uuid
  /-- The uploads whose expiry was requested. -/
  requested : List Uuid

/-- What chance and other services decide about an operation. -/
structure Choice where
  uuid : Uuid
  round : Uuid
  faults : List Fault
  fetched : Except ApiErr (Option Response)
  outline : Except ApiErr String

def Choice.fault (choice : Choice) : Fault :=
  choice.faults.head?.getD .none

def Transaction.run (now : Time) (choice : Choice) (db : Database) :
    (t : Transaction) -> Left t.Result
  | .importGenerated project execution outline blob owner =>
      runTransaction (importTransaction now choice.uuid choice.round project execution outline
        blob owner) choice.faults db
  | .publishSave save cap callbackSha outline blob =>
      runTransaction (saveTransaction now choice.uuid save cap callbackSha outline blob)
        choice.faults db
  | .recoverFinal cap callbackSha outline blob =>
      runTransaction (recoverTransaction now choice.uuid cap callbackSha outline blob)
        choice.faults db
  | .recordFailure project key save kind code =>
      runTransaction (failureTransaction project key save kind code) choice.faults db
  | .closeEditor cap => runTransaction (closeTransaction now cap) choice.faults db

namespace World

variable (w : World)

/-- One query outside of a transaction. -/
def read {A : Type} (choice : Choice) (f : Database -> A) : Except ApiErr A :=
  if choice.fault = .none then .ok (f w.db) else .error pgError

def withRegistry (registry : ObjectRegistry.Database) : World :=
  { w with db := { w.db with registry := registry } }

/-- A transaction of its own on the registry, for an upload. -/
def stageUpload (i : Nat) (choice : Choice) (blob : Blob) (owner : Uuid) :
    Except ApiErr Unit × World :=
  match w.db.registry.stageObjectUpload w.now blob.staging blob.identity (some owner) with
  | .error _ => (.error pgError, w)
  | .ok registry =>
      let done := { w.withRegistry registry with staged := (i, blob.staging) :: w.staged }
      match choice.fault with
      | .none => (.ok (), done)
      | .failed => (.error pgError, w)
      | .lost => (.error pgError, done)

def expireUpload (choice : Choice) (blob : Blob) (owner : Uuid) : Except ApiErr Unit × World :=
  let asked := { w with requested := blob.staging :: w.requested }
  match w.db.registry.requestObjectUploadExpiry w.now blob.staging (some owner) with
  | .error _ => (.error pgError, asked)
  | .ok registry =>
      match choice.fault with
      | .none => (.ok (), asked.withRegistry registry)
      | .failed => (.error pgError, asked)
      | .lost => (.error pgError, asked.withRegistry registry)

/-- What a committed transaction leaves. -/
def commit (work : Work) : World :=
  { w with
    db := work.db
    published := work.published ++ w.published
    inserted := work.inserted ++ w.inserted }

def act (i : Nat) (choice : Choice) : (op : Op) -> Reply op × World
  | .newUuid => (choice.uuid, w)
  | .readGenerated project execution => (w.read choice (generatedVersion project execution), w)
  | .readVersion project version => (w.read choice (findVersion project version), w)
  | .readSave save project key => (w.read choice (findSave save project key), w)
  | .readRecovery key => (w.read choice fun db => db.recoveries.lookup key, w)
  | .verifySession cap => (w.read choice (validSession cap), w)
  | .outline _ _ => (choice.outline, w)
  | .fetch _ => (choice.fetched, w)
  | .stageObjectUpload blob owner => w.stageUpload i choice blob owner
  | .writeBlob _ _ => (if choice.fault = .none then .ok () else .error (), w)
  | .requestExpiry blob owner => w.expireUpload choice blob owner
  | .scheduleCleanup _ => (if choice.fault = .none then .ok () else .error "no queue", w)
  | .transaction t =>
      let left := t.run w.now choice w.db
      (left.result, (left.committed.map w.commit).getD w)

end World

/-- Other parties change the database and let time pass; they leave the uploads of calls alone. -/
structure OthersStep (w w' : World) : Prop where
  staged : w'.staged = w.staged
  published : w'.published = w.published
  inserted : w'.inserted = w.inserted
  requested : w'.requested = w.requested

def machine : Machine Op Reply World Choice where
  act i choice w op := w.act i choice op
  others := OthersStep

/-- The upload was published for a version, or its expiry was requested. -/
def Discharged (w : World) (upload : Uuid) : Prop :=
  (exists version, (upload, version) ∈ w.published ∧ version ∈ w.inserted) ∨
    upload ∈ w.requested

/-- A request that a handler answers. -/
inductive Request where
  | generated (project : Uuid) (execution : String) (bytes : Bytes) (owner : Uuid)
  | office (callback : Callback)
  | final (cap : Capability) (body : CallbackBody)

/-- The handler of a request; of an imported version only that it was returned. -/
def Request.handler (services : Services) : Request -> Program Op Reply (Except ApiErr Unit)
  | .generated project execution bytes owner =>
      ((importGenerated services project execution bytes owner) >>= fun _ => pure () :
        Handler Unit).run
  | .office callback => (callbackInner services callback).run
  | .final cap body => (recoverFinal services cap body).run

/-- The transaction of a save callback reads a row that the same callback has saved. -/
structure Replayed (choice : Choice) (w : World) (save : Uuid) (cap : Capability)
    (callbackSha : String) : Prop where
  reached : forall fault, fault ∈ choice.faults.take 3 -> fault = .none
  locked : w.db.projects.lookup cap.project = some cap.owner
  row : exists row, findSave save cap.project cap.key w.db = some row ∧ row.state = .saved ∧
    row.callbackSha256 = some callbackSha

/-- No upload is staged with a lost confirmation, and no save callback is replayed in its
transaction. -/
def Undisturbed (_ : Nat) (choice : Choice) (w : World) : Op -> Prop
  | .stageObjectUpload _ _ => choice.fault ≠ .lost
  | .transaction (.publishSave save cap callbackSha _ _) =>
      ¬ Replayed choice w save cap callbackSha
  | _ => True

/-!
# What the transactions leave

A transaction that reports a new version has published its upload for a version
that it inserted.
-/

section Tx

variable {A B : Type} {work work' : Work}

theorem tx_bind {x : Tx A} {f : A -> Tx B} {b : B} (h : (x >>= f).run work = .ok (b, work')) :
    exists a middle, x.run work = .ok (a, middle) ∧ (f a).run middle = .ok (b, work') := by
  rcases bind_eq_ok h with ⟨⟨a, middle⟩, hx, hf⟩
  exact ⟨a, middle, hx, hf⟩

/-- Nothing is published or inserted. -/
structure SameLog (work work' : Work) : Prop where
  published : work'.published = work.published
  inserted : work'.inserted = work.inserted

variable {u : Unit}

theorem statement_ok (h : statement.run work = .ok (u, work')) :
    SameLog work work' ∧ work'.db = work.db ∧
      (forall fault, fault ∈ work.faults.take 1 -> fault = .none) ∧
      work'.faults = work.faults.drop 1 := by
  change statement work = _ at h
  unfold statement at h
  split at h
  · next hnil =>
      cases h
      exact ⟨⟨rfl, rfl⟩, rfl, by simp [hnil], by simp [hnil]⟩
  · next rest hcons =>
      cases h
      exact ⟨⟨rfl, rfl⟩, rfl, by simp [hcons], by simp [hcons]⟩
  · cases h

theorem query_ok {read : Database -> A} {a : A} (h : (query read).run work = .ok (a, work')) :
    SameLog work work' ∧ work'.db = work.db ∧ a = read work.db ∧
      (forall fault, fault ∈ work.faults.take 1 -> fault = .none) ∧
      work'.faults = work.faults.drop 1 := by
  rcases tx_bind h with ⟨_, middle, hstatement, hrest⟩
  rcases statement_ok hstatement with ⟨hlog, hdb, hfault, hfaults⟩
  cases hrest
  exact ⟨hlog, hdb, by rw [hdb], hfault, hfaults⟩

theorem execute_ok {write : Database -> Database} (h : (execute write).run work = .ok (u, work')) :
    SameLog work work' := by
  rcases tx_bind h with ⟨_, middle, hstatement, hrest⟩
  rcases statement_ok hstatement with ⟨hlog, _⟩
  cases hrest
  exact ⟨hlog.published, hlog.inserted⟩

theorem fetchOne_ok {read : Database -> Option A} {a : A}
    (h : (fetchOne read).run work = .ok (a, work')) :
    SameLog work work' ∧ work'.db = work.db ∧ read work.db = some a ∧
      (forall fault, fault ∈ work.faults.take 1 -> fault = .none) ∧
      work'.faults = work.faults.drop 1 := by
  rcases tx_bind h with ⟨found, middle, hquery, hrest⟩
  rcases query_ok hquery with ⟨hlog, hdb, hread, hfault, hfaults⟩
  cases found with
  | none =>
      cases hrest
  | some row =>
      cases hrest
      exact ⟨hlog, hdb, hread.symm, hfault, hfaults⟩

theorem projectLock_ok {project owner : Uuid}
    (h : (projectLock project owner).run work = .ok (u, work')) :
    SameLog work work' ∧ work'.db = work.db ∧ work.db.projects.lookup project = some owner ∧
      (forall fault, fault ∈ work.faults.take 1 -> fault = .none) ∧
      work'.faults = work.faults.drop 1 := by
  rcases tx_bind h with ⟨found, middle, hquery, hrest⟩
  rcases query_ok hquery with ⟨hlog, hdb, hread, hfault, hfaults⟩
  by_cases hfound : found ≠ some owner
  · rw [if_pos hfound] at hrest
    cases hrest
  · rw [if_neg hfound] at hrest
    cases hrest
    refine ⟨hlog, hdb, ?_, hfault, hfaults⟩
    rw [← hread]
    exact not_not.mp hfound

variable {blob : Blob} {now : Time}

theorem publishBlob_ok {version owner : Uuid}
    (h : (publishBlob now blob version owner).run work = .ok (u, work')) :
    work'.published = (blob.staging, version) :: work.published ∧
      work'.inserted = work.inserted := by
  rcases tx_bind h with ⟨_, middle, hstatement, hrest⟩
  rcases statement_ok hstatement with ⟨hlog, _⟩
  rcases tx_bind hrest with ⟨state, middle', hget, hrest⟩
  cases hget
  split at hrest
  · cases hrest
  · cases hrest
    rw [← hlog.published, ← hlog.inserted]
    exact ⟨rfl, rfl⟩

theorem insertVersion_ok {id : Uuid} {version : Version}
    (h : (insertVersion id version).run work = .ok (u, work')) :
    work'.published = work.published ∧ work'.inserted = id :: work.inserted := by
  rcases tx_bind h with ⟨_, middle, hstatement, hrest⟩
  rcases statement_ok hstatement with ⟨hlog, _⟩
  rcases tx_bind hrest with ⟨state, middle', hget, hrest⟩
  cases hget
  split at hrest
  · cases hrest
  · cases hrest
    rw [← hlog.published, ← hlog.inserted]
    exact ⟨rfl, rfl⟩

end Tx

/-!
# Versions
-/

/-- The upload was published for a version that was inserted. -/
def Used (blob : Blob) (work : Work) : Prop :=
  exists version, (blob.staging, version) ∈ work.published ∧ version ∈ work.inserted

theorem Used.of_same {work work' : Work} (h : Used blob work) (hsame : SameLog work work') :
    Used blob work' := by
  rcases h with ⟨version, hpublished, hinserted⟩
  refine ⟨version, ?_, ?_⟩
  · rw [hsame.published]
    exact hpublished
  · rw [hsame.inserted]
    exact hinserted

theorem used_of_publish {id owner : Uuid} {version : Version} {work work' work'' : Work}
    {u u' : Unit} (hpublish : (publishBlob now blob id owner).run work = .ok (u, work'))
    (hinsert : (insertVersion id version).run work' = .ok (u', work'')) : Used blob work'' := by
  rcases publishBlob_ok hpublish with ⟨hpublished, _⟩
  rcases insertVersion_ok hinsert with ⟨hsame, hinserted⟩
  refine ⟨id, ?_, ?_⟩
  · rw [hsame, hpublished]
    exact List.mem_cons_self
  · rw [hinserted]
    exact List.mem_cons_self

/-- Only an import that found no duplicate reports that it published. -/
def ImportEnding (blob : Blob) (work : Work) : Ending (Uuid × Bool) -> Prop
  | .commit a => a.2 = true ∧ Used blob work
  | .rollback a => a.2 = false
  | .drop _ => False

theorem importTransaction_ok {version round project : Uuid} {execution outline : String}
    {owner : Uuid} {work work' : Work} {ending : Ending (Uuid × Bool)}
    (h : (importTransaction now version round project execution outline blob owner).run work =
      .ok (ending, work')) :
    ImportEnding blob work' ending := by
  unfold importTransaction at h
  rcases tx_bind h with ⟨_, w1, _, h⟩
  rcases tx_bind h with ⟨duplicate, w2, _, h⟩
  cases duplicate with
  | some duplicate =>
      cases h
      rfl
  | none =>
      rcases tx_bind h with ⟨revision, w3, _, h⟩
      rcases tx_bind h with ⟨_, w4, hpublish, h⟩
      rcases tx_bind h with ⟨_, w5, hinsert, h⟩
      rcases tx_bind h with ⟨_, w6, hexecute, h⟩
      cases h
      exact ⟨rfl, (used_of_publish hpublish hinsert).of_same (execute_ok hexecute)⟩

/-- A recovery that reports a new version has used the upload. -/
def RecoverEnding (blob : Blob) (work : Work) : Ending Bool -> Prop
  | .commit a => a = true ∧ Used blob work
  | .rollback _ => False
  | .drop a => a = false

theorem recoverTransaction_ok {version : Uuid} {cap : Capability} {callbackSha outline : String}
    {work work' : Work} {ending : Ending Bool}
    (h : (recoverTransaction now version cap callbackSha outline blob).run work =
      .ok (ending, work')) :
    RecoverEnding blob work' ending := by
  unfold recoverTransaction at h
  rcases tx_bind h with ⟨_, w1, _, h⟩
  rcases tx_bind h with ⟨previous, w2, _, h⟩
  cases previous with
  | some previous =>
      by_cases hsame : previous.callbackSha256 = callbackSha
      · simp only [if_pos hsame] at h
        cases h
        rfl
      · simp only [if_neg hsame] at h
        cases h
  | none =>
      rcases tx_bind h with ⟨head, w3, _, h⟩
      by_cases hkey : head.key ≠ some cap.key
      · rw [if_pos hkey] at h
        cases h
      · rw [if_neg hkey] at h
        rcases tx_bind h with ⟨revision, w4, _, h⟩
        rcases tx_bind h with ⟨_, w5, hpublish, h⟩
        rcases tx_bind h with ⟨_, w6, hinsert, h⟩
        rcases tx_bind h with ⟨_, w7, hrecovery, h⟩
        rcases tx_bind h with ⟨_, w8, hsaves, h⟩
        rcases tx_bind h with ⟨_, w9, hdraft, h⟩
        rcases tx_bind h with ⟨_, w10, hsession, h⟩
        cases h
        exact ⟨rfl, ((((used_of_publish hpublish hinsert).of_same (execute_ok hrecovery)).of_same
          (execute_ok hsaves)).of_same (execute_ok hdraft)).of_same (execute_ok hsession)⟩

/-- A save is committed with its upload, or found saved by the same callback. -/
def SaveEnding (save : Uuid) (cap : Capability) (callbackSha : String) (blob : Blob)
    (start work : Work) : Ending Unit -> Prop
  | .commit _ => Used blob work
  | .rollback _ => False
  | .drop _ => (forall fault, fault ∈ start.faults.take 2 -> fault = .none) ∧
      start.db.projects.lookup cap.project = some cap.owner ∧
      exists row, findSave save cap.project cap.key start.db = some row ∧ row.state = .saved ∧
        row.callbackSha256 = some callbackSha

theorem saveTransaction_ok {version save : Uuid} {cap : Capability} {callbackSha outline : String}
    {work work' : Work} {ending : Ending Unit}
    (h : (saveTransaction now version save cap callbackSha outline blob).run work =
      .ok (ending, work')) :
    SaveEnding save cap callbackSha blob work work' ending := by
  unfold saveTransaction at h
  rcases tx_bind h with ⟨_, w1, hlock, h⟩
  rcases tx_bind h with ⟨previous, w2, hsave, h⟩
  rcases projectLock_ok hlock with ⟨_, hdb, hlocked, hfault, hfaults⟩
  rcases fetchOne_ok hsave with ⟨_, _, hrow, hfault', _⟩
  by_cases hsaved : previous.state = .saved
  · rw [if_pos hsaved] at h
    by_cases hsame : previous.callbackSha256 = some callbackSha
    · rw [if_pos hsame] at h
      cases h
      rw [hdb] at hrow
      refine ⟨?_, hlocked, previous, hrow, hsaved, hsame⟩
      intro fault hmem
      rw [hfaults] at hfault'
      rw [show 2 = 1 + 1 from rfl, List.take_add] at hmem
      rcases List.mem_append.mp hmem with hmem | hmem
      · exact hfault fault hmem
      · exact hfault' fault hmem
    · rw [if_neg hsame] at h
      cases h
  · rw [if_neg hsaved] at h
    rcases tx_bind h with ⟨head, w3, _, h⟩
    split at h
    · cases h
    · rcases tx_bind h with ⟨revision, w4, _, h⟩
      rcases tx_bind h with ⟨_, w5, hpublish, h⟩
      rcases tx_bind h with ⟨_, w6, hinsert, h⟩
      rcases tx_bind h with ⟨_, w7, hdraft, h⟩
      rcases tx_bind h with ⟨_, w8, hsaves, h⟩
      cases h
      exact ((used_of_publish hpublish hinsert).of_same (execute_ok hdraft)).of_same
        (execute_ok hsaves)

/-- A transaction that reports success has come to its end, and one that is committed is so. -/
theorem runTransaction_ok {A : Type} {body : Tx (Ending A)} {faults : List Fault}
    {db : Database} {a : A} (h : (runTransaction body faults db).result = .ok a) :
    (forall fault, fault ∈ faults.take 1 -> fault = .none) ∧
      exists ending work, body.run ⟨db, [], [], faults.drop 1⟩ = .ok (ending, work) ∧
        (ending = .commit a ∧ (runTransaction body faults db).committed = some work ∨
          ending = .rollback a ∨ ending = .drop a) := by
  unfold runTransaction at h ⊢
  cases hrun : (do statement; body : Tx (Ending A)).run ⟨db, [], [], faults⟩ with
  | error e =>
      rw [hrun] at h
      cases h
  | ok result =>
      rcases result with ⟨ending, work⟩
      rw [hrun] at h
      rcases tx_bind hrun with ⟨_, middle, hstatement, hbody⟩
      rcases statement_ok hstatement with ⟨hlog, hdb, hfault, hfaults⟩
      have hmiddle : middle = ⟨db, [], [], faults.drop 1⟩ := by
        cases middle
        simp only at hdb hfaults
        rw [hdb, hfaults]
        have hpublished := hlog.published
        have hinserted := hlog.inserted
        simp only at hpublished hinserted
        rw [hpublished, hinserted]
      rw [hmiddle] at hbody
      refine ⟨hfault, ending, work, hbody, ?_⟩
      cases ending with
      | drop b =>
          cases h
          exact Or.inr (Or.inr rfl)
      | rollback b =>
          simp only at h
          split at h
          · cases h
            exact Or.inr (Or.inl rfl)
          · cases h
      | commit b =>
          simp only at h ⊢
          split at h
          · cases h
            exact Or.inl ⟨rfl, rfl⟩
          · cases h
          · cases h

end Editor
end KnowledgeBrain
