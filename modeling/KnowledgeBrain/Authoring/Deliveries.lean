import KnowledgeBrain.Authoring.Queue

/-!
# Transactions of the queue

What one transaction can do to the row of the job, to the row of the execution
and to the deliveries is listed once: the epoch changes where a lease is
granted, success comes from the owner of a lease, and a delivery comes to
report where its check finds nobody at work.
-/

namespace KnowledgeBrain
namespace Authoring
namespace Queue

open Foundation
open Tender (Json ArtifactRef)

variable {executionId : String} {s t : Queue} {e : Event}

/-!
# The row of the execution
-/

/-- A row that stays in its epoch and comes to no success, and of which a success stays. -/
structure RowKept (x x' : Execution) : Prop where
  epoch : x'.epoch = x.epoch
  opened : x'.status = .succeeded -> x.status = .succeeded
  result : x.status = .succeeded -> x'.status = .succeeded ∧ x'.resultRef = x.resultRef

theorem RowKept.of_same {x x' : Execution} (hepoch : x'.epoch = x.epoch)
    (hstatus : x'.status = x.status) (hresult : x'.resultRef = x.resultRef) : RowKept x x' :=
  ⟨hepoch, fun h => hstatus.symm.trans h, fun h => ⟨hstatus.trans h, hresult⟩⟩

theorem RowKept.of_open {x x' : Execution} (hepoch : x'.epoch = x.epoch)
    (hopen : x.status ≠ .succeeded) (hopen' : x'.status ≠ .succeeded) : RowKept x x' :=
  ⟨hepoch, fun h => absurd h hopen', fun h => absurd h hopen⟩

/-- The row of the execution is kept, or it is new. -/
def Steady (executionId : String) (rows rows' : Table String Execution) : Prop :=
  rows.lookup executionId = none ∧
      (forall x', rows'.lookup executionId = some x' -> x'.status = .pending) ∨
    exists x x', rows.lookup executionId = some x ∧ rows'.lookup executionId = some x' ∧
      RowKept x x'

theorem steady_of_eq {rows rows' : Table String Execution}
    (h : rows'.lookup executionId = rows.lookup executionId) : Steady executionId rows rows' := by
  unfold Steady
  rw [h]
  cases rows.lookup executionId with
  | none =>
      exact Or.inl ⟨rfl, nofun⟩
  | some x =>
      exact Or.inr ⟨x, x, rfl, rfl, .of_same rfl rfl rfl⟩

theorem steady_modify {rows : Table String Execution} {id : String} {f : Execution -> Execution}
    (hf : forall x, rows.lookup id = some x -> RowKept x (f x)) :
    Steady executionId rows (rows.modify id f) := by
  by_cases hid : executionId = id
  · subst hid
    unfold Steady
    rw [Table.lookup_modify_self]
    cases hx : rows.lookup executionId with
    | none =>
        exact Or.inl ⟨rfl, nofun⟩
    | some x =>
        exact Or.inr ⟨x, f x, rfl, rfl, hf x hx⟩
  · exact steady_of_eq (Table.lookup_modify_of_ne _ _ hid)

variable {store store' : Store}

theorem steady_submit {id : String} {authoringInput : AuthoringInput}
    {executionSpec : ExecutionSpec} {x : Execution}
    (h : store.submit id authoringInput executionSpec = .ok (x, store')) :
    Steady executionId store.executions store'.executions := by
  rcases bind_eq_ok h with ⟨_, _, h⟩
  rcases bind_eq_ok h with ⟨_, _, h⟩
  rcases bind_eq_ok h with ⟨y, _, h⟩
  rcases bind_eq_ok h with ⟨_, _, h⟩
  cases h
  show Steady executionId store.executions (store.executions.insertNew id _)
  unfold Steady
  rw [Table.lookup_insertNew_eq_or]
  cases store.executions.lookup executionId with
  | none =>
      refine Or.inl ⟨rfl, ?_⟩
      intro x' hx'
      rw [Option.none_or] at hx'
      split at hx'
      · cases hx'
        rfl
      · cases hx'
  | some x =>
      exact Or.inr ⟨x, x, rfl, rfl, .of_same rfl rfl rfl⟩

theorem steady_cancel {id : String} (h : store.cancel id = .ok store') :
    Steady executionId store.executions store'.executions := by
  rcases bind_eq_ok h with ⟨x, hlookup, h⟩
  split at h
  · cases h
    exact steady_of_eq rfl
  · rename_i hopen
    cases h
    refine steady_modify fun y hy => .of_open rfl ?_ (by simp [Store.cancelExecution])
    rw [execution_eq_ok hlookup] at hy
    cases hy
    exact hopen

variable {lease : Lease}

theorem steady_heartbeat {leaseSeconds : Nat}
    (h : store.heartbeat lease leaseSeconds = .ok store') :
    Steady executionId store.executions store'.executions := by
  rcases bind_eq_ok h with ⟨_, _, h⟩
  rcases bind_eq_ok h with ⟨_, _, h⟩
  cases h
  exact steady_modify fun x _ => .of_same rfl rfl rfl

theorem steady_commitArtifact {stage scope inputDigest : String} {artifactRef : ArtifactRef}
    {metadata : Json}
    (h : store.commitArtifact lease stage scope artifactRef inputDigest metadata = .ok store') :
    Steady executionId store.executions store'.executions := by
  rcases bind_eq_ok h with ⟨x, _, h⟩
  split at h
  · rcases bind_eq_ok h with ⟨_, _, h⟩
    cases h
    exact steady_of_eq rfl
  · cases h
    exact steady_modify fun x _ => .of_same rfl rfl rfl

/-- A release that is no success, or of another execution. -/
theorem steady_release {status : ExecutionStatus} {resultRef : Option ArtifactRef}
    {error : Option Json} (h : store.release lease status resultRef error = .ok store')
    (hother : status ≠ .succeeded ∨ executionId ≠ lease.executionId) :
    Steady executionId store.executions store'.executions := by
  rcases bind_eq_ok h with ⟨_, _, h⟩
  rcases bind_eq_ok h with ⟨_, _, h⟩
  rcases bind_eq_ok h with ⟨x, hfence, h⟩
  rcases bind_eq_ok h with ⟨_, _, h⟩
  cases h
  rcases hother with hstatus | hid
  · refine steady_modify fun y hy => .of_open rfl ?_ hstatus
    have hheld := holds_of_assertFence hfence
    have hsame := hheld.stored.symm.trans hy
    cases hsame
    rw [hheld.running]
    decide
  · exact steady_of_eq (Table.lookup_modify_of_ne _ _ hid)

theorem steady_acquire {id : String} {leaseSeconds : Nat} {lease : Option Lease}
    (h : store.acquire id leaseSeconds = .ok (lease, store')) (hid : executionId ≠ id) :
    Steady executionId store.executions store'.executions := by
  rcases acquire_cases h with ⟨_, rfl⟩ | ⟨_, _, hgranted, _⟩
  · exact steady_of_eq rfl
  · rcases hgranted.exists_row with ⟨x, leaseUntil, _, _, _, _, heq⟩
    rw [heq]
    exact steady_of_eq (Table.lookup_modify_of_ne _ _ hid)

/-- What others do in the store leaves the execution of the job steady. -/
theorem steady_step {event : Authoring.Event} (hother : drives executionId event = false)
    (store : Store) :
    Steady executionId store.executions (Authoring.step event store).executions := by
  have hrefl : Steady executionId store.executions store.executions := steady_of_eq rfl
  cases event with
  | analysis event => exact hrefl
  | submit id authoringInput executionSpec =>
      exact commit_snd_cases hrefl fun _ _ h => steady_submit h
  | acquire id leaseSeconds =>
      exact commit_snd_cases hrefl fun _ _ h =>
        steady_acquire h (beq_eq_false_iff_ne.mp hother).symm
  | heartbeat => exact commit_cases hrefl fun _ h => steady_heartbeat h
  | release =>
      exact commit_cases hrefl fun _ h =>
        steady_release h (Or.inr (beq_eq_false_iff_ne.mp hother).symm)
  | cancel => exact commit_cases hrefl fun _ h => steady_cancel h
  | commitArtifact => exact commit_cases hrefl fun _ h => steady_commitArtifact h
  | beginRequest =>
      exact commit_snd_cases hrefl fun _ _ h => steady_of_eq (by rw [executions_beginRequest h])
  | finishRequest =>
      exact commit_cases hrefl fun _ h => steady_of_eq (by rw [executions_finishRequest h])

/-!
# One transaction
-/

/-- The execution of the job has succeeded. -/
def Done (executionId : String) (s : Queue) : Prop :=
  exists x, s.execution executionId = some x ∧ x.status = .succeeded

/-- The phases in which a worker has seen the success. -/
def Finished (phase : Phase) : Prop :=
  phase = .found ∨ phase = .returned

/-- The delivery has come to its end, or gives up without a report. -/
def Over (worker : Worker) : Prop :=
  worker.phase = .leaving ∨ worker.phase = .ended

/-- The execution is at work under a lease that is live. -/
def AtWork (executionId : String) (s : Queue) : Prop :=
  exists x, s.execution executionId = some x ∧ x.status = .running ∧ s.store.leaseLive x = true

/-- The event gives the worker a lease. -/
def Grants (executionId : String) (e : Event) (s : Queue) (w : Nat) (lease : Lease) : Prop :=
  exists leaseSeconds store, e = .acquire w leaseSeconds ∧
    s.store.acquire executionId leaseSeconds = .ok (some lease, store)

/-- The command is a resume that changes the row of the job. -/
def recordsResume (s : Queue) (c : Nat) : Bool :=
  match s.commands.lookup c with
  | some (.resuming key execution) =>
      s.projectOpen && s.job.any fun job => resumeJob key execution job != job
  | _ => false

/-- How a step can change the row of the job. -/
inductive JobChange (s : Queue) (e : Event) (job : Job) : Job -> Prop where
  | kept : JobChange s e job job
  | cancelled (hopen : job.status ≠ .succeeded) :
      JobChange s e job { job with status := .cancelled }
  | moved (job' : Job) (hsucceeded : job.status ≠ .succeeded) (hcancelled : job.status ≠ .cancelled)
      (hstatus : job'.status = .pending ∨ job'.status = .published)
      (hkeys : job'.resumeKeys = job.resumeKeys ∨ exists c key, e = .resume c ∧
        s.recordsResume c = true ∧ job'.resumeKeys = job.resumeKeys ++ [key]) :
      JobChange s e job job'
  | failed (w : Nat) (worker : Worker) (hevent : e = .report w)
      (hworker : s.workers.lookup w = some worker) (hphase : worker.phase = .reporting)
      (hcancelled : job.status ≠ .cancelled) :
      JobChange s e job { job with status := .failed, error := worker.error, claimUntil := none }
  | succeeded (w : Nat) (worker : Worker) (hworker : s.workers.lookup w = some worker)
      (hphase : worker.phase = .returned) (hcancelled : job.status ≠ .cancelled) :
      JobChange s e job { job with status := .succeeded, error := none, claimUntil := none }

structure JobStep (s : Queue) (e : Event) (after : Option Job) : Prop where
  none : s.job = none -> after = none ∨ after = some newJob
  some : forall job, s.job = some job -> exists job', after = some job' ∧ JobChange s e job job'

/-- How a delivery goes on. -/
structure GoesOn (executionId : String) (e : Event) (s t : Queue) (w : Nat)
    (worker worker' : Worker) : Prop where
  job : worker'.job = worker.job
  lease : worker'.lease = worker.lease ∨ exists lease x', Grants executionId e s w lease ∧
    worker'.lease = some lease ∧ lease.executionId = executionId ∧
    t.execution executionId = some x' ∧ lease.epoch = x'.epoch
  overStays : Over worker -> Over worker'
  reporting : worker'.phase = .reporting -> worker.phase = .reporting ∨
    e = .check w ∧ worker.phase = .raised ∧ ¬ AtWork executionId s
  finished : Finished worker'.phase -> Finished worker.phase ∨ Done executionId t

/-- Where a worker's row comes from. -/
inductive Comes (executionId : String) (e : Event) (s t : Queue) (w : Nat) (worker : Worker) :
    Prop where
  | delivered (job : Job) (hevent : e = .deliver w) (hjob : s.job = some job)
      (hworker : worker = newWorker job)
  | before (old : Worker) (hlookup : s.workers.lookup w = some old)
      (hgoes : GoesOn executionId e s t w old worker)

/-- What a step does to the row of the execution. -/
inductive RowStep (executionId : String) (e : Event) (s t : Queue) : Prop where
  | steady (hsteady : Steady executionId s.store.executions t.store.executions)
  | granted (w : Nat) (lease : Lease) (x x' : Execution) (hgrants : Grants executionId e s w lease)
      (hx : s.execution executionId = some x) (hopen : x.status ≠ .succeeded)
      (hx' : t.execution executionId = some x') (hopen' : x'.status ≠ .succeeded)
      (hepoch : lease.epoch = x'.epoch)
      (hworker : forall worker, t.workers.lookup w = some worker -> worker.lease = some lease)
  | released (w : Nat) (worker : Worker) (x x' : Execution)
      (hworker : s.workers.lookup w = some worker) (hphase : worker.phase = .working)
      (hlease : worker.lease.isSome = true) (hx : s.execution executionId = some x)
      (hopen : x.status ≠ .succeeded) (hx' : t.execution executionId = some x')
      (hdone : x'.status = .succeeded) (hepoch : x'.epoch = x.epoch)

/-- What a step can do. -/
structure Moves (executionId : String) (e : Event) (s t : Queue) : Prop where
  job : JobStep s e t.job
  row : RowStep executionId e s t
  workers : forall w worker, t.workers.lookup w = some worker -> Comes executionId e s t w worker

theorem jobStep_same (hjob : t.job = s.job) : JobStep s e t.job := by
  rw [hjob]
  exact ⟨Or.inl, fun job hjob => ⟨job, hjob, .kept⟩⟩

variable (w : Nat)

theorem GoesOn.refl (worker : Worker) : GoesOn executionId e s t w worker worker :=
  ⟨rfl, Or.inl rfl, id, Or.inl, Or.inl⟩

theorem moves_rest (hjob : JobStep s e t.job)
    (hstore : Steady executionId s.store.executions t.store.executions)
    (hworkers : t.workers = s.workers) : Moves executionId e s t := by
  refine ⟨hjob, .steady hstore, ?_⟩
  intro w worker hlookup
  rw [hworkers] at hlookup
  exact .before worker hlookup (.refl w worker)

/-- The job may change, the execution and the deliveries do not. -/
theorem moves_job (hjob : JobStep s e t.job) (hstore : t.store = s.store)
    (hworkers : t.workers = s.workers) : Moves executionId e s t :=
  moves_rest hjob (by rw [hstore]; exact steady_of_eq rfl) hworkers

theorem moves_same (hjob : t.job = s.job) (hstore : t.store = s.store)
    (hworkers : t.workers = s.workers) : Moves executionId e s t :=
  moves_job (jobStep_same hjob) hstore hworkers

theorem moves_refl : Moves executionId e s s :=
  moves_same rfl rfl rfl

variable {f : Worker -> Worker}

theorem moves_setWorker {w : Nat} (hjob : JobStep s e t.job)
    (hrow : RowStep executionId e s (t.setWorker w f)) (hworkers : t.workers = s.workers)
    (hgoes : forall worker, s.workers.lookup w = some worker ->
      GoesOn executionId e s (t.setWorker w f) w worker (f worker)) :
    Moves executionId e s (t.setWorker w f) := by
  refine ⟨hjob, hrow, ?_⟩
  intro w' worker hlookup
  change (t.workers.modify w f).lookup w' = some worker at hlookup
  rw [hworkers] at hlookup
  rcases Table.lookup_modify_cases hlookup with ⟨rfl, old, hold, rfl⟩ | ⟨_, hold⟩
  · exact .before old hold (hgoes old hold)
  · exact .before worker hold (.refl w' worker)

/-- The delivery keeps its job and its lease, and comes into none of the phases that are reached
in one way only. -/
structure Plain (f : Worker -> Worker) : Prop where
  job : forall worker, (f worker).job = worker.job
  lease : forall worker, (f worker).lease = worker.lease
  phase : forall worker, (f worker).phase ∉ [.reporting, .found, .returned] ∨
    (f worker).phase = worker.phase

theorem plain_phase {phase : Phase} (h : phase ∉ [Phase.reporting, .found, .returned]) :
    Plain fun worker => { worker with phase := phase } :=
  ⟨fun _ => rfl, fun _ => rfl, fun _ => Or.inl h⟩

theorem moves_plain {w : Nat} (hjob : JobStep s e t.job)
    (hstore : Steady executionId s.store.executions t.store.executions)
    (hworkers : t.workers = s.workers) (hplain : Plain f)
    (hover : forall worker, s.workers.lookup w = some worker -> Over worker -> Over (f worker)) :
    Moves executionId e s (t.setWorker w f) := by
  refine moves_setWorker hjob (.steady hstore) hworkers ?_
  intro worker hlookup
  refine ⟨hplain.job worker, Or.inl (hplain.lease worker), hover worker hlookup, ?_, ?_⟩
  · intro hreporting
    rcases hplain.phase worker with hout | hsame
    · simp [hreporting] at hout
    · exact Or.inl (hsame.symm.trans hreporting)
  · rintro hfinished
    rcases hplain.phase worker with hout | hsame
    · rcases hfinished with hfinished | hfinished
      · simp [hfinished] at hout
      · simp [hfinished] at hout
    · rw [hsame] at hfinished
      exact Or.inl hfinished

variable {worker : Worker} {phases : List Phase}

theorem not_over (hphase : worker.phase ∈ phases)
    (hactive : Phase.leaving ∉ phases ∧ Phase.ended ∉ phases) : ¬ Over worker := by
  rintro (hleaving | hended)
  · exact hactive.1 (hleaving ▸ hphase)
  · exact hactive.2 (hended ▸ hphase)

/-- A delivery that is not over goes on. -/
theorem moves_active {w : Nat} (hworker : s.workers.lookup w = some worker)
    (hphase : worker.phase ∈ phases) (hactive : Phase.leaving ∉ phases ∧ Phase.ended ∉ phases)
    (hstore : Steady executionId s.store.executions t.store.executions)
    (hworkers : t.workers = s.workers) (hjob : t.job = s.job) (hplain : Plain f) :
    Moves executionId e s (t.setWorker w f) := by
  refine moves_plain (jobStep_same hjob) hstore hworkers hplain ?_
  intro other hother hover
  rw [hworker] at hother
  cases hother
  exact absurd hover (not_over hphase hactive)

theorem moves_ended {w : Nat} (hjob : JobStep s e t.job) (hstore : t.store = s.store)
    (hworkers : t.workers = s.workers) : Moves executionId e s (t.setPhase w .ended) :=
  moves_plain hjob (by rw [hstore]; exact steady_of_eq rfl) hworkers (plain_phase (by decide))
    fun _ _ _ => Or.inr rfl

theorem during_cases {P : Queue -> Prop} {w : Nat} {f : Worker -> Queue} (hsame : P s)
    (h : forall worker, s.workers.lookup w = some worker -> worker.phase ∈ phases ->
      P (f worker)) :
    P (s.during w phases f) := by
  unfold during
  cases hrow : s.workers.lookup w with
  | none =>
      exact hsame
  | some worker =>
      show P (if worker.phase ∈ phases then f worker else s)
      split
      · rename_i hphase
        exact h worker hrow hphase
      · exact hsame

theorem steady_change_cancel (executionId : String) (s : Queue) :
    Steady executionId s.store.executions (s.change (.cancel executionId)).store.executions :=
  commit_cases (P := fun store => Steady executionId s.store.executions store.executions)
    (steady_of_eq rfl) fun _ h => steady_cancel h

theorem steady_change_failed (executionId : String) (s : Queue) (lease : Lease)
    (error : Option Json) : Steady executionId s.store.executions
      (s.change (.release lease .failed none error)).store.executions :=
  commit_cases (P := fun store => Steady executionId s.store.executions store.executions)
    (steady_of_eq rfl) fun _ h => steady_release h (Or.inl (by decide))

/-!
# Commands and the dispatcher
-/

theorem jobStep_setJob {f : Job -> Job}
    (h : forall job, s.job = some job -> JobChange s e job (f job)) :
    JobStep s e (s.setJob f).job := by
  constructor
  · intro hnone
    exact Or.inl (by rw [setJob, hnone]; rfl)
  · intro job hjob
    exact ⟨f job, by rw [setJob, hjob]; rfl, h job hjob⟩

theorem jobStep_cancelJob : JobStep s e (s.setJob cancelJob).job := by
  refine jobStep_setJob fun job _ => ?_
  unfold cancelJob
  split
  · rename_i hopen
    exact .cancelled hopen
  · exact .kept

theorem resumeJob_cases (key : String) (execution : Option Execution) (job : Job) :
    resumeJob key execution job = job ∨ job.status ≠ .succeeded ∧ job.status ≠ .cancelled ∧
      resumeJob key execution job = ⟨.pending, none, job.resumeKeys ++ [key], none⟩ := by
  unfold resumeJob
  split
  · exact Or.inl rfl
  split
  · exact Or.inl rfl
  rename_i hrefused
  push Not at hrefused
  split
  · exact Or.inl rfl
  · rename_i hsucceeded
    exact Or.inr ⟨hsucceeded, hrefused.1, rfl⟩

theorem jobStep_resumeJob {c : Nat} {key : String} {execution : Option Execution}
    (hcommand : s.commands.lookup c = some (.resuming key execution))
    (hopen : s.projectOpen = true) :
    JobStep s (.resume c) (s.setJob (resumeJob key execution)).job := by
  refine jobStep_setJob fun job hjob => ?_
  rcases resumeJob_cases key execution job with hsame | ⟨hsucceeded, hcancelled, hresumed⟩
  · rw [hsame]
    exact .kept
  · have hne : resumeJob key execution job ≠ job := by
      intro heq
      have hkeys := congrArg (fun job => job.resumeKeys.length) (hresumed.symm.trans heq)
      simp at hkeys
    have hrecords : s.recordsResume c = true := by
      unfold recordsResume
      rw [hcommand, hjob]
      simp [hopen, hne]
    rw [hresumed]
    exact .moved _ hsucceeded hcancelled (Or.inl rfl) (Or.inr ⟨c, key, rfl, hrecords, rfl⟩)

theorem jobStep_unpublishJob : JobStep s e (s.setJob unpublishJob).job := by
  refine jobStep_setJob fun job _ => ?_
  unfold unpublishJob
  split
  · rename_i hpublished
    refine .moved _ ?_ ?_ (Or.inl rfl) (Or.inl rfl)
    · rw [hpublished]
      decide
    · rw [hpublished]
      decide
  · exact .kept

theorem jobStep_failJob {w : Nat} (hworker : s.workers.lookup w = some worker)
    (hphase : worker.phase = .reporting) :
    JobStep s (.report w) (s.setJob (failJob worker.error)).job := by
  refine jobStep_setJob fun job _ => ?_
  unfold failJob
  split
  · rename_i hcancelled
    exact .failed w worker rfl hworker hphase hcancelled
  · exact .kept

theorem jobStep_succeedJob {w : Nat} (hworker : s.workers.lookup w = some worker)
    (hphase : worker.phase = .returned) :
    JobStep s e (s.setJob succeedJob).job := by
  refine jobStep_setJob fun job _ => ?_
  unfold succeedJob
  split
  · rename_i hcancelled
    exact .succeeded w worker hworker hphase hcancelled
  · exact .kept

theorem moves_start : Moves executionId e s s.start := by
  unfold start
  split
  · refine moves_job ⟨?_, ?_⟩ rfl rfl
    · intro hnone
      exact Or.inr (by rw [hnone]; rfl)
    · intro job hjob
      exact ⟨job, by rw [hjob]; rfl, .kept⟩
  · exact moves_refl

theorem moves_readForCancel (c : Nat) : Moves executionId e s (s.readForCancel executionId c) := by
  unfold readForCancel
  split
  · exact moves_refl
  · exact moves_same rfl rfl rfl

theorem moves_readForResume (c : Nat) (key : String) :
    Moves executionId e s (s.readForResume executionId c key) := by
  unfold readForResume
  split
  · exact moves_refl
  · exact moves_same rfl rfl rfl

theorem moves_storeCancel (c : Nat) : Moves executionId e s (s.storeCancel executionId c) := by
  unfold storeCancel
  split
  · exact moves_rest (jobStep_same rfl) (steady_change_cancel executionId s) rfl
  · exact moves_refl

theorem moves_markCancelled (c : Nat) : Moves executionId e s (s.markCancelled c) := by
  unfold markCancelled
  split
  · exact moves_job jobStep_cancelJob rfl rfl
  · exact moves_job jobStep_cancelJob rfl rfl
  · exact moves_refl

theorem moves_resume (c : Nat) : Moves executionId (.resume c) s (s.resume c) := by
  unfold resume
  split
  · rename_i hcommand
    split
    · rename_i hopen
      exact moves_job (jobStep_resumeJob hcommand hopen) rfl rfl
    · exact moves_same rfl rfl rfl
  · exact moves_refl

theorem waiting_of_isDue {job : Job} (h : s.isDue executionId job = true) :
    job.status = .pending ∨ job.status = .published := by
  unfold isDue at h
  rw [Bool.and_eq_true, Bool.or_eq_true, Bool.and_eq_true, beq_iff_eq, beq_iff_eq] at h
  rcases h.1 with hpending | hpublished
  · exact Or.inl hpending
  · exact Or.inr hpublished.1

theorem moves_publish (redeliverSeconds : Nat) :
    Moves executionId e s (s.publish executionId redeliverSeconds) := by
  unfold publish
  split
  · exact moves_refl
  · rename_i job hjob
    split
    · rename_i hdue
      have hwaiting := waiting_of_isDue hdue
      refine moves_job ⟨fun hnone => ?_, fun old hold => ?_⟩ rfl rfl
      · rw [hnone] at hjob
        cases hjob
      · rw [hjob] at hold
        cases hold
        refine ⟨_, rfl, .moved _ ?_ ?_ (Or.inr rfl) (Or.inl rfl)⟩
        · intro hsucceeded
          simp [hsucceeded] at hwaiting
        · intro hcancelled
          simp [hcancelled] at hwaiting
    · exact moves_refl

theorem moves_send : Moves executionId e s s.send := by
  unfold send
  split
  · exact moves_refl
  · exact moves_same rfl rfl rfl

theorem moves_sendFails (arrived : Bool) : Moves executionId e s (s.sendFails arrived) := by
  unfold sendFails
  split
  · exact moves_refl
  · exact moves_same rfl rfl rfl

theorem moves_unpublish : Moves executionId e s s.unpublish := by
  unfold unpublish
  split
  · exact moves_refl
  · exact moves_job jobStep_unpublishJob rfl rfl

/-!
# Workers
-/

theorem moves_deliver : Moves executionId (.deliver w) s (s.deliver w) := by
  unfold deliver
  split
  · exact moves_refl
  rename_i job hjob
  split
  · exact moves_refl
  refine ⟨jobStep_same rfl, .steady (steady_of_eq rfl), ?_⟩
  intro w' worker hlookup
  change (s.workers.insertNew w (newWorker job)).lookup w' = some worker at hlookup
  rw [Table.lookup_insertNew_eq_or, Option.or_eq_some_iff] at hlookup
  rcases hlookup with hold | ⟨_, hnew⟩
  · exact .before worker hold (.refl w' worker)
  · split at hnew
    · next hw =>
        cases hnew
        exact .delivered job (by rw [hw]) hjob rfl
    · cases hnew

theorem moves_raise (error : Json) : Moves executionId e s (s.raise w error) := by
  refine during_cases moves_refl ?_
  intro worker hworker hphase
  refine moves_active hworker hphase (by decide) (steady_of_eq rfl) rfl rfl
    ⟨fun _ => rfl, fun _ => rfl, fun _ => Or.inl ?_⟩
  show (if worker.phase = .working then Phase.failing else .raised) ∉ _
  split
  · decide
  · decide

theorem moves_submit (authoringInput : AuthoringInput) (executionSpec : ExecutionSpec) :
    Moves executionId e s (s.submit executionId w authoringInput executionSpec) := by
  refine during_cases moves_refl ?_
  intro worker hworker hphase
  split
  · exact moves_refl
  · next hsubmit =>
      exact moves_active hworker hphase (by decide) (steady_submit hsubmit) rfl rfl
        (plain_phase (by decide))

theorem moves_acquire (w leaseSeconds : Nat) :
    Moves executionId (.acquire w leaseSeconds) s (s.acquire executionId w leaseSeconds) := by
  refine during_cases moves_refl ?_
  intro worker hworker hphase
  split
  · exact moves_refl
  · exact moves_active hworker hphase (by decide) (steady_of_eq rfl) rfl rfl
      (plain_phase (by decide))
  · rename_i lease store hacquire
    have hgrants : Grants executionId (.acquire w leaseSeconds) s w lease :=
      ⟨leaseSeconds, store, rfl, hacquire⟩
    rcases acquire_cases hacquire with ⟨hnone, _⟩ | ⟨granted, hgranted, hrow, _⟩
    · cases hnone
    cases hgranted
    rcases hrow.exists_row with ⟨x, leaseUntil, hx, hopen, _, hlease, heq⟩
    have hx' : store.executions.lookup executionId =
        some (Store.leaseExecution (x.epoch + 1) leaseUntil x) := by
      rw [heq, Table.lookup_modify_self, hx]
      rfl
    have hepoch : lease.epoch = x.epoch + 1 := by rw [hlease]
    refine moves_setWorker (t := { s with store := store }) (jobStep_same rfl) ?_ rfl ?_
    · refine .granted w lease x _ hgrants hx hopen hx' (by simp [Store.leaseExecution]) hepoch ?_
      intro new hnew
      change (s.workers.modify w _).lookup w = some new at hnew
      rw [Table.lookup_modify_self, hworker] at hnew
      cases hnew
      rfl
    · intro old hold
      rw [hworker] at hold
      cases hold
      refine ⟨rfl, Or.inr ⟨lease, _, hgrants, rfl, by rw [hlease], hx', hepoch⟩, ?_, ?_, ?_⟩
      · exact fun hover => absurd hover (not_over hphase (by decide))
      · exact nofun
      · simp [Finished]

theorem moves_lookup : Moves executionId e s (s.lookup executionId w) := by
  refine during_cases moves_refl ?_
  intro worker hworker hphase
  split
  · exact moves_refl
  rename_i saved hsaved
  split
  · exact moves_active hworker hphase (by decide) (steady_of_eq rfl) rfl rfl
      ⟨fun _ => rfl, fun _ => rfl, fun _ => Or.inl (by simp)⟩
  split
  · exact moves_active hworker hphase (by decide) (steady_of_eq rfl) rfl rfl
      ⟨fun _ => rfl, fun _ => rfl, fun _ => Or.inl (by simp)⟩
  · rename_i hsucceeded
    refine moves_setWorker (jobStep_same rfl) (.steady (steady_of_eq rfl)) rfl ?_
    intro old hold
    rw [hworker] at hold
    cases hold
    refine ⟨rfl, Or.inl rfl, ?_, nofun, fun _ => Or.inr ⟨saved, hsaved, not_not.mp hsucceeded⟩⟩
    exact fun hover => absurd hover (not_over hphase (by decide))

theorem moves_returnSaved : Moves executionId e s (s.returnSaved w) := by
  refine during_cases moves_refl ?_
  intro worker hworker hphase
  refine moves_setWorker (jobStep_same rfl) (.steady (steady_of_eq rfl)) rfl ?_
  intro old hold
  rw [hworker] at hold
  cases hold
  refine ⟨rfl, Or.inl rfl, ?_, nofun, fun _ => Or.inl (Or.inl (by simpa using hphase))⟩
  exact fun hover => absurd hover (not_over hphase (by decide))

theorem moves_release {w : Nat} (hid : forall worker lease,
    s.workers.lookup w = some worker -> worker.lease = some lease ->
      lease.executionId = executionId) (resultRef : ArtifactRef) :
    Moves executionId e s (s.release w resultRef) := by
  refine during_cases moves_refl ?_
  intro worker hworker hphase
  split
  · exact moves_refl
  rename_i lease hlease
  split
  · exact moves_refl
  rename_i store hrelease
  have hid := hid worker lease hworker hlease
  rcases bind_eq_ok hrelease with ⟨_, _, h⟩
  rcases bind_eq_ok h with ⟨_, _, h⟩
  rcases bind_eq_ok h with ⟨x, hfence, h⟩
  rcases bind_eq_ok h with ⟨_, _, h⟩
  cases h
  have hheld := holds_of_assertFence hfence
  have hx := hheld.stored
  rw [hid] at hx
  have hx' : ((s.store.abandon lease.executionId "\x7b\"type\":\"execution_finished\"\x7d"
      none).setExecution lease.executionId
      (Store.finishExecution .succeeded (some resultRef) none)).executions.lookup executionId =
      some (Store.finishExecution .succeeded (some resultRef) none x) := by
    show (Table.modify _ _ _).lookup executionId = _
    rw [hid, Table.lookup_modify_self]
    show (s.store.executions.lookup executionId).map _ = _
    rw [hx]
    rfl
  have hopen : x.status ≠ .succeeded := by
    rw [hheld.running]
    decide
  refine moves_setWorker (t := { s with store := _ }) (jobStep_same rfl) ?_ rfl ?_
  · exact .released w worker x _ hworker (by simpa using hphase) (by rw [hlease]; rfl) hx hopen hx'
      rfl rfl
  · intro old hold
    rw [hworker] at hold
    cases hold
    refine ⟨rfl, Or.inl rfl, ?_, nofun, fun _ => Or.inr ⟨_, hx', rfl⟩⟩
    exact fun hover => absurd hover (not_over hphase (by decide))

theorem moves_releaseFailed : Moves executionId e s (s.releaseFailed w) := by
  refine during_cases moves_refl ?_
  intro worker hworker hphase
  split
  · exact moves_refl
  rename_i lease _
  refine moves_plain (jobStep_same rfl) (steady_change_failed executionId s lease worker.error) rfl
    (plain_phase ?_) ?_
  · split
    · decide
    · decide
  · intro old hold hover
    rw [hworker] at hold
    cases hold
    have hfailing : worker.phase ≠ .failing := by
      rcases hover with hover | hover
      · rw [hover]
        decide
      · rw [hover]
        decide
    exact Or.inr (if_neg hfailing)

theorem moves_check : Moves executionId (.check w) s (s.check executionId w) := by
  refine during_cases moves_refl ?_
  intro worker hworker hphase
  have hraised : worker.phase = .raised := by simpa using hphase
  have hreports : ¬ AtWork executionId s -> Moves executionId (.check w) s
      (s.setPhase w .reporting) := by
    intro hidle
    refine moves_setWorker (jobStep_same rfl) (.steady (steady_of_eq rfl)) rfl ?_
    intro old hold
    rw [hworker] at hold
    cases hold
    refine ⟨rfl, Or.inl rfl, ?_, fun _ => Or.inr ⟨rfl, hraised, hidle⟩, by simp [Finished]⟩
    exact fun hover => absurd hover (not_over hphase (by decide))
  split
  · next hnone =>
      apply hreports
      rintro ⟨x, hx, _⟩
      rw [hnone] at hx
      cases hx
  · next x hx =>
      split
      · exact moves_ended (jobStep_same rfl) rfl rfl
      · next hidle =>
          apply hreports
          rintro ⟨x', hx', hwork⟩
          rw [hx] at hx'
          cases hx'
          exact hidle hwork

theorem moves_watch : Moves executionId e s (s.watch w) := by
  refine during_cases moves_refl ?_
  intro worker _ _
  split
  · exact moves_plain (jobStep_same rfl) (steady_of_eq rfl) rfl
      ⟨fun _ => rfl, fun _ => rfl, fun _ => Or.inr rfl⟩ fun _ _ hover => hover
  · exact moves_refl

theorem moves_watchCancel : Moves executionId e s (s.watchCancel executionId w) := by
  refine during_cases moves_refl ?_
  intro worker _ _
  split
  · exact moves_plain (jobStep_same rfl) (steady_change_cancel executionId s) rfl
      ⟨fun _ => rfl, fun _ => rfl, fun _ => Or.inr rfl⟩ fun _ _ hover => hover
  · exact moves_refl

theorem moves_withdraw : Moves executionId e s (s.withdraw w) := by
  refine during_cases moves_refl ?_
  intro worker hworker hphase
  split
  · refine moves_active hworker hphase (by decide) (steady_of_eq rfl) rfl rfl (plain_phase ?_)
    split
    · decide
    · decide
  · exact moves_refl

/-!
# Every step
-/

/-- What holds of a worker's row. -/
structure Fits (executionId : String) (s : Queue) (worker : Worker) : Prop where
  finished : Finished worker.phase -> Done executionId s
  lease : forall lease, worker.lease = some lease -> lease.executionId = executionId

def WorkersSound (executionId : String) (s : Queue) : Prop :=
  forall w worker, s.workers.lookup w = some worker -> Fits executionId s worker

theorem moves_step (h : WorkersSound executionId s) (e : Event) :
    Moves executionId e s (step executionId e s) := by
  cases e with
  | store event =>
      show Moves _ _ _ (if _ then _ else _)
      split
      · exact moves_refl
      · rename_i hother
        exact moves_rest (jobStep_same rfl)
          (steady_step (Bool.eq_false_of_not_eq_true hother) s.store) rfl
  | start => exact moves_start
  | endProject => exact moves_same rfl rfl rfl
  | readForCancel c => exact moves_readForCancel c
  | storeCancel c => exact moves_storeCancel c
  | markCancelled c => exact moves_markCancelled c
  | readForResume c key => exact moves_readForResume c key
  | resume c => exact moves_resume c
  | publish redeliverSeconds => exact moves_publish redeliverSeconds
  | send => exact moves_send
  | sendFails arrived => exact moves_sendFails arrived
  | unpublish => exact moves_unpublish
  | deliver w => exact moves_deliver w
  | raise w error => exact moves_raise w error
  | submit w authoringInput executionSpec => exact moves_submit w authoringInput executionSpec
  | acquire w leaseSeconds => exact moves_acquire w leaseSeconds
  | lookup w => exact moves_lookup w
  | returnSaved w => exact moves_returnSaved w
  | release w resultRef =>
      exact moves_release (fun worker lease hworker => (h w worker hworker).lease lease) resultRef
  | releaseFailed w => exact moves_releaseFailed w
  | check w => exact moves_check w
  | report w =>
      refine during_cases moves_refl fun worker hworker hphase => ?_
      exact moves_ended (jobStep_failJob hworker (by simpa using hphase)) rfl rfl
  | succeed w =>
      refine during_cases moves_refl fun worker hworker hphase => ?_
      exact moves_ended (jobStep_succeedJob hworker (by simpa using hphase)) rfl rfl
  | watch w => exact moves_watch w
  | watchCancel w => exact moves_watchCancel w
  | withdraw w => exact moves_withdraw w
  | crash w => exact moves_ended (jobStep_same rfl) rfl rfl

end Queue
end Authoring
end KnowledgeBrain
