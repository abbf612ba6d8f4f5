import KnowledgeBrain.Authoring.Deliveries

/-!
# The queue and its executions

A failure is reported in a transaction of its own, after a check, and the report
only asks whether the job is cancelled.  The queue agrees with its executions in
every run in which no execution is taken over from a delivery that is under way,
no resume is recorded beside one, and no delivery passes the check without a
lease or after a success.
-/

namespace KnowledgeBrain
namespace Authoring
namespace Queue

open Foundation
open Tender (Json ArtifactRef)

variable {executionId : String} {s t : Queue} {e : Event}

/-!
# Success
-/

/-- A success of the execution stays, with its result. -/
theorem Moves.result (h : Moves executionId e s t) {x : Execution}
    (hx : s.execution executionId = some x) (hsucceeded : x.status = .succeeded) :
    exists x', t.execution executionId = some x' ∧ x'.status = .succeeded ∧
      x'.resultRef = x.resultRef := by
  cases h.row with
  | steady hsteady =>
      rcases hsteady with ⟨hnone, _⟩ | ⟨x0, x', hx0, hx', hkept⟩
      · rw [show s.execution executionId = none from hnone] at hx
        cases hx
      · rw [show s.execution executionId = some x0 from hx0] at hx
        cases hx
        exact ⟨x', hx', hkept.result hsucceeded⟩
  | granted w lease x0 x' hgrants hx0 hopen =>
      rw [hx0] at hx
      cases hx
      exact absurd hsucceeded hopen
  | released w worker x0 x' hworker hphase hlease hx0 hopen =>
      rw [hx0] at hx
      cases hx
      exact absurd hsucceeded hopen

theorem Done.moves (h : Done executionId s) (hmoves : Moves executionId e s t) :
    Done executionId t := by
  rcases h with ⟨x, hx, hsucceeded⟩
  rcases hmoves.result hx hsucceeded with ⟨x', hx', hsucceeded', _⟩
  exact ⟨x', hx', hsucceeded'⟩

/-- What holds in every state. -/
structure Sound (executionId : String) (s : Queue) : Prop where
  workers : WorkersSound executionId s
  job : forall job, s.job = some job -> job.status = .succeeded -> Done executionId s

theorem sound_of_fresh (h : s.Fresh executionId) : Sound executionId s := by
  constructor
  · intro w worker hlookup
    rw [h.workers] at hlookup
    cases hlookup
  · intro job hjob
    rw [h.job] at hjob
    cases hjob

theorem Moves.fits (h : Moves executionId e s t) (hsound : WorkersSound executionId s) :
    WorkersSound executionId t := by
  intro w worker hlookup
  cases h.workers w worker hlookup with
  | delivered job hevent hjob hworker =>
      rw [hworker]
      exact ⟨by simp [Finished, newWorker], nofun⟩
  | before old hold hgoes =>
      have hfits := hsound w old hold
      constructor
      · intro hfinished
        rcases hgoes.finished hfinished with hbefore | hdone
        · exact (hfits.finished hbefore).moves h
        · exact hdone
      · intro lease hlease
        rcases hgoes.lease with hsame | ⟨lease', _, _, hgiven, hid, _⟩
        · exact hfits.lease lease (hsame.symm.trans hlease)
        · rw [hlease] at hgiven
          cases hgiven
          exact hid

variable {job' : Job}

/-- What a step makes of the row of the job, seen from the row after it. -/
theorem Moves.changed (h : Moves executionId e s t) (hjob' : t.job = some job') :
    job' = newJob ∨ exists job, s.job = some job ∧ JobChange s e job job' := by
  cases hjob : s.job with
  | none =>
      rcases h.job.none hjob with hnone | hnew
      · rw [hnone] at hjob'
        cases hjob'
      · rw [hnew] at hjob'
        cases hjob'
        exact Or.inl rfl
  | some job =>
      rcases h.job.some job hjob with ⟨after, hafter, hchange⟩
      rw [hjob'] at hafter
      cases hafter
      exact Or.inr ⟨job, rfl, hchange⟩

/-- A job that has just succeeded was reported by a worker that returned. -/
theorem Moves.earned (hsound : Sound executionId s) (h : Moves executionId e s t)
    (hjob' : t.job = some job') (hsucceeded : job'.status = .succeeded) : Done executionId t := by
  rcases h.changed hjob' with rfl | ⟨job, hjob, hchange⟩
  · cases hsucceeded
  apply Done.moves _ h
  cases hchange with
  | kept => exact hsound.job job' hjob hsucceeded
  | cancelled hopen => cases hsucceeded
  | moved job'' hopen hcancelled hstatus hkeys => simp [hsucceeded] at hstatus
  | failed w worker hevent hworker hphase hcancelled => cases hsucceeded
  | succeeded w worker hworker hphase hcancelled =>
      exact (hsound.workers w worker hworker).finished (Or.inr hphase)

theorem sound_step (e : Event) (s : Queue) (h : Sound executionId s) :
    Sound executionId (step executionId e s) := by
  have hmoves := moves_step h.workers e
  exact ⟨hmoves.fits h.workers, fun job hjob => hmoves.earned h hjob⟩

/-!
# What the queue promises
-/

/-- A final status stays, a result stays, and a resume that was recorded stays recorded. -/
structure Keeps (executionId : String) (s t : Queue) : Prop where
  final : forall job, s.job = some job -> job.status = .succeeded ∨ job.status = .cancelled ->
    exists job', t.job = some job' ∧ job'.status = job.status
  result : forall x, s.execution executionId = some x -> x.status = .succeeded ->
    exists x', t.execution executionId = some x' ∧ x'.status = .succeeded ∧
      x'.resultRef = x.resultRef
  resumes : forall job, s.job = some job ->
    exists job', t.job = some job' ∧ job.resumeKeys <+: job'.resumeKeys

/-- The worker has a lease and it was not replaced. -/
def HasCurrentLease (executionId : String) (s : Queue) (worker : Worker) : Prop :=
  exists lease x, worker.lease = some lease ∧ s.execution executionId = some x ∧
    lease.epoch = x.epoch

/-- Every resume was recorded when the worker began. -/
def KnowsResumes (worker : Worker) (job : Job) : Prop :=
  forall key, key ∈ job.resumeKeys -> key ∈ worker.job.resumeKeys

/-- The event marks the job as failed for the worker. -/
structure Fails (executionId : String) (e : Event) (s : Queue) (w : Nat) (worker : Worker)
    (job : Job) : Prop where
  reports : e = .report w
  holder : s.workers.lookup w = some worker
  stored : s.job = some job
  before : job.status ≠ .failed
  after : exists job', (step executionId e s).job = some job' ∧ job'.status = .failed

/-- A transaction does to the job what may be expected of it. -/
structure Agrees (executionId : String) (e : Event) (s : Queue) : Prop where
  keeps : Keeps executionId s (step executionId e s)
  earned : forall job', (step executionId e s).job = some job' -> job'.status = .succeeded ->
    Done executionId (step executionId e s)
  reported : forall job job', s.job = some job -> (step executionId e s).job = some job' ->
    job.status ≠ .failed -> job'.status = .failed -> exists w, e = .report w
  owned : forall w worker job, Fails executionId e s w worker job ->
    HasCurrentLease executionId s worker
  resumed : forall w worker job, Fails executionId e s w worker job -> KnowsResumes worker job

/-!
# Orderly runs
-/

instance (worker : Worker) : Decidable (Over worker) :=
  inferInstanceAs (Decidable (_ ∨ _))

def isCancelled (s : Queue) : Bool :=
  s.job.any fun job => job.status == .cancelled

/-- The execution is at work, the job is cancelled, or the worker was given a lease and the
execution has not succeeded. -/
def mayCheck (executionId : String) (s : Queue) (worker : Worker) : Bool :=
  ((s.execution executionId).any fun x => x.status == .running && s.store.leaseLive x) ||
    s.isCancelled ||
    (worker.lease.isSome && (s.execution executionId).all fun x => x.status != .succeeded)

/-- An execution is only taken over when no other delivery that had a lease is under way; a
resume is only recorded when no delivery is; and of the deliveries that failed only an owner of a
lease, before any success, finds nobody at work. -/
def isOrderly (executionId : String) : Event -> Queue -> Bool
  | .acquire w leaseSeconds, s =>
      match s.store.acquire executionId leaseSeconds with
      | .ok (some _, _) =>
          s.workers.rows.all fun row => row.1 == w || row.2.lease.isNone || decide (Over row.2)
      | _ => true
  | .resume c, s => !s.recordsResume c || s.workers.rows.all fun row => decide (Over row.2)
  | .check w, s =>
      (s.workers.lookup w).all fun worker =>
        worker.phase != .raised || s.mayCheck executionId worker
  | _, _ => true

def Orderly (executionId : String) (e : Event) (s : Queue) : Prop :=
  isOrderly executionId e s = true

instance (executionId : String) (e : Event) (s : Queue) : Decidable (Orderly executionId e s) :=
  inferInstanceAs (Decidable (_ = true))

variable {worker : Worker}

theorem Orderly.alone {w w' : Nat} {lease : Lease} (h : Orderly executionId e s)
    (hgrants : Grants executionId e s w lease) (hlookup : s.workers.lookup w' = some worker)
    (hlease : worker.lease ≠ none) (hover : ¬ Over worker) : w' = w := by
  rcases hgrants with ⟨leaseSeconds, store, rfl, hacquire⟩
  unfold Orderly isOrderly at h
  dsimp only at h
  rw [hacquire] at h
  have hrow := List.all_eq_true.mp h _ (Table.mem_rows_of_lookup hlookup)
  simp only [Bool.or_eq_true, beq_iff_eq, Option.isNone_iff_eq_none, decide_eq_true_eq] at hrow
  exact (hrow.resolve_right hover).resolve_right hlease

theorem Orderly.resumes {c w : Nat} (h : Orderly executionId (.resume c) s)
    (hrecords : s.recordsResume c = true) (hlookup : s.workers.lookup w = some worker) :
    Over worker := by
  unfold Orderly isOrderly at h
  dsimp only at h
  rw [hrecords] at h
  exact of_decide_eq_true (List.all_eq_true.mp h _ (Table.mem_rows_of_lookup hlookup))

theorem Orderly.checks {w : Nat} (h : Orderly executionId (.check w) s)
    (hlookup : s.workers.lookup w = some worker) (hphase : worker.phase = .raised)
    (hidle : ¬ AtWork executionId s) :
    s.isCancelled = true ∨ worker.lease.isSome = true ∧ ¬ Done executionId s := by
  unfold Orderly isOrderly mayCheck at h
  dsimp only at h
  rw [hlookup] at h
  simp only [Option.all_some, hphase, bne_self_eq_false, Bool.false_or, Bool.or_eq_true,
    Bool.and_eq_true, Option.any_eq_true, Option.all_eq_true, beq_iff_eq, bne_iff_ne] at h
  rcases h with (hwork | hcancelled) | ⟨hlease, hopen⟩
  · exact absurd hwork hidle
  · exact Or.inl hcancelled
  · refine Or.inr ⟨hlease, ?_⟩
    rintro ⟨x, hx, hsucceeded⟩
    exact hopen x hx hsucceeded

/-- What holds in every state of an orderly run: at most one delivery under way has a lease, which
is that of the row; who reports has it and comes before any success; and every resume was recorded
before the deliveries under way. -/
structure Quiet (executionId : String) (s : Queue) : Prop where
  current : forall w worker lease, s.workers.lookup w = some worker -> ¬ Over worker ->
    worker.lease = some lease ->
      exists x, s.execution executionId = some x ∧ lease.epoch = x.epoch
  single : forall w w' worker worker', s.workers.lookup w = some worker ->
    s.workers.lookup w' = some worker' -> ¬ Over worker -> ¬ Over worker' ->
      worker.lease ≠ none -> worker'.lease ≠ none -> w = w'
  reporting : forall w worker, s.workers.lookup w = some worker -> worker.phase = .reporting ->
    s.isCancelled = true ∨ worker.lease.isSome = true ∧ ¬ Done executionId s
  knows : forall w worker job, s.workers.lookup w = some worker -> ¬ Over worker ->
    s.job = some job -> KnowsResumes worker job

theorem quiet_of_fresh (h : s.Fresh executionId) : Quiet executionId s := by
  have hnone : forall w, s.workers.lookup w = none := by
    intro w
    rw [h.workers]
    rfl
  constructor
  · intro w worker lease hlookup
    rw [hnone] at hlookup
    cases hlookup
  · intro w w' worker worker' hlookup
    rw [hnone] at hlookup
    cases hlookup
  · intro w worker hlookup
    rw [hnone] at hlookup
    cases hlookup
  · intro w worker job hlookup
    rw [hnone] at hlookup
    cases hlookup

/-- A delivery under way that has a lease had it before or is given it now. -/
theorem Comes.leased {w : Nat} (h : Comes executionId e s t w worker) (hover : ¬ Over worker)
    (hlease : worker.lease ≠ none) :
    exists old, s.workers.lookup w = some old ∧ ¬ Over old ∧
      (old.lease = worker.lease ∨ exists lease x, Grants executionId e s w lease ∧
        worker.lease = some lease ∧ t.execution executionId = some x ∧ lease.epoch = x.epoch) := by
  cases h with
  | delivered job hevent hjob hworker =>
      rw [hworker] at hlease
      exact absurd rfl hlease
  | before old hlookup hgoes =>
      refine ⟨old, hlookup, fun hold => hover (hgoes.overStays hold), ?_⟩
      rcases hgoes.lease with hsame | ⟨lease, x, hgrants, hgiven, _, hx, hepoch⟩
      · exact Or.inl hsame.symm
      · exact Or.inr ⟨lease, x, hgrants, hgiven, hx, hepoch⟩

theorem Grants.same {w w' : Nat} {lease lease' : Lease} (h : Grants executionId e s w lease)
    (h' : Grants executionId e s w' lease') : w = w' := by
  rcases h with ⟨_, _, hevent, _⟩
  rcases h' with ⟨_, _, hevent', _⟩
  rw [hevent] at hevent'
  cases hevent'
  rfl

theorem Moves.single (h : Moves executionId e s t) (hquiet : Quiet executionId s)
    (horderly : Orderly executionId e s) (w w' : Nat) (worker worker' : Worker)
    (hlookup : t.workers.lookup w = some worker) (hlookup' : t.workers.lookup w' = some worker')
    (hover : ¬ Over worker) (hover' : ¬ Over worker') (hlease : worker.lease ≠ none)
    (hlease' : worker'.lease ≠ none) : w = w' := by
  rcases (h.workers w worker hlookup).leased hover hlease with ⟨old, hold, hunder, hbefore⟩
  rcases (h.workers w' worker' hlookup').leased hover' hlease' with
    ⟨old', hold', hunder', hbefore'⟩
  rcases hbefore with hsame | ⟨_, _, hgrants, _⟩
  · rcases hbefore' with hsame' | ⟨_, _, hgrants', _⟩
    · exact hquiet.single w w' old old' hold hold' hunder hunder' (hsame ▸ hlease)
        (hsame' ▸ hlease')
    · exact horderly.alone hgrants' hold (hsame ▸ hlease) hunder
  · rcases hbefore' with hsame' | ⟨_, _, hgrants', _⟩
    · exact (horderly.alone hgrants hold' (hsame' ▸ hlease') hunder').symm
    · exact hgrants.same hgrants'

theorem Moves.current (h : Moves executionId e s t) (hquiet : Quiet executionId s)
    (horderly : Orderly executionId e s) (w : Nat) (worker : Worker) (lease : Lease)
    (hlookup : t.workers.lookup w = some worker) (hover : ¬ Over worker)
    (hlease : worker.lease = some lease) :
    exists x, t.execution executionId = some x ∧ lease.epoch = x.epoch := by
  have hsome : worker.lease ≠ none := by
    rw [hlease]
    exact Option.some_ne_none lease
  rcases (h.workers w worker hlookup).leased hover hsome with ⟨old, hold, hunder, hbefore⟩
  rcases hbefore with hsame | ⟨lease', x', _, hgiven, hx', hepoch⟩
  · rcases hquiet.current w old lease hold hunder (hsame.trans hlease) with ⟨x, hx, hepoch⟩
    cases h.row with
    | steady hsteady =>
        rcases hsteady with ⟨hnone, _⟩ | ⟨x0, x', hx0, hx', hkept⟩
        · rw [show s.execution executionId = none from hnone] at hx
          cases hx
        · rw [show s.execution executionId = some x0 from hx0] at hx
          cases hx
          exact ⟨x', hx', hepoch.trans hkept.epoch.symm⟩
    | granted w' lease' x0 x' hgrants hx0 hopen hx' hopen' hepoch' hworker =>
        have hw := horderly.alone hgrants hold (hsame ▸ hsome) hunder
        subst hw
        have hgiven := hworker worker hlookup
        rw [hlease] at hgiven
        cases hgiven
        exact ⟨x', hx', hepoch'⟩
    | released w' worker' x0 x' hworker hphase hlease' hx0 hopen hx' hdone hepoch' =>
        rw [hx0] at hx
        cases hx
        exact ⟨x', hx', hepoch.trans hepoch'.symm⟩
  · rw [hlease] at hgiven
    cases hgiven
    exact ⟨x', hx', hepoch⟩

/-- Only the owner of a lease brings the execution to success. -/
theorem Moves.opened (h : Moves executionId e s t) (hopen : ¬ Done executionId s)
    (hdone : Done executionId t) : exists w worker, s.workers.lookup w = some worker ∧
      worker.phase = .working ∧ worker.lease.isSome = true := by
  rcases hdone with ⟨x', hx', hsucceeded⟩
  cases h.row with
  | steady hsteady =>
      rcases hsteady with ⟨_, hpending⟩ | ⟨x0, y, hx0, hy, hkept⟩
      · have hstatus := hpending x' hx'
        rw [hsucceeded] at hstatus
        cases hstatus
      · rw [show t.execution executionId = some y from hy] at hx'
        cases hx'
        exact absurd ⟨x0, hx0, hkept.opened hsucceeded⟩ hopen
  | granted w lease x0 y hgrants hx0 hopen' hy hstatus =>
      rw [hy] at hx'
      cases hx'
      exact absurd hsucceeded hstatus
  | released w worker x0 y hworker hphase hlease =>
      exact ⟨w, worker, hworker, hphase, hlease⟩

theorem isCancelled_iff :
    s.isCancelled = true <-> exists job, s.job = some job ∧ job.status = .cancelled := by
  unfold isCancelled
  simp only [Option.any_eq_true, beq_iff_eq]

/-- A cancelled job stays cancelled. -/
theorem Moves.cancelled (h : Moves executionId e s t) (hcancelled : s.isCancelled = true) :
    t.isCancelled = true := by
  rcases isCancelled_iff.mp hcancelled with ⟨job, hjob, hstatus⟩
  rcases h.job.some job hjob with ⟨job', hjob', hchange⟩
  apply isCancelled_iff.mpr
  refine ⟨job', hjob', ?_⟩
  cases hchange with
  | kept => exact hstatus
  | cancelled hopen => rfl
  | moved job'' hopen hopen' hmoved hkeys => exact absurd hstatus hopen'
  | failed w worker hevent hworker hphase hopen => exact absurd hstatus hopen
  | succeeded w worker hworker hphase hopen => exact absurd hstatus hopen

/-- The keys of a job change where a resume is recorded. -/
theorem Moves.keys (h : Moves executionId e s t) (hjob' : t.job = some job') :
    job'.resumeKeys = [] ∨ exists job, s.job = some job ∧
      (job'.resumeKeys = job.resumeKeys ∨
        exists c, e = .resume c ∧ s.recordsResume c = true) := by
  rcases h.changed hjob' with rfl | ⟨job, hjob, hchange⟩
  · exact Or.inl rfl
  refine Or.inr ⟨job, hjob, ?_⟩
  cases hchange with
  | kept => exact Or.inl rfl
  | cancelled hopen => exact Or.inl rfl
  | moved job'' hopen hcancelled hstatus hkeys =>
      exact hkeys.imp_right fun ⟨c, _, hevent, hrecords, _⟩ => ⟨c, hevent, hrecords⟩
  | failed w worker hevent hworker hphase hcancelled => exact Or.inl rfl
  | succeeded w worker hworker hphase hcancelled => exact Or.inl rfl

theorem Moves.reporting (h : Moves executionId e s t) (hquiet : Quiet executionId s)
    (horderly : Orderly executionId e s) (w : Nat) (worker : Worker)
    (hlookup : t.workers.lookup w = some worker)
    (hphase : worker.phase = .reporting) :
    t.isCancelled = true ∨ worker.lease.isSome = true ∧ ¬ Done executionId t := by
  cases h.workers w worker hlookup with
  | delivered job hevent hjob hworker =>
      rw [hworker] at hphase
      cases hphase
  | before old hold hgoes =>
      have hlease : old.lease.isSome = true -> worker.lease.isSome = true := by
        intro hsome
        rcases hgoes.lease with hsame | ⟨lease, _, _, hgiven, _⟩
        · rw [hsame]
          exact hsome
        · rw [hgiven]
          rfl
      have hafter : (s.isCancelled = true ∨ old.lease.isSome = true ∧ ¬ Done executionId s) ->
          (forall w' worker', s.workers.lookup w' = some worker' -> worker'.phase = .working ->
            worker'.lease.isSome = true -> old.lease.isSome = true -> False) ->
          t.isCancelled = true ∨ worker.lease.isSome = true ∧ ¬ Done executionId t := by
        rintro (hcancelled | ⟨hsome, hopen⟩) halone
        · exact Or.inl (h.cancelled hcancelled)
        · refine Or.inr ⟨hlease hsome, ?_⟩
          intro hdone
          rcases h.opened hopen hdone with ⟨w', worker', hworker, hworking, howner⟩
          exact halone w' worker' hworker hworking howner hsome
      have hunder : old.phase = .reporting ∨ old.phase = .raised -> forall w' worker',
          s.workers.lookup w' = some worker' -> worker'.phase = .working ->
            worker'.lease.isSome = true -> old.lease.isSome = true -> False := by
        intro hunder w' worker' hworker hworking howner hsome
        have hover : ¬ Over old := by
          rintro (hover | hover)
          · simp [hover] at hunder
          · simp [hover] at hunder
        have hover' : ¬ Over worker' := by
          rintro (hover | hover)
          · simp [hover] at hworking
          · simp [hover] at hworking
        have hw := hquiet.single w w' old worker' hold hworker hover hover'
          (Option.isSome_iff_ne_none.mp hsome) (Option.isSome_iff_ne_none.mp howner)
        rw [← hw, hold] at hworker
        cases hworker
        simp [hworking] at hunder
      rcases hgoes.reporting hphase with hreporting | ⟨rfl, hraised, hidle⟩
      · exact hafter (hquiet.reporting w old hold hreporting) (hunder (Or.inl hreporting))
      · exact hafter (horderly.checks hold hraised hidle) (hunder (Or.inr hraised))

theorem Moves.knows (h : Moves executionId e s t) (hquiet : Quiet executionId s)
    (horderly : Orderly executionId e s) (w : Nat) (worker : Worker) (job : Job)
    (hlookup : t.workers.lookup w = some worker)
    (hover : ¬ Over worker) (hjob : t.job = some job) : KnowsResumes worker job := by
  unfold KnowsResumes
  rcases h.keys hjob with hnone | ⟨job0, hjob0, hkeys⟩
  · rw [hnone]
    intro key hkey
    cases hkey
  cases h.workers w worker hlookup with
  | delivered job1 hevent hjob1 hworker =>
      rw [hjob0] at hjob1
      cases hjob1
      rcases hkeys with hsame | ⟨c, hresume, _⟩
      · rw [hworker, hsame]
        exact fun key hkey => hkey
      · rw [hevent] at hresume
        cases hresume
  | before old hold hgoes =>
      have hunder : ¬ Over old := fun hover' => hover (hgoes.overStays hover')
      rcases hkeys with hsame | ⟨c, rfl, hrecords⟩
      · rw [hgoes.job, hsame]
        exact hquiet.knows w old job0 hold hunder hjob0
      · exact absurd (horderly.resumes hrecords hold) hunder

theorem quiet_step (hsound : Sound executionId s) (hquiet : Quiet executionId s)
    (horderly : Orderly executionId e s) : Quiet executionId (step executionId e s) := by
  have hmoves := moves_step hsound.workers e
  constructor
  · exact hmoves.current hquiet horderly
  · exact hmoves.single hquiet horderly
  · exact hmoves.reporting hquiet horderly
  · exact hmoves.knows hquiet horderly

/-!
# What one transaction keeps
-/

variable {job : Job}

theorem Moves.resumes (h : Moves executionId e s t) (hjob : s.job = some job) :
    exists job', t.job = some job' ∧ job.resumeKeys <+: job'.resumeKeys := by
  rcases h.job.some job hjob with ⟨job', hjob', hchange⟩
  refine ⟨job', hjob', ?_⟩
  cases hchange with
  | kept => exact List.prefix_refl _
  | cancelled hopen => exact List.prefix_refl _
  | moved job'' hopen hcancelled hstatus hkeys =>
      rcases hkeys with hsame | ⟨c, key, _, _, hadded⟩
      · rw [hsame]
      · rw [hadded]
        exact List.prefix_append _ _
  | failed w worker hevent hworker hphase hcancelled => exact List.prefix_refl _
  | succeeded w worker hworker hphase hcancelled => exact List.prefix_refl _

/-- A report that changes the job comes before any success, from the owner of the lease, and after
no resume that its worker does not know. -/
theorem Quiet.reports (h : Quiet executionId s) (hsound : Sound executionId s) {w : Nat}
    (hworker : s.workers.lookup w = some worker) (hphase : worker.phase = .reporting)
    (hjob : s.job = some job) (hcancelled : job.status ≠ .cancelled) :
    job.status ≠ .succeeded ∧ HasCurrentLease executionId s worker ∧ KnowsResumes worker job := by
  have hover : ¬ Over worker := by
    rintro (hover | hover)
    · simp [hover] at hphase
    · simp [hover] at hphase
  rcases h.reporting w worker hworker hphase with hclosed | ⟨hlease, hopen⟩
  · rcases isCancelled_iff.mp hclosed with ⟨job', hjob', hstatus⟩
    rw [hjob] at hjob'
    cases hjob'
    exact absurd hstatus hcancelled
  · rcases Option.isSome_iff_exists.mp hlease with ⟨lease, hlease⟩
    rcases h.current w worker lease hworker hover hlease with ⟨x, hx, hepoch⟩
    exact ⟨fun hsucceeded => hopen (hsound.job job hjob hsucceeded), ⟨lease, x, hlease, hx, hepoch⟩,
      h.knows w worker job hworker hover hjob⟩

/-- Only a report leaves a final status. -/
theorem Moves.final (h : Moves executionId e s t) (hsound : Sound executionId s)
    (hquiet : Quiet executionId s) (hjob : s.job = some job)
    (hfinal : job.status = .succeeded ∨ job.status = .cancelled) :
    exists job', t.job = some job' ∧ job'.status = job.status := by
  rcases h.job.some job hjob with ⟨job', hjob', hchange⟩
  refine ⟨job', hjob', ?_⟩
  cases hchange with
  | kept => rfl
  | cancelled hopen => exact (hfinal.resolve_left hopen).symm
  | moved job'' hopen hcancelled hstatus hkeys =>
      rcases hfinal with hfinal | hfinal
      · exact absurd hfinal hopen
      · exact absurd hfinal hcancelled
  | failed w worker hevent hworker hphase hcancelled =>
      have hopen := (hquiet.reports hsound hworker hphase hjob hcancelled).1
      exact absurd (hfinal.resolve_right hcancelled) hopen
  | succeeded w worker hworker hphase hcancelled => exact (hfinal.resolve_right hcancelled).symm

theorem keeps_step (e : Event) (hsound : Sound executionId s) (hquiet : Quiet executionId s) :
    Keeps executionId s (step executionId e s) := by
  have hmoves := moves_step hsound.workers e
  exact ⟨fun _ => hmoves.final hsound hquiet, fun _ => hmoves.result, fun _ => hmoves.resumes⟩

/-- A job that has just failed was reported by a worker that passed the check. -/
theorem Moves.failed (h : Moves executionId e s t) {job job' : Job} (hjob : s.job = some job)
    (hjob' : t.job = some job') (hbefore : job.status ≠ .failed) (hafter : job'.status = .failed) :
    exists w worker, e = .report w ∧ s.workers.lookup w = some worker ∧
      worker.phase = .reporting ∧ job.status ≠ .cancelled := by
  rcases h.changed hjob' with rfl | ⟨old, hold, hchange⟩
  · cases hafter
  rw [hjob] at hold
  cases hold
  cases hchange with
  | kept => exact absurd hafter hbefore
  | cancelled hopen => cases hafter
  | moved job'' hopen hcancelled hstatus hkeys => simp [hafter] at hstatus
  | failed w worker hevent hworker hphase hcancelled =>
      exact ⟨w, worker, hevent, hworker, hphase, hcancelled⟩
  | succeeded w worker hworker hphase hcancelled => cases hafter

theorem Fails.owned {w : Nat} (hsound : Sound executionId s) (hquiet : Quiet executionId s)
    (h : Fails executionId e s w worker job) :
    HasCurrentLease executionId s worker ∧ KnowsResumes worker job := by
  rcases h.after with ⟨job', hjob', hafter⟩
  rcases (moves_step hsound.workers e).failed h.stored hjob' h.before hafter with
    ⟨w', worker', hevent, hworker, hphase, hcancelled⟩
  have hevent' := h.reports
  rw [hevent] at hevent'
  cases hevent'
  have hworker' := h.holder
  rw [hworker] at hworker'
  cases hworker'
  exact (hquiet.reports hsound hworker hphase h.stored hcancelled).2

theorem agrees_step (e : Event) (hsound : Sound executionId s) (hquiet : Quiet executionId s) :
    Agrees executionId e s := by
  have hmoves := moves_step hsound.workers e
  constructor
  · exact keeps_step e hsound hquiet
  · exact fun _ hjob' => hmoves.earned hsound hjob'
  · intro job job' hjob hjob' hbefore hafter
    rcases hmoves.failed hjob hjob' hbefore hafter with ⟨w, _, hevent, _⟩
    exact ⟨w, hevent⟩
  · exact fun _ _ _ hfails => (hfails.owned hsound hquiet).1
  · exact fun _ _ _ hfails => (hfails.owned hsound hquiet).2

/-!
# Whole runs
-/

theorem Keeps.refl (s : Queue) : Keeps executionId s s :=
  ⟨fun job hjob _ => ⟨job, hjob, rfl⟩, fun x hx hsucceeded => ⟨x, hx, hsucceeded, rfl⟩,
    fun job hjob => ⟨job, hjob, List.prefix_refl _⟩⟩

theorem Keeps.trans {u : Queue} (h : Keeps executionId s t) (h' : Keeps executionId t u) :
    Keeps executionId s u := by
  constructor
  · intro job hjob hfinal
    rcases h.final job hjob hfinal with ⟨job', hjob', hstatus⟩
    rcases h'.final job' hjob' (hstatus.symm ▸ hfinal) with ⟨job'', hjob'', hstatus'⟩
    exact ⟨job'', hjob'', hstatus'.trans hstatus⟩
  · intro x hx hsucceeded
    rcases h.result x hx hsucceeded with ⟨x', hx', hsucceeded', hresult⟩
    rcases h'.result x' hx' hsucceeded' with ⟨x'', hx'', hsucceeded'', hresult'⟩
    exact ⟨x'', hx'', hsucceeded'', hresult'.trans hresult⟩
  · intro job hjob
    rcases h.resumes job hjob with ⟨job', hjob', hkeys⟩
    rcases h'.resumes job' hjob' with ⟨job'', hjob'', hkeys'⟩
    exact ⟨job'', hjob'', hkeys.trans hkeys'⟩

/-- What holds in every state of an orderly run. -/
structure Settled (executionId : String) (s : Queue) : Prop where
  sound : Sound executionId s
  quiet : Quiet executionId s

theorem settled_step (e : Event) (s : Queue) (h : Settled executionId s)
    (horderly : Orderly executionId e s) : Settled executionId (step executionId e s) :=
  ⟨sound_step e s h.sound, quiet_step h.sound h.quiet horderly⟩

theorem settled_of_reaches {start : Queue} (hstart : start.Fresh executionId)
    (hrun : Reaches (step executionId) (Orderly executionId) start s) : Settled executionId s :=
  hrun.invariant settled_step ⟨sound_of_fresh hstart, quiet_of_fresh hstart⟩

theorem keeps_of_reaches (h : Settled executionId s)
    (hrun : Reaches (step executionId) (Orderly executionId) s t) : Keeps executionId s t :=
  hrun.preorder Keeps.refl (fun _ _ _ => Keeps.trans) settled_step
    (fun e _ h _ => keeps_step e h.sound h.quiet) h

/-- In every orderly run the queue agrees with its executions, whatever happens next. -/
theorem queue_agrees {start : Queue} (hstart : start.Fresh executionId)
    (hrun : Reaches (step executionId) (Orderly executionId) start s) :
    (forall job, s.job = some job -> job.status = .succeeded -> Done executionId s) ∧
      (forall t, Reaches (step executionId) (Orderly executionId) s t -> Keeps executionId s t) ∧
      forall e, Agrees executionId e s := by
  have hsettled := settled_of_reaches hstart hrun
  exact ⟨hsettled.sound.job, fun t => keeps_of_reaches hsettled,
    fun e => agrees_step e hsettled.sound hsettled.quiet⟩

def resultRef : ArtifactRef :=
  ⟨String.ofList (List.replicate 64 'd'), "\x7b\x7d"⟩

/-- A worker fails, the job is resumed and the next delivery succeeds; a duplicate of it ends at
the check. -/
def resumedRun : List Event :=
  [.store (.analysis (.submit "run" "start" "manifest" "key")), .start, .publish 60, .send,
    .deliver 1, .submit 1 ⟨"run", "\x7b\x7d"⟩ ⟨"\x7b\x7d", false⟩, .acquire 1 60,
    .raise 1 "\x7b\"type\":\"OSError\"\x7d", .releaseFailed 1, .check 1, .report 1,
    .readForResume 1 "again", .resume 1, .publish 60, .send, .deliver 2,
    .submit 2 ⟨"run", "\x7b\x7d"⟩ ⟨"\x7b\x7d", false⟩, .acquire 2 60, .deliver 3,
    .submit 3 ⟨"run", "\x7b\x7d"⟩ ⟨"\x7b\x7d", false⟩, .acquire 3 60, .lookup 3, .check 3,
    .release 2 resultRef, .succeed 2]

def emptyQueue : Queue :=
  ⟨emptyStore, none, true, Table.empty, Table.empty, 0, 0, 0⟩

theorem emptyQueue_fresh : emptyQueue.Fresh "web-document-key" :=
  ⟨rfl, rfl, rfl, rfl⟩

theorem queue_agrees_resumed :
    (perform (step "web-document-key") emptyQueue resumedRun).job.map Job.status =
      some .succeeded ∧
    Done "web-document-key" (perform (step "web-document-key") emptyQueue resumedRun) := by
  have hrun : Reaches (step "web-document-key") (Orderly "web-document-key") emptyQueue
      (perform (step "web-document-key") emptyQueue resumedRun) :=
    reaches_perform (Reaches.refl _) (by decide +kernel)
  have hagrees := queue_agrees emptyQueue_fresh hrun
  have hstatus : (perform (step "web-document-key") emptyQueue resumedRun).job.map Job.status =
      some .succeeded := by decide +kernel
  refine ⟨hstatus, ?_⟩
  rcases Option.map_eq_some_iff.mp hstatus with ⟨job, hjob, hsucceeded⟩
  exact hagrees.1 job hjob hsucceeded

/-- A duplicate is refused the lease, its sibling finishes, and the duplicate finds nobody at
work. -/
def duplicateRun : List Event :=
  [.store (.analysis (.submit "run" "start" "manifest" "key")), .start, .publish 60, .send,
    .deliver 1, .deliver 2, .submit 1 ⟨"run", "\x7b\x7d"⟩ ⟨"\x7b\x7d", false⟩, .acquire 1 60,
    .submit 2 ⟨"run", "\x7b\x7d"⟩ ⟨"\x7b\x7d", false⟩, .acquire 2 60, .lookup 2,
    .release 1 resultRef, .succeed 1, .check 2]

/-- The duplicate marks the succeeded job as failed. -/
theorem duplicate_fails_succeeded_job :
    ¬ forall (start : Queue), start.Fresh "web-document-key" -> forall s,
      Reaches (step "web-document-key") (fun _ _ => True) start s ->
      forall e, Agrees "web-document-key" e s := by
  intro hagrees
  have hallowed : Allowed (step "web-document-key") (fun _ _ => True) emptyQueue duplicateRun := by
    decide +kernel
  have hkeeps := (hagrees emptyQueue emptyQueue_fresh _
    (reaches_perform (Reaches.refl _) hallowed) (.report 2)).keeps
  have hbefore : (perform (step "web-document-key") emptyQueue duplicateRun).job.map Job.status =
      some .succeeded := by decide +kernel
  have hafter : (step "web-document-key" (.report 2)
      (perform (step "web-document-key") emptyQueue duplicateRun)).job.map Job.status =
      some .failed := by decide +kernel
  rcases Option.map_eq_some_iff.mp hbefore with ⟨job, hjob, hsucceeded⟩
  rcases hkeeps.final job hjob (Or.inl hsucceeded) with ⟨job', hjob', hkept⟩
  rw [hjob', Option.map_some, hkept, hsucceeded] at hafter
  cases hafter

end Queue
end Authoring
end KnowledgeBrain
