import KnowledgeBrain.Authoring.Ledger

/-!
# The authoring ledger along a run

Any method may be called at any time, under a lease that is held, replaced or
never was given out.  Executions that have ended stay as they are, receipts are
only added, and sends are counted for each logical request.
-/

namespace KnowledgeBrain
namespace Authoring

open Foundation Table
open Tender (Json ArtifactRef)

variable {s t : Store}

/-!
# Invariants
-/

structure Sound (s : Store) : Prop where
  executions : forall id x, s.executions.lookup id = some x -> ExecutionSound x
  requests : SendsBounded LogicalKey.carries LogicalKey.carries isOut wasSent 4 s.requests

theorem sound_of_fresh (h : s.Fresh) : Sound s := by
  constructor
  · intro id x hlookup
    rw [h.executions] at hlookup
    cases hlookup
  · rw [h.requests]
    exact SendsBounded.empty

theorem ExecutionStep.sound {table table' : Table String Execution}
    (h : ExecutionStep table table')
    (hsound : forall id x, table.lookup id = some x -> ExecutionSound x) :
    forall id x, table'.lookup id = some x -> ExecutionSound x := by
  intro id x hlookup
  cases h with
  | create id' x' hfree hnew =>
      rw [lookup_insertNew_eq_or, Option.or_eq_some_iff] at hlookup
      rcases hlookup with hold | ⟨_, hadded⟩
      · exact hsound id x hold
      · split at hadded
        · cases hadded
          exact hnew
        · cases hadded
  | change id' f hchange =>
      rcases lookup_modify_cases hlookup with ⟨rfl, old, hold, rfl⟩ | ⟨_, hold⟩
      · exact (hchange old hold).sound (hsound id old hold)
      · exact hsound id x hold

variable {q : ModelRequest}

theorem Cleared.mayBeSent (h : Cleared s q)
    (hpaid : forall id q', s.requests.lookup id = some q' -> isOut q' = true ->
      wasSent q' = true) :
    MayBeSent LogicalKey.carries LogicalKey.carries isOut wasSent 4 s.requests q := by
  refine ⟨?_, h.spare⟩
  intro key id' q' hkey hlookup hkey'
  by_contra hout
  have hout : isOut q' = true := by simpa using hout
  simp only [LogicalKey.carries, Bool.and_eq_true, beq_iff_eq] at hkey hkey'
  have halone := h.alone id' q' hlookup (hpaid id' q' hlookup hout)
    (hkey'.1.1.trans hkey.1.1.symm) (hkey'.1.2.trans hkey.1.2.symm) (hkey'.2.trans hkey.2.symm)
  rw [halone] at hout
  cases hout

theorem RequestStep.sendStep {requests : Table String ModelRequest} (h : RequestStep s requests)
    (hsound : SendsBounded LogicalKey.carries LogicalKey.carries isOut wasSent 4 s.requests) :
    SendStep LogicalKey.carries LogicalKey.carries isOut wasSent 4 s.requests requests := by
  cases h with
  | quiet f heq hquiet =>
      rw [heq]
      exact .keep f fun id q hlookup => (hquiet id q hlookup).keepsSend
  | begun id q hfree heq hprepared hunsent =>
      rw [heq]
      refine .insert id q hfree ?_ ?_
      · simp [isOut, hprepared]
      · simp [wasSent, hunsent]
  | sent id q f hlookup heq hfollows hsent hcleared =>
      rw [heq]
      exact .send id q f hlookup hfollows.carries hfollows.carries hsent
        (hcleared.mayBeSent hsound.paid)

theorem sound_step (e : Event) (h : Sound s) : Sound (step e s) := by
  have hstep := store_step e s
  constructor
  · exact hstep.executions.sound h.executions
  · exact h.requests.step (hstep.requests.sendStep h.requests)

theorem sound_of_reaches {start : Store} (hstart : start.Fresh)
    (hrun : Reaches step Anytime start s) : Sound s :=
  Reaches.invariant (fun e _ h _ => sound_step e h) (sound_of_fresh hstart) hrun

/-!
# What later states keep
-/

/-- Every row is still there, and changed as rows may change. -/
structure Continues (s t : Store) : Prop where
  executions : forall id x, s.executions.lookup id = some x ->
    exists x', t.executions.lookup id = some x' ∧ Succeeds x x'
  requests : forall id q, s.requests.lookup id = some q ->
    exists q', t.requests.lookup id = some q' ∧ Follows q q'

theorem ExecutionStep.continues {table table' : Table String Execution}
    (h : ExecutionStep table table') {id : String} {x : Execution}
    (hlookup : table.lookup id = some x) :
    exists x', table'.lookup id = some x' ∧ Succeeds x x' := by
  cases h with
  | create id' x' hfree hnew =>
      refine ⟨x, ?_, Succeeds.refl x⟩
      rw [lookup_insertNew_eq_or, hlookup]
      rfl
  | change id' f hchange =>
      by_cases hid : id = id'
      · subst hid
        refine ⟨f x, ?_, hchange x hlookup⟩
        rw [lookup_modify_self, hlookup]
        rfl
      · refine ⟨x, ?_, Succeeds.refl x⟩
        rw [lookup_modify_of_ne _ _ hid, hlookup]

theorem RequestStep.continues {requests : Table String ModelRequest} (h : RequestStep s requests)
    {id : String} (hlookup : s.requests.lookup id = some q) :
    exists q', requests.lookup id = some q' ∧ Follows q q' := by
  cases h with
  | quiet f heq hquiet =>
      refine ⟨f id q, ?_, (hquiet id q hlookup).toFollows⟩
      rw [heq, lookup_mapRows, hlookup]
      rfl
  | begun id' q' hfree heq hprepared hunsent =>
      refine ⟨q, ?_, Follows.refl q⟩
      rw [heq, lookup_insertNew_eq_or, hlookup]
      rfl
  | sent id' q' f hlookup' heq hfollows hsent hcleared =>
      by_cases hid : id = id'
      · subst hid
        rw [hlookup'] at hlookup
        cases hlookup
        refine ⟨f q, ?_, hfollows⟩
        rw [heq, lookup_modify_self, hlookup']
        rfl
      · refine ⟨q, ?_, Follows.refl q⟩
        rw [heq, lookup_modify_of_ne _ _ hid, hlookup]

theorem continues_step (e : Event) (s : Store) : Continues s (step e s) := by
  have hstep := store_step e s
  constructor
  · exact fun _ _ hlookup => hstep.executions.continues hlookup
  · exact fun _ _ hlookup => hstep.requests.continues hlookup

theorem Continues.trans {u : Store} (hsound : Sound s) (h : Continues s t)
    (h' : Continues t u) : Continues s u := by
  constructor
  · intro id x hlookup
    rcases h.executions id x hlookup with ⟨x', hlookup', hrow⟩
    rcases h'.executions id x' hlookup' with ⟨x'', hlookup'', hrow'⟩
    exact ⟨x'', hlookup'', Succeeds.trans (hsound.executions id x hlookup) hrow hrow'⟩
  · intro id q hlookup
    rcases h.requests id q hlookup with ⟨q', hlookup', hrow⟩
    rcases h'.requests id q' hlookup' with ⟨q'', hlookup'', hrow'⟩
    exact ⟨q'', hlookup'', hrow.trans hrow'⟩

theorem continues_of_reaches (hsound : Sound s) (hrun : Reaches step Anytime s t) :
    Continues s t := by
  induction hrun with
  | refl =>
      exact ⟨fun _ x hlookup => ⟨x, hlookup, Succeeds.refl x⟩,
        fun _ q hlookup => ⟨q, hlookup, Follows.refl q⟩⟩
  | tail _ hlead ih =>
      rcases hlead with ⟨e, _, rfl⟩
      exact Continues.trans hsound ih (continues_step e _)

/-!
# The ledger
-/

def Store.epochOf (s : Store) (executionId : String) : Nat :=
  (s.executions.lookup executionId).elim 0 Execution.epoch

/-- The request was sent for the logical request at some time of the run. -/
def WasSentFor (key : LogicalKey) (start s : Store) (id : String) : Prop :=
  exists before q, Reaches step Anytime start before ∧ Reaches step Anytime before s ∧
    before.requests.lookup id = some q ∧ isOut q = true ∧ key.carries q = true

/-- The event puts the request into status sent. -/
structure MovedToSent (e : Event) (s : Store) (id : String) (q : ModelRequest) : Prop where
  after : (step e s).requests.lookup id = some q
  sent : isOut q = true
  before : forall old, s.requests.lookup id = some old -> isOut old = false

theorem MovedToSent.cleared {e : Event} {id : String} (h : MovedToSent e s id q) :
    exists old, s.requests.lookup id = some old ∧ Follows old q ∧ Cleared s old := by
  have hafter := h.after
  cases (store_step e s).requests with
  | quiet f heq hquiet =>
      rw [heq, lookup_mapRows, Option.map_eq_some_iff] at hafter
      rcases hafter with ⟨old, hold, rfl⟩
      have hout := (hquiet id old hold).out h.sent
      rw [h.before old hold] at hout
      cases hout
  | begun id' q' hfree heq hprepared hunsent =>
      rw [heq, lookup_insertNew_eq_or, Option.or_eq_some_iff] at hafter
      rcases hafter with hold | ⟨_, hadded⟩
      · have hout := h.sent
        rw [h.before q hold] at hout
        cases hout
      · split at hadded
        · cases hadded
          have hout := h.sent
          simp [isOut, hprepared] at hout
        · cases hadded
  | sent id' q' f hlookup heq hfollows hsent hcleared =>
      rw [heq] at hafter
      rcases lookup_modify_cases hafter with ⟨rfl, old, hold, rfl⟩ | ⟨_, hold⟩
      · rw [hlookup] at hold
        cases hold
        exact ⟨q', hlookup, hfollows, hcleared⟩
      · have hout := h.sent
        rw [h.before q hold] at hout
        cases hout

structure Accounted (start s : Store) : Prop where
  acquired : forall executionId leaseSeconds lease s',
    s.acquire executionId leaseSeconds = .ok (some lease, s') ->
    lease.executionId = executionId ∧ lease.epoch = s.epochOf executionId + 1 ∧
      s'.epochOf executionId = lease.epoch
  epochs : forall t, Reaches step Anytime s t ->
    forall executionId, s.epochOf executionId ≤ t.epochOf executionId
  oneLease : forall lease lease' x x', s.assertFence lease = .ok x ->
    s.assertFence lease' = .ok x' -> lease.executionId = lease'.executionId -> lease = lease'
  succeeded : forall t, Reaches step Anytime s t -> forall id x,
    s.executions.lookup id = some x -> x.status = .succeeded ->
    exists x', t.executions.lookup id = some x' ∧ x'.status = .succeeded ∧
      x'.resultRef = x.resultRef
  cancelled : forall t, Reaches step Anytime s t -> forall id x,
    s.executions.lookup id = some x -> x.status = .cancelled ->
    exists x', t.executions.lookup id = some x' ∧ x'.status = .cancelled
  receipts : forall t, Reaches step Anytime s t -> forall id x,
    s.executions.lookup id = some x ->
    exists x', t.executions.lookup id = some x' ∧ x.receipts <+: x'.receipts
  oneReceipt : forall id x, s.executions.lookup id = some x ->
    (x.receipts.map Receipt.key).Nodup
  oneSend : forall (key : LogicalKey) id q id' q', s.requests.lookup id = some q ->
    s.requests.lookup id' = some q' -> q.status = .sent -> q'.status = .sent ->
    key.carries q = true -> key.carries q' = true -> id = id'
  fourSends : forall key ids, List.Nodup ids ->
    (forall id, id ∈ ids -> WasSentFor key start s id) -> ids.length ≤ 4
  success : forall t, Reaches step Anytime s t -> forall e id q id' q',
    s.requests.lookup id = some q -> q.status = .succeeded -> wasSent q = true ->
    MovedToSent e t id' q' ->
    ¬ (q'.executionId = q.executionId ∧ q'.task = q.task ∧ q'.metadata.logicalRequestDigest =
      q.metadata.logicalRequestDigest ∧ q'.metadata.requestDigest = q.metadata.requestDigest)
  final : forall t, Reaches step Anytime s t -> forall id q, s.requests.lookup id = some q ->
    q.status = .succeeded ∨ q.status = .failed ->
    exists q', t.requests.lookup id = some q' ∧ q'.status = q.status ∧ q'.error = q.error ∧
      (forall usage, q.usage = some usage -> q'.usage = some usage) ∧
      (forall ref, q.responseRef = some ref -> q'.responseRef = some ref)

theorem Granted.epochs {s' : Store} {executionId : String} {lease : Lease}
    (h : Granted s s' executionId lease) : lease.executionId = executionId ∧
      lease.epoch = s.epochOf executionId + 1 ∧ s'.epochOf executionId = lease.epoch := by
  rcases h.exists_row with ⟨x, leaseUntil, hrow, _, _, rfl, heq⟩
  refine ⟨rfl, ?_, ?_⟩
  · rw [Store.epochOf, hrow]
    rfl
  · rw [Store.epochOf, heq, lookup_modify_self, hrow]
    rfl

theorem Continues.epochOf (h : Continues s t) (executionId : String) :
    s.epochOf executionId ≤ t.epochOf executionId := by
  cases hlookup : s.executions.lookup executionId with
  | none =>
      rw [Store.epochOf, hlookup]
      exact Nat.zero_le _
  | some x =>
      rcases h.executions executionId x hlookup with ⟨x', hlookup', hrow⟩
      rw [Store.epochOf, Store.epochOf, hlookup, hlookup']
      exact hrow.epoch

theorem Holds.unique {lease lease' : Lease} {x x' : Execution} (h : Holds s lease x)
    (h' : Holds s lease' x') (hsame : lease.executionId = lease'.executionId) :
    lease = lease' := by
  have hstored := h'.stored
  rw [← hsame, h.stored] at hstored
  cases hstored
  have hepoch : lease.epoch = lease'.epoch := h.epoch.symm.trans h'.epoch
  cases lease
  cases lease'
  simp_all

theorem Sound.four_sends {start : Store} (hstart : start.Fresh)
    (hrun : Reaches step Anytime start s) {key : LogicalKey} {ids : List String}
    (hnodup : ids.Nodup) (hsent : forall id, id ∈ ids -> WasSentFor key start s id) :
    ids.length ≤ 4 := by
  refine Nat.le_trans (length_le_count hnodup ?_)
    ((sound_of_reaches hstart hrun).requests.bound key)
  intro id hid
  rcases hsent id hid with ⟨before, q, hbefore, hafter, hlookup, hout, hkey⟩
  have hsound := sound_of_reaches hstart hbefore
  rcases (continues_of_reaches hsound hafter).requests id q hlookup with ⟨q', hlookup', hrow⟩
  refine ⟨q', hlookup', ?_⟩
  rw [hrow.carries, hkey, hrow.sent (hsound.requests.paid id q hlookup hout)]
  rfl

/-- Whoever calls, whenever: epochs rise and one lease is good, what has ended
stays, receipts are added once, and the sends of a logical request are
limited. -/
theorem authoring_is_accounted {start : Store} (hstart : start.Fresh)
    (hrun : Reaches step Anytime start s) : Accounted start s := by
  have hsound := sound_of_reaches hstart hrun
  constructor
  · intro executionId leaseSeconds lease s' hacquire
    rcases acquire_cases hacquire with ⟨hnone, _⟩ | ⟨granted, hlease, hgranted, _⟩
    · cases hnone
    · cases hlease
      exact hgranted.epochs
  · intro t hlater executionId
    exact (continues_of_reaches hsound hlater).epochOf executionId
  · intro lease lease' x x' hfence hfence' hsame
    exact (holds_of_assertFence hfence).unique (holds_of_assertFence hfence') hsame
  · intro t hlater id x hlookup hstatus
    rcases (continues_of_reaches hsound hlater).executions id x hlookup with ⟨x', hlookup', hrow⟩
    exact ⟨x', hlookup', hrow.succeeded hstatus⟩
  · intro t hlater id x hlookup hstatus
    rcases (continues_of_reaches hsound hlater).executions id x hlookup with ⟨x', hlookup', hrow⟩
    have hrequested := (hsound.executions id x hlookup).cancelled hstatus
    exact ⟨x', hlookup', hrow.cancelled hrequested hstatus⟩
  · intro t hlater id x hlookup
    rcases (continues_of_reaches hsound hlater).executions id x hlookup with ⟨x', hlookup', hrow⟩
    exact ⟨x', hlookup', hrow.receipts⟩
  · intro id x hlookup
    exact (hsound.executions id x hlookup).receipts
  · intro key id q id' q' hlookup hlookup' hsent hsent' hkey hkey'
    exact hsound.requests.single key id q id' q' hlookup hlookup' (by simp [isOut, hsent])
      (by simp [isOut, hsent']) hkey hkey'
  · intro key ids hnodup hsent
    exact Sound.four_sends hstart hrun hnodup hsent
  · rintro t hlater e id q id' q' hlookup hstatus hsent hmoved ⟨hexecution, htask, hlogical,
      hdigest⟩
    rcases (continues_of_reaches hsound hlater).requests id q hlookup with ⟨qt, hlookup', hrow⟩
    rcases hmoved.cleared with ⟨old, _, hmove, hcleared⟩
    have hfinal : Store.isFinal q = true := by simp [Store.isFinal, hstatus]
    have hmiss := hcleared.unanswered id qt hlookup' (hrow.sent hsent)
      (by rw [hrow.execution, ← hexecution, hmove.execution])
      (by rw [hrow.task, ← htask, hmove.task])
      (by rw [hrow.metadata, ← hlogical, hmove.metadata])
    have hsame : qt.metadata.requestDigest = old.metadata.requestDigest := by
      rw [hrow.metadata, ← hdigest, hmove.metadata]
    simp [Store.isSuccess, (hrow.final hfinal).1, hstatus, hsame] at hmiss
  · intro t hlater id q hlookup hstatus
    rcases (continues_of_reaches hsound hlater).requests id q hlookup with ⟨q', hlookup', hrow⟩
    have hfinal : Store.isFinal q = true := by simpa [Store.isFinal] using hstatus
    exact ⟨q', hlookup', (hrow.final hfinal).1, (hrow.final hfinal).2, hrow.usage, hrow.response⟩

/-!
# A success and what may still be sent
-/

def emptyStore : Store :=
  ⟨Table.empty, Table.empty, ⟨0, Table.empty, Table.empty, Table.empty, Table.empty, Table.empty,
    Table.empty, Table.empty⟩⟩

theorem emptyStore_fresh : emptyStore.Fresh :=
  ⟨rfl, rfl⟩

theorem reaches_events (s : Store) (events : List Event) :
    Reaches step Anytime s (perform step s events) := by
  apply reaches_perform (Reaches.refl s)
  induction events generalizing s with
  | nil => exact trivial
  | cons e rest ih => exact ⟨trivial, ih (step e s)⟩

def outlineDigest : String :=
  String.ofList (List.replicate 64 'a')

def outlineMetadata : RequestMetadata :=
  ⟨outlineDigest, outlineDigest, "\x7b\x7d"⟩

/-- The same request as a correction of another one. -/
def correctionMetadata : RequestMetadata :=
  ⟨outlineDigest, String.ofList (List.replicate 64 'b'), "\x7b\x7d"⟩

def outlineLease : Lease :=
  ⟨"execution", 1⟩

def outlineStarted : List Event :=
  [.submit "execution" ⟨"run", "\x7b\x7d"⟩ ⟨"\x7b\x7d", false⟩, .acquire "execution" 30,
    .beginRequest outlineLease "first" "model" .outline outlineMetadata]

/-- The first worker is lost after its send and reports its answer late. -/
def answeredLate : List Event :=
  outlineStarted ++ [.finishRequest "first" .sent none none none, .analysis (.tick 31),
    .acquire "execution" 30,
    .beginRequest ⟨"execution", 2⟩ "second" "model" .outline outlineMetadata,
    .finishRequest "first" .succeeded (some "\x7b\x7d") none none,
    .finishRequest "second" .sent none none none]

theorem late_answer_is_accounted :
    ((perform step emptyStore answeredLate).requests.lookup "first").map ModelRequest.status =
      some .succeeded ∧
    ((perform step emptyStore answeredLate).requests.lookup "second").map ModelRequest.status =
      some .prepared ∧
    Accounted emptyStore (perform step emptyStore answeredLate) := by
  refine ⟨by decide +kernel, by decide +kernel, ?_⟩
  exact authoring_is_accounted emptyStore_fresh (reaches_events emptyStore answeredLate)

/-- After a success no related request is sent. -/
def SuccessBars (related : ModelRequest -> ModelRequest -> Prop) : Prop :=
  forall start s t, Store.Fresh start -> Reaches step Anytime start s ->
    Reaches step Anytime s t -> forall e id q id' q', s.requests.lookup id = some q ->
    q.status = .succeeded -> MovedToSent e t id' q' -> ¬ related q q'

/-- The first request is sent and answered. -/
def answeredFirst : List Event :=
  outlineStarted ++ [.finishRequest "first" .sent none none none,
    .finishRequest "first" .succeeded none none none,
    .beginRequest outlineLease "second" "model" .outline correctionMetadata]

/-- The first request is reported as answered without having been sent. -/
def answeredUnsent : List Event :=
  outlineStarted ++ [.beginRequest outlineLease "second" "model" .outline outlineMetadata,
    .finishRequest "first" .succeeded none none none]

theorem not_successBars {related : ModelRequest -> ModelRequest -> Prop} (events : List Event)
    (q q' : ModelRequest)
    (hfirst : (perform step emptyStore events).requests.lookup "first" = some q)
    (hsuccess : q.status = .succeeded)
    (hbefore : (((perform step emptyStore events).requests.lookup "second").any isOut) = false)
    (hafter : (step (.finishRequest "second" .sent none none none)
      (perform step emptyStore events)).requests.lookup "second" = some q')
    (hsent : isOut q' = true) (hrelated : related q q') : ¬ SuccessBars related := by
  intro hbars
  refine hbars emptyStore _ _ emptyStore_fresh (reaches_events emptyStore events)
    (Reaches.refl _) (.finishRequest "second" .sent none none none) "first" q "second" q' hfirst
    hsuccess ⟨hafter, hsent, ?_⟩ hrelated
  intro old hold
  rw [hold] at hbefore
  exact hbefore

def sentRequest (metadata : RequestMetadata) (status : Tender.RequestStatus)
    (sentAt finishedAt : Option Tender.Time) : ModelRequest :=
  ⟨"execution", 1, "model", .outline, status, metadata, none, none, none, 0, sentAt, finishedAt⟩

/-- Under another logical digest the same request may be sent again, and a
success of a request that was never sent bars nothing. -/
theorem success_leaves_digest_open :
    ¬ SuccessBars (fun q q' => q'.metadata.requestDigest = q.metadata.requestDigest) ∧
    ¬ SuccessBars (fun q q' => q'.executionId = q.executionId ∧ q'.task = q.task ∧
      q'.metadata = q.metadata) := by
  constructor
  · refine not_successBars answeredFirst
      (sentRequest outlineMetadata .succeeded (some 0) (some 0))
      (sentRequest correctionMetadata .sent (some 0) none) ?_ rfl ?_ ?_ rfl rfl
    · decide +kernel
    · decide +kernel
    · decide +kernel
  · refine not_successBars answeredUnsent
      (sentRequest outlineMetadata .succeeded none (some 0))
      (sentRequest outlineMetadata .sent (some 0) none) ?_ rfl ?_ ?_ rfl ⟨rfl, rfl, rfl⟩
    · decide +kernel
    · decide +kernel
    · decide +kernel

end Authoring
end KnowledgeBrain
