import KnowledgeBrain.Tender.Ledger

/-!
# What the ledger allows to be spent

A send costs money, so each is checked against the sends before it.  The
checks are made when a request is prepared and again when it is sent, because
anything may have happened to the ledger in between.
-/

namespace KnowledgeBrain
namespace Tender

open Foundation Store Table

variable {s s' : Store}

/-!
# What a send was checked against
-/

/-- One logical request, whatever feedback it was sent with. -/
structure LogicalKey where
  revision : RevisionKey
  task : Task
  digest : String

/-- The request is an attempt at the logical request outside of any group. -/
def LogicalKey.carries (key : LogicalKey) (q : ModelRequest) : Bool :=
  q.revision == key.revision && q.task == key.task &&
    q.metadata.logicalRequestDigest == some key.digest &&
    (groupAttemptOf q.metadata).isNone

variable {q : ModelRequest} {key : LogicalKey}

theorem LogicalKey.carries_iff :
    key.carries q = true <-> q.revision = key.revision ∧ q.task = key.task ∧
      q.metadata.logicalRequestDigest = some key.digest ∧
      groupAttemptOf q.metadata = none := by
  simp only [LogicalKey.carries, Bool.and_eq_true, beq_iff_eq, Option.isNone_iff_eq_none,
    and_assoc]

/-- The request was sent for the command, now or earlier. -/
def LogicalKey.spentBy (key : LogicalKey) (commandId : String) (q : ModelRequest) : Bool :=
  key.carries q && q.metadata.commandId == commandId && q.sentAt.isSome

/-- What no two requests that are out have in common. -/
inductive SendClass where
  | logical (key : LogicalKey)
  | target (revision : RevisionKey) (workUnitKey : String)

def SendClass.carries : SendClass -> ModelRequest -> Bool
  | .logical key, q => key.carries q
  | .target revision workUnitKey, q =>
      ofRevision revision q && (q.metadata.groupWorkUnitKeys.getD []).contains workUnitKey

/-- The requests that are counted for a command. -/
def countsFor (d : LogicalKey × String) (q : ModelRequest) : Bool :=
  d.1.carries q && q.metadata.commandId == d.2

def isOut (q : ModelRequest) : Bool :=
  q.status == .sent

def wasSent (q : ModelRequest) : Bool :=
  q.sentAt.isSome

/-- At most one send is out of each class, and four are made for a command. -/
def Paced (s : Store) : Prop :=
  SendsBounded SendClass.carries countsFor isOut wasSent 4 s.requests

theorem Follows.logical {q q' : ModelRequest} (h : Follows q q') (key : LogicalKey) :
    key.carries q' = key.carries q := by
  simp only [LogicalKey.carries, h.revision, h.task, h.metadata]

theorem Follows.carries {q q' : ModelRequest} (h : Follows q q') (c : SendClass) :
    c.carries q' = c.carries q := by
  cases c with
  | logical key => exact h.logical key
  | target revision workUnitKey =>
      have hrevision : ofRevision revision q' = ofRevision revision q := by
        rw [Bool.eq_iff_iff, Store.ofRevision_iff, Store.ofRevision_iff, h.revision]
      rw [SendClass.carries, SendClass.carries, hrevision, h.metadata]

theorem Follows.counts {q q' : ModelRequest} (h : Follows q q') (d : LogicalKey × String) :
    countsFor d q' = countsFor d q := by
  rw [countsFor, countsFor, h.logical, h.metadata]

/-- The parts of the check that concern other requests. -/
structure Cleared (s : Store) (q : ModelRequest) : Prop where
  keys : s.activeSend q.revision (q.metadata.groupWorkUnitKeys.getD []) = none
  prior : forall row, row ∈ s.matchingModelRequests q.revision q.task q.metadata.requestDigest ->
    retryable q.metadata.logicalRequestDigest row = true
  logical : s.checkLogicalAttempts q = .ok ()

theorem Store.cleared_of_checkSend {requestId : String} (h : s.checkSend requestId q = .ok ()) :
    Cleared s q := by
  obtain ⟨_, _, h⟩ := bind_eq_ok h
  obtain ⟨_, _, h⟩ := bind_eq_ok h
  obtain ⟨_, _, h⟩ := bind_eq_ok h
  obtain ⟨_, _, h⟩ := bind_eq_ok h
  split at h
  · cases h
  rename_i hkeys
  simp only at h
  split at h
  · cases h
  rename_i hprior
  refine ⟨hkeys, ?_, h⟩
  rw [List.head?_eq_none_iff, List.filter_eq_nil_iff] at hprior
  intro row hrow
  simpa using hprior row hrow

variable {id : String}

theorem Cleared.no_active (h : Cleared s q) {other : ModelRequest} {revision : RevisionKey}
    {workUnitKey : String} (hlookup : s.requests.lookup id = some other)
    (hkey : (SendClass.target revision workUnitKey).carries q = true)
    (hkey' : (SendClass.target revision workUnitKey).carries other = true) :
    other.status ≠ .sent := by
  intro hsent
  simp only [SendClass.carries, Bool.and_eq_true, Store.ofRevision_iff,
    List.contains_iff_mem] at hkey hkey'
  have hof : ofRevision q.revision other = true :=
    Store.ofRevision_iff.mpr (hkey'.1.trans hkey.1.symm)
  have hnone := List.find?_eq_none.mp h.keys (id, other)
    (Table.lookup_eq_some_iff_mem.mp hlookup)
  cases hkeys : other.metadata.groupWorkUnitKeys with
  | none =>
      rw [hkeys] at hkey'
      cases hkey'.2
  | some keys =>
      rw [hkeys] at hkey'
      rw [hof, hsent, hkeys] at hnone
      apply hnone
      simp only [Option.any_some, overlaps, Bool.and_eq_true, List.any_eq_true]
      exact ⟨⟨trivial, rfl⟩, workUnitKey, hkey.2, List.contains_iff_mem.mpr hkey'.2⟩

theorem Cleared.no_success (h : Cleared s q) {other : ModelRequest}
    (hlookup : s.requests.lookup id = some other) (hrevision : other.revision = q.revision)
    (htask : other.task = q.task)
    (hdigest : other.metadata.requestDigest = q.metadata.requestDigest) :
    other.status ≠ .succeeded := by
  intro hsucceeded
  have hrow : (id, other) ∈
      s.matchingModelRequests q.revision q.task q.metadata.requestDigest := by
    rw [matchingModelRequests, mem_sortBy, List.mem_filter]
    refine ⟨Table.lookup_eq_some_iff_mem.mp hlookup, ?_⟩
    rw [Store.ofRevision_iff.mpr hrevision, htask, hdigest, hsucceeded]
    simp
  have hretryable := h.prior _ hrow
  simp [retryable, hsucceeded] at hretryable

theorem Cleared.logical_limits (h : Cleared s q) (hkey : key.carries q = true) :
    (forall row, row ∈ s.logicalAttempts q key.digest -> row.2.status ≠ .sent) ∧
      ((s.logicalAttempts q key.digest).countP fun row =>
        row.2.metadata.commandId == q.metadata.commandId) < 4 := by
  obtain ⟨_, _, hdigest, hgroup⟩ := LogicalKey.carries_iff.mp hkey
  have hlogical := h.logical
  unfold checkLogicalAttempts at hlogical
  rw [hdigest, hgroup] at hlogical
  simp only at hlogical
  split at hlogical
  · cases hlogical
  rename_i hnone
  refine ⟨?_, Nat.lt_of_not_le (reject_eq_ok.mp hlogical)⟩
  intro row hrow hsent
  exact List.find?_eq_none.mp hnone row hrow (by simp [hsent])

theorem mem_logicalAttempts {q other : ModelRequest} (hkey : key.carries q = true)
    (hother : key.carries other = true) (hmem : (id, other) ∈ s.requests.rows)
    (hspent : other.sentAt.isSome = true ∨ other.status = .sent) :
    (id, other) ∈ s.logicalAttempts q key.digest := by
  obtain ⟨hrevision, htask, _⟩ := LogicalKey.carries_iff.mp hkey
  obtain ⟨hrevision', htask', hdigest', _⟩ := LogicalKey.carries_iff.mp hother
  rw [logicalAttempts, mem_sortBy, List.mem_filter]
  refine ⟨hmem, ?_⟩
  have hof : ofRevision ⟨q.runId, q.sourceVersion, q.domainRevision⟩ other = true :=
    Store.ofRevision_iff.mpr (hrevision'.trans hrevision.symm)
  rw [hof, htask', htask, hdigest']
  rcases hspent with hspent | hspent
  · simp [hspent]
  · simp [hspent]

theorem Cleared.spent_lt (h : Cleared s q) {d : LogicalKey × String}
    (hcounts : countsFor d q = true) :
    (s.requests.count fun _ other => countsFor d other && wasSent other) < 4 := by
  rw [countsFor, Bool.and_eq_true, beq_iff_eq] at hcounts
  refine Nat.lt_of_le_of_lt ?_ (h.logical_limits hcounts.1).2
  rw [logicalAttempts, (perm_sortBy _ _).countP_eq, List.countP_filter, Table.count]
  apply List.countP_mono_left
  intro row hmem hspent
  rw [countsFor, Bool.and_eq_true, Bool.and_eq_true, ← hcounts.2] at hspent
  have hrow : (row.1, row.2) ∈ s.logicalAttempts q d.1.digest :=
    mem_logicalAttempts hcounts.1 hspent.1.1 hmem (Or.inl hspent.2)
  rw [logicalAttempts, mem_sortBy, List.mem_filter] at hrow
  rw [Bool.and_eq_true]
  exact ⟨hspent.1.2, hrow.2⟩

theorem Cleared.mayBeSent (h : Cleared s q) :
    MayBeSent SendClass.carries countsFor isOut wasSent 4 s.requests q := by
  refine ⟨?_, fun _ => h.spent_lt⟩
  intro c id' other hkey hlookup hkey'
  rw [isOut, beq_eq_false_iff_ne]
  cases c with
  | logical key =>
      intro hsent
      exact (h.logical_limits hkey).1 _
        (mem_logicalAttempts hkey hkey' (Table.lookup_eq_some_iff_mem.mp hlookup) (Or.inr hsent))
        hsent
  | target revision workUnitKey => exact h.no_active hlookup hkey hkey'

/-!
# The invariant
-/

theorem RequestStep.sendStep {requests : Table String ModelRequest}
    (h : RequestStep s requests) :
    SendStep SendClass.carries countsFor isOut wasSent 4 s.requests requests := by
  cases h with
  | quiet f heq hquiet =>
      rw [heq]
      refine .keep f fun id q hlookup => ?_
      have hrow := hquiet id q hlookup
      exact ⟨hrow.carries, hrow.counts, by simpa [isOut] using hrow.unsent,
        congrArg Option.isSome hrow.sentAt⟩
  | begun id q hfree heq hprepared hunsent =>
      rw [heq]
      refine .insert id q hfree ?_ ?_
      · simp [isOut, hprepared]
      · simp [wasSent, hunsent]
  | sent id q f hlookup heq hsends =>
      rw [heq]
      exact .send id q f hlookup hsends.carries hsends.counts hsends.sentAt
        (Store.cleared_of_checkSend hsends.check).mayBeSent

/-- No two requests of a revision are rows of one group attempt. -/
def OneRow (s : Store) : Prop :=
  forall attemptId id q id' q', s.requests.lookup id = some q ->
    s.requests.lookup id' = some q' -> q.revision = q'.revision ->
    groupAttemptOf q.metadata = some attemptId ->
    groupAttemptOf q'.metadata = some attemptId -> id = id'

/-- Rows stand in for the rows they follow. -/
theorem OneRow.follows (h : OneRow s)
    (hbefore : forall id q', s'.requests.lookup id = some q' ->
      exists q, s.requests.lookup id = some q ∧ Follows q q') : OneRow s' := by
  intro attemptId id q1 id' q1' hlookup hlookup' hrevision hattempt hattempt'
  obtain ⟨q, hq, hstep⟩ := hbefore id q1 hlookup
  obtain ⟨q', hq', hstep'⟩ := hbefore id' q1' hlookup'
  rw [hstep.revision, hstep'.revision] at hrevision
  rw [hstep.metadata] at hattempt
  rw [hstep'.metadata] at hattempt'
  exact h attemptId id q id' q' hq hq' hrevision hattempt hattempt'

/-- A new request only has to be the first of its attempt. -/
theorem OneRow.begun (h : OneRow s) (heq : s'.requests = s.requests.insertNew id q)
    (halone : forall attemptId, groupAttemptOf q.metadata = some attemptId ->
      ¬ s.HasRow q.revision attemptId) : OneRow s' := by
  have hrow : forall id' q', s'.requests.lookup id' = some q' ->
      s.requests.lookup id' = some q' ∨ id' = id ∧ q' = q := by
    intro id' q' hlookup
    rw [heq, lookup_insertNew_eq_or, Option.or_eq_some_iff] at hlookup
    rcases hlookup with hold | ⟨_, hnew⟩
    · exact Or.inl hold
    · split at hnew
      · rename_i hid
        exact Or.inr ⟨hid, (Option.some.inj hnew).symm⟩
      · cases hnew
  intro attemptId id1 q1 id2 q2 hlookup hlookup' hrevision hattempt hattempt'
  rcases hrow id1 q1 hlookup with hold1 | ⟨rfl, rfl⟩
  · rcases hrow id2 q2 hlookup' with hold2 | ⟨rfl, rfl⟩
    · exact h attemptId id1 q1 id2 q2 hold1 hold2 hrevision hattempt hattempt'
    · exact absurd ⟨id1, q1, hold1, hrevision, hattempt⟩ (halone attemptId hattempt')
  · rcases hrow id2 q2 hlookup' with hold2 | ⟨rfl, rfl⟩
    · exact absurd ⟨id2, q2, hold2, hrevision.symm, hattempt'⟩ (halone attemptId hattempt)
    · rfl

structure Frugal (s : Store) : Prop where
  paced : Paced s
  attempts : OneRow s

theorem frugal_of_fresh (h : s.Fresh) : Frugal s := by
  constructor
  · rw [Paced, h.requests]
    exact SendsBounded.empty
  · intro attemptId id q id' q' hlookup
    rw [h.requests] at hlookup
    cases hlookup

theorem frugal_step (e : Event) (h : Frugal s) : Frugal (step e s) := by
  refine ⟨h.paced.step (request_step e s).sendStep, ?_⟩
  cases request_step e s with
  | quiet f heq hquiet =>
      apply h.attempts.follows
      intro id q' hlookup
      rw [heq, lookup_mapRows, Option.map_eq_some_iff] at hlookup
      obtain ⟨q, hq, rfl⟩ := hlookup
      exact ⟨q, hq, (hquiet id q hq).toFollows⟩
  | begun id q hfree heq hprepared hsentAt halone => exact h.attempts.begun heq halone
  | sent id q f hlookup heq hsends =>
      apply h.attempts.follows
      intro id1 q1 hlookup1
      rw [heq] at hlookup1
      rcases lookup_modify_cases hlookup1 with ⟨rfl, old, hold, rfl⟩ | ⟨_, hold⟩
      · rw [hlookup] at hold
        cases hold
        exact ⟨_, hlookup, hsends.toFollows⟩
      · exact ⟨q1, hold, Follows.refl q1⟩

theorem frugal_of_reaches {start : Store} (hstart : start.Fresh)
    (hrun : Reaches step Anytime start s) : Frugal s :=
  Reaches.invariant (fun e _ h _ => frugal_step e h) (frugal_of_fresh hstart) hrun

/-!
# Along a run
-/

/-- Every request of the first store is still there in the second. -/
def Evolves (s t : Store) : Prop :=
  forall id q, s.requests.lookup id = some q ->
    exists q', t.requests.lookup id = some q' ∧ Follows q q'

theorem evolves_step (e : Event) (s : Store) : Evolves s (step e s) := by
  intro id q hlookup
  cases request_step e s with
  | quiet f heq hquiet =>
      refine ⟨f id q, ?_, (hquiet id q hlookup).toFollows⟩
      rw [heq, lookup_mapRows, hlookup]
      rfl
  | begun id' q' hfree heq hprepared hsentAt halone =>
      refine ⟨q, ?_, Follows.refl q⟩
      rw [heq, lookup_insertNew_eq_or, hlookup]
      rfl
  | sent id' q' f hlookup' heq hsends =>
      by_cases hid : id = id'
      · subst hid
        rw [hlookup'] at hlookup
        cases hlookup
        refine ⟨f q, ?_, hsends.toFollows⟩
        rw [heq, lookup_modify_self, hlookup']
        rfl
      · refine ⟨q, ?_, Follows.refl q⟩
        rw [heq, lookup_modify_of_ne _ _ hid, hlookup]

theorem evolves_of_reaches {t : Store} (hrun : Reaches step Anytime s t) : Evolves s t := by
  refine Reaches.preorder (P := fun _ => True) (R := Evolves) ?_ ?_ (fun _ _ _ _ => trivial)
    (fun e s _ _ => evolves_step e s) trivial hrun
  · intro s id q hlookup
    exact ⟨q, hlookup, Follows.refl q⟩
  · intro s t u h h' id q hlookup
    obtain ⟨q', hlookup', hfollows⟩ := h id q hlookup
    obtain ⟨q'', hlookup'', hfollows'⟩ := h' id q' hlookup'
    exact ⟨q'', hlookup'', hfollows.trans hfollows'⟩

/-- The event puts the request into status sent. -/
structure MovedToSent (e : Event) (s : Store) (id : String) (q : ModelRequest) : Prop where
  after : (step e s).requests.lookup id = some q
  sent : q.status = .sent
  before : forall old, s.requests.lookup id = some old -> old.status ≠ .sent

/-- Only a request that was checked is moved to sent. -/
theorem MovedToSent.cleared {e : Event} (h : MovedToSent e s id q) :
    exists old, s.requests.lookup id = some old ∧ Follows old q ∧
      Cleared s old := by
  have hafter := h.after
  cases request_step e s with
  | quiet f heq hquiet =>
      rw [heq, lookup_mapRows, Option.map_eq_some_iff] at hafter
      obtain ⟨old, hold, rfl⟩ := hafter
      exact absurd ((hquiet id old hold).unsent h.sent) (h.before old hold)
  | begun id' new hfree heq hprepared hsentAt halone =>
      rw [heq, lookup_insertNew_eq_or, Option.or_eq_some_iff] at hafter
      rcases hafter with hold | ⟨_, hnew⟩
      · exact absurd h.sent (h.before q hold)
      · split at hnew
        · cases hnew
          have hsent := h.sent
          rw [hprepared] at hsent
          cases hsent
        · cases hnew
  | sent id' old f hlookup heq hsends =>
      rw [heq] at hafter
      rcases lookup_modify_cases hafter with ⟨rfl, old', hold', rfl⟩ | ⟨_, hold⟩
      · rw [hlookup] at hold'
        cases hold'
        exact ⟨old, hlookup, hsends.toFollows, Store.cleared_of_checkSend hsends.check⟩
      · exact absurd h.sent (h.before q hold)

/-- The request was out for the command in some state on the way from one to the other. -/
def WasSentFor (key : LogicalKey) (commandId : String) (start s : Store) (id : String) : Prop :=
  exists before q, Reaches step Anytime start before ∧ Reaches step Anytime before s ∧
    before.requests.lookup id = some q ∧ q.status = .sent ∧ key.carries q = true ∧
    q.metadata.commandId = commandId

/-- What the ledger says in one state, and what can become of it. -/
structure Accounted (start s : Store) : Prop where
  oneSend : forall key id q id' q', s.requests.lookup id = some q ->
    s.requests.lookup id' = some q' -> q.status = .sent -> q'.status = .sent ->
    LogicalKey.carries key q = true -> key.carries q' = true -> id = id'
  fourSends : forall key commandId ids, List.Nodup ids ->
    (forall id, id ∈ ids -> WasSentFor key commandId start s id) -> ids.length ≤ 4
  oneTarget : forall id q id' q' workUnitKey keys keys', s.requests.lookup id = some q ->
    s.requests.lookup id' = some q' -> q.status = .sent -> q'.status = .sent ->
    q.revision = q'.revision -> (groupAttemptOf q.metadata).isSome = true ->
    (groupAttemptOf q'.metadata).isSome = true ->
    q.metadata.groupWorkUnitKeys = some keys -> q'.metadata.groupWorkUnitKeys = some keys' ->
    workUnitKey ∈ keys -> workUnitKey ∈ keys' -> id = id'
  oneRow : forall attemptId id q id' q', s.requests.lookup id = some q ->
    s.requests.lookup id' = some q' -> q.revision = q'.revision ->
    groupAttemptOf q.metadata = some attemptId ->
    groupAttemptOf q'.metadata = some attemptId -> id = id'
  success : forall t, Reaches step Anytime s t -> forall e id q id' q',
    s.requests.lookup id = some q -> q.status = .succeeded -> MovedToSent e t id' q' ->
    ¬ (q'.revision = q.revision ∧ q'.task = q.task ∧
      q'.metadata.requestDigest = q.metadata.requestDigest)
  final : forall t, Reaches step Anytime s t -> forall id q, s.requests.lookup id = some q ->
    exists q', t.requests.lookup id = some q' ∧
      (q.status = .succeeded ∨ q.status = .failed -> q'.status = q.status) ∧
      (forall ref, q.responseRef = some ref -> q'.responseRef = some ref)
  leaves : forall t u, Reaches step Anytime s t -> Reaches step Anytime t u ->
    forall id q q' q'', s.requests.lookup id = some q -> t.requests.lookup id = some q' ->
    u.requests.lookup id = some q'' -> q.status = .sent -> q'.status ≠ .sent ->
    q''.status ≠ .sent

theorem Frugal.four_sends (h : Frugal s) (key : LogicalKey) (commandId : String)
    {ids : List String} (hnodup : ids.Nodup)
    (hsent : forall id, id ∈ ids -> exists q, s.requests.lookup id = some q ∧
      key.spentBy commandId q = true) : ids.length ≤ 4 :=
  Nat.le_trans (length_le_count hnodup hsent) (h.paced.bound (key, commandId))

/-- Every method at any time: at most one send of a logical request is out and
at most four are made for a command, group requests that are out share no
target, and a request that has succeeded is never sent again. -/
theorem requests_are_accounted {start s : Store} (hstart : start.Fresh)
    (hrun : Reaches step Anytime start s) : Accounted start s := by
  have hfrugal := frugal_of_reaches hstart hrun
  refine ⟨?_, ?_, ?_, hfrugal.attempts, ?_, ?_, ?_⟩
  · intro key id q id' q' hlookup hlookup' hsent hsent'
    exact hfrugal.paced.single (.logical key) id q id' q' hlookup hlookup' (beq_iff_eq.mpr hsent)
      (beq_iff_eq.mpr hsent')
  · intro key commandId ids hnodup hids
    apply hfrugal.four_sends key commandId hnodup
    intro id hid
    obtain ⟨before, q, hbefore, hafter, hlookup, hsent, hkey, hcommand⟩ := hids id hid
    have hpaid := (frugal_of_reaches hstart hbefore).paced.paid id q hlookup (beq_iff_eq.mpr hsent)
    obtain ⟨q', hlookup', hfollows⟩ := evolves_of_reaches hafter id q hlookup
    refine ⟨q', hlookup', ?_⟩
    rw [LogicalKey.spentBy, hfollows.logical, hkey, hfollows.metadata, hcommand,
      hfollows.paid hpaid]
    simp
  · intro id q id' q' workUnitKey keys keys' hlookup hlookup' hsent hsent' hrevision _ _ hkeys
      hkeys' hmem hmem'
    refine hfrugal.paced.single (.target q.revision workUnitKey) id q id' q' hlookup hlookup'
      (beq_iff_eq.mpr hsent) (beq_iff_eq.mpr hsent') ?_ ?_
    · rw [SendClass.carries, Store.ofRevision_iff.mpr rfl, hkeys]
      exact List.contains_iff_mem.mpr hmem
    · rw [SendClass.carries, Store.ofRevision_iff.mpr hrevision.symm, hkeys']
      exact List.contains_iff_mem.mpr hmem'
  · rintro t hlater e id q id' q' hlookup hsucceeded hmoved ⟨hrevision, htask, hdigest⟩
    obtain ⟨qt, hlookup', hfollows⟩ := evolves_of_reaches hlater id q hlookup
    obtain ⟨old, _, hmove, hcleared⟩ := hmoved.cleared
    apply hcleared.no_success hlookup'
    · rw [hfollows.revision, ← hrevision, hmove.revision]
    · rw [hfollows.task, ← htask, hmove.task]
    · rw [hfollows.metadata, ← hdigest, hmove.metadata]
    · rw [hfollows.settled (Or.inl hsucceeded), hsucceeded]
  · intro t hlater id q hlookup
    obtain ⟨q', hlookup', hfollows⟩ := evolves_of_reaches hlater id q hlookup
    exact ⟨q', hlookup', hfollows.settled, hfollows.response⟩
  · intro t u hlater hlast id q q' q'' hlookup hlookup' hlookup'' hsent hleft hsent''
    obtain ⟨r', hr', hfollows⟩ := evolves_of_reaches hlater id q hlookup
    obtain ⟨r'', hr'', hfollows'⟩ := evolves_of_reaches hlast id q' hlookup'
    rw [hlookup'] at hr'
    cases hr'
    rw [hlookup''] at hr''
    cases hr''
    rcases hfollows'.sent hsent'' with hprepared | hstill
    · have hback := hfollows.prepared hprepared
      rw [hsent] at hback
      cases hback
    · exact hleft hstill

/-!
# A send that is lost and made again
-/

def pagesDigest : String :=
  String.ofList (List.replicate 64 'a')

def pagesMetadata : RequestMetadata where
  requestDigest := pagesDigest
  logicalRequestDigest := some pagesDigest
  groupAttemptId := none
  groupWorkUnitKeys := none
  commandId := ""

def pagesKey : LogicalKey :=
  ⟨⟨"run", 1, 1⟩, .extract, pagesDigest⟩

/-- The first worker is lost after it has sent its request. -/
def sentAgain : List Event :=
  [.submit "run" "start" "manifest" "key", .acquire "run" "start" 1 30,
    .beginRequest ⟨"run", 1, 1, "start", 1⟩ "first" "model" .extract pagesMetadata,
    .finishRequest "first" .sent none none, .tick 31, .acquire "run" "start" 1 30,
    .beginRequest ⟨"run", 1, 2, "start", 1⟩ "second" "model" .extract pagesMetadata,
    .finishRequest "second" .sent none none]

theorem sent_again_is_accounted :
    (((perform step emptyStore sentAgain).requests.lookup "first").map ModelRequest.status,
      ((perform step emptyStore sentAgain).requests.lookup "second").map ModelRequest.status) =
        (some .uncertain, some .sent) ∧
    ((perform step emptyStore sentAgain).requests.count fun _ q =>
      pagesKey.spentBy "start" q) = 2 ∧
    Accounted emptyStore (perform step emptyStore sentAgain) := by
  refine ⟨by decide +kernel, by decide +kernel, ?_⟩
  exact requests_are_accounted emptyStore_fresh (reaches_events emptyStore sentAgain)

end Tender
end KnowledgeBrain
