import KnowledgeBrain.Tender.Workers

/-!
# Recovery of a group call

Whatever workers are lost, overtaken and started again, the journal of a group
accepts each target once, from one recorded response, and accounts for every
target of every attempt.
-/

namespace KnowledgeBrain
namespace Tender

open Foundation

variable {host : Host} {call : GroupCall} {basisDigest : String} {s s' : Store}
variable {key : RevisionKey}

/-!
# Steps that add to the journal
-/

variable {attemptId : String}

/-- The writes that finish an attempt are commits; the last one is its outcome. -/
theorem Safe.commits {active : List String} {p : Progress} {write : Write} {rest : List Write}
    (h : Safe host basisDigest attemptId active p (write :: rest)) :
    exists (g : GroupStage) (scope : String) (content : Content) (metadata : ArtifactMetadata),
      write = .commit g.name scope content metadata ∧ g ≠ .attempt ∧
      (g = .outcome -> scope = attemptId ∧ exists rejected, content = .outcome rejected ∧
        rejected.map Prod.fst = active.filter fun unit => !p.done unit) := by
  cases h with
  | response _ _ received hnone hrest =>
      exact ⟨.response, _, _, _, rfl, by decide, fun h => by cases h⟩
  | shared _ _ response findings hresponse hnone hrest =>
      exact ⟨.shared, _, _, _, rfl, by decide, fun h => by cases h⟩
  | result _ _ response units answer occasion unit value hresponse hshared hunits hanswer hvalid
      hactive hnew hrest =>
      exact ⟨.result, _, _, _, rfl, by decide, fun h => by cases h⟩
  | rejection _ _ unit feedback hrest =>
      exact ⟨.rejection, _, _, _, rfl, by decide, fun h => by cases h⟩
  | outcome _ rejected hkeys =>
      exact ⟨.outcome, _, _, _, rfl, by decide, fun _ => ⟨rfl, rejected, rfl, hkeys⟩⟩

/-- A worker's write is what put a new row into the journal. -/
structure Adds (host : Host) (call : GroupCall) (basisDigest : String) (w : World) (s' : Store)
    (x : Execution) (write : Write) (rest : List Write) (ref : ArtifactRef) : Prop where
  planned : Planned host call basisDigest w.store x.lease.revisionKey (write :: rest)
  read : host.read ref = some write.content
  run : write.run x.lease basisDigest ref w.store = .ok s'

theorem store_look (w : World) (worker : Nat) (choice : Choice) :
    (look host call w worker choice).store = w.store := by
  unfold look
  split
  · rfl
  · split <;> rfl

theorem store_write (w : World) (worker : Nat) (ref : ArtifactRef) :
    (write host call w worker ref).store = w.store ∨
      exists x next rest ending, w.workers.lookup worker = some x ∧
        x.phase = .writing next rest ending ∧
        next.run x.lease (call.basisDigest host x.spec) ref w.store =
          .ok (write host call w worker ref).store := by
  unfold write
  cases hlookup : w.workers.lookup worker with
  | none => exact Or.inl rfl
  | some x =>
      simp only
      cases hphase : x.phase with
      | reading => exact Or.inl rfl
      | ended result => exact Or.inl rfl
      | writing next rest ending =>
          simp only
          cases hrun : next.run x.lease (call.basisDigest host x.spec) ref w.store with
          | error fault => exact Or.inl rfl
          | ok s' => exact Or.inr ⟨x, next, rest, ending, rfl, hphase, hrun⟩

variable {ref : ArtifactRef} {x : Execution}

theorem read_of_puts {w : World} {worker : Nat} {next : Write} {rest : List Write}
    {ending : Ending} (h : w.puts host worker ref = true)
    (hlookup : w.workers.lookup worker = some x) (hphase : x.phase = .writing next rest ending) :
    host.read ref = some next.content := by
  rw [World.puts, hlookup] at h
  simpa [hphase] using h

variable {row : Artifact}

theorem Recovering.adds {w : World} (h : Recovering host call basisDigest w) {e : GroupEvent}
    (hadmissible : Admissible host (OnBasis host call basisDigest) e w) {stage scope : String}
    (hgroup : isGroupStage stage = true) (hnone : w.store.artifactOf key stage scope = none)
    (hsome : (stepGroup host call e w).store.artifactOf key stage scope = some row) :
    exists x next rest ref, Adds host call basisDigest w (stepGroup host call e w).store x next
      rest ref := by
  have hchanged : (stepGroup host call e w).store ≠ w.store := by
    intro hsame
    rw [hsame, hnone] at hsome
    cases hsome
  cases e with
  | other event =>
      have hsame := (sameJournal_step hadmissible w.store).rows key stage scope hgroup
      exact absurd (hsome.symm.trans (hsame.trans hnone)) (Option.some_ne_none row)
  | start worker lease spec => exact absurd rfl hchanged
  | crash worker => exact absurd rfl hchanged
  | look worker choice => exact absurd (store_look w worker choice) hchanged
  | write worker ref =>
      obtain ⟨x, next, rest, ending, hlookup, hphase, hrun⟩ :=
        (store_write w worker ref).resolve_left hchanged
      obtain ⟨r, hfence⟩ := Write.fence_of_run hrun
      refine ⟨x, next, rest, ref, ?_, read_of_puts hadmissible hlookup hphase, ?_⟩
      · rcases (h.plans worker x next rest ending hlookup hphase).2 with hlater | hplanned
        · rw [epochOf_of_fence hfence] at hlater
          exact absurd hlater (Nat.lt_irrefl _)
        · exact hplanned
      · rw [← h.specs worker x hlookup]
        exact hrun

theorem Inserts.of_new {key' : RevisionKey} {g : GroupStage} {stage scope scope' : String}
    {row row' : Artifact} (h : Inserts s s' key g scope row)
    (hnone : s.artifactOf key' stage scope' = none)
    (hsome : s'.artifactOf key' stage scope' = some row') :
    key' = key ∧ stage = g.name ∧ scope' = scope ∧ row' = row := by
  rw [h.rows] at hsome
  split at hsome
  · rename_i hsame
    exact ⟨hsame.1, hsame.2.1, hsame.2.2, (Option.some.inj hsome).symm⟩
  · rw [hnone] at hsome
    cases hsome

/-- A new attempt overlaps no attempt that is still open. -/
theorem Adds.reserved {w : World} {write : Write} {rest : List Write}
    (h : Adds host call basisDigest w s' x write rest ref)
    (hnone : w.store.artifactOf key "model-group-attempt" attemptId = none)
    (hsome : s'.artifactOf key "model-group-attempt" attemptId = some row) :
    forall attemptId' row', w.store.artifactOf key "model-group-attempt" attemptId' = some row' ->
      Store.overlaps (row.metadata.groupWorkUnitKeys.getD [])
        (row'.metadata.groupWorkUnitKeys.getD []) = true ->
      w.store.hasOutcome key attemptId' = true := by
  cases h.planned with
  | process attemptId' manifest _ hopen hmanifest hsafe =>
      obtain ⟨g, scope, content, metadata, rfl, hattempt, _⟩ := hsafe.commits
      rcases commit_effect h.run with ⟨rfl, _⟩ | hinserts
      · rw [hnone] at hsome
        cases hsome
      · have hname := (hinserts.of_new hnone hsome).2.1
        exact absurd (GroupStage.name_injective (g := .attempt) hname).symm hattempt
  | reserve reservedId manifest hkeys hnonempty hnodup htargets hfresh hnone' hnew =>
      obtain ⟨hinserts, hopen, _⟩ := reserve_effect (hfresh .attempt) h.run
      obtain ⟨rfl, _, _, rfl⟩ := hinserts.of_new hnone hsome
      intro attemptId' row' hrow hoverlap
      by_contra hunfinished
      have hmiss := List.find?_eq_none.mp hopen
        (⟨x.lease.revisionKey.runId, x.lease.revisionKey.sourceVersion,
          x.lease.revisionKey.domainRevision, "model-group-attempt", attemptId'⟩, row') ?_
      · rw [Bool.and_eq_true, Bool.not_eq_true'] at hmiss
        exact hmiss ⟨hoverlap, by simpa using hunfinished⟩
      · rw [Store.attemptsOf, List.mem_filter, Bool.and_eq_true]
        exact ⟨Table.lookup_eq_some_iff_mem.mp hrow, Store.inRevision_iff.mpr rfl, by simp⟩

/-- A new outcome rejects the targets of its attempt that have no result. -/
theorem Adds.outcome {w : World} {write : Write} {rest : List Write}
    (h : Adds host call basisDigest w s' x write rest ref)
    (hnone : w.store.artifactOf key "model-group-outcome" attemptId = none)
    (hsome : s'.artifactOf key "model-group-outcome" attemptId = some row) :
    exists manifest rejected, ManifestAt host s' key attemptId manifest ∧
      host.read row.artifactRef = some (.outcome rejected) ∧
      rejected.map Prod.fst = manifest.payload.targetWorkUnitIds.filter fun unit =>
        (s'.artifactOf key "model-group-result" (resultScope host basisDigest unit)).isNone := by
  cases h.planned with
  | process attemptId' manifest _ hopen hmanifest hsafe =>
      obtain ⟨g, scope, content, metadata, rfl, _, houtcome⟩ := hsafe.commits
      rcases commit_effect h.run with ⟨rfl, _⟩ | hinserts
      · rw [hnone] at hsome
        cases hsome
      · obtain ⟨rfl, hname, rfl, rfl⟩ := hinserts.of_new hnone hsome
        have hg : g = .outcome := (GroupStage.name_injective (g := .outcome) hname).symm
        subst hg
        obtain ⟨rfl, rejected, rfl, hkeys⟩ := houtcome rfl
        refine ⟨manifest, rejected, hinserts.grows.manifestAt hmanifest, h.read, ?_⟩
        rw [hkeys]
        congr 1
        funext unit
        rw [show s'.artifactOf x.lease.revisionKey "model-group-result" _ = _ from
          hinserts.other .result (by decide) _ _]
        exact Option.not_isSome _
  | reserve reservedId manifest hkeys hnonempty hnodup htargets hfresh hnone' hnew =>
      obtain ⟨hinserts, _, _⟩ := reserve_effect (hfresh .attempt) h.run
      exact absurd (GroupStage.name_injective (g := .outcome) (hinserts.of_new hnone hsome).2.1)
        (by decide)

/-!
# Along a run
-/

theorem grows_step (hscopes : DistinctScopes host) {w : World} {e : GroupEvent}
    (h : Recovering host call basisDigest w)
    (hadmissible : Admissible host (OnBasis host call basisDigest) e w) :
    Grows w.store (stepGroup host call e w).store := by
  have hrefl : forall s : Store, Grows s s := fun _ _ _ _ _ _ hrow => hrow
  cases e with
  | other event => exact (sameJournal_step hadmissible w.store).grows
  | start worker lease spec => exact hrefl w.store
  | crash worker => exact hrefl w.store
  | look worker choice =>
      change Grows w.store (look host call w worker choice).store
      rw [store_look]
      exact hrefl w.store
  | write worker ref =>
      change Grows w.store (write host call w worker ref).store
      rcases store_write w worker ref with hsame | ⟨x, next, rest, ending, hlookup, hphase, hrun⟩
      · rw [hsame]
        exact hrefl w.store
      · exact (h.performed hscopes hlookup hphase
          (read_of_puts hadmissible hlookup hphase) hrun).grows

theorem grows_of_reaches (hscopes : DistinctScopes host) {w t : World}
    (h : Recovering host call basisDigest w)
    (hrun : Reaches (stepGroup host call) (Admissible host (OnBasis host call basisDigest)) w t) :
    Grows w.store t.store := by
  refine Reaches.preorder (P := Recovering host call basisDigest)
    (R := fun w t : World => Grows w.store t.store) ?_ ?_
    (fun _ _ h hadmissible => recovering_step hscopes hadmissible h)
    (fun _ _ h hadmissible => grows_step hscopes h hadmissible) h hrun
  · exact fun _ _ _ _ _ _ hrow => hrow
  · exact fun _ _ _ h h' key stage scope row hgroup hrow =>
      h' key stage scope row hgroup (h key stage scope row hgroup hrow)

/-- The attempts of a command that have the unit among their targets. -/
def AttemptFor (host : Host) (s : Store) (key : RevisionKey) (commandId unit attemptId : String) :
    Prop :=
  exists row manifest, s.artifactOf key "model-group-attempt" attemptId = some row ∧
    row.metadata.commandId = some commandId ∧
    host.read row.artifactRef = some (.manifest manifest) ∧
    unit ∈ manifest.payload.targetWorkUnitIds

theorem Journal.four_attempts (h : Journal host call basisDigest s) {commandId unit : String}
    {attemptIds : List String} (hnodup : attemptIds.Nodup)
    (hattempts : forall attemptId, attemptId ∈ attemptIds ->
      AttemptFor host s key commandId unit attemptId) : attemptIds.length ≤ 4 := by
  have hcount : (attemptIds.map fun attemptId => (⟨key.runId, key.sourceVersion,
      key.domainRevision, "model-group-attempt", attemptId⟩ : ArtifactKey)).length ≤
      s.artifacts.count fun artifact row =>
        row.metadata.commandId == some commandId &&
          (Store.attemptKeys (artifact, row)).contains (call.key host unit) &&
          (Store.inRevision key artifact && artifact.stage == "model-group-attempt") := by
    apply Table.length_le_count
    · exact hnodup.map fun a b heq => congrArg ArtifactKey.scope heq
    · intro artifact hmem
      obtain ⟨attemptId, hattemptId, rfl⟩ := List.mem_map.mp hmem
      obtain ⟨row, manifest, hrow, hcommand, hread, hunit⟩ := hattempts attemptId hattemptId
      obtain ⟨manifest', hattempt⟩ := h.attempt hrow
      have hcontent := hattempt.content
      rw [hread] at hcontent
      cases hcontent
      refine ⟨row, hrow, ?_⟩
      simp only [Bool.and_eq_true, beq_iff_eq, List.contains_iff_mem, Store.inRevision_iff,
        Store.attemptKeys, hattempt.keys, Option.getD_some]
      exact ⟨⟨hcommand, List.mem_map.mpr ⟨unit, hunit, rfl⟩⟩, trivial, trivial⟩
  rw [List.length_map] at hcount
  refine Nat.le_trans hcount (Nat.le_trans (Nat.le_of_eq ?_)
    (h.limit key commandId (call.key host unit)))
  rw [Store.attemptCount, Store.attemptsOf, List.countP_filter]
  rfl

/-- What holds of the journal in every state, and of what is added to it. -/
structure SafelyRecovered (host : Host) (call : GroupCall) (basisDigest : String) (w : World) :
    Prop where
  result : forall key scope row, w.store.artifactOf key "model-group-result" scope = some row ->
    exists unit attemptId, ResultRow host basisDigest w.store key scope row unit attemptId
  oneResult : forall key scope scope' row row' unit,
    w.store.artifactOf key "model-group-result" scope = some row ->
    w.store.artifactOf key "model-group-result" scope' = some row' ->
    row.metadata.workUnitId = some unit -> row'.metadata.workUnitId = some unit ->
    scope = scope' ∧ row = row'
  kept : forall t, Reaches (stepGroup host call)
      (Admissible host (OnBasis host call basisDigest)) w t -> Grows w.store t.store
  reserved : forall e, Admissible host (OnBasis host call basisDigest) e w ->
    forall key attemptId row,
    w.store.artifactOf key "model-group-attempt" attemptId = none ->
    (stepGroup host call e w).store.artifactOf key "model-group-attempt" attemptId = some row ->
    forall attemptId' row', w.store.artifactOf key "model-group-attempt" attemptId' = some row' ->
    Store.overlaps (row.metadata.groupWorkUnitKeys.getD [])
      (row'.metadata.groupWorkUnitKeys.getD []) = true ->
    w.store.hasOutcome key attemptId' = true
  outcome : forall e, Admissible host (OnBasis host call basisDigest) e w ->
    forall key attemptId row,
    w.store.artifactOf key "model-group-outcome" attemptId = none ->
    (stepGroup host call e w).store.artifactOf key "model-group-outcome" attemptId = some row ->
    exists manifest rejected,
      ManifestAt host (stepGroup host call e w).store key attemptId manifest ∧
      host.read row.artifactRef = some (.outcome rejected) ∧
      rejected.map Prod.fst = manifest.payload.targetWorkUnitIds.filter fun unit =>
        ((stepGroup host call e w).store.artifactOf key "model-group-result"
          (resultScope host basisDigest unit)).isNone
  fourAttempts : forall key commandId unit attemptIds, List.Nodup attemptIds ->
    (forall attemptId, attemptId ∈ attemptIds ->
      AttemptFor host w.store key commandId unit attemptId) -> attemptIds.length ≤ 4
  returned : forall worker x result, w.workers.lookup worker = some x ->
    x.phase = .ended (.returned result) ->
    Collected host call basisDigest w.store x.lease.revisionKey result

/-- Workers may be lost, overtaken and restarted between any two writes, and
the model and the validators may answer as they like: each target is accepted
at most once, from the one response of an attempt that asked for it. -/
theorem groups_recover_safely (hscopes : DistinctScopes host) {start w : World}
    (hstart : start.Fresh)
    (hrun : Reaches (stepGroup host call) (Admissible host (OnBasis host call basisDigest))
      start w) : SafelyRecovered host call basisDigest w := by
  have hrecovering := recovering_of_reaches hscopes hstart hrun
  have hjournal := hrecovering.journal
  refine ⟨?_, ?_, ?_, ?_, ?_, ?_, hrecovering.returned⟩
  · intro key scope row hrow
    exact hjournal.result hrow
  · intro key scope scope' row row' unit hrow hrow' hunit hunit'
    obtain ⟨unit1, attemptId1, hresult⟩ := hjournal.result hrow
    obtain ⟨unit2, attemptId2, hresult'⟩ := hjournal.result hrow'
    rw [hresult.workUnitId] at hunit
    rw [hresult'.workUnitId] at hunit'
    cases hunit
    cases hunit'
    have hscope : scope = scope' := hresult.place.trans hresult'.place.symm
    subst hscope
    rw [hrow] at hrow'
    exact ⟨rfl, Option.some.inj hrow'⟩
  · intro t hlater
    exact grows_of_reaches hscopes hrecovering hlater
  · intro e hadmissible key attemptId row hnone hsome
    obtain ⟨x, next, rest, ref, hadds⟩ :=
      hrecovering.adds hadmissible GroupStage.attempt.isGroupStage hnone hsome
    exact hadds.reserved hnone hsome
  · intro e hadmissible key attemptId row hnone hsome
    obtain ⟨x, next, rest, ref, hadds⟩ :=
      hrecovering.adds hadmissible GroupStage.outcome.isGroupStage hnone hsome
    exact hadds.outcome hnone hsome
  · intro key commandId unit attemptIds hnodup hattempts
    exact hjournal.four_attempts hnodup hattempts

/-!
# A worker that is lost after the response was recorded
-/

def reviewBasis : Json :=
  "\x7b\"operation\":\"joint_review\",\"work_units\":[\x7b\"work_unit_id\":\"u1\"\x7d]\x7d"

def reviewSpec : SpecOutcome :=
  .available "\x7b\"injected_model\":\"tests.Model\"\x7d"

def reviewCall : GroupCall where
  task := .verify
  modelType := "tests.Model"
  operation := "joint_review"
  members := ["u1"]
  basis := reviewBasis
  targets := ["u1"]

def reviewBasisDigest : String :=
  "1a824ab081bad44401ee63c5c07d68894cc097a5ee4da82bcd5415a3b2ac96e5"

def reviewKey : String :=
  "1f46f11d204fb44ea60e17a257953a068cc4b09a2eeaa20fe185330a1379dcc9"

def reviewScope : String :=
  "3b84434f0ea176b5ca71be49076f09f6609929196ecf6e0838d8f1f349968bd7"

def jsonRef (directory sha256 size : String) : ArtifactRef :=
  ⟨sha256, "\x7b\"media_type\":\"application/json\",\"relative_path\":\"" ++ directory ++ "/" ++
    sha256 ++ "\",\"size\":" ++ size ++ "\x7d"⟩

def reviewManifestRef : ArtifactRef :=
  jsonRef "66" "669efc8f86d409abe00b0b4de283603156b5de67edc6259909f9821135abd2fb" "215"

def reviewResponseRef : ArtifactRef :=
  jsonRef "ea" "ea53aa2205237d05d0877d4165f2eb297c5a423ec33c760d7d165092ca0ffb7d" "103"

def reviewSharedRef : ArtifactRef :=
  jsonRef "4f" "4f53cda18c2baa0c0354bb5f9a3ecbe5ed12ab4d8e11ba873c2f11161202b945" "2"

def reviewResultRef : ArtifactRef :=
  jsonRef "51" "51960c4f41b20b5ff5d290f39b898b937da42dba62e339b5746d95c1f9d83f64" "36"

def reviewOutcomeRef : ArtifactRef :=
  jsonRef "72" "7246957788162e1777870388a74d3801d1b7c17544789d842dbdc241bce61b62" "15"

def reviewResponse : Response where
  text := "\x7b\"shared_findings\":[],\"work_units\":" ++
    "[\x7b\"verdict\":\"ok\",\"work_unit_id\":\"u1\"\x7d]\x7d"
  workUnits := some [⟨some "u1", "\x7b\"verdict\":\"ok\",\"work_unit_id\":\"u1\"\x7d"⟩]

def reviewFields : Fields :=
  [("verdict", "\"ok\""), ("work_unit_id", "\"u1\"")]

def reviewHost : Host where
  digest := fun value =>
    if value = .basis .verify reviewBasis (reviewCall.specIdentity reviewSpec) then
      reviewBasisDigest
    else if value = .workUnit .verify "joint_review" "u1" then reviewKey
    else if value = .result reviewBasisDigest "u1" then reviewScope
    else
      match value with
      | .result _ unit => "x" ++ unit
      | _ => "x"
  read := fun ref =>
    [(reviewManifestRef, Content.manifest ⟨.verify, ⟨reviewBasis, ["u1"], none⟩, [reviewKey]⟩),
      (reviewResponseRef, .received (.parsed reviewResponse)), (reviewSharedRef, .shared []),
      (reviewResultRef, .result reviewFields), (reviewOutcomeRef, .outcome [])].lookup ref
  fragments := fun _ _ => "[]"
  validate := fun _ _ _ => .ok [("verdict", "\"ok\"")]
  validateShared := fun _ _ _ => .ok []

def reviewLease : Lease :=
  ⟨"run", 1, 1, "start", 1⟩

def reviewChoice : Choice :=
  ⟨.ok reviewResponse, 0, "attempt"⟩

/-- The second worker finds the response and asks the model nothing. -/
def reviewRun : List GroupEvent :=
  [.other (.submit "run" "start" "manifest" "key"), .other (.acquire "run" "start" 1 30),
    .start 1 reviewLease reviewSpec, .look 1 reviewChoice, .write 1 reviewManifestRef,
    .look 1 { reviewChoice with attemptId := "next" }, .write 1 reviewResponseRef, .crash 1,
    .start 2 reviewLease reviewSpec,
    .look 2 ⟨.error (.other "ModelInfrastructureError"), 1, "next"⟩,
    .write 2 reviewSharedRef, .write 2 reviewResultRef, .write 2 reviewOutcomeRef,
    .look 2 { reviewChoice with attemptId := "next" }]

theorem reviewHost_distinctScopes : DistinctScopes reviewHost := by
  intro basisDigest unit unit' heq
  have hscope : forall unit, resultScope reviewHost basisDigest unit =
      if basisDigest = reviewBasisDigest ∧ unit = "u1" then reviewScope else "x" ++ unit := by
    intro unit
    simp [resultScope, reviewHost]
  have hx : forall text : String, reviewScope ≠ "x" ++ text := by
    intro text h
    have hchars := congrArg (fun s : String => s.toList.head?) h
    simp [reviewScope] at hchars
  rw [hscope, hscope] at heq
  split at heq
  · rename_i hknown
    split at heq
    · rename_i hknown'
      exact hknown.2.trans hknown'.2.symm
    · exact absurd heq (hx unit')
  · split at heq
    · exact absurd heq.symm (hx unit)
    · simpa using heq

instance (usable : SpecOutcome -> Prop) [DecidablePred usable] (e : GroupEvent) (w : World) :
    Decidable (Admissible host usable e w) :=
  match e with
  | .other event => inferInstanceAs (Decidable (keepsJournal event = true))
  | .start worker lease spec => inferInstanceAs (Decidable (w.workers.contains worker = false ∧
      w.isHeld lease = false ∧ lease.epoch ≤ w.store.epochOf lease.runId ∧ usable spec))
  | .look _ choice => inferInstanceAs (Decidable
      ((w.store.artifacts.any fun key _ => key.scope == choice.attemptId) = false))
  | .write worker ref => inferInstanceAs (Decidable (w.puts host worker ref = true))
  | .crash _ => inferInstanceAs (Decidable True)

instance : DecidablePred (OnBasis host call basisDigest) :=
  fun spec => inferInstanceAs (Decidable (call.basisDigest host spec = basisDigest))

def emptyWorld : World :=
  ⟨emptyStore, Table.empty⟩

theorem lost_worker_is_recovered :
    ((perform (stepGroup reviewHost reviewCall) emptyWorld reviewRun).workers.lookup 2).map
      Execution.phase = some (.ended (.returned ⟨[reviewFields], []⟩)) ∧
    SafelyRecovered reviewHost reviewCall reviewBasisDigest
      (perform (stepGroup reviewHost reviewCall) emptyWorld reviewRun) := by
  have hfresh : emptyWorld.Fresh := ⟨emptyStore_fresh, rfl⟩
  refine ⟨by decide +kernel, ?_⟩
  apply groups_recover_safely reviewHost_distinctScopes hfresh
  exact reaches_perform (Reaches.refl emptyWorld) (by decide +kernel)

end Tender
end KnowledgeBrain
