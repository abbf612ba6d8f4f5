import KnowledgeBrain.Tender.Journal

/-!
# What a pass of the loop may write

A worker decides on its writes when it reads the journal and performs them
later.  A list of writes is safe if each keeps the journal sound at the time
its turn comes.  The scripts of `pass` are safe for the journal they were made
from.
-/

namespace KnowledgeBrain
namespace Tender

open Foundation

/-!
# Safe writes
-/

/-- How far the journal of an attempt has come. -/
structure Progress where
  response : Option Received
  shared : Bool
  done : String -> Bool

/-- Writes that finish an attempt. -/
inductive Safe (host : Host) (basisDigest attemptId : String) (active : List String) :
    Progress -> List Write -> Prop where
  | nil (p : Progress) : Safe host basisDigest attemptId active p []
  | response (p : Progress) (rest : List Write) (received : Received) (hnone : p.response = none)
      (hrest : Safe host basisDigest attemptId active { p with response := some received } rest) :
      Safe host basisDigest attemptId active p
        (commitResponse basisDigest attemptId received :: rest)
  | shared (p : Progress) (rest : List Write) (response : Response) (findings : List Json)
      (hresponse : p.response = some (.parsed response)) (hnone : p.shared = false)
      (hrest : Safe host basisDigest attemptId active { p with shared := true } rest) :
      Safe host basisDigest attemptId active p
        (.commit "model-group-shared" attemptId (.shared findings) (groupMetadata basisDigest) ::
          rest)
  | result (p : Progress) (rest : List Write) (response : Response) (units : List ResponseUnit)
      (answer : ResponseUnit) (occasion : Nat) (unit : String) (value : Fields)
      (hresponse : p.response = some (.parsed response)) (hshared : p.shared = true)
      (hunits : response.workUnits = some units) (hanswer : answerOf units unit = some answer)
      (hvalid : host.validate occasion unit answer.text = .ok value) (hactive : unit ∈ active)
      (hnew : p.done unit = false)
      (hrest : Safe host basisDigest attemptId active
        { p with done := fun other => other == unit || p.done other } rest) :
      Safe host basisDigest attemptId active p
        (commitResult host basisDigest attemptId unit value :: rest)
  | rejection (p : Progress) (rest : List Write) (unit : String) (feedback : Feedback)
      (hrest : Safe host basisDigest attemptId active p rest) :
      Safe host basisDigest attemptId active p
        (commitRejection host basisDigest attemptId unit feedback :: rest)
  | outcome (p : Progress) (rejected : List (String × Option Feedback))
      (hkeys : rejected.map Prod.fst = active.filter fun unit => !p.done unit) :
      Safe host basisDigest attemptId active p [commitOutcome basisDigest attemptId rejected]

section Judge

variable {host : Host} {basisDigest attemptId : String} {active : List String}
variable {rows : List (ArtifactKey × Artifact)} {occasion : Nat}

variable {unit : String}

theorem verdict_eq_ok {units : List ResponseUnit} {value : Fields}
    (h : verdict host occasion units unit = .ok value) :
    exists answer, answerOf units unit = some answer ∧
      host.validate occasion unit answer.text = .ok value := by
  unfold verdict at h
  split at h
  · cases h
  · rename_i answer hanswer
    exact ⟨answer, hanswer, h⟩

theorem map_cons_eq_ok {A : Type} {a : A} {result : Except Raised (List A)} {list : List A}
    (h : result.map (a :: ·) = .ok list) : exists rest, result = .ok rest ∧ list = a :: rest := by
  cases result with
  | error e => cases h
  | ok rest =>
      cases h
      exact ⟨rest, rfl, rfl⟩

theorem map_cons_eq_error {A : Type} {a : A} {result : Except Raised (List A)} {e : Raised}
    (h : result.map (a :: ·) = .error e) : result = .error e := by
  cases result with
  | error e' =>
      cases h
      rfl
  | ok rest => cases h

/-- A unit of the loop has its result, or had its feedback, or the loop ends
there, or it gets one or the other now. -/
inductive Judged (host : Host) (basisDigest : String) (rows : List (ArtifactKey × Artifact))
    (occasion : Nat) (attemptId : String) (units : List ResponseUnit) :
    List String -> List Write -> Except Raised (List (String × Option Feedback)) -> Prop where
  | nil : Judged host basisDigest rows occasion attemptId units [] [] (.ok [])
  | done {unit : String} {todo : List String} {writes : List Write}
      {result : Except Raised (List (String × Option Feedback))}
      (hsome : (rowAt rows "model-group-result" (resultScope host basisDigest unit)).isSome = true)
      (hrest : Judged host basisDigest rows occasion attemptId units todo writes result) :
      Judged host basisDigest rows occasion attemptId units (unit :: todo) writes result
  | replayed {unit : String} {todo : List String} {writes : List Write}
      {result : Except Raised (List (String × Option Feedback))} (feedback : Feedback)
      (hnone : (rowAt rows "model-group-result"
        (resultScope host basisDigest unit)).isSome = false)
      (hrest : Judged host basisDigest rows occasion attemptId units todo writes result) :
      Judged host basisDigest rows occasion attemptId units (unit :: todo) writes
        (result.map ((unit, some feedback) :: ·))
  | stopped {unit : String} {todo : List String} (error : Raised) :
      Judged host basisDigest rows occasion attemptId units (unit :: todo) [] (.error error)
  | accepted {unit : String} {todo : List String} {writes : List Write}
      {result : Except Raised (List (String × Option Feedback))} (answer : ResponseUnit)
      (value : Fields)
      (hnone : (rowAt rows "model-group-result"
        (resultScope host basisDigest unit)).isSome = false)
      (hanswer : answerOf units unit = some answer)
      (hvalid : host.validate occasion unit answer.text = .ok value)
      (hrest : Judged host basisDigest rows occasion attemptId units todo writes result) :
      Judged host basisDigest rows occasion attemptId units (unit :: todo)
        (commitResult host basisDigest attemptId unit value :: writes) result
  | rejected {unit : String} {todo : List String} {writes : List Write}
      {result : Except Raised (List (String × Option Feedback))} (feedback : Feedback)
      (hnone : (rowAt rows "model-group-result"
        (resultScope host basisDigest unit)).isSome = false)
      (hrest : Judged host basisDigest rows occasion attemptId units todo writes result) :
      Judged host basisDigest rows occasion attemptId units (unit :: todo)
        (commitRejection host basisDigest attemptId unit feedback :: writes)
        (result.map ((unit, some feedback) :: ·))

theorem judged_judgeUnits (host : Host) (basisDigest : String)
    (rows : List (ArtifactKey × Artifact)) (occasion : Nat) (attemptId : String)
    (units : List ResponseUnit) (todo : List String) :
    Judged host basisDigest rows occasion attemptId units todo
      (judgeUnits host basisDigest rows occasion attemptId units todo).1
      (judgeUnits host basisDigest rows occasion attemptId units todo).2 := by
  induction todo with
  | nil => exact .nil
  | cons unit todo ih =>
      unfold judgeUnits
      by_cases hresult : (rowAt rows "model-group-result"
          (resultScope host basisDigest unit)).isSome = true
      · simp only [if_pos hresult]
        exact .done hresult ih
      simp only [if_neg hresult]
      rw [Bool.not_eq_true] at hresult
      cases hrejection : rowAt rows "model-group-rejection"
          (rejectionScope host basisDigest attemptId unit) with
      | some row =>
          simp only
          split
          · exact .replayed _ hresult ih
          · exact .stopped _
      | none =>
          simp only
          split
          · rename_i value hverdict
            obtain ⟨answer, hanswer, hvalid⟩ := verdict_eq_ok hverdict
            exact .accepted answer value hresult hanswer hvalid ih
          · exact .stopped _
          · exact .rejected _ hresult ih

/-- The writes of the loop over some of the active targets, followed by more
writes; what it rejects is what it leaves undone. -/
theorem safe_of_judged {response : Response} {units : List ResponseUnit}
    (hunits : response.workUnits = some units) {todo : List String} {writes : List Write}
    {result : Except Raised (List (String × Option Feedback))}
    (h : Judged host basisDigest rows occasion attemptId units todo writes result)
    (hnodup : todo.Nodup) (hactive : forall unit, unit ∈ todo -> unit ∈ active) (p : Progress)
    (hresponse : p.response = some (.parsed response)) (hshared : p.shared = true)
    (hdone : forall unit, unit ∈ todo ->
      (rowAt rows "model-group-result" (resultScope host basisDigest unit)).isSome =
        p.done unit) :
    (forall error, result = .error error ->
      Safe host basisDigest attemptId active p writes) ∧
    (forall rejected, result = .ok rejected -> exists done : String -> Bool,
      (forall unit, unit ∉ todo -> done unit = p.done unit) ∧
      rejected.map Prod.fst = (todo.filter fun unit => !done unit) ∧
      forall rest, Safe host basisDigest attemptId active { p with done := done } rest ->
        Safe host basisDigest attemptId active p (writes ++ rest)) := by
  induction h generalizing p with
  | nil =>
      refine ⟨fun _ h => (by cases h), ?_⟩
      rintro _ ⟨⟩
      exact ⟨p.done, fun _ _ => rfl, rfl, fun rest hrest => hrest⟩
  | @done unit todo writes result hsome hrest ih =>
      rw [List.nodup_cons] at hnodup
      obtain ⟨hfails, hsucceeds⟩ := ih hnodup.2
        (fun other hmem => hactive other (List.mem_cons_of_mem unit hmem)) p hresponse hshared
        (fun other hmem => hdone other (List.mem_cons_of_mem unit hmem))
      refine ⟨hfails, ?_⟩
      intro rejected hok
      obtain ⟨done, hsame, hkeys, hsafe⟩ := hsucceeds rejected hok
      have hunit : done unit = true := by
        rw [hsame unit hnodup.1, ← hdone unit List.mem_cons_self]
        exact hsome
      refine ⟨done, fun other hnot => hsame other fun hmem =>
        hnot (List.mem_cons_of_mem unit hmem), ?_, hsafe⟩
      rw [hkeys, List.filter_cons, hunit]
      rfl
  | @replayed unit todo writes result feedback hnone hrest ih =>
      rw [List.nodup_cons] at hnodup
      obtain ⟨hfails, hsucceeds⟩ := ih hnodup.2
        (fun other hmem => hactive other (List.mem_cons_of_mem unit hmem)) p hresponse hshared
        (fun other hmem => hdone other (List.mem_cons_of_mem unit hmem))
      refine ⟨fun error herror => hfails error (map_cons_eq_error herror), ?_⟩
      intro rejected hok
      obtain ⟨others, hothers, rfl⟩ := map_cons_eq_ok hok
      obtain ⟨done, hsame, hkeys, hsafe⟩ := hsucceeds others hothers
      have hunit : done unit = false := by
        rw [hsame unit hnodup.1, ← hdone unit List.mem_cons_self]
        exact hnone
      refine ⟨done, fun other hnot => hsame other fun hmem =>
        hnot (List.mem_cons_of_mem unit hmem), ?_, hsafe⟩
      rw [List.map_cons, hkeys, List.filter_cons, hunit]
      rfl
  | stopped error => exact ⟨fun _ _ => Safe.nil p, fun _ h => by cases h⟩
  | @accepted unit todo writes result answer value hnone hanswer hvalid hrest ih =>
      rw [List.nodup_cons] at hnodup
      have hnew : p.done unit = false := by
        rw [← hdone unit List.mem_cons_self]
        exact hnone
      -- The rest is judged with the unit done.
      obtain ⟨hfails, hsucceeds⟩ := ih hnodup.2
        (fun other hmem => hactive other (List.mem_cons_of_mem unit hmem))
        { p with done := fun other => other == unit || p.done other } hresponse hshared (by
          intro other hmem
          have hne : other ≠ unit := by
            rintro rfl
            exact hnodup.1 hmem
          rw [hdone other (List.mem_cons_of_mem unit hmem)]
          simp [hne])
      have hmember := hactive unit List.mem_cons_self
      refine ⟨?_, ?_⟩
      · intro error herror
        exact Safe.result p _ response units answer occasion unit value hresponse hshared hunits
          hanswer hvalid hmember hnew (hfails error herror)
      · intro rejected hok
        obtain ⟨done, hsame, hkeys, hsafe⟩ := hsucceeds rejected hok
        have hunit : done unit = true := by
          rw [hsame unit hnodup.1]
          simp
        refine ⟨done, ?_, ?_, ?_⟩
        · intro other hnot
          rw [List.mem_cons, not_or] at hnot
          rw [hsame other hnot.2]
          simp [hnot.1]
        · rw [hkeys, List.filter_cons, hunit]
          rfl
        · intro rest hrest
          exact Safe.result p _ response units answer occasion unit value hresponse hshared hunits
            hanswer hvalid hmember hnew (hsafe rest hrest)
  | @rejected unit todo writes result feedback hnone hrest ih =>
      rw [List.nodup_cons] at hnodup
      obtain ⟨hfails, hsucceeds⟩ := ih hnodup.2
        (fun other hmem => hactive other (List.mem_cons_of_mem unit hmem)) p hresponse hshared
        (fun other hmem => hdone other (List.mem_cons_of_mem unit hmem))
      refine ⟨fun error herror =>
        Safe.rejection p _ unit feedback (hfails error (map_cons_eq_error herror)), ?_⟩
      intro rejected hok
      obtain ⟨others, hothers, rfl⟩ := map_cons_eq_ok hok
      obtain ⟨done, hsame, hkeys, hsafe⟩ := hsucceeds others hothers
      have hunit : done unit = false := by
        rw [hsame unit hnodup.1, ← hdone unit List.mem_cons_self]
        exact hnone
      refine ⟨done, fun other hnot => hsame other fun hmem =>
        hnot (List.mem_cons_of_mem unit hmem), ?_, ?_⟩
      · rw [List.map_cons, hkeys, List.filter_cons, hunit]
        rfl
      · intro rest hrest
        exact Safe.rejection p _ unit feedback (hsafe rest hrest)

/-- The rows that were read say how far the attempt has come. -/
structure Agrees (host : Host) (basisDigest attemptId : String) (active : List String)
    (rows : List (ArtifactKey × Artifact)) (p : Progress) : Prop where
  done : forall unit,
    (rowAt rows "model-group-result" (resultScope host basisDigest unit)).isSome = p.done unit
  shared : (rowAt rows "model-group-shared" attemptId).isSome = p.shared
  readable : forall row, rowAt rows "model-group-shared" attemptId = some row ->
    exists findings, host.read row.artifactRef = some (.shared findings)
  clean : p.shared = false -> forall unit, unit ∈ active -> p.done unit = false
  parsed : p.shared = true -> exists response, p.response = some (.parsed response)

variable {p : Progress}

theorem safe_close_all {f : String -> Option Feedback}
    (hclean : forall unit, unit ∈ active -> p.done unit = false) :
    Safe host basisDigest attemptId active p
      (close basisDigest attemptId (active.map fun unit => (unit, f unit))).writes := by
  refine Safe.outcome p _ ?_
  rw [List.map_map]
  have hall : active.filter (fun unit => !p.done unit) = active := by
    apply List.filter_eq_self.mpr
    intro unit hmem
    rw [hclean unit hmem]
    rfl
  rw [hall]
  exact List.map_id active

theorem safe_judgeUnitsOf {response : Response} (hnodup : active.Nodup)
    (hresponse : p.response = some (.parsed response)) (hshared : p.shared = true)
    (hdone : forall unit,
      (rowAt rows "model-group-result" (resultScope host basisDigest unit)).isSome =
        p.done unit) :
    Safe host basisDigest attemptId active p
      (judgeUnitsOf host basisDigest rows occasion attemptId response active).writes := by
  unfold judgeUnitsOf
  cases hunits : response.workUnits with
  | none => exact Safe.nil p
  | some units =>
      simp only
      obtain ⟨hfails, hsucceeds⟩ := safe_of_judged hunits
        (judged_judgeUnits host basisDigest rows occasion attemptId units active) hnodup
        (fun _ hmem => hmem) p hresponse hshared (fun unit _ => hdone unit)
      cases hjudged : (judgeUnits host basisDigest rows occasion attemptId units active).2 with
      | error error => exact hfails error hjudged
      | ok rejected =>
          obtain ⟨done, _, hkeys, hsafe⟩ := hsucceeds rejected hjudged
          exact hsafe _ (Safe.outcome _ rejected hkeys)

theorem safe_judge {received : Received} {current : GroupPayload}
    (hagrees : Agrees host basisDigest attemptId current.targetWorkUnitIds rows p)
    (hnodup : current.targetWorkUnitIds.Nodup) (hresponse : p.response = some received) :
    Safe host basisDigest attemptId current.targetWorkUnitIds p
      (judge host basisDigest rows occasion attemptId received current).writes := by
  have hunshared : (forall response, received ≠ .parsed response) ->
      forall unit, unit ∈ current.targetWorkUnitIds -> p.done unit = false := by
    intro hnot
    apply hagrees.clean
    by_contra hshared
    obtain ⟨response, hparsed⟩ := hagrees.parsed (by simpa using hshared)
    rw [hresponse] at hparsed
    exact hnot response (Option.some.inj hparsed)
  cases received with
  | invalidJson feedback => exact safe_close_all (hunshared fun _ h => by cases h)
  | invalidCache feedback => exact safe_close_all (hunshared fun _ h => by cases h)
  | requestFailure errorType => exact safe_close_all (hunshared fun _ h => by cases h)
  | parsed response =>
      unfold judge
      simp only
      cases hrow : rowAt rows "model-group-shared" attemptId with
      | some row =>
          have hshared : p.shared = true := by
            rw [← hagrees.shared, hrow]
            rfl
          obtain ⟨findings, hread⟩ := hagrees.readable row hrow
          have hfindings : sharedFindings host rows occasion attemptId response current =
              .ok findings := by
            unfold sharedFindings
            simp only [hrow, hread]
            rfl
          rw [hfindings]
          simp only [commitShared, hrow, Script.after, List.nil_append]
          exact safe_judgeUnitsOf hnodup hresponse hshared hagrees.done
      | none =>
          have hshared : p.shared = false := by
            rw [← hagrees.shared, hrow]
            rfl
          split
          · exact Safe.nil p
          · exact safe_close_all (hagrees.clean hshared)
          · rename_i findings _
            simp only [commitShared, hrow, Script.after, List.cons_append, List.nil_append]
            refine Safe.shared p _ response findings hresponse hshared ?_
            exact safe_judgeUnitsOf hnodup hresponse rfl hagrees.done

end Judge

/-!
# The journal that was read
-/

/-- The rows are those of the journal of a revision. -/
def Snapshot (s : Store) (key : RevisionKey) (basisDigest : String)
    (rows : List (ArtifactKey × Artifact)) : Prop :=
  forall artifact row, (artifact, row) ∈ rows <->
    s.artifacts.lookup artifact = some row ∧ Store.inRevision key artifact = true ∧
      row.metadata.groupBasisDigest = some basisDigest ∧ isGroupStage artifact.stage = true

variable {host : Host} {call : GroupCall} {basisDigest : String} {s s' : Store}
variable {key : RevisionKey} {rows : List (ArtifactKey × Artifact)}

theorem snapshot_groupReceipts {lease : Lease}
    (h : s.groupReceipts lease basisDigest = .ok rows) :
    (exists r, s.assertFence lease = .ok r) ∧ Snapshot s lease.revisionKey basisDigest rows := by
  obtain ⟨r, hfence, h⟩ := bind_eq_ok h
  cases h
  refine ⟨⟨r, hfence⟩, ?_⟩
  intro artifact row
  rw [mem_sortBy, List.mem_filter, ← Table.lookup_eq_some_iff_mem, Bool.and_eq_true,
    Bool.and_eq_true, beq_iff_eq, and_assoc]
  rfl

variable {row : Artifact}

theorem Snapshot.artifactOf (h : Snapshot s key basisDigest rows) {artifact : ArtifactKey}
    (hmem : (artifact, row) ∈ rows) :
    s.artifactOf key artifact.stage artifact.scope = some row := by
  obtain ⟨hlookup, hrevision, _, _⟩ := (h artifact row).mp hmem
  have hkey := Store.inRevision_iff.mp hrevision
  rw [hkey]
  exact hlookup

theorem Snapshot.mem (h : Snapshot s key basisDigest rows)
    (hjournal : Journal host call basisDigest s) {g : GroupStage} {scope : String}
    (hrow : s.artifactOf key g.name scope = some row) :
    ((⟨key.runId, key.sourceVersion, key.domainRevision, g.name, scope⟩ : ArtifactKey), row) ∈
      rows :=
  (h _ row).mpr ⟨hrow, Store.inRevision_iff.mpr rfl, (hjournal.sound hrow).basis,
    g.isGroupStage⟩

theorem Snapshot.rowAt (h : Snapshot s key basisDigest rows)
    (hjournal : Journal host call basisDigest s) (g : GroupStage) (scope : String) :
    rowAt rows g.name scope = s.artifactOf key g.name scope := by
  unfold Tender.rowAt
  cases hrow : s.artifactOf key g.name scope with
  | none =>
      rw [Option.map_eq_none_iff, List.find?_eq_none]
      rintro ⟨artifact, row⟩ hmem hmatch
      rw [Bool.and_eq_true, beq_iff_eq, beq_iff_eq] at hmatch
      have hstored := h.artifactOf hmem
      rw [hmatch.1, hmatch.2, hrow] at hstored
      cases hstored
  | some row =>
      have hmem := h.mem hjournal hrow
      cases hfind : rows.find? fun row => row.1.stage == g.name && row.1.scope == scope with
      | none =>
          have hmiss := List.find?_eq_none.mp hfind _ hmem
          simp at hmiss
      | some found =>
          have hmatch := List.find?_some hfind
          rw [Bool.and_eq_true, beq_iff_eq, beq_iff_eq] at hmatch
          have hstored := h.artifactOf (List.mem_of_find?_eq_some hfind)
          rw [hmatch.1, hmatch.2, hrow] at hstored
          rw [Option.map_some, Option.some.inj hstored]

def receivedOf (host : Host) (row : Artifact) : Option Received :=
  match host.read row.artifactRef with
  | some (.received received) => some received
  | _ => none

def progressOf (host : Host) (basisDigest : String) (s : Store) (key : RevisionKey)
    (attemptId : String) : Progress where
  response := (s.artifactOf key "model-group-response" attemptId).bind (receivedOf host)
  shared := (s.artifactOf key "model-group-shared" attemptId).isSome
  done := fun unit =>
    (s.artifactOf key "model-group-result" (resultScope host basisDigest unit)).isSome

theorem ReceivedAt.progress {attemptId : String} {received : Received}
    (h : ReceivedAt host s key attemptId received) :
    (progressOf host basisDigest s key attemptId).response = some received := by
  obtain ⟨row, hrow, hread⟩ := h
  simp only [progressOf, hrow, Option.bind_some, receivedOf, hread]

theorem Journal.response_none (h : Journal host call basisDigest s) {attemptId : String}
    (hnone : (progressOf host basisDigest s key attemptId).response = none) :
    s.artifactOf key "model-group-response" attemptId = none := by
  cases hrow : s.artifactOf key "model-group-response" attemptId with
  | none => rfl
  | some row =>
      obtain ⟨received, hread⟩ := h.response hrow
      rw [ReceivedAt.progress ⟨row, hrow, hread⟩] at hnone
      cases hnone

/-- While an attempt is open, its targets are only done if it is. -/
theorem agrees_progressOf (hjournal : Journal host call basisDigest s)
    (hsnapshot : Snapshot s key basisDigest rows) {attemptId : String} {manifest : Manifest}
    (hopen : OpenAt s key attemptId) (hmanifest : ManifestAt host s key attemptId manifest) :
    Agrees host basisDigest attemptId manifest.payload.targetWorkUnitIds rows
      (progressOf host basisDigest s key attemptId) := by
  refine ⟨?_, ?_, ?_, ?_, ?_⟩
  · intro unit
    rw [show Tender.rowAt rows "model-group-result" _ = _ from hsnapshot.rowAt hjournal .result _]
    rfl
  · rw [show Tender.rowAt rows "model-group-shared" _ = _ from hsnapshot.rowAt hjournal .shared _]
    rfl
  · intro row hrow
    rw [show Tender.rowAt rows "model-group-shared" _ = _ from
      hsnapshot.rowAt hjournal .shared _] at hrow
    obtain ⟨findings, _, hread, _⟩ := hjournal.shared hrow
    exact ⟨findings, hread⟩
  · intro hunshared unit hunit
    by_contra hdone
    rw [Bool.not_eq_false] at hdone
    obtain ⟨row, hrow⟩ := Option.isSome_iff_exists.mp hdone
    have hattempt := hjournal.clean key attemptId manifest unit row hopen hmanifest hunit hrow
    obtain ⟨unit', attemptId', hresult⟩ := hjournal.result hrow
    rw [hresult.groupAttemptId] at hattempt
    cases hattempt
    have hshared := hresult.shared
    change (s.artifactOf key "model-group-shared" attemptId).isSome = false at hunshared
    rw [hunshared] at hshared
    cases hshared
  · intro hshared
    obtain ⟨row, hrow⟩ := Option.isSome_iff_exists.mp hshared
    obtain ⟨_, response, _, hparsed⟩ := hjournal.shared hrow
    exact ⟨response, hparsed.progress⟩

theorem safe_process (hjournal : Journal host call basisDigest s)
    (hsnapshot : Snapshot s key basisDigest rows) {attempt : ArtifactKey × Artifact}
    (hrow : s.artifactOf key "model-group-attempt" attempt.1.scope = some attempt.2)
    (hopen : OpenAt s key attempt.1.scope) (occasion : Nat) (called : Except Raised Response) :
    exists manifest, ManifestAt host s key attempt.1.scope manifest ∧
      Safe host basisDigest attempt.1.scope manifest.payload.targetWorkUnitIds
        (progressOf host basisDigest s key attempt.1.scope)
        (process host basisDigest rows occasion attempt called).writes := by
  obtain ⟨manifest, hattempt⟩ := hjournal.attempt hrow
  have hmanifest : ManifestAt host s key attempt.1.scope manifest :=
    ⟨attempt.2, hrow, hattempt.content⟩
  have hagrees := agrees_progressOf hjournal hsnapshot hopen hmanifest
  refine ⟨manifest, hmanifest, ?_⟩
  unfold process
  simp only [hattempt.content]
  rw [show Tender.rowAt rows "model-group-response" _ = _ from
    hsnapshot.rowAt hjournal .response _]
  cases hresponse : s.artifactOf key GroupStage.response.name attempt.1.scope with
  | some row =>
      obtain ⟨received, hread⟩ := hjournal.response hresponse
      simp only [hread]
      exact safe_judge hagrees hattempt.nodup (ReceivedAt.progress ⟨row, hresponse, hread⟩)
  | none =>
      simp only
      have hnone : (progressOf host basisDigest s key attempt.1.scope).response = none := by
        change (s.artifactOf key "model-group-response" attempt.1.scope).bind _ = none
        rw [show s.artifactOf key "model-group-response" attempt.1.scope = none from hresponse]
        rfl
      split
      · exact Safe.nil _
      · rename_i received _
        refine Safe.response _ _ received hnone ?_
        refine safe_judge ?_ hattempt.nodup rfl
        -- Nothing can be shared before there is a response.
        refine ⟨hagrees.done, hagrees.shared, hagrees.readable, hagrees.clean, ?_⟩
        intro hshared
        obtain ⟨response, hparsed⟩ := hagrees.parsed hshared
        rw [hnone] at hparsed
        cases hparsed

/-!
# The script of a pass
-/

/-- No two work units share the scope of their results. -/
def DistinctScopes (host : Host) : Prop :=
  forall basisDigest unit unit',
    resultScope host basisDigest unit = resultScope host basisDigest unit' -> unit = unit'

theorem rowsOf_mem {stage : String} {entry : ArtifactKey × Artifact} :
    entry ∈ rowsOf rows stage <-> entry ∈ rows ∧ entry.1.stage = stage := by
  rw [rowsOf, List.mem_filter, beq_iff_eq]

theorem Snapshot.open_of_unfinished (h : Snapshot s key basisDigest rows)
    (hjournal : Journal host call basisDigest s) {attempt : ArtifactKey × Artifact}
    (hmem : attempt ∈ unfinished host call rows) :
    s.artifactOf key "model-group-attempt" attempt.1.scope = some attempt.2 ∧
      OpenAt s key attempt.1.scope := by
  rw [unfinished, List.mem_filter, rowsOf_mem, Bool.and_eq_true, Bool.not_eq_true'] at hmem
  obtain ⟨⟨hrow, hstage⟩, hdone, _⟩ := hmem
  have hstored := h.artifactOf hrow
  rw [hstage] at hstored
  refine ⟨hstored, by rw [hstored]; rfl, ?_⟩
  by_contra houtcome
  rw [Bool.not_eq_false] at houtcome
  obtain ⟨row, houtcome⟩ := Option.isSome_iff_exists.mp houtcome
  rw [List.any_eq_false] at hdone
  refine hdone _ (rowsOf_mem.mpr ⟨h.mem hjournal (g := .outcome) houtcome, rfl⟩) ?_
  simp

/-- Every open attempt of the journal concerns one of the targets. -/
theorem Snapshot.unfinished_of_open (h : Snapshot s key basisDigest rows)
    (hjournal : Journal host call basisDigest s) {attemptId : String}
    (hopen : OpenAt s key attemptId) :
    exists attempt, attempt ∈ unfinished host call rows ∧ attempt.1.scope = attemptId := by
  obtain ⟨row, hrow⟩ := Option.isSome_iff_exists.mp hopen.1
  obtain ⟨manifest, hattempt⟩ := hjournal.attempt hrow
  refine ⟨(⟨key.runId, key.sourceVersion, key.domainRevision, "model-group-attempt", attemptId⟩,
    row), ?_, rfl⟩
  rw [unfinished, List.mem_filter, rowsOf_mem, Bool.and_eq_true, Bool.not_eq_true']
  refine ⟨⟨h.mem hjournal (g := .attempt) hrow, rfl⟩, ?_, ?_⟩
  · rw [List.any_eq_false]
    rintro ⟨artifact, outcome⟩ hmem hscope
    obtain ⟨hread, hstage⟩ := rowsOf_mem.mp hmem
    have hstored := h.artifactOf hread
    rw [beq_iff_eq] at hscope
    rw [hstage, hscope] at hstored
    have hdone : s.hasOutcome key attemptId = true := by
      rw [Store.hasOutcome, hstored]
      rfl
    rw [hopen.2] at hdone
    cases hdone
  · obtain ⟨unit, hunit⟩ := List.exists_mem_of_ne_nil _ hattempt.nonempty
    rw [Store.overlaps, List.any_eq_true]
    refine ⟨call.key host unit, ?_, ?_⟩
    · rw [Store.attemptKeys, hattempt.keys]
      exact List.mem_map.mpr ⟨unit, hunit, rfl⟩
    · rw [List.contains_iff_mem]
      exact List.mem_map.mpr ⟨unit, hattempt.targets unit hunit, rfl⟩

theorem Snapshot.completed (h : Snapshot s key basisDigest rows)
    (hjournal : Journal host call basisDigest s) (hcompleted : completed rows unit = some row) :
    s.artifactOf key "model-group-result" (resultScope host basisDigest unit) = some row := by
  obtain ⟨⟨artifact, row'⟩, hlast, rfl⟩ := Option.map_eq_some_iff.mp hcompleted
  have hmem := List.mem_of_getLast? hlast
  rw [List.mem_filter, rowsOf_mem, beq_iff_eq] at hmem
  obtain ⟨⟨hread, hstage⟩, hunit⟩ := hmem
  have hstored := h.artifactOf hread
  rw [hstage] at hstored
  obtain ⟨unit', attemptId, hresult⟩ := hjournal.result hstored
  rw [hresult.workUnitId] at hunit
  cases hunit
  rw [← hresult.place]
  exact hstored

theorem Snapshot.not_completed (hscopes : DistinctScopes host)
    (h : Snapshot s key basisDigest rows) (hjournal : Journal host call basisDigest s)
    (hcompleted : Tender.completed rows unit = none) :
    s.artifactOf key "model-group-result" (resultScope host basisDigest unit) = none := by
  cases hrow : s.artifactOf key "model-group-result" (resultScope host basisDigest unit) with
  | none => rfl
  | some row =>
      obtain ⟨unit', attemptId, hresult⟩ := hjournal.result hrow
      have hsame : unit = unit' := hscopes basisDigest unit unit' hresult.place
      rw [Tender.completed, Option.map_eq_none_iff, List.getLast?_eq_none_iff,
        List.filter_eq_nil_iff] at hcompleted
      refine absurd ?_ (hcompleted _ (rowsOf_mem.mpr ⟨h.mem hjournal (g := .result) hrow, rfl⟩))
      rw [beq_iff_eq, hresult.workUnitId, hsame]

/-- The writes that are left to a worker. -/
inductive Planned (host : Host) (call : GroupCall) (basisDigest : String) (s : Store)
    (key : RevisionKey) : List Write -> Prop where
  | nothing : Planned host call basisDigest s key []
  | process (attemptId : String) (manifest : Manifest) (writes : List Write)
      (hopen : OpenAt s key attemptId) (hmanifest : ManifestAt host s key attemptId manifest)
      (hsafe : Safe host basisDigest attemptId manifest.payload.targetWorkUnitIds
        (progressOf host basisDigest s key attemptId) writes) :
      Planned host call basisDigest s key writes
  | reserve (attemptId : String) (manifest : Manifest)
      (hkeys : manifest.groupWorkUnitKeys =
        call.keys host manifest.payload.targetWorkUnitIds)
      (hnonempty : manifest.payload.targetWorkUnitIds ≠ [])
      (hnodup : manifest.payload.targetWorkUnitIds.Nodup)
      (htargets : forall unit, unit ∈ manifest.payload.targetWorkUnitIds -> unit ∈ call.targets)
      (hfresh : forall g : GroupStage, s.artifactOf key g.name attemptId = none)
      (hnone : forall attemptId, ¬ OpenAt s key attemptId)
      (hnew : forall unit, unit ∈ manifest.payload.targetWorkUnitIds ->
        s.artifactOf key "model-group-result" (resultScope host basisDigest unit) = none) :
      Planned host call basisDigest s key [.reserve attemptId manifest]

/-- The results a call returns are those of the journal, in the order of the targets. -/
def Collected (host : Host) (call : GroupCall) (basisDigest : String) (s : Store)
    (key : RevisionKey) (result : GroupResult) : Prop :=
  List.Forall₂ (fun unit fields => exists row,
    s.artifactOf key "model-group-result" (resultScope host basisDigest unit) = some row ∧
      host.read row.artifactRef = some (.result fields)) call.targets result.workUnits

theorem collected_of_collect (h : Snapshot s key basisDigest rows)
    (hjournal : Journal host call basisDigest s) {result : GroupResult}
    (hrun : collect host call rows = .ok result) :
    Collected host call basisDigest s key result := by
  obtain ⟨shared, _, hrun⟩ := bind_eq_ok hrun
  obtain ⟨workUnits, hresults, hrun⟩ := bind_eq_ok hrun
  cases hrun
  apply (mapM_eq_ok hresults).imp
  intro unit fields hread
  unfold readResult at hread
  split at hread
  · rename_i fields' hfound
    cases hread
    obtain ⟨row, hcompleted, hcontent⟩ := Option.bind_eq_some_iff.mp hfound
    exact ⟨row, h.completed hjournal hcompleted, hcontent⟩
  · cases hread

theorem planned_reserveNext (hscopes : DistinctScopes host) (hvalid : call.valid = true)
    (hjournal : Journal host call basisDigest s) (hsnapshot : Snapshot s key basisDigest rows)
    (hunfinished : unfinished host call rows = []) (hpending : pending call rows ≠ [])
    {attemptId : String}
    (hfresh : forall g : GroupStage, s.artifactOf key g.name attemptId = none) :
    Planned host call basisDigest s key (reserveNext host call rows attemptId).writes := by
  unfold reserveNext
  split
  · exact .nothing
  rw [GroupCall.valid, Bool.and_eq_true, Bool.and_eq_true, decide_eq_true_eq,
    decide_eq_true_eq] at hvalid
  refine .reserve attemptId _ rfl hpending (hvalid.1.2.filter _) ?_ hfresh ?_ ?_
  · intro unit hunit
    exact (List.mem_filter.mp hunit).1
  · intro other hopen
    obtain ⟨attempt, hmem, _⟩ := hsnapshot.unfinished_of_open hjournal hopen
    rw [hunfinished] at hmem
    cases hmem
  · intro unit hunit
    exact Snapshot.not_completed hscopes hsnapshot hjournal
      (Option.isNone_iff_eq_none.mp (List.mem_filter.mp hunit).2)

theorem planned_pass (hscopes : DistinctScopes host) (hvalid : call.valid = true)
    {spec : SpecOutcome} {choice : Choice} (hspec : call.basisDigest host spec = basisDigest)
    (hjournal : Journal host call basisDigest s) (hsnapshot : Snapshot s key basisDigest rows)
    (hfresh : forall g : GroupStage, s.artifactOf key g.name choice.attemptId = none) :
    Planned host call basisDigest s key (pass host call rows spec choice).writes := by
  unfold pass
  cases hhead : (unfinished host call rows).head? with
  | some attempt =>
      obtain ⟨hrow, hopen⟩ := hsnapshot.open_of_unfinished hjournal (List.mem_of_head? hhead)
      rw [hspec]
      obtain ⟨manifest, hmanifest, hsafe⟩ :=
        safe_process hjournal hsnapshot hrow hopen choice.occasion _
      exact .process attempt.1.scope manifest _ hopen hmanifest hsafe
  | none =>
      have hunfinished := List.head?_eq_none_iff.mp hhead
      simp only
      split
      · split
        · exact .nothing
        · exact .nothing
      · rename_i hpending
        refine planned_reserveNext hscopes hvalid hjournal hsnapshot hunfinished ?_ hfresh
        rw [hpending]
        exact List.cons_ne_nil _ _

/-- A script that does not end the call with a result. -/
def Script.Open (script : Script) : Prop :=
  forall result, script.ending ≠ .returned result

theorem open_judgeUnitsOf (host : Host) (basisDigest : String)
    (rows : List (ArtifactKey × Artifact)) (occasion : Nat) (attemptId : String)
    (response : Response) (active : List String) :
    (judgeUnitsOf host basisDigest rows occasion attemptId response active).Open := by
  intro result hending
  unfold judgeUnitsOf at hending
  split at hending
  · cases hending
  simp only at hending
  split at hending
  · cases hending
  · cases hending

theorem open_judge (host : Host) (basisDigest : String) (rows : List (ArtifactKey × Artifact))
    (occasion : Nat) (attemptId : String) (received : Received) (current : GroupPayload) :
    (judge host basisDigest rows occasion attemptId received current).Open := by
  intro result hending
  unfold judge at hending
  split at hending
  · split at hending
    · cases hending
    · cases hending
    · exact open_judgeUnitsOf _ _ _ _ _ _ _ result hending
  · cases hending

theorem open_process (host : Host) (basisDigest : String) (rows : List (ArtifactKey × Artifact))
    (occasion : Nat) (attempt : ArtifactKey × Artifact) (called : Except Raised Response) :
    (process host basisDigest rows occasion attempt called).Open := by
  intro result hending
  unfold process at hending
  split at hending
  · split at hending
    · split at hending
      · exact open_judge _ _ _ _ _ _ _ result hending
      · cases hending
    · split at hending
      · cases hending
      · exact open_judge _ _ _ _ _ _ _ result hending
  · cases hending

theorem open_reserveNext (host : Host) (call : GroupCall) (rows : List (ArtifactKey × Artifact))
    (attemptId : String) : (reserveNext host call rows attemptId).Open := by
  intro result hending
  unfold reserveNext at hending
  split at hending
  · cases hending
  · cases hending

theorem collected_of_pass (hjournal : Journal host call basisDigest s)
    (hsnapshot : Snapshot s key basisDigest rows) {spec : SpecOutcome} {choice : Choice}
    {result : GroupResult}
    (hending : (pass host call rows spec choice).ending = .returned result) :
    Collected host call basisDigest s key result ∧
      (pass host call rows spec choice).writes = [] := by
  unfold pass at hending ⊢
  cases hhead : (unfinished host call rows).head? with
  | some attempt =>
      simp only [hhead] at hending
      exact absurd hending (open_process _ _ _ _ _ _ result)
  | none =>
      simp only [hhead] at hending ⊢
      split at hending
      · split at hending
        · rename_i hcollect
          cases hending
          exact ⟨collected_of_collect hsnapshot hjournal hcollect, by simp⟩
        · cases hending
      · exact absurd hending (open_reserveNext _ _ _ _ result)

end Tender
end KnowledgeBrain
