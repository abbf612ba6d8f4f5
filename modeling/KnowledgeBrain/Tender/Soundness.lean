import KnowledgeBrain.Tender.Machine

/-!
# One command at a time

A run that is pending or running has exactly one command that is still to be
finished, and any other run has none.  The invariant also carries what the
limits on attempts rest on: a command was started at most once more than it
failed, and only while the lease still names it.
-/

namespace KnowledgeBrain
namespace Tender

open Foundation

/-!
# The invariant
-/

/-- The command is one of the run's that is still to be finished. -/
structure Store.Live (s : Store) (runId id : String) (c : Command) : Prop where
  stored : s.commands.lookup id = some c
  owner : c.runId = runId
  live : c.status.isLive = true

/-- What holds of the one live command of a run. -/
structure CommandSound (r : Run) (id : String) (c : Command) : Prop where
  version : c.sourceVersion = r.sourceVersion
  revision : c.domainRevision = r.domainRevision
  failures : c.infrastructureFailures < 4
  held : r.leaseCommandId = some id -> c.executionCount ≤ c.infrastructureFailures + 1
  free : r.leaseCommandId ≠ some id -> c.executionCount ≤ c.infrastructureFailures

structure RunSound (s : Store) (runId : String) (r : Run) : Prop where
  busy : r.status.isBusy = true -> exists id c, s.Live runId id c ∧
    forall id' c', s.Live runId id' c' -> id' = id
  idle : r.status.isBusy = false -> forall id c, ¬ s.Live runId id c
  current : forall id c, s.Live runId id c -> CommandSound r id c
  lease : s.leaseLive r = true -> exists id c, r.leaseCommandId = some id ∧
    s.Live runId id c ∧ c.status = .running

structure Sound (s : Store) : Prop where
  runs : forall runId r, s.runs.lookup runId = some r -> RunSound s runId r
  owners : forall id c, s.commands.lookup id = some c ->
    exists r, s.runs.lookup c.runId = some r
  counts : forall id c, s.commands.lookup id = some c -> c.executionCount ≤ 4

/-- The live commands of a run are this one. -/
def Store.Only (s : Store) (runId id : String) (c : Command) : Prop :=
  forall id' c', s.Live runId id' c' <-> id' = id ∧ c' = c

def Store.Idle (s : Store) (runId : String) : Prop :=
  forall id c, ¬ s.Live runId id c

variable {s s' : Store} {runId id : String} {r : Run} {c : Command}

theorem Store.Only.live (h : s.Only runId id c) : s.Live runId id c :=
  (h id c).mpr ⟨rfl, rfl⟩

theorem CommandSound.count (h : CommandSound r id c) : c.executionCount ≤ 4 := by
  have hfailures := h.failures
  by_cases hlease : r.leaseCommandId = some id
  · have hheld := h.held hlease
    omega
  · have hfree := h.free hlease
    omega

theorem RunSound.of_only (honly : s.Only runId id c) (hbusy : r.status.isBusy = true)
    (hc : CommandSound r id c)
    (hlease : s.leaseLive r = true -> r.leaseCommandId = some id ∧ c.status = .running) :
    RunSound s runId r := by
  refine ⟨?_, ?_, ?_, ?_⟩
  · intro _
    exact ⟨id, c, honly.live, fun id' c' hlive => ((honly id' c').mp hlive).1⟩
  · intro hidle
    rw [hbusy] at hidle
    cases hidle
  · intro id' c' hlive
    obtain ⟨rfl, rfl⟩ := (honly id' c').mp hlive
    exact hc
  · intro hleased
    exact ⟨id, c, (hlease hleased).1, honly.live, (hlease hleased).2⟩

theorem RunSound.of_idle (hidle : s.Idle runId) (hstatus : r.status.isBusy = false)
    (hlease : s.leaseLive r = false) : RunSound s runId r := by
  refine ⟨?_, ?_, ?_, ?_⟩
  · intro hbusy
    rw [hstatus] at hbusy
    cases hbusy
  · intro _
    exact hidle
  · intro id c hlive
    exact absurd hlive (hidle id c)
  · intro hleased
    rw [hlease] at hleased
    cases hleased

theorem RunSound.only (h : RunSound s runId r) (hlive : s.Live runId id c) :
    s.Only runId id c ∧ r.status.isBusy = true := by
  have hbusy : r.status.isBusy = true := by
    by_contra hidle
    exact h.idle (by simpa using hidle) id c hlive
  refine ⟨?_, hbusy⟩
  obtain ⟨only, _, _, hunique⟩ := h.busy hbusy
  intro id' c'
  constructor
  · intro hlive'
    have hid : id' = id := (hunique id' c' hlive').trans (hunique id c hlive).symm
    subst hid
    have hstored := hlive'.stored
    rw [hlive.stored] at hstored
    cases hstored
    exact ⟨rfl, rfl⟩
  · rintro ⟨rfl, rfl⟩
    exact hlive

theorem RunSound.leased (h : RunSound s runId r) (hlive : s.Live runId id c)
    (hlease : s.leaseLive r = true) : r.leaseCommandId = some id ∧ c.status = .running := by
  obtain ⟨id', c', hleased, hlive', hrunning⟩ := h.lease hlease
  obtain ⟨rfl, rfl⟩ := ((h.only hlive).1 id' c').mp hlive'
  exact ⟨hleased, hrunning⟩

/-!
# Steps on one run
-/

/-- Nothing changed but one run and its commands. -/
structure Local (s s' : Store) (runId : String) : Prop where
  now : s'.now = s.now
  runs : forall runId', runId' ≠ runId -> s'.runs.lookup runId' = s.runs.lookup runId'
  commands : forall id c, c.runId ≠ runId ->
    (s'.commands.lookup id = some c <-> s.commands.lookup id = some c)

theorem Local.trans {s'' : Store} (h : Local s s' runId) (h' : Local s' s'' runId) :
    Local s s'' runId :=
  ⟨h'.now.trans h.now, fun runId' hne => (h'.runs runId' hne).trans (h.runs runId' hne),
    fun id c hne => (h'.commands id c hne).trans (h.commands id c hne)⟩

theorem Local.of_eq (hnow : s'.now = s.now) (hruns : s'.runs = s.runs)
    (hcommands : s'.commands = s.commands) : Local s s' runId := by
  refine ⟨hnow, ?_, ?_⟩
  · intro runId' _
    rw [hruns]
  · intro id c _
    rw [hcommands]

theorem Local.setRun (s : Store) (runId : String) (f : Run -> Run) :
    Local s (s.setRun runId f) runId := by
  refine ⟨rfl, ?_, fun _ _ _ => Iff.rfl⟩
  intro runId' hne
  exact Table.lookup_modify_of_ne s.runs f hne

theorem Local.cancelCommands (s : Store) (runId reason : String) :
    Local s (s.cancelCommands runId reason) runId := by
  refine ⟨rfl, fun _ _ => rfl, ?_⟩
  intro id c hne
  change (s.commands.mapRows _).lookup id = some c <-> _
  rw [Table.lookup_mapRows, Option.map_eq_some_iff]
  constructor
  · rintro ⟨old, hold, heq⟩
    split at heq
    · rename_i hcancel
      rw [Bool.and_eq_true, beq_iff_eq] at hcancel
      rw [← heq] at hne
      exact absurd hcancel.1 hne
    · rwa [← heq]
  · intro hold
    refine ⟨c, hold, ?_⟩
    rw [if_neg]
    simp [hne]

theorem Local.command {commandId : String} {key : RevisionKey} {kind : CommandKind}
    {payload : Payload} (h : s.command commandId key kind payload = .ok (c, s')) :
    Local s s' key.runId := by
  obtain ⟨_, hfree, h⟩ := bind_eq_ok h
  cases h
  refine ⟨rfl, fun _ _ => rfl, ?_⟩
  intro id c hne
  rw [Table.lookup_insertNew_eq_or]
  constructor
  · intro hlookup
    rcases Option.or_eq_some_iff.mp hlookup with hold | ⟨_, hnew⟩
    · exact hold
    · split at hnew
      · cases hnew
        exact absurd rfl hne
      · cases hnew
  · intro hold
    rw [hold]
    rfl

theorem Local.live {runId' : String} (h : Local s s' runId) (hne : runId' ≠ runId) :
    s'.Live runId' id c <-> s.Live runId' id c := by
  constructor
  · intro hlive
    have howner : c.runId ≠ runId := by
      rw [hlive.owner]
      exact hne
    exact ⟨(h.commands id c howner).mp hlive.stored, hlive.owner, hlive.live⟩
  · intro hlive
    have howner : c.runId ≠ runId := by
      rw [hlive.owner]
      exact hne
    exact ⟨(h.commands id c howner).mpr hlive.stored, hlive.owner, hlive.live⟩

theorem Local.leaseLive (h : Local s s' runId) (r : Run) : s'.leaseLive r = s.leaseLive r := by
  rw [Store.leaseLive, Store.leaseLive, h.now]

theorem RunSound.congr (h : RunSound s runId r)
    (hlive : forall id c, s'.Live runId id c <-> s.Live runId id c)
    (hlease : s'.leaseLive r = true -> s.leaseLive r = true) : RunSound s' runId r := by
  refine ⟨?_, ?_, ?_, ?_⟩
  · intro hbusy
    obtain ⟨id, c, hcommand, hunique⟩ := h.busy hbusy
    exact ⟨id, c, (hlive id c).mpr hcommand,
      fun id' c' hcommand' => hunique id' c' ((hlive id' c').mp hcommand')⟩
  · intro hidle id c hcommand
    exact h.idle hidle id c ((hlive id c).mp hcommand)
  · intro id c hcommand
    exact h.current id c ((hlive id c).mp hcommand)
  · intro hleased
    obtain ⟨id, c, hheld, hcommand, hrunning⟩ := h.lease (hlease hleased)
    exact ⟨id, c, hheld, (hlive id c).mpr hcommand, hrunning⟩

/-- A step on one run is sound if it leaves that run sound. -/
theorem Sound.of_local (h : Sound s) (hlocal : Local s s' runId)
    (hrun : forall r, s'.runs.lookup runId = some r -> RunSound s' runId r)
    (hcommands : forall id c, s'.commands.lookup id = some c -> c.runId = runId ->
      (exists r, s'.runs.lookup runId = some r) ∧ c.executionCount ≤ 4) : Sound s' := by
  refine ⟨?_, ?_, ?_⟩
  · intro runId' r hlookup
    by_cases hid : runId' = runId
    · subst hid
      exact hrun r hlookup
    · rw [hlocal.runs runId' hid] at hlookup
      apply (h.runs runId' r hlookup).congr fun id c => hlocal.live hid
      intro hlease
      rwa [hlocal.leaseLive] at hlease
  · intro id c hlookup
    by_cases howner : c.runId = runId
    · rw [howner]
      exact (hcommands id c hlookup howner).1
    · rw [hlocal.runs _ howner]
      exact h.owners id c ((hlocal.commands id c howner).mp hlookup)
  · intro id c hlookup
    by_cases howner : c.runId = runId
    · exact (hcommands id c hlookup howner).2
    · exact h.counts id c ((hlocal.commands id c howner).mp hlookup)

/-- One run and one command have new rows. -/
structure Rewrites (s s' : Store) (runId id : String) (r' : Run) (c' : Command) : Prop where
  now : s'.now = s.now
  runs : forall runId', s'.runs.lookup runId' =
    if runId' = runId then some r' else s.runs.lookup runId'
  commands : forall id', s'.commands.lookup id' =
    if id' = id then some c' else s.commands.lookup id'

variable {r' : Run} {c' : Command}

theorem Rewrites.local_of_live (h : Rewrites s s' runId id r' c') (hlive : s.Live runId id c)
    (howner : c'.runId = runId) : Local s s' runId := by
  refine ⟨h.now, ?_, ?_⟩
  · intro runId' hne
    rw [h.runs, if_neg hne]
  · intro id' old hne
    rw [h.commands]
    by_cases hid : id' = id
    · subst hid
      rw [if_pos rfl, hlive.stored]
      constructor
      · intro heq
        cases heq
        exact absurd howner hne
      · intro heq
        cases heq
        exact absurd hlive.owner hne
    · rw [if_neg hid]

theorem Rewrites.commands_cases (h : Rewrites s s' runId id r' c') {id' : String} {old : Command}
    (hlookup : s'.commands.lookup id' = some old) :
    id' = id ∧ old = c' ∨ id' ≠ id ∧ s.commands.lookup id' = some old := by
  rw [h.commands] at hlookup
  split at hlookup
  · rename_i hid
    cases hlookup
    exact Or.inl ⟨hid, rfl⟩
  · rename_i hid
    exact Or.inr ⟨hid, hlookup⟩

theorem Rewrites.run (h : Rewrites s s' runId id r' c') {r : Run}
    (hlookup : s'.runs.lookup runId = some r) : r = r' := by
  rw [h.runs, if_pos rfl] at hlookup
  exact (Option.some.inj hlookup).symm

theorem Rewrites.owned (h : Rewrites s s' runId id r' c') (hsound : Sound s)
    (hcount : c'.executionCount ≤ 4) :
    forall id c, s'.commands.lookup id = some c -> c.runId = runId ->
      (exists r, s'.runs.lookup runId = some r) ∧ c.executionCount ≤ 4 := by
  intro id' old hlookup _
  refine ⟨⟨r', by rw [h.runs, if_pos rfl]⟩, ?_⟩
  rcases h.commands_cases hlookup with ⟨_, rfl⟩ | ⟨_, hold⟩
  · exact hcount
  · exact hsound.counts id' old hold

/-- The live command goes on. -/
theorem Sound.keep (h : Sound s) (hr : s.runs.lookup runId = some r)
    (hlive : s.Live runId id c) (hrewrites : Rewrites s s' runId id r' c')
    (howner : c'.runId = runId) (hlive' : c'.status.isLive = true)
    (hbusy : r'.status.isBusy = true) (hsound : CommandSound r' id c')
    (hlease : s'.leaseLive r' = true -> r'.leaseCommandId = some id ∧ c'.status = .running) :
    Sound s' := by
  obtain ⟨honly, _⟩ := (h.runs runId r hr).only hlive
  apply h.of_local (hrewrites.local_of_live hlive howner) ?_ (hrewrites.owned h hsound.count)
  intro r1 hlookup
  rw [hrewrites.run hlookup]
  refine RunSound.of_only ?_ hbusy hsound hlease
  intro id' old
  constructor
  · intro hold
    rcases hrewrites.commands_cases hold.stored with hsame | ⟨hne, hstored⟩
    · exact hsame
    · exact absurd ((honly id' old).mp ⟨hstored, hold.owner, hold.live⟩).1 hne
  · rintro ⟨rfl, rfl⟩
    exact ⟨by rw [hrewrites.commands, if_pos rfl], howner, hlive'⟩

/-- The live command is finished. -/
theorem Sound.finish (h : Sound s) (hr : s.runs.lookup runId = some r)
    (hlive : s.Live runId id c) (hrewrites : Rewrites s s' runId id r' c')
    (howner : c'.runId = runId) (hdead : c'.status.isLive = false)
    (hidle : r'.status.isBusy = false) (hcount : c'.executionCount = c.executionCount)
    (hlease : s'.leaseLive r' = false) : Sound s' := by
  obtain ⟨honly, _⟩ := (h.runs runId r hr).only hlive
  have hcount4 : c'.executionCount ≤ 4 := by
    rw [hcount]
    exact h.counts id c hlive.stored
  apply h.of_local (hrewrites.local_of_live hlive howner) ?_ (hrewrites.owned h hcount4)
  intro r1 hlookup
  rw [hrewrites.run hlookup]
  refine RunSound.of_idle ?_ hidle hlease
  intro id' old hold
  rcases hrewrites.commands_cases hold.stored with ⟨rfl, rfl⟩ | ⟨hne, hstored⟩
  · have hstill := hold.live
    rw [hdead] at hstill
    cases hstill
  · exact hne ((honly id' old).mp ⟨hstored, hold.owner, hold.live⟩).1

theorem Sound.of_eq (h : Sound s) (hnow : s.now ≤ s'.now) (hruns : s'.runs = s.runs)
    (hcommands : s'.commands = s.commands) : Sound s' := by
  refine ⟨?_, ?_, ?_⟩
  · intro runId r hlookup
    rw [hruns] at hlookup
    apply (h.runs runId r hlookup).congr
    · intro id c
      constructor
      · rintro ⟨hstored, howner, hlive⟩
        rw [hcommands] at hstored
        exact ⟨hstored, howner, hlive⟩
      · rintro ⟨hstored, howner, hlive⟩
        rw [← hcommands] at hstored
        exact ⟨hstored, howner, hlive⟩
    · intro hlease
      rw [Store.leaseLive, Option.any_eq_true] at hlease ⊢
      obtain ⟨leaseUntil, hsome, hlater⟩ := hlease
      refine ⟨leaseUntil, hsome, ?_⟩
      rw [decide_eq_true_eq] at hlater ⊢
      exact Nat.lt_of_le_of_lt hnow hlater
  · rw [hruns, hcommands]
    exact h.owners
  · rw [hcommands]
    exact h.counts

/-!
# Replacing the work of a run
-/

theorem Store.idle_cancelCommands (s : Store) (runId reason : String) :
    (s.cancelCommands runId reason).Idle runId := by
  rintro id c ⟨hstored, howner, hlive⟩
  change (s.commands.mapRows _).lookup id = some c at hstored
  rw [Table.lookup_mapRows, Option.map_eq_some_iff] at hstored
  obtain ⟨old, _, heq⟩ := hstored
  split at heq
  · rw [← heq] at hlive
    cases hlive
  · rename_i hkept
    rw [heq, howner, hlive] at hkept
    simp at hkept

theorem Store.count_cancelCommands {reason : String}
    (hlookup : (s.cancelCommands runId reason).commands.lookup id = some c) :
    exists old, s.commands.lookup id = some old ∧ c.executionCount = old.executionCount := by
  change (s.commands.mapRows _).lookup id = some c at hlookup
  rw [Table.lookup_mapRows, Option.map_eq_some_iff] at hlookup
  obtain ⟨old, hold, heq⟩ := hlookup
  refine ⟨old, hold, ?_⟩
  split at heq
  · rw [← heq]
    rfl
  · rw [heq]

/-- A run without live commands, in whatever status. -/
structure Vacant (s s' : Store) (runId : String) (r : Run) : Prop where
  locally : Local s s' runId
  idle : s'.Idle runId
  run : s'.runs.lookup runId = some r
  free : s'.leaseLive r = false
  counts : forall id c, s'.commands.lookup id = some c -> c.executionCount ≤ 4

theorem Vacant.sound (h : Sound s) (hvacant : Vacant s s' runId r)
    (hstatus : r.status.isBusy = false) : Sound s' := by
  apply h.of_local hvacant.locally
  · intro r1 hlookup
    rw [hvacant.run] at hlookup
    cases hlookup
    exact RunSound.of_idle hvacant.idle hstatus hvacant.free
  · intro id c hlookup _
    exact ⟨⟨r, hvacant.run⟩, hvacant.counts id c hlookup⟩

/-- A new command for a run that has none. -/
theorem Vacant.command (h : Sound s) (hvacant : Vacant s s' runId r) {s'' : Store}
    {commandId : String} {key : RevisionKey} {kind : CommandKind} {payload : Payload}
    (hcommand : s'.command commandId key kind payload = .ok (c, s''))
    (hbusy : r.status.isBusy = true) (hrun : key.runId = runId)
    (hversion : key.sourceVersion = r.sourceVersion)
    (hrevision : key.domainRevision = r.domainRevision) : Sound s'' := by
  have hlocal : Local s s'' runId := by
    apply hvacant.locally.trans
    rw [← hrun]
    exact Local.command hcommand
  obtain ⟨_, hfree, hcommand⟩ := bind_eq_ok hcommand
  have hnone : s'.commands.lookup commandId = none := by
    have hcontains := reject_eq_ok.mp hfree
    rw [Table.contains] at hcontains
    simpa using hcontains
  cases hcommand
  have hcases : forall {id c}, (s'.commands.insertNew commandId
      (s'.newCommand key kind payload)).lookup id = some c ->
      id = commandId ∧ c = s'.newCommand key kind payload ∨
        s'.commands.lookup id = some c := by
    intro id c hlookup
    rw [Table.lookup_insertNew, hnone] at hlookup
    split at hlookup
    · rename_i hid
      cases hlookup
      exact Or.inl ⟨hid, rfl⟩
    · exact Or.inr hlookup
  have honly : Store.Only
      { s' with
        commands := s'.commands.insertNew commandId (s'.newCommand key kind payload) }
      runId commandId (s'.newCommand key kind payload) := by
    intro id c
    constructor
    · intro hlive
      rcases hcases hlive.stored with hnew | hold
      · exact hnew
      · exact absurd ⟨hold, hlive.owner, hlive.live⟩ (hvacant.idle id c)
    · rintro ⟨rfl, rfl⟩
      refine ⟨?_, hrun, rfl⟩
      rw [Table.lookup_insertNew, if_pos rfl, hnone]
      rfl
  apply h.of_local hlocal
  · intro r1 hlookup
    change s'.runs.lookup runId = some r1 at hlookup
    rw [hvacant.run] at hlookup
    cases hlookup
    refine RunSound.of_only honly hbusy ?_ ?_
    · exact ⟨hversion, hrevision, by simp [Store.newCommand],
        fun _ => Nat.zero_le _, fun _ => Nat.le_refl 0⟩
    · intro hlease
      change s'.leaseLive r = true at hlease
      rw [hvacant.free] at hlease
      cases hlease
  · intro id c hlookup _
    refine ⟨⟨r, hvacant.run⟩, ?_⟩
    rcases hcases hlookup with ⟨_, rfl⟩ | hold
    · exact Nat.zero_le 4
    · exact hvacant.counts id c hold

end Tender
end KnowledgeBrain
