import KnowledgeBrain.Editor.Effects

/-!
# No upload is abandoned

A call owes an upload that it has staged until the upload is used or its expiry
is requested.  Along the text of each handler the call owes nothing or one
upload, and what other calls do never takes a discharge back.
-/

namespace KnowledgeBrain
namespace Editor

open Foundation
open Workflow (Uuid Time)

/-!
# Debts
-/

/-- Every upload that a call has staged is discharged, one perhaps excepted. -/
def Owes (i : Nat) (debt : Option Uuid) (w : World) : Prop :=
  forall upload, (i, upload) ∈ w.staged -> debt = some upload ∨ Discharged w upload

/-- What was used or asked for stays so. -/
structure Grows (w w' : World) : Prop where
  published : forall {x}, x ∈ w.published -> x ∈ w'.published
  inserted : forall {x}, x ∈ w.inserted -> x ∈ w'.inserted
  requested : forall {x}, x ∈ w.requested -> x ∈ w'.requested

theorem grows_refl (w : World) : Grows w w :=
  ⟨id, id, id⟩

theorem Grows.discharged {w w' : World} (h : Grows w w') {upload : Uuid}
    (hupload : Discharged w upload) : Discharged w' upload := by
  rcases hupload with ⟨version, hpublished, hinserted⟩ | hrequested
  · exact Or.inl ⟨version, h.published hpublished, h.inserted hinserted⟩
  · exact Or.inr (h.requested hrequested)

theorem grows_commit (w : World) (work : Work) : Grows w (w.commit work) :=
  ⟨List.mem_append_right _, List.mem_append_right _, id⟩

theorem grows_stageUpload (w : World) (i : Nat) (choice : Choice) (blob : Blob) (owner : Uuid) :
    Grows w (w.stageUpload i choice blob owner).2 := by
  unfold World.stageUpload
  split
  · exact grows_refl w
  · cases choice.fault with
    | none => exact ⟨id, id, id⟩
    | failed => exact ⟨id, id, id⟩
    | lost => exact ⟨id, id, id⟩

theorem grows_expireUpload (w : World) (choice : Choice) (blob : Blob) (owner : Uuid) :
    Grows w (w.expireUpload choice blob owner).2 := by
  unfold World.expireUpload
  split
  · exact ⟨id, id, List.mem_cons_of_mem _⟩
  · cases choice.fault with
    | none => exact ⟨id, id, List.mem_cons_of_mem _⟩
    | failed => exact ⟨id, id, List.mem_cons_of_mem _⟩
    | lost => exact ⟨id, id, List.mem_cons_of_mem _⟩

/-- The upload that an operation stages. -/
def Op.stages : Op -> Option Uuid
  | .stageObjectUpload blob _ => some blob.staging
  | _ => none

theorem act_grows (w : World) (i : Nat) (choice : Choice) (op : Op) :
    Grows w (w.act i choice op).2 := by
  cases op with
  | stageObjectUpload blob owner =>
      exact grows_stageUpload w i choice blob owner
  | requestExpiry blob owner =>
      exact grows_expireUpload w choice blob owner
  | transaction t =>
      show Grows w (((t.run w.now choice w.db).committed.map w.commit).getD w)
      cases (t.run w.now choice w.db).committed with
      | none => exact grows_refl w
      | some work => exact grows_commit w work
  | _ => exact grows_refl w

/-- Uploads are staged by the operation for it only, under the number of the call. -/
theorem act_staged {w : World} {i j : Nat} {choice : Choice} {op : Op} {upload : Uuid}
    (h : (i, upload) ∈ (w.act j choice op).2.staged) :
    (i, upload) ∈ w.staged ∨ (j = i ∧ op.stages = some upload) := by
  cases op with
  | stageObjectUpload blob owner =>
      change (i, upload) ∈ (w.stageUpload j choice blob owner).2.staged at h
      unfold World.stageUpload at h
      split at h
      · exact Or.inl h
      · have hcons : (i, upload) ∈ (j, blob.staging) :: w.staged ->
            (i, upload) ∈ w.staged ∨ (j = i ∧ some blob.staging = some upload) := by
          intro hmem
          rcases List.mem_cons.mp hmem with heq | hmem
          · cases heq
            exact Or.inr ⟨rfl, rfl⟩
          · exact Or.inl hmem
        cases hfault : choice.fault with
        | none =>
            rw [hfault] at h
            exact hcons h
        | failed =>
            rw [hfault] at h
            exact Or.inl h
        | lost =>
            rw [hfault] at h
            exact hcons h
  | requestExpiry blob owner =>
      change (i, upload) ∈ (w.expireUpload choice blob owner).2.staged at h
      unfold World.expireUpload at h
      split at h
      · exact Or.inl h
      · cases hfault : choice.fault with
        | none =>
            rw [hfault] at h
            exact Or.inl h
        | failed =>
            rw [hfault] at h
            exact Or.inl h
        | lost =>
            rw [hfault] at h
            exact Or.inl h
  | transaction t =>
      change (i, upload) ∈ (((t.run w.now choice w.db).committed.map w.commit).getD w).staged at h
      cases hcommitted : (t.run w.now choice w.db).committed with
      | none =>
          rw [hcommitted] at h
          exact Or.inl h
      | some work =>
          rw [hcommitted] at h
          exact Or.inl h
  | _ => exact Or.inl h

theorem owes_act {w : World} {i j : Nat} {choice : Choice} {op : Op} {debt : Option Uuid}
    (h : Owes i debt w) (hquiet : j ≠ i ∨ op.stages = none) :
    Owes i debt (w.act j choice op).2 := by
  intro upload hmem
  rcases act_staged hmem with hmem | ⟨hsame, hstages⟩
  · rcases h upload hmem with hdebt | hdischarged
    · exact Or.inl hdebt
    · exact Or.inr ((act_grows w j choice op).discharged hdischarged)
  · rcases hquiet with hother | hnone
    · exact absurd hsame hother
    · rw [hnone] at hstages
      cases hstages

theorem stable_owes (i : Nat) (debt : Option Uuid) : Stable machine i (Owes i debt) where
  others := by
    intro w w' hothers h upload hmem
    rw [hothers.staged] at hmem
    rcases h upload hmem with hdebt | hdischarged
    · exact Or.inl hdebt
    · refine Or.inr ?_
      unfold Discharged
      rw [hothers.published, hothers.inserted, hothers.requested]
      exact hdischarged
  act := fun hne _ _ _ h => owes_act h (Or.inl hne)

theorem owes_none {i : Nat} {upload : Uuid} {w : World} (h : Owes i (some upload) w)
    (hdischarged : Discharged w upload) : Owes i none w := by
  intro other hmem
  rcases h other hmem with hdebt | hother
  · cases hdebt
    exact Or.inr hdischarged
  · exact Or.inr hother

/-!
# Handlers
-/

/-- In the end a call owes nothing. -/
def Settled {A : Type} (i : Nat) (_ : A) (P : World -> Prop) : Prop :=
  forall w, P w -> Owes i none w

variable (services : Services)

section Rules

variable {A B : Type} {i : Nat} {debt : Option Uuid}
  {final : Except ApiErr A -> (World -> Prop) -> Prop}

theorem keeps_perform {op : Op} (h : op.stages = none) :
    Keeps machine i (Owes i debt) (Program.perform op : Program Op Reply (Reply op)) :=
  ⟨fun _ _ howes => owes_act howes (Or.inr h), fun _ => trivial⟩

theorem keeps_readVersion (project version : Uuid) :
    Keeps machine i (Owes i debt) (readVersion project version).run := by
  apply keeps_try
  · exact keeps_perform rfl
  · intro row
    cases row with
    | none => trivial
    | some row => trivial

theorem keeps_verifySession (cap : Capability) :
    Keeps machine i (Owes i debt) (verifySession cap).run := by
  apply keeps_try
  · exact keeps_perform rfl
  · intro valid
    cases valid with
    | false => trivial
    | true => trivial

theorem keeps_download (what failed : String) (url : Option String) :
    Keeps machine i (Owes i debt) (download services what failed url).run := by
  cases url with
  | none => trivial
  | some url =>
      apply keeps_try
      · trivial
      · intro target
        apply keeps_try
        · exact keeps_perform rfl
        · intro response
          cases response with
          | none => trivial
          | some response =>
              by_cases hsuccess : response.success = false
              · simp only [if_pos hsuccess]
                trivial
              · simp only [if_neg hsuccess]
                trivial

/-- Expiry settles the debt. -/
theorem holds_expire {allowed : Nat -> Choice -> World -> Op -> Prop}
    {final : Unit -> (World -> Prop) -> Prop} {blob : Blob} {owner : Uuid}
    (h : final () (Owes i none)) :
    Holds machine allowed i final (expire blob owner) (Owes i (some blob.staging)) := by
  intro choice w howes _
  have hgrows : Owes i (some blob.staging) (w.expireUpload choice blob owner).2 :=
    @owes_act w i i choice (Op.requestExpiry blob owner) _ howes (Or.inr rfl)
  have hrequested : blob.staging ∈ (w.expireUpload choice blob owner).2.requested := by
    unfold World.expireUpload
    split
    · exact List.mem_cons_self
    · cases choice.fault with
      | none => exact List.mem_cons_self
      | failed => exact List.mem_cons_self
      | lost => exact List.mem_cons_self
  refine ⟨Owes i none, stable_owes i none, owes_none hgrows (Or.inr hrequested), ?_⟩
  intro choice' w' howes' _
  exact ⟨Owes i none, stable_owes i none,
    @owes_act w' i i choice' (Op.scheduleCleanup blob.staging) _ howes' (Or.inr rfl), h⟩

/-- What is staged with a confirmation is owed. -/
theorem holds_stageObjectUpload {blob : Blob} {owner : Uuid}
    {final : Except ApiErr Unit -> (World -> Prop) -> Prop}
    (hok : forall u, final (.ok u) (Owes i (some blob.staging)))
    (herror : forall e, final (.error e) (Owes i none)) :
    Holds machine Undisturbed i final (stageObjectUpload blob owner).run (Owes i none) := by
  intro choice w howes hconfirmed
  have hstaged : Owes i (some blob.staging) (w.stageUpload i choice blob owner).2 := by
    intro upload hmem
    rcases @act_staged w i i choice (Op.stageObjectUpload blob owner) upload hmem with
      hmem | ⟨_, hstages⟩
    · rcases howes upload hmem with hdebt | hdischarged
      · cases hdebt
      · exact Or.inr ((grows_stageUpload w i choice blob owner).discharged hdischarged)
    · exact Or.inl hstages
  show exists Q, Stable machine i Q ∧ Q (w.stageUpload i choice blob owner).2 ∧
    final (w.stageUpload i choice blob owner).1 Q
  unfold World.stageUpload at hstaged ⊢
  cases hrow : w.db.registry.stageObjectUpload w.now blob.staging blob.identity (some owner) with
  | error e =>
      exact ⟨Owes i none, stable_owes i none, howes, herror _⟩
  | ok registry =>
      rw [hrow] at hstaged
      cases hfault : choice.fault with
      | none =>
          rw [hfault] at hstaged
          exact ⟨_, stable_owes i (some blob.staging), hstaged, hok _⟩
      | failed =>
          exact ⟨Owes i none, stable_owes i none, howes, herror _⟩
      | lost =>
          exact absurd hfault hconfirmed

theorem holds_stage {services : Services} {bytes : Bytes} {owner : Uuid}
    {final : Except ApiErr Blob -> (World -> Prop) -> Prop}
    (hok : forall blob : Blob, final (.ok blob) (Owes i (some blob.staging)))
    (herror : forall e, final (.error e) (Owes i none)) :
    Holds machine Undisturbed i final (stage services bytes owner).run (Owes i none) := by
  apply holds_lift
  apply holds_of_keeps (stable_owes i none) (keeps_perform rfl)
  intro staging
  apply holds_try
  apply holds_stageObjectUpload
  · intro _
    apply holds_lift
    apply holds_of_keeps (stable_owes i _) (keeps_perform rfl)
    intro written
    cases written with
    | ok _ =>
        exact hok _
    | error _ =>
        apply holds_lift
        apply holds_expire
        exact herror _
  · exact herror

/-- What a transaction leaves to be discharged. -/
theorem holds_outcome {t : Transaction} {blob : Blob}
    {final : Except ApiErr (Except ApiErr t.Result) -> (World -> Prop) -> Prop}
    (h : forall choice w, Undisturbed i choice w (.transaction t) ->
      final (.ok (t.run w.now choice w.db).result) (Owes i (some blob.staging)) ∨
        ((exists work, (t.run w.now choice w.db).committed = some work ∧ Used blob work) ∧
          final (.ok (t.run w.now choice w.db).result) (Owes i none))) :
    Holds machine Undisturbed i final (outcomeOf t).run (Owes i (some blob.staging)) := by
  intro choice w howes hundisturbed
  have hkept : Owes i (some blob.staging) (w.act i choice (.transaction t)).2 :=
    owes_act howes (Or.inr rfl)
  rcases h choice w hundisturbed with hfinal | ⟨⟨work, hcommitted, version, hused⟩, hfinal⟩
  · exact ⟨_, stable_owes i (some blob.staging), hkept, hfinal⟩
  · refine ⟨_, stable_owes i none, owes_none hkept ?_, hfinal⟩
    left
    refine ⟨version, ?_⟩
    show (blob.staging, version) ∈
        (((t.run w.now choice w.db).committed.map w.commit).getD w).published ∧
      version ∈ (((t.run w.now choice w.db).committed.map w.commit).getD w).inserted
    rw [hcommitted]
    exact ⟨List.mem_append_left _ hused.1, List.mem_append_left _ hused.2⟩

end Rules

/-!
# Calls
-/

/-- A step that stages nothing, and whose error is the answer. -/
theorem holds_next {i : Nat} {A B : Type} {x : Handler B} {f : B -> Handler A}
    (hkeeps : Keeps machine i (Owes i none) x.run)
    (h : forall b, Holds machine Undisturbed i (Settled i) (f b).run (Owes i none)) :
    Holds machine Undisturbed i (Settled i) (x >>= f).run (Owes i none) :=
  holds_after (stable_owes i none) hkeeps (fun _ _ howes => howes) h

theorem holds_check {i : Nat} {A B : Type} {x : Except ApiErr A} {f : A -> Handler B}
    (h : forall a, Holds machine Undisturbed i (Settled i) (f a).run (Owes i none)) :
    Holds machine Undisturbed i (Settled i) ((liftM x : Handler A) >>= f).run (Owes i none) := by
  refine holds_next ?_ h
  cases x with
  | error e => trivial
  | ok a => trivial

theorem holds_importGenerated (i : Nat) (project : Uuid) (execution : String) (bytes : Bytes)
    (owner : Uuid) :
    Holds machine Undisturbed i (Settled i)
      ((importGenerated services project execution bytes owner) >>= fun _ => pure () :
        Handler Unit).run (Owes i none) := by
  apply holds_try
  apply holds_after (stable_owes i none) (keeps_perform rfl)
  · exact fun _ _ howes => howes
  · intro existing
    cases existing with
    | some existing =>
        apply holds_after (stable_owes i none) (keeps_readVersion project existing)
        · exact fun _ _ howes => howes
        · intro previous
          by_cases hsame : previous.contentSha256 ≠ services.sha256 bytes
          · simp only [if_pos hsame]
            exact fun _ howes => howes
          · simp only [if_neg hsame]
            exact fun _ howes => howes
    | none =>
        apply holds_after (stable_owes i none) (keeps_perform rfl)
        · exact fun _ _ howes => howes
        · intro outline
          apply holds_try
          apply holds_stage
          · intro blob
            apply holds_try
            apply @holds_outcome i (.importGenerated project execution outline blob owner) blob
            intro choice w _
            cases hresult : (Transaction.run w.now choice w.db
                (.importGenerated project execution outline blob owner)).result with
            | error e =>
                left
                apply holds_lift
                apply holds_expire
                exact fun _ howes => howes
            | ok outcome =>
                rcases outcome with ⟨version, published⟩
                rcases runTransaction_ok hresult with ⟨_, ending, work, hbody, hending⟩
                have himport := importTransaction_ok hbody
                rcases hending with ⟨rfl, hcommitted⟩ | rfl | rfl
                · right
                  rcases himport with ⟨hpublished, hused⟩
                  refine ⟨⟨work, hcommitted, hused⟩, ?_⟩
                  have hnot : published ≠ false := by
                    rw [show published = true from hpublished]
                    decide
                  show Holds machine Undisturbed i _ (ExceptT.run
                    (if published = false then _ else _)) _
                  rw [if_neg hnot]
                  apply holds_of_keeps (stable_owes i none) (keeps_readVersion project version)
                  intro result
                  cases result with
                  | error e => exact fun _ howes => howes
                  | ok row => exact fun _ howes => howes
                · left
                  have hnot : published = false := himport
                  show Holds machine Undisturbed i _ (ExceptT.run
                    (if published = false then _ else _)) _
                  rw [if_pos hnot]
                  apply holds_lift
                  apply holds_expire
                  apply holds_of_keeps (stable_owes i none) (keeps_readVersion project version)
                  intro result
                  cases result with
                  | error e => exact fun _ howes => howes
                  | ok row => exact fun _ howes => howes
                · exact himport.elim
          · exact fun _ _ howes => howes

theorem holds_recoverFinal (i : Nat) (cap : Capability) (body : CallbackBody) :
    Holds machine Undisturbed i (Settled i) (recoverFinal services cap body).run
      (Owes i none) := by
  apply holds_check
  intro callbackSha
  apply holds_next (keeps_perform rfl)
  intro previous
  cases previous with
  | some previous =>
      by_cases hsame : previous.callbackSha256 = callbackSha
      · simp only [if_pos hsame]
        exact fun _ howes => howes
      · simp only [if_neg hsame]
        exact fun _ howes => howes
  | none =>
      apply holds_next (keeps_verifySession cap)
      intro _
      apply holds_next (keeps_download services _ _ body.url)
      intro bytes
      apply holds_next (keeps_readVersion cap.project cap.version)
      intro origin
      apply holds_next (keeps_perform rfl)
      intro outline
      apply holds_try
      apply holds_stage
      · intro blob
        apply holds_try
        apply @holds_outcome i (.recoverFinal cap callbackSha outline blob) blob
        intro choice w _
        cases hresult : (Transaction.run w.now choice w.db
            (.recoverFinal cap callbackSha outline blob)).result with
        | error e =>
            left
            apply holds_lift
            apply holds_expire
            exact fun _ howes => howes
        | ok published =>
            rcases runTransaction_ok hresult with ⟨_, ending, work, hbody, hending⟩
            have hrecover := recoverTransaction_ok hbody
            rcases hending with ⟨rfl, hcommitted⟩ | rfl | rfl
            · right
              rcases hrecover with ⟨hpublished, hused⟩
              refine ⟨⟨work, hcommitted, hused⟩, ?_⟩
              rw [show published = true from hpublished]
              exact fun _ howes => howes
            · exact hrecover.elim
            · left
              rw [show published = false from hrecover]
              apply holds_lift
              apply holds_expire
              exact fun _ howes => howes
      · exact fun _ _ howes => howes

theorem holds_saveCallback (i : Nat) (cap : Capability) (save : Uuid) (callbackSha : String)
    (body : CallbackBody) :
    Holds machine Undisturbed i (Settled i) (saveCallback services cap save callbackSha body).run
      (Owes i none) := by
  apply holds_next (keeps_download services _ _ body.url)
  intro bytes
  apply holds_next (keeps_readVersion cap.project cap.version)
  intro origin
  apply holds_next (keeps_perform rfl)
  intro outline
  apply holds_try
  apply holds_stage
  · intro blob
    apply holds_try
    apply @holds_outcome i (.publishSave save cap callbackSha outline blob) blob
    intro choice w hundisturbed
    cases hresult : (Transaction.run w.now choice w.db
        (.publishSave save cap callbackSha outline blob)).result with
    | error e =>
        left
        apply holds_lift
        apply holds_expire
        exact fun _ howes => howes
    | ok u =>
        rcases runTransaction_ok hresult with ⟨hfault, ending, work, hbody, hending⟩
        have hsave := saveTransaction_ok hbody
        rcases hending with ⟨rfl, hcommitted⟩ | rfl | rfl
        · right
          exact ⟨⟨work, hcommitted, hsave⟩, fun _ howes => howes⟩
        · exact hsave.elim
        · -- only a replay is dropped
          rcases hsave with ⟨hfaults, hlocked, hrow⟩
          refine absurd ⟨?_, hlocked, hrow⟩ hundisturbed
          intro fault hmem
          rw [show 3 = 1 + 2 from rfl, List.take_add] at hmem
          rcases List.mem_append.mp hmem with hmem | hmem
          · exact hfault fault hmem
          · exact hfaults fault hmem
  · exact fun _ _ howes => howes

theorem holds_quiet {i : Nat} {A : Type} {program : Program Op Reply (Except ApiErr A)}
    (h : Keeps machine i (Owes i none) program) :
    Holds machine Undisturbed i (Settled i) program (Owes i none) :=
  holds_of_keeps (stable_owes i none) h fun _ _ howes => howes

theorem holds_pending (i : Nat) (callback : Callback) (cap : Capability) (status : Int)
    (save : Uuid) (callbackSha : String) (previous : Option Save) :
    Holds machine Undisturbed i (Settled i) (match previous with
      | some row =>
          if row.state = .saved then
            if row.callbackSha256 = some callbackSha then pure ()
            else throw (conflict "callback replay content changed")
          else do
            verifySession cap
            if row.state ≠ .pending then throw (conflict "Word save is not pending")
            else if status = 7 then
              recordFailure callback.project callback.key save "callback" 7
            else saveCallback services cap save callbackSha callback.body
      | none => do
          verifySession cap
          throw (conflict "Word save is not pending") : Handler Unit).run (Owes i none) := by
  cases previous with
  | none =>
      apply holds_next (keeps_verifySession cap)
      exact fun _ _ howes => howes
  | some row =>
      by_cases hsaved : row.state = .saved
      · simp only [if_pos hsaved]
        by_cases hsame : row.callbackSha256 = some callbackSha
        · rw [if_pos hsame]
          exact fun _ howes => howes
        · rw [if_neg hsame]
          exact fun _ howes => howes
      · simp only [if_neg hsaved]
        apply holds_next (keeps_verifySession cap)
        intro _
        by_cases hpending : row.state ≠ .pending
        · rw [if_pos hpending]
          exact fun _ howes => howes
        · rw [if_neg hpending]
          by_cases hfailed : status = 7
          · rw [if_pos hfailed]
            exact holds_quiet (keeps_perform rfl)
          · rw [if_neg hfailed]
            exact holds_saveCallback services i cap save callbackSha callback.body

theorem holds_callbackInner (i : Nat) (callback : Callback) :
    Holds machine Undisturbed i (Settled i) (callbackInner services callback).run
      (Owes i none) := by
  unfold callbackInner
  apply holds_check
  intro cap
  by_cases hmode : cap.mode ≠ .edit
  · rw [if_pos hmode]
    exact fun _ howes => howes
  rw [if_neg hmode]
  apply holds_check
  intro signed
  by_cases hsigned : signed ≠ callback.body.canonical
  · simp only [if_pos hsigned]
    exact fun _ howes => howes
  simp only [if_neg hsigned]
  apply holds_check
  intro key
  by_cases hkey : key ≠ callback.key
  · rw [if_pos hkey]
    exact fun _ howes => howes
  rw [if_neg hkey]
  cases callback.body.status with
  | none =>
      exact fun _ howes => howes
  | some status =>
      by_cases hopened : status = 1
      · simp only [if_pos hopened]
        exact holds_quiet (keeps_verifySession cap)
      simp only [if_neg hopened]
      by_cases hclosed : status = 4
      · rw [if_pos hclosed]
        apply holds_next (keeps_verifySession cap)
        exact fun _ => holds_quiet (keeps_perform rfl)
      rw [if_neg hclosed]
      by_cases hfinal : status = 2
      · rw [if_pos hfinal]
        exact holds_recoverFinal services i cap callback.body
      rw [if_neg hfinal]
      by_cases hforced : ¬ (status = 6 ∨ status = 7) ∨ callback.body.forcesavetype ≠ some 0
      · rw [if_pos hforced]
        exact fun _ howes => howes
      rw [if_neg hforced]
      apply holds_check
      intro save
      apply holds_check
      intro callbackSha
      apply holds_next (keeps_perform rfl)
      exact fun previous =>
        holds_pending services i callback cap status save callbackSha previous

/-- Every call that returns has discharged what it staged, in every run without a lost
confirmation of a staged upload and without a save that is replayed in its transaction. -/
theorem uploads_discharged (services : Services) (requests : List Request) (w : World)
    (hnone : w.staged = []) (c : Configuration Op Reply World (Except ApiErr Unit))
    (hruns : Runs machine Undisturbed ⟨w, requests.map (Request.handler services)⟩ c) (i : Nat)
    (answer : Except ApiErr Unit) (hdone : c.programs[i]? = some (.done answer)) (upload : Uuid)
    (hstaged : (i, upload) ∈ c.state.staged) : Discharged c.state upload := by
  have hstart : Placed machine Undisturbed (fun i => Settled (A := Except ApiErr Unit) i)
      ⟨w, requests.map (Request.handler services)⟩ := by
    intro i program hprogram
    refine ⟨Owes i none, stable_owes i none, ?_, ?_⟩
    · intro upload hmem
      change (i, upload) ∈ w.staged at hmem
      rw [hnone] at hmem
      cases hmem
    · change (requests.map (Request.handler services))[i]? = some program at hprogram
      rw [List.getElem?_map] at hprogram
      rcases Option.map_eq_some_iff.mp hprogram with ⟨request, _, rfl⟩
      cases request with
      | generated project execution bytes owner =>
          exact holds_importGenerated services i project execution bytes owner
      | office callback =>
          exact holds_callbackInner services i callback
      | final cap body =>
          exact holds_recoverFinal services i cap body
  rcases placed_runs hstart hruns i _ hdone with ⟨P, _, hP, hfinal⟩
  rcases hfinal c.state hP upload hstaged with hdebt | hdischarged
  · cases hdebt
  · exact hdischarged

/-!
# A replay
-/

def plainServices : Services where
  sha256 _ := "h"
  digest _ _ _ := .ok "d"
  downloadUrl := .ok

/-- A project with one version, an open editor on it, and a save that is pending. -/
def pendingSave : World where
  db := {
    registry := ⟨Table.empty, Table.empty, Table.empty, Table.empty, Table.empty⟩
    projects := Table.empty.insertNew 1 2
    versions := Table.empty.insertNew 10
      ⟨1, "e", 11, 1, none, .generated, "objects/s", "s", 1, "o", 2⟩
    draftState := Table.empty.insertNew 1 ⟨10, some 20, some 30, none⟩
    saves := Table.empty.insertNew 30 ⟨1, 20, 10, "s", .pending, none, none, none⟩
    recoveries := Table.empty
    sessions := Table.empty.insertNew 20 ⟨1, 10, 2, .edit, none⟩ }
  now := 0
  staged := []
  published := []
  inserted := []
  requested := []

/-- The callback that answers the save. -/
def savedCallback : Request :=
  .office {
    project := 1
    key := 20
    capability := .ok ⟨1, 20, 10, 2, .edit⟩
    signed := .ok "b"
    body := ⟨"b", some 20, some 6, some 0, some 30, some "u"⟩ }

/-- Everything goes well, with a given new identity. -/
def plainChoice (uuid : Uuid) : Choice :=
  ⟨uuid, 12, [], .ok (some ⟨true, .ok [0]⟩), .ok "o"⟩

/-- The callback arrives once. -/
def onceConfiguration : Configuration Op Reply World (Except ApiErr Unit) :=
  ⟨pendingSave, [savedCallback].map (Request.handler plainServices)⟩

def onceSchedule : List (Nat × Choice) :=
  List.replicate 8 (0, plainChoice 41) ++ [(0, plainChoice 51)]

theorem undisturbed_once :
    AllowedAlong machine Undisturbed onceConfiguration onceSchedule := by
  have hconfirmed : (plainChoice 41).fault ≠ .lost := by
    decide
  refine ⟨trivial, trivial, trivial, trivial, trivial, trivial, hconfirmed, trivial, ?_, trivial⟩
  rintro ⟨_, _, row, hrow, hsaved, _⟩
  have hpending : findSave 30 1 20 pendingSave.db =
      some ⟨1, 20, 10, "s", .pending, none, none, none⟩ := by
    decide
  have hsame : some row = some ⟨1, 20, 10, "s", .pending, none, none, none⟩ :=
    hrow.symm.trans hpending
  cases hsame
  cases hsaved

theorem uploads_discharged_once :
    Discharged (follow machine onceConfiguration onceSchedule).state 41 :=
  uploads_discharged plainServices [savedCallback] pendingSave rfl
    (follow machine onceConfiguration onceSchedule) (runs_follow _ _ undisturbed_once) 0 (.ok ())
    (by rfl) 41 (by decide +kernel)

/-- The callback arrives twice, and both calls stage before the first one publishes. -/
def twiceConfiguration : Configuration Op Reply World (Except ApiErr Unit) :=
  ⟨pendingSave, [savedCallback, savedCallback].map (Request.handler plainServices)⟩

def twiceSchedule : List (Nat × Choice) :=
  List.replicate 8 (0, plainChoice 41) ++ List.replicate 8 (1, plainChoice 42) ++
    [(0, plainChoice 51), (1, plainChoice 52)]

theorem replayed_upload_abandoned :
    ¬ forall (services : Services) (requests : List Request) (w : World), w.staged = [] ->
      forall c : Configuration Op Reply World (Except ApiErr Unit),
        Runs machine (fun _ _ _ _ => True) ⟨w, requests.map (Request.handler services)⟩ c ->
        forall (i : Nat) (answer : Except ApiErr Unit), c.programs[i]? = some (.done answer) ->
          forall upload, (i, upload) ∈ c.state.staged -> Discharged c.state upload := by
  intro hclaim
  have hdischarged := hclaim plainServices [savedCallback, savedCallback] pendingSave rfl
    (follow machine twiceConfiguration twiceSchedule)
    (runs_follow _ _ (allowedAlong_true _ _)) 1 (.ok ()) (by rfl) 42 (by decide +kernel)
  have hpublished : (follow machine twiceConfiguration twiceSchedule).state.published =
      [(41, 51)] := by
    decide +kernel
  have hrequested : (follow machine twiceConfiguration twiceSchedule).state.requested = [] := by
    decide +kernel
  rcases hdischarged with ⟨version, hmem, _⟩ | hmem
  · rw [hpublished] at hmem
    cases List.mem_singleton.mp hmem
  · rw [hrequested] at hmem
    cases hmem

end Editor
end KnowledgeBrain
