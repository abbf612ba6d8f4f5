import KnowledgeBrain.Corrections.Feedback
import KnowledgeBrain.Foundation.Runs

/-!
# Validated calls

A worker asks the model until an answer is accepted, at most four times.  Each
rejection is committed before the corrected request is sent, under the number
of rejections before it; a worker that takes over reads them in that order and
goes on with the request they lead to.
-/

namespace KnowledgeBrain
namespace Corrections

open Foundation JsonValue

/-!
# Outcomes
-/

/-- How `validate` ends. -/
inductive Verdict where
  | accepted
  /-- `Cancelled`, `StaleExecution`, `ModelWorkUnitExhausted`, or passed through. -/
  | stop
  /-- `ModelContractError`. -/
  | contract (errors : List JsonValue)
  /-- Another `ModelSemanticError`. -/
  | semantic (message : String)
  /-- Any other exception. -/
  | failed

/-- How `model.call` ends. -/
inductive Called where
  | stop
  /-- `ModelInfrastructureError` or an exception without a handler of its own. -/
  | failed
  /-- `ModelJSONError`. -/
  | invalidJson (diagnostic : Diagnostic)
  /-- `ModelCorrectionStalled`. -/
  | stalled
  | answered (response : JsonValue) (verdict : Verdict)

/-- What an attempt comes to. -/
inductive Outcome where
  | ended
  | again
  | rejected (response : JsonValue) (kind : ResponseKind) (feedback : Fields)

section Outcomes

variable (same : JsonValue -> JsonValue -> Bool)

def rejectedWith (response : JsonValue) (errors : List JsonValue) : Outcome :=
  match fragmentsOf same response errors with
  | none => .ended
  | some fragments => .rejected response .parsed (feedbackFields (.array errors) (.array fragments))

def outcomeOf : Called -> Outcome
  | .stop => .ended
  | .failed => .again
  | .invalidJson diagnostic =>
      .rejected (.object [("json_feedback", .object (jsonFeedback diagnostic))]) .invalidJson
        (jsonFeedback diagnostic)
  | .stalled =>
      .rejected (.object [("cache_error", .object cacheFeedback)]) .invalidCache cacheFeedback
  | .answered _ .accepted => .ended
  | .answered _ .stop => .ended
  | .answered _ .failed => .again
  | .answered response (.contract errors) => rejectedWith same response errors
  | .answered response (.semantic message) =>
      rejectedWith same response [errorEntry "response_contract" message]

end Outcomes

/-!
# The journal of rejections
-/

/-- The value committed for a rejection; old ones have no feedback. -/
structure Rejection where
  request : Fields
  response : JsonValue
  errors : JsonValue
  owner : Fields
  kind : ResponseKind
  feedback : Option Fields

def ResponseKind.name : ResponseKind -> String
  | .parsed => "parsed"
  | .invalidJson => "invalid_json"
  | .invalidCache => "invalid_cache"

/-- The text whose digest is the address of the value. -/
def Rejection.content (r : Rejection) : List Char :=
  dumps (sortKeys (.object (
    [("request_ref", .object r.request), ("response_ref", r.response), ("errors", r.errors)] ++
      r.owner ++ [("response_kind", .text r.kind.name),
        ("feedback", (r.feedback.map JsonValue.object).getD .null)])))

/-- The items of a stored list. -/
def itemsOf : JsonValue -> Option (List JsonValue)
  | .array items => some items
  | _ => none

/-- The feedback of a stored rejection, which is read back with sorted keys. -/
def storedFeedback (same : JsonValue -> JsonValue -> Bool) (r : Rejection) : Option Fields :=
  match r.feedback with
  | some feedback => some (sortFields feedback)
  | none => do
      let errors ← itemsOf (sortKeys r.errors)
      let fragments ← fragmentsOf same (sortKeys r.response) errors
      return feedbackFields (.array errors) (.array fragments)

inductive Phase where
  | calling (attempt : Nat)
  | committing (attempt : Nat) (rejection : Rejection)
  | ended

structure Worker where
  sequence : Nat
  /-- The request that was sent last or is sent next. -/
  current : Fields
  phase : Phase

structure World where
  /-- The rejections of one work unit by their number. -/
  receipts : Table Nat Rejection
  worker : Option Worker

inductive Event where
  /-- A worker starts; one that was there is lost. -/
  | start
  | answer (called : Called)
  | commit
  /-- The worker is lost, also when the store refuses its commit. -/
  | crash

section Step

variable (same : JsonValue -> JsonValue -> Bool) (payload owner : Fields)

/-- `\x7b**payload, "contract_feedback": feedback\x7d`. -/
def correctedRequest (feedback : Fields) : Fields :=
  withField "contract_feedback" (.object feedback) payload

/-- The loop over the receipts; the first argument bounds its passes. -/
def recoverFrom (receipts : Table Nat Rejection) : Nat -> Nat -> Fields -> Option (Nat × Fields)
  | 0, _, _ => none
  | n + 1, sequence, current =>
      match receipts.lookup sequence with
      | none => some (sequence, current)
      | some r =>
          match (storedFeedback same r).bind fun feedback =>
            rejectionFeedback feedback (sequence + 1) r.kind with
          | none => none
          | some feedback =>
              recoverFrom receipts n (sequence + 1) (correctedRequest payload feedback)

def recover (receipts : Table Nat Rejection) : Option (Nat × Fields) :=
  recoverFrom same payload receipts (receipts.rows.length + 1) 0 payload

/-- After an attempt comes the next one, if there is one. -/
def nextPhase (attempt : Nat) : Phase :=
  if attempt = 3 then .ended else .calling (attempt + 1)

def rejectionOf (x : Worker) (response : JsonValue) (kind : ResponseKind) (feedback : Fields) :
    Rejection where
  request := x.current
  response := response
  errors := (feedback.lookup "errors").getD .null
  owner := owner
  kind := kind
  feedback := some feedback

def judge (x : Worker) (attempt : Nat) : Outcome -> Worker
  | .ended => { x with phase := .ended }
  | .again => { x with phase := nextPhase attempt }
  | .rejected response kind feedback =>
      match rejectionFeedback feedback (x.sequence + 1) kind with
      | none => { x with phase := .ended }
      | some feedback =>
          { x with phase := .committing attempt (rejectionOf owner x response kind feedback) }

/-- The worker after its commit; the rejection has a feedback. -/
def advance (x : Worker) (attempt : Nat) (r : Rejection) : Worker where
  sequence := x.sequence + 1
  current := correctedRequest payload (r.feedback.getD [])
  phase := nextPhase attempt

/-- `commit_artifact`: other content under the same number is refused. -/
def commitRejection (w : World) (x : Worker) (attempt : Nat) (r : Rejection) : World :=
  match w.receipts.lookup x.sequence with
  | some prior =>
      if prior.content = r.content then { w with worker := some (advance payload x attempt r) }
      else { w with worker := some { x with phase := .ended } }
  | none =>
      ⟨w.receipts.insertNew x.sequence r, some (advance payload x attempt r)⟩

def step : Event -> World -> World
  | .start, w =>
      { w with worker := (recover same payload w.receipts).map fun start =>
          ⟨start.1, start.2, .calling 0⟩ }
  | .crash, w => { w with worker := none }
  | .answer called, w =>
      match w.worker with
      | some x =>
          match x.phase with
          | .calling attempt =>
              { w with worker := some (judge owner x attempt (outcomeOf same called)) }
          | _ => w
      | none => w
  | .commit, w =>
      match w.worker with
      | some x =>
          match x.phase with
          | .committing attempt r => commitRejection payload w x attempt r
          | _ => w
      | none => w

end Step

/-- Anything may happen at any time. -/
def Anytime : Event -> World -> Prop :=
  fun _ _ => True

/-- No rejection was committed and nobody has started. -/
structure World.Fresh (w : World) : Prop where
  receipts : w.receipts = Table.empty
  worker : w.worker = none

/-!
# Every start leads to the same request
-/

section Proofs

variable {same : JsonValue -> JsonValue -> Bool} {payload owner : Fields}

/-- What is sent after a number of rejections. -/
def requestAfter (payload : Fields) (receipts : Table Nat Rejection) : Nat -> Fields
  | 0 => payload
  | n + 1 =>
      correctedRequest payload (((receipts.lookup n).bind Rejection.feedback).getD [])

/-- The rejections are numbered without a gap, and their feedback is stored. -/
structure Journal (receipts : Table Nat Rejection) (n : Nat) : Prop where
  numbered : forall i, (receipts.lookup i).isSome = true <-> i < n
  size : receipts.rows.length = n
  stored : forall i r, receipts.lookup i = some r ->
    exists feedback, r.feedback = some feedback ∧ Stored (i + 1) r.kind feedback

theorem Journal.empty : Journal Table.empty 0 := by
  constructor
  · intro i
    simp
  · rfl
  · intro i r hlookup
    cases hlookup

variable {receipts : Table Nat Rejection} {n : Nat}

theorem Journal.free (h : Journal receipts n) :
    receipts.lookup n = none := by
  by_contra hsome
  have hlt := (h.numbered n).mp (Option.isSome_iff_ne_none.mpr hsome)
  exact Nat.lt_irrefl n hlt

variable {r : Rejection}

theorem Journal.insert (h : Journal receipts n) {feedback : Fields}
    (hfeedback : r.feedback = some feedback) (hstored : Stored (n + 1) r.kind feedback) :
    Journal (receipts.insertNew n r) (n + 1) := by
  constructor
  · intro i
    rw [Table.lookup_insertNew_eq_or, Option.isSome_or, Bool.or_eq_true, h.numbered,
      Nat.lt_succ_iff_lt_or_eq]
    constructor
    · rintro (hlt | hsome)
      · exact Or.inl hlt
      · split at hsome
        · rename_i heq
          exact Or.inr heq
        · cases hsome
    · rintro (hlt | heq)
      · exact Or.inl hlt
      · exact Or.inr (by rw [if_pos heq]; rfl)
  · rw [Table.rows_insertNew h.free, List.length_cons, h.size]
  · intro i r' hlookup
    rw [Table.lookup_insertNew_eq_or, Option.or_eq_some_iff] at hlookup
    rcases hlookup with hold | ⟨_, hnew⟩
    · exact h.stored i r' hold
    · split at hnew
      · rename_i heq
        cases hnew
        subst heq
        exact ⟨feedback, hfeedback, hstored⟩
      · cases hnew

theorem requestAfter_insert (h : Journal receipts n) (r : Rejection) :
    requestAfter payload (receipts.insertNew n r) (n + 1) =
      correctedRequest payload (r.feedback.getD []) := by
  rw [requestAfter, Table.lookup_insertNew_eq_or, h.free, if_pos rfl]
  rfl

theorem Journal.readBack {n i : Nat} (h : Journal receipts n)
    (same : JsonValue -> JsonValue -> Bool) (hlookup : receipts.lookup i = some r) :
    exists feedback, r.feedback = some feedback ∧
      ((storedFeedback same r).bind fun feedback =>
        rejectionFeedback feedback (i + 1) r.kind) = some feedback := by
  rcases h.stored i r hlookup with ⟨feedback, hfeedback, hsorted, hstored⟩
  refine ⟨feedback, hfeedback, ?_⟩
  rw [storedFeedback, hfeedback]
  change rejectionFeedback (sortFields feedback) (i + 1) r.kind = some feedback
  rw [hsorted, hstored]

theorem recoverFrom_eq (h : Journal receipts n) (m i : Nat) (hi : i + m = n) {bound : Nat}
    (hbound : m < bound) :
    recoverFrom same payload receipts bound i (requestAfter payload receipts i) =
      some (n, requestAfter payload receipts n) := by
  induction m generalizing i bound with
  | zero =>
      have hlast : i = n := hi
      subst hlast
      cases bound with
      | zero => cases hbound
      | succ bound => rw [recoverFrom, h.free]
  | succ m ih =>
      have hthere : (receipts.lookup i).isSome = true := (h.numbered i).mpr (by omega)
      rcases Option.isSome_iff_exists.mp hthere with ⟨r, hlookup⟩
      rcases h.readBack same hlookup with ⟨feedback, hfeedback, hread⟩
      cases bound with
      | zero => cases hbound
      | succ bound =>
          have hnext : requestAfter payload receipts (i + 1) =
              correctedRequest payload feedback := by
            rw [requestAfter, hlookup, Option.bind_some, hfeedback]
            rfl
          rw [recoverFrom, hlookup]
          simp only [hread]
          rw [← hnext]
          exact ih (i + 1) (by omega) (by omega)

theorem recover_eq (h : Journal receipts n) :
    recover same payload receipts = some (n, requestAfter payload receipts n) := by
  rw [recover, h.size]
  exact recoverFrom_eq h n 0 (Nat.zero_add n) (Nat.lt_succ_self n)

/-- Every rejection is stored in a form that is read back as it was sent. -/
theorem stored_of_outcome {called : Called} {response : JsonValue} {kind : ResponseKind}
    {feedback : Fields} (h : outcomeOf same called = .rejected response kind feedback)
    (count : Nat) : exists stored, rejectionFeedback feedback count kind = some stored ∧
      Stored count kind stored := by
  have hparsed : forall response' errors,
      rejectedWith same response' errors = .rejected response kind feedback ->
      exists stored, rejectionFeedback feedback count kind = some stored ∧
        Stored count kind stored := by
    intro response' errors hrejected
    unfold rejectedWith at hrejected
    split at hrejected
    · cases hrejected
    · cases hrejected
      exact ⟨_, stored_of_counted (by decide)⟩
  cases called with
  | stop => cases h
  | failed => cases h
  | invalidJson diagnostic =>
      cases h
      exact stored_of_text
  | stalled =>
      cases h
      exact ⟨_, stored_of_counted (by decide)⟩
  | answered response' verdict =>
      cases verdict with
      | accepted => cases h
      | stop => cases h
      | contract errors => exact hparsed response' errors h
      | semantic message =>
          exact hparsed response' [errorEntry "response_contract" message] h
      | failed => cases h

/-- What holds in every state. -/
structure Consistent (payload : Fields) (w : World) : Prop where
  journal : exists n, Journal w.receipts n ∧ forall x, w.worker = some x ->
    x.sequence = n ∧ x.current = requestAfter payload w.receipts n
  committing : forall x attempt r, w.worker = some x -> x.phase = .committing attempt r ->
    exists feedback, r.feedback = some feedback ∧ Stored (x.sequence + 1) r.kind feedback

variable {w : World}

theorem consistent_of_fresh (h : w.Fresh) : Consistent payload w := by
  constructor
  · refine ⟨0, ?_, ?_⟩
    · rw [h.receipts]
      exact Journal.empty
    · intro x hx
      rw [h.worker] at hx
      cases hx
  · intro x attempt r hx
    rw [h.worker] at hx
    cases hx

theorem Consistent.keep (h : Consistent payload w) {x x' : Worker} (hx : w.worker = some x)
    (hsequence : x'.sequence = x.sequence) (hcurrent : x'.current = x.current)
    (hcommitting : forall attempt r, x'.phase = .committing attempt r ->
      exists feedback, r.feedback = some feedback ∧ Stored (x'.sequence + 1) r.kind feedback) :
    Consistent payload { w with worker := some x' } := by
  rcases h.journal with ⟨n, hjournal, hworker⟩
  constructor
  · refine ⟨n, hjournal, ?_⟩
    intro y hy
    cases hy
    rw [hsequence, hcurrent]
    exact hworker x hx
  · intro y attempt r hy
    cases hy
    exact hcommitting attempt r

theorem nextPhase_ne_committing (attempt attempt' : Nat) (r : Rejection) :
    nextPhase attempt ≠ .committing attempt' r := by
  unfold nextPhase
  split
  · exact fun h => by cases h
  · exact fun h => by cases h

theorem Consistent.judge (h : Consistent payload w) {x : Worker} (hx : w.worker = some x)
    (attempt : Nat) (called : Called) :
    Consistent payload
      { w with worker := some (judge owner x attempt (outcomeOf same called)) } := by
  cases houtcome : outcomeOf same called with
  | ended =>
      refine h.keep hx rfl rfl ?_
      intro attempt' r hphase
      cases hphase
  | again =>
      refine h.keep hx rfl rfl ?_
      intro attempt' r hphase
      exact absurd hphase (nextPhase_ne_committing attempt attempt' r)
  | rejected response kind feedback =>
      rcases stored_of_outcome houtcome (x.sequence + 1) with ⟨stored, hfeedback, hstored⟩
      rw [Corrections.judge, hfeedback]
      refine h.keep hx rfl rfl ?_
      intro attempt' r hphase
      cases hphase
      exact ⟨stored, rfl, hstored⟩

theorem Consistent.commit (h : Consistent payload w) {x : Worker} {attempt : Nat}
    (hx : w.worker = some x) (hphase : x.phase = .committing attempt r) :
    Consistent payload (commitRejection payload w x attempt r) := by
  rcases h.journal with ⟨n, hjournal, hworker⟩
  rcases hworker x hx with ⟨rfl, hcurrent⟩
  rcases h.committing x attempt r hx hphase with ⟨feedback, hfeedback, hstored⟩
  unfold commitRejection
  rw [hjournal.free]
  constructor
  · refine ⟨x.sequence + 1, hjournal.insert hfeedback hstored, ?_⟩
    intro y hy
    cases hy
    exact ⟨rfl, (requestAfter_insert hjournal r).symm⟩
  · intro y attempt' r' hy hphase'
    cases hy
    exact absurd hphase' (nextPhase_ne_committing attempt attempt' r')

theorem consistent_step (e : Event) (h : Consistent payload w) :
    Consistent payload (step same payload owner e w) := by
  rcases h.journal with ⟨n, hjournal, hworker⟩
  cases e with
  | start =>
      have hrecover : recover same payload w.receipts =
          some (n, requestAfter payload w.receipts n) := recover_eq hjournal
      constructor
      · refine ⟨n, hjournal, ?_⟩
        intro x hx
        simp only [step, hrecover, Option.map_some, Option.some.injEq] at hx
        rw [← hx]
        exact ⟨rfl, rfl⟩
      · intro x attempt r hx hphase
        simp only [step, hrecover, Option.map_some, Option.some.injEq] at hx
        rw [← hx] at hphase
        cases hphase
  | crash =>
      constructor
      · refine ⟨n, hjournal, ?_⟩
        intro x hx
        cases hx
      · intro x attempt r hx
        cases hx
  | answer called =>
      simp only [step]
      split
      · rename_i x hx
        split
        · exact h.judge hx _ called
        · exact h
      · exact h
  | commit =>
      simp only [step]
      split
      · rename_i x hx
        split
        · rename_i hphase
          exact h.commit hx hphase
        · exact h
      · exact h

theorem consistent_of_reaches {start w : World} (hstart : start.Fresh)
    (hrun : Reaches (step same payload owner) Anytime start w) : Consistent payload w :=
  Reaches.invariant (fun e _ h _ => consistent_step e h) (consistent_of_fresh hstart) hrun

/-- A worker that is started in place of another one goes on where it was. -/
structure SameRequests (same : JsonValue -> JsonValue -> Bool) (payload owner : Fields)
    (w : World) : Prop where
  restarted : forall x, w.worker = some x ->
    (step same payload owner .start (step same payload owner .crash w)).worker =
      some ⟨x.sequence, x.current, .calling 0⟩
  feedback : forall i r, w.receipts.lookup i = some r -> exists feedback,
    r.feedback = some feedback ∧ storedFeedback same r = some feedback ∧
      rejectionFeedback feedback (i + 1) r.kind = some feedback
  request : forall x, w.worker = some x -> x.sequence ≠ 0 -> exists r feedback,
    w.receipts.lookup (x.sequence - 1) = some r ∧ r.feedback = some feedback ∧
      x.current = correctedRequest payload feedback

/-- Whatever the model and the validator do and wherever a worker is lost, the
next one sends the request, to the last field, that the lost one had sent or
would have sent next. -/
theorem recovered_requests_are_the_same {start w : World} (hstart : start.Fresh)
    (hrun : Reaches (step same payload owner) Anytime start w) :
    SameRequests same payload owner w := by
  have hconsistent := consistent_of_reaches hstart hrun
  rcases hconsistent.journal with ⟨n, hjournal, hworker⟩
  constructor
  · intro x hx
    rcases hworker x hx with ⟨hsequence, hcurrent⟩
    change (recover same payload w.receipts).map _ = _
    rw [recover_eq hjournal, hsequence, hcurrent]
    rfl
  · intro i r hlookup
    rcases hjournal.stored i r hlookup with ⟨feedback, hfeedback, hsorted, hstored⟩
    refine ⟨feedback, hfeedback, ?_, hstored⟩
    rw [storedFeedback, hfeedback]
    exact congrArg some hsorted
  · intro x hx hsent
    rcases hworker x hx with ⟨rfl, hcurrent⟩
    have hthere : (w.receipts.lookup (x.sequence - 1)).isSome = true :=
      (hjournal.numbered _).mpr (by omega)
    rcases Option.isSome_iff_exists.mp hthere with ⟨r, hlookup⟩
    rcases hjournal.stored _ r hlookup with ⟨feedback, hfeedback, _⟩
    refine ⟨r, feedback, hlookup, hfeedback, ?_⟩
    rw [hcurrent]
    have hsucc : x.sequence = x.sequence - 1 + 1 := by omega
    rw [hsucc, requestAfter, hlookup, Option.bind_some, hfeedback]
    rfl

end Proofs

/-!
# A worker that is lost after it has answered with broken JSON
-/

def extractPayload : Fields :=
  [("operation", .text "extract"), ("work_unit_id", .text "pack-1")]

def truncatedAnswer : Diagnostic :=
  ⟨"unterminated_object", "Expected a closing brace", 1, 12, 11, "\x7b\"items\": ["⟩

def sameText (a b : JsonValue) : Bool :=
  dumps (sortKeys a) == dumps (sortKeys b)

def lostCorrection : List Event :=
  [.start, .answer (.invalidJson truncatedAnswer), .commit, .answer .stalled]

theorem lost_correction_is_sent_again :
    exists x, (perform (step sameText extractPayload []) ⟨Table.empty, none⟩
        lostCorrection).worker = some x ∧ x.sequence = 1 ∧
      (step sameText extractPayload [] .start (step sameText extractPayload [] .crash
        (perform (step sameText extractPayload []) ⟨Table.empty, none⟩ lostCorrection))).worker =
        some ⟨x.sequence, x.current, .calling 0⟩ := by
  have hsequence : ((perform (step sameText extractPayload []) ⟨Table.empty, none⟩
      lostCorrection).worker.map Worker.sequence) = some 1 := by decide +kernel
  rcases Option.map_eq_some_iff.mp hsequence with ⟨x, hx, hone⟩
  refine ⟨x, hx, hone, ?_⟩
  have hrun : Reaches (step sameText extractPayload []) Anytime ⟨Table.empty, none⟩
      (perform (step sameText extractPayload []) ⟨Table.empty, none⟩ lostCorrection) :=
    reaches_perform (Reaches.refl _) ⟨trivial, trivial, trivial, trivial, trivial⟩
  exact (recovered_requests_are_the_same ⟨rfl, rfl⟩ hrun).restarted x hx

end Corrections
end KnowledgeBrain
