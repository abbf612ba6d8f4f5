import KnowledgeBrain.Foundation.Json
import KnowledgeBrain.Tender.Machine

/-!
# Group calls

A group call asks the model about several work units at once and accepts the
answer for each of them on its own.  It keeps a journal among the artifacts:
the attempt, the response, the shared findings, a result or a rejection for
each unit, and the outcome.  A worker that takes over reads the journal and
goes on from there.

The model, the validators and the digest are parameters.  A validator may
answer differently each time it is called, so it is given the occasion.
-/

namespace KnowledgeBrain
namespace Tender

open Foundation

/-!
# Values
-/

structure ErrorItem where
  path : List Json
  code : String
  detail : String
deriving DecidableEq

/-- What a rejected response is sent back with. -/
structure Feedback where
  errors : List ErrorItem
  fragments : Json
deriving DecidableEq

/-- The exceptions as the handlers tell them apart. -/
inductive Raised where
  /-- `Cancelled`, `StaleExecution` and `ModelWorkUnitExhausted`. -/
  | stop
  | requestReplayBlocked
  /-- `ModelJSONError`, with the feedback made of its diagnostic. -/
  | json (feedback : Feedback)
  /-- `ModelCorrectionStalled`. -/
  | stalled (text : String)
  /-- `ModelContractError`. -/
  | contract (errors : List ErrorItem)
  /-- Another `ModelSemanticError`. -/
  | semantic (text : String)
  | other (typeName : String)
deriving DecidableEq

def Raised.typeName : Raised -> String
  | .stop => "StaleExecution"
  | .requestReplayBlocked => "RequestReplayBlocked"
  | .json _ => "ModelJSONError"
  | .stalled _ => "ModelCorrectionStalled"
  | .contract _ => "ModelContractError"
  | .semantic _ => "ModelSemanticError"
  | .other typeName => typeName

/-- An item of `response["work_units"]`; without an id it is not an answer. -/
structure ResponseUnit where
  workUnitId : Option String
  text : Json
deriving DecidableEq

/-- A parsed response; without the list of work units it cannot be judged. -/
structure Response where
  text : Json
  workUnits : Option (List ResponseUnit)
deriving DecidableEq

structure Correction where
  workUnitId : String
  feedback : Feedback
  rejectionCount : Nat
deriving DecidableEq

/-- The payload of one attempt. -/
structure GroupPayload where
  basis : Json
  targetWorkUnitIds : List String
  contractFeedback : Option (List Correction)
deriving DecidableEq

structure Manifest where
  task : Task
  payload : GroupPayload
  groupWorkUnitKeys : List String
deriving DecidableEq

inductive Received where
  | parsed (response : Response)
  | invalidJson (feedback : Feedback)
  | invalidCache (feedback : Feedback)
  | requestFailure (errorType : String)
deriving DecidableEq

/-- `received.get("feedback")`. -/
def Received.feedback : Received -> Option Feedback
  | .parsed _ => none
  | .invalidJson feedback => some feedback
  | .invalidCache feedback => some feedback
  | .requestFailure _ => none

/-- A JSON object, field by field. -/
abbrev Fields := List (String × Json)

def jsonString (text : String) : Json :=
  String.ofList (JsonValue.quote text)

/-- The values that a group call puts into the artifact store. -/
inductive Content where
  | manifest (manifest : Manifest)
  | received (received : Received)
  | shared (findings : List Json)
  | result (fields : Fields)
  | rejection (feedback : Feedback)
  | outcome (rejected : List (String × Option Feedback))
deriving DecidableEq

/-- The outcome of `model.execution_spec()`. -/
inductive SpecOutcome where
  | available (spec : Json)
  | failed (error : Raised)
deriving DecidableEq

/-- What of the specification enters the digest of the basis. -/
inductive SpecIdentity where
  | available (spec : Json)
  | unavailable (errorType modelType : String)
deriving DecidableEq

/-- The values that are digested. -/
inductive Digested where
  | basis (task : Task) (basis : Json) (spec : SpecIdentity)
  | workUnit (task : Task) (operation workUnitId : String)
  | result (basisDigest workUnitId : String)
  | finding (finding : Json)
deriving DecidableEq

/-- The code that a group call is given. -/
structure Host where
  digest : Digested -> String
  /-- `read_json`: what the content-addressed store holds under a reference. -/
  read : ArtifactRef -> Option Content
  /-- `_fragments`. -/
  fragments : Json -> List ErrorItem -> Json
  validate : Nat -> String -> Json -> Except Raised Fields
  validateShared : Nat -> Response -> GroupPayload -> Except Raised (List Json)

/-- The arguments of a group call. -/
structure GroupCall where
  task : Task
  modelType : String
  operation : String
  /-- The ids of `payload["work_units"]`. -/
  members : List String
  /-- The payload without its targets and feedback. -/
  basis : Json
  targets : List String
deriving DecidableEq

/-- What one pass of the loop depends on besides the journal. -/
structure Choice where
  call : Except Raised Response
  occasion : Nat
  attemptId : String

/-!
# Names
-/

namespace GroupCall

variable (host : Host) (call : GroupCall)

def specIdentity : SpecOutcome -> SpecIdentity
  | .available spec => .available spec
  | .failed error => .unavailable error.typeName call.modelType

def basisDigest (spec : SpecOutcome) : String :=
  host.digest (.basis call.task call.basis (call.specIdentity spec))

def key (unit : String) : String :=
  host.digest (.workUnit call.task call.operation unit)

def keys (units : List String) : List String :=
  units.map (call.key host)

/-- The targets are distinct original members. -/
def valid : Bool :=
  decide (call.targets ≠ []) && decide call.targets.Nodup &&
    call.targets.all fun unit => call.members.contains unit

end GroupCall

def resultScope (host : Host) (basisDigest unit : String) : String :=
  host.digest (.result basisDigest unit)

def groupMetadata (basisDigest : String) : ArtifactMetadata where
  planDigest := none
  groupBasisDigest := some basisDigest
  groupWorkUnitKeys := none
  commandId := none
  workUnitId := none
  groupAttemptId := none

/-!
# Writes

Between two awaits a worker does nothing that others could see but a write to
the journal, so a pass of the loop is described by the writes it makes, in
order, and how it ends.
-/

inductive Write where
  | commit (stage scope : String) (content : Content) (metadata : ArtifactMetadata)
  | reserve (attemptId : String) (manifest : Manifest)
deriving DecidableEq

/-- The value that a write puts into the artifact store. -/
def Write.content : Write -> Content
  | .commit _ _ content _ => content
  | .reserve _ manifest => .manifest manifest

structure GroupResult where
  workUnits : List Fields
  sharedFindings : List Json
deriving DecidableEq

inductive Ending where
  | again
  | returned (result : GroupResult)
  | raised (error : Raised)
deriving DecidableEq

structure Script where
  writes : List Write
  ending : Ending
deriving DecidableEq

def Script.raise (error : Raised) : Script :=
  ⟨[], .raised error⟩

/-- The script after some writes. -/
def Script.after (writes : List Write) (script : Script) : Script :=
  ⟨writes ++ script.writes, script.ending⟩

/-- `index.get((stage, scope))`. -/
def rowAt (rows : List (ArtifactKey × Artifact)) (stage scope : String) : Option Artifact :=
  (rows.find? fun row => row.1.stage == stage && row.1.scope == scope).map Prod.snd

/-- An artifact that is missing or damaged. -/
def unreadable : Raised :=
  .other "ArtifactIntegrityError"

/-!
# Judging a response
-/

def responseContract (detail : String) : List ErrorItem :=
  [⟨[], "response_contract", detail⟩]

def errorsOf : Raised -> List ErrorItem
  | .contract errors => errors
  | .semantic text => responseContract text
  | .stalled text => responseContract text
  | .json _ => responseContract "Model response is not a complete JSON object"
  | _ => responseContract "Host validation could not accept this result"

/-- `feedback(error, response)`. -/
def feedbackOf (host : Host) (error : Raised) (response : Json) : Feedback :=
  ⟨errorsOf error, host.fragments response (errorsOf error)⟩

def stalledFeedback : Feedback :=
  ⟨[⟨[], "cached_response_invalid", "The saved response could not be verified"⟩], "[]"⟩

/-- What is recorded of a call of the model; some exceptions end the group call. -/
def receive : Except Raised Response -> Except Raised Received
  | .ok response => return .parsed response
  | .error .stop => throw .stop
  | .error .requestReplayBlocked => throw .requestReplayBlocked
  | .error (.json feedback) => return .invalidJson feedback
  | .error (.stalled _) => return .invalidCache stalledFeedback
  | .error error => return .requestFailure error.typeName

/-- `answers.get(unit)`; of several answers for a unit the last one counts. -/
def answerOf (units : List ResponseUnit) (unit : String) : Option ResponseUnit :=
  (units.filter fun answer => answer.workUnitId == some unit).getLast?

def missingWorkUnit : Raised :=
  .contract
    [⟨[jsonString "work_units"], "missing_work_unit", "Return a result for this target work unit"⟩]

/-- `\x7b**value, "work_unit_id": unit\x7d`, in the order of the names. -/
def setField (name : String) (value : Json) : Fields -> Fields
  | [] => [(name, value)]
  | (name', value') :: rest =>
      if name' = name then (name, value) :: rest
      else if name < name' then (name, value) :: (name', value') :: rest
      else (name', value') :: setField name value rest

def resultFields (unit : String) (value : Fields) : Fields :=
  setField "work_unit_id" (jsonString unit) value

def emptyAnswer : Json :=
  "\x7b\x7d"

section Process

variable (host : Host) (basisDigest : String) (rows : List (ArtifactKey × Artifact))
variable (occasion : Nat) (attemptId : String)

def verdict (units : List ResponseUnit) (unit : String) : Except Raised Fields :=
  match answerOf units unit with
  | none => throw missingWorkUnit
  | some answer => host.validate occasion unit answer.text

def commitResult (unit : String) (value : Fields) : Write :=
  .commit "model-group-result" (resultScope host basisDigest unit)
    (.result (resultFields unit value))
    { groupMetadata basisDigest with
      workUnitId := some unit
      groupAttemptId := some attemptId }

def rejectionScope (unit : String) : String :=
  attemptId ++ ":" ++ resultScope host basisDigest unit

def commitRejection (unit : String) (feedback : Feedback) : Write :=
  .commit "model-group-rejection" (rejectionScope host basisDigest attemptId unit)
    (.rejection feedback) { groupMetadata basisDigest with workUnitId := some unit }

def unitFeedback (units : List ResponseUnit) (unit : String) (error : Raised) : Feedback :=
  feedbackOf host error ((answerOf units unit).elim emptyAnswer ResponseUnit.text)

/-- The loop over the active targets: its writes, and the units it rejects. -/
def judgeUnits (units : List ResponseUnit) :
    List String -> List Write × Except Raised (List (String × Option Feedback))
  | [] => ([], .ok [])
  | unit :: rest =>
      let judged := judgeUnits units rest
      if (rowAt rows "model-group-result" (resultScope host basisDigest unit)).isSome = true then
        judged
      else
        match rowAt rows "model-group-rejection"
          (rejectionScope host basisDigest attemptId unit) with
        | some row =>
            match host.read row.artifactRef with
            | some (.rejection feedback) =>
                (judged.1, judged.2.map ((unit, some feedback) :: ·))
            | _ => ([], .error unreadable)
        | none =>
            match verdict host occasion units unit with
            | .ok value =>
                (commitResult host basisDigest attemptId unit value :: judged.1, judged.2)
            | .error .stop => ([], .error .stop)
            | .error error =>
                let feedback := unitFeedback host units unit error
                (commitRejection host basisDigest attemptId unit feedback :: judged.1,
                  judged.2.map ((unit, some feedback) :: ·))

def commitOutcome (rejected : List (String × Option Feedback)) : Write :=
  .commit "model-group-outcome" attemptId (.outcome rejected) (groupMetadata basisDigest)

/-- Close the attempt. -/
def close (rejected : List (String × Option Feedback)) : Script :=
  ⟨[commitOutcome basisDigest attemptId rejected], .again⟩

/-- The findings shared by all units, from the journal or from the validator. -/
def sharedFindings (response : Response) (current : GroupPayload) :
    Except Raised (List Json) :=
  match rowAt rows "model-group-shared" attemptId with
  | none => host.validateShared occasion response current
  | some row =>
      match host.read row.artifactRef with
      | some (.shared findings) => return findings
      | _ => throw unreadable

def commitShared (findings : List Json) : List Write :=
  match rowAt rows "model-group-shared" attemptId with
  | none =>
      [.commit "model-group-shared" attemptId (.shared findings) (groupMetadata basisDigest)]
  | some _ => []

def judgeUnitsOf (response : Response) (active : List String) : Script :=
  match response.workUnits with
  | none => .raise (.other "KeyError")
  | some units =>
      let judged := judgeUnits host basisDigest rows occasion attemptId units active
      match judged.2 with
      | .error error => ⟨judged.1, .raised error⟩
      | .ok rejected => (close basisDigest attemptId rejected).after judged.1

/-- What is done with a response once it is recorded. -/
def judge (received : Received) (current : GroupPayload) : Script :=
  let active := current.targetWorkUnitIds
  match received with
  | .parsed response =>
      match sharedFindings host rows occasion attemptId response current with
      | .error .stop => .raise .stop
      | .error error =>
          close basisDigest attemptId
            (active.map fun unit => (unit, some (feedbackOf host error response.text)))
      | .ok findings =>
          (judgeUnitsOf host basisDigest rows occasion attemptId response active).after
            (commitShared basisDigest rows attemptId findings)
  | received =>
      close basisDigest attemptId (active.map fun unit => (unit, received.feedback))

def commitResponse (received : Received) : Write :=
  .commit "model-group-response" attemptId (.received received) (groupMetadata basisDigest)

/-- `process`: finish an attempt from where its journal ends. -/
def process (attempt : ArtifactKey × Artifact) (called : Except Raised Response) : Script :=
  match host.read attempt.2.artifactRef with
  | some (.manifest manifest) =>
      match rowAt rows "model-group-response" attempt.1.scope with
      | some row =>
          match host.read row.artifactRef with
          | some (.received received) =>
              judge host basisDigest rows occasion attempt.1.scope received manifest.payload
          | _ => .raise unreadable
      | none =>
          match receive called with
          | .error error => .raise error
          | .ok received =>
              (judge host basisDigest rows occasion attempt.1.scope received
                manifest.payload).after [commitResponse basisDigest attempt.1.scope received]
  | _ => .raise unreadable

end Process

/-!
# One pass of the loop
-/

section Pass

variable (host : Host) (call : GroupCall) (rows : List (ArtifactKey × Artifact))

def rowsOf (stage : String) : List (ArtifactKey × Artifact) :=
  rows.filter fun row => row.1.stage == stage

/-- The attempts for one of the targets that have no outcome yet. -/
def unfinished : List (ArtifactKey × Artifact) :=
  (rowsOf rows "model-group-attempt").filter fun row =>
    !(rowsOf rows "model-group-outcome").any (fun outcome => outcome.1.scope == row.1.scope) &&
      Store.overlaps (Store.attemptKeys row) (call.keys host call.targets)

/-- `completed.get(unit)`. -/
def completed (unit : String) : Option Artifact :=
  ((rowsOf rows "model-group-result").filter fun row =>
    row.2.metadata.workUnitId == some unit).getLast?.map Prod.snd

def pending : List String :=
  call.targets.filter fun unit => (completed rows unit).isNone

def readResult (unit : String) : Except Raised Fields :=
  match (completed rows unit).bind fun row => host.read row.artifactRef with
  | some (.result fields) => return fields
  | _ => throw unreadable

def readShared (row : ArtifactKey × Artifact) : Except Raised (List Json) :=
  match host.read row.2.artifactRef with
  | some (.shared findings) => return findings
  | _ => throw unreadable

def readOutcome (row : ArtifactKey × Artifact) :
    Except Raised (List (String × Option Feedback)) :=
  match host.read row.2.artifactRef with
  | some (.outcome rejected) => return rejected
  | _ => throw unreadable

/-- Keep the first finding of each digest. -/
def distinctFindings : List String -> List Json -> List Json
  | _, [] => []
  | seen, finding :: rest =>
      let digest := host.digest (.finding finding)
      if seen.contains digest then distinctFindings seen rest
      else finding :: distinctFindings (digest :: seen) rest

def collect : Except Raised GroupResult := do
  let shared ← (rowsOf rows "model-group-shared").mapM (readShared host)
  let workUnits ← call.targets.mapM (readResult host rows)
  return ⟨workUnits, distinctFindings host [] shared.flatten⟩

/-- The feedback that earlier outcomes hold for a unit. -/
def rejectionsOf (outcomes : List (List (String × Option Feedback))) (unit : String) :
    List (Option Feedback) :=
  (outcomes.flatten.filter fun entry => entry.1 == unit).map Prod.snd

def correctionOf (outcomes : List (List (String × Option Feedback))) (unit : String) :
    Option Correction :=
  let rejections := rejectionsOf outcomes unit
  (rejections.filterMap id).getLast?.map fun feedback => ⟨unit, feedback, rejections.length⟩

/-- The payload of the next attempt. -/
def nextPayload (outcomes : List (List (String × Option Feedback))) (units : List String) :
    GroupPayload where
  basis := call.basis
  targetWorkUnitIds := units
  contractFeedback :=
    match units.filterMap (correctionOf outcomes) with
    | [] => none
    | corrections => some corrections

def reserveNext (attemptId : String) : Script :=
  match (rowsOf rows "model-group-outcome").mapM (readOutcome host) with
  | .error error => .raise error
  | .ok outcomes =>
      let units := pending call rows
      ⟨[.reserve attemptId ⟨call.task, nextPayload call outcomes units, call.keys host units⟩],
        .again⟩

/-- The body of the loop after the journal was read. -/
def pass (spec : SpecOutcome) (choice : Choice) : Script :=
  match (unfinished host call rows).head? with
  | some attempt =>
      -- With an unusable specification the model is not called.
      let called :=
        match spec with
        | .available _ => choice.call
        | .failed error => .error error
      process host (call.basisDigest host spec) rows choice.occasion attempt called
  | none =>
      match pending call rows with
      | [] =>
          match collect host call rows with
          | .ok result => ⟨[], .returned result⟩
          | .error error => .raise error
      | _ :: _ => reserveNext host call rows choice.attemptId

end Pass

end Tender
end KnowledgeBrain
