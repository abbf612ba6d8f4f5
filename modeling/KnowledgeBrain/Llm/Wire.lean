import KnowledgeBrain.Foundation.Json
import KnowledgeBrain.Foundation.Keyed
import Mathlib.Logic.Function.Basic

/-!
# Short references

Identities travel to a model as references of one request, and only these come
back.  Prose is never rewritten, and an identity that is not known stays
unbound.
-/

namespace KnowledgeBrain
namespace Llm
namespace Wire

open Foundation
open JsonValue (Fields dumps sortKeys sortFields withField)

/-!
# Identities
-/

/-- The kinds of references, under their letters. -/
inductive Ref where
  | e | r | i | l | d | c | q | doc | s | w | p | t | u
deriving DecidableEq

def Ref.letters : Ref -> String
  | .e => "e"
  | .r => "r"
  | .i => "i"
  | .l => "l"
  | .d => "d"
  | .c => "c"
  | .q => "q"
  | .doc => "doc"
  | .s => "s"
  | .w => "w"
  | .p => "p"
  | .t => "t"
  | .u => "u"

/-- `_FIELDS`. -/
def fieldTable : List (String × Ref) :=
  [("rule_id", .e), ("rule_ids", .e), ("constraint_rule_ids", .e), ("from_rule_ids", .e),
    ("to_rule_ids", .e), ("range_id", .r), ("range_ids", .r), ("target_range_ids", .r),
    ("applies_to_range_ids", .r), ("reviewed_target_range_ids", .r), ("decision_range_id", .r),
    ("item_id", .i), ("item_ids", .i), ("from_item_id", .i), ("to_item_id", .i),
    ("target_item_id", .i), ("replacement_item_ids", .i), ("relation_id", .l),
    ("relation_ids", .l), ("unverified_relation_ids", .l), ("decision_id", .d),
    ("decision_ids", .d), ("accepted_decision_ids", .d), ("candidate_id", .c),
    ("candidate_ids", .c), ("issue_id", .q), ("issue_ids", .q), ("related_issue_ids", .q),
    ("document_id", .doc), ("section_id", .s), ("parent_section_id", .s), ("work_unit_id", .w),
    ("work_unit_ids", .w), ("target_work_unit_ids", .w), ("pack_id", .p), ("table_id", .t),
    ("table_ids", .t), ("unit_id", .u), ("image_unit_ids", .u), ("part_id", .p),
    ("template_part_ids", .p), ("start_part_id", .p), ("end_part_id", .p),
    ("constraint_range_ids", .r), ("context_range_ids", .r)]

def fieldRef (key : String) : Option Ref :=
  fieldTable.lookup key

/-- What a field holds: identities of one kind, of a rule or a range, or something else. -/
def identityField (key : String) : Option (Option Ref) :=
  match fieldRef key with
  | some ref => some (some ref)
  | none => if key = "for_ids" then some none else none

/-- The short references of every kind, each with its identity. -/
abbrev Mapping := Ref -> List (String × String)

/-!
# Collecting
-/

def shortRef (ref : Ref) (n : Nat) : String :=
  ref.letters ++ toString (n + 1)

def assign (ref : Ref) (mapping : Mapping) : JsonValue -> Mapping
  | .text identity =>
      Function.update mapping ref (number (shortRef ref) (mapping ref) identity)
  | _ => mapping

/-- One value, or the values of a list. -/
def entriesOf : JsonValue -> List JsonValue
  | .array items => items
  | value => [value]

mutual

/-- `_collect`. -/
def collect (mapping : Mapping) : JsonValue -> Mapping
  | .object fields => collectFields mapping fields
  | .array items => collectItems mapping items
  | _ => mapping

def collectFields (mapping : Mapping) : Fields -> Mapping
  | [] => mapping
  | (key, value) :: rest =>
      let mapping := match fieldRef key with
        | some ref => (entriesOf value).foldl (assign ref) mapping
        | none => collect mapping value
      collectFields mapping rest

def collectItems (mapping : Mapping) : List JsonValue -> Mapping
  | [] => mapping
  | item :: rest => collectItems (collect mapping item) rest

end

/-!
# Walking
-/

section Walking

variable (convert : Option Ref -> String -> String)

/-- Only strings are converted. -/
def convertText (ref : Option Ref) : JsonValue -> JsonValue
  | .text identity => .text (convert ref identity)
  | value => value

def convertEntry (ref : Option Ref) : JsonValue -> JsonValue
  | .array items => .array (items.map (convertText convert ref))
  | value => convertText convert ref value

mutual

/-- `_walk`. -/
def walk : JsonValue -> JsonValue
  | .array items => .array (walkItems items)
  | .object fields => .object (walkFields fields)
  | .null => .null
  | .bool value => .bool value
  | .number token => .number token
  | .text value => .text value

def walkItems : List JsonValue -> List JsonValue
  | [] => []
  | item :: rest => walk item :: walkItems rest

def walkFields : Fields -> Fields
  | [] => []
  | (key, value) :: rest =>
      (key, match identityField key with
        | some ref => convertEntry convert ref value
        | none => walk value) :: walkFields rest

end

end Walking

/-- The identities of a rule or of a range that a table has. -/
def ruleOrRange (table : Ref -> List (String × String)) (identity : String) : List String :=
  [Ref.e, Ref.r].filterMap fun ref => (table ref).lookup identity

def unbound (identity : String) : String :=
  "!unbound:" ++ identity

/-- `_encode`. -/
def encode (mapping : Mapping) : Option Ref -> String -> String
  | none, identity =>
      match ruleOrRange mapping identity with
      | [selected] => selected
      | _ => unbound identity
  | some ref, identity => ((mapping ref).lookup identity).getD identity

/-!
# Payloads
-/

inductive Task where
  | extract
  | verify
  | outline
  | plan
  | ocr
deriving DecidableEq

structure WirePayload where
  enabled : Bool
  mapping : Mapping
  originalWorkUnits : List String
  payload : Fields

/-- `value is hashable`, with its text if it is one. -/
def hashable : JsonValue -> Option (List String)
  | .array _ => none
  | .object _ => none
  | .text identity => some [identity]
  | _ => some []

/-- `unit['work_unit_id']`. -/
def unitId : JsonValue -> Option (List String)
  | .object fields => (fields.lookup "work_unit_id").bind hashable
  | _ => none

/-- The identities of `payload.get('work_units', [])`. -/
def unitIds : JsonValue -> Option (List String)
  | .array units => (units.mapM unitId).map List.flatten
  | .object [] => some []
  | .text text => if text = "" then some [] else none
  | _ => none

/-- `if self.original_work_unit`. -/
def truthy : JsonValue -> Bool
  | .null => false
  | .bool value => value
  | .number _ => true
  | .text text => text ≠ ""
  | .array items => !items.isEmpty
  | .object fields => !fields.isEmpty

/-- The work units of a request, those that are texts. -/
def workUnitsOf (payload : Fields) : Option (List String) := do
  let units <- unitIds ((payload.lookup "work_units").getD (.array []))
  match payload.lookup "work_unit_id" with
  | some identity =>
      if truthy identity then
        let own <- hashable identity
        return units ++ own
      else return units
  | none => return units

/-- One entry of a dictionary, if it has it. -/
def modifyField (name : String) (f : JsonValue -> Option JsonValue) (fields : Fields) :
    Option Fields :=
  match fields.lookup name with
  | none => some fields
  | some value => do
      let value <- f value
      return withField name value fields

/-- A loop over a value that changes every entry. -/
def modifyEach (f : JsonValue -> Option JsonValue) : JsonValue -> Option JsonValue
  | .array items => (items.mapM f).map .array
  | .object [] => some (.object [])
  | .text text => if text = "" then some (.text text) else none
  | _ => none

def localKeys : List String :=
  ["source_range_id", "parent_range_id", "start", "end"]

def stripEntry : JsonValue -> Option JsonValue
  | .object fields => some (.object (fields.filter fun field => field.1 ∉ localKeys))
  | _ => none

def stripView : JsonValue -> Option JsonValue
  | .object fields => do
      let fields <- ["body", "supporting", "pending_scope_context", "scope_bindings"].foldlM
        (fun fields name => modifyField name (modifyEach stripEntry) fields) fields
      return .object fields
  | _ => none

/-- What a model is shown of a request, before its identities are encoded. -/
def shown (digest : List Char -> String) (batched : Bool) (payload : Fields) : Option Fields :=
  let canonical := dumps (sortKeys (.object payload))
  let fields := if batched then sortFields payload else payload
  let fields := withField "request_ref" (.text (digest canonical)) fields
  let fields := fields.filter fun field => field.1 ≠ "run_id"
  modifyField "source_views" (modifyEach stripView) fields

/-- What the findings and the answers of a batch refer to. -/
def basisFields : List String :=
  ["source_views", "work_units", "items", "candidates", "issues", "dispositions",
    "scope_decisions", "relations"]

def basis (fields : Fields) : List JsonValue :=
  basisFields.map fun name => (fields.lookup name).getD (.array [])

def mappingOf (batched : Bool) (fields : Fields) : Mapping :=
  let mapping : Mapping := fun _ => []
  let mapping := if batched then (basis fields).foldl collect mapping else mapping
  collect mapping (.object (fields.filter fun field => field.1 ≠ "contract_feedback"))

def isBatched (task : Task) (payload : Fields) : Bool :=
  decide (task = .verify) && (payload.lookup "work_units").isSome

/-- `payload.get('schema_version') == 2`: the text of a number is `2`, or `2.0` of a float. -/
def isSecondVersion (payload : Fields) : Bool :=
  match payload.lookup "schema_version" with
  | some (.number token) => token = "2" || token = "2.0"
  | _ => false

/-- `WirePayload.__init__`; `none` where it raises.  `digest` is the SHA-256 of a text. -/
def prepare (digest : List Char -> String) (task : Task) (payload : Fields) :
    Option WirePayload := do
  let originalWorkUnits <- workUnitsOf payload
  if task ∈ [Task.extract, .verify, .outline] ∧ isSecondVersion payload = true then
    let fields <- shown digest (isBatched task payload) payload
    let mapping := mappingOf (isBatched task payload) fields
    return {
      enabled := true
      mapping := mapping
      originalWorkUnits := originalWorkUnits
      payload := walkFields (encode mapping) fields }
  else return {
    enabled := false
    mapping := fun _ => []
    originalWorkUnits := originalWorkUnits
    payload := payload }

/-!
# Answers
-/

namespace WirePayload

variable (wire : WirePayload)

def reverse (ref : Ref) : List (String × String) :=
  (wire.mapping ref).map Prod.swap

/-- The references of the work units of the request. -/
def namespaces : List (String × String) :=
  (wire.reverse .w).filter fun entry => entry.2 ∈ wire.originalWorkUnits

/-- `re.fullmatch(letters + r'[1-9][0-9]*', text)`. -/
def isNewSuffix (ref : Ref) (text : List Char) : Bool :=
  match text.drop ref.letters.toList.length with
  | [] => false
  | digit :: digits => ref.letters.toList.isPrefixOf text &&
      (decide ('1' ≤ digit ∧ digit ≤ '9') && digits.all fun c => decide ('0' ≤ c ∧ c ≤ '9'))

/-- The kinds of which an answer may declare new ones. -/
def declared : List Ref :=
  [.i, .l, .c, .d]

/-- A new identity of a work unit. -/
def newIdentity (ref : Ref) (identity : String) : Option String :=
  let unit := identity.toList.takeWhile (· ≠ ':')
  match identity.toList.dropWhile (· ≠ ':') with
  | [] => none
  | _ :: suffix =>
      if ref ∈ declared ∧ isNewSuffix ref suffix = true then
        (wire.namespaces.lookup (String.ofList unit)).map fun original =>
          original ++ ":" ++ String.ofList suffix
      else none

/-- `restore`. -/
def restore : Option Ref -> String -> String
  | none, identity =>
      match ruleOrRange wire.reverse identity with
      | [selected] => selected
      | _ => unbound identity
  | some ref, identity =>
      match (wire.reverse ref).lookup identity with
      | some original => original
      | none => (wire.newIdentity ref identity).getD (unbound identity)

/-- `decode`. -/
def decode (response : JsonValue) : JsonValue :=
  if wire.enabled then walk wire.restore response else response

end WirePayload

end Wire
end Llm
end KnowledgeBrain
