import KnowledgeBrain.Foundation.Json

/-!
# Feedback for a rejected response

A rejected response is sent back with what is wrong with it and the fragments
it is wrong in.  The feedback is put into one order before the first send, so
that it is the same text when it is read back.
-/

namespace KnowledgeBrain
namespace Corrections

open Foundation JsonValue

/-- `response_kind`. -/
inductive ResponseKind where
  | parsed
  | invalidJson
  | invalidCache
deriving DecidableEq

/-!
# Fragments
-/

/-- A key that can be the index of a list. -/
def indexOf : JsonValue -> Option Int
  | .number token => token.toInt?
  | .bool value => some (if value then 1 else 0)
  | _ => none

/-- `items[i]`, which counts from the end for a negative index. -/
def elementAt {A : Type} (items : List A) (i : Int) : Option A :=
  if 0 ≤ i then items[i.toNat]?
  else if -i ≤ items.length then items[items.length - (-i).toNat]?
  else none

/-- `value[key]`. -/
def itemAt (value key : JsonValue) : Option JsonValue :=
  match value, key with
  | .object fields, .text name => fields.lookup name
  | .array items, key => (indexOf key).bind (elementAt items)
  | .text content, key =>
      ((indexOf key).bind (elementAt content.toList)).map fun c => .text (String.singleton c)
  | _, _ => none

/-- The value at the end of a path. -/
def valueAt (value : JsonValue) (path : List JsonValue) : Option JsonValue :=
  path.foldlM itemAt value

def fragmentOf (response : JsonValue) (path : List JsonValue) : JsonValue :=
  match valueAt response path with
  | none => .object [("path", .array path), ("missing", .bool true)]
  | some value => .object [("path", .array path), ("value", value)]

/-- A fragment is given once; one that is missing is always given. -/
def addFragment (same : JsonValue -> JsonValue -> Bool) (response : JsonValue)
    (fragments : List JsonValue) (path : List JsonValue) : List JsonValue :=
  let fragment := fragmentOf response path
  if (valueAt response path).isSome && fragments.any (same fragment) then fragments
  else fragments ++ [fragment]

def pathOf : JsonValue -> Option (List JsonValue)
  | .object fields =>
      match fields.lookup "path" with
      | some (.array path) => some path
      | _ => none
  | _ => none

/-- `_fragments`; `same` is the equality of values. -/
def fragmentsOf (same : JsonValue -> JsonValue -> Bool) (response : JsonValue)
    (errors : List JsonValue) : Option (List JsonValue) :=
  (errors.mapM pathOf).map (List.foldl (addFragment same response) [])

/-!
# The feedback of an error
-/

/-- `ModelJSONError.feedback`. -/
structure Diagnostic where
  code : String
  message : String
  line : Nat
  column : Nat
  offset : Nat
  fragment : String
deriving DecidableEq

def natural (n : Nat) : JsonValue :=
  .number (toString n)

def feedbackFields (errors fragments : JsonValue) : Fields :=
  [("errors", errors), ("fragments", fragments)]

def jsonError (diagnostic : Diagnostic) : JsonValue :=
  .object [("path", .array []), ("code", .text diagnostic.code),
    ("detail", .text diagnostic.message), ("line", natural diagnostic.line),
    ("column", natural diagnostic.column), ("offset", natural diagnostic.offset)]

/-- The one fragment of a response that is not JSON. -/
def textFragment (content : String) : JsonValue :=
  .array [.object [("path", .array []), ("value", .text content)]]

/-- `_json_feedback`. -/
def jsonFeedback (diagnostic : Diagnostic) : Fields :=
  feedbackFields (.array [jsonError diagnostic]) (textFragment diagnostic.fragment)

def errorEntry (code detail : String) : JsonValue :=
  .object [("path", .array []), ("code", .text code), ("detail", .text detail)]

def cacheFeedback : Fields :=
  feedbackFields
    (.array [errorEntry "cached_response_invalid"
      "The cached model response could not be validated."]) (.array [])

/-!
# The bounded, ordered feedback
-/

/-- `feedback["fragments"][0]["value"]`. -/
def fragmentText (feedback : Fields) : Option String :=
  match feedback.lookup "fragments" with
  | some (.array (.object fragment :: _)) =>
      match fragment.lookup "value" with
      | some (.text content) => some content
      | _ => none
  | _ => none

/-- Assign a field that is there. -/
def assign (name : String) (f : JsonValue -> JsonValue) (fields : Fields) : Fields :=
  fields.map fun field => if field.1 = name then (name, f field.2) else field

def setFirstText (content : String) : JsonValue -> JsonValue
  | .array (.object fragment :: rest) =>
      .array (.object (assign "value" (fun _ => .text content) fragment) :: rest)
  | value => value

def setFragmentText (feedback : Fields) (content : String) : Fields :=
  assign "fragments" (setFirstText content) feedback

def lengthWith (feedback : Fields) (chars : List Char) : Nat :=
  (dumps (.object (setFragmentText feedback (String.ofList chars)))).length

/-- The loop that drops characters; the first argument bounds its passes. -/
def shorten (feedback : Fields) : Nat -> List Char -> List Char
  | 0, chars => chars
  | n + 1, chars =>
      if 512 < lengthWith feedback chars ∧ chars ≠ [] then shorten feedback n chars.dropLast
      else chars

def clip (feedback : Fields) : Option Fields :=
  (fragmentText feedback).map fun content =>
    setFragmentText feedback (String.ofList (shorten feedback content.length content.toList))

/-- `_rejection_feedback`; without a fragment to shorten it raises. -/
def rejectionFeedback (feedback : Fields) (count : Nat) (kind : ResponseKind) : Option Fields :=
  let counted := withField "rejection_count" (natural count) feedback
  match kind with
  | .invalidJson => (clip counted).map sortFields
  | _ => some (sortFields counted)

/-!
# Applying it again
-/

/-- The feedback of a rejection in the order it is stored in. -/
def storedFields (errors fragments : JsonValue) (count : Nat) : Fields :=
  [("errors", sortKeys errors), ("fragments", sortKeys fragments),
    ("rejection_count", natural count)]

theorem sortFields_counted (errors fragments : JsonValue) (count : Nat) :
    sortFields [("errors", errors), ("fragments", fragments), ("rejection_count", natural count)] =
      storedFields errors fragments count := by
  have h1 : (compare "errors" "fragments").isLE = true := by decide
  have h2 : (compare "fragments" "rejection_count").isLE = true := by decide
  simp [sortFields, sortValues, sortBy, compareNames, sortKeys, natural, storedFields, h1, h2]

theorem withField_new {errors fragments : JsonValue} (count : Nat) :
    withField "rejection_count" (natural count) (feedbackFields errors fragments) =
      [("errors", errors), ("fragments", fragments), ("rejection_count", natural count)] := by
  simp [withField, feedbackFields]

theorem withField_stored (errors fragments : JsonValue) (count : Nat) :
    withField "rejection_count" (natural count) (storedFields errors fragments count) =
      storedFields errors fragments count := by
  simp [withField, storedFields]

theorem sortFields_stored (errors fragments : JsonValue) (count : Nat) :
    sortFields (storedFields errors fragments count) = storedFields errors fragments count := by
  rw [storedFields, sortFields_counted, storedFields, sortKeys_sortKeys, sortKeys_sortKeys]

/-- The fields with a text as their only fragment. -/
def textFields (errors : JsonValue) (content : String) (count : Nat) : Fields :=
  [("errors", errors), ("fragments", textFragment content), ("rejection_count", natural count)]

variable (errors : JsonValue)

theorem fragmentText_textFields (content : String) (count : Nat) :
    fragmentText (textFields errors content count) = some content := by
  simp [fragmentText, textFields, textFragment, List.lookup_cons]

theorem setFragmentText_textFields (content content' : String) (count : Nat) :
    setFragmentText (textFields errors content count) content' =
      textFields errors content' count := by
  simp [setFragmentText, assign, textFields, textFragment, setFirstText]

theorem sortKeys_textFragment (content : String) :
    sortKeys (textFragment content) = textFragment content := by
  have horder : (compare "path" "value").isLE = true := by decide
  have hsorted : List.Pairwise (fun a b => (compareNames a b).isLE = true)
      [("path", JsonValue.array []), ("value", .text content)] := by
    simp [compareNames, horder]
  simp only [textFragment, sortKeys, sortItems, sortValues]
  rw [sortBy, hsorted.insertionSort_eq]

theorem storedFields_textFragment (content : String) (count : Nat) :
    storedFields errors (textFragment content) count =
      textFields (sortKeys errors) content count := by
  rw [storedFields, sortKeys_textFragment, textFields]

theorem lengthWith_textFields (content : String) (count : Nat) (chars : List Char) :
    lengthWith (textFields errors content count) chars =
      (dumps (.object (textFields errors (String.ofList chars) count))).length := by
  rw [lengthWith, setFragmentText_textFields]

theorem shorten_stops (feedback : Fields) (n : Nat) (chars : List Char)
    (hn : chars.length ≤ n) : ¬ (512 < lengthWith feedback (shorten feedback n chars) ∧
      shorten feedback n chars ≠ []) := by
  induction n generalizing chars with
  | zero =>
      have hnil : chars = [] := List.length_eq_zero_iff.mp (Nat.le_zero.mp hn)
      rw [shorten, hnil]
      exact fun h => h.2 rfl
  | succ n ih =>
      rw [shorten]
      split
      · apply ih
        rw [List.length_dropLast]
        omega
      · assumption

theorem shorten_of_stop (feedback : Fields) (n : Nat) (chars : List Char)
    (hstop : ¬ (512 < lengthWith feedback chars ∧ chars ≠ [])) :
    shorten feedback n chars = chars := by
  cases n with
  | zero => rfl
  | succ n => rw [shorten, if_neg hstop]

theorem lengthWith_sorted (content content' : String) (count : Nat) (chars : List Char) :
    lengthWith (textFields (sortKeys errors) content count) chars =
      lengthWith (textFields errors content' count) chars := by
  rw [lengthWith_textFields, lengthWith_textFields, ← storedFields_textFragment,
    ← sortFields_counted]
  exact length_dumps_sortKeys (.object (textFields errors (String.ofList chars) count))

theorem rejectionFeedback_text (content : String) (count : Nat) :
    exists clipped, rejectionFeedback (feedbackFields errors (textFragment content)) count
        .invalidJson = some (textFields (sortKeys errors) clipped count) ∧
      ¬ (512 < lengthWith (textFields errors content count) clipped.toList ∧
        clipped.toList ≠ []) := by
  refine ⟨String.ofList (shorten (textFields errors content count) content.length
    content.toList), ?_, ?_⟩
  · rw [rejectionFeedback, withField_new]
    change (clip (textFields errors content count)).map sortFields = _
    rw [clip, fragmentText_textFields, Option.map_some, Option.map_some,
      setFragmentText_textFields, textFields, sortFields_counted, storedFields_textFragment]
  · rw [String.toList_ofList]
    apply shorten_stops
    exact Nat.le_of_eq (String.length_toList)

/-- A feedback that the host may have stored. -/
def Stored (count : Nat) (kind : ResponseKind) (feedback : Fields) : Prop :=
  sortFields feedback = feedback ∧ rejectionFeedback feedback count kind = some feedback

theorem stored_of_counted {errors fragments : JsonValue} {count : Nat} {kind : ResponseKind}
    (hkind : kind ≠ .invalidJson) :
    rejectionFeedback (feedbackFields errors fragments) count kind =
        some (storedFields errors fragments count) ∧
      Stored count kind (storedFields errors fragments count) := by
  have hplain : forall feedback, rejectionFeedback feedback count kind =
      some (sortFields (withField "rejection_count" (natural count) feedback)) := by
    intro feedback
    cases kind with
    | invalidJson => exact absurd rfl hkind
    | parsed => rfl
    | invalidCache => rfl
  refine ⟨?_, sortFields_stored errors fragments count, ?_⟩
  · rw [hplain, withField_new, sortFields_counted]
  · rw [hplain, withField_stored, sortFields_stored]

theorem stored_of_text {errors : JsonValue} {content : String} {count : Nat} :
    exists feedback, rejectionFeedback (feedbackFields errors (textFragment content)) count
        .invalidJson = some feedback ∧ Stored count .invalidJson feedback := by
  rcases rejectionFeedback_text errors content count with ⟨clipped, hfeedback, hstop⟩
  have hsame : storedFields errors (textFragment clipped) count =
      textFields (sortKeys errors) clipped count := storedFields_textFragment errors clipped count
  refine ⟨_, hfeedback, ?_, ?_⟩
  · rw [← hsame, sortFields_stored]
  · rw [rejectionFeedback, ← hsame, withField_stored, hsame, clip,
      fragmentText_textFields, Option.map_some, Option.map_some, shorten_of_stop,
      String.ofList_toList, setFragmentText_textFields, ← hsame, sortFields_stored]
    rwa [lengthWith_sorted errors clipped content count]

end Corrections
end KnowledgeBrain
