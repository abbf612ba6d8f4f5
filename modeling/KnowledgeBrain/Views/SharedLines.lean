import KnowledgeBrain.Foundation.Json
import Mathlib.Algebra.Ring.Int.Defs

/-!
# Shared lines

Lines that several texts of a payload have in common are stored once, in a pool;
an entry then holds, in place of its text, its lines and the places in the pool
of those that are there.
-/

namespace KnowledgeBrain
namespace Views

open Foundation
open JsonValue (Fields byteLength withField fieldBytes)

inductive Raised where
  | typeError
  | attributeError
deriving DecidableEq

/-!
# Entries with a text
-/

/-- What a loop over `payload.get(field)` runs over, its values if it is an object. -/
def records : JsonValue -> Except Raised (List JsonValue)
  | .object fields => .ok (fields.map (·.2))
  | .array items => .ok items
  | .text value => .ok (value.toList.map fun c => .text (String.singleton c))
  | _ => .error .typeError

/-- `entry.get('text')` where it is a text. -/
def entryText : JsonValue -> Except Raised (Option String)
  | .object fields =>
      match fields.lookup "text" with
      | some (.text value) => .ok (some value)
      | _ => .ok none
  | _ => .error .attributeError

def valueTexts (value : JsonValue) : Except Raised (List String) :=
  records value >>= fun found =>
    (found.mapM entryText).map fun texts => texts.filterMap id

def payloadTexts (fields : List String) (payload : Fields) : Except Raised (List String) :=
  (fields.mapM fun field => valueTexts ((payload.lookup field).getD (.object []))).map
    List.flatten

/-!
# The pool
-/

/-- An item of `text_lines`: a line, or the identity of a shared one. -/
inductive PooledLine where
  | index (identity : Nat)
  | line (text : List Char)
deriving DecidableEq

def PooledLine.json : PooledLine -> JsonValue
  | .index identity => .number (toString identity)
  | .line text => .text (String.ofList text)

def textLines (text : String) : List (List Char) :=
  text.toList.splitOn '\n'

/-- `counts.elements()`. -/
def countedLines (texts : List String) : List (List Char) :=
  (texts.flatMap textLines).filter fun line => line ≠ []

def lineSize (line : List Char) : Nat :=
  byteLength (.text (String.ofList line))

/-- The shared lines, each at the place of its identity. -/
def share (lines : List (List Char)) : List (List Char) :=
  lines.eraseDups.foldl (fun shared line =>
    if lines.count line * ((toString shared.length).length + 1) <
        (lines.count line - 1) * lineSize line then
      shared ++ [line]
    else shared) []

/-- `shared.get(line, line)`. -/
def pooled (shared : List (List Char)) (line : List Char) : PooledLine :=
  if shared.contains line then .index (shared.idxOf line) else .line line

def textSize (text : String) : Nat :=
  byteLength (.object [("text", .text text)])

def linesSize (lines : List PooledLine) : Nat :=
  byteLength (.object [("text_lines", .array (lines.map PooledLine.json))])

def plan (shared : List (List Char)) (text : String) : Option (List PooledLine) :=
  let lines := (textLines text).map (pooled shared)
  if linesSize lines < textSize text then some lines else none

def usedIdentities (shared : List (List Char)) (texts : List String) : List PooledLine :=
  (texts.filterMap (plan shared)).flatten

def usedLines (shared : List (List Char)) (texts : List String) : List (List Char) :=
  shared.filter fun line => .index (shared.idxOf line) ∈ usedIdentities shared texts

/-- `remap[line]` for the identity of a shared line. -/
def renumber (shared pool : List (List Char)) : PooledLine -> PooledLine
  | .index identity => .index (pool.idxOf (shared.getD identity []))
  | .line text => .line text

def renumbered (shared pool : List (List Char)) (text : String) : Option (List PooledLine) :=
  (plan shared text).map fun lines => lines.map (renumber shared pool)

def poolValue (pool : List (List Char)) : JsonValue :=
  .array (pool.map fun line => .text (String.ofList line))

def poolSize (pool : List (List Char)) : Nat :=
  byteLength (.object [("text_pool", poolValue pool)])

/-- The bytes that the planned entries save, the pool not counted. -/
def saving (plans : String -> Option (List PooledLine)) (texts : List String) : Int :=
  (texts.filterMap fun text => (plans text).map fun lines =>
    (textSize text : Int) - linesSize lines).sum

/-!
# The payload
-/

section Rewriting

variable (plans : String -> Option (List PooledLine))

def rewriteEntry : JsonValue -> JsonValue
  | .object fields =>
      match fields.lookup "text" with
      | some (.text value) =>
          match plans value with
          | some lines =>
              .object (withField "text_lines" (.array (lines.map PooledLine.json))
                (fields.filter fun field => field.1 ≠ "text"))
          | none => .object fields
      | _ => .object fields
  | other => other

def rewriteValue : JsonValue -> JsonValue
  | .object fields => .object (fields.map fun field => (field.1, rewriteEntry plans field.2))
  | .array items => .array (items.map (rewriteEntry plans))
  | other => other

def rewritePayload (fields : List String) (payload : Fields) : Fields :=
  payload.map fun field =>
    if field.1 ∈ fields then (field.1, rewriteValue plans field.2) else field

end Rewriting

/-- `_share_text_lines`. -/
def shareTextLines (fields : List String) (payload : Fields) : Except Raised Fields :=
  if (payload.lookup "text_pool").isSome then .ok payload
  else
    (payloadTexts fields payload).map fun texts =>
      let shared := share (countedLines texts)
      let pool := usedLines shared texts
      let plans := renumbered shared pool
      if pool = [] ∨ saving plans texts ≤ poolSize pool then payload
      else withField "text_pool" (poolValue pool) (rewritePayload plans fields payload)

/-!
# Reading through the pool
-/

def PooledLine.text (pool : List (List Char)) : PooledLine -> Option (List Char)
  | .index identity => pool[identity]?
  | .line text => some text

/-- The lines stand for a text, each integer for the line of the pool it indexes. -/
def Restores (pool : List (List Char)) (lines : List PooledLine) (text : String) : Prop :=
  exists texts : List (List Char), lines.map (PooledLine.text pool) = texts.map some ∧
    ['\n'].intercalate texts = text.toList

/-- A record and what became of it. -/
inductive EntryShared (pool : List (List Char)) : JsonValue -> JsonValue -> Prop where
  | unchanged (entry : JsonValue) : EntryShared pool entry entry
  | rewritten {entry entry' : Fields} {text : String} {lines : List PooledLine}
      (had : entry.lookup "text" = some (.text text))
      (left_out : entry'.lookup "text" = none)
      (holds : entry'.lookup "text_lines" = some (.array (lines.map PooledLine.json)))
      (restores : Restores pool lines text)
      (rest : forall name, name ≠ "text" -> name ≠ "text_lines" ->
        entry'.lookup name = entry.lookup name) :
      EntryShared pool (.object entry) (.object entry')

inductive ValueShared (pool : List (List Char)) : JsonValue -> JsonValue -> Prop where
  | unchanged (value : JsonValue) : ValueShared pool value value
  | object {fields fields' : Fields}
      (entries : List.Forall₂ (fun a b => a.1 = b.1 ∧ EntryShared pool a.2 b.2) fields fields') :
      ValueShared pool (.object fields) (.object fields')
  | array {items items' : List JsonValue}
      (entries : List.Forall₂ (EntryShared pool) items items') :
      ValueShared pool (.array items) (.array items')

/-- A payload and the one that holds a pool: the named fields share their lines,
every other field is as it was. -/
def PayloadShared (fields : List String) (payload payload' : Fields) : Prop :=
  exists (pool : List (List Char)) (kept : Fields), payload.lookup "text_pool" = none ∧
    payload' = kept ++ [("text_pool", poolValue pool)] ∧
      List.Forall₂ (fun a b => a.1 = b.1 ∧ ValueShared pool a.2 b.2 ∧
        (a.1 ∉ fields -> a.2 = b.2)) payload kept

theorem text_pooled {shared pool : List (List Char)} {line : List Char}
    (hpool : line ∈ shared -> line ∈ pool) :
    PooledLine.text pool (renumber shared pool (pooled shared line)) = some line := by
  unfold pooled
  by_cases hshared : line ∈ shared
  · rw [if_pos (List.contains_iff_mem.mpr hshared)]
    show pool[pool.idxOf (shared.getD (shared.idxOf line) [])]? = some line
    have hline : shared.getD (shared.idxOf line) [] = line := by
      rw [List.getD_eq_getElem?_getD, List.getElem?_idxOf hshared]
      rfl
    rw [hline]
    exact List.getElem?_idxOf (hpool hshared)
  · rw [if_neg (fun h => hshared (List.contains_iff_mem.mp h))]
    rfl

theorem plan_eq_some {shared : List (List Char)} {text : String} {lines : List PooledLine}
    (h : plan shared text = some lines) : lines = (textLines text).map (pooled shared) := by
  unfold plan at h
  dsimp only at h
  split at h
  · exact (Option.some.inj h).symm
  · cases h

variable {texts : List String}

theorem mem_usedLines {shared : List (List Char)} {text : String} {lines : List PooledLine}
    (hplan : plan shared text = some lines) (htext : text ∈ texts) {line : List Char}
    (hline : line ∈ textLines text) (hshared : line ∈ shared) :
    line ∈ usedLines shared texts := by
  unfold usedLines usedIdentities
  rw [List.mem_filter]
  constructor
  · exact hshared
  · have hmem : PooledLine.index (shared.idxOf line) ∈ lines := by
      rw [plan_eq_some hplan, List.mem_map]
      refine ⟨line, hline, ?_⟩
      unfold pooled
      rw [if_pos (List.contains_iff_mem.mpr hshared)]
    rw [decide_eq_true_eq, List.mem_flatten]
    exact ⟨lines, List.mem_filterMap.mpr ⟨text, htext, hplan⟩, hmem⟩

theorem restores_renumbered {shared : List (List Char)} {text : String} {lines : List PooledLine}
    (htext : text ∈ texts) (h : renumbered shared (usedLines shared texts) text = some lines) :
    Restores (usedLines shared texts) lines text := by
  unfold renumbered at h
  rw [Option.map_eq_some_iff] at h
  rcases h with ⟨planned, hplan, rfl⟩
  refine ⟨textLines text, ?_, List.intercalate_splitOn '\n'⟩
  rw [plan_eq_some hplan, List.map_map, List.map_map]
  apply List.map_congr_left
  intro line hline
  exact text_pooled (mem_usedLines hplan htext hline)

/-!
# Every text of the payload is counted
-/

theorem texts_of_mapM {items : List JsonValue} {texts : List (Option String)}
    (h : items.mapM entryText = .ok texts) {entry : JsonValue} (hentry : entry ∈ items)
    {text : String} (htext : entryText entry = .ok (some text)) : text ∈ texts.filterMap id := by
  have hall := mapM_eq_ok h
  clear h
  induction hall with
  | nil =>
      cases hentry
  | @cons first answer _ _ hfirst _ ih =>
      rcases List.mem_cons.mp hentry with rfl | hrest
      · rw [htext] at hfirst
        cases hfirst
        exact List.mem_cons_self
      · rw [List.mem_filterMap]
        rcases List.mem_filterMap.mp (ih hrest) with ⟨answer', hmem, heq⟩
        exact ⟨answer', List.mem_cons_of_mem _ hmem, heq⟩

theorem valueTexts_eq_ok {value : JsonValue} (h : valueTexts value = .ok texts) :
    exists found answers, records value = .ok found ∧ found.mapM entryText = .ok answers ∧
      texts = answers.filterMap id := by
  obtain ⟨found, hfound, hrest⟩ := bind_eq_ok h
  cases hanswers : found.mapM entryText with
  | error e =>
      rw [hanswers] at hrest
      cases hrest
  | ok answers =>
      rw [hanswers] at hrest
      cases hrest
      exact ⟨found, answers, hfound, hanswers, rfl⟩

theorem payloadTexts_eq_ok {fields : List String} {payload : Fields}
    (h : payloadTexts fields payload = .ok texts) :
    exists lists, List.Forall₂ (fun field found =>
        valueTexts ((payload.lookup field).getD (.object [])) = .ok found) fields lists ∧
      texts = lists.flatten := by
  unfold payloadTexts at h
  cases hlists : fields.mapM fun field =>
      valueTexts ((payload.lookup field).getD (.object [])) with
  | error e =>
      rw [hlists] at h
      cases h
  | ok lists =>
      rw [hlists] at h
      cases h
      exact ⟨lists, mapM_eq_ok hlists, rfl⟩

/-- The texts of a named field are among the texts of the payload. -/
theorem valueTexts_of_payloadTexts {fields : List String} {payload : Fields}
    (h : payloadTexts fields payload = .ok texts) (hkeys : (payload.map Prod.fst).Nodup)
    {field : String × JsonValue} (hfield : field ∈ payload) (hname : field.1 ∈ fields) :
    exists found, valueTexts field.2 = .ok found ∧ found ⊆ texts := by
  rcases payloadTexts_eq_ok h with ⟨lists, hall, rfl⟩
  have hlookup : payload.lookup field.1 = some field.2 := Table.lookup_rows_of_mem hkeys hfield
  clear h
  induction hall with
  | nil =>
      cases hname
  | @cons name found _ lists hfirst _ ih =>
      rcases List.mem_cons.mp hname with heq | hrest
      · rw [← heq, hlookup] at hfirst
        refine ⟨found, hfirst, ?_⟩
        rw [List.flatten_cons]
        exact List.subset_append_left _ _
      · rcases ih hrest with ⟨found', hfound', hsub⟩
        refine ⟨found', hfound', List.Subset.trans hsub ?_⟩
        rw [List.flatten_cons]
        exact List.subset_append_right _ _

/-!
# What is rewritten is restored
-/

theorem rewriteEntry_shared {plans : String -> Option (List PooledLine)}
    {pool : List (List Char)} {entry : JsonValue}
    (hplans : forall text lines, entryText entry = .ok (some text) -> plans text = some lines ->
      Restores pool lines text) :
    EntryShared pool entry (rewriteEntry plans entry) := by
  unfold rewriteEntry
  split
  case h_1 fields =>
    split
    case h_1 text hlookup =>
      split
      case h_1 lines hlines =>
        have htext : entryText (.object fields) = .ok (some text) := by
          simp [entryText, hlookup]
        have hout : (fields.filter fun field => field.1 ≠ "text").lookup "text" = none := by
          rw [List.lookup_eq_none_iff]
          intro field hmem
          have hne := (List.mem_filter.mp hmem).2
          simp at hne
          simp [Ne.symm hne]
        apply EntryShared.rewritten hlookup
        · rw [JsonValue.lookup_withField_of_ne (by decide)]
          exact hout
        · exact JsonValue.lookup_withField _ _ _
        · exact hplans text lines htext hlines
        · intro name htextName hlinesName
          rw [JsonValue.lookup_withField_of_ne hlinesName,
            JsonValue.lookup_filter_ne htextName]
      case h_2 =>
        exact .unchanged _
    case h_2 =>
      exact .unchanged _
  case h_2 =>
    exact .unchanged _

variable {found : List String}

theorem rewriteValue_shared {plans : String -> Option (List PooledLine)} {pool : List (List Char)}
    {value : JsonValue} (htexts : valueTexts value = .ok found)
    (hplans : forall text lines, text ∈ found -> plans text = some lines ->
      Restores pool lines text) :
    ValueShared pool value (rewriteValue plans value) := by
  rcases valueTexts_eq_ok htexts with ⟨entries, answers, hrecords, hanswers, rfl⟩
  have hentry : forall entry, entry ∈ entries ->
      EntryShared pool entry (rewriteEntry plans entry) := by
    intro entry hmem
    apply rewriteEntry_shared
    intro text lines htext hlines
    exact hplans text lines (texts_of_mapM hanswers hmem htext) hlines
  cases value with
  | object fields =>
      cases hrecords
      apply ValueShared.object
      rw [List.forall₂_map_right_iff, List.forall₂_same]
      intro field hmem
      exact ⟨rfl, hentry field.2 (List.mem_map_of_mem hmem)⟩
  | array items =>
      cases hrecords
      apply ValueShared.array
      rw [List.forall₂_map_right_iff, List.forall₂_same]
      exact hentry
  | null => exact .unchanged _
  | bool b => exact .unchanged _
  | number token => exact .unchanged _
  | text t => exact .unchanged _

theorem withField_of_lookup_none {name : String} (value : JsonValue) {fields : Fields}
    (h : fields.lookup name = none) : withField name value fields = fields ++ [(name, value)] := by
  induction fields with
  | nil =>
      rfl
  | cons field rest ih =>
      rcases field with ⟨key, old⟩
      rw [List.lookup_cons] at h
      by_cases hkey : name = key
      · subst hkey
        simp at h
      · rw [beq_eq_false_iff_ne.mpr hkey] at h
        rw [withField, if_neg (Ne.symm hkey), ih h]
        rfl

theorem lookup_rewritePayload_none {plans : String -> Option (List PooledLine)}
    {fields : List String} {payload : Fields} {name : String} (h : payload.lookup name = none) :
    (rewritePayload plans fields payload).lookup name = none := by
  rw [List.lookup_eq_none_iff] at h ⊢
  intro field hmem
  rcases List.mem_map.mp hmem with ⟨old, hold, rfl⟩
  have hname := h old hold
  split
  · exact hname
  · exact hname

/-- The texts are counted, and there is a pool, or the payload stays as it is. -/
theorem shareTextLines_eq_ok {fields : List String} {payload payload' : Fields}
    (h : shareTextLines fields payload = .ok payload') :
    payload' = payload ∨ exists texts pool, payload.lookup "text_pool" = none ∧
      payloadTexts fields payload = .ok texts ∧
      pool = usedLines (share (countedLines texts)) texts ∧
      (poolSize pool : Int) < saving (renumbered (share (countedLines texts)) pool) texts ∧
      pool ≠ [] ∧
      payload' = rewritePayload (renumbered (share (countedLines texts)) pool) fields payload ++
        [("text_pool", poolValue pool)] := by
  unfold shareTextLines at h
  by_cases hpresent : (payload.lookup "text_pool").isSome = true
  · rw [if_pos hpresent] at h
    cases h
    exact .inl rfl
  · rw [if_neg hpresent] at h
    rw [Bool.not_eq_true, Option.isSome_eq_false_iff, Option.isNone_iff_eq_none] at hpresent
    cases htexts : payloadTexts fields payload with
    | error e =>
        rw [htexts] at h
        cases h
    | ok texts =>
        rw [htexts] at h
        have hresult := Except.ok.inj h
        dsimp only at hresult
        split at hresult
        · exact .inl hresult.symm
        · rename_i hsaves
          rw [not_or, Int.not_le] at hsaves
          right
          refine ⟨texts, _, hpresent, rfl, rfl, hsaves.2, hsaves.1, ?_⟩
          rw [← hresult]
          exact withField_of_lookup_none _ (lookup_rewritePayload_none hpresent)

theorem shareTextLines_shared {fields : List String} {payload payload' : Fields}
    (hkeys : (payload.map Prod.fst).Nodup) (h : shareTextLines fields payload = .ok payload') :
    payload' = payload ∨ PayloadShared fields payload payload' := by
  rcases shareTextLines_eq_ok h with rfl | ⟨texts, pool, habsent, htexts, rfl, -, -, rfl⟩
  · exact .inl rfl
  · right
    refine ⟨_, _, habsent, rfl, ?_⟩
    unfold rewritePayload
    rw [List.forall₂_map_right_iff, List.forall₂_same]
    intro field hmem
    split
    · rename_i hname
      rcases valueTexts_of_payloadTexts htexts hkeys hmem hname with ⟨found, hfound, hsub⟩
      refine ⟨rfl, rewriteValue_shared hfound ?_, fun hnot => absurd hname hnot⟩
      intro text lines htext hlines
      exact restores_renumbered (hsub htext) hlines
    · exact ⟨rfl, .unchanged _, fun _ => rfl⟩

/-!
# Sharing lines saves bytes

What the planned entries save is more than the bytes of the pool, so the
payload with the pool takes no more bytes than the one without.
-/

variable {plans : String -> Option (List PooledLine)} {fields : List String} {payload : Fields}

/-- What an entry with this text saves. -/
def gain (plans : String -> Option (List PooledLine)) (text : String) : Int :=
  match plans text with
  | some lines => (textSize text : Int) - linesSize lines
  | none => 0

theorem saving_eq (plans : String -> Option (List PooledLine)) (texts : List String) :
    saving plans texts = (texts.map (gain plans)).sum := by
  unfold saving
  induction texts with
  | nil =>
      rfl
  | cons text rest ih =>
      rw [List.filterMap_cons, List.map_cons, List.sum_cons]
      unfold gain
      cases hplan : plans text with
      | none =>
          rw [Option.map_none]
          show _ = 0 + _
          rw [Int.zero_add]
          exact ih
      | some lines =>
          rw [Option.map_some]
          show (_ :: _).sum = _
          rw [List.sum_cons]
          exact congrArg _ ih

theorem byteLength_rewriteEntry {entry : JsonValue} {text : Option String}
    (h : entryText entry = .ok text) :
    (byteLength (rewriteEntry plans entry) : Int) + ((text.map (gain plans)).getD 0) ≤
      byteLength entry := by
  cases entry with
  | object entry =>
      unfold entryText at h
      unfold rewriteEntry
      dsimp only at h ⊢
      split at h
      · rename_i value hlookup
        cases h
        dsimp only [Option.map_some, Option.getD_some]
        unfold gain
        cases plans value with
        | none =>
            simp
        | some lines =>
            have hreplace := @JsonValue.byteLength_replaceField_le "text" "text_lines"
              (.text value) (.array (lines.map PooledLine.json)) entry hlookup
            dsimp only
            unfold textSize linesSize
            omega
      · cases h
        simp
  | null => cases h
  | bool b => cases h
  | number token => cases h
  | text t => cases h
  | array items => cases h

theorem sum_rewriteEntry {entries : List JsonValue} {answers : List (Option String)}
    (h : entries.mapM entryText = .ok answers) :
    ((entries.map fun entry => byteLength (rewriteEntry plans entry)).sum : Int) +
        saving plans (answers.filterMap id) ≤
      ((entries.map byteLength).sum : Nat) := by
  have hall := mapM_eq_ok h
  clear h
  induction hall with
  | nil =>
      simp [saving_eq]
  | @cons entry answer _ _ hfirst _ ih =>
      have hentry := @byteLength_rewriteEntry plans _ _ hfirst
      cases answer with
      | none =>
          simp at hentry ih ⊢
          omega
      | some text =>
          simp [saving_eq] at hentry ih ⊢
          omega

/-!
# Values and payloads
-/

theorem byteLength_object_map (g : String × JsonValue -> JsonValue) (fields : Fields) :
    byteLength (.object (fields.map fun field => (field.1, g field))) +
        (fields.map fun field => byteLength field.2).sum =
      byteLength (.object fields) + (fields.map fun field => byteLength (g field)).sum := by
  by_cases hne : fields = []
  · rw [hne]
    rfl
  · rw [JsonValue.byteLength_object hne, JsonValue.byteLength_object (by simpa using hne)]
    clear hne
    induction fields with
    | nil =>
        rfl
    | cons field rest ih =>
        simp only [List.map_cons, List.sum_cons, fieldBytes] at ih ⊢
        omega

theorem byteLength_array_map (g : JsonValue -> JsonValue) (items : List JsonValue) :
    byteLength (.array (items.map g)) + (items.map byteLength).sum =
      byteLength (.array items) + (items.map fun item => byteLength (g item)).sum := by
  by_cases hne : items = []
  · rw [hne]
    rfl
  · rw [JsonValue.byteLength_array hne, JsonValue.byteLength_array (by simpa using hne)]
    clear hne
    induction items with
    | nil =>
        rfl
    | cons item rest ih =>
        simp only [List.map_cons, List.sum_cons] at ih ⊢
        omega

theorem byteLength_rewriteValue {value : JsonValue} (h : valueTexts value = .ok found) :
    (byteLength (rewriteValue plans value) : Int) + saving plans found ≤
      byteLength value := by
  rcases valueTexts_eq_ok h with ⟨entries, answers, hrecords, hanswers, rfl⟩
  have hsum := @sum_rewriteEntry plans _ _ hanswers
  cases value with
  | object fields =>
      cases hrecords
      have hmap := byteLength_object_map (fun field => rewriteEntry plans field.2) fields
      rw [List.map_map, List.map_map] at hsum
      simp only [Function.comp_def] at hsum
      show (byteLength (.object _) : Int) + _ ≤ _
      omega
  | array items =>
      cases hrecords
      have hmap := byteLength_array_map (rewriteEntry plans) entries
      show (byteLength (.array _) : Int) + _ ≤ _
      omega
  | text t =>
      cases hrecords
      have hnone : answers.filterMap id = [] := by
        have hall := mapM_eq_ok hanswers
        generalize t.toList = chars at hall
        rw [List.forall₂_map_left_iff] at hall
        cases hall with
        | nil => rfl
        | cons hfirst _ => cases hfirst
      rw [hnone]
      simp [saving_eq, rewriteValue]
  | null => cases hrecords
  | bool b => cases hrecords
  | number token => cases hrecords

/-- What is summed over names looked up is summed over the rows of these names. -/
theorem sum_lookup {V : Type} {g : V -> Int} {default : V} (hdefault : g default = 0)
    {names : List String} {rows : List (String × V)} (hnames : names.Nodup)
    (hrows : (rows.map Prod.fst).Nodup) :
    (names.map fun name => g ((rows.lookup name).getD default)).sum =
      (rows.map fun row => if row.1 ∈ names then g row.2 else 0).sum := by
  induction rows with
  | nil =>
      simp [hdefault]
  | cons row rest ih =>
      rw [List.map_cons, List.nodup_cons] at hrows
      rw [List.map_cons, List.sum_cons, ← ih hrows.2]
      clear ih
      have hnone : rest.lookup row.1 = none := by
        rw [List.lookup_eq_none_iff]
        intro other hother
        apply bne_iff_ne.mpr
        intro heq
        exact hrows.1 (heq ▸ List.mem_map_of_mem hother)
      induction names with
      | nil =>
          simp
      | cons name others ih =>
          rw [List.nodup_cons] at hnames
          have hothers := ih hnames.2
          rw [List.map_cons, List.map_cons, List.sum_cons, List.sum_cons, hothers]
          by_cases hname : name = row.1
          · subst hname
            rw [hnone, if_neg hnames.1, if_pos List.mem_cons_self, List.lookup_cons_self]
            simp only [Option.getD_some, Option.getD_none, hdefault]
          · have hmem : row.1 ∈ name :: others <-> row.1 ∈ others := by
              simp [Ne.symm hname]
            rw [List.lookup_cons, beq_eq_false_iff_ne.mpr hname]
            simp only [hmem]
            omega

/-- The texts of a value, none where they cannot be read. -/
def textsOf (value : JsonValue) : List String :=
  (valueTexts value).toOption.getD []

theorem textsOf_eq {value : JsonValue} (h : valueTexts value = .ok found) :
    textsOf value = found := by
  unfold textsOf
  rw [h]
  rfl

theorem saving_append (texts more : List String) :
    saving plans (texts ++ more) = saving plans texts + saving plans more := by
  unfold saving
  rw [List.filterMap_append, List.sum_append]

theorem saving_payloadTexts (h : payloadTexts fields payload = .ok texts) :
    saving plans texts = (fields.map fun name =>
      saving plans (textsOf ((payload.lookup name).getD (.object [])))).sum := by
  rcases payloadTexts_eq_ok h with ⟨lists, hall, rfl⟩
  clear h
  induction hall with
  | nil =>
      rfl
  | cons hfirst _ ih =>
      rw [List.flatten_cons, saving_append, ih, List.map_cons, List.sum_cons,
        textsOf_eq hfirst]

theorem sum_rewritePayload (hfields : fields.Nodup) (hkeys : (payload.map Prod.fst).Nodup)
    (h : payloadTexts fields payload = .ok texts) :
    (((rewritePayload plans fields payload).map fieldBytes).sum : Int) + saving plans texts ≤
      ((payload.map fieldBytes).sum : Nat) := by
  have hread : forall field, field ∈ payload -> field.1 ∈ fields ->
      valueTexts field.2 = .ok (textsOf field.2) := by
    intro field hmem hname
    rcases valueTexts_of_payloadTexts h hkeys hmem hname with ⟨found, hfound, -⟩
    rw [textsOf_eq hfound]
    exact hfound
  have hnothing : saving plans (textsOf (.object [])) = 0 := rfl
  have hsum := @sum_lookup _ (fun value => saving plans (textsOf value)) _ hnothing
    fields payload hfields hkeys
  rw [saving_payloadTexts h, hsum]
  clear hsum h hkeys
  unfold rewritePayload
  induction payload with
  | nil =>
      rfl
  | cons field rest ih =>
      have hrest := ih fun other hmem => hread other (List.mem_cons_of_mem _ hmem)
      simp only [List.map_cons, List.sum_cons]
      by_cases hname : field.1 ∈ fields
      · have hvalue := @byteLength_rewriteValue _ plans _ (hread field List.mem_cons_self hname)
        rw [if_pos hname, if_pos hname]
        simp only [fieldBytes] at hrest ⊢
        omega
      · rw [if_neg hname, if_neg hname]
        omega

/-- The payload takes no more bytes with shared lines. -/
theorem byteLength_shareTextLines {payload' : Fields} (hfields : fields.Nodup)
    (hkeys : (payload.map Prod.fst).Nodup) (h : shareTextLines fields payload = .ok payload') :
    byteLength (.object payload') ≤ byteLength (.object payload) := by
  rcases shareTextLines_eq_ok h with rfl | ⟨texts, pool, -, htexts, -, hsaves, -, rfl⟩
  · exact Nat.le_refl _
  · have hsum := @sum_rewritePayload _ (renumbered (share (countedLines texts)) pool) _ _
      hfields hkeys htexts
    have hpool : poolSize pool = fieldBytes ("text_pool", poolValue pool) + 1 := by
      unfold poolSize
      rw [JsonValue.byteLength_object (List.cons_ne_nil _ _)]
      rfl
    have hne : payload ≠ [] := by
      rintro rfl
      unfold rewritePayload at hsum
      simp only [List.map_nil, List.sum_nil] at hsum
      omega
    rw [JsonValue.byteLength_object (by simp), JsonValue.byteLength_object hne, List.map_append,
      List.sum_append]
    simp only [List.map_cons, List.map_nil, List.sum_cons, List.sum_nil]
    omega

end Views
end KnowledgeBrain
