import KnowledgeBrain.Foundation.Sorting
import KnowledgeBrain.Foundation.Keyed
import KnowledgeBrain.Foundation.MaximalRuns

/-!
# Spans of template parts

A model selects template parts by the ends of a span.  The spans that are
advertised and the spans that are expanded are read off one native order of
the registered parts.
-/

namespace KnowledgeBrain
namespace Templates

open Foundation

section

/-!
# Parts
-/

structure Selector where
  sourceRangeId : String
  start : Nat
  stop : Nat
deriving DecidableEq

/-- A part of a frozen document, which is named by the digest of its source index. -/
structure TemplatePart where
  digest : String
  unitId : String
  selectors : List Selector
  headerRowCount : Option Nat
deriving DecidableEq

structure PartKey where
  digest : String
  unitId : String
  selectors : List Selector
deriving DecidableEq

/-- `template_part_key`. -/
def templatePartKey (part : TemplatePart) : PartKey where
  digest := part.digest
  unitId := part.unitId
  selectors := part.selectors

/-- Parts under their identities. -/
abbrev PartPool := List (String × TemplatePart)

inductive PathStep where
  | field (name : String)
  | index (ordinal : Nat)
deriving DecidableEq

inductive TemplateError where
  | contract (path : List PathStep) (code detail : String)
  | integrity (message : String)
  | missing (key : PartKey)
deriving DecidableEq

/-!
# Native order
-/

abbrev Position := Nat × Nat × Int

def comparePositions (a b : String × TemplatePart × Position) : Ordering :=
  (compare a.2.2.1 b.2.2.1).then ((compare a.2.2.2.1 b.2.2.2.1).then
    (compare a.2.2.2.2 b.2.2.2.2))

/-- Where the selected text of a part begins, before all text for a complete unit. -/
def partStart (part : TemplatePart) : Int :=
  match part.selectors.map fun selected => (selected.start : Int) with
  | [] => -1
  | first :: rest => rest.foldl min first

/-- The place of a unit in its document; the last one of an identity counts. -/
def unitOrdinal (units : List String) (unitId : String) : Option Nat :=
  (units.zipIdx.reverse.find? fun unit => unit.1 = unitId).map Prod.snd

variable (repository : String -> Except TemplateError (List String))

/-- The documents in the order in which the parts name them. -/
def documentsOf (parts : PartPool) : List (String × Nat) :=
  parts.foldl (fun documents entry => number id documents entry.2.digest) []

def positionOf (documents : List (String × Nat)) (entry : String × TemplatePart) :
    Except TemplateError (String × TemplatePart × Position) := do
  let units <- repository entry.2.digest
  match unitOrdinal units entry.2.unitId with
  | none => throw (.integrity "template part refers to an unknown frozen unit")
  | some ordinal =>
      return (entry.1, entry.2,
        ((documents.lookup entry.2.digest).getD 0, ordinal, partStart entry.2))

/-- `ordered_template_part_ids`, with the parts. -/
def orderedTemplateParts (parts : PartPool) : Except TemplateError PartPool := do
  let positions <- parts.mapM (positionOf repository (documentsOf parts))
  return (sortBy comparePositions positions).map fun entry => (entry.1, entry.2.1)

/-- The identity of a key among the visible parts. -/
def aliasOf (parts : PartPool) (key : PartKey) : Option String :=
  (parts.reverse.find? fun entry => templatePartKey entry.2 = key).map Prod.fst

/-- `template_part_runs`. -/
def templatePartRuns (parts registered : PartPool) :
    Except TemplateError (List (String × String)) :=
  if parts = [] then .ok []
  else do
    let ordered <- orderedTemplateParts repository registered
    return MaximalRuns.walk (fun entry => aliasOf parts (templatePartKey entry.2))
      (fun entry => entry.2.digest) ordered

/-!
# Expansion
-/

structure Span where
  startPartId : String
  endPartId : String
deriving DecidableEq

/-- An endpoint that was supplied. -/
def checkEndpoint (parts : PartPool) (path : List PathStep) (ordinal : Nat)
    (field identity : String) : Except TemplateError TemplatePart :=
  match parts.lookup identity with
  | some part => .ok part
  | none => .error (.contract (path ++ [.index ordinal, .field field])
      "outline_unknown_template" "Select a template part supplied in this request.")

def checkSpan (parts : PartPool) (path : List PathStep) (entry : Span × Nat) :
    Except TemplateError Unit := do
  let first <- checkEndpoint parts path entry.2 "start_part_id" entry.1.startPartId
  let last <- checkEndpoint parts path entry.2 "end_part_id" entry.1.endPartId
  if first.digest ≠ last.digest then
    throw (.contract (path ++ [.index entry.2, .field "end_part_id"])
      "outline_invalid_template_span" "Keep both endpoints in the same frozen document.")

/-- The place of the key of a supplied part; the last one of a key counts. -/
def placeOf (parts : PartPool) (ordered : List PartKey) (path : List PathStep) (ordinal : Nat)
    (field identity : String) : Except TemplateError Nat := do
  let part <- checkEndpoint parts path ordinal field identity
  match ordered.zipIdx.reverse.find? fun entry => entry.1 = templatePartKey part with
  | some entry => return entry.2
  | none => throw (.missing (templatePartKey part))

/-- A key that is selected for the first time. -/
def addSelected (parts : PartPool) (state : List String × List PartKey) (key : PartKey) :
    List String × List PartKey :=
  if key ∈ state.2 then state
  else (state.1 ++ (aliasOf parts key).toList, state.2 ++ [key])

/-- The keys from the first endpoint of a span to its last one. -/
def selectSpan (parts : PartPool) (ordered : List PartKey) (path : List PathStep)
    (entry : Span × Nat) : Except TemplateError (List PartKey) := do
  let start <- placeOf parts ordered path entry.2 "start_part_id" entry.1.startPartId
  let stop <- placeOf parts ordered path entry.2 "end_part_id" entry.1.endPartId
  if start > stop then
    throw (.contract (path ++ [.index entry.2, .field "end_part_id"])
      "outline_invalid_template_span" "Select the last part after the first in native order.")
  let selected := (ordered.drop start).take (stop + 1 - start)
  if selected.any (fun key => (aliasOf parts key).isNone) then
    throw (.contract (path ++ [.index entry.2, .field "end_part_id"])
      "outline_invalid_template_span"
      ("Select a continuous span read in this request, or use discrete template_part_ids; " ++
        "this span includes unread parts."))
  return selected

def expandSpan (parts : PartPool) (ordered : List PartKey) (path : List PathStep)
    (state : List String × List PartKey) (entry : Span × Nat) :
    Except TemplateError (List String × List PartKey) := do
  let selected <- selectSpan parts ordered path entry
  return selected.foldl (addSelected parts) state

/-- `expand_template_spans`. -/
def expandTemplateSpans (parts : PartPool) (spans : List Span) (path : List PathStep)
    (registered : PartPool) : Except TemplateError (List String) :=
  if spans = [] then .ok []
  else do
    spans.zipIdx.forM (checkSpan parts path)
    let ordered <- orderedTemplateParts repository registered
    let keys := ordered.map fun entry => templatePartKey entry.2
    let state <- spans.zipIdx.foldlM (expandSpan parts keys path) ([], [])
    return state.1

end

/-!
# The native order

The order keeps all registered parts and keeps the parts of one document
together, whatever places of units and selections are equal.
-/

instance : Std.TransCmp comparePositions :=
  inferInstanceAs (Std.TransCmp
    (compareLex (compareOn fun entry : String × TemplatePart × Position => entry.2.2.1)
      (compareLex (compareOn fun entry => entry.2.2.2.1) (compareOn fun entry => entry.2.2.2.2))))

theorem document_le {a b : String × TemplatePart × Position}
    (h : (comparePositions a b).isLE = true) : a.2.2.1 ≤ b.2.2.1 := by
  unfold comparePositions at h
  cases hcmp : compare a.2.2.1 b.2.2.1 with
  | lt =>
      exact Nat.le_of_lt (Nat.compare_eq_lt.mp hcmp)
  | eq =>
      exact Nat.le_of_eq (Nat.compare_eq_eq.mp hcmp)
  | gt =>
      rw [hcmp] at h
      cases h

/-!
# Documents
-/

theorem numbered_documentsOf (parts : PartPool) : Numbered id (documentsOf parts) := by
  unfold documentsOf
  apply foldl_invariant
  · intro documents entry h
    exact h.number entry.2.digest
  · exact numbered_nil id

theorem isSome_lookup_documentsOf {parts : PartPool} {entry : String × TemplatePart}
    (hmem : entry ∈ parts) : ((documentsOf parts).lookup entry.2.digest).isSome = true := by
  have hkeeps : forall (rest : PartPool) (documents : List (String × Nat)),
      (documents.lookup entry.2.digest).isSome = true ->
      ((rest.foldl (fun documents entry => number id documents entry.2.digest) documents).lookup
        entry.2.digest).isSome = true := by
    intro rest documents hstart
    apply foldl_invariant (P := fun documents : List (String × Nat) =>
      (documents.lookup entry.2.digest).isSome = true)
    · intro documents other h
      rcases Option.isSome_iff_exists.mp h with ⟨ordinal, hordinal⟩
      rw [lookup_number_of_some hordinal]
      rfl
    · exact hstart
  rcases List.append_of_mem hmem with ⟨before, after, hsplit⟩
  rw [documentsOf, hsplit, List.foldl_append, List.foldl_cons]
  exact hkeeps after _ (isSome_lookup_number id _ _)

/-!
# Order
-/

variable {repository : String -> Except TemplateError (List String)}

theorem positionOf_eq_ok {documents : List (String × Nat)} {entry : String × TemplatePart}
    {position : String × TemplatePart × Position}
    (h : positionOf repository documents entry = .ok position) :
    (position.1, position.2.1) = entry ∧
      position.2.2.1 = (documents.lookup entry.2.digest).getD 0 := by
  unfold positionOf at h
  rcases bind_eq_ok h with ⟨units, _, h⟩
  cases hordinal : unitOrdinal units entry.2.unitId with
  | none =>
      rw [hordinal] at h
      cases h
  | some ordinal =>
      rw [hordinal] at h
      cases h
      exact ⟨rfl, rfl⟩

variable {parts ordered : PartPool}

theorem orderedTemplateParts_eq_ok (h : orderedTemplateParts repository parts = .ok ordered) :
    exists positions, parts.mapM (positionOf repository (documentsOf parts)) = .ok positions ∧
      ordered = (sortBy comparePositions positions).map fun entry => (entry.1, entry.2.1) := by
  unfold orderedTemplateParts at h
  rcases bind_eq_ok h with ⟨positions, hpositions, h⟩
  cases h
  exact ⟨positions, hpositions, rfl⟩

theorem perm_orderedTemplateParts (h : orderedTemplateParts repository parts = .ok ordered) :
    ordered.Perm parts := by
  rcases orderedTemplateParts_eq_ok h with ⟨positions, hpositions, rfl⟩
  have hentries : (positions.map fun entry => (entry.1, entry.2.1)) = parts.map id :=
    map_of_mapM (fun _ _ hstep => (positionOf_eq_ok hstep).1) hpositions
  rw [List.map_id] at hentries
  rw [← hentries]
  exact (perm_sortBy comparePositions positions).map _

/-- Between two parts of a document stand parts of that document only. -/
theorem digest_between (h : orderedTemplateParts repository parts = .ok ordered) {i m j : Nat}
    {first middle last : String × TemplatePart} (him : i ≤ m) (hmj : m ≤ j)
    (hfirst : ordered[i]? = some first) (hmiddle : ordered[m]? = some middle)
    (hlast : ordered[j]? = some last) (hsame : first.2.digest = last.2.digest) :
    middle.2.digest = first.2.digest := by
  rcases orderedTemplateParts_eq_ok h with ⟨positions, hpositions, rfl⟩
  have hsorted := pairwise_sortBy comparePositions positions
  have hplace : forall {n : Nat} {entry : String × TemplatePart},
      ((sortBy comparePositions positions).map fun entry => (entry.1, entry.2.1))[n]?
        = some entry ->
      exists position : String × TemplatePart × Position,
        (sortBy comparePositions positions)[n]? = some position ∧
        (documentsOf parts).lookup entry.2.digest = some position.2.2.1 := by
    intro n entry hn
    rw [List.getElem?_map] at hn
    rcases Option.map_eq_some_iff.mp hn with ⟨position, hposition, hentry⟩
    have hmem : position ∈ positions := mem_sortBy.mp (List.mem_of_getElem? hposition)
    rcases mem_of_mapM hpositions hmem with ⟨source, hsource, hstep⟩
    rcases positionOf_eq_ok hstep with ⟨hsame, hdocument⟩
    have heq : entry = source := hentry.symm.trans hsame
    rcases Option.isSome_iff_exists.mp (isSome_lookup_documentsOf hsource) with
      ⟨document, hlookup⟩
    refine ⟨position, hposition, ?_⟩
    rw [heq, hdocument, hlookup]
    rfl
  rcases hplace hfirst with ⟨start, hstart, hstartDocument⟩
  rcases hplace hmiddle with ⟨place, hat, hatDocument⟩
  rcases hplace hlast with ⟨stop, hstop, hstopDocument⟩
  have hle : forall {n k : Nat} {a b : String × TemplatePart × Position}, n ≤ k ->
      (sortBy comparePositions positions)[n]? = some a ->
      (sortBy comparePositions positions)[k]? = some b -> a.2.2.1 ≤ b.2.2.1 := by
    intro n k a b hnk ha hb
    rcases Nat.lt_or_eq_of_le hnk with hless | rfl
    · rcases List.getElem?_eq_some_iff.mp ha with ⟨hn, rfl⟩
      rcases List.getElem?_eq_some_iff.mp hb with ⟨hk, rfl⟩
      exact document_le (List.pairwise_iff_getElem.mp hsorted n k hn hk hless)
    · rw [ha] at hb
      cases hb
      exact Nat.le_refl _
  have hends : start.2.2.1 = stop.2.2.1 := by
    rw [← hsame, hstartDocument] at hstopDocument
    exact Option.some.inj hstopDocument
  have hdocument : place.2.2.1 = start.2.2.1 := by
    apply Nat.le_antisymm
    · rw [hends]
      exact hle hmj hat hstop
    · exact hle him hstart hat
  rw [hdocument] at hatDocument
  exact (numbered_documentsOf parts).lookup_injective Function.injective_id hatDocument
    hstartDocument

end Templates
end KnowledgeBrain
