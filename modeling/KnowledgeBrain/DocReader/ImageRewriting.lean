import KnowledgeBrain.DocReader.Producers
import KnowledgeBrain.DocReader.Rewriting
import Mathlib.Data.List.Lex

/-!
# Images by their digests

Before a document is stored, every name of an image in its text becomes the
digest of the image.  The host replaces first the names that the reader gave,
longer ones first, then the addresses that it fetched itself.
-/

namespace KnowledgeBrain
namespace DocReader

open Foundation
open Chunker (Text byteLen byteSlice)

/-- `ImageRef`, with all its names. -/
structure StoredImage where
  filename : Text
  originalRef : Text
  storageKey : Text
  data : List UInt8

/-- `markdown_image_refs`. -/
def markdownImageRefs (remaining : Text) : List Text :=
  match _hstart : cutAt ['!', '['] remaining with
  | none => []
  | some (_, afterStart) =>
      match _htarget : cutAt [']', '('] afterStart with
      | none => []
      | some (_, afterTarget) =>
          match _hend : cutAt [')'] afterTarget with
          | none => []
          | some (reference, behind) => reference :: markdownImageRefs behind
termination_by remaining.length
decreasing_by
  have hstart := length_cutAt _hstart
  have htarget := length_cutAt _htarget
  have hend := length_cutAt _hend
  simp only [List.length_cons, List.length_nil] at hstart htarget hend
  omega

/-- `str::strip_prefix`. -/
def stripPrefix (pattern t : Text) : Option Text :=
  if pattern.isPrefixOf t then some (t.drop pattern.length) else none

def isHttp (t : Text) : Bool :=
  "https://".toList.isPrefixOf t || "http://".toList.isPrefixOf t

def maxRemoteImages : Nat := 8

/-- `format!("objects/{hash}")`. -/
def objectKey (hash : String) : Text :=
  "objects/".toList ++ hash.toList

/-- `map_err(..)?`. -/
def required (message : String) : Option (List UInt8) -> Except String (List UInt8)
  | some data => .ok data
  | none => .error message

section Rewriting

variable (sha256 : Sha256) (fetch : Nat -> Text -> Option (List UInt8))

/-- The bytes of an image; `n` counts the requests. -/
def imageData (image : StoredImage) (n : Nat) : Except String (List UInt8) :=
  if image.data ≠ [] then return image.data
  else if isHttp image.storageKey then
    required "required image could not be fetched" (fetch n image.storageKey)
  else .error "required image has no payload"

/-- A name stands for one image only. -/
def addAlias (key : Text) (aliases : List (Text × Text)) (name : Text) :
    Except String (List (Text × Text)) :=
  if name = [] ∨ name = "images/".toList then return aliases
  else
    match aliases.lookup name with
    | none => return aliases ++ [(name, key)]
    | some previous =>
        if previous ≠ key then .error "conflicting image identities" else return aliases

/-- `BTreeMap::insert`, without the order of the keys. -/
def insertPayload (hash : String) (data : List UInt8) (payloads : Table String (List UInt8)) :
    Table String (List UInt8) :=
  payloads.upsert hash data fun _ => data

def gatherImage (gathered : Table String (List UInt8) × List (Text × Text))
    (entry : StoredImage × Nat) :
    Except String (Table String (List UInt8) × List (Text × Text)) := do
  let (payloads, aliases) := gathered
  let data <- imageData fetch entry.1 entry.2
  reject (data = []) "required image payload is empty"
  let hash := sha256.hex data
  let aliases <- [entry.1.originalRef, entry.1.storageKey, "images/".toList ++ entry.1.filename]
    |>.foldlM (addAlias (objectKey hash)) aliases
  return (insertPayload hash data payloads, aliases)

/-- `sort_by_key` of the names in order: longer ones first. -/
def sortAliases (aliases : List (Text × Text)) : List (Text × Text) :=
  sortBy (fun a b => compare (byteLen b.1) (byteLen a.1))
    (sortBy (fun a b => compare a.1 b.1) aliases)

/-- `replace_mapped(..)?`. -/
def mapped (state : Text × Option SourceContract) (step : Text × Text) :
    Except String (Text × Option SourceContract) :=
  match replaceMapped sha256 step.1 step.2 state.1 state.2 with
  | (.ok (), markdown, contract) => .ok (markdown, contract)
  | (.error e, _, _) => .error e

/-- The addresses that are still to be fetched, each once. -/
def remoteRef (payloads : Table String (List UInt8)) (remote : List Text) (reference : Text) :
    Except String (List Text) :=
  match stripPrefix "objects/".toList reference with
  | some hash => do
      reject (payloads.lookup (String.ofList hash) = none)
        "rewritten image has no verified original payload"
      return remote
  | none => do
      reject (isHttp reference = false) "unresolved required image reference"
      return if reference ∈ remote then remote else remote ++ [reference]

def rewriteRemote (state : (Text × Option SourceContract) × Table String (List UInt8))
    (entry : Text × Nat) :
    Except String ((Text × Option SourceContract) × Table String (List UInt8)) := do
  let data <- required "required remote image could not be fetched" (fetch entry.2 entry.1)
  reject (data = []) "required remote image payload is empty"
  let hash := sha256.hex data
  let document <- mapped sha256 state.1 (entry.1, objectKey hash)
  return (document, insertPayload hash data state.2)

/-- `rewrite_images_with_contract`; `fetch` answers the n-th request. -/
def rewriteImagesWithContract (result : ReadResult) (images : List StoredImage) :
    Except String (Text × Table String (List UInt8) × Option SourceContract) := do
  let contract <- parseSourceContract sha256 result
  let (payloads, aliases) <- images.zipIdx.foldlM (gatherImage sha256 fetch) (Table.empty, [])
  let (markdown, contract) <- (sortAliases aliases).foldlM (mapped sha256)
    (result.markdown, contract)
  let remote <- (markdownImageRefs markdown).foldlM (remoteRef payloads) []
  reject (maxRemoteImages < remote.length) "required remote images exceed persistence budget"
  let ((markdown, contract), payloads) <- (remote.zipIdx images.length).foldlM
    (rewriteRemote sha256 fetch) ((markdown, contract), payloads)
  return (markdown, payloads, contract)

variable {sha256 fetch}

/-!
# Which replacements are made
-/

theorem objectKey_ne_nil (hash : String) : objectKey hash ≠ [] := by
  unfold objectKey
  simp

/-- Both sides of the replacement are there. -/
def Proper (step : Text × Text) : Prop :=
  step.1 ≠ [] ∧ step.2 ≠ []

theorem addAlias_proper {hash : String} {aliases aliases' : List (Text × Text)} {name : Text}
    (hrun : addAlias (objectKey hash) aliases name = .ok aliases')
    (hproper : forall step, step ∈ aliases -> Proper step) :
    forall step, step ∈ aliases' -> Proper step := by
  unfold addAlias at hrun
  split at hrun
  · cases hrun
    exact hproper
  · rename_i hname
    split at hrun
    · cases hrun
      intro step hmem
      rcases List.mem_append.mp hmem with hmem | hmem
      · exact hproper step hmem
      · cases List.mem_singleton.mp hmem
        exact ⟨fun hempty => hname (Or.inl hempty), objectKey_ne_nil hash⟩
    · split at hrun
      · cases hrun
      · cases hrun
        exact hproper

theorem gatherImage_proper {gathered gathered' : Table String (List UInt8) × List (Text × Text)}
    {entry : StoredImage × Nat} (hproper : forall step, step ∈ gathered.2 -> Proper step)
    (hrun : gatherImage sha256 fetch gathered entry = .ok gathered') :
    forall step, step ∈ gathered'.2 -> Proper step := by
  rcases bind_eq_ok hrun with ⟨data, _, hrun⟩
  rcases reject_bind_eq_ok hrun with ⟨_, hrun⟩
  rcases bind_eq_ok hrun with ⟨aliases, haliases, hrun⟩
  cases hrun
  apply foldlM_invariant (P := fun aliases => forall step, step ∈ aliases -> Proper step) _
    hproper haliases
  intro aliases name aliases' hproper hrun
  exact addAlias_proper hrun hproper

theorem remoteRef_http {payloads : Table String (List UInt8)} {remote remote' : List Text}
    {reference : Text} (hhttp : forall r, r ∈ remote -> isHttp r = true)
    (hrun : remoteRef payloads remote reference = .ok remote') :
    forall r, r ∈ remote' -> isHttp r = true := by
  unfold remoteRef at hrun
  split at hrun
  · rcases reject_bind_eq_ok hrun with ⟨_, hrun⟩
    cases hrun
    exact hhttp
  · rcases reject_bind_eq_ok hrun with ⟨hreference, hrun⟩
    cases hrun
    intro r hmem
    split at hmem
    · exact hhttp r hmem
    · rcases List.mem_append.mp hmem with hmem | hmem
      · exact hhttp r hmem
      · rw [List.mem_singleton.mp hmem]
        exact Bool.not_eq_false _ ▸ hreference

theorem replaceEach_of_mapped {steps : List (Text × Text)}
    {state state' : Text × Option SourceContract}
    (hrun : steps.foldlM (mapped sha256) state = .ok state') :
    replaceEach sha256 steps state.1 state.2 = (.ok (), state'.1, state'.2) := by
  induction steps generalizing state with
  | nil =>
      cases hrun
      rfl
  | cons step rest ih =>
      rw [List.foldlM_cons] at hrun
      rcases bind_eq_ok hrun with ⟨next, hfirst, hrest⟩
      unfold mapped at hfirst
      rw [replaceEach]
      cases hmapped : replaceMapped sha256 step.1 step.2 state.1 state.2 with
      | mk outcome document =>
          rw [hmapped] at hfirst
          cases outcome with
          | ok done =>
              cases hfirst
              exact ih hrest
          | error e =>
              cases hfirst

/-- The addresses that were fetched are replaced one after the other. -/
theorem rewriteRemote_mapped {remote : List (Text × Nat)}
    {state state' : (Text × Option SourceContract) × Table String (List UInt8)}
    (hhttp : forall entry, entry ∈ remote -> isHttp entry.1 = true)
    (hrun : remote.foldlM (rewriteRemote sha256 fetch) state = .ok state') :
    exists steps : List (Text × Text), (forall step, step ∈ steps -> Proper step) ∧
      steps.foldlM (mapped sha256) state.1 = .ok state'.1 := by
  induction remote generalizing state with
  | nil =>
      cases hrun
      refine ⟨[], ?_, rfl⟩
      intro step hmem
      cases hmem
  | cons entry rest ih =>
      rw [List.foldlM_cons] at hrun
      rcases bind_eq_ok hrun with ⟨next, hfirst, hrest⟩
      rcases bind_eq_ok hfirst with ⟨data, _, hfirst⟩
      rcases reject_bind_eq_ok hfirst with ⟨_, hfirst⟩
      rcases bind_eq_ok hfirst with ⟨document, hmapped, hfirst⟩
      cases hfirst
      rcases ih (fun entry hmem => hhttp entry (List.mem_cons_of_mem _ hmem)) hrest with
        ⟨steps, hproper, hsteps⟩
      refine ⟨(entry.1, objectKey (sha256.hex data)) :: steps, ?_, ?_⟩
      · intro step hmem
        rcases List.mem_cons.mp hmem with rfl | hmem
        · refine ⟨?_, objectKey_ne_nil _⟩
          intro hempty
          have hhttp := hhttp entry List.mem_cons_self
          rw [show entry.1 = [] from hempty] at hhttp
          cases hhttp
        · exact hproper step hmem
      · rw [List.foldlM_cons, hmapped]
        exact hsteps

/-- What the host returns comes from replacements of names that are not empty. -/
theorem rewriteImages_steps {result : ReadResult} {images : List StoredImage}
    {markdown : Text} {payloads : Table String (List UInt8)} {contract : Option SourceContract}
    (hrun : rewriteImagesWithContract sha256 fetch result images =
      .ok (markdown, payloads, contract)) :
    exists parsed steps, parseSourceContract sha256 result = .ok parsed ∧
      (forall step, step ∈ steps -> Proper step) ∧
      replaceEach sha256 steps result.markdown parsed = (.ok (), markdown, contract) := by
  unfold rewriteImagesWithContract at hrun
  rcases bind_eq_ok hrun with ⟨parsed, hparsed, hrun⟩
  rcases bind_eq_ok hrun with ⟨⟨payloads', aliases⟩, hgather, hrun⟩
  rcases bind_eq_ok hrun with ⟨⟨markdown', contract'⟩, hnamed, hrun⟩
  rcases bind_eq_ok hrun with ⟨remote, hremote, hrun⟩
  rcases reject_bind_eq_ok hrun with ⟨_, hrun⟩
  rcases bind_eq_ok hrun with ⟨⟨⟨markdown'', contract''⟩, payloads''⟩, hfetched, hrun⟩
  cases hrun
  have haliases : forall step, step ∈ aliases -> Proper step := by
    apply foldlM_invariant
      (P := fun gathered : Table String (List UInt8) × List (Text × Text) =>
        forall step, step ∈ gathered.2 -> Proper step) _ _ hgather
    · intro gathered entry gathered' hproper hrun
      exact gatherImage_proper hproper hrun
    · intro step hmem
      cases hmem
  have hhttp : forall r, r ∈ remote -> isHttp r = true := by
    apply foldlM_invariant (P := fun remote => forall r, r ∈ remote -> isHttp r = true) _ _ hremote
    · intro remote reference remote' hhttp hrun
      exact remoteRef_http hhttp hrun
    · intro r hmem
      cases hmem
  have hfetchedHttp : forall entry, entry ∈ remote.zipIdx images.length ->
      isHttp entry.1 = true := by
    intro entry hmem
    exact hhttp entry.1 (List.fst_mem_of_mem_zipIdx hmem)
  rcases rewriteRemote_mapped hfetchedHttp hfetched with ⟨steps, hproper, hsteps⟩
  refine ⟨parsed, sortAliases aliases ++ steps, hparsed, ?_, ?_⟩
  · intro step hmem
    rcases List.mem_append.mp hmem with hmem | hmem
    · unfold sortAliases at hmem
      rw [mem_sortBy, mem_sortBy] at hmem
      exact haliases step hmem
    · exact hproper step hmem
  · have hall : (sortAliases aliases ++ steps).foldlM (mapped sha256) (result.markdown, parsed) =
        .ok (markdown, contract) := by
      rw [List.foldlM_append, hnamed]
      exact hsteps
    exact replaceEach_of_mapped hall

/-!
# What the checks say of the contract
-/

theorem checkUnits_rules {markdown : Text} {seen : List String}
    {identities : List SourceUnitIdentity} {units : List StructuredSourceUnit}
    (hlength : identities.length = units.length)
    (hcheck : checkUnits sha256 markdown seen identities units = .ok ()) :
    forall identity, identity ∈ identities ->
      exists last, identity.renderedSpans.foldlM (checkSpan markdown) 0 = .ok last := by
  induction identities generalizing seen units with
  | nil =>
      intro identity hmem
      cases hmem
  | cons first rest ih =>
      cases units with
      | nil =>
          cases hlength
      | cons unit units =>
          rw [checkUnits] at hcheck
          rcases bind_eq_ok hcheck with ⟨seen', hfirst, hrest⟩
          rcases reject_bind_eq_ok hfirst with ⟨_, hfirst⟩
          rcases reject_bind_eq_ok hfirst with ⟨_, hfirst⟩
          rcases reject_bind_eq_ok hfirst with ⟨_, hfirst⟩
          rcases bind_eq_ok hfirst with ⟨last, hspans, _⟩
          intro identity hmem
          rcases List.mem_cons.mp hmem with rfl | hmem
          · exact ⟨last, hspans⟩
          · exact ih (Nat.succ.inj hlength) hrest identity hmem

theorem parseSourceContract_rules {result : ReadResult} {contract : SourceContract}
    (hparse : parseSourceContract sha256 result = .ok (some contract)) :
    SpanRules result.markdown contract ∧
      contract.markdownSha256 = sha256.hex (encode result.markdown) := by
  unfold parseSourceContract at hparse
  split at hparse
  · cases hparse
  · rcases bind_eq_ok hparse with ⟨u, hvalid, hparse⟩
    cases hparse
    rcases reject_bind_eq_ok hvalid with ⟨hheader, hunits⟩
    simp only [not_or, not_not] at hheader
    exact ⟨checkUnits_rules hheader.2.2.2.2.2 hunits, hheader.2.2.2.2.1⟩

/-!
# Exact rewriting
-/

/-- A contract whose spans keep the rules is rewritten exactly with its text: by one
replacement, by any sequence of them as far as it goes, and by the host with the images
of a document. -/
theorem replaceRendered_exact (sha256 : Sha256) (markdown : Text) (contract : SourceContract)
    (hrules : SpanRules markdown contract) :
    (forall old new, new ≠ [] ->
      match replaceRendered sha256 old new markdown contract with
      | (.ok (), markdown', contract') =>
          Rewritten sha256 (replaced old new) markdown contract markdown' contract' ∧
            (old = new ∨ ¬ CutsContract old markdown contract)
      | (.error _, markdown', contract') =>
          (markdown' = markdown ∧ contract' = contract) ∧
            (CutsContract old markdown contract ∨ ¬ Addressable (replaced old new markdown))) ∧
    (forall steps : List (Text × Text), (forall step, step ∈ steps -> step.2 ≠ []) ->
      match replaceEach sha256 steps markdown (some contract) with
      | (.ok (), markdown', contract') =>
          exists last, contract' = some last ∧
            Rewritten sha256 (replacedEach steps) markdown contract markdown' last
      | (.error _, markdown', contract') =>
          exists done step rest last, steps = done ++ step :: rest ∧
            replaceEach sha256 done markdown (some contract) = (.ok (), markdown', contract') ∧
            contract' = some last ∧
            Rewritten sha256 (replacedEach done) markdown contract markdown' last ∧
            (CutsContract step.1 markdown' last ∨
              ¬ Addressable (replaced step.1 step.2 markdown'))) ∧
    (forall fetch result images markdown' payloads contract', result.markdown = markdown ->
      parseSourceContract sha256 result = .ok (some contract) ->
      rewriteImagesWithContract sha256 fetch result images =
        .ok (markdown', payloads, contract') ->
      exists steps last, (forall step, step ∈ steps -> Proper step) ∧ contract' = some last ∧
        Rewritten sha256 (replacedEach steps) markdown contract markdown' last ∧
        last.markdownSha256 = sha256.hex (encode markdown')) := by
  refine ⟨?_, ?_, ?_⟩
  · intro old new hnew
    exact replaceRendered_ends hrules hnew
  · intro steps hnew
    exact replaceEach_ends hrules hnew
  · rintro fetch result images markdown' payloads contract' rfl hparse hrun
    rcases rewriteImages_steps hrun with ⟨parsed, steps, hparsed, hproper, hsteps⟩
    rw [hparse] at hparsed
    cases hparsed
    have hends := @replaceEach_ends sha256 _ _ steps hrules fun step hmem =>
      (hproper step hmem).2
    rw [hsteps] at hends
    rcases hends with ⟨last, hlast, hrewritten⟩
    refine ⟨steps, last, hproper, hlast, hrewritten, ?_⟩
    rcases hrewritten.digest with hdigest | ⟨hmarkdown, hcontract⟩
    · exact hdigest
    · rw [hmarkdown, hcontract]
      exact (parseSourceContract_rules hparse).2

end Rewriting

/-- A contract of one unit, rendered as one character. -/
def oneCharContract : SourceContract where
  schemaVersion := 2
  documentRevision := ""
  parserVersion := ""
  markdownSha256 := ""
  units := [{
    unitId := "u"
    ordinal := 0
    kind := .sectionUnit
    textSha256 := ""
    gridSha256 := none
    sectionId := none
    parentSectionId := none
    headingLevel := none
    headingPath := []
    physicalLocator := none
    physicalPath := none
    physicalLocatorUnavailableReason := some "none"
    renderedSpans := [⟨0, 1⟩]
    completeness := .complete
    reasons := []
    tableId := none
    headerCells := [] }]

theorem oneChar_rules {c : Char} (hsize : c.utf8Size = 1) : SpanRules [c] oneCharContract := by
  intro unit hmem
  cases List.mem_singleton.mp hmem
  exists 1
  show (checkSpan [c] 0 ⟨0, 1⟩ >>= fun priorEnd => .ok priorEnd) = .ok 1
  unfold checkSpan
  rw [reject_bind]
  · rfl
  · simp [byteLen, isCharBoundary, hsize]

/-- Here the character becomes another. -/
theorem replaceRendered_exact_oneChar :
    let r := replaceRendered sampleSha256 ['b'] ['a'] ['b'] oneCharContract
    Rewritten sampleSha256 (replaced ['b'] ['a']) ['b'] oneCharContract r.2.1 r.2.2 ∧
      r.2.1 = ['a'] := by
  have hends := (replaceRendered_exact sampleSha256 ['b'] oneCharContract
    (oneChar_rules (by decide))).1 ['b'] ['a'] (by decide)
  exact ⟨hends.1, rfl⟩

/-- An empty pattern is not replaced, though it occurs; and where nothing is replaced,
a digest that was wrong stays wrong. -/
theorem empty_pattern_stays :
    SpanRules ['a'] oneCharContract ∧
      (replaceRendered sampleSha256 [] ['x'] ['a'] oneCharContract =
          (.ok (), ['a'], oneCharContract) ∧
        replaceText [] ['x'] ['a'] = ['x', 'a', 'x']) ∧
      (replaceRendered sampleSha256 ['b'] ['x'] ['a'] oneCharContract =
          (.ok (), ['a'], oneCharContract) ∧
        oneCharContract.markdownSha256 ≠ sampleSha256.hex (encode ['a'])) := by
  refine ⟨oneChar_rules (by decide), ⟨rfl, rfl⟩, rfl, ?_⟩
  show "" ≠ "ca978112ca1bbdcafac231b39a23dc4da786eff8147c4e72b9807785afee48bb"
  decide

end DocReader
end KnowledgeBrain
