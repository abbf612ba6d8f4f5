import KnowledgeBrain.DocReader.Spans

/-!
# What the host accepts

The reader's loop describes every unit, in order; a description that is true
to its unit passes the checks of the host.  Two facts are not local to a unit:
the spans lie in the text, and no section is its own parent.
-/

namespace KnowledgeBrain
namespace DocReader

open Foundation
open Chunker (Text byteLen byteSlice)

variable {sha256 : Sha256}

/-!
# Spans
-/

theorem isCharBoundary_append (before after : Text) :
    isCharBoundary (before ++ after) (byteLen before) = true := by
  induction before with
  | nil =>
      cases after <;> rfl
  | cons c before ih =>
      rw [List.cons_append, isCharBoundary, Chunker.byteLen_cons, Nat.add_sub_cancel_left, ih]
      simp

variable {content : Text}

theorem SpanOf.boundaries {span : RenderedSpan} {text : Text} (h : SpanOf content span text) :
    isCharBoundary content span.startByte = true ∧ isCharBoundary content span.endByte = true := by
  rcases h with ⟨_, before, after, heq, hstart, hend⟩
  constructor
  · rw [heq, hstart]
    exact isCharBoundary_append _ _
  · rw [heq, hend, ← Chunker.byteLen_append, ← List.append_assoc]
    exact isCharBoundary_append _ _

variable {texts : List Text}

theorem checkSpans_ok {spans : List RenderedSpan} {priorEnd : Nat}
    (hspans : List.Forall₂ (SpanOf content) spans texts) (hfollow : Follow spans)
    (hprior : forall span, span ∈ spans -> priorEnd ≤ span.startByte) :
    exists last, spans.foldlM (checkSpan content) priorEnd = .ok last := by
  induction hspans generalizing priorEnd with
  | nil =>
      exact ⟨priorEnd, rfl⟩
  | cons hspan hrest ih =>
      rename_i span text spans texts
      have hfollow := List.pairwise_cons.mp hfollow
      rcases ih hfollow.2 hfollow.1 with ⟨last, hlast⟩
      refine ⟨last, ?_⟩
      have hpasses : checkSpan content priorEnd span = .ok span.endByte := by
        have hstart := hprior span (List.mem_cons_self ..)
        have hnonempty := hspan.nonempty
        have hle := hspan.le
        unfold checkSpan
        rw [reject_bind]
        · rfl
        · rw [hspan.boundaries.1, hspan.boundaries.2]
          simp only [Bool.true_eq_false, or_false, not_or]
          omega
      rw [List.foldlM_cons, hpasses]
      exact hlast

/-!
# Descriptions
-/

/-- The record is true to its unit; parents apart. -/
structure Describes (sha256 : Sha256) (spans : SpanTable) (unit : SourceUnit × Nat)
    (identity : SourceUnitIdentity) : Prop where
  unitId : identity.unitId = unit.1.key
  ordinal : identity.ordinal = unit.2 ∧ unit.1.ordinal = unit.2
  kind : identity.kind = unit.1.kind
  text : identity.textSha256 = sha256.hex (encode unit.1.text)
  grid : identity.gridSha256 =
    unit.1.sent.grid.map fun grid => sha256.hex (tableGridBytes grid)
  level : identity.headingLevel ≠ some 0
  physical : identity.physicalLocator = some (unit.1.physicalLocator.getD unit.1.locator)
  spans : identity.renderedSpans = spansOf spans unit.1
  complete : (identity.completeness == .complete) = identity.reasons.isEmpty
  reasons : forall reason, reason ∈ identity.reasons ->
    isBlank reason = true -> reason ∈ unit.1.sourceIssues
  table : identity.tableId = unit.1.grid.map fun _ => unit.1.key
  headers : identity.headerCells = unit.1.headerCells
  parent : identity.parentSectionId = none

variable {unit : SourceUnit}

theorem gridDigest_eq_ok {digest : Option String} (h : gridDigest sha256 unit.grid = .ok digest) :
    digest = unit.sent.grid.map fun grid => sha256.hex (tableGridBytes grid) := by
  unfold gridDigest at h
  unfold SourceUnit.sent
  cases hgrid : unit.grid with
  | none =>
      rw [hgrid] at h
      cases h
      rfl
  | some grid =>
      rw [hgrid] at h
      rcases bind_eq_ok h with ⟨bytes, hbytes, h⟩
      cases h
      rw [gridFrame_eq_ok hbytes]
      rfl

variable {images : List (Text × List UInt8)} {render : Bool}

theorem reasons_nonblank {reason : String} (hmem : reason ∈ incompleteReasons render images unit)
    (hblank : isBlank reason = true) : reason ∈ unit.sourceIssues := by
  unfold incompleteReasons at hmem
  rw [List.mem_append, List.mem_append, List.mem_append] at hmem
  rcases hmem with ((hissue | hrender) | hattachment) | himage
  · exact hissue
  · split at hrender
    · cases hrender
    · rw [List.mem_singleton.mp hrender] at hblank
      exact absurd hblank (by decide)
  · split at hattachment
    · rw [List.mem_singleton.mp hattachment] at hblank
      exact absurd hblank (by decide)
    · cases hattachment
  · split at himage
    · split at himage
      · cases himage
      · rw [List.mem_singleton.mp himage] at hblank
        exact absurd hblank (by decide)
    · cases himage

variable {spans : SpanTable}

/-- One round appends one true description, under the section that was assigned. -/
theorem identify_spec {state state' : Sections × List SourceUnitIdentity}
    (h : identify sha256 render images spans state unit = .ok state') :
    exists identity, state' = ((assignSection state.1 unit).2, state.2 ++ [identity]) ∧
      Describes sha256 spans (unit, state.2.length) identity ∧
      (identity.sectionId, identity.headingPath) = (assignSection state.1 unit).1 := by
  rcases bind_eq_ok h with ⟨_, hordinal, h⟩
  have hordinal := not_not.mp (reject_eq_ok.mp hordinal)
  simp only at h
  rcases bind_eq_ok h with ⟨digest, hdigest, h⟩
  cases h
  refine ⟨_, rfl, ?_, rfl⟩
  constructor
  · rfl
  · exact ⟨hordinal, hordinal⟩
  · rfl
  · rfl
  · exact gridDigest_eq_ok hdigest
  · show (if _ then none else some _) ≠ some 0
    split
    · intro hnone
      cases hnone
    · intro hlength
      have hzero := Option.some.inj hlength
      exact splitFrom_ne_nil _ _ _ _ (List.length_eq_zero_iff.mp hzero)
  · rfl
  · rfl
  · show ((if incompleteReasons render images unit = [] then Completeness.complete
      else .partial_) == .complete) = (incompleteReasons render images unit).isEmpty
    split
    · rename_i hempty
      rw [hempty]
      rfl
    · rename_i hreasons
      rw [List.isEmpty_eq_false_iff.mpr hreasons]
      rfl
  · exact fun _ => reasons_nonblank
  · rfl
  · rfl
  · rfl

/-- The sections and paths that the units get. -/
def assignments : Sections -> List SourceUnit -> List (Option String × Text)
  | _, [] => []
  | s, unit :: units =>
      (assignSection s unit).1 :: assignments (assignSection s unit).2 units

variable {units : List SourceUnit}

theorem identifyAll_spec {state state' : Sections × List SourceUnitIdentity}
    (h : units.foldlM (identify sha256 render images spans) state = .ok state') :
    exists identities, state'.2 = state.2 ++ identities ∧
      List.Forall₂ (Describes sha256 spans) (units.zipIdx state.2.length) identities ∧
      (identities.map fun identity => (identity.sectionId, identity.headingPath)) =
        assignments state.1 units := by
  induction units generalizing state with
  | nil =>
      cases h
      exact ⟨[], by simp, List.Forall₂.nil, rfl⟩
  | cons unit units ih =>
      rw [List.foldlM_cons] at h
      rcases bind_eq_ok h with ⟨middle, hfirst, hrest⟩
      rcases identify_spec hfirst with ⟨identity, rfl, hdescribes, hassigned⟩
      rcases ih hrest with ⟨identities, hids, hall, hassignments⟩
      refine ⟨identity :: identities, ?_, ?_, ?_⟩
      · rw [hids]
        simp
      · rw [List.zipIdx_cons]
        refine List.Forall₂.cons hdescribes ?_
        rw [List.length_append, List.length_singleton] at hall
        exact hall
      · rw [List.map_cons, hassignments, hassigned]
        rfl

/-!
# Parents
-/

/-- The same record under another parent. -/
def Reparented (identity adopted : SourceUnitIdentity) : Prop :=
  adopted = { identity with parentSectionId := adopted.parentSectionId }

/-- The section is not its own parent. -/
def NotOwnParent (identity : SourceUnitIdentity) : Prop :=
  identity.parentSectionId = none ∨ identity.parentSectionId ≠ identity.sectionId

/-- A path belongs to the sections that were seen under it. -/
def Recorded (seen : List SourceUnitIdentity) (byPath : Table Text (Option String)) : Prop :=
  forall path owner, byPath.lookup path = some owner ->
    exists identity, identity ∈ seen ∧ identity.headingPath = path ∧ identity.sectionId = owner

theorem adopt_spec {seen identities : List SourceUnitIdentity} {byPath : Table Text (Option String)}
    (hrecorded : Recorded seen byPath)
    (hpaths : forall a, a ∈ seen ++ identities -> forall b, b ∈ seen ++ identities ->
      a.sectionId = b.sectionId -> a.headingPath = b.headingPath)
    (hfresh : forall identity, identity ∈ identities -> identity.parentSectionId = none) :
    List.Forall₂ (fun identity adopted => Reparented identity adopted ∧ NotOwnParent adopted)
      identities (adopt byPath identities) := by
  induction identities generalizing seen byPath with
  | nil =>
      exact List.Forall₂.nil
  | cons identity identities ih =>
      have hpaths' : forall a, a ∈ (seen ++ [identity]) ++ identities ->
          forall b, b ∈ (seen ++ [identity]) ++ identities ->
          a.sectionId = b.sectionId -> a.headingPath = b.headingPath := by
        rw [List.append_assoc, List.singleton_append]
        exact hpaths
      have hfresh' : forall i, i ∈ identities -> i.parentSectionId = none :=
        fun i hi => hfresh i (List.mem_cons_of_mem _ hi)
      have hself : identity ∈ seen ++ identity :: identities := by
        simp
      unfold adopt
      split
      · refine List.Forall₂.cons ⟨rfl, Or.inl (hfresh identity (List.mem_cons_self ..))⟩
          (ih ?_ hpaths' hfresh')
        intro path owner hlookup
        rcases hrecorded path owner hlookup with ⟨a, ha, hpath⟩
        exact ⟨a, List.mem_append_left _ ha, hpath⟩
      · rename_i hpath
        refine List.Forall₂.cons ⟨rfl, ?_⟩ (ih ?_ hpaths' hfresh')
        · show (byPath.lookup (parentPath identity.headingPath)).join = none ∨
            (byPath.lookup (parentPath identity.headingPath)).join ≠ identity.sectionId
          cases hlookup : byPath.lookup (parentPath identity.headingPath) with
          | none =>
              exact Or.inl rfl
          | some owner =>
              refine Or.inr ?_
              intro hown
              rcases hrecorded _ _ hlookup with ⟨a, ha, hpath', howner⟩
              have hsame := hpaths a (List.mem_append_left _ ha) identity hself
                (howner.trans hown)
              exact parentPath_ne hpath (hpath'.symm.trans hsame)
        · intro path owner hlookup
          rw [Table.lookup_upsert] at hlookup
          split at hlookup
          · rename_i hsame
            refine ⟨identity, by simp, hsame.symm, ?_⟩
            cases hold : byPath.lookup identity.headingPath with
            | none =>
                rw [hold] at hlookup
                exact Option.some.inj hlookup
            | some old =>
                rw [hold] at hlookup
                exact Option.some.inj hlookup
          · rcases hrecorded path owner hlookup with ⟨a, ha, hpath'⟩
            exact ⟨a, List.mem_append_left _ ha, hpath'⟩

/-!
# One unit
-/

/-- What the host asks of a unit beyond its record. -/
structure WellShaped (unit : SourceUnit) : Prop where
  key : unit.key ≠ ""
  issues : forall issue, issue ∈ unit.sourceIssues -> isBlank issue = false
  physical : unit.physicalLocator = none
  headers : forall header, header ∈ unit.headerCells ->
    header.role = "column_header" ∧ isAnchor unit.sent.grid header = true
  rows : unit.kind = .tableRow -> unit.grid = none

theorem checkHeaders_ok {grid : Option TableGrid} {headers : List HeaderCell}
    (h : forall header, header ∈ headers ->
      header.role = "column_header" ∧ isAnchor grid header = true) :
    headers.forM (checkHeader grid) = .ok () := by
  induction headers with
  | nil =>
      rfl
  | cons header headers ih =>
      have hheader := h header (List.mem_cons_self ..)
      have hpasses : checkHeader grid header = .ok () := by
        apply reject_eq_ok.mpr
        rw [hheader.1, hheader.2]
        simp
      show (checkHeader grid header >>= fun _ => headers.forM (checkHeader grid)) = .ok ()
      rw [hpasses]
      exact ih fun other hother => h other (List.mem_cons_of_mem _ hother)

theorem checkGrid_ok (unit : SourceUnit) : checkGrid unit.sent.grid = .ok () := by
  unfold SourceUnit.sent
  cases unit.grid with
  | none =>
      rfl
  | some grid =>
      show (validateTableGrid grid.toTableGrid).mapError invalid = .ok ()
      rw [grid.accepted]
      rfl

theorem checkUnit_ok {markdown : Text} {seen : List String}
    {identity adopted : SourceUnitIdentity} (hshape : WellShaped unit)
    (hdescribes : Describes sha256 spans (unit, seen.length) identity)
    (hadopted : Reparented identity adopted) (hparent : NotOwnParent adopted)
    (hfresh : unit.key ∉ seen)
    (htexts : List.Forall₂ (SpanOf markdown) (spansOf spans unit) texts)
    (hfollow : Follow (spansOf spans unit)) :
    checkUnit sha256 markdown seen adopted unit.sent = .ok (unit.key :: seen) := by
  have hphysical : adopted.physicalLocator = some unit.locator := by
    rw [hadopted]
    show identity.physicalLocator = _
    rw [hdescribes.physical, hshape.physical]
    rfl
  have hspans : exists last, adopted.renderedSpans.foldlM (checkSpan markdown) 0 = .ok last := by
    rw [hadopted]
    show exists last, identity.renderedSpans.foldlM (checkSpan markdown) 0 = .ok last
    rw [hdescribes.spans]
    exact checkSpans_ok htexts hfollow fun _ _ => Nat.zero_le _
  have htable : adopted.tableId = unit.grid.map fun _ => unit.key := by
    rw [hadopted]
    exact hdescribes.table
  have hheaders : adopted.headerCells = unit.headerCells := by
    rw [hadopted]
    exact hdescribes.headers
  have hreasons : adopted.reasons.any isBlank = false := by
    rw [hadopted]
    show identity.reasons.any isBlank = false
    rw [List.any_eq_false]
    intro reason hreason hblank
    have hissue := hdescribes.reasons reason hreason hblank
    rw [hshape.issues reason hissue] at hblank
    cases hblank
  rcases hspans with ⟨last, hspans⟩
  unfold checkUnit
  simp only
  rw [reject_bind]
  · rw [reject_bind (by rw [hphysical]; simp)]
    rw [reject_bind (by rw [hphysical]; exact fun h => h.2 rfl)]
    rw [ok_bind hspans]
    rw [reject_bind]
    · rw [ok_bind (checkGrid_ok unit), hheaders, ok_bind (checkHeaders_ok hshape.headers)]
      rfl
    · rw [htable]
      unfold SourceUnit.sent
      cases unit.grid <;> simp
  · rw [hreasons, hadopted]
    have hcomplete := hdescribes.complete
    rw [not_or, not_or, not_or, not_or, not_or, not_or, not_or, not_or, not_or, not_or, not_or]
    refine ⟨not_not.mpr hdescribes.unitId, hshape.key, not_not.mpr hdescribes.ordinal.1,
      not_not.mpr hdescribes.ordinal.2, not_not.mpr hdescribes.kind, not_not.mpr hdescribes.text,
      not_not.mpr hdescribes.grid, hfresh, not_not.mpr hcomplete, by simp, hdescribes.level, ?_⟩
    rintro ⟨hsome, hsame⟩
    rcases hparent with hnone | hother
    · exact hsome hnone
    · rw [hadopted] at hother
      exact hother hsame

/-!
# All units
-/

/-- What the spans of a unit have to be. -/
def Shown (markdown : Text) (spans : SpanTable) (unit : SourceUnit) : Prop :=
  Follow (spansOf spans unit) ∧
    exists texts, List.Forall₂ (SpanOf markdown) (spansOf spans unit) texts

theorem checkUnits_ok {markdown : Text} {identities adopted : List SourceUnitIdentity}
    {seen : List String} (hshapes : forall unit, unit ∈ units -> WellShaped unit)
    (hshown : forall unit, unit ∈ units -> Shown markdown spans unit)
    (hkeys : (units.map SourceUnit.key).Nodup)
    (hfresh : forall unit, unit ∈ units -> unit.key ∉ seen)
    (hdescribes : List.Forall₂ (Describes sha256 spans) (units.zipIdx seen.length) identities)
    (hadopted : List.Forall₂ (fun identity adopted => Reparented identity adopted ∧
      NotOwnParent adopted) identities adopted) :
    checkUnits sha256 markdown seen adopted (units.map SourceUnit.sent) = .ok () := by
  induction units generalizing seen identities adopted with
  | nil =>
      cases adopted <;> rfl
  | cons unit units ih =>
      rw [List.zipIdx_cons] at hdescribes
      cases hdescribes with
      | cons hdescribed hdescribes =>
          cases hadopted with
          | cons hparent hadopted =>
              rw [List.map_cons, List.nodup_cons] at hkeys
              have hself := List.mem_cons_self (a := unit) (l := units)
              rcases hshown unit hself with ⟨hfollow, texts, htexts⟩
              have hfirst := checkUnit_ok (hshapes unit hself) hdescribed hparent.1 hparent.2
                (hfresh unit hself) htexts hfollow
              rw [List.map_cons, checkUnits, ok_bind hfirst]
              refine ih
                (fun other hother => hshapes other (List.mem_cons_of_mem _ hother))
                (fun other hother => hshown other (List.mem_cons_of_mem _ hother)) hkeys.2 ?_
                hdescribes hadopted
              intro other hother hseen
              rcases List.mem_cons.mp hseen with hsame | hseen
              · exact hkeys.1 (hsame ▸ List.mem_map_of_mem hother)
              · exact hfresh other (List.mem_cons_of_mem _ hother) hseen

/-!
# The contract
-/

/-- A section has one path, whatever the units that name it. -/
def OnePath (assigned : List (Option String × Text)) : Prop :=
  forall a, a ∈ assigned -> forall b, b ∈ assigned -> a.1 = b.1 -> a.2 = b.2

def noSections : Sections :=
  ⟨Table.empty, none, Table.empty⟩

theorem isBlank_parserVersion (files : List (List UInt8)) :
    isBlank (parserVersion sha256 files) = false := by
  unfold isBlank parserVersion
  rw [String.toList_append, List.all_append]
  have hnone : "docreader-source-v2/".toList.all Chunker.isWhitespace = false := by decide
  rw [hnone]
  rfl

variable {files : List (List UInt8)} {media : String} {source : List UInt8}

/-- What `attach_source_contract` emits for units that are rendered. -/
theorem attach_spec {document document' : Document} (hunits : document.units ≠ [])
    (h : attachSourceContract sha256 files document source media true = .ok document') :
    exists identities contract,
      document'.content = (renderUnits document.units (mediaOf media)).1 ∧
      document'.units = document.units ∧
      document'.sourceContract = some contract ∧
      contract = ⟨2, sha256.hex source, parserVersion sha256 files,
        sha256.hex (encode document'.content), adopt Table.empty identities⟩ ∧
      (document.units.map SourceUnit.key).Nodup ∧
      List.Forall₂ (Describes sha256 (renderUnits document.units (mediaOf media)).2)
        document.units.zipIdx identities ∧
      (identities.map fun identity => (identity.sectionId, identity.headingPath)) =
        assignments noSections document.units := by
  unfold attachSourceContract at h
  simp only at h
  rw [if_neg hunits] at h
  simp only [if_true] at h
  rcases bind_eq_ok h with ⟨state, hloop, h⟩
  rcases bind_eq_ok h with ⟨_, hkeys, h⟩
  cases h
  rcases identifyAll_spec hloop with ⟨identities, hids, hall, hassigned⟩
  have hids : state.2 = identities := hids
  refine ⟨identities, _, rfl, rfl, rfl, ?_, not_not.mp (reject_eq_ok.mp hkeys), hall, hassigned⟩
  rw [hids]

theorem Describes.all_fresh {units : List (SourceUnit × Nat)}
    {identities : List SourceUnitIdentity}
    (h : List.Forall₂ (Describes sha256 spans) units identities) :
    forall identity, identity ∈ identities -> identity.parentSectionId = none := by
  induction h with
  | nil =>
      intro identity hidentity
      cases hidentity
  | cons hdescribes hrest ih =>
      intro identity hidentity
      rcases List.mem_cons.mp hidentity with rfl | hidentity
      · exact hdescribes.parent
      · exact ih identity hidentity

/-- The record of a unit that is rendered as `text`: its digests are those the host computes,
and its spans are where the text stands. -/
structure Matches (sha256 : Sha256) (media : String) (document : Document)
    (entry : SourceUnit × Text) (identity : SourceUnitIdentity) : Prop where
  text : identity.textSha256 = sha256.hex (encode entry.1.sent.text)
  grid : identity.gridSha256 =
    entry.1.sent.grid.map fun grid => sha256.hex (tableGridBytes grid)
  parent : NotOwnParent identity
  headers : forall header, header ∈ identity.headerCells -> isAnchor entry.1.sent.grid header = true
  ordered : Follow identity.renderedSpans
  boundaries : forall span, span ∈ identity.renderedSpans ->
    isCharBoundary document.content span.startByte = true ∧
      isCharBoundary document.content span.endByte = true
  slices : (identity.renderedSpans.map fun span =>
    byteSlice document.content span.startByte span.endByte) =
      shownTexts media document.units entry.1 entry.2

theorem slices_eq {spans : List RenderedSpan} (h : List.Forall₂ (SpanOf content) spans texts) :
    (spans.map fun span => byteSlice content span.startByte span.endByte) = texts := by
  induction h with
  | nil =>
      rfl
  | cons hspan hrest ih =>
      rw [List.map_cons, hspan.slice, ih]

theorem boundaries_of {spans : List RenderedSpan} (h : List.Forall₂ (SpanOf content) spans texts)
    {span : RenderedSpan} (hspan : span ∈ spans) :
    isCharBoundary content span.startByte = true ∧ isCharBoundary content span.endByte = true := by
  induction h with
  | nil =>
      cases hspan
  | cons hfirst hrest ih =>
      rcases List.mem_cons.mp hspan with rfl | hspan
      · exact hfirst.boundaries
      · exact ih hspan

theorem matches_of {document : Document} {text : Text} {n : Nat}
    {identity adopted : SourceUnitIdentity} (hshape : WellShaped unit)
    (hfollow : Follow (spansOf spans unit))
    (htexts : List.Forall₂ (SpanOf document.content) (spansOf spans unit)
      (shownTexts media document.units unit text))
    (hdescribes : Describes sha256 spans (unit, n) identity)
    (hadopted : Reparented identity adopted) (hparent : NotOwnParent adopted) :
    Matches sha256 media document (unit, text) adopted := by
  have hspans : adopted.renderedSpans = spansOf spans unit := by
    rw [hadopted]
    exact hdescribes.spans
  have hheaders : adopted.headerCells = unit.headerCells := by
    rw [hadopted]
    exact hdescribes.headers
  constructor
  · rw [hadopted]
    exact hdescribes.text
  · rw [hadopted]
    exact hdescribes.grid
  · exact hparent
  · rw [hheaders]
    exact fun header hheader => (hshape.headers header hheader).2
  · rw [hspans]
    exact hfollow
  · rw [hspans]
    exact fun _ hspan => boundaries_of htexts hspan
  · rw [hspans]
    exact slices_eq htexts

theorem matches_all {document : Document} {n : Nat} {identities adopted : List SourceUnitIdentity}
    (hlength : texts.length = units.length)
    (hshapes : forall unit, unit ∈ units -> WellShaped unit)
    (hshown : forall unit text, (unit, text) ∈ units.zip texts ->
      Follow (spansOf spans unit) ∧
        List.Forall₂ (SpanOf document.content) (spansOf spans unit)
          (shownTexts media document.units unit text))
    (hdescribes : List.Forall₂ (Describes sha256 spans) (units.zipIdx n) identities)
    (hadopted : List.Forall₂ (fun identity adopted => Reparented identity adopted ∧
      NotOwnParent adopted) identities adopted) :
    List.Forall₂ (Matches sha256 media document) (units.zip texts) adopted := by
  induction units generalizing texts n identities adopted with
  | nil =>
      cases hdescribes
      cases hadopted
      exact List.Forall₂.nil
  | cons unit units ih =>
      cases texts with
      | nil =>
          cases hlength
      | cons text texts =>
          rw [List.zipIdx_cons] at hdescribes
          cases hdescribes with
          | cons hdescribed hdescribes =>
              cases hadopted with
              | cons hparent hadopted =>
                  rw [List.zip_cons_cons] at hshown ⊢
                  have hfirst := hshown unit text (List.mem_cons_self ..)
                  refine List.Forall₂.cons ?_ (ih (Nat.succ.inj hlength) ?_ ?_ hdescribes hadopted)
                  · exact matches_of (hshapes unit (List.mem_cons_self ..)) hfirst.1 hfirst.2
                      hdescribed hparent.1 hparent.2
                  · exact fun other hother => hshapes other (List.mem_cons_of_mem _ hother)
                  · exact fun other text hother => hshown other text (List.mem_cons_of_mem _ hother)

theorem checkContract_ok {contract : SourceContract} {parsed : ReadResult}
    {units : List SourceUnitIdentity}
    (hcontract : contract = ⟨2, sha256.hex source, parserVersion sha256 files,
      sha256.hex (encode parsed.markdown), units⟩)
    (hlength : units.length = parsed.structuredSourceUnits.length)
    (hunits : checkUnits sha256 parsed.markdown [] units parsed.structuredSourceUnits = .ok ()) :
    contract.validate sha256 parsed = .ok () := by
  subst hcontract
  unfold SourceContract.validate
  rw [reject_bind]
  · exact hunits
  · rw [(sha256.printed source).2, isBlank_parserVersion]
    simp only [(sha256.printed source).1, hlength]
    simp

/-- Well-shaped units whose sections have one path each are accepted. -/
theorem attach_accepted (document : Document) {document' : Document}
    (hunits : document.units ≠ [])
    (hshapes : forall unit, unit ∈ document.units -> WellShaped unit)
    (hpaths : OnePath (assignments noSections document.units))
    (h : attachSourceContract sha256 files document source media true = .ok document') :
    exists contract, document'.sourceContract = some contract ∧
      contract.validate sha256 document'.sent = .ok () ∧
      contract.markdownSha256 = sha256.hex (encode document'.content) ∧
      List.Forall₂ (Matches sha256 (mediaOf media) document')
        (document.units.zip (renderings (mediaOf media) [] document.units)) contract.units := by
  rcases attach_spec hunits h with
    ⟨identities, contract, hcontent, hsame, hcontract, hemitted, hkeys, hdescribes, hassigned⟩
  have hshown : forall unit text,
      (unit, text) ∈ document.units.zip (renderings (mediaOf media) [] document.units) ->
      Follow (spansOf (renderUnits document.units (mediaOf media)).2 unit) ∧
        List.Forall₂ (SpanOf document'.content)
          (spansOf (renderUnits document.units (mediaOf media)).2 unit)
          (shownTexts (mediaOf media) document'.units unit text) := by
    intro unit text hmem
    rw [hcontent, hsame]
    exact renderUnits_spans hkeys (fun row hrow => (hshapes row hrow).rows) hmem
  have hadopted : List.Forall₂
      (fun identity adopted => Reparented identity adopted ∧ NotOwnParent adopted)
      identities (adopt Table.empty identities) := by
    refine @adopt_spec [] identities Table.empty ?_ ?_ (Describes.all_fresh hdescribes)
    · intro path owner hlookup
      cases hlookup
    · intro a ha b hb hsection
      have hassigned' : forall identity, identity ∈ identities ->
          (identity.sectionId, identity.headingPath) ∈ assignments noSections document.units := by
        intro identity hidentity
        rw [← hassigned]
        exact List.mem_map_of_mem hidentity
      exact hpaths _ (hassigned' a ha) _ (hassigned' b hb) hsection
  have hlength := (length_renderings (mediaOf media) [] document.units)
  have hmatches := matches_all hlength hshapes hshown hdescribes hadopted
  refine ⟨contract, hcontract, ?_, ?_, ?_⟩
  · refine checkContract_ok hemitted ?_ ?_
    · show (adopt Table.empty identities).length = (document'.units.map SourceUnit.sent).length
      rw [← hmatches.length_eq, List.length_map, List.length_zip, hlength, Nat.min_self, hsame]
    · show checkUnits sha256 document'.content [] (adopt Table.empty identities)
        (document'.units.map SourceUnit.sent) = .ok ()
      rw [hsame]
      refine checkUnits_ok hshapes ?_ hkeys (by simp) hdescribes hadopted
      intro unit hunit
      rw [← List.map_fst_zip (Nat.le_of_eq hlength.symm)] at hunit
      rcases List.mem_map.mp hunit with ⟨⟨_, text⟩, hmem, rfl⟩
      exact ⟨(hshown _ _ hmem).1, _, (hshown _ _ hmem).2⟩
  · rw [hemitted]
  · rw [hemitted]
    exact hmatches

end DocReader
end KnowledgeBrain
