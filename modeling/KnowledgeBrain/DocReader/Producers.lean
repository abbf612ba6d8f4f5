import KnowledgeBrain.Foundation.Digits
import KnowledgeBrain.DocReader.Docx
import KnowledgeBrain.DocReader.Acceptance

/-!
# Sections

A unit claims a section under a path, or it is a picture of a unit before it.
Where the claims agree, the maps of the reader's loop give every section one
path, and the host finds no section that is its own parent.
-/

namespace KnowledgeBrain
namespace DocReader

open Foundation
open Chunker (Text)

/-!
# Claims
-/

/-- The section a unit names, and the path it gives to it. -/
def SourceUnit.claim (unit : SourceUnit) : Option (String × Text) :=
  match unit.locator with
  | .document place => unit.sourceSectionId.map fun id => (id, place.headingPath)
  | .spreadsheet place => some ("sheet:" ++ toString place.sheetOrdinal, place.sheetName)
  | _ => none

/-- A unit of a document names its section. -/
def Named (unit : SourceUnit) : Prop :=
  forall place, unit.locator = .document place ->
    exists id, unit.sourceSectionId = some id ∧ id ≠ ""

def SourceUnit.ownSection (unit : SourceUnit) : List Nat :=
  match unit.locator with
  | .document place => [place.sectionOrdinal]
  | _ => []

def SourceUnit.parentSection (unit : SourceUnit) : Option Nat :=
  match unit.locator with
  | .image place => place.compoundParent.map CompoundImageParent.sectionOrdinal
  | _ => none

def claims (units : List SourceUnit) : List (String × Text) :=
  units.filterMap SourceUnit.claim

def sectionOrdinals (units : List SourceUnit) : List Nat :=
  units.flatMap SourceUnit.ownSection

/-- A picture belongs to a section that was seen before it. -/
def Sited : List Nat -> List SourceUnit -> Prop
  | _, [] => True
  | seen, unit :: units =>
      (forall n, unit.parentSection = some n -> n ∈ seen) ∧ Sited (seen ++ unit.ownSection) units

structure Sectioned (units : List SourceUnit) : Prop where
  named : forall unit, unit ∈ units -> Named unit
  agree : forall a, a ∈ claims units -> forall b, b ∈ claims units -> a.1 = b.1 -> a.2 = b.2
  sited : Sited [] units

variable {seen : List Nat}

theorem sited_append {units more : List SourceUnit} :
    Sited seen (units ++ more) <->
      Sited seen units ∧ Sited (seen ++ sectionOrdinals units) more := by
  induction units generalizing seen with
  | nil =>
      simp [Sited, sectionOrdinals]
  | cons unit units ih =>
      rw [List.cons_append, Sited, Sited, ih, and_assoc]
      simp [sectionOrdinals]

variable {units : List SourceUnit}

theorem sited_of_none (h : forall unit, unit ∈ units -> unit.parentSection = none)
    (seen : List Nat) :
    Sited seen units := by
  induction units generalizing seen with
  | nil =>
      exact True.intro
  | cons unit units ih =>
      constructor
      · intro n hparent
        rw [h unit (List.mem_cons_self ..)] at hparent
        cases hparent
      · exact ih (fun other hother => h other (List.mem_cons_of_mem _ hother)) _

/-!
# The maps of the loop
-/

/-- The maps hold what the paths say. -/
structure Follows (P : String -> Text) (seen : List Nat) (s : Sections) : Prop where
  paths : forall owner path, s.paths.lookup owner = some path -> path = P owner
  owners : forall n owner, s.owners.lookup n = some owner -> (s.paths.lookup owner).isSome = true
  current : forall owner, s.current = some owner -> (s.paths.lookup owner).isSome = true
  seen : forall n, n ∈ seen -> (s.owners.lookup n).isSome = true

theorem follows_noSections (P : String -> Text) : Follows P [] noSections := by
  constructor
  · intro owner path hlookup
    exact absurd hlookup (by simp [noSections])
  · intro n owner hlookup
    exact absurd hlookup (by simp [noSections])
  · intro owner hcurrent
    exact absurd hcurrent (by simp [noSections])
  · intro n hn
    cases hn

variable {P : String -> Text}

theorem Follows.pathOf_eq {s : Sections} (h : Follows P seen s) {owner : String}
    (hknown : (s.paths.lookup owner).isSome = true) :
    pathOf s owner = P owner := by
  rcases Option.isSome_iff_exists.mp hknown with ⟨path, hpath⟩
  unfold pathOf
  rw [hpath]
  exact h.paths owner path hpath

/-- A section is recorded under its path. -/
theorem Follows.record {seen seen' : List Nat} {s : Sections} (h : Follows P seen s)
    {owner : String} {owners : Table Nat String}
    (howners : forall n other, owners.lookup n = some other ->
      s.owners.lookup n = some other ∨ other = owner)
    (hseen : forall n, n ∈ seen' -> (owners.lookup n).isSome = true) :
    Follows P seen' ⟨s.paths.upsert owner (P owner) fun _ => P owner, some owner, owners⟩ := by
  have hkeeps : forall other, (s.paths.lookup other).isSome = true ∨ other = owner ->
      ((s.paths.upsert owner (P owner) fun _ => P owner).lookup other).isSome = true := by
    intro other hother
    rw [Table.lookup_upsert_const]
    split
    · rfl
    · rename_i hne
      exact hother.resolve_right hne
  constructor
  · intro other path hlookup
    rw [Table.lookup_upsert_const] at hlookup
    split at hlookup
    · rename_i hsame
      cases hlookup
      rw [hsame]
    · exact h.paths other path hlookup
  · intro n other hlookup
    apply hkeeps
    rcases howners n other hlookup with hold | hsame
    · exact Or.inl (h.owners n other hold)
    · exact Or.inr hsame
  · intro other hcurrent
    cases hcurrent
    exact hkeeps _ (Or.inr rfl)
  · exact hseen

theorem Follows.owner_isSome {s : Sections} (h : Follows P seen s) {n : Nat} (hn : n ∈ seen) :
    (s.paths.lookup (ownerOf s n)).isSome = true := by
  rcases Option.isSome_iff_exists.mp (h.seen n hn) with ⟨owner, howner⟩
  unfold ownerOf
  rw [howner]
  exact h.owners n owner howner

variable {unit : SourceUnit}

/-- A unit that claims what the paths say gets what they say. -/
theorem Follows.assign {s : Sections} (h : Follows P seen s) (hnamed : Named unit)
    (hclaim : forall claim, unit.claim = some claim -> claim.2 = P claim.1)
    (hparent : forall n, unit.parentSection = some n -> n ∈ seen) :
    Follows P (seen ++ unit.ownSection) (assignSection s unit).2 ∧
      (assignSection s unit).1.2 = ((assignSection s unit).1.1.map P).getD [] := by
  have hcurrent : (s.current.map (pathOf s)).getD [] = (s.current.map P).getD [] := by
    cases hcurrent : s.current with
    | none =>
        rfl
    | some owner =>
        exact h.pathOf_eq (h.current owner hcurrent)
  cases hlocator : unit.locator with
  | document place =>
      rcases hnamed place hlocator with ⟨id, hid, hne⟩
      have hpath : place.headingPath = P id :=
        hclaim (id, place.headingPath) (by simp [SourceUnit.claim, hlocator, hid])
      have hassign : assignSection s unit = ((some id, P id),
          ⟨s.paths.upsert id (P id) fun _ => P id, some id,
            s.owners.upsert place.sectionOrdinal id fun _ => id⟩) := by
        simp [assignSection, namedSection, hlocator, hid, hne, hpath]
      rw [hassign]
      refine ⟨h.record ?_ ?_, rfl⟩
      · intro n other hlookup
        rw [Table.lookup_upsert_const] at hlookup
        split at hlookup
        · exact Or.inr (Option.some.inj hlookup).symm
        · exact Or.inl hlookup
      · intro n hn
        rw [Table.lookup_upsert_const]
        split
        · rfl
        · rename_i hne
          have hn : n ∈ seen ∨ n = place.sectionOrdinal := by
            simpa [SourceUnit.ownSection, hlocator] using hn
          exact h.seen n (hn.resolve_right hne)
  | spreadsheet place =>
      have hpath : place.sheetName = P ("sheet:" ++ toString place.sheetOrdinal) :=
        hclaim ("sheet:" ++ toString place.sheetOrdinal, place.sheetName)
          (by simp [SourceUnit.claim, hlocator])
      have hassign : assignSection s unit =
          ((some ("sheet:" ++ toString place.sheetOrdinal),
              P ("sheet:" ++ toString place.sheetOrdinal)),
            ⟨s.paths.upsert ("sheet:" ++ toString place.sheetOrdinal)
              (P ("sheet:" ++ toString place.sheetOrdinal)) fun _ =>
                P ("sheet:" ++ toString place.sheetOrdinal),
              some ("sheet:" ++ toString place.sheetOrdinal), s.owners⟩) := by
        rw [← hpath]
        simp [assignSection, namedSection, hlocator]
      have hown : seen ++ unit.ownSection = seen := by
        simp [SourceUnit.ownSection, hlocator]
      rw [hassign, hown]
      exact ⟨h.record (fun _ _ => Or.inl) h.seen, rfl⟩
  | image place =>
      have hown : seen ++ unit.ownSection = seen := by
        simp [SourceUnit.ownSection, hlocator]
      rw [hown]
      cases hcompound : place.compoundParent with
      | none =>
          have hassign : assignSection s unit =
              ((s.current, (s.current.map (pathOf s)).getD []), s) := by
            simp [assignSection, namedSection, hlocator, hcompound]
          rw [hassign]
          exact ⟨h, hcurrent⟩
      | some parent =>
          have hseen := hparent parent.sectionOrdinal
            (by simp [SourceUnit.parentSection, hlocator, hcompound])
          have hpath := h.pathOf_eq (h.owner_isSome hseen)
          have hassign : assignSection s unit =
              ((some (ownerOf s parent.sectionOrdinal), P (ownerOf s parent.sectionOrdinal)),
                ⟨s.paths.upsert (ownerOf s parent.sectionOrdinal)
                  (P (ownerOf s parent.sectionOrdinal)) fun _ =>
                    P (ownerOf s parent.sectionOrdinal),
                  some (ownerOf s parent.sectionOrdinal), s.owners⟩) := by
            simp [assignSection, namedSection, hlocator, hcompound, hpath]
          rw [hassign]
          exact ⟨h.record (fun _ _ => Or.inl) h.seen, rfl⟩
  | attachment partName relationshipType =>
      have hown : seen ++ unit.ownSection = seen := by
        simp [SourceUnit.ownSection, hlocator]
      have hassign : assignSection s unit =
          ((s.current, (s.current.map (pathOf s)).getD []), s) := by
        simp [assignSection, namedSection, hlocator]
      rw [hassign, hown]
      exact ⟨h, hcurrent⟩

theorem Follows.assignments {s : Sections} (h : Follows P seen s)
    (hnamed : forall unit, unit ∈ units -> Named unit)
    (hclaims : forall claim, claim ∈ claims units -> claim.2 = P claim.1)
    (hsited : Sited seen units) :
    forall assigned, assigned ∈ DocReader.assignments s units ->
      assigned.2 = (assigned.1.map P).getD [] := by
  induction units generalizing seen s with
  | nil =>
      intro assigned hassigned
      cases hassigned
  | cons unit units ih =>
      have hfirst := h.assign (hnamed unit (List.mem_cons_self ..))
        (fun claim hclaim => hclaims claim (List.mem_filterMap.mpr
          ⟨unit, List.mem_cons_self .., hclaim⟩)) hsited.1
      intro assigned hassigned
      rcases List.mem_cons.mp hassigned with rfl | hassigned
      · exact hfirst.2
      · refine ih hfirst.1 (fun other hother => hnamed other (List.mem_cons_of_mem _ hother)) ?_
          hsited.2 assigned hassigned
        intro claim hclaim
        rcases List.mem_filterMap.mp hclaim with ⟨other, hother, hclaim⟩
        exact hclaims claim (List.mem_filterMap.mpr ⟨other, List.mem_cons_of_mem _ hother, hclaim⟩)

/-- Where the claims agree, every section has one path. -/
theorem Sectioned.onePath (h : Sectioned units) :
    OnePath (assignments noSections units) := by
  let P (owner : String) : Text :=
    (((claims units).find? fun claim => claim.1 == owner).map Prod.snd).getD []
  have hclaims : forall claim, claim ∈ claims units -> claim.2 = P claim.1 := by
    intro claim hclaim
    show claim.2 = (((claims units).find? fun other => other.1 == claim.1).map Prod.snd).getD []
    cases hfind : (claims units).find? fun other => other.1 == claim.1 with
    | none =>
        exact absurd (List.find?_eq_none.mp hfind claim hclaim) (by simp)
    | some found =>
        have hsame : found.1 = claim.1 := by simpa using List.find?_some hfind
        exact h.agree claim hclaim found (List.mem_of_find?_eq_some hfind) hsame.symm
  have hassigned := (follows_noSections P).assignments h.named hclaims h.sited
  intro a ha b hb hsame
  rw [hassigned a ha, hassigned b hb, hsame]

/-!
# Units one after another
-/

theorem mem_claims_snoc {claim : String × Text} (h : claim ∈ claims (units ++ [unit])) :
    claim ∈ claims units ∨ unit.claim = some claim := by
  unfold claims at h
  rw [List.filterMap_append] at h
  rcases List.mem_append.mp h with hold | hnew
  · exact Or.inl hold
  · rcases List.mem_filterMap.mp hnew with ⟨other, hother, hclaim⟩
    rw [List.mem_singleton.mp hother] at hclaim
    exact Or.inr hclaim

/-- Another unit is written after units whose claims agree. -/
theorem Sectioned.snoc (h : Sectioned units) (hnamed : Named unit)
    (hclaim : forall claim, unit.claim = some claim ->
      forall other, other ∈ claims units -> other.1 = claim.1 -> other.2 = claim.2)
    (hparent : forall n, unit.parentSection = some n -> n ∈ sectionOrdinals units) :
    Sectioned (units ++ [unit]) := by
  constructor
  · intro other hother
    rcases List.mem_append.mp hother with hold | hnew
    · exact h.named other hold
    · rw [List.mem_singleton.mp hnew]
      exact hnamed
  · intro a ha b hb hsame
    rcases mem_claims_snoc ha with ha | ha
    · rcases mem_claims_snoc hb with hb | hb
      · exact h.agree a ha b hb hsame
      · exact hclaim b hb a ha hsame
    · rcases mem_claims_snoc hb with hb | hb
      · exact (hclaim a ha b hb hsame.symm).symm
      · rw [ha] at hb
        cases hb
        rfl
  · rw [sited_append]
    exact ⟨h.sited, hparent, True.intro⟩

theorem Sectioned.append {units more : List SourceUnit} (h : Sectioned units)
    (hmore : forall unit, unit ∈ more -> unit.claim = none ∧ unit.parentSection = none)
    (hnamed : forall unit, unit ∈ more -> Named unit) : Sectioned (units ++ more) := by
  induction more generalizing units with
  | nil =>
      rw [List.append_nil]
      exact h
  | cons unit more ih =>
      have hunit := hmore unit (List.mem_cons_self ..)
      have hsnoc := h.snoc (hnamed unit (List.mem_cons_self ..))
        (fun claim hclaim => by rw [hunit.1] at hclaim; cases hclaim)
        (fun n hn => by rw [hunit.2] at hn; cases hn)
      have hrest := ih hsnoc (fun other hother => hmore other (List.mem_cons_of_mem _ hother))
        (fun other hother => hnamed other (List.mem_cons_of_mem _ hother))
      rw [List.append_assoc, List.singleton_append] at hrest
      exact hrest

/-!
# What the readers produce

The reader of Word documents names a logical section after the section that
its heading will be flushed into, so the name is new when the path changes.
The reader of workbooks names a section after its sheet.
-/

/-!
## Names
-/

theorem sectionName_injective {m n : Nat} (h : sectionName m = sectionName n) : m = n := by
  unfold sectionName at h
  exact toString_injective (String.append_right_inj _ |>.mp h)

theorem sectionName_ne (n : Nat) : sectionName n ≠ "" := by
  intro h
  have hlength := congrArg String.length h
  simp [sectionName] at hlength

/-!
## Word documents
-/

/-- The units so far: claims are under names below `next`, those of the logical section under the
path of the headings. -/
structure Written (units : List SourceUnit) (logicalSection : String) (headingPath : Text)
    (nextSection : Nat) : Prop where
  shaped : forall unit, unit ∈ units -> WellShaped unit
  sectioned : Sectioned units
  names : forall claim, claim ∈ claims units ->
    exists m, m < nextSection ∧ claim.1 = sectionName m
  path : forall claim, claim ∈ claims units -> claim.1 = logicalSection -> claim.2 = headingPath

/-- A unit claims the logical section, or nothing. -/
def Claims (unit : SourceUnit) (logicalSection : String) (headingPath : Text) : Prop :=
  forall claim, unit.claim = some claim -> claim = (logicalSection, headingPath)

theorem Written.snoc {logicalSection : String} {headingPath : Text}
    {nextSection nextSection' m : Nat} (h : Written units logicalSection headingPath nextSection)
    (hlogical : logicalSection = sectionName m) (hm : m < nextSection')
    (hnext : nextSection ≤ nextSection') (hshape : WellShaped unit) (hnamed : Named unit)
    (hclaim : Claims unit logicalSection headingPath)
    (hparent : forall n, unit.parentSection = some n -> n ∈ sectionOrdinals units) :
    Written (units ++ [unit]) logicalSection headingPath nextSection' := by
  have hclaims : forall claim, claim ∈ claims (units ++ [unit]) ->
      claim ∈ claims units ∨ claim = (logicalSection, headingPath) := by
    intro claim hmem
    rcases mem_claims_snoc hmem with hold | hnew
    · exact Or.inl hold
    · exact Or.inr (hclaim claim hnew)
  constructor
  · intro other hother
    rcases List.mem_append.mp hother with hold | hnew
    · exact h.shaped other hold
    · rw [List.mem_singleton.mp hnew]
      exact hshape
  · refine h.sectioned.snoc hnamed ?_ hparent
    intro claim hnew other hother hsame
    rw [hclaim claim hnew] at hsame ⊢
    exact h.path other hother hsame
  · intro claim hmem
    rcases hclaims claim hmem with hold | rfl
    · rcases h.names claim hold with ⟨n, hn, hname⟩
      exact ⟨n, Nat.lt_of_lt_of_le hn hnext, hname⟩
    · exact ⟨m, hm, hlogical⟩
  · intro claim hmem hname
    rcases hclaims claim hmem with hold | rfl
    · exact h.path claim hold hname
    · rfl

/-- What holds between two elements of the body. -/
structure DocxState.Sound (s : DocxState) : Prop where
  written : Written s.units s.logicalSection s.headingPath s.nextSection
  logical : exists m, m ≤ s.nextSection ∧ s.logicalSection = sectionName m
  current : forall c, s.currentSection = some c -> c ∈ sectionOrdinals s.units ∧
    exists m, m < s.nextSection ∧ s.logicalSection = sectionName m

theorem initialDocx_sound : initialDocx.Sound := by
  constructor
  · constructor
    · intro unit hunit
      cases hunit
    · constructor
      · intro unit hunit
        cases hunit
      · intro a ha
        cases ha
      · exact True.intro
    · intro claim hclaim
      cases hclaim
    · intro claim hclaim
      cases hclaim
  · exact ⟨0, Nat.le_refl 0, rfl⟩
  · intro c hcurrent
    cases hcurrent

namespace DocxState

variable {s s' : DocxState}

theorem sectionOrdinals_snoc (units : List SourceUnit) (unit : SourceUnit) :
    sectionOrdinals (units ++ [unit]) = sectionOrdinals units ++ unit.ownSection := by
  simp [sectionOrdinals]

theorem pendingUnit_shaped (s : DocxState) : WellShaped s.pendingUnit := by
  constructor
  · exact sectionName_ne _
  · intro issue hissue
    cases hissue
  · rfl
  · intro header hheader
    cases hheader
  · intro hkind
    rfl

variable {owner : Nat}

/-- The section that is flushed becomes the current one. -/
theorem flushSection_sound {force : Bool} (h : s.Sound)
    (hrun : s.flushSection force = .ok (owner, s')) :
    s'.Sound ∧ s'.currentSection = some owner := by
  unfold flushSection at hrun
  split at hrun
  · split at hrun
    · cases hrun
    · rename_i hcurrent
      cases hrun
      exact ⟨h, hcurrent⟩
  · cases hrun
    rcases h.logical with ⟨m, hm, hlogical⟩
    have hlt : m < s.nextSection + 1 := Nat.lt_succ_of_le hm
    refine ⟨⟨?_, ⟨m, Nat.le_of_lt hlt, hlogical⟩, ?_⟩, rfl⟩
    · refine h.written.snoc hlogical hlt (Nat.le_succ _) s.pendingUnit_shaped ?_ ?_ ?_
      · intro place hplace
        exact ⟨s.logicalSection, rfl, hlogical ▸ sectionName_ne m⟩
      · intro claim hclaim
        exact (Option.some.inj hclaim).symm
      · intro n hparent
        cases hparent
    · intro c hcurrent
      cases hcurrent
      refine ⟨?_, m, hlt, hlogical⟩
      rw [sectionOrdinals_snoc]
      exact List.mem_append_right _ (List.mem_singleton.mpr rfl)

theorem flushPending_sound (h : s.Sound) (hrun : s.flushPending = .ok s') :
    s'.Sound := by
  unfold flushPending at hrun
  split at hrun
  · cases hrun
    exact h
  · rcases bind_eq_ok hrun with ⟨flushed, hflush, hrun⟩
    cases hrun
    exact (flushSection_sound h hflush).1

variable {physicalPath : String} {text : Text}

theorem startHeading_sound {level : Nat} (h : s.Sound)
    (hrun : s.startHeading text level physicalPath = .ok s') : s'.Sound := by
  rcases bind_eq_ok hrun with ⟨s1, hflush, hrun⟩
  cases hrun
  have h1 := flushPending_sound h hflush
  refine ⟨⟨h1.written.shaped, h1.written.sectioned, h1.written.names, ?_⟩,
    ⟨s1.nextSection, Nat.le_refl _, rfl⟩, ?_⟩
  · intro claim hclaim hname
    rcases h1.written.names claim hclaim with ⟨m, hm, hold⟩
    rw [hold] at hname
    exact absurd (sectionName_injective hname) (Nat.ne_of_lt hm)
  · intro c hcurrent
    cases hcurrent

theorem readText_sound {level : Option Nat} (h : s.Sound)
    (hrun : s.readText text level physicalPath = .ok s') : s'.Sound := by
  unfold readText at hrun
  split at hrun
  · split at hrun
    · exact startHeading_sound h hrun
    · cases hrun
      exact h
  · cases hrun
    split
    · exact ⟨h.written, h.logical, h.current⟩
    · exact h

/-- The state has a section that what follows belongs to. -/
def Owned (s : DocxState) (owner : Nat) : Prop :=
  s.Sound ∧ s.currentSection = some owner

theorem Owned.snoc (h : s.Owned owner) (unit : SourceUnit) (imageOrdinal : Nat)
    (hshape : WellShaped unit) (hnamed : Named unit)
    (hclaim : Claims unit s.logicalSection s.headingPath)
    (hparent : forall n, unit.parentSection = some n -> n = owner) :
    { s with units := s.units ++ [unit], imageOrdinal := imageOrdinal }.Owned owner := by
  rcases h.1.current owner h.2 with ⟨howner, m, hm, hlogical⟩
  refine ⟨⟨?_, h.1.logical, ?_⟩, h.2⟩
  · refine h.1.written.snoc hlogical hm (Nat.le_refl _) hshape hnamed hclaim ?_
    intro n hn
    rw [hparent n hn]
    exact howner
  · intro c hcurrent
    rcases h.1.current c hcurrent with ⟨hc, hlogical⟩
    refine ⟨?_, hlogical⟩
    rw [sectionOrdinals_snoc]
    exact List.mem_append_left _ hc

theorem drawingUnit_shaped (compoundParent : CompoundImageParent) (ordinal imageOrdinal : Nat)
    (drawing : Drawing) : WellShaped (drawingUnit compoundParent ordinal imageOrdinal drawing) := by
  cases drawing with
  | image originalRef width height mediaType =>
      constructor
      · exact append_ne_empty (by decide)
      · intro issue hissue
        cases hissue
      · rfl
      · intro header hheader
        cases hheader
      · intro hkind
        rfl
  | unsupported partName =>
      constructor
      · exact append_ne_empty (by decide)
      · intro issue hissue
        rw [List.mem_singleton.mp hissue]
        decide
      · rfl
      · intro header hheader
        cases hheader
      · intro hkind
        rfl

theorem drawingUnit_sited {compoundParent : CompoundImageParent} {ordinal imageOrdinal : Nat}
    {drawing : Drawing} {n : Nat}
    (h : (drawingUnit compoundParent ordinal imageOrdinal drawing).parentSection = some n) :
    n = compoundParent.sectionOrdinal := by
  cases drawing with
  | image originalRef width height mediaType =>
      exact (Option.some.inj h).symm
  | unsupported partName =>
      cases h

theorem Owned.addDrawings (h : s.Owned owner) (drawings : List Drawing)
    {compoundParent : CompoundImageParent} (hparent : compoundParent.sectionOrdinal = owner) :
    (s.addDrawings drawings compoundParent).Owned owner := by
  induction drawings generalizing s with
  | nil =>
      exact h
  | cons drawing drawings ih =>
      have hfirst := h.snoc
        (drawingUnit compoundParent s.units.length s.imageOrdinal drawing)
        (s.imageOrdinal + 1) (drawingUnit_shaped _ _ _ _) ?_ ?_ ?_
      · exact ih hfirst
      · intro place hplace
        cases drawing <;> cases hplace
      · intro claim hclaim
        cases drawing <;> cases hclaim
      · intro n hn
        rw [drawingUnit_sited hn, hparent]

variable {drawings : List Drawing}

theorem readDrawings_sound (h : s.Sound) (hrun : s.readDrawings drawings = .ok s') : s'.Sound := by
  unfold readDrawings at hrun
  split at hrun
  · cases hrun
    exact h
  · rcases bind_eq_ok hrun with ⟨⟨owner, s1⟩, hflush, hrun⟩
    cases hrun
    have howned : s1.Owned owner := flushSection_sound h hflush
    exact (howned.addDrawings _ rfl).1

theorem readParagraph_sound {level : Option Nat} (h : s.Sound)
    (hrun : s.readParagraph text level drawings physicalPath = .ok s') : s'.Sound := by
  rcases bind_eq_ok hrun with ⟨s1, htext, hrun⟩
  rcases bind_eq_ok hrun with ⟨s2, hdrawings, hrun⟩
  cases hrun
  have h2 := readDrawings_sound (readText_sound h htext) hdrawings
  exact ⟨h2.written, h2.logical, h2.current⟩

theorem headerCellsOf_anchor {tbl : Tbl} {grid : Grid} {header : HeaderCell}
    (h : header ∈ headerCellsOf tbl grid) :
    header.role = "column_header" ∧ isAnchor (some grid.toTableGrid) header = true := by
  rcases List.mem_map.mp h with ⟨cell, hcell, rfl⟩
  refine ⟨rfl, ?_⟩
  show (grid.cells.any fun other => other.row == cell.row && other.column == cell.column) = true
  rw [List.any_eq_true]
  exact ⟨cell, (List.mem_filter.mp hcell).1, by simp⟩

theorem tableUnit_shaped (tbl : Tbl) (grid : Grid) (owner : Nat) (physicalPath : String)
    (s : DocxState) : WellShaped (s.tableUnit tbl grid owner physicalPath) := by
  constructor
  · exact append_ne_empty (by decide)
  · intro issue hissue
    have hissue : issue ∈ if tbl.hasNestedTable = true
        then ["nested_table_flattened_for_display"] else [] := hissue
    split at hissue
    · rw [List.mem_singleton.mp hissue]
      decide
    · cases hissue
  · rfl
  · exact fun _ => headerCellsOf_anchor
  · intro hkind
    cases hkind

theorem readTable_sound {tbl : Tbl} (h : s.Sound) (hrun : s.readTable tbl physicalPath = .ok s') :
    s'.Sound := by
  rcases bind_eq_ok hrun with ⟨⟨owner, s1⟩, hflush, hrun⟩
  rcases bind_eq_ok hrun with ⟨⟨grid, anchors⟩, hanchors, hrun⟩
  cases hrun
  have howned : s1.Owned owner := flushSection_sound h hflush
  rcases howned.1.logical with ⟨m, _, hlogical⟩
  have htable := howned.snoc (s1.tableUnit tbl grid owner physicalPath)
    s1.imageOrdinal (s1.tableUnit_shaped tbl grid owner physicalPath)
    (fun place hplace => ⟨s1.logicalSection, rfl, hlogical ▸ sectionName_ne m⟩)
    (fun claim hclaim => (Option.some.inj hclaim).symm) (fun n hn => by cases hn)
  have hdrawn := @foldl_invariant _ _ (fun s : DocxState => s.Owned owner)
    (fun (s : DocxState) (anchor : Slot × Tc) => s.addDrawings anchor.2.drawings
      (.tableCell owner s1.tableOrdinal anchor.1.1 anchor.1.2))
    (fun s anchor hs => hs.addDrawings _ rfl) anchors _ htable
  exact ⟨hdrawn.1.written, hdrawn.1.logical, hdrawn.1.current⟩

theorem formUnit_shaped (text : Text) (owner : Nat) (physicalPath : String) (s : DocxState) :
    WellShaped (s.formUnit text owner physicalPath) := by
  constructor
  · exact append_ne_empty (by decide)
  · intro issue hissue
    cases hissue
  · rfl
  · intro header hheader
    cases hheader
  · intro hkind
    cases hkind

theorem readForm_sound (h : s.Sound) (hrun : s.readForm text drawings physicalPath = .ok s') :
    s'.Sound := by
  rcases bind_eq_ok hrun with ⟨⟨owner, s1⟩, hflush, hrun⟩
  cases hrun
  have howned : s1.Owned owner := flushSection_sound h hflush
  rcases howned.1.logical with ⟨m, _, hlogical⟩
  have hform := howned.snoc (s1.formUnit text owner physicalPath)
    s1.imageOrdinal (s1.formUnit_shaped text owner physicalPath)
    (fun place hplace => ⟨s1.logicalSection, rfl, hlogical ▸ sectionName_ne m⟩)
    (fun claim hclaim => (Option.some.inj hclaim).symm) (fun n hn => by cases hn)
  have hdrawn := @Owned.addDrawings _ _ hform drawings (.form owner s1.formOrdinal) rfl
  exact ⟨hdrawn.1.written, hdrawn.1.logical, hdrawn.1.current⟩

theorem readElement_sound {element : BodyElement × Nat} (h : s.Sound)
    (hrun : s.readElement element = .ok s') : s'.Sound := by
  unfold readElement at hrun
  split at hrun
  · exact readParagraph_sound h hrun
  · exact readTable_sound h hrun
  · exact readForm_sound h hrun
  · cases hrun
    exact h

end DocxState

theorem attachmentUnit_shaped (ordinal attachmentOrdinal : Nat) (part : PackagePart) :
    WellShaped (attachmentUnit ordinal attachmentOrdinal part) := by
  constructor
  · exact append_ne_empty (by decide)
  · intro issue hissue
    cases hissue
  · rfl
  · intro header hheader
    cases hheader
  · intro hkind
    cases hkind

theorem docxStructuredUnits_spec {body : List BodyElement} {parts : List PackagePart}
    (h : docxStructuredUnits body parts = .ok units) :
    (forall unit, unit ∈ units -> WellShaped unit) ∧ Sectioned units := by
  rcases bind_eq_ok h with ⟨s1, hbody, h⟩
  rcases bind_eq_ok h with ⟨s, hflush, h⟩
  cases h
  have hsound1 := foldlM_invariant (P := DocxState.Sound)
    (fun s element s' hs hrun => DocxState.readElement_sound hs hrun) initialDocx_sound hbody
  have hsound := DocxState.flushPending_sound hsound1 hflush
  constructor
  · intro unit hunit
    rcases List.mem_append.mp hunit with hunit | hunit
    · exact hsound.written.shaped unit hunit
    · rcases List.mem_map.mp hunit with ⟨part, _, rfl⟩
      exact attachmentUnit_shaped _ _ _
  · apply hsound.written.sectioned.append
    · intro unit hunit
      rcases List.mem_map.mp hunit with ⟨part, _, rfl⟩
      exact ⟨rfl, rfl⟩
    · intro unit hunit place hplace
      rcases List.mem_map.mp hunit with ⟨part, _, rfl⟩
      cases hplace

/-!
## Workbooks
-/

theorem sheetName_injective {m n : Nat} (h : sheetName m = sheetName n) : m = n := by
  unfold sheetName at h
  exact toString_injective (String.append_right_inj _ |>.mp h)

theorem sheetName_append_ne (n : Nat) (s : String) : sheetName n ++ s ≠ "" :=
  append_ne_empty (append_ne_empty (by decide))

/-- A unit of a sheet: well shaped, under the name of the sheet or under none. -/
structure OfSheet (sheet : Sheet × Nat) (unit : SourceUnit) : Prop where
  shaped : WellShaped unit
  claim : unit.claim = none ∨ unit.claim = some (sheetName sheet.2, sheet.1.title)
  named : Named unit
  parent : unit.parentSection = none

variable {sheet : Sheet × Nat}

theorem sheetItem_ofSheet {key : String} {kind : UnitKind} {place : SpreadsheetPlace}
    {grid : Option Grid} {headerCells : List HeaderCell} (hkey : key ≠ "")
    (hordinal : place.sheetOrdinal = sheet.2) (hname : place.sheetName = sheet.1.title)
    (hheaders : forall header, header ∈ headerCells -> header.role = "column_header" ∧
      isAnchor (grid.map Grid.toTableGrid) header = true)
    (hrow : kind = .tableRow -> grid = none) :
    OfSheet sheet (sheetItem key kind text place grid headerCells) := by
  constructor
  · constructor
    · exact hkey
    · intro issue hissue
      cases hissue
    · rfl
    · exact hheaders
    · exact hrow
  · right
    show some ("sheet:" ++ toString place.sheetOrdinal, place.sheetName) = _
    rw [hordinal, hname]
    rfl
  · intro other hother
    cases hother
  · rfl

theorem tableHeaders_anchor {table : RawTable} {grid : Grid} {header : HeaderCell}
    (h : header ∈ tableHeaders table grid) :
    header.role = "column_header" ∧ isAnchor (some grid.toTableGrid) header = true := by
  rcases List.mem_map.mp h with ⟨cell, hcell, rfl⟩
  refine ⟨rfl, ?_⟩
  show (grid.cells.any fun other => other.row == cell.row && other.column == cell.column) = true
  rw [List.any_eq_true]
  exact ⟨cell, (List.mem_filter.mp hcell).1, by simp⟩

theorem imageUnit_ofSheet (sheet : Sheet × Nat) (imageOrdinal : Nat) (image : SheetImage) :
    OfSheet sheet (imageUnit sheet.2 imageOrdinal image) := by
  constructor
  · constructor
    · unfold imageUnit
      show sheetName sheet.2 ++ ":image:" ++ toString imageOrdinal ≠ ""
      rw [String.append_assoc]
      exact sheetName_append_ne _ _
    · intro issue hissue
      cases hissue
    · rfl
    · intro header hheader
      cases hheader
    · intro hkind
      rfl
  · exact Or.inl rfl
  · intro other hother
    cases hother
  · rfl

theorem sheetUnits_ofSheet {columnLetter : Nat -> String}
    (h : sheetUnits columnLetter sheet = .ok units) :
    forall unit, unit ∈ units -> OfSheet sheet unit := by
  rcases bind_eq_ok h with ⟨tables, htables, h⟩
  rcases bind_eq_ok h with ⟨used, hused, h⟩
  cases h
  intro unit hunit
  rcases List.mem_cons.mp hunit with rfl | hunit
  · refine sheetItem_ofSheet ?_ rfl rfl (fun header hheader => by cases hheader) (fun _ => rfl)
    exact append_ne_empty (by decide)
  · rcases List.mem_append.mp hunit with hunit | hunit
    · rcases List.mem_append.mp hunit with hunit | hunit
      · rcases List.mem_append.mp hunit with hunit | hunit
        · rcases List.mem_map.mp hunit with ⟨row, _, rfl⟩
          refine sheetItem_ofSheet ?_ rfl rfl (fun header hheader => by cases hheader)
            (fun _ => rfl)
          rw [String.append_assoc]
          exact sheetName_append_ne _ _
        · rcases mem_of_mapM htables hunit with ⟨table, _, htable⟩
          rcases bind_eq_ok htable with ⟨grid, _, htable⟩
          cases htable
          refine sheetItem_ofSheet ?_ rfl rfl (fun _ => tableHeaders_anchor)
            (fun hkind => by cases hkind)
          rw [String.append_assoc]
          exact sheetName_append_ne _ _
      · unfold usedUnits at hused
        split at hused
        · rcases bind_eq_ok hused with ⟨grid, _, hused⟩
          cases hused
          rw [List.mem_singleton.mp hunit]
          exact sheetItem_ofSheet (sheetName_append_ne _ _) rfl rfl
            (fun header hheader => by cases hheader) (fun hkind => by cases hkind)
        · cases hused
          cases hunit
    · rcases List.mem_map.mp hunit with ⟨image, _, rfl⟩
      exact imageUnit_ofSheet sheet _ _

theorem OfSheet.numbered (h : OfSheet sheet unit) (n : Nat) :
    OfSheet sheet { unit with ordinal := n } :=
  ⟨⟨h.shaped.key, h.shaped.issues, h.shaped.physical, h.shaped.headers, h.shaped.rows⟩,
    h.claim, h.named, h.parent⟩

theorem xlsxStructuredUnits_spec {columnLetter : Nat -> String} {sheets : List Sheet}
    (h : xlsxStructuredUnits columnLetter sheets = .ok units) :
    (forall unit, unit ∈ units -> WellShaped unit) ∧ Sectioned units := by
  rcases bind_eq_ok h with ⟨all, hall, h⟩
  cases h
  have hsheets : forall unit, unit ∈ all.flatten.zipIdx.map
      (fun unit => { unit.1 with ordinal := unit.2 }) ->
      exists sheet, sheet ∈ sheets.zipIdx ∧ OfSheet sheet unit := by
    intro unit hunit
    rcases List.mem_map.mp hunit with ⟨⟨found, n⟩, hfound, rfl⟩
    rcases List.mem_flatten.mp (List.fst_mem_of_mem_zipIdx hfound) with ⟨some, hsome, hfound⟩
    rcases mem_of_mapM hall hsome with ⟨sheet, hsheet, hunits⟩
    exact ⟨sheet, hsheet, (sheetUnits_ofSheet hunits found hfound).numbered n⟩
  have hclaims : forall claim, claim ∈ claims (all.flatten.zipIdx.map
      (fun unit => { unit.1 with ordinal := unit.2 })) ->
      exists sheet, sheet ∈ sheets.zipIdx ∧ claim = (sheetName sheet.2, sheet.1.title) := by
    intro claim hclaim
    rcases List.mem_filterMap.mp hclaim with ⟨unit, hunit, hclaim⟩
    rcases hsheets unit hunit with ⟨sheet, hsheet, hof⟩
    rcases hof.claim with hnone | hsome
    · rw [hnone] at hclaim
      cases hclaim
    · rw [hsome] at hclaim
      exact ⟨sheet, hsheet, (Option.some.inj hclaim).symm⟩
  refine ⟨?_, ?_, ?_, ?_⟩
  · intro unit hunit
    rcases hsheets unit hunit with ⟨sheet, _, hof⟩
    exact hof.shaped
  · intro unit hunit
    rcases hsheets unit hunit with ⟨sheet, _, hof⟩
    exact hof.named
  · intro a ha b hb hsame
    rcases hclaims a ha with ⟨first, hfirst, rfl⟩
    rcases hclaims b hb with ⟨second, hsecond, rfl⟩
    have hordinal : first.2 = second.2 := sheetName_injective hsame
    have hfirst := List.mem_zipIdx_iff_getElem?.mp hfirst
    have hsecond := List.mem_zipIdx_iff_getElem?.mp hsecond
    rw [hordinal, hsecond] at hfirst
    rw [Option.some.inj hfirst]
  · apply sited_of_none
    intro unit hunit
    rcases hsheets unit hunit with ⟨sheet, _, hof⟩
    exact hof.parent

/-!
## Acceptance
-/

/-- The unit lists that the readers of Word documents and of workbooks return. -/
inductive Produced : List SourceUnit -> Prop where
  | docx {body : List BodyElement} {parts : List PackagePart} {units : List SourceUnit}
      (h : docxStructuredUnits body parts = .ok units) : Produced units
  | xlsx {columnLetter : Nat -> String} {sheets : List Sheet} {units : List SourceUnit}
      (h : xlsxStructuredUnits columnLetter sheets = .ok units) : Produced units

/-- A document before its contract is attached. -/
def extracted (content : Text) (images : List (Text × List UInt8)) (units : List SourceUnit) :
    Document :=
  ⟨content, images, units, none⟩

theorem Produced.spec (h : Produced units) :
    (forall unit, unit ∈ units -> WellShaped unit) ∧ Sectioned units := by
  cases h with
  | docx h =>
      exact docxStructuredUnits_spec h
  | xlsx h =>
      exact xlsxStructuredUnits_spec h

/-- Whatever the reader emits with its contract, the host accepts, and every record is true to its
unit. -/
theorem sourceContract_accepted (sha256 : Sha256) (files : List (List UInt8))
    {units : List SourceUnit} (hproduced : Produced units) (content : Text)
    (images : List (Text × List UInt8)) (source : List UInt8) (media : String)
    {document : Document}
    (hattach : attachSourceContract sha256 files (extracted content images units) source media
      true = .ok document) :
    parseSourceContract sha256 document.sent = .ok document.sourceContract ∧
      (units ≠ [] -> exists contract, document.sourceContract = some contract ∧
        contract.validate sha256 document.sent = .ok () ∧
        contract.markdownSha256 = sha256.hex (encode document.sent.markdown) ∧
        List.Forall₂ (Matches sha256 (mediaOf media) document)
          (units.zip (renderings (mediaOf media) [] units)) contract.units) := by
  by_cases hunits : units = []
  · subst hunits
    cases hattach
    exact ⟨rfl, fun h => absurd rfl h⟩
  · have hspec := hproduced.spec
    rcases attach_accepted (extracted content images units) hunits hspec.1
      hspec.2.onePath hattach with ⟨contract, hcontract, hvalid, hrest⟩
    refine ⟨?_, fun _ => ⟨contract, hcontract, hvalid, hrest⟩⟩
    unfold parseSourceContract
    have hsent : document.sent.sourceContract = some contract := hcontract
    rw [hsent, hcontract]
    exact ok_bind hvalid

/-- A heading over a table of one cell. -/
def sampleBody : List BodyElement :=
  [.paragraph "a".toList (some 1) [],
    .table ⟨none, [⟨true, [⟨none, none, "a".toList, []⟩]⟩], false⟩]

/-- The digests of what the sample is hashed for. -/
def sampleSha256 : Sha256 where
  hex bytes :=
    if bytes = encode "a".toList then
      "ca978112ca1bbdcafac231b39a23dc4da786eff8147c4e72b9807785afee48bb"
    else if bytes = encode "# a\n\n| a |\n| --- |".toList then
      "2fe5c6e65bd791b1a915898145211badd929fdde34702358eea46a47e6323b72"
    else if bytes = tableGridBytes ⟨1, 1, [⟨0, 0, 1, 1, "a".toList⟩], none⟩ then
      "54bdc118a9862101c2136923f8cff5be1f7df062c546cd7b9c6f7698eebaa91f"
    else
      "e3b0c44298fc1c149afbf4c8996fb92427ae41e4649b934ca495991b7852b855"
  printed bytes := by
    split
    · decide
    · split
      · decide
      · split <;> decide

theorem sourceContract_accepted_sample :
    exists units document, Produced units ∧ units ≠ [] ∧
      attachSourceContract sampleSha256 [] (extracted [] [] units) [] "docx" true = .ok document ∧
      parseSourceContract sampleSha256 document.sent = .ok document.sourceContract := by
  have hread : exists units, docxStructuredUnits sampleBody [] = .ok units ∧ units ≠ [] ∧
      exists document, attachSourceContract sampleSha256 [] (extracted [] [] units) [] "docx"
        true = .ok document :=
    ⟨_, rfl, List.cons_ne_nil _ _, _, rfl⟩
  rcases hread with ⟨units, hunits, hne, document, hattach⟩
  have haccepted := sourceContract_accepted sampleSha256 [] (.docx hunits) [] [] [] "docx" hattach
  exact ⟨units, document, .docx hunits, hne, hattach, haccepted.1⟩

end DocReader
end KnowledgeBrain
