import KnowledgeBrain.Chunker.HeadingLines
import KnowledgeBrain.Chunker.Protected

/-!
# Breadcrumbs are true

The header of every chunk of the heading tier names headings that are in force
where the chunk starts, before and after small neighbours are joined.
-/

namespace KnowledgeBrain
namespace Chunker

open Foundation HeadingHierarchy

/-!
# Chunks of the recursive splitter
-/

/-- A chunk of the recursive splitter has no header and starts inside the text. -/
theorem splitText_starts (p : Patterns) (text : Text) (chunkSize chunkOverlap : Nat)
    (separators : List Text) :
    forall c, c ∈ splitText p text chunkSize chunkOverlap separators ->
      c.contextHeader = [] ∧ c.start < text.length := by
  rcases unitsOf_laid p text chunkSize separators with ⟨hlaid, htext⟩
  have hlength : place (unitsOf p text chunkSize separators) = text.length := by
    unfold place
    rw [htext]
  rw [splitText_eq]
  apply mergeUnits_chunks (fun c => c.contextHeader = [] ∧ c.start < text.length) hlaid
  · intro pre rest front current curLen seq hunits hgroup hopen
    constructor
    · rfl
    · rcases hgroup.window with ⟨before, header, run, rfl, rfl, hheader, hfront, _, _⟩
      have hshape : header = [] ∨ exists text, header = [⟨text, place before, place before⟩] :=
        hheader.imp id fun ⟨text, heq, _⟩ => ⟨text, heq⟩
      rw [(buildChunk_ends (laid_window hunits hlaid) hshape hopen seq).1]
      rcases hheader with rfl | ⟨_, _, left, u, right, hactive, hstart, _⟩
      · cases run with
        | nil =>
            exact absurd rfl hopen
        | cons u run =>
            have hpos := List.length_pos_iff.mpr (laid_window hunits hlaid).2.1
            rw [← hlength, hunits, place_append, place_append, place_cons]
            omega
      · rcases laid_start hlaid hactive with ⟨hu, _, htextU⟩
        have hpos := List.length_pos_iff.mpr htextU
        rw [← hlength, hactive, place_append, place_cons]
        omega
  · intro pre u rest piece seq hunits _ hpiece
    constructor
    · rfl
    · rcases laid_forceSplitRunes u.text u.start with ⟨hpieces, hspell⟩
      have hu := (laid_start hlaid hunits).1
      rcases List.append_of_mem hpiece with ⟨left, right, hcut⟩
      have hplace : place (forceSplitRunes u.text u.start) = u.text.length := by
        unfold place
        rw [hspell]
      rw [hcut] at hpieces hplace
      have hsecond := (laid_append.mp hpieces).2
      have hpos := List.length_pos_iff.mpr hsecond.2.1
      have hstart : piece.start = u.start + place left := hsecond.1
      rw [place_append, place_cons] at hplace
      show piece.start < text.length
      rw [← hlength, hunits, place_append, place_cons]
      omega

/-!
# Headings of a level
-/

/-- A line that opens a section. -/
def opensSection (p : Patterns) (primaryLevel : Nat) (posLine : Nat × Text) : Bool :=
  match p.markdownHeading posLine.2 with
  | none => false
  | some (level, _) => decide (1 ≤ level ∧ level ≤ primaryLevel)

/-- A heading below the level that opens sections. -/
def isSubHeading (p : Patterns) (primaryLevel : Nat) (posLine : Nat × Text) : Bool :=
  match p.markdownHeading posLine.2 with
  | none => false
  | some (level, _) => decide (primaryLevel < level)

/-- The boundaries at the lines that open sections. -/
def boundariesAt (p : Patterns) (primaryLevel : Nat) (posLines : List (Nat × Text)) :
    List HeadingBoundary :=
  (posLines.filter (opensSection p primaryLevel)).map fun posLine => ⟨posLine.1, posLine.2⟩

/-- The heading a section begins with, if it begins with one that opens it. -/
def leadLine (p : Patterns) (primaryLevel a : Nat) : List (Nat × Text) -> Text
  | [] => []
  | posLine :: _ =>
      if posLine.1 = a ∧ opensSection p primaryLevel posLine = true then posLine.2 else []

section Levels

variable (p : Patterns) (primaryLevel : Nat)

theorem addBoundary_eq (bounds : List HeadingBoundary) (posLine : Nat × Text) :
    addBoundary p primaryLevel bounds posLine =
      if opensSection p primaryLevel posLine then
        if 0 < posLine.1 then bounds ++ [⟨posLine.1, posLine.2⟩]
        else bounds.modifyHead fun b => { b with line := posLine.2 }
      else bounds := by
  cases hcaptures : p.markdownHeading posLine.2 with
  | none =>
      simp only [addBoundary, opensSection, hcaptures, Bool.false_eq_true, if_false]
  | some captures =>
      simp only [addBoundary, opensSection, hcaptures, decide_eq_true_eq]

theorem foldl_addBoundary_later (bounds : List HeadingBoundary) (posLines : List (Nat × Text))
    (hlater : forall e, e ∈ posLines -> 0 < e.1) :
    posLines.foldl (addBoundary p primaryLevel) bounds =
      bounds ++ boundariesAt p primaryLevel posLines := by
  induction posLines generalizing bounds with
  | nil =>
      exact (List.append_nil bounds).symm
  | cons e rest ih =>
      have hpos := hlater e List.mem_cons_self
      rw [List.foldl_cons, addBoundary_eq, if_pos hpos,
        ih _ fun f hf => hlater f (List.mem_cons_of_mem e hf)]
      unfold boundariesAt
      split
      · rename_i hopens
        rw [List.filter_cons_of_pos hopens, List.map_cons, List.append_assoc,
          List.singleton_append]
      · rename_i hother
        rw [List.filter_cons_of_neg hother]

/-- The boundaries found: the start, and the lines behind it that open sections. -/
theorem findHeadingBoundaries_eq {text : Text} (hne : text ≠ []) :
    findHeadingBoundaries p text primaryLevel =
      ⟨0, leadLine p primaryLevel 0 (openLines text)⟩ ::
        boundariesAt p primaryLevel ((openLines text).filter fun e => decide (0 < e.1)) := by
  have hfull : text.isEmpty = false := by
    rw [← Bool.not_eq_true, List.isEmpty_iff]
    exact hne
  have hsorted := (linesFrom_sorted text 0).1
  rw [linesFrom_zero] at hsorted
  unfold findHeadingBoundaries
  rw [hfull]
  simp only [Bool.false_eq_true, if_false]
  cases hlines : openLines text with
  | nil =>
      rfl
  | cons e rest =>
      rw [hlines] at hsorted
      rcases List.pairwise_cons.mp hsorted with ⟨hfirst, _⟩
      have hrest : forall f, f ∈ rest -> 0 < f.1 := by
        intro f hf
        exact Nat.lt_of_le_of_lt (Nat.zero_le e.1) (hfirst f hf)
      have hkept : rest.filter (fun e => decide (0 < e.1)) = rest := by
        apply List.filter_eq_self.mpr
        intro f hf
        exact decide_eq_true (hrest f hf)
      rw [List.foldl_cons, foldl_addBoundary_later p primaryLevel _ rest hrest, addBoundary_eq,
        leadLine]
      by_cases hzero : e.1 = 0
      · have hlate : ¬ 0 < e.1 := by
          omega
        rw [List.filter_cons_of_neg (by simpa using hzero), hkept]
        by_cases hopens : opensSection p primaryLevel e = true
        · simp only [hopens, hzero, and_self, if_true, Nat.lt_irrefl, if_false]
          rfl
        · simp only [hopens, Bool.false_eq_true, and_false, if_false]
          rfl
      · have hlate : 0 < e.1 := Nat.pos_of_ne_zero hzero
        rw [List.filter_cons_of_pos (by simpa using hlate), hkept]
        unfold boundariesAt
        by_cases hopens : opensSection p primaryLevel e = true
        · rw [List.filter_cons_of_pos hopens]
          simp only [hopens, hzero, hlate, false_and, if_true, if_false]
          rfl
        · rw [List.filter_cons_of_neg hopens]
          simp only [hopens, Bool.false_eq_true, and_false, if_false]
          rfl

variable {path : HeadingPath} {e : Nat × Text}

theorem observe_other (hopens : opensSection p primaryLevel e = false)
    (hsub : isSubHeading p primaryLevel e = false) : path.observe p e = path := by
  unfold HeadingPath.observe
  unfold opensSection at hopens
  unfold isSubHeading at hsub
  split
  · rfl
  · rename_i level title hcaptures
    rw [hcaptures] at hopens hsub
    simp only [decide_eq_false_iff_not] at hopens hsub
    rw [if_neg]
    omega

theorem foldl_observe_sub {inner : List (Nat × Text)}
    (hnone : forall e, e ∈ inner -> opensSection p primaryLevel e = false) :
    inner.foldl (HeadingPath.observe p) path =
      (inner.filter (isSubHeading p primaryLevel)).foldl (HeadingPath.observe p) path := by
  induction inner generalizing path with
  | nil =>
      rfl
  | cons e rest ih =>
      have hrest := fun f hf => hnone f (List.mem_cons_of_mem e hf)
      by_cases hsub : isSubHeading p primaryLevel e = true
      · rw [List.filter_cons_of_pos hsub, List.foldl_cons, List.foldl_cons]
        exact ih hrest
      · rw [List.filter_cons_of_neg hsub, List.foldl_cons,
          observe_other p primaryLevel (hnone e List.mem_cons_self) (Bool.eq_false_iff.mpr hsub)]
        exact ih hrest

theorem not_isSubHeading_of_opens (hopens : opensSection p primaryLevel e = true) :
    isSubHeading p primaryLevel e = false := by
  unfold opensSection at hopens
  unfold isSubHeading
  split
  · rfl
  · rename_i level title hcaptures
    rw [hcaptures, decide_eq_true_eq] at hopens
    rw [decide_eq_false_iff_not]
    omega

theorem not_isEmpty_of_opens (hblank : p.markdownHeading [] = none)
    (hopens : opensSection p primaryLevel e = true) : e.2.isEmpty = false := by
  rw [← Bool.not_eq_true, List.isEmpty_iff]
  intro hempty
  unfold opensSection at hopens
  rw [hempty, hblank] at hopens
  cases hopens

/-- The path behind the heading a section begins with. -/
def openedPath (path : HeadingPath) (line : Text) : HeadingPath :=
  if line.isEmpty then path else path.observe p (0, line)

/-- In a section, the path changes at its first line and at the sub-headings. -/
theorem foldl_observe_lead (hblank : p.markdownHeading [] = none) {a : Nat}
    {inner : List (Nat × Text)} (hsorted : inner.Pairwise fun e f => e.1 < f.1)
    (hlow : forall e, e ∈ inner -> a ≤ e.1)
    (hnone : forall e, e ∈ inner -> a < e.1 -> opensSection p primaryLevel e = false) :
    inner.foldl (HeadingPath.observe p) path =
      (inner.filter (isSubHeading p primaryLevel)).foldl (HeadingPath.observe p)
        (openedPath p path (leadLine p primaryLevel a inner)) := by
  cases inner with
  | nil =>
      rfl
  | cons e rest =>
      rcases List.pairwise_cons.mp hsorted with ⟨hfirst, _⟩
      have hle := hlow e List.mem_cons_self
      have hrest : forall f, f ∈ rest -> opensSection p primaryLevel f = false := by
        intro f hf
        exact hnone f (List.mem_cons_of_mem e hf) (Nat.lt_of_le_of_lt hle (hfirst f hf))
      rw [leadLine]
      by_cases hlead : e.1 = a ∧ opensSection p primaryLevel e = true
      · have hopens := hlead.2
        have hsub : ¬ isSubHeading p primaryLevel e = true := by
          rw [not_isSubHeading_of_opens p primaryLevel hopens]
          exact Bool.false_ne_true
        rw [if_pos hlead]
        unfold openedPath
        rw [not_isEmpty_of_opens p primaryLevel hblank hopens, List.foldl_cons,
          List.filter_cons_of_neg hsub]
        exact foldl_observe_sub p primaryLevel hrest
      · rw [if_neg hlead]
        apply foldl_observe_sub
        intro f hf
        rcases List.mem_cons.mp hf with rfl | hf
        · rcases Nat.lt_or_eq_of_le hle with hlt | heq
          · exact hnone f List.mem_cons_self hlt
          · exact Bool.eq_false_iff.mpr fun hopens => hlead ⟨heq.symm, hopens⟩
        · exact hrest f hf

end Levels

/-!
# Sections
-/

section Sections

variable (p : Patterns) (cfg : SplitterConfig) (primaryLevel : Nat)

theorem subHeadings_eq (sectionRunes : Text) :
    subHeadings p sectionRunes primaryLevel =
      (openLines sectionRunes).filter (isSubHeading p primaryLevel) := rfl

theorem subHeadings_sorted (sectionRunes : Text) :
    (subHeadings p sectionRunes primaryLevel).Pairwise fun e f => e.1 < f.1 :=
  (linesFrom_sorted sectionRunes 0).1.filter _

variable {inner : List (Nat × Text)} {a b : Nat}

theorem subHeadings_section (hblank : p.markdownHeading [] = none) {text : Text}
    (h : SectionLines text a b inner) :
    (subHeadings p (slice text a b) primaryLevel).map (fun e => (a + e.1, e.2)) =
      inner.filter (isSubHeading p primaryLevel) := by
  rcases h.read with ⟨tail, hread, hempty⟩
  have htail : tail.filter (isSubHeading p primaryLevel) = [] := by
    apply List.filter_eq_nil_iff.mpr
    intro e hmem
    unfold isSubHeading
    rw [hempty e hmem, hblank]
    exact Bool.false_ne_true
  have hmap : (openLines (slice text a b)).filter (isSubHeading p primaryLevel) =
      (openLines (slice text a b)).filter
        (isSubHeading p primaryLevel ∘ fun e => (a + e.1, e.2)) := rfl
  rw [subHeadings_eq, hmap, ← List.filter_map, hread, List.filter_append, htail, List.append_nil]

theorem foldl_observe_shift (a : Nat) (posLines : List (Nat × Text)) (path : HeadingPath) :
    (posLines.map fun e => (a + e.1, e.2)).foldl (HeadingPath.observe p) path =
      posLines.foldl (HeadingPath.observe p) path := by
  rw [List.foldl_map]
  rfl

/-- The sub-headings of a section up to an offset make the path of its lines. -/
theorem foldl_subHeadings_upTo (hblank : p.markdownHeading [] = none) {text : Text}
    (h : SectionLines text a b inner) (path : HeadingPath) (offset : Nat) :
    ((subHeadings p (slice text a b) primaryLevel).filter fun e => decide (e.1 ≤ offset)).foldl
        (HeadingPath.observe p) path =
      ((inner.filter fun e => decide (e.1 ≤ a + offset)).filter
        (isSubHeading p primaryLevel)).foldl (HeadingPath.observe p) path := by
  have hswap : (inner.filter fun e => decide (e.1 ≤ a + offset)).filter
        (isSubHeading p primaryLevel) =
      (inner.filter (isSubHeading p primaryLevel)).filter fun e => decide (e.1 ≤ a + offset) := by
    rw [List.filter_filter, List.filter_filter]
    congr 1
    funext e
    exact Bool.and_comm _ _
  have hoffset : (fun e : Nat × Text => decide (e.1 ≤ offset)) =
      (fun e : Nat × Text => decide (e.1 ≤ a + offset)) ∘ fun e => (a + e.1, e.2) := by
    funext e
    simp
  rw [hswap, ← subHeadings_section p primaryLevel hblank h, List.filter_map, ← hoffset,
    foldl_observe_shift]

/-- The breadcrumb at an offset is that of the sub-headings before it. -/
theorem breadcrumbAtOffset_eq {h : HeadingHierarchy} (posLines : List (Nat × Text))
    (hsorted : posLines.Pairwise fun e f => e.1 < f.1) (offset : Nat) :
    breadcrumbAtOffset (breadcrumbsFrom p h posLines) offset h.breadcrumbWithHashes =
      ((posLines.filter fun e => decide (e.1 ≤ offset)).foldl
        (fun h e => h.observe p e.2) h).breadcrumbWithHashes := by
  induction posLines generalizing h with
  | nil =>
      rfl
  | cons e rest ih =>
      rcases List.pairwise_cons.mp hsorted with ⟨hfirst, hrest⟩
      rw [breadcrumbsFrom, breadcrumbAtOffset]
      dsimp only
      split
      · rename_i hlate
        have hnone : (e :: rest).filter (fun e => decide (e.1 ≤ offset)) = [] := by
          apply List.filter_eq_nil_iff.mpr
          intro f hf
          rw [decide_eq_true_eq, Nat.not_le]
          rcases List.mem_cons.mp hf with rfl | hf
          · exact hlate
          · exact Nat.lt_trans hlate (hfirst f hf)
        rw [hnone]
        rfl
      · rename_i hearly
        rw [List.filter_cons_of_pos (by simpa using Nat.le_of_not_lt hearly), List.foldl_cons]
        exact ih hrest

theorem header_of_mem_relocate {seq base : Nat} {header : TextChunk -> Text}
    {subs : List TextChunk} {c : TextChunk} (hmem : c ∈ relocate seq base header subs) :
    exists sub, sub ∈ subs ∧ c.contextHeader = header sub ∧ c.start = base + sub.start := by
  induction subs generalizing seq with
  | nil =>
      cases hmem
  | cons sub subs ih =>
      rcases List.mem_cons.mp hmem with rfl | hmem
      · exact ⟨sub, List.mem_cons_self, rfl, rfl⟩
      · rcases ih hmem with ⟨found, hfound, heq⟩
        exact ⟨found, List.mem_cons_of_mem sub hfound, heq⟩

/-- The state before a section: its lines are next, and the stack shows the path. -/
structure Arrived (text : Text) (before : List (Nat × Text)) (a : Nat) (h : HeadingHierarchy) :
    Prop where
  split : openLines text = before ++ linesFrom text a
  early : forall e, e ∈ before -> e.1 < a
  start_le : a ≤ text.length
  wellFormed : h.WellFormed
  entries : h.entries = before.foldl (HeadingPath.observe p) []
  /-- Only the first section can begin without a heading. -/
  led : leadLine p primaryLevel a (linesFrom text a) = [] -> before = []

variable {p primaryLevel}

/-- The path at a position of a section. -/
theorem Arrived.pathAt_eq {text : Text} {before inner later : List (Nat × Text)} {a pos : Nat}
    {h : HeadingHierarchy} (harrived : Arrived p primaryLevel text before a h)
    (hsplit : linesFrom text a = inner ++ later) (hpos : a ≤ pos)
    (hlate : forall e, e ∈ later -> pos < e.1) :
    pathAt p text pos = (inner.filter fun e => decide (e.1 ≤ pos)).foldl
      (HeadingPath.observe p) h.entries := by
  have hbefore : before.filter (fun e => decide (e.1 ≤ pos)) = before := by
    apply List.filter_eq_self.mpr
    intro e hmem
    have hlt := harrived.early e hmem
    exact decide_eq_true (by omega)
  have hlater : later.filter (fun e => decide (e.1 ≤ pos)) = [] := by
    apply List.filter_eq_nil_iff.mpr
    intro e hmem
    rw [decide_eq_true_eq, Nat.not_le]
    exact hlate e hmem
  unfold pathAt
  rw [harrived.split, hsplit, List.filter_append, List.filter_append, hbefore, hlater,
    List.append_nil, List.foldl_append, ← harrived.entries]

/-- The stack behind the first line of a section. -/
def openedBy (p : Patterns) (h : HeadingHierarchy) (line : Text) : HeadingHierarchy :=
  if line.isEmpty then h else h.observe p line

theorem openedBy_spec {h : HeadingHierarchy} (hwell : h.WellFormed) (line : Text) :
    (openedBy p h line).WellFormed ∧
      (openedBy p h line).entries = openedPath p h.entries line := by
  unfold openedBy openedPath
  split
  · exact ⟨hwell, rfl⟩
  · exact ⟨h.wellFormed_observe p line hwell, h.entries_observe p (0, line) hwell⟩

theorem leadLine_filter {a pos : Nat} (hsorted : inner.Pairwise fun e f => e.1 < f.1)
    (hpos : a ≤ pos) :
    leadLine p primaryLevel a (inner.filter fun e => decide (e.1 ≤ pos)) =
      leadLine p primaryLevel a inner := by
  cases inner with
  | nil =>
      rfl
  | cons e rest =>
      by_cases hearly : e.1 ≤ pos
      · rw [List.filter_cons_of_pos (by simpa using hearly)]
        rfl
      · have hnone : (e :: rest).filter (fun e => decide (e.1 ≤ pos)) = [] := by
          apply List.filter_eq_nil_iff.mpr
          intro f hf
          rw [decide_eq_true_eq, Nat.not_le]
          rcases List.mem_cons.mp hf with rfl | hf
          · exact Nat.lt_of_not_le hearly
          · exact Nat.lt_trans (Nat.lt_of_not_le hearly)
              ((List.pairwise_cons.mp hsorted).1 f hf)
        rw [hnone, leadLine, leadLine, if_neg]
        intro hlead
        exact hearly (hlead.1 ▸ hpos)

theorem filter_sub_of_lead {a : Nat} (hsorted : inner.Pairwise fun e f => e.1 < f.1)
    (hlead : leadLine p primaryLevel a inner ≠ []) :
    (inner.filter fun e => decide (e.1 ≤ a)).filter (isSubHeading p primaryLevel) = [] := by
  cases inner with
  | nil =>
      rfl
  | cons e rest =>
      rw [leadLine] at hlead
      split at hlead
      · rename_i hopens
        apply List.filter_eq_nil_iff.mpr
        intro f hf
        rcases List.mem_filter.mp hf with ⟨hmem, hearly⟩
        rw [decide_eq_true_eq] at hearly
        rcases List.mem_cons.mp hmem with rfl | hmem
        · rw [not_isSubHeading_of_opens p primaryLevel hopens.2]
          exact Bool.false_ne_true
        · have hlt := (List.pairwise_cons.mp hsorted).1 f hmem
          rw [hopens.1] at hlt
          exact absurd hlt (Nat.not_lt.mpr hearly)
      · exact absurd rfl hlead

/-- A section whose other lines open no section, with the lines behind it. -/
structure Portion (p : Patterns) (primaryLevel : Nat) (text : Text) (a b : Nat)
    (inner later : List (Nat × Text)) : Prop where
  lines : SectionLines text a b inner
  split : linesFrom text a = inner ++ later
  late : forall e, e ∈ later -> b ≤ e.1
  closed : forall e, e ∈ inner -> a < e.1 -> opensSection p primaryLevel e = false
  stop_le : b ≤ text.length

/-- The path at a position of a section, by the stack behind its first line. -/
theorem Portion.pathAt_eq (hblank : p.markdownHeading [] = none) {text : Text}
    {before inner later : List (Nat × Text)} {a b pos : Nat} {h : HeadingHierarchy}
    (hportion : Portion p primaryLevel text a b inner later)
    (harrived : Arrived p primaryLevel text before a h) (hlow : a ≤ pos) (hhigh : pos < b) :
    pathAt p text pos =
      ((inner.filter fun e => decide (e.1 ≤ pos)).filter (isSubHeading p primaryLevel)).foldl
        (HeadingPath.observe p) (openedBy p h (leadLine p primaryLevel a inner)).entries := by
  rw [harrived.pathAt_eq hportion.split hlow
    fun e hmem => Nat.lt_of_lt_of_le hhigh (hportion.late e hmem),
    (openedBy_spec harrived.wellFormed _).2, ← leadLine_filter hportion.lines.sorted hlow]
  apply foldl_observe_lead p primaryLevel hblank
  · exact hportion.lines.sorted.filter _
  · intro e hmem
    exact hportion.lines.low e (List.mem_filter.mp hmem).1
  · intro e hmem
    exact hportion.closed e (List.mem_filter.mp hmem).1

theorem Portion.leadLine_eq {text : Text} {inner later : List (Nat × Text)}
    (hportion : Portion p primaryLevel text a b inner later) (hlt : a < b) :
    leadLine p primaryLevel a (linesFrom text a) = leadLine p primaryLevel a inner := by
  rw [hportion.split]
  cases inner with
  | cons e rest =>
      rfl
  | nil =>
      cases later with
      | nil =>
          rfl
      | cons e rest =>
          have hlate := hportion.late e List.mem_cons_self
          rw [List.nil_append, leadLine, leadLine, if_neg]
          intro hlead
          omega

/-- The headers of the chunks of a section are true. -/
theorem inForce_sectionChunks (cfg : SplitterConfig) (hblank : p.markdownHeading [] = none)
    {text : Text} {before inner later : List (Nat × Text)} {h : HeadingHierarchy}
    (hportion : Portion p primaryLevel text a b inner later)
    (harrived : Arrived p primaryLevel text before a h) (seq : Nat) :
    forall c, c ∈ sectionChunks p cfg primaryLevel (slice text a b) a b seq
      (openedBy p h (leadLine p primaryLevel a (linesFrom text a))) -> InForce p text c := by
  intro c hmem
  unfold sectionChunks at hmem
  dsimp only at hmem
  split at hmem
  · cases hmem
  · rename_i hrange
    have hlt : a < b := Nat.lt_of_not_le hrange
    have hlead := hportion.leadLine_eq hlt
    rcases openedBy_spec (p := p) harrived.wellFormed (leadLine p primaryLevel a inner) with
      ⟨hwell, hentries⟩
    rw [hlead] at hmem
    split at hmem
    · rw [List.mem_singleton.mp hmem]
      unfold InForce
      dsimp only
      rw [breadcrumb_eq hwell,
        hportion.pathAt_eq hblank harrived (Nat.le_refl a) hlt]
      by_cases hled : leadLine p primaryLevel a inner = []
      · left
        have hbefore := harrived.led (hlead.trans hled)
        have hnone : h.entries = [] := by
          rw [harrived.entries, hbefore]
          rfl
        rw [hentries, hled, hnone]
        rfl
      · rw [filter_sub_of_lead hportion.lines.sorted hled]
        exact LinePrefix.refl _
    · rcases header_of_mem_relocate hmem with ⟨sub, hsub, hheader, hstart⟩
      have hinside := (splitText_starts p _ _ _ _ sub hsub).2
      rw [length_slice hportion.stop_le] at hinside
      unfold InForce
      rw [hheader, hstart, hportion.pathAt_eq hblank harrived (Nat.le_add_right a sub.start)
        (by omega), ← foldl_subHeadings_upTo p primaryLevel hblank hportion.lines,
        sectionBreadcrumbs, breadcrumbAtOffset, if_neg (Nat.not_lt_zero _),
        breadcrumbAtOffset_eq p _ (subHeadings_sorted p primaryLevel _)]
      rcases observe_foldl p ((subHeadings p (slice text a b) primaryLevel).filter
        fun e => decide (e.1 ≤ sub.start)) hwell with ⟨hshown, hpath⟩
      rw [breadcrumb_eq hshown, hpath]
      exact LinePrefix.refl _

/-!
# Runs over the sections
-/

theorem mem_of_boundariesAt {posLines : List (Nat × Text)} {next : HeadingBoundary}
    {rest : List HeadingBoundary} (h : boundariesAt p primaryLevel posLines = next :: rest) :
    (next.runeStart, next.line) ∈ posLines ∧
      opensSection p primaryLevel (next.runeStart, next.line) = true := by
  have hmem : next ∈ boundariesAt p primaryLevel posLines := by
    rw [h]
    exact List.mem_cons_self
  rcases List.mem_map.mp hmem with ⟨e, he, rfl⟩
  exact List.mem_filter.mp he

theorem opens_of_boundariesAt {posLines : List (Nat × Text)}
    (h : boundariesAt p primaryLevel posLines = []) :
    forall e, e ∈ posLines -> opensSection p primaryLevel e = false := by
  intro e hmem
  have hnone := List.filter_eq_nil_iff.mp (List.map_eq_nil_iff.mp h) e hmem
  exact Bool.eq_false_iff.mpr hnone

/-- Where the next boundary is, the section ends and the next one begins. -/
theorem portion_of_next {text : Text} {a : Nat} {next : HeadingBoundary}
    {rest : List HeadingBoundary} (hle : a ≤ text.length)
    (hbounds : boundariesAt p primaryLevel ((linesFrom text a).filter fun e => decide (a < e.1)) =
      next :: rest) :
    exists inner,
      Portion p primaryLevel text a next.runeStart inner (linesFrom text next.runeStart) ∧
      (forall e, e ∈ inner -> e.1 < next.runeStart) ∧ a < next.runeStart ∧
      next = ⟨next.runeStart,
        leadLine p primaryLevel next.runeStart (linesFrom text next.runeStart)⟩ ∧
      opensSection p primaryLevel (next.runeStart, next.line) = true ∧
      rest = boundariesAt p primaryLevel
        ((linesFrom text next.runeStart).filter fun e => decide (next.runeStart < e.1)) := by
  rcases mem_of_boundariesAt hbounds with ⟨hmem, hopens⟩
  rcases List.mem_filter.mp hmem with ⟨hmem, hlt⟩
  have hlt : a < next.runeStart := by simpa using hlt
  rcases sectionLines_cut hle hmem with ⟨inner, hcut⟩
  rcases hcut.head with ⟨others, hhead⟩
  rcases linesFrom_sorted text next.runeStart with ⟨hsorted, hlow⟩
  have hlater : (linesFrom text next.runeStart).filter (fun e => decide (a < e.1)) =
      linesFrom text next.runeStart := by
    apply List.filter_eq_self.mpr
    intro e he
    exact decide_eq_true (Nat.lt_of_lt_of_le hlt (hlow e he))
  have hothers : (linesFrom text next.runeStart).filter
      (fun e => decide (next.runeStart < e.1)) = others := by
    rw [hhead] at hsorted ⊢
    rw [List.filter_cons_of_neg (by simp), List.filter_eq_self.mpr]
    intro e he
    exact decide_eq_true ((List.pairwise_cons.mp hsorted).1 e he)
  have hhere : boundariesAt p primaryLevel (linesFrom text next.runeStart) =
      next :: boundariesAt p primaryLevel others := by
    unfold boundariesAt
    rw [hhead, List.filter_cons_of_pos hopens]
    rfl
  have hparts : boundariesAt p primaryLevel (inner.filter fun e => decide (a < e.1)) ++
      boundariesAt p primaryLevel (linesFrom text next.runeStart) = next :: rest := by
    rw [hcut.split, List.filter_append, hlater] at hbounds
    unfold boundariesAt at hbounds ⊢
    rw [List.filter_append, List.map_append] at hbounds
    exact hbounds
  have hnone : boundariesAt p primaryLevel (inner.filter fun e => decide (a < e.1)) = [] := by
    cases hinner : boundariesAt p primaryLevel (inner.filter fun e => decide (a < e.1)) with
    | nil =>
        rfl
    | cons first more =>
        rw [hinner, List.cons_append] at hparts
        injection hparts with hfirst _
        rw [hfirst] at hinner
        have hin := (List.mem_filter.mp (mem_of_boundariesAt hinner).1).1
        exact absurd (hcut.high _ hin) (Nat.lt_irrefl _)
  refine ⟨inner, ⟨hcut.lines, hcut.split, hlow, ?_, hcut.stop_le⟩, hcut.high, hlt, ?_, hopens, ?_⟩
  · intro e he hpast
    exact opens_of_boundariesAt hnone e (List.mem_filter.mpr ⟨he, decide_eq_true hpast⟩)
  · rw [hhead, leadLine, if_pos ⟨rfl, hopens⟩]
  · rw [hnone, List.nil_append, hhere] at hparts
    injection hparts with _ hrest
    rw [hothers, hrest]

theorem portion_last {text : Text} {a : Nat}
    (hbounds : boundariesAt p primaryLevel ((linesFrom text a).filter fun e => decide (a < e.1)) =
      []) : Portion p primaryLevel text a text.length (linesFrom text a) [] where
  lines := sectionLines_last text a
  split := (List.append_nil _).symm
  late := by
    intro e hmem
    cases hmem
  closed := by
    intro e hmem hpast
    exact opens_of_boundariesAt hbounds e (List.mem_filter.mpr ⟨hmem, decide_eq_true hpast⟩)
  stop_le := Nat.le_refl text.length

/-- A section read, the next one is arrived at. -/
theorem Portion.arrived (hblank : p.markdownHeading [] = none) {text : Text}
    {before inner : List (Nat × Text)} {h : HeadingHierarchy}
    (hportion : Portion p primaryLevel text a b inner (linesFrom text b))
    (harrived : Arrived p primaryLevel text before a h) (hlt : a < b)
    (hhigh : forall e, e ∈ inner -> e.1 < b)
    (hled : leadLine p primaryLevel b (linesFrom text b) ≠ []) :
    Arrived p primaryLevel text (before ++ inner) b
      (observeSubHeadings p (slice text a b) primaryLevel
        (openedBy p h (leadLine p primaryLevel a (linesFrom text a)))) := by
  rcases openedBy_spec (p := p) harrived.wellFormed
    (leadLine p primaryLevel a (linesFrom text a)) with ⟨hwell, hentries⟩
  rcases observe_foldl p (subHeadings p (slice text a b) primaryLevel) hwell with
    ⟨hread, hpath⟩
  have hsection : (slice text a b).isEmpty = false := by
    rw [← Bool.not_eq_true, List.isEmpty_iff]
    intro hempty
    have hlength := @length_slice Char text a b hportion.stop_le
    rw [hempty, List.length_nil] at hlength
    omega
  have hobserved : observeSubHeadings p (slice text a b) primaryLevel
        (openedBy p h (leadLine p primaryLevel a (linesFrom text a))) =
      (subHeadings p (slice text a b) primaryLevel).foldl (fun h e => h.observe p e.2)
        (openedBy p h (leadLine p primaryLevel a (linesFrom text a))) := by
    unfold observeSubHeadings
    rw [hsection]
    rfl
  constructor
  · rw [harrived.split, hportion.split, List.append_assoc]
  · intro e hmem
    rcases List.mem_append.mp hmem with hmem | hmem
    · exact Nat.lt_trans (harrived.early e hmem) hlt
    · exact hhigh e hmem
  · exact hportion.stop_le
  · rw [hobserved]
    exact hread
  · rw [hobserved, hpath, hentries, List.foldl_append, ← harrived.entries,
      hportion.leadLine_eq hlt,
      foldl_observe_lead p primaryLevel hblank hportion.lines.sorted hportion.lines.low
        hportion.closed, ← subHeadings_section p primaryLevel hblank hportion.lines,
      foldl_observe_shift]
  · intro hnone
    exact absurd hnone hled

/-- The headers of all sections from a boundary on are true. -/
theorem inForce_splitSections (cfg : SplitterConfig) (hblank : p.markdownHeading [] = none)
    {text : Text} (rest : List HeadingBoundary) {before : List (Nat × Text)} {a : Nat}
    {h : HeadingHierarchy} (harrived : Arrived p primaryLevel text before a h)
    (hrest : boundariesAt p primaryLevel ((linesFrom text a).filter fun e => decide (a < e.1)) =
      rest) (seq : Nat) :
    forall c, c ∈ splitSections p cfg primaryLevel text seq h
      (⟨a, leadLine p primaryLevel a (linesFrom text a)⟩ :: rest) -> InForce p text c := by
  induction rest generalizing before a h seq with
  | nil =>
      intro c hmem
      simp only [splitSections, sectionStop, List.append_nil] at hmem
      exact inForce_sectionChunks cfg hblank (portion_last hrest) harrived seq c hmem
  | cons next rest ih =>
      rcases portion_of_next harrived.start_le hrest with
        ⟨inner, hportion, hhigh, hlt, hlead, hopens, hmore⟩
      intro c hmem
      rw [splitSections] at hmem
      simp only [sectionStop] at hmem
      rcases List.mem_append.mp hmem with hmem | hmem
      · exact inForce_sectionChunks cfg hblank hportion harrived seq c hmem
      · have hled :
            leadLine p primaryLevel next.runeStart (linesFrom text next.runeStart) ≠ [] := by
          have hline := not_isEmpty_of_opens p primaryLevel hblank hopens
          rw [hlead] at hline
          exact List.isEmpty_eq_false_iff.mp hline
        have hnext := hportion.arrived hblank harrived hlt hhigh hled
        apply ih hnext hmore.symm _ c
        rw [← hlead]
        exact hmem

end Sections

/-!
# Joined chunks
-/

section Joined

variable {p : Patterns} {text : Text}

theorem inForce_coalesceFrom (chunkSize target : Nat) {cur : TextChunk} {rest : List TextChunk}
    (curLen : Nat) (hcur : InForce p text cur) (hrest : forall c, c ∈ rest -> InForce p text c) :
    forall c, c ∈ coalesceFrom chunkSize target cur curLen rest -> InForce p text c := by
  induction rest generalizing cur curLen with
  | nil =>
      intro c hmem
      rw [List.mem_singleton.mp hmem]
      exact hcur
  | cons next rest ih =>
      have hlater := fun c hc => hrest c (List.mem_cons_of_mem next hc)
      simp only [coalesceFrom]
      split
      · apply ih _ _ hlater
        exact (commonHeadingPrefix_linePrefix cur.contextHeader next.contextHeader).trans hcur
      · intro c hmem
        rcases List.mem_cons.mp hmem with rfl | hmem
        · exact hcur
        · exact ih _ (hrest next List.mem_cons_self) hlater c hmem

theorem inForce_coalesceTinyChunks (chunkSize : Nat) {chunks : List TextChunk}
    (h : forall c, c ∈ chunks -> InForce p text c) :
    forall c, c ∈ coalesceTinyChunks chunks chunkSize -> InForce p text c := by
  unfold coalesceTinyChunks
  split
  · rename_i first second rest
    split
    · exact h
    · intro c hmem
      rcases List.mem_mapIdx.mp hmem with ⟨i, hi, rfl⟩
      have hjoined := inForce_coalesceFrom chunkSize (max (chunkSize / 2) 200)
        first.content.length (h first List.mem_cons_self)
        (fun d hd => h d (List.mem_cons_of_mem first hd)) _ (List.getElem_mem hi)
      exact hjoined
  · exact h

end Joined

theorem inForce_sections (p : Patterns) (hblank : p.markdownHeading [] = none) (text : Text)
    (cfg : SplitterConfig) (primaryLevel : Nat) :
    forall c, c ∈ splitSections p cfg primaryLevel text 0 HeadingHierarchy.new
      (findHeadingBoundaries p text primaryLevel) -> InForce p text c := by
  by_cases hne : text = []
  · intro c hmem
    rw [hne] at hmem
    cases hmem
  · rw [findHeadingBoundaries_eq p primaryLevel hne]
    have harrived : Arrived p primaryLevel text [] 0 HeadingHierarchy.new := by
      constructor
      · rfl
      · intro e hmem
        cases hmem
      · exact Nat.zero_le _
      · exact wellFormed_new
      · rfl
      · intro _
        rfl
    exact inForce_splitSections cfg hblank _ harrived rfl 0

/-- Every header names headings in force at the start of its chunk, before small
neighbours are joined and after. -/
theorem splitByHeadings_inForce (p : Patterns) (hblank : p.markdownHeading [] = none) (text : Text)
    (cfg : SplitterConfig) (profile : Option DocProfile) :
    (forall primaryLevel c, c ∈ splitSections p cfg primaryLevel text 0 HeadingHierarchy.new
        (findHeadingBoundaries p text primaryLevel) -> InForce p text c) ∧
      forall c, c ∈ splitByHeadings p text cfg profile -> InForce p text c := by
  have hlegacy : forall c, c ∈ splitText p text cfg.chunkSize cfg.chunkOverlap cfg.separators ->
      InForce p text c := by
    intro c hmem
    exact Or.inl (splitText_starts p _ _ _ _ c hmem).1
  constructor
  · exact inForce_sections p hblank text cfg
  · unfold splitByHeadings
    split
    · intro c hmem
      cases hmem
    · dsimp only
      split
      · exact hlegacy
      · split
        · exact hlegacy
        · exact inForce_coalesceTinyChunks cfg.chunkSize (inForce_sections p hblank text cfg _)

/-!
# A heading expression
-/

/-- What may follow the second group of `MARKDOWN_HEADING`. -/
def closesHeading (t : Text) : Bool :=
  ((t.dropWhile isWhitespace).dropWhile (· == '#')).all isWhitespace

/-- `MARKDOWN_HEADING.captures` on a line whose title is not blank. -/
def atxHeading (line : Text) : Option (Nat × Text) :=
  let level := (line.takeWhile (· == '#')).length
  let behind := line.drop level
  let body := behind.dropWhile isWhitespace
  if decide (1 ≤ level ∧ level ≤ 6) && decide (body.length < behind.length) then
    (body.inits.find? fun title => !title.isEmpty && closesHeading (body.drop title.length)).map
      fun title => (level, title)
  else none

def headingPatterns : Patterns :=
  { plainPatterns with markdownHeading := atxHeading }

/-- Two chapters, the first with a section. -/
def chapters : Text := "# One\ntext\n## Two\ntext\n# Three\ntext\n".toList

def narrowConfig : SplitterConfig where
  chunkSize := 8
  chunkOverlap := 0
  separators := [['\n']]
  strategy := "heading"
  tokenLimit := 0
  languages := []

theorem splitByHeadings_inForce_chapters :
    (forall primaryLevel c, c ∈ splitSections headingPatterns narrowConfig primaryLevel chapters 0
        HeadingHierarchy.new (findHeadingBoundaries headingPatterns chapters primaryLevel) ->
      InForce headingPatterns chapters c) ∧
      forall c, c ∈ splitByHeadings headingPatterns chapters narrowConfig none ->
        InForce headingPatterns chapters c :=
  splitByHeadings_inForce headingPatterns (by decide) chapters narrowConfig none

end Chunker
end KnowledgeBrain
