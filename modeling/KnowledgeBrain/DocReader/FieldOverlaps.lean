import KnowledgeBrain.DocReader.FieldStacks

/-!
# Regions and overlaps

The region of a child is right where a table of contents that the child
overlaps shows in the child or is the innermost field at its start.  Text
outside all fields is found in every child.
-/

namespace KnowledgeBrain
namespace DocReader

open Foundation
open Chunker (Text)

variable {runtime : Runtime}

/-!
# Runs
-/

theorem labelled_fold {nodes : List Element} (hinstructed : Instructed nodes) (more : List Element)
    {n : Nat} {state : Option String × List String}
    (hmore : forall k, k < more.length -> nodes[n + k]? = more[k]?)
    (h : Labelled runtime nodes n state.2) :
    Labelled runtime nodes (n + more.length) (more.foldl (fieldNode runtime) state).2 := by
  induction more generalizing n state with
  | nil =>
      exact h
  | cons node rest ih =>
      have hnode : nodes[n]? = some node := hmore 0 (Nat.zero_lt_succ _)
      rw [List.foldl_cons, List.length_cons,
        show n + (rest.length + 1) = n + 1 + rest.length by omega]
      apply ih
      · intro k hk
        have hnext := hmore (k + 1) (Nat.succ_lt_succ hk)
        rw [List.getElem?_cons_succ] at hnext
        rw [← hnext, show n + 1 + k = n + (k + 1) by omega]
      · exact labelled_step hinstructed hnode state.1 h

theorem openFields_concat (before : List Element) (child : Element) :
    openFields runtime (before ++ [child]) =
      (fieldRegion runtime child (openFields runtime before)).2 := by
  unfold openFields
  rw [List.foldl_append]
  rfl

theorem labelled_openFields {nodes : List Element} (hinstructed : Instructed nodes)
    (before : List Element) (rest : List Element)
    (hnodes : nodes = before.flatMap Element.iter ++ rest) :
    Labelled runtime nodes (before.flatMap Element.iter).length (openFields runtime before) := by
  induction before using List.reverseRecOn generalizing rest with
  | nil =>
      exact .nil
  | append_singleton before child ih =>
      have hsplit : (before ++ [child]).flatMap Element.iter =
          before.flatMap Element.iter ++ child.iter := by
        rw [List.flatMap_append, List.flatMap_singleton]
      rw [hsplit, List.append_assoc] at hnodes
      rw [openFields_concat, hsplit, List.length_append]
      apply labelled_fold hinstructed
      · intro k hk
        rw [hnodes, List.getElem?_append_right (Nat.le_add_right _ _), Nat.add_sub_cancel_left,
          List.getElem?_append_left hk]
      · exact ih (child.iter ++ rest) hnodes

namespace Segment

variable {s : Segment}

theorem labelled (hinstructed : Instructed s.nodes) :
    Labelled runtime s.nodes s.start (openFields runtime s.before) := by
  rw [start_eq]
  exact labelled_openFields hinstructed s.before _ s.nodes_eq

/-- The innermost open field gives the first label. -/
theorem head_eq_toc_iff (hbalanced : Balanced (s.nodes.map bracketOf))
    (hinstructed : Instructed s.nodes) :
    (openFields runtime s.before).head? = some "toc" <->
      exists b e, s.Innermost b e ∧ TocBefore runtime s.nodes s.start b := by
  have hlabelled : Labelled runtime s.nodes s.start (openFields runtime s.before) :=
    labelled hinstructed
  have hmatched : forall b, b ∈ openAt (s.nodes.map bracketOf) s.start <->
      exists e, Matched (s.nodes.map bracketOf) b e ∧ b < s.start ∧ s.start ≤ e :=
    fun b => mem_openAt_iff_matched hbalanced
  have hsorted := pairwise_openAt (s.nodes.map bracketOf) s.start
  unfold Labelled at hlabelled
  generalize openAt (s.nodes.map bracketOf) s.start = opened at hlabelled hmatched hsorted
  generalize openFields runtime s.before = stack at hlabelled
  cases hlabelled with
  | nil =>
      constructor
      · intro hhead
        cases hhead
      · rintro ⟨b, e, hinnermost, _⟩
        cases (hmatched b).mpr ⟨e, hinnermost.matched, hinnermost.opened, hinnermost.closed⟩
  | @cons label b labels outer hlabel _ =>
      rcases (hmatched b).mp List.mem_cons_self with ⟨e, hb, hopened, hclosed⟩
      have hlast : forall b' e', Matched (s.nodes.map bracketOf) b' e' -> b' < s.start ->
          s.start ≤ e' -> b' ≤ b := by
        intro b' e' hb' hopened' hclosed'
        rcases List.mem_cons.mp ((hmatched b').mpr ⟨e', hb', hopened', hclosed'⟩) with rfl | hmem
        · exact Nat.le_refl _
        · exact Nat.le_of_lt ((List.pairwise_cons.mp hsorted).1 b' hmem)
      constructor
      · intro hhead
        have htoc : label = "toc" := Option.some.inj hhead
        rcases hlabel with ⟨_, hbefore⟩ | ⟨hfield, _⟩
        · exact ⟨b, e, ⟨hb, hopened, hclosed, hlast⟩, hbefore⟩
        · rw [hfield] at htoc
          exact absurd htoc (by decide)
      · rintro ⟨b', e', hinnermost, hbefore⟩
        have hsame : b' = b := Nat.le_antisymm
          (hlast b' e' hinnermost.matched hinnermost.opened hinnermost.closed)
          (hinnermost.last b e hb hopened hclosed)
        rw [hsame] at hbefore
        rcases hlabel with ⟨htoc, _⟩ | ⟨_, hnot⟩
        · rw [htoc]
          rfl
        · exact absurd hbefore hnot

/-- A region is read as a table of contents where one shows. -/
theorem region_eq_toc_iff (hbalanced : Balanced (s.nodes.map bracketOf))
    (hinstructed : Instructed s.nodes) :
    (fieldRegion runtime s.child (openFields runtime s.before)).1 = some "toc" <->
      s.ShowsToc runtime := by
  have hhead := @head_eq_toc_iff runtime s hbalanced hinstructed
  rw [fieldRegion_fst]
  unfold ShowsToc
  by_cases hshows : (s.child.iter.any fun node =>
      isTocInstruction runtime node || isTocSimple runtime node) = true
  · rw [if_pos hshows]
    have hnode := List.any_eq_true.mp hshows
    exact ⟨fun _ => Or.inl hnode, fun _ => rfl⟩
  · rw [if_neg hshows, ← hhead]
    have hnone : ¬ exists node, node ∈ s.child.iter ∧
        (isTocInstruction runtime node || isTocSimple runtime node) = true :=
      fun hnode => hshows (List.any_eq_true.mpr hnode)
    rw [or_iff_right hnone]
    split
    · cases openFields runtime s.before with
      | nil =>
          constructor
          · intro hfield
            exact absurd (Option.some.inj hfield) (by decide)
          · intro hnil
            cases hnil
      | cons label rest =>
          exact Iff.rfl
    · exact Iff.rfl

/-- Where a table of contents shows, the child overlaps it. -/
theorem overlapsToc_of_shows (hbalanced : Balanced (s.nodes.map bracketOf))
    (hinstructed : Instructed s.nodes) (h : s.ShowsToc runtime) : s.OverlapsToc runtime := by
  rcases h with ⟨node, hmem, hnode⟩ | ⟨b, e, hinnermost, m, hm, hinstruction, htoc⟩
  · rcases Bool.or_eq_true_iff.mp hnode with htoc | hsimple
    · rcases mem_iter_iff.mp hmem with ⟨n, hstart, hstop, hn⟩
      have hinstruction : isInstruction node = true := (Bool.and_eq_true_iff.mp htoc).1
      rcases hinstructed.only n (by rw [hn]; exact hinstruction) with ⟨b, hb, hfollows⟩
      rcases exists_matched hbalanced hb with ⟨e, hmatched⟩
      have hless := hfollows.lt
      have hlength := (List.getElem?_eq_some_iff.mp hn).1
      refine Or.inl ⟨b, e, ⟨hmatched, n, hlength, hfollows, by rw [hn]; exact htoc⟩, by omega, ?_⟩
      -- the end mark stands behind the instruction
      by_contra hbefore
      have hclosing := hmatched.closing
      rw [List.getElem?_map] at hclosing
      rcases Option.map_eq_some_iff.mp hclosing with ⟨closer, hcloser, hbracket⟩
      have hnot := hfollows.not_mark hmatched.lt (by omega) hcloser
      rw [isFieldMark_of_bracket (by rw [hbracket]; decide)] at hnot
      cases hnot
    · exact Or.inr ⟨node, hmem, hsimple⟩
  · have hlength : m < s.nodes.length := by
      by_contra hlong
      rw [List.getElem?_eq_none (by omega)] at htoc
      cases htoc
    have hopened := hinnermost.opened
    refine Or.inl ⟨b, e, ⟨hinnermost.matched, m, hlength, hinstruction, htoc⟩, ?_,
      hinnermost.closed⟩
    unfold stop
    omega

theorem overlapsField_iff (hbalanced : Balanced (s.nodes.map bracketOf))
    (hinstructed : Instructed s.nodes) :
    s.OverlapsField <-> openFields runtime s.before ≠ [] ∨
      (s.child.iter.any fun node => bracketOf node == .opening || node.tag == w "fldSimple")
        = true := by
  have hlength := List.Forall₂.length_eq (@labelled runtime s hinstructed)
  have hopen : openFields runtime s.before ≠ [] <->
      exists b, b ∈ openAt (s.nodes.map bracketOf) s.start := by
    rw [← List.length_pos_iff, hlength, List.length_pos_iff_exists_mem]
  rw [hopen, List.any_eq_true]
  unfold OverlapsField
  constructor
  · rintro (⟨b, e, hmatched, hstop, hstart⟩ | ⟨node, hmem, hsimple⟩)
    · by_cases hbefore : b < s.start
      · exact Or.inl ⟨b, (mem_openAt_iff_matched hbalanced).mpr ⟨e, hmatched, hbefore, hstart⟩⟩
      · have hopening := hmatched.opening
        rw [List.getElem?_map] at hopening
        rcases Option.map_eq_some_iff.mp hopening with ⟨node, hnode, hbracket⟩
        refine Or.inr ⟨node, mem_iter_iff.mpr ⟨b, by omega, hstop, hnode⟩, ?_⟩
        rw [hbracket]
        rfl
    · refine Or.inr ⟨node, hmem, ?_⟩
      rw [hsimple]
      simp
  · rintro (⟨b, hb⟩ | ⟨node, hmem, hnode⟩)
    · rcases (mem_openAt_iff_matched hbalanced).mp hb with ⟨e, hmatched, hbefore, hstart⟩
      refine Or.inl ⟨b, e, hmatched, ?_, hstart⟩
      unfold stop
      omega
    · rcases Bool.or_eq_true_iff.mp hnode with hopening | hsimple
      · rcases mem_iter_iff.mp hmem with ⟨n, hstart, hstop, hn⟩
        have hbracket := getElem?_bracket hn
        rw [beq_iff_eq.mp hopening] at hbracket
        rcases exists_matched hbalanced hbracket with ⟨e, hmatched⟩
        have hless := hmatched.lt
        exact Or.inl ⟨n, e, hmatched, hstop, by omega⟩
      · exact Or.inr ⟨node, hmem, beq_iff_eq.mp hsimple⟩

theorem label_of_mem (hinstructed : Instructed s.nodes) {label : String}
    (h : label ∈ openFields runtime s.before) : label = "toc" ∨ label = "field" := by
  have hlabelled := @labelled runtime s hinstructed
  unfold Labelled at hlabelled
  generalize openAt (s.nodes.map bracketOf) s.start = opened at hlabelled
  generalize openFields runtime s.before = stack at h hlabelled
  induction hlabelled with
  | nil =>
      cases h
  | cons hfirst _ ih =>
      rcases List.mem_cons.mp h with rfl | h
      · exact hfirst.imp And.left And.left
      · exact ih h

theorem region_eq_none_iff (hbalanced : Balanced (s.nodes.map bracketOf))
    (hinstructed : Instructed s.nodes) :
    (fieldRegion runtime s.child (openFields runtime s.before)).1 = none <->
      ¬ s.ShowsToc runtime ∧ ¬ s.OverlapsField := by
  have htoc := @region_eq_toc_iff runtime s hbalanced hinstructed
  rw [← htoc, @overlapsField_iff runtime s hbalanced hinstructed, fieldRegion_fst]
  by_cases hshows : (s.child.iter.any fun node =>
      isTocInstruction runtime node || isTocSimple runtime node) = true
  · simp [hshows]
  · by_cases hopens : (s.child.iter.any fun node =>
        bracketOf node == .opening || node.tag == w "fldSimple") = true
    · simp [hshows, hopens]
    · simp only [Bool.not_eq_true] at hshows hopens
      rw [hshows, hopens]
      cases openFields runtime s.before with
      | nil =>
          simp
      | cons label rest =>
          simp

theorem region_cases (hinstructed : Instructed s.nodes) :
    (fieldRegion runtime s.child (openFields runtime s.before)).1 = some "toc" ∨
      (fieldRegion runtime s.child (openFields runtime s.before)).1 = some "field" ∨
      (fieldRegion runtime s.child (openFields runtime s.before)).1 = none := by
  have hhead : (openFields runtime s.before).head? = some "toc" ∨
      (openFields runtime s.before).head? = some "field" ∨
      (openFields runtime s.before).head? = none := by
    have hlabels := @label_of_mem runtime s hinstructed
    cases hstack : openFields runtime s.before with
    | nil =>
        exact Or.inr (Or.inr rfl)
    | cons label rest =>
        rw [hstack] at hlabels
        rcases hlabels List.mem_cons_self with rfl | rfl
        · exact Or.inl rfl
        · exact Or.inr (Or.inl rfl)
  rw [fieldRegion_fst]
  split
  · exact Or.inl rfl
  · split
    · rcases hhead with hhead | hhead | hhead
      · rw [hhead]
        exact Or.inl rfl
      · rw [hhead]
        exact Or.inr (Or.inl rfl)
      · rw [hhead]
        exact Or.inr (Or.inl rfl)
    · exact hhead

/-- A child is classified where the table of contents that it overlaps shows. -/
theorem classified_iff (hbalanced : Balanced (s.nodes.map bracketOf))
    (hinstructed : Instructed s.nodes) :
    Classified runtime s (fieldRegion runtime s.child (openFields runtime s.before)).1 <->
      (s.OverlapsToc runtime -> s.ShowsToc runtime) := by
  have htoc := @region_eq_toc_iff runtime s hbalanced hinstructed
  have hnone := @region_eq_none_iff runtime s hbalanced hinstructed
  have hshows := @overlapsToc_of_shows runtime s hbalanced hinstructed
  constructor
  · intro h hoverlaps
    exact htoc.mp (h.toc.mpr hoverlaps)
  · intro h
    have hsame : s.ShowsToc runtime <-> s.OverlapsToc runtime := ⟨hshows, h⟩
    rw [hsame] at htoc hnone
    refine ⟨htoc, ?_, hnone⟩
    constructor
    · intro hfield
      have hnotToc : ¬ s.OverlapsToc runtime := by
        rw [← htoc, hfield]
        decide
      refine ⟨hnotToc, ?_⟩
      by_contra hnot
      rw [hnone.mpr ⟨hnotToc, hnot⟩] at hfield
      cases hfield
    · rintro ⟨hnotToc, hfield⟩
      rcases @region_cases runtime s hinstructed with hregion | hregion | hregion
      · exact absurd (htoc.mp hregion) hnotToc
      · exact hregion
      · exact absurd hfield (hnone.mp hregion).2

end Segment

/-!
# Text
-/

/-- One element of `_outside_toc_text`, on the depth and on what was found. -/
def textStep (state : Nat × Bool) (entry : Element × List Tag) : Nat × Bool :=
  let depth :=
    match bracketOf entry.1 with
    | .opening => state.1 + 1
    | .closing => state.1 - 1
    | .neutral => state.1
  (depth, state.2 || (entry.1.tag == w "t" && strip entry.1.text != [] && depth == 0 &&
    !entry.2.contains (w "fldSimple")))

theorem outsideTocText_eq (child : Element) (above : List Tag) (initialDepth : Nat) :
    outsideTocText child above initialDepth =
      ((child.iterWithin above).foldl textStep (initialDepth, false)).2 := by
  unfold outsideTocText
  congr 2
  funext state entry
  unfold textStep bracketOf
  by_cases hchar : entry.1.tag = w "fldChar"
  · by_cases hbegin : entry.1.get (w "fldCharType") = some "begin".toList
    · simp only [hchar, hbegin, and_self, if_true]
    · by_cases hend : entry.1.get (w "fldCharType") = some "end".toList
      · have hdiffers : some "end".toList ≠ some "begin".toList := by decide
        simp only [hchar, hend, hdiffers, and_false, and_self, if_true, if_false]
      · simp only [hchar, hbegin, hend, and_false, if_true, if_false]
  · simp only [hchar, false_and, if_false]

theorem textStep_fst {marks : List Bracket} {n : Nat} {entry : Element × List Tag}
    (hmark : marks[n]? = some (bracketOf entry.1)) (found : Bool) :
    (textStep ((openAt marks n).length, found) entry).1 = (openAt marks (n + 1)).length := by
  unfold textStep
  cases hbracket : bracketOf entry.1 with
  | opening =>
      rw [hbracket] at hmark
      rw [openAt_opening hmark]
      rfl
  | closing =>
      rw [hbracket] at hmark
      rw [openAt_closing hmark, List.length_tail]
  | neutral =>
      rw [hbracket] at hmark
      rw [openAt_other (by rw [hmark]; decide) (by rw [hmark]; decide)]

/-- Text without a field around it. -/
def FreeText (marks : List Bracket) (n : Nat) (entry : Element × List Tag) : Prop :=
  entry.1.tag = w "t" ∧ strip entry.1.text ≠ [] ∧ w "fldSimple" ∉ entry.2 ∧ openAt marks n = []

theorem textStep_snd (marks : List Bracket) (n : Nat) (entry : Element × List Tag)
    (found : Bool) :
    (textStep ((openAt marks n).length, found) entry).2 = true <->
      found = true ∨ FreeText marks n entry := by
  have hdepth : entry.1.tag = w "t" -> bracketOf entry.1 = .neutral := by
    intro htag
    apply if_neg
    rw [htag]
    decide
  unfold textStep FreeText
  by_cases htag : entry.1.tag = w "t"
  · rw [hdepth htag]
    simp [htag, List.length_eq_zero_iff]
    tauto
  · simp [htag]

theorem texts_snd {marks : List Bracket} (entries : List (Element × List Tag)) {n : Nat}
    {found : Bool}
    (hmarks : forall k entry, entries[k]? = some entry ->
      marks[n + k]? = some (bracketOf entry.1)) :
    (entries.foldl textStep ((openAt marks n).length, found)).2 = true <->
      found = true ∨ exists p entry, entries[p]? = some entry ∧ FreeText marks (n + p) entry := by
  induction entries generalizing n found with
  | nil =>
      simp
  | cons entry rest ih =>
      have hmark : marks[n]? = some (bracketOf entry.1) := hmarks 0 entry rfl
      have hfst := textStep_fst hmark found
      have hsnd := textStep_snd marks n entry found
      rw [List.foldl_cons]
      generalize textStep ((openAt marks n).length, found) entry = state at hfst hsnd
      rcases state with ⟨depth, found'⟩
      have hdepth : depth = (openAt marks (n + 1)).length := hfst
      rw [hdepth, ih (fun k other hk => by
        rw [show n + 1 + k = n + (k + 1) by omega]
        exact hmarks (k + 1) other hk), hsnd, or_assoc]
      apply or_congr_right
      constructor
      · rintro (hfree | ⟨p, other, hp, hfree⟩)
        · exact ⟨0, entry, rfl, hfree⟩
        · refine ⟨p + 1, other, hp, ?_⟩
          rw [show n + (p + 1) = n + 1 + p by omega]
          exact hfree
      · rintro ⟨p, other, hp, hfree⟩
        cases p with
        | zero =>
            cases hp
            exact Or.inl hfree
        | succ p =>
            refine Or.inr ⟨p, other, hp, ?_⟩
            rw [show n + 1 + p = n + (p + 1) by omega]
            exact hfree

namespace Segment

variable {s : Segment}

theorem getElem?_entry {p : Nat} {entry : Element × List Tag}
    (hp : (s.child.iterWithin s.above)[p]? = some entry) :
    (s.nodes.map bracketOf)[s.start + p]? = some (bracketOf entry.1) := by
  have hiter : s.child.iter[p]? = some entry.1 := by
    unfold Element.iter
    rw [map_iterWithin [] s.above, List.getElem?_map, hp]
    rfl
  apply getElem?_bracket
  rw [getElem?_nodes (List.getElem?_eq_some_iff.mp hiter).1]
  exact hiter

/-- Text outside all fields is found. -/
theorem outsideTocText_iff (hbalanced : Balanced (s.nodes.map bracketOf))
    (hinstructed : Instructed s.nodes) :
    outsideTocText s.child s.above (openFields runtime s.before).length = true <->
      s.TextOutside := by
  rw [outsideTocText_eq, List.Forall₂.length_eq (@labelled runtime s hinstructed),
    texts_snd _ fun p entry hp => getElem?_entry hp]
  unfold TextOutside FreeText
  have hopen : forall {p : Nat} {node : Element} {tags : List Tag},
      (s.child.iterWithin s.above)[p]? = some (node, tags) -> node.tag = w "t" ->
      (openAt (s.nodes.map bracketOf) (s.start + p) = [] <->
        ¬ exists b e, Matched (s.nodes.map bracketOf) b e ∧ b < s.start + p ∧ s.start + p < e) := by
    intro p node tags hp htag
    rw [List.eq_nil_iff_forall_not_mem]
    constructor
    · rintro hempty ⟨b, e, hmatched, hless, hbefore⟩
      exact hempty b ((mem_openAt_iff_matched hbalanced).mpr
        ⟨e, hmatched, hless, Nat.le_of_lt hbefore⟩)
    · intro hnone b hb
      rcases (mem_openAt_iff_matched hbalanced).mp hb with ⟨e, hmatched, hless, hbefore⟩
      apply hnone
      refine ⟨b, e, hmatched, hless, Nat.lt_of_le_of_ne hbefore ?_⟩
      -- text is no end mark
      rintro rfl
      have hclosing := hmatched.closing
      rw [getElem?_entry hp] at hclosing
      have hneutral : bracketOf node = .neutral := by
        apply if_neg
        rw [htag]
        decide
      rw [hneutral] at hclosing
      cases hclosing
  constructor
  · rintro (hfalse | ⟨p, ⟨node, tags⟩, hp, htag, htext, htags, hempty⟩)
    · cases hfalse
    · exact ⟨p, node, tags, hp, htag, htext, htags, (hopen hp htag).mp hempty⟩
  · rintro ⟨p, node, tags, hp, htag, htext, htags, hnone⟩
    exact Or.inr ⟨p, (node, tags), hp, htag, htext, htags, (hopen hp htag).mpr hnone⟩

end Segment

/-!
# Stories
-/

/-- The children of a story are read as what they overlap if each table of contents shows. -/
theorem regions_iff_shown (runtime : Runtime) (above : List Tag) (children : List Element)
    (hbalanced : Balanced (((storyNodes above children).map Prod.fst).map bracketOf))
    (hinstructed : Instructed ((storyNodes above children).map Prod.fst)) :
    (forall s : Segment, s.above = above -> s.children = children ->
      Classified runtime s (fieldRegion runtime s.child (openFields runtime s.before)).1 ∧
        (outsideTocText s.child s.above (openFields runtime s.before).length = true <->
          s.TextOutside)) <->
      forall s : Segment, s.above = above -> s.children = children ->
        s.OverlapsToc runtime -> s.ShowsToc runtime := by
  have hnodes : forall s : Segment, s.above = above -> s.children = children ->
      Balanced (s.nodes.map bracketOf) ∧ Instructed s.nodes := by
    rintro s rfl rfl
    exact ⟨hbalanced, hinstructed⟩
  constructor
  · intro h s habove hchildren
    rcases hnodes s habove hchildren with ⟨hmarks, hinstructions⟩
    exact (Segment.classified_iff hmarks hinstructions).mp (h s habove hchildren).1
  · intro h s habove hchildren
    rcases hnodes s habove hchildren with ⟨hmarks, hinstructions⟩
    exact ⟨(Segment.classified_iff hmarks hinstructions).mpr (h s habove hchildren),
      Segment.outsideTocText_iff hmarks hinstructions⟩

/-- The table, as far as plain letters need it. -/
def asciiRuntime : Runtime where
  upper t := t.map Char.toUpper

def leaf (tag : Tag) (attributes : List (Tag × Text)) : Element :=
  .node tag attributes [] []

/-- A paragraph with one run. -/
def runOf (content : List Element) : Element :=
  .node (w "p") [] [] [.node (w "r") [] [] content]

def fieldChar (kind : String) : Element :=
  leaf (w "fldChar") [(w "fldCharType", kind.toList)]

def instructionText (text : String) : Element :=
  .node (w "instrText") [] text.toList []

/-- A page reference in a table of contents reaches into the second paragraph. -/
def brokenReference : Segment where
  above := []
  before := [runOf [fieldChar "begin", instructionText "TOC", fieldChar "begin",
    instructionText "PAGEREF"]]
  child := runOf [.node (w "t") [] "1".toList [], fieldChar "end"]
  after := [runOf [fieldChar "end"]]

theorem balanced_of_le {ms : List Bracket} (hnonneg : forall n, n ≤ ms.length -> 0 ≤ level ms n)
    (hsettled : level ms ms.length = 0) : Balanced ms where
  nonneg := by
    intro n
    by_cases hn : n ≤ ms.length
    · exact hnonneg n hn
    · rw [level_of_length_le (by omega), hsettled]
  settled := hsettled

theorem marks_brokenReference : brokenReference.nodes.map bracketOf =
    [.neutral, .neutral, .opening, .neutral, .opening, .neutral, .neutral, .neutral, .neutral,
      .closing, .neutral, .neutral, .closing] := by
  decide +kernel

theorem instructed_brokenReference : Instructed brokenReference.nodes where
  each := by
    intro b hb
    rw [marks_brokenReference] at hb
    have hlt := (List.getElem?_eq_some_iff.mp hb).1
    have hplace : b = 2 ∨ b = 4 := by
      revert hb
      revert b
      decide
    rcases hplace with rfl | rfl
    · exact ⟨3, by decide, by decide +kernel, by decide +kernel⟩
    · exact ⟨5, by decide, by decide +kernel, by decide +kernel⟩
  only := by
    intro m hm
    have hlt : m < 13 := by
      by_contra hlong
      rw [List.getElem?_eq_none (by
        rw [← List.length_map (f := bracketOf), marks_brokenReference]
        exact Nat.le_of_not_lt hlong)] at hm
      cases hm
    have hplace : m = 3 ∨ m = 5 := by
      revert hm
      revert m
      decide +kernel
    rw [marks_brokenReference]
    rcases hplace with rfl | rfl
    · exact ⟨2, rfl, by decide, by decide +kernel, by decide +kernel⟩
    · exact ⟨4, rfl, by decide, by decide +kernel, by decide +kernel⟩

theorem balanced_brokenReference : Balanced (brokenReference.nodes.map bracketOf) := by
  rw [marks_brokenReference]
  exact balanced_of_le (by decide) (by decide)

/-- A child that starts in a field nested in a table of contents is read as that field. -/
theorem nested_start_misread :
    ¬ forall (runtime : Runtime) (above : List Tag) (children : List Element),
      Balanced (((storyNodes above children).map Prod.fst).map bracketOf) ->
      Instructed ((storyNodes above children).map Prod.fst) ->
      forall s : Segment, s.above = above -> s.children = children ->
        Classified runtime s (fieldRegion runtime s.child (openFields runtime s.before)).1 ∧
          (outsideTocText s.child s.above (openFields runtime s.before).length = true <->
            s.TextOutside) := by
  intro hclaim
  have hread := hclaim asciiRuntime [] brokenReference.children balanced_brokenReference
    instructed_brokenReference brokenReference rfl rfl
  have hregion : (fieldRegion asciiRuntime brokenReference.child
      (openFields asciiRuntime brokenReference.before)).1 = some "field" := by
    decide +kernel
  have hmatched : Matched (brokenReference.nodes.map bracketOf) 2 12 := by
    rw [marks_brokenReference]
    exact ⟨by decide, rfl, rfl, balanced_of_le (by decide) (by decide)⟩
  have htoc : brokenReference.OverlapsToc asciiRuntime := by
    refine Or.inl ⟨2, 12, ⟨hmatched, 3, by decide +kernel, ?_, by decide +kernel⟩,
      by decide +kernel, by decide +kernel⟩
    exact ⟨by decide, by decide +kernel, by decide +kernel⟩
  rw [hregion] at hread
  exact absurd (hread.1.toc.mpr htoc) (by decide)

theorem regions_iff_shown_brokenReference :
    (forall s : Segment, s.above = [] -> s.children = brokenReference.children ->
      Classified asciiRuntime s
          (fieldRegion asciiRuntime s.child (openFields asciiRuntime s.before)).1 ∧
        (outsideTocText s.child s.above (openFields asciiRuntime s.before).length = true <->
          s.TextOutside)) <->
      forall s : Segment, s.above = [] -> s.children = brokenReference.children ->
        s.OverlapsToc asciiRuntime -> s.ShowsToc asciiRuntime :=
  regions_iff_shown asciiRuntime [] brokenReference.children balanced_brokenReference
    instructed_brokenReference

end DocReader
end KnowledgeBrain
