import KnowledgeBrain.Chunker.Coverage
import KnowledgeBrain.Chunker.Injection

/-!
# Parents and children

Children are cut from the content of their parent and addressed in the
document.  A table header in front of a parent moves its children away from
the text they hold.
-/

namespace KnowledgeBrain
namespace Chunker

open Foundation

/-- A chunk of the content of a parent, addressed in the document. -/
def TextChunk.movedBy (sub parent : TextChunk) : TextChunk :=
  { sub with start := sub.start + parent.start, stop := sub.stop + parent.start }

/-- What a chunk holds and where. -/
def TextChunk.place (c : TextChunk) : Text × Nat × Nat :=
  (c.content, c.start, c.stop)

namespace Engine

/-- The children with the parents they are cut from. -/
def cutChildren (e : Engine) (text : Text) (parentCfg childCfg : SplitterConfig) :
    List (TextChunk × TextChunk) :=
  (e.split text parentCfg).flatMap fun parent =>
    (e.split parent.content childCfg).map fun sub => (parent, sub.movedBy parent)

theorem places_childrenOf (parent : TextChunk) (index : Option Nat) (seq : Nat)
    (subs : List TextChunk) :
    (childrenOf parent index seq subs).map (fun child => child.chunk.place) =
      subs.map fun sub => (sub.movedBy parent).place := by
  unfold childrenOf
  apply List.ext_getElem
  · simp
  · intro i _ _
    simp [TextChunk.place, TextChunk.movedBy]

variable (e : Engine)

theorem places_foldl (childCfg : SplitterConfig) (parents : List TextChunk)
    (r : ParentChildResult) :
    (parents.foldl (e.addParent childCfg) r).children.map (fun child => child.chunk.place) =
      r.children.map (fun child => child.chunk.place) ++ parents.flatMap fun parent =>
        (e.split parent.content childCfg).map fun sub => (sub.movedBy parent).place := by
  induction parents generalizing r with
  | nil => simp
  | cons parent parents ih =>
      rw [List.foldl_cons, ih, List.flatMap_cons, ← List.append_assoc]
      congr 1
      unfold addParent
      dsimp only
      split
      · rw [List.map_append, places_childrenOf]
      · rw [List.map_append, places_childrenOf]

theorem places_splitParentChild {text : Text} (parentCfg childCfg : SplitterConfig)
    (hne : text ≠ []) :
    (e.splitParentChild text parentCfg childCfg).children.map (fun child => child.chunk.place) =
      (e.cutChildren text parentCfg childCfg).map fun pair => pair.2.place := by
  unfold splitParentChild cutChildren
  rw [if_neg (by simpa using hne), places_foldl, List.map_flatMap]
  simp only [List.map_map]
  rfl

/-!
# Offsets in the document
-/

/-- The child lies inside its parent and the text, and the text it addresses
ends its content. -/
def Addresses (text : Text) (parent child : TextChunk) : Prop :=
  parent.start ≤ child.start ∧ child.start ≤ child.stop ∧ child.stop ≤ parent.stop ∧
    child.stop ≤ text.length ∧ slice text child.start child.stop <:+ child.content

/-- All children cut from a parent do. -/
def ChildrenAddress (e : Engine) (text : Text) (childCfg : SplitterConfig)
    (parent : TextChunk) : Prop :=
  forall sub, sub ∈ e.split parent.content childCfg -> Addresses text parent (sub.movedBy parent)

/-- Text that agrees with another wherever it has ink has no more of it. -/
theorem ink_le_of_agrees {t u : Text}
    (h : forall i, Inked t i -> t[i]? = u[i]?) : ink t ≤ ink u := by
  induction t generalizing u with
  | nil => exact Nat.zero_le _
  | cons c t ih =>
      have hshift : forall i, Inked t i -> t[i]? = u.tail[i]? := by
        intro i hi
        have hnext := h (i + 1) hi
        rw [List.getElem?_cons_succ] at hnext
        rw [hnext, List.getElem?_tail]
      have htail := ih hshift
      have hcons : ink (c :: t) = ink [c] + ink t := ink_append [c] t
      cases hc : isWhitespace c with
      | true =>
          have hzero : ink [c] = 0 := by simp [ink, hc]
          have hsub : ink u.tail ≤ ink u := (List.tail_sublist u).countP_le
          omega
      | false =>
          have hfirst := h 0 ⟨c, rfl, hc⟩
          rw [List.getElem?_cons_zero] at hfirst
          cases u with
          | nil => cases hfirst
          | cons d u =>
              rw [List.getElem?_cons_zero] at hfirst
              cases hfirst
              have hcons' : ink (c :: u) = ink [c] + ink u := ink_append [c] u
              rw [List.tail_cons] at htail
              omega

theorem suffix_eq_of_length {t u v : Text} (ht : t <:+ v) (hu : u <:+ v)
    (hlength : t.length = u.length) : t = u :=
  (List.suffix_of_suffix_length_le ht hu (Nat.le_of_eq hlength)).eq_of_length hlength

theorem getElem?_slice (t : Text) {a b i : Nat} (hlow : a ≤ i) (hhigh : i < b) :
    (slice t a b)[i - a]? = t[i]? := by
  unfold slice
  rw [List.getElem?_drop, Nat.add_sub_cancel' hlow, List.getElem?_take_of_lt hhigh]

theorem slice_moved (text : Text) {parent sub : TextChunk}
    (hin : sub.stop + parent.start ≤ parent.stop) :
    slice text (sub.start + parent.start) (sub.stop + parent.start) =
      slice (slice text parent.start parent.stop) sub.start sub.stop := by
  rw [slice_slice text sub.start (by omega), Nat.add_comm sub.start, Nat.add_comm sub.stop]

theorem slice_eq_of_addresses {text : Text} {parent sub : TextChunk}
    (hstop : parent.stop ≤ text.length) (hsub : sub.stop ≤ parent.content.length)
    (hled : Led parent.content sub)
    (haddresses : Addresses text parent (sub.movedBy parent)) :
    slice parent.content sub.start sub.stop =
      slice (slice text parent.start parent.stop) sub.start sub.stop := by
  have hinside : sub.stop + parent.start ≤ parent.stop := haddresses.2.2.1
  have hsuffix := haddresses.2.2.2.2
  obtain ⟨header, hcontent, _⟩ := hled
  apply suffix_eq_of_length (v := sub.content)
  · rw [hcontent]
    exact List.suffix_append _ _
  · rw [← slice_moved text hinside]
    exact hsuffix
  · rw [length_slice hsub, length_slice]
    rw [length_slice hstop]
    omega

/-- A parent whose children are all in place has no header: the children either
reach its end or agree with the text wherever the parent has ink. -/
theorem content_of_addressed {text : Text} {parent : TextChunk} (childCfg : SplitterConfig)
    (hstop : parent.stop ≤ text.length)
    (hcarries : Carries parent.content (slice text parent.start parent.stop))
    (haddresses : e.ChildrenAddress text childCfg parent) :
    parent.content = slice text parent.start parent.stop := by
  rcases hcarries with hsame | ⟨hlonger, hmore⟩
  · exact hsame
  · exfalso
    have hne : parent.content ≠ [] := by
      intro hnil
      rw [hnil] at hlonger
      cases hlonger
    obtain ⟨_, houtput⟩ := e.split_spec childCfg hne
    rcases houtput.whole with hcovers | hled
    · obtain ⟨sub, hsub, _, hend⟩ := exists_chunk_of_covers hcovers
        (Nat.sub_one_lt_of_lt hlonger) trivial
      have hinside : sub.stop + parent.start ≤ parent.stop := (haddresses sub hsub).2.2.1
      rw [length_slice hstop] at hlonger
      omega
    · have hagrees : forall i, Inked parent.content i ->
          parent.content[i]? = (slice text parent.start parent.stop)[i]? := by
        intro i hinked
        have hlt : i < parent.content.length := by
          obtain ⟨c, hc, _⟩ := hinked
          exact (List.getElem?_eq_some_iff.mp hc).1
        obtain ⟨sub, hsub, hlow, hhigh⟩ :=
          exists_chunk_of_covers houtput.chunked.covers hlt hinked
        have hslices := slice_eq_of_addresses hstop (houtput.chunked.range hsub).2
          (hled sub hsub) (haddresses sub hsub)
        rw [← getElem?_slice parent.content hlow hhigh, hslices,
          getElem?_slice _ hlow hhigh]
      exact absurd (ink_le_of_agrees hagrees) (Nat.not_le.mpr hmore)

/-- A header is injected when the tier that is accepted splits the text. -/
def injects (e : Engine) (text : Text) (cfg : SplitterConfig) : Bool :=
  match e.accepted text cfg with
  | (.heading, profile) => headingsInject e.patterns (e.ensureDefaults cfg) text profile
  | (.heuristic, _) => heuristicsInject e.patterns (e.ensureDefaults cfg) text
  | (.legacy, _) => splitInjects e.patterns (e.ensureDefaults cfg) text

/-- The tier that is accepted puts a chunk with an injected header behind others. -/
def joinsInjected (e : Engine) (text : Text) (cfg : SplitterConfig) : Bool :=
  match e.accepted text cfg with
  | (.heading, profile) => headingsJoin e.patterns (e.ensureDefaults cfg) text profile
  | _ => false

theorem split_plain_iff {text : Text} (cfg : SplitterConfig) (hne : text ≠ []) :
    (forall c, c ∈ e.split text cfg -> Plain c) <-> e.injects text cfg = false := by
  have hfull : text.isEmpty = false := by simpa using hne
  rw [e.split_eq cfg hne]
  unfold injects
  rcases e.accepted text cfg with ⟨_ | _ | _, profile⟩
  · exact splitByHeadings_plain_iff e.patterns _ profile hfull
  · exact splitByHeuristics_plain_iff e.patterns _ hfull
  · exact splitText_plain_iff e.patterns _ text

theorem led_split {text : Text} (cfg : SplitterConfig) (hne : text ≠ [])
    (hjoins : e.joinsInjected text cfg = false) : forall c, c ∈ e.split text cfg -> Led text c := by
  rw [e.split_eq cfg hne]
  unfold joinsInjected at hjoins
  rcases haccepted : e.accepted text cfg with ⟨_ | _ | _, profile⟩
  · rw [haccepted] at hjoins
    exact led_splitByHeadings e.patterns _ profile (by simpa using hne) hjoins
  · exact (emitted_splitByHeuristics e.patterns text _).led
  · exact (emitted_splitText e.patterns text _ _ _).led

/-- The children of a parent that is the text it addresses are in place when headers
are only put in front of their chunks. -/
theorem childrenAddress_of_led {text : Text} {parent : TextChunk} (childCfg : SplitterConfig)
    (hparent : parent.start ≤ parent.stop ∧ parent.stop ≤ text.length)
    (hcontent : parent.content = slice text parent.start parent.stop)
    (hled : e.joinsInjected parent.content childCfg = false) :
    e.ChildrenAddress text childCfg parent := by
  intro sub hsub
  have hfull : parent.content ≠ [] := by
    intro hnil
    rw [hnil] at hsub
    cases hsub
  have hrange := (e.split_spec childCfg hfull).2.chunked.range hsub
  have hlength := congrArg List.length hcontent
  rw [length_slice hparent.2] at hlength
  have hinside : sub.stop + parent.start ≤ parent.stop := by omega
  refine ⟨Nat.le_add_left _ _, Nat.add_le_add_right hrange.1 _, hinside,
    Nat.le_trans hinside hparent.2, ?_⟩
  show slice text (sub.start + parent.start) (sub.stop + parent.start) <:+ sub.content
  rw [slice_moved text hinside, ← hcontent]
  rcases e.led_split childCfg hfull hled sub hsub with ⟨header, hsame, _⟩
  rw [hsame]
  exact List.suffix_append _ _

/-- The children of the code are the pieces of its parents, moved.  They address the
document when no header is injected into a parent and none is put behind text
when chunks of a parent are joined; and only when none is injected into a parent. -/
theorem splitParentChild_addresses (e : Engine) (text : Text)
    (parentCfg childCfg : SplitterConfig) (hne : text ≠ []) :
    (e.splitParentChild text parentCfg childCfg).children.map (fun child => child.chunk.place) =
        (e.cutChildren text parentCfg childCfg).map (fun pair => pair.2.place) ∧
      (e.injects text parentCfg = false ->
        (forall parent, parent ∈ e.split text parentCfg ->
          e.joinsInjected parent.content childCfg = false) ->
        forall pair, pair ∈ e.cutChildren text parentCfg childCfg ->
          Addresses text pair.1 pair.2) ∧
      ((forall pair, pair ∈ e.cutChildren text parentCfg childCfg ->
          Addresses text pair.1 pair.2) ->
        e.injects text parentCfg = false) := by
  have houtput := (e.split_spec parentCfg hne).2.chunked
  rw [← e.split_plain_iff parentCfg hne]
  refine ⟨e.places_splitParentChild parentCfg childCfg hne, ?_, ?_⟩
  · intro hplain hjoins pair hpair
    rcases List.mem_flatMap.mp hpair with ⟨parent, hparent, hpair⟩
    rcases List.mem_map.mp hpair with ⟨sub, hsub, rfl⟩
    have hrange := houtput.range hparent
    have hcontent : parent.content = slice text parent.start parent.stop := by
      rcases houtput.carries parent hparent with hsame | ⟨hlonger, _⟩
      · exact hsame
      · rw [length_slice hrange.2, hplain parent hparent] at hlonger
        exact absurd hlonger (Nat.lt_irrefl _)
    exact e.childrenAddress_of_led childCfg hrange hcontent (hjoins parent hparent) sub hsub
  · intro haddresses parent hparent
    have hstop := (houtput.range hparent).2
    unfold Plain
    rw [e.content_of_addressed childCfg hstop (houtput.carries parent hparent), length_slice hstop]
    intro sub hsub
    exact haddresses (parent, sub.movedBy parent)
      (List.mem_flatMap.mpr ⟨parent, hparent, List.mem_map.mpr ⟨sub, hsub, rfl⟩⟩)

/-- The parent is the whole table; its children are in place, headers in front. -/
theorem whole_table_addressed :
    (tableEngine.cutChildren tableText (sizedConfig 100) (sizedConfig 14)).length = 3 ∧
      forall pair, pair ∈ tableEngine.cutChildren tableText (sizedConfig 100) (sizedConfig 14) ->
        Addresses tableText pair.1 pair.2 :=
  ⟨by decide +kernel,
    (splitParentChild_addresses tableEngine tableText (sizedConfig 100) (sizedConfig 14)
      (by decide)).2.1 (by decide +kernel) (by decide +kernel)⟩

/-- Parents of one row each carry the header of the table, and the child of the
last one is addressed behind the end of the text. -/
theorem children_leave_document :
    tableText.length = 18 ∧
      (exists child, child ∈ (tableEngine.splitParentChild tableText (sizedConfig 14)
          (sizedConfig 100)).children ∧ child.chunk.stop = 28) ∧
      ¬ forall pair,
        pair ∈ tableEngine.cutChildren tableText (sizedConfig 14) (sizedConfig 100) ->
          Addresses tableText pair.1 pair.2 := by
  refine ⟨by decide, by decide +kernel, ?_⟩
  intro haddresses
  have hlast : exists pair,
      pair ∈ tableEngine.cutChildren tableText (sizedConfig 14) (sizedConfig 100) ∧
        tableText.length < pair.2.stop := by
    decide +kernel
  rcases hlast with ⟨pair, hmem, hbehind⟩
  exact absurd (haddresses pair hmem).2.2.2.1 (Nat.not_le.mpr hbehind)

end Engine

end Chunker
end KnowledgeBrain
