import KnowledgeBrain.DocReader.Xml
import KnowledgeBrain.Foundation.Nesting

/-!
# Field regions

A field reaches from its begin mark to its end mark, over any number of
children of a story.  The region of a child is read off the innermost field
that is open where the child starts and off the marks within it.
-/

namespace KnowledgeBrain
namespace DocReader

open Foundation
open Chunker (Text)

/-!
# Regions
-/

/-- `_outside_toc_text`. -/
def outsideTocText (child : Element) (above : List Tag) (initialDepth : Nat) : Bool :=
  ((child.iterWithin above).foldl (fun state entry =>
    let kind := entry.1.get (w "fldCharType")
    let depth :=
      if entry.1.tag = w "fldChar" ∧ kind = some "begin".toList then state.1 + 1
      else if entry.1.tag = w "fldChar" ∧ kind = some "end".toList then state.1 - 1
      else state.1
    (depth, state.2 || (entry.1.tag == w "t" && strip entry.1.text != [] && depth == 0 &&
      !entry.2.contains (w "fldSimple")))) (initialDepth, false)).2

section Region

variable (runtime : Runtime)

def startsToc (t : Text) : Bool :=
  "TOC".toList.isPrefixOf (runtime.upper (strip t))

/-- One node of `_field_region`, on the region and the open regions, the innermost first. -/
def fieldNode (state : Option String × List String) (node : Element) :
    Option String × List String :=
  if node.tag = w "fldChar" then
    let kind := (node.get (w "fldCharType")).getD []
    if kind = "begin".toList then (some (state.1.getD "field"), "field" :: state.2)
    else if kind = "end".toList then
      match state.2 with
      | innermost :: outer => (some (state.1.getD innermost), outer)
      | [] => state
    else state
  else if node.tag = w "instrText" then
    if startsToc runtime node.text = true then (some "toc", match state.2 with
      | _ :: outer => "toc" :: outer
      | [] => [])
    else state
  else if node.tag = w "fldSimple" then
    if startsToc runtime ((node.get (w "instr")).getD []) = true then (some "toc", state.2)
    else (some (state.1.getD "field"), state.2)
  else state

/-- `_field_region`: the region of a carrier, and the regions that stay open. -/
def fieldRegion (child : Element) (open_ : List String) : Option String × List String :=
  child.iter.foldl (fieldNode runtime) (open_.head?, open_)

end Region

section

/-!
# Fields of a story
-/

/-- The elements of the children of a story, in document order, with the tags above each. -/
def storyNodes (above : List Tag) (children : List Element) : List (Element × List Tag) :=
  children.flatMap (Element.iterWithin above)

/-- What an element opens or closes. -/
def bracketOf (node : Element) : Bracket :=
  if node.tag = w "fldChar" then
    if node.get (w "fldCharType") = some "begin".toList then .opening
    else if node.get (w "fldCharType") = some "end".toList then .closing
    else .neutral
  else .neutral

def isInstruction (node : Element) : Bool :=
  node.tag == w "instrText"

/-- A begin mark, an end mark or an instruction. -/
def isFieldMark (node : Element) : Bool :=
  bracketOf node != .neutral || isInstruction node

/-- The instruction that is the next mark after a place. -/
structure InstructionOf (nodes : List Element) (b m : Nat) : Prop where
  lt : b < m
  instruction : (nodes[m]?.any isInstruction) = true
  next : ((slice nodes (b + 1) m).any isFieldMark) = false

/-- Each begin mark is directly followed by the one instruction of its field. -/
structure Instructed (nodes : List Element) : Prop where
  each : forall b, (nodes.map bracketOf)[b]? = some .opening -> exists m, InstructionOf nodes b m
  only : forall m, (nodes[m]?.any isInstruction) = true -> exists b,
    (nodes.map bracketOf)[b]? = some .opening ∧ InstructionOf nodes b m

variable (runtime : Runtime)

def isTocInstruction (node : Element) : Bool :=
  isInstruction node && startsToc runtime node.text

/-- `fldSimple` with the instruction of a table of contents. -/
def isTocSimple (node : Element) : Bool :=
  node.tag == w "fldSimple" && startsToc runtime ((node.get (w "instr")).getD [])

/-- The instruction of a table of contents stands among the first elements. -/
def TocBefore (nodes : List Element) (n b : Nat) : Prop :=
  exists m, m < n ∧ InstructionOf nodes b m ∧ (nodes[m]?.any (isTocInstruction runtime)) = true

/-- A field of a table of contents. -/
def TocField (nodes : List Element) (b e : Nat) : Prop :=
  Matched (nodes.map bracketOf) b e ∧ TocBefore runtime nodes nodes.length b

/-- A child that stands behind some children of the story. -/
structure Segment where
  above : List Tag
  before : List Element
  child : Element
  after : List Element

namespace Segment

variable (s : Segment)

def children : List Element :=
  s.before ++ s.child :: s.after

def nodes : List Element :=
  (storyNodes s.above s.children).map Prod.fst

def start : Nat :=
  (storyNodes s.above s.before).length

def stop : Nat :=
  s.start + (s.child.iterWithin s.above).length

/-- The child overlaps a field, or holds a simple one. -/
def OverlapsField : Prop :=
  (exists b e, Matched (s.nodes.map bracketOf) b e ∧ b < s.stop ∧ s.start ≤ e) ∨
    exists node, node ∈ s.child.iter ∧ node.tag = w "fldSimple"

/-- The child overlaps a field of a table of contents, or holds a simple one. -/
def OverlapsToc : Prop :=
  (exists b e, TocField runtime s.nodes b e ∧ b < s.stop ∧ s.start ≤ e) ∨
    exists node, node ∈ s.child.iter ∧ isTocSimple runtime node = true

/-- The innermost field that is open where the child starts. -/
structure Innermost (b e : Nat) : Prop where
  matched : Matched (s.nodes.map bracketOf) b e
  opened : b < s.start
  closed : s.start ≤ e
  last : forall b' e', Matched (s.nodes.map bracketOf) b' e' -> b' < s.start -> s.start ≤ e' ->
    b' ≤ b

/-- A table of contents shows within the child, or as the innermost field where it starts. -/
def ShowsToc : Prop :=
  (exists node, node ∈ s.child.iter ∧
    (isTocInstruction runtime node || isTocSimple runtime node) = true) ∨
      exists b e, s.Innermost b e ∧ TocBefore runtime s.nodes s.start b

/-- Text of the child stands outside every field. -/
def TextOutside : Prop :=
  exists p node tags, (s.child.iterWithin s.above)[p]? = some (node, tags) ∧ node.tag = w "t" ∧
    strip node.text ≠ [] ∧ w "fldSimple" ∉ tags ∧
    ¬ exists b e, Matched (s.nodes.map bracketOf) b e ∧ b < s.start + p ∧ s.start + p < e

end Segment

/-- The shared stack after some children. -/
def openFields (before : List Element) : List String :=
  before.foldl (fun stack child => (fieldRegion runtime child stack).2) []

/-- The region of a child says what it overlaps. -/
structure Classified (s : Segment) (region : Option String) : Prop where
  toc : region = some "toc" <-> s.OverlapsToc runtime
  field : region = some "field" <-> ¬ s.OverlapsToc runtime ∧ s.OverlapsField
  none : region = none <-> ¬ s.OverlapsToc runtime ∧ ¬ s.OverlapsField

/-!
# Elements
-/

mutual

theorem map_iterWithin (above above' : List Tag) (e : Element) :
    (e.iterWithin above).map Prod.fst = (e.iterWithin above').map Prod.fst := by
  cases e with
  | node tag attributes text children =>
      simp only [Element.iterWithin, List.map_cons]
      rw [map_iterAllWithin (tag :: above) (tag :: above') children]

theorem map_iterAllWithin (above above' : List Tag) (es : List Element) :
    (Element.iterAllWithin above es).map Prod.fst =
      (Element.iterAllWithin above' es).map Prod.fst := by
  cases es with
  | nil =>
      rfl
  | cons e rest =>
      simp only [Element.iterAllWithin, List.map_append]
      rw [map_iterWithin above above' e, map_iterAllWithin above above' rest]

end

theorem map_storyNodes (above : List Tag) (children : List Element) :
    (storyNodes above children).map Prod.fst = children.flatMap Element.iter := by
  unfold storyNodes Element.iter
  rw [List.map_flatMap]
  congr 1
  funext child
  exact map_iterWithin above [] child

namespace Segment

variable {s : Segment}

theorem nodes_eq (s : Segment) :
    s.nodes = s.before.flatMap Element.iter ++ (s.child.iter ++ s.after.flatMap Element.iter) := by
  unfold nodes children
  rw [map_storyNodes, List.flatMap_append, List.flatMap_cons]

theorem start_eq (s : Segment) : s.start = (s.before.flatMap Element.iter).length := by
  unfold start
  rw [← map_storyNodes s.above, List.length_map]

theorem stop_eq (s : Segment) : s.stop = s.start + s.child.iter.length := by
  unfold stop Element.iter
  rw [List.length_map, ← List.length_map (f := Prod.fst), map_iterWithin s.above [],
    List.length_map]

theorem getElem?_nodes {p : Nat} (hp : p < s.child.iter.length) :
    s.nodes[s.start + p]? = s.child.iter[p]? := by
  rw [nodes_eq, start_eq, List.getElem?_append_right (Nat.le_add_right _ _),
    Nat.add_sub_cancel_left, List.getElem?_append_left hp]

theorem mem_iter_iff {node : Element} :
    node ∈ s.child.iter <->
      exists n, s.start ≤ n ∧ n < s.stop ∧ s.nodes[n]? = some node := by
  rw [List.mem_iff_getElem?, stop_eq]
  constructor
  · rintro ⟨p, hp⟩
    have hlt := (List.getElem?_eq_some_iff.mp hp).1
    exact ⟨s.start + p, by omega, by omega, (getElem?_nodes hlt).trans hp⟩
  · rintro ⟨n, hstart, hstop, hn⟩
    refine ⟨n - s.start, ?_⟩
    rw [← getElem?_nodes (by omega), Nat.add_sub_cancel' hstart]
    exact hn

end Segment

end

/-!
# The stack of open fields

The shared stack has one label for every field that is open, and the label of
a field becomes that of a table of contents at its instruction.
-/

variable {runtime : Runtime}

/-!
## One element
-/

/-- What an element is for `_field_region`. -/
inductive NodeCase (runtime : Runtime) (node : Element) : Prop where
  | opening (bracket : bracketOf node = .opening) (simple : node.tag ≠ w "fldSimple")
      (toc : (isTocInstruction runtime node || isTocSimple runtime node) = false)
      (step : forall state : Option String × List String, fieldNode runtime state node =
        (some (state.1.getD "field"), "field" :: state.2))
  | closing (bracket : bracketOf node = .closing) (simple : node.tag ≠ w "fldSimple")
      (toc : (isTocInstruction runtime node || isTocSimple runtime node) = false)
      (empty : forall region : Option String, fieldNode runtime (region, []) node = (region, []))
      (step : forall (region : Option String) (innermost : String) (outer : List String),
        fieldNode runtime (region, innermost :: outer) node =
          (some (region.getD innermost), outer))
  | instruction (bracket : bracketOf node = .neutral)
      (toc : isTocInstruction runtime node = true)
      (empty : forall region : Option String,
        fieldNode runtime (region, []) node = (some "toc", []))
      (step : forall (region : Option String) (innermost : String) (outer : List String),
        fieldNode runtime (region, innermost :: outer) node = (some "toc", "toc" :: outer))
  | tocSimple (bracket : bracketOf node = .neutral) (simple : node.tag = w "fldSimple")
      (instruction : isTocInstruction runtime node = false)
      (toc : isTocSimple runtime node = true)
      (step : forall state : Option String × List String, fieldNode runtime state node =
        (some "toc", state.2))
  | simple (bracket : bracketOf node = .neutral) (simple : node.tag = w "fldSimple")
      (toc : (isTocInstruction runtime node || isTocSimple runtime node) = false)
      (step : forall state : Option String × List String, fieldNode runtime state node =
        (some (state.1.getD "field"), state.2))
  | other (bracket : bracketOf node = .neutral) (simple : node.tag ≠ w "fldSimple")
      (toc : (isTocInstruction runtime node || isTocSimple runtime node) = false)
      (step : forall state : Option String × List String, fieldNode runtime state node = state)

theorem nodeCase (runtime : Runtime) (node : Element) : NodeCase runtime node := by
  have hsimpleChar : w "fldSimple" ≠ w "fldChar" := by decide
  have hinstrChar : w "instrText" ≠ w "fldChar" := by decide
  have hsimpleInstr : w "fldSimple" ≠ w "instrText" := by decide
  by_cases hchar : node.tag = w "fldChar"
  · have hnotSimple : node.tag ≠ w "fldSimple" := by
      rw [hchar]
      exact hsimpleChar.symm
    have hnotToc : (isTocInstruction runtime node || isTocSimple runtime node) = false := by
      simp [isTocInstruction, isTocSimple, isInstruction, hchar, hinstrChar.symm, hsimpleChar.symm]
    by_cases hbegin : node.get (w "fldCharType") = some "begin".toList
    · apply NodeCase.opening _ hnotSimple hnotToc
      · intro state
        simp [fieldNode, hchar, hbegin]
      · simp [bracketOf, hchar, hbegin]
    · by_cases hend : node.get (w "fldCharType") = some "end".toList
      · apply NodeCase.closing _ hnotSimple hnotToc
        · intro region
          simp [fieldNode, hchar, hend]
        · intro region innermost outer
          simp [fieldNode, hchar, hend]
        · simp [bracketOf, hchar, hend]
      · apply NodeCase.other _ hnotSimple hnotToc
        · intro state
          cases hkind : node.get (w "fldCharType") with
          | none =>
              simp [fieldNode, hchar, hkind]
          | some kind =>
              rw [hkind] at hbegin hend
              have hbegin' : kind ≠ "begin".toList := fun h => hbegin (congrArg some h)
              have hend' : kind ≠ "end".toList := fun h => hend (congrArg some h)
              simp only [fieldNode, if_pos hchar, hkind, Option.getD_some, if_neg hbegin',
                if_neg hend']
        · rw [bracketOf, if_pos hchar, if_neg hbegin, if_neg hend]
  · have hneutral : bracketOf node = .neutral := if_neg hchar
    by_cases hinstr : node.tag = w "instrText"
    · have hnotSimple : node.tag ≠ w "fldSimple" := by
        rw [hinstr]
        exact hsimpleInstr.symm
      by_cases htoc : startsToc runtime node.text = true
      · apply NodeCase.instruction hneutral
        · simp [isTocInstruction, isInstruction, hinstr, htoc]
        · intro region
          simp [fieldNode, hinstr, hinstrChar, htoc]
        · intro region innermost outer
          simp [fieldNode, hinstr, hinstrChar, htoc]
      · apply NodeCase.other hneutral hnotSimple
        · simp [isTocInstruction, isTocSimple, hnotSimple, htoc]
        · intro state
          simp [fieldNode, hinstr, hinstrChar, htoc]
    · by_cases hsimple : node.tag = w "fldSimple"
      · by_cases htoc : startsToc runtime ((node.get (w "instr")).getD []) = true
        · apply NodeCase.tocSimple hneutral hsimple
          · simp [isTocInstruction, isInstruction, hinstr]
          · simp [isTocSimple, hsimple, htoc]
          · intro state
            simp [fieldNode, hsimple, hsimpleChar, hsimpleInstr, htoc]
        · apply NodeCase.simple hneutral hsimple
          · simp [isTocInstruction, isInstruction, isTocSimple, hinstr, htoc]
          · intro state
            simp [fieldNode, hsimple, hsimpleChar, hsimpleInstr, htoc]
      · apply NodeCase.other hneutral hsimple
        · simp [isTocInstruction, isInstruction, isTocSimple, hinstr, hsimple]
        · intro state
          simp [fieldNode, hchar, hinstr, hsimple]

/-!
## The region of a child
-/

/-- Without a region no field is open. -/
def NoneOpen (state : Option String × List String) : Prop :=
  state.1 = none -> state.2 = []

/-- What the region becomes at an element. -/
def nextRegion (runtime : Runtime) (region : Option String) (node : Element) : Option String :=
  if (isTocInstruction runtime node || isTocSimple runtime node) = true then some "toc"
  else if bracketOf node = .opening ∨ node.tag = w "fldSimple" then some (region.getD "field")
  else region

theorem fieldNode_fst {state : Option String × List String} (h : NoneOpen state)
    (node : Element) :
    (fieldNode runtime state node).1 = nextRegion runtime state.1 node ∧
      NoneOpen (fieldNode runtime state node) := by
  rcases state with ⟨region, stack⟩
  unfold nextRegion
  rcases nodeCase runtime node with ⟨hbracket, hsimple, htoc, hstep⟩ |
    ⟨hbracket, hsimple, htoc, hempty, hstep⟩ | ⟨hbracket, htoc, hempty, hstep⟩ |
    ⟨hbracket, hsimple, hinstr, htoc, hstep⟩ | ⟨hbracket, hsimple, htoc, hstep⟩ |
    ⟨hbracket, hsimple, htoc, hstep⟩
  · rw [hstep]
    simp [htoc, hbracket, NoneOpen]
  · cases stack with
    | nil =>
        rw [hempty]
        simp [htoc, hbracket, hsimple, NoneOpen]
    | cons innermost outer =>
        cases region with
        | none =>
            cases h rfl
        | some region =>
            rw [hstep]
            simp [htoc, hbracket, hsimple, NoneOpen]
  · cases stack with
    | nil =>
        rw [hempty]
        simp [htoc, NoneOpen]
    | cons innermost outer =>
        rw [hstep]
        simp [htoc, NoneOpen]
  · rw [hstep]
    simp [htoc, NoneOpen]
  · rw [hstep]
    simp [htoc, hsimple, NoneOpen]
  · rw [hstep]
    simp only [htoc, Bool.false_eq_true, if_false, hbracket, hsimple]
    exact ⟨by simp, h⟩

theorem fieldNodes_fst (nodes : List Element) {state : Option String × List String}
    (h : NoneOpen state) :
    (nodes.foldl (fieldNode runtime) state).1 = nodes.foldl (nextRegion runtime) state.1 := by
  induction nodes generalizing state with
  | nil =>
      rfl
  | cons node rest ih =>
      rcases @fieldNode_fst runtime state h node with ⟨hregion, hnone⟩
      rw [List.foldl_cons, List.foldl_cons, ih hnone, hregion]

theorem nextRegions_eq (nodes : List Element) (region : Option String) :
    nodes.foldl (nextRegion runtime) region =
      if (nodes.any fun node => isTocInstruction runtime node || isTocSimple runtime node) = true
        then some "toc"
      else if (nodes.any fun node => bracketOf node == .opening || node.tag == w "fldSimple") = true
        then some (region.getD "field")
      else region := by
  induction nodes generalizing region with
  | nil =>
      rfl
  | cons node rest ih =>
      rw [List.foldl_cons, ih, List.any_cons, List.any_cons]
      unfold nextRegion
      by_cases htoc : (isTocInstruction runtime node || isTocSimple runtime node) = true
      · simp [htoc]
      · simp only [Bool.not_eq_true] at htoc
        simp only [htoc, Bool.false_eq_true, if_false, Bool.false_or]
        by_cases hopens : bracketOf node = .opening ∨ node.tag = w "fldSimple"
        · have hopens' : (bracketOf node == .opening || node.tag == w "fldSimple") = true := by
            simpa using hopens
          rw [if_pos hopens, hopens', Bool.true_or]
          simp
        · have hopens' : (bracketOf node == .opening || node.tag == w "fldSimple") = false := by
            simpa [not_or] using hopens
          rw [if_neg hopens, hopens', Bool.false_or]

theorem noneOpen_head (stack : List String) : NoneOpen (stack.head?, stack) :=
  List.head?_eq_none_iff.mp

theorem fieldRegion_fst (child : Element) (stack : List String) :
    (fieldRegion runtime child stack).1 =
      if (child.iter.any fun node => isTocInstruction runtime node || isTocSimple runtime node)
        = true then some "toc"
      else if (child.iter.any fun node => bracketOf node == .opening || node.tag == w "fldSimple")
        = true then some (stack.head?.getD "field")
      else stack.head? := by
  unfold fieldRegion
  rw [fieldNodes_fst child.iter (noneOpen_head stack)]
  exact nextRegions_eq child.iter stack.head?

/-!
## Labels
-/

section Labels

variable {nodes : List Element} {n : Nat} {stack : List String}

/-- The label of an open field. -/
def LabelOf (runtime : Runtime) (nodes : List Element) (n : Nat) (label : String) (b : Nat) :
    Prop :=
  (label = "toc" ∧ TocBefore runtime nodes n b) ∨ (label = "field" ∧ ¬ TocBefore runtime nodes n b)

def Labelled (runtime : Runtime) (nodes : List Element) (n : Nat) (stack : List String) : Prop :=
  List.Forall₂ (LabelOf runtime nodes n) stack (openAt (nodes.map bracketOf) n)

variable {node : Element}

theorem InstructionOf.not_mark {b m : Nat} (h : InstructionOf nodes b m) {k : Nat} (hb : b < k)
    (hm : k < m) (hnode : nodes[k]? = some node) : isFieldMark node = false := by
  have hmem : node ∈ slice nodes (b + 1) m := by
    rw [slice_eq_take_drop]
    apply List.mem_iff_getElem?.mpr
    refine ⟨k - (b + 1), ?_⟩
    rw [List.getElem?_take, if_pos (by omega), List.getElem?_drop,
      show b + 1 + (k - (b + 1)) = k by omega]
    exact hnode
  have hall := List.any_eq_false.mp h.next node hmem
  simpa using hall

theorem isFieldMark_of_bracket (h : bracketOf node ≠ .neutral) :
    isFieldMark node = true := by
  simp [isFieldMark, h]

theorem InstructionOf.unique {b b' m : Nat} (h : InstructionOf nodes b m)
    (h' : InstructionOf nodes b' m) (hb : (nodes.map bracketOf)[b]? = some .opening)
    (hb' : (nodes.map bracketOf)[b']? = some .opening) : b = b' := by
  have hle : forall {c c' : Nat}, InstructionOf nodes c m -> InstructionOf nodes c' m ->
      (nodes.map bracketOf)[c']? = some .opening -> c' ≤ c := by
    intro c c' hc hc' hopening
    by_contra hless
    rw [List.getElem?_map] at hopening
    rcases Option.map_eq_some_iff.mp hopening with ⟨node, hnode, hbracket⟩
    have hnot := hc.not_mark (by omega) hc'.lt hnode
    rw [isFieldMark_of_bracket (by rw [hbracket]; decide)] at hnot
    cases hnot
  exact Nat.le_antisymm (hle h' h hb) (hle h h' hb')

theorem getElem?_bracket (hnode : nodes[n]? = some node) :
    (nodes.map bracketOf)[n]? = some (bracketOf node) := by
  rw [List.getElem?_map, hnode]
  rfl

theorem tocBefore_succ (hnode : nodes[n]? = some node)
    (hnot : isTocInstruction runtime node = false) (b : Nat) :
    TocBefore runtime nodes (n + 1) b <-> TocBefore runtime nodes n b := by
  constructor
  · rintro ⟨m, hm, hinstruction, htoc⟩
    refine ⟨m, ?_, hinstruction, htoc⟩
    by_contra hlast
    rw [show m = n by omega, hnode, Option.any_some, hnot] at htoc
    cases htoc
  · rintro ⟨m, hm, hrest⟩
    exact ⟨m, Nat.lt_succ_of_lt hm, hrest⟩

theorem labelOf_succ (hnode : nodes[n]? = some node)
    (hnot : isTocInstruction runtime node = false) (label : String) (b : Nat) :
    LabelOf runtime nodes n label b -> LabelOf runtime nodes (n + 1) label b := by
  unfold LabelOf
  rw [tocBefore_succ hnode hnot]
  exact id

/-- The begin mark of an instruction is that of the innermost open field. -/
theorem head_openAt_of_instruction {b : Nat} (h : InstructionOf nodes b n)
    (hb : (nodes.map bracketOf)[b]? = some .opening) :
    exists outer, openAt (nodes.map bracketOf) n = b :: outer := by
  have hbetween : forall k, b < k -> k ≤ n ->
      openAt (nodes.map bracketOf) k = b :: openAt (nodes.map bracketOf) b := by
    intro k hk hkn
    induction k with
    | zero =>
        cases hk
    | succ k ih =>
        by_cases hfirst : b = k
        · rw [← hfirst]
          exact openAt_opening hb
        · have hnot : forall bracket, bracket ≠ .neutral ->
              (nodes.map bracketOf)[k]? ≠ some bracket := by
            intro bracket hbracket hk'
            rw [List.getElem?_map] at hk'
            rcases Option.map_eq_some_iff.mp hk' with ⟨node, hnode, rfl⟩
            have hmark := h.not_mark (by omega) (by omega) hnode
            rw [isFieldMark_of_bracket hbracket] at hmark
            cases hmark
          rw [openAt_other (hnot _ (by decide)) (hnot _ (by decide))]
          exact ih (by omega) (by omega)
  exact ⟨_, hbetween n h.lt (Nat.le_refl n)⟩

theorem forall₂_imp_of_mem {A B : Type} {R S : A -> B -> Prop} {as : List A} {bs : List B}
    (h : List.Forall₂ R as bs) (hstep : forall a b, b ∈ bs -> R a b -> S a b) :
    List.Forall₂ S as bs := by
  induction h with
  | nil =>
      exact .nil
  | cons hfirst _ ih =>
      exact .cons (hstep _ _ List.mem_cons_self hfirst)
        (ih fun a b hmem => hstep a b (List.mem_cons_of_mem _ hmem))

theorem labelled_step (hinstructed : Instructed nodes) (hnode : nodes[n]? = some node)
    (region : Option String) (h : Labelled runtime nodes n stack) :
    Labelled runtime nodes (n + 1) (fieldNode runtime (region, stack) node).2 := by
  have hbracket := getElem?_bracket hnode
  unfold Labelled at h ⊢
  rcases nodeCase runtime node with ⟨hopening, hsimple, htoc, hstep⟩ |
    ⟨hclosing, hsimple, htoc, hempty, hstep⟩ | ⟨hneutral, htoc, hempty, hstep⟩ |
    ⟨hneutral, hsimple, htoc, _, hstep⟩ | ⟨hneutral, hsimple, htoc, hstep⟩ |
    ⟨hneutral, hsimple, htoc, hstep⟩
  · have hkeep := labelOf_succ hnode (Bool.or_eq_false_iff.mp htoc).1
    rw [hopening] at hbracket
    rw [hstep, openAt_opening hbracket]
    refine .cons (Or.inr ⟨rfl, ?_⟩) (h.imp hkeep)
    rintro ⟨m, hm, hinstruction, _⟩
    have hless := hinstruction.lt
    omega
  · have hkeep := labelOf_succ hnode (Bool.or_eq_false_iff.mp htoc).1
    rw [hclosing] at hbracket
    rw [openAt_closing hbracket]
    generalize openAt (nodes.map bracketOf) n = opened at h
    cases h with
    | nil =>
        rw [hempty]
        exact .nil
    | cons _ hrest =>
        rw [hstep]
        exact hrest.imp hkeep
  · -- the label of the innermost open field becomes that of a table of contents
    rw [hneutral] at hbracket
    have hinstruction : isInstruction node = true := (Bool.and_eq_true_iff.mp htoc).1
    rcases hinstructed.only n (by rw [hnode]; exact hinstruction) with ⟨b, hb, hfollows⟩
    rcases head_openAt_of_instruction hfollows hb with ⟨outer, houter⟩
    rw [openAt_other (by rw [hbracket]; decide) (by rw [hbracket]; decide)]
    have hopened : forall b', b' ∈ openAt (nodes.map bracketOf) n ->
        (nodes.map bracketOf)[b']? = some .opening := fun b' => opening_of_mem_openAt
    have hsorted := pairwise_openAt (nodes.map bracketOf) n
    rw [houter] at h hopened hsorted ⊢
    cases h with
    | cons _ hrest =>
        rw [hstep]
        refine .cons (Or.inl ⟨rfl, n, Nat.lt_succ_self n, hfollows, by rw [hnode]; exact htoc⟩) ?_
        apply forall₂_imp_of_mem hrest
        intro label b' hmem hlabel
        have hother : TocBefore runtime nodes (n + 1) b' <-> TocBefore runtime nodes n b' := by
          constructor
          · rintro ⟨m, hm, hm', htoc'⟩
            refine ⟨m, ?_, hm', htoc'⟩
            by_contra hlast
            have hlastEq : m = n := by omega
            rw [hlastEq] at hm'
            have hsame := hm'.unique hfollows (hopened b' (List.mem_cons_of_mem b hmem)) hb
            have hless := (List.pairwise_cons.mp hsorted).1 b' hmem
            omega
          · rintro ⟨m, hm, hrest⟩
            exact ⟨m, Nat.lt_succ_of_lt hm, hrest⟩
        unfold LabelOf at hlabel ⊢
        rw [hother]
        exact hlabel
  all_goals
    rw [hneutral] at hbracket
    rw [hstep, openAt_other (by rw [hbracket]; decide) (by rw [hbracket]; decide)]
  · exact h.imp (labelOf_succ hnode htoc)
  · exact h.imp (labelOf_succ hnode (Bool.or_eq_false_iff.mp htoc).1)
  · exact h.imp (labelOf_succ hnode (Bool.or_eq_false_iff.mp htoc).1)

end Labels

end DocReader
end KnowledgeBrain
