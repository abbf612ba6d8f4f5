import KnowledgeBrain.Foundation.Searching
import KnowledgeBrain.DocReader.Acceptance

/-!
# Rewriting the text under its spans

The host replaces image references in the text that the spans address.  It moves
every offset by what the occurrences before it gain or lose, and stops before it
changes anything where an occurrence lies across an end of a span.
-/

namespace KnowledgeBrain
namespace DocReader

open Foundation
open Chunker (Text byteLen byteSlice)

/-!
# The rewriting
-/

/-- `str::replace`; an empty pattern occurs before every character and at the end. -/
def replaceText (old new t : Text) : Text :=
  if old = [] then new ++ t.flatMap (fun c => c :: new) else replaceFrom old new 0 t

/-- `str::match_indices` for a pattern that is not empty: `skip` characters still
belong to the last occurrence. -/
def matchIndices (old : Text) : Nat -> Nat -> Text -> List Nat
  | _, _, [] => []
  | offset, skip + 1, c :: t => matchIndices old (offset + c.utf8Size) skip t
  | offset, 0, c :: t =>
      if old.isPrefixOf (c :: t) then
        offset :: matchIndices old (offset + c.utf8Size) (old.length - 1) t
      else matchIndices old (offset + c.utf8Size) 0 t

/-- `usize::try_from`. -/
def usizeTryFrom (n : Int) : Except String Nat :=
  if 0 ≤ n ∧ n.toNat < 2 ^ 64 then .ok n.toNat else .error (invalid "rendered span overflow")

/-- What one occurrence adds to the adjustment of an offset. -/
def adjustAt (old new : Text) (offset : Nat) (adjustment : Int) (start : Nat) :
    Except String Int := do
  let stop := start + byteLen old
  reject (start < offset ∧ offset < stop)
    (invalid "image replacement cuts a rendered span boundary")
  return if stop ≤ offset then adjustment + ((byteLen new : Int) - byteLen old) else adjustment

def shift (old new : Text) (starts : List Nat) (offset : Nat) : Except String Nat := do
  let adjustment <- starts.foldlM (adjustAt old new offset) 0
  usizeTryFrom (offset + adjustment)

def shiftSpan (old new : Text) (starts : List Nat) (span : RenderedSpan) :
    Except String RenderedSpan := do
  let startByte <- shift old new starts span.startByte
  let endByte <- shift old new starts span.endByte
  return ⟨startByte, endByte⟩

def shiftUnit (old new : Text) (starts : List Nat) (unit : SourceUnitIdentity) :
    Except String SourceUnitIdentity := do
  let renderedSpans <- unit.renderedSpans.mapM (shiftSpan old new starts)
  return { unit with renderedSpans := renderedSpans }

/-- `SourceContract::replace_rendered`: how it ends, and the text and the contract after it. -/
def replaceRendered (sha256 : Sha256) (old new : Text) (markdown : Text)
    (contract : SourceContract) : Except String Unit × Text × SourceContract :=
  if old = [] ∨ old = new then (.ok (), markdown, contract)
  else
    let starts := matchIndices old 0 0 markdown
    if starts = [] then (.ok (), markdown, contract)
    else
      match contract.units.mapM (shiftUnit old new starts) with
      | .error e => (.error e, markdown, contract)
      | .ok updated =>
          let markdown := replaceText old new markdown
          (.ok (), markdown,
            { contract with
              units := updated
              markdownSha256 := sha256.hex (encode markdown) })

/-!
# Occurrences
-/

/-- Where the occurrences start. -/
def foundAt (old : Text) : Nat -> List (Token Char) -> List Nat
  | _, [] => []
  | offset, .kept c :: tokens => foundAt old (offset + c.utf8Size) tokens
  | offset, .found :: tokens => offset :: foundAt old (offset + byteLen old) tokens

theorem matchIndices_skip (old xs rest : Text) (offset : Nat) :
    matchIndices old offset xs.length (xs ++ rest) =
      matchIndices old (offset + byteLen xs) 0 rest := by
  induction xs generalizing offset with
  | nil =>
      rfl
  | cons c xs ih =>
      rw [List.length_cons, List.cons_append, matchIndices, ih, Chunker.byteLen_cons,
        Nat.add_assoc]

theorem matchIndices_spell {old : Text} (hold : old ≠ []) {tokens : List (Token Char)}
    (h : Leftmost old tokens) (offset : Nat) :
    matchIndices old offset 0 (spell old tokens) = foundAt old offset tokens := by
  induction tokens generalizing offset with
  | nil =>
      rfl
  | cons token tokens ih =>
      cases token with
      | kept c =>
          have hnone : ¬ old.isPrefixOf (c :: spell old tokens) = true := by
            rw [List.isPrefixOf_iff_prefix]
            exact h.1
          rw [spell, matchIndices, if_neg hnone, ih h.2, foundAt]
      | found =>
          rcases List.exists_cons_of_ne_nil hold with ⟨c, behind, rfl⟩
          have hfits : (c :: behind).isPrefixOf (c :: (behind ++ spell (c :: behind) tokens)) =
              true := by
            rw [List.isPrefixOf_iff_prefix]
            exact List.prefix_append _ _
          rw [spell, List.cons_append, matchIndices, if_pos hfits, List.length_cons,
            Nat.add_sub_cancel, matchIndices_skip, ih h, foundAt, Chunker.byteLen_cons,
            Nat.add_assoc]

theorem foundAt_append (old : Text) (offset : Nat) (xs ys : List (Token Char)) :
    foundAt old offset (xs ++ ys) =
      foundAt old offset xs ++ foundAt old (offset + byteLen (spell old xs)) ys := by
  induction xs generalizing offset with
  | nil =>
      rfl
  | cons token xs ih =>
      cases token with
      | kept c =>
          rw [List.cons_append, foundAt, ih, foundAt, spell, Chunker.byteLen_cons, Nat.add_assoc]
      | found =>
          rw [List.cons_append, foundAt, ih, foundAt, spell, Chunker.byteLen_append,
            Nat.add_assoc, List.cons_append]

variable {offset : Nat}

theorem spell_of_foundAt {old : Text} {tokens : List (Token Char)}
    (hnone : foundAt old offset tokens = []) (new : Text) :
    spell new tokens = spell old tokens := by
  induction tokens generalizing offset with
  | nil =>
      rfl
  | cons token tokens ih =>
      cases token with
      | kept c =>
          rw [spell, spell, ih hnone]
      | found =>
          cases hnone

/-!
# Offsets between the occurrences
-/

theorem adjustAt_before {old new : Text} {offset start : Nat} (adjustment : Int)
    (h : start + byteLen old ≤ offset) :
    adjustAt old new offset adjustment start =
      .ok (adjustment + ((byteLen new : Int) - byteLen old)) := by
  unfold adjustAt
  rw [reject_bind (by omega), if_pos h]
  rfl

theorem adjustAt_behind {old new : Text} (hold : old ≠ []) {offset start : Nat} (adjustment : Int)
    (h : offset ≤ start) : adjustAt old new offset adjustment start = .ok adjustment := by
  have hpos := Chunker.byteLen_pos hold
  unfold adjustAt
  rw [reject_bind (by omega), if_neg (by omega)]
  rfl

/-- The occurrences before an offset change it by what they gain or lose. -/
theorem adjust_before (old new : Text) (place : Nat) (xs : List (Token Char))
    (h : place + byteLen (spell old xs) ≤ offset) (adjustment : Int) :
    (foundAt old place xs).foldlM (adjustAt old new offset) adjustment =
      .ok (adjustment + ((byteLen (spell new xs) : Int) - byteLen (spell old xs))) := by
  induction xs generalizing place adjustment with
  | nil =>
      show Except.ok adjustment = _
      simp [spell]
  | cons token xs ih =>
      cases token with
      | kept c =>
          rw [spell, Chunker.byteLen_cons] at h
          rw [foundAt, ih _ (by omega), spell, spell, Chunker.byteLen_cons, Chunker.byteLen_cons]
          congr 1
          omega
      | found =>
          rw [spell, Chunker.byteLen_append] at h
          rw [foundAt, List.foldlM_cons, ok_bind (adjustAt_before adjustment (by omega)),
            ih _ (by omega), spell, spell, Chunker.byteLen_append, Chunker.byteLen_append]
          congr 1
          omega

theorem adjust_behind {old : Text} (hold : old ≠ []) (new : Text) {offset place : Nat}
    (h : offset ≤ place) (ys : List (Token Char)) (adjustment : Int) :
    (foundAt old place ys).foldlM (adjustAt old new offset) adjustment = .ok adjustment := by
  induction ys generalizing place with
  | nil =>
      rfl
  | cons token ys ih =>
      cases token with
      | kept c =>
          rw [foundAt]
          exact ih (Nat.le_add_right_of_le h)
      | found =>
          rw [foundAt, List.foldlM_cons, ok_bind (adjustAt_behind hold adjustment h)]
          exact ih (Nat.le_add_right_of_le h)

theorem shift_between {old : Text} (hold : old ≠ []) (new : Text) (xs ys : List (Token Char)) :
    shift old new (foundAt old 0 (xs ++ ys)) (byteLen (spell old xs)) =
      usizeTryFrom (byteLen (spell new xs)) := by
  unfold shift
  have hbefore := adjust_before old new 0 xs (Nat.le_of_eq (Nat.zero_add _)) 0
  have hbehind := adjust_behind hold new (Nat.le_add_left (byteLen (spell old xs)) 0) ys
    (0 + ((byteLen (spell new xs) : Int) - byteLen (spell old xs)))
  rw [foundAt_append, List.foldlM_append, ok_bind hbefore, ok_bind hbehind]
  congr 1
  omega

/-- An occurrence that starts there lies across the offset. -/
def Cuts (old : Text) (offset start : Nat) : Prop :=
  start < offset ∧ offset < start + byteLen old

variable {starts : List Nat}

theorem adjust_eq_ok {old new : Text} {adjustment last : Int}
    (hrun : starts.foldlM (adjustAt old new offset) adjustment = .ok last) :
    forall start, start ∈ starts -> ¬ Cuts old offset start := by
  induction starts generalizing adjustment with
  | nil =>
      intro start hmem
      cases hmem
  | cons first rest ih =>
      rw [List.foldlM_cons] at hrun
      rcases bind_eq_ok hrun with ⟨next, hfirst, hrest⟩
      intro start hmem
      rcases List.mem_cons.mp hmem with rfl | hmem
      · exact (reject_bind_eq_ok hfirst).1
      · exact ih hrest start hmem

theorem shift_eq_ok {old new : Text} {offset moved : Nat}
    (hrun : shift old new starts offset = .ok moved) :
    forall start, start ∈ starts -> ¬ Cuts old offset start := by
  rcases bind_eq_ok hrun with ⟨adjustment, hadjust, _⟩
  exact adjust_eq_ok hadjust

theorem between_or_cut {old : Text} {tokens : List (Token Char)} {before after : Text}
    (h : spell old tokens = before ++ after) :
    (exists xs ys, tokens = xs ++ ys ∧ spell old xs = before ∧ spell old ys = after) ∨
      exists start, start ∈ foundAt old 0 tokens ∧ Cuts old (byteLen before) start := by
  rcases spell_split h with hbetween | ⟨xs, ys, cut, rest, rfl, hcut, hrest, rfl, hold⟩
  · exact Or.inl hbetween
  · right
    exists byteLen (spell old xs)
    have hcutPos := Chunker.byteLen_pos hcut
    have hrestPos := Chunker.byteLen_pos hrest
    constructor
    · rw [foundAt_append, Nat.zero_add, foundAt]
      exact List.mem_append_right _ List.mem_cons_self
    · have hlen : byteLen old = byteLen cut + byteLen rest := by
        rw [hold, Chunker.byteLen_append]
      unfold Cuts
      rw [Chunker.byteLen_append]
      omega

/-!
# Spans
-/

/-- The span addresses these tokens, and the new span the same in the new text. -/
structure Moved (old new : Text) (tokens : List (Token Char)) (text : Text)
    (span span' : RenderedSpan) (xs mid ys : List (Token Char)) : Prop where
  tokens_eq : tokens = xs ++ (mid ++ ys)
  text_eq : spell old mid = text
  start_eq : span.startByte = byteLen (spell old xs)
  end_eq : span.endByte = byteLen (spell old xs) + byteLen (spell old mid)
  start_eq' : span'.startByte = byteLen (spell new xs)
  end_eq' : span'.endByte = byteLen (spell new xs) + byteLen (spell new mid)

/-- Some occurrence lies across an end of the span. -/
def CutsSpan (old : Text) (starts : List Nat) (span : RenderedSpan) : Prop :=
  exists start, start ∈ starts ∧
    (Cuts old span.startByte start ∨ Cuts old span.endByte start)

/-- The offsets of the text fit `usize`. -/
def Addressable (t : Text) : Prop :=
  byteLen t < 2 ^ 64

theorem usizeTryFrom_ends {n : Nat} {t : Text} (hle : n ≤ byteLen t) :
    Ends (fun m => m = n) (fun _ => ¬ Addressable t) (usizeTryFrom n) := by
  unfold usizeTryFrom
  rw [Int.toNat_natCast]
  by_cases hfits : n < 2 ^ 64
  · rw [if_pos ⟨Int.natCast_nonneg n, hfits⟩]
    exact rfl
  · rw [if_neg fun h => hfits h.2]
    exact fun h => hfits (Nat.lt_of_le_of_lt hle h)

variable {span : RenderedSpan}

theorem shiftSpan_cut {old : Text} (new : Text) (hcut : CutsSpan old starts span) :
    exists e, shiftSpan old new starts span = .error e := by
  cases hrun : shiftSpan old new starts span with
  | error e =>
      exact ⟨e, rfl⟩
  | ok span' =>
      rcases hcut with ⟨start, hmem, hcut⟩
      rcases bind_eq_ok hrun with ⟨startByte, hstart, hrun⟩
      rcases bind_eq_ok hrun with ⟨endByte, hend, _⟩
      rcases hcut with hcut | hcut
      · exact absurd hcut (shift_eq_ok hstart start hmem)
      · exact absurd hcut (shift_eq_ok hend start hmem)

variable {text : Text}

theorem shiftSpan_ends {old : Text} (hold : old ≠ []) (new : Text) {tokens : List (Token Char)}
    (hspan : SpanOf (spell old tokens) span text) :
    Ends (fun span' => exists xs mid ys, Moved old new tokens text span span' xs mid ys)
      (fun _ => CutsSpan old (foundAt old 0 tokens) span ∨ ¬ Addressable (spell new tokens))
      (shiftSpan old new (foundAt old 0 tokens) span) := by
  rcases hspan with ⟨_, before, after, heq, hstart, hend⟩
  rw [← List.append_assoc] at heq
  rw [← Chunker.byteLen_append] at hend
  rcases between_or_cut heq with ⟨zs, ys, rfl, hzs, _⟩ | ⟨start, hmem, hcut⟩
  · rcases between_or_cut hzs with ⟨xs, mid, rfl, rfl, rfl⟩ | ⟨start, hmem, hcut⟩
    · have hmoved := shift_between hold new xs (mid ++ ys)
      have hmoved' := shift_between hold new (xs ++ mid) ys
      rw [← List.append_assoc] at hmoved
      rw [spell_append] at hmoved'
      have hfirst : byteLen (spell new xs) ≤ byteLen (spell new (xs ++ mid ++ ys)) := by
        rw [List.append_assoc, spell_append, Chunker.byteLen_append]
        exact Nat.le_add_right _ _
      have hlast : byteLen (spell new (xs ++ mid)) ≤ byteLen (spell new (xs ++ mid ++ ys)) := by
        rw [spell_append _ (xs ++ mid), Chunker.byteLen_append]
        exact Nat.le_add_right _ _
      unfold shiftSpan
      rw [hstart, hend, hmoved, hmoved']
      apply Ends.bind ((usizeTryFrom_ends hfirst).mono (fun _ h => h) fun _ h => Or.inr h)
      rintro startByte rfl
      apply Ends.bind ((usizeTryFrom_ends hlast).mono (fun _ h => h) fun _ h => Or.inr h)
      rintro endByte rfl
      apply Ends.ok
      refine ⟨xs, mid, ys, List.append_assoc _ _ _, rfl, hstart, ?_, rfl, ?_⟩
      · rw [hend, Chunker.byteLen_append]
      · rw [spell_append, Chunker.byteLen_append]
    · have hcuts : CutsSpan old (foundAt old 0 (zs ++ ys)) span := by
        refine ⟨start, ?_, Or.inl ?_⟩
        · rw [foundAt_append]
          exact List.mem_append_left _ hmem
        · rwa [hstart]
      rcases shiftSpan_cut new hcuts with ⟨e, he⟩
      rw [he]
      exact Ends.error (Or.inl hcuts)
  · have hcuts : CutsSpan old (foundAt old 0 tokens) span := by
      refine ⟨start, hmem, Or.inr ?_⟩
      rwa [hend]
    rcases shiftSpan_cut new hcuts with ⟨e, he⟩
    rw [he]
    exact Ends.error (Or.inl hcuts)

theorem isCharBoundary_split {t : Text} {n : Nat} (h : isCharBoundary t n = true) :
    exists before after, t = before ++ after ∧ byteLen before = n := by
  induction t generalizing n with
  | nil =>
      exact ⟨[], [], rfl, (beq_iff_eq.mp h).symm⟩
  | cons c t ih =>
      rw [isCharBoundary, Bool.or_eq_true, Bool.and_eq_true, decide_eq_true_eq, beq_iff_eq] at h
      rcases h with rfl | ⟨hle, hrest⟩
      · exact ⟨[], c :: t, rfl, rfl⟩
      · rcases ih hrest with ⟨before, after, rfl, hlen⟩
        refine ⟨c :: before, after, rfl, ?_⟩
        rw [Chunker.byteLen_cons, hlen]
        omega

/-- A span that passes the check addresses its slice. -/
theorem checkSpan_spanOf {content : Text} {priorEnd last : Nat}
    (hcheck : checkSpan content priorEnd span = .ok last) :
    SpanOf content span (byteSlice content span.startByte span.endByte) ∧
      priorEnd ≤ span.startByte ∧ last = span.endByte := by
  rcases reject_bind_eq_ok hcheck with ⟨hpasses, hlast⟩
  cases hlast
  simp only [not_or, Nat.not_le, Nat.not_lt, Bool.not_eq_false] at hpasses
  rcases hpasses with ⟨hnonempty, hprior, _, hstart, hend⟩
  rcases isCharBoundary_split hstart with ⟨before, after, heq, hbefore⟩
  rcases isCharBoundary_split hend with ⟨before', after', heq', hbefore'⟩
  have hleads : before <+: before' := by
    have hfirst : before <+: content := heq ▸ List.prefix_append _ _
    have hsecond : before' <+: content := heq' ▸ List.prefix_append _ _
    rcases List.prefix_or_prefix_of_prefix hfirst hsecond with h | h
    · exact h
    · have hle := byteLen_le_of_prefix h
      omega
  rcases hleads with ⟨text, rfl⟩
  rw [Chunker.byteLen_append] at hbefore'
  have hspan : SpanOf content span text := by
    refine ⟨?_, before, after', ?_, hbefore.symm, ?_⟩
    · rintro rfl
      rw [show byteLen [] = 0 from rfl] at hbefore'
      omega
    · rw [heq', List.append_assoc]
    · omega
  rw [hspan.slice]
  exact ⟨hspan, hprior, rfl⟩

theorem checkSpans_spanOf {content : Text} {spans : List RenderedSpan} {priorEnd last : Nat}
    (hcheck : spans.foldlM (checkSpan content) priorEnd = .ok last) :
    (forall span, span ∈ spans ->
        SpanOf content span (byteSlice content span.startByte span.endByte) ∧
          priorEnd ≤ span.startByte) ∧ Follow spans := by
  induction spans generalizing priorEnd with
  | nil =>
      constructor
      · intro span hmem
        cases hmem
      · exact List.Pairwise.nil
  | cons span spans ih =>
      rw [List.foldlM_cons] at hcheck
      rcases bind_eq_ok hcheck with ⟨next, hfirst, hrest⟩
      rcases checkSpan_spanOf hfirst with ⟨hspan, hprior, rfl⟩
      rcases ih hrest with ⟨hall, hfollow⟩
      constructor
      · intro other hmem
        rcases List.mem_cons.mp hmem with rfl | hmem
        · exact ⟨hspan, hprior⟩
        · have hother := hall other hmem
          have hnonempty := hspan.nonempty
          exact ⟨hother.1, by omega⟩
      · exact List.pairwise_cons.mpr ⟨fun other hmem => (hall other hmem).2, hfollow⟩

/-!
# The spans in the new text
-/

section Moved

variable {old new : Text} {tokens : List (Token Char)}

theorem replaceText_spell (hold : old ≠ []) (new : Text) (hleft : Leftmost old tokens) :
    replaceText old new (spell old tokens) = spell new tokens := by
  unfold replaceText
  rw [if_neg hold, replaceFrom_spell hold new hleft]

theorem Moved.leftmost {span span' : RenderedSpan} {xs mid ys : List (Token Char)}
    (h : Moved old new tokens text span span' xs mid ys) (hleft : Leftmost old tokens) :
    Leftmost old mid := by
  rw [h.tokens_eq] at hleft
  exact hleft.right.left

theorem Moved.spanOf (hold : old ≠ []) (hnew : new ≠ []) {span span' : RenderedSpan}
    {xs mid ys : List (Token Char)} (h : Moved old new tokens text span span' xs mid ys)
    (hleft : Leftmost old tokens) (hnonempty : text ≠ []) :
    SpanOf (spell new tokens) span' (replaceText old new text) := by
  rw [← h.text_eq, replaceText_spell hold new (h.leftmost hleft)]
  refine ⟨?_, spell new xs, spell new ys, ?_, h.start_eq', h.end_eq'⟩
  · intro hnil
    apply hnonempty
    rw [← h.text_eq, spell_eq_nil hnew hnil]
    rfl
  · rw [h.tokens_eq, spell_append, spell_append]

/-- Spans that follow each other still do. -/
theorem Moved.follow (hold : old ≠ []) {text text' : Text} {a a' b b' : RenderedSpan}
    {xs mid ys xs' mid' ys' : List (Token Char)} (ha : Moved old new tokens text a a' xs mid ys)
    (hb : Moved old new tokens text' b b' xs' mid' ys') (hle : a.endByte ≤ b.startByte) :
    a'.endByte ≤ b'.startByte := by
  have hend : byteLen (spell old (xs ++ mid)) ≤ byteLen (spell old xs') := by
    rw [spell_append, Chunker.byteLen_append, ← ha.end_eq, ← hb.start_eq]
    exact hle
  have hleads : xs ++ mid <+: xs' := by
    have hfirst : xs ++ mid <+: tokens := by
      rw [ha.tokens_eq, ← List.append_assoc]
      exact List.prefix_append _ _
    have hsecond : xs' <+: tokens := by
      rw [hb.tokens_eq]
      exact List.prefix_append _ _
    rcases List.prefix_or_prefix_of_prefix hfirst hsecond with h | ⟨rest, hrest⟩
    · exact h
    · have hempty : spell old rest = [] := by
        by_contra hne
        have hpos := Chunker.byteLen_pos hne
        rw [← hrest, spell_append, Chunker.byteLen_append] at hend
        omega
      rw [spell_eq_nil hold hempty, List.append_nil] at hrest
      rw [hrest]
  rcases hleads with ⟨rest, rfl⟩
  rw [ha.end_eq', hb.start_eq', ← Chunker.byteLen_append, ← spell_append, spell_append _ _ rest]
  exact byteLen_le_of_prefix (List.prefix_append _ _)

/-- What a shifted span has to do with the span before. -/
def Shifted (old new : Text) (tokens : List (Token Char)) (span span' : RenderedSpan) : Prop :=
  SpanOf (spell old tokens) span
      (byteSlice (spell old tokens) span.startByte span.endByte) ∧
    exists xs mid ys, Moved old new tokens
      (byteSlice (spell old tokens) span.startByte span.endByte) span span' xs mid ys

theorem Shifted.spanOfAll (hold : old ≠ []) (hnew : new ≠ []) (hleft : Leftmost old tokens)
    {spans spans' : List RenderedSpan} (h : List.Forall₂ (Shifted old new tokens) spans spans') :
    List.Forall₂ (SpanOf (spell new tokens)) spans'
      (spans.map fun span => replaceText old new
        (byteSlice (spell old tokens) span.startByte span.endByte)) := by
  induction h with
  | nil =>
      exact .nil
  | cons hfirst _ ih =>
      rcases hfirst with ⟨hspan, xs, mid, ys, hmoved⟩
      exact .cons (hmoved.spanOf hold hnew hleft hspan.1) ih

theorem Shifted.followAll (hold : old ≠ []) {spans spans' : List RenderedSpan}
    (h : List.Forall₂ (Shifted old new tokens) spans spans') (hfollow : Follow spans) :
    Follow spans' := by
  induction h with
  | nil =>
      exact List.Pairwise.nil
  | cons hfirst hrest ih =>
      have hfollow := List.pairwise_cons.mp hfollow
      apply List.pairwise_cons.mpr
      constructor
      · intro b' hmem'
        rcases exists_of_forall₂ hrest hmem' with ⟨b, hmem, _, xs', mid', ys', hb⟩
        rcases hfirst with ⟨_, xs, mid, ys, ha⟩
        exact ha.follow hold hb (hfollow.1 b hmem)
      · exact ih hfollow.2

/-- The spans of one unit pass the check again, and show what they showed, replaced. -/
theorem shiftSpans_ends (hold : old ≠ []) (hnew : new ≠ []) (hleft : Leftmost old tokens)
    {spans : List RenderedSpan} {last : Nat}
    (hcheck : spans.foldlM (checkSpan (spell old tokens)) 0 = .ok last) :
    Ends
      (fun spans' =>
        (exists last, spans'.foldlM (checkSpan (spell new tokens)) 0 = .ok last) ∧
          (spans'.map fun span => byteSlice (spell new tokens) span.startByte span.endByte) =
            spans.map fun span => replaceText old new
              (byteSlice (spell old tokens) span.startByte span.endByte))
      (fun _ => (exists span, span ∈ spans ∧ CutsSpan old (foundAt old 0 tokens) span) ∨
        ¬ Addressable (spell new tokens))
      (spans.mapM (shiftSpan old new (foundAt old 0 tokens))) := by
  rcases checkSpans_spanOf hcheck with ⟨hspans, hfollow⟩
  have hshifted : Ends (List.Forall₂ (Shifted old new tokens) spans)
      (fun _ => (exists span, span ∈ spans ∧ CutsSpan old (foundAt old 0 tokens) span) ∨
        ¬ Addressable (spell new tokens))
      (spans.mapM (shiftSpan old new (foundAt old 0 tokens))) := by
    apply Ends.mapM
    intro span hmem
    apply (shiftSpan_ends hold new (hspans span hmem).1).mono
    · intro span' hmoved
      exact ⟨(hspans span hmem).1, hmoved⟩
    · rintro e (hcut | hsize)
      · exact Or.inl ⟨span, hmem, hcut⟩
      · exact Or.inr hsize
  apply hshifted.mono
  · intro spans' hall
    have htexts := Shifted.spanOfAll hold hnew hleft hall
    constructor
    · exact checkSpans_ok htexts (Shifted.followAll hold hall hfollow) fun _ _ => Nat.zero_le _
    · exact slices_eq htexts
  · exact fun _ h => h

end Moved

/-!
# Sequences of replacements

A replacement either rewrites the text and every span of its contract exactly,
or stops at an occurrence across the end of a span and leaves both as they were.
So a sequence of replacements is exact as far as it goes.
-/

/-!
## One replacement
-/

/-- What a replacement makes of a text: the empty pattern is not replaced. -/
def replaced (old new t : Text) : Text :=
  if old = [] then t else replaceText old new t

/-- The rules of `validate` for the spans of every unit. -/
def SpanRules (markdown : Text) (contract : SourceContract) : Prop :=
  forall unit, unit ∈ contract.units ->
    exists last, unit.renderedSpans.foldlM (checkSpan markdown) 0 = .ok last

/-- The slices of the text that the spans address. -/
def shownBy (markdown : Text) (spans : List RenderedSpan) : List Text :=
  spans.map fun span => byteSlice markdown span.startByte span.endByte

/-- The unit is the same but for its spans, which show what they showed, changed. -/
def Reshown (change : Text -> Text) (markdown markdown' : Text) (unit unit' : SourceUnitIdentity) :
    Prop :=
  unit' = { unit with renderedSpans := unit'.renderedSpans } ∧
    shownBy markdown' unit'.renderedSpans = (shownBy markdown unit.renderedSpans).map change

/-- An occurrence lies across an end of a span. -/
def CutsContract (old markdown : Text) (contract : SourceContract) : Prop :=
  exists unit span, unit ∈ contract.units ∧ span ∈ unit.renderedSpans ∧
    CutsSpan old (matchIndices old 0 0 markdown) span

/-- The text and its contract after an exact rewriting. -/
structure Rewritten (sha256 : Sha256) (change : Text -> Text) (markdown : Text)
    (contract : SourceContract) (markdown' : Text) (contract' : SourceContract) : Prop where
  markdown_eq : markdown' = change markdown
  rules : SpanRules markdown' contract'
  units : List.Forall₂ (Reshown change markdown markdown') contract.units contract'.units
  contract_eq : contract' = { contract with
    units := contract'.units
    markdownSha256 := contract'.markdownSha256 }
  digest : contract'.markdownSha256 = sha256.hex (encode markdown') ∨
    (markdown' = markdown ∧ contract' = contract)

section Replacement

variable {sha256 : Sha256} {old new markdown : Text} {contract : SourceContract}

theorem Rewritten.unchanged {change : Text -> Text} (hrules : SpanRules markdown contract)
    (htext : change markdown = markdown)
    (hslices : forall unit, unit ∈ contract.units ->
      forall text, text ∈ shownBy markdown unit.renderedSpans -> change text = text) :
    Rewritten sha256 change markdown contract markdown contract where
  markdown_eq := htext.symm
  rules := hrules
  units := by
    apply List.forall₂_same.mpr
    intro unit hmem
    refine ⟨rfl, ?_⟩
    rw [List.map_congr_left (hslices unit hmem), List.map_id']
  contract_eq := rfl
  digest := Or.inr ⟨rfl, rfl⟩

theorem replaced_same (t : Text) : replaced old old t = t := by
  unfold replaced
  split
  · rfl
  · rename_i hold
    rcases exists_tokens hold t with ⟨tokens, hleft, rfl⟩
    exact replaceText_spell hold old hleft

/-- Where the pattern does not occur, the slices do not change either. -/
theorem replaceText_slice (hold : old ≠ []) {tokens : List (Token Char)}
    (hleft : Leftmost old tokens) (hnone : foundAt old 0 tokens = [])
    (hspan : SpanOf (spell old tokens) span text) :
    replaceText old new text = text := by
  rcases hspan with ⟨_, before, after, heq, _, _⟩
  have habsent : forall offset, ¬ exists start, start ∈ foundAt old 0 tokens ∧
      Cuts old offset start := by
    rintro offset ⟨start, hmem, _⟩
    rw [hnone] at hmem
    cases hmem
  rcases between_or_cut heq with ⟨xs, rest, rfl, _, hrest⟩ | hcut
  · rw [foundAt_append, List.append_eq_nil_iff] at hnone
    rcases spell_split hrest with ⟨mid, ys, rfl, rfl, _⟩ |
      ⟨zs, ys, cut, behind, rfl, _, _, _, _⟩
    · have hmid := hnone.2
      rw [foundAt_append, List.append_eq_nil_iff] at hmid
      rw [replaceText_spell hold new hleft.right.left, spell_of_foundAt hmid.1]
    · have hmid := hnone.2
      rw [foundAt_append, List.append_eq_nil_iff] at hmid
      cases hmid.2
  · exact absurd hcut (habsent _)

theorem shiftUnit_ends (hold : old ≠ []) (hnew : new ≠ []) {tokens : List (Token Char)}
    (hleft : Leftmost old tokens) {unit : SourceUnitIdentity} {last : Nat}
    (hcheck : unit.renderedSpans.foldlM (checkSpan (spell old tokens)) 0 = .ok last) :
    Ends
      (fun unit' =>
        (exists last, unit'.renderedSpans.foldlM (checkSpan (spell new tokens)) 0 = .ok last) ∧
          Reshown (replaced old new) (spell old tokens) (spell new tokens) unit unit')
      (fun _ => (exists span, span ∈ unit.renderedSpans ∧
          CutsSpan old (foundAt old 0 tokens) span) ∨ ¬ Addressable (spell new tokens))
      (shiftUnit old new (foundAt old 0 tokens) unit) := by
  unfold shiftUnit
  apply Ends.bind (shiftSpans_ends hold hnew hleft hcheck)
  rintro spans' ⟨hrules, hslices⟩
  apply Ends.ok
  refine ⟨hrules, rfl, ?_⟩
  show shownBy _ spans' = _
  unfold shownBy
  rw [hslices, List.map_map]
  apply List.map_congr_left
  intro span _
  exact (if_neg hold).symm

theorem shiftUnits_cut {units units' : List SourceUnitIdentity}
    (hrun : units.mapM (shiftUnit old new starts) = .ok units') :
    forall unit span, unit ∈ units -> span ∈ unit.renderedSpans -> ¬ CutsSpan old starts span := by
  intro unit span hunit hspan hcut
  rcases exists_of_forall₂ (mapM_eq_ok hrun).flip hunit with ⟨unit', _, hshift⟩
  rcases bind_eq_ok hshift with ⟨spans', hspans, _⟩
  rcases exists_of_forall₂ (mapM_eq_ok hspans).flip hspan with ⟨span', _, hspan'⟩
  rcases shiftSpan_cut new hcut with ⟨e, he⟩
  rw [he] at hspan'
  cases hspan'

/-- A replacement either rewrites the text and all spans exactly, or changes nothing
and an occurrence lies across the end of a span. -/
theorem replaceRendered_ends (hrules : SpanRules markdown contract) (hnew : new ≠ []) :
    match replaceRendered sha256 old new markdown contract with
    | (.ok (), markdown', contract') =>
        Rewritten sha256 (replaced old new) markdown contract markdown' contract' ∧
          (old = new ∨ ¬ CutsContract old markdown contract)
    | (.error _, markdown', contract') =>
        (markdown' = markdown ∧ contract' = contract) ∧
          (CutsContract old markdown contract ∨ ¬ Addressable (replaced old new markdown)) := by
  unfold replaceRendered
  by_cases hguard : old = [] ∨ old = new
  · rw [if_pos hguard]
    have hsame : forall t, replaced old new t = t := by
      intro t
      rcases hguard with hempty | rfl
      · exact if_pos hempty
      · exact replaced_same t
    refine ⟨Rewritten.unchanged hrules (hsame _) fun _ _ text _ => hsame text, ?_⟩
    rcases hguard with rfl | heq
    · right
      rintro ⟨unit, span, _, _, start, _, hcut⟩
      rw [Cuts, Cuts, show byteLen [] = 0 from rfl] at hcut
      omega
    · exact Or.inl heq
  · rw [if_neg hguard]
    rcases not_or.mp hguard with ⟨hold, hdiffers⟩
    rcases exists_tokens hold markdown with ⟨tokens, hleft, rfl⟩
    have hstarts := matchIndices_spell hold hleft 0
    by_cases hnone : matchIndices old 0 0 (spell old tokens) = []
    · simp only [hnone, if_true]
      have hfound := hstarts.symm.trans hnone
      constructor
      · apply Rewritten.unchanged hrules
        · show (if old = [] then _ else _) = _
          rw [if_neg hold, replaceText_spell hold new hleft, spell_of_foundAt hfound]
        · intro unit hunit text htext
          rcases hrules unit hunit with ⟨last, hcheck⟩
          rcases List.mem_map.mp htext with ⟨span, hspan, rfl⟩
          show (if old = [] then _ else _) = _
          rw [if_neg hold]
          exact replaceText_slice hold hleft hfound ((checkSpans_spanOf hcheck).1 span hspan).1
      · right
        rintro ⟨unit, span, _, _, start, hmem, _⟩
        rw [hnone] at hmem
        cases hmem
    · simp only [hnone, if_false]
      have hreplaced : replaced old new (spell old tokens) = spell new tokens := by
        unfold replaced
        rw [if_neg hold, replaceText_spell hold new hleft]
      have hunits : Ends
          (List.Forall₂ (fun unit unit' =>
            (exists last, unit'.renderedSpans.foldlM (checkSpan (spell new tokens)) 0 =
                .ok last) ∧
              Reshown (replaced old new) (spell old tokens) (spell new tokens) unit unit')
            contract.units)
          (fun _ => CutsContract old (spell old tokens) contract ∨ ¬ Addressable (spell new tokens))
          (contract.units.mapM (shiftUnit old new (matchIndices old 0 0 (spell old tokens)))) := by
        apply Ends.mapM
        intro unit hunit
        rcases hrules unit hunit with ⟨last, hcheck⟩
        rw [hstarts]
        apply (shiftUnit_ends hold hnew hleft hcheck).mono
        · exact fun _ h => h
        · rintro e (⟨span, hspan, hcut⟩ | hsize)
          · left
            rw [← hstarts] at hcut
            exact ⟨unit, span, hunit, hspan, hcut⟩
          · exact Or.inr hsize
      cases hrun : contract.units.mapM
          (shiftUnit old new (matchIndices old 0 0 (spell old tokens))) with
      | error e =>
          rw [hrun] at hunits
          rw [hreplaced]
          exact ⟨⟨rfl, rfl⟩, hunits⟩
      | ok updated =>
          have hall := hunits.of_eq_ok hrun
          constructor
          · refine ⟨?_, ?_, ?_, rfl, Or.inl rfl⟩
            · rw [hreplaced, replaceText_spell hold new hleft]
            · intro unit' hunit'
              rcases exists_of_forall₂ hall hunit' with ⟨unit, _, hcheck, _⟩
              rw [replaceText_spell hold new hleft]
              exact hcheck
            · rw [replaceText_spell hold new hleft]
              exact hall.imp fun _ _ h => h.2
          · right
            rintro ⟨unit, span, hunit, hspan, hcut⟩
            exact shiftUnits_cut hrun unit span hunit hspan hcut

end Replacement

/-!
## Sequences
-/

/-- `replace_mapped`: how it ends, and the text and the contract after it. -/
def replaceMapped (sha256 : Sha256) (old new markdown : Text) (contract : Option SourceContract) :
    Except String Unit × Text × Option SourceContract :=
  match contract with
  | some contract =>
      let (result, markdown, contract) := replaceRendered sha256 old new markdown contract
      (result, markdown, some contract)
  | none => (.ok (), replaceText old new markdown, none)

/-- Replacements one after the other, up to the first that fails. -/
def replaceEach (sha256 : Sha256) :
    List (Text × Text) -> Text -> Option SourceContract ->
      Except String Unit × Text × Option SourceContract
  | [], markdown, contract => (.ok (), markdown, contract)
  | (old, new) :: rest, markdown, contract =>
      match replaceMapped sha256 old new markdown contract with
      | (.ok (), markdown, contract) => replaceEach sha256 rest markdown contract
      | (.error e, markdown, contract) => (.error e, markdown, contract)

/-- What the replacements make of a text, one after the other. -/
def replacedEach (steps : List (Text × Text)) (t : Text) : Text :=
  steps.foldl (fun t step => replaced step.1 step.2 t) t

section Sequence

variable {sha256 : Sha256} {change change' : Text -> Text}
  {markdown markdown' markdown'' : Text} {contract contract' contract'' : SourceContract}

theorem Reshown.trans {unit unit' unit'' : SourceUnitIdentity}
    (h : Reshown change markdown markdown' unit unit')
    (h' : Reshown change' markdown' markdown'' unit' unit'') :
    Reshown (change' ∘ change) markdown markdown'' unit unit'' := by
  constructor
  · rw [h'.1, h.1]
  · rw [h'.2, h.2, List.map_map]

theorem Rewritten.trans (h : Rewritten sha256 change markdown contract markdown' contract')
    (h' : Rewritten sha256 change' markdown' contract' markdown'' contract'') :
    Rewritten sha256 (change' ∘ change) markdown contract markdown'' contract'' where
  markdown_eq := by rw [h'.markdown_eq, h.markdown_eq, Function.comp]
  rules := h'.rules
  units := by
    apply forall₂_trans _ h.units h'.units
    intro unit unit' unit'' hfirst hsecond
    exact hfirst.trans hsecond
  contract_eq := by rw [h'.contract_eq, h.contract_eq]
  digest := by
    rcases h'.digest with hdigest | ⟨rfl, rfl⟩
    · exact Or.inl hdigest
    · exact h.digest

theorem replaceEach_ok {old new : Text} {u : Unit} {rest : List (Text × Text)}
    (hfirst : replaceRendered sha256 old new markdown contract = (.ok u, markdown', contract')) :
    replaceEach sha256 ((old, new) :: rest) markdown (some contract) =
      replaceEach sha256 rest markdown' (some contract') := by
  rw [replaceEach, replaceMapped, hfirst]

theorem replaceEach_error {old new : Text} {e : String} {rest : List (Text × Text)}
    (hfirst : replaceRendered sha256 old new markdown contract =
      (.error e, markdown', contract')) :
    replaceEach sha256 ((old, new) :: rest) markdown (some contract) =
      (.error e, markdown', some contract') := by
  rw [replaceEach, replaceMapped, hfirst]

/-- A sequence of replacements rewrites the text and all spans exactly, or stops at a
replacement that changes nothing, with what those before it made. -/
theorem replaceEach_ends {steps : List (Text × Text)} (hrules : SpanRules markdown contract)
    (hnew : forall step, step ∈ steps -> step.2 ≠ []) :
    match replaceEach sha256 steps markdown (some contract) with
    | (.ok (), markdown', contract') =>
        exists last, contract' = some last ∧
          Rewritten sha256 (replacedEach steps) markdown contract markdown' last
    | (.error _, markdown', contract') =>
        exists done step rest last, steps = done ++ step :: rest ∧
          replaceEach sha256 done markdown (some contract) = (.ok (), markdown', contract') ∧
          contract' = some last ∧
          Rewritten sha256 (replacedEach done) markdown contract markdown' last ∧
          (CutsContract step.1 markdown' last ∨
            ¬ Addressable (replaced step.1 step.2 markdown')) := by
  induction steps generalizing markdown contract with
  | nil =>
      exact ⟨contract, rfl, Rewritten.unchanged hrules rfl fun _ _ _ _ => rfl⟩
  | cons step rest ih =>
      rcases step with ⟨old, new⟩
      have hone := @replaceRendered_ends sha256 old new markdown contract hrules
        (hnew (old, new) List.mem_cons_self)
      have hmore := fun step hmem => hnew step (List.mem_cons_of_mem (old, new) hmem)
      rcases hfirst : replaceRendered sha256 old new markdown contract with
        ⟨result, markdown', contract'⟩
      rw [hfirst] at hone
      cases result with
      | error e =>
          rw [replaceEach_error hfirst]
          rcases hone with ⟨⟨rfl, rfl⟩, hcut⟩
          exact ⟨[], (old, new), rest, contract', rfl, rfl, rfl,
            Rewritten.unchanged hrules rfl fun _ _ _ _ => rfl, hcut⟩
      | ok u =>
          rw [replaceEach_ok hfirst]
          have hstep := hone.1
          have hrest := ih hstep.rules hmore
          rcases hrun : replaceEach sha256 rest markdown' (some contract') with
            ⟨result, markdown'', contract''⟩
          rw [hrun] at hrest
          cases result with
          | ok u =>
              rcases hrest with ⟨last, hlast, hall⟩
              exact ⟨last, hlast, hstep.trans hall⟩
          | error e =>
              rcases hrest with ⟨done, step, behind, last, hsteps, hdone, hlast, hall, hcut⟩
              refine ⟨(old, new) :: done, step, behind, last, by rw [hsteps, List.cons_append],
                ?_, hlast, hstep.trans hall, hcut⟩
              rw [replaceEach_ok hfirst, hdone]

end Sequence

end DocReader
end KnowledgeBrain
