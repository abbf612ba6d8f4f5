import KnowledgeBrain.Evidence.Context
import KnowledgeBrain.Foundation.Thinning

/-!
# Quotes

A quote is searched in the text of its range.  When it does not stand there as it
is, line feeds that it left out are given back, if there is one place only.
-/

namespace KnowledgeBrain
namespace Evidence

open Foundation

/-- A quote with its place in the text of its range. -/
structure LocatedQuote where
  quote : List Char
  start : Nat
  stop : Nat
deriving DecidableEq

/-- The characters other than line feeds, with their positions. -/
def numberedFrom (n : Nat) (text : List Char) : List (Char × Nat) :=
  (text.zipIdx n).filter fun entry => entry.1 ≠ '\n'

def positions (text : List Char) : List Nat :=
  (numberedFrom 0 text).map Prod.snd

def flattened (text : List Char) : List Char :=
  (numberedFrom 0 text).map Prod.fst

/-- `quote.replace("\n", "")`. -/
def withoutLineFeeds (quote : List Char) : List Char :=
  quote.filter (· ≠ '\n')

/-- `len(quote) - len(quote.lstrip("\n"))`. -/
def leading (quote : List Char) : Nat :=
  (quote.takeWhile (· = '\n')).length

/-- `len(quote) - len(quote.rstrip("\n"))`. -/
def trailing (quote : List Char) : Nat :=
  leading quote.reverse

/-- The offsets that `find` gives, each search starting behind the last offset. -/
def occurrencesFrom (needle : List Char) : Nat -> List Char -> List Nat
  | _, [] => []
  | offset, c :: rest =>
      (if needle.isPrefixOf (c :: rest) then [offset] else []) ++
        occurrencesFrom needle (offset + 1) rest

/-- `any(original in candidate for candidate in visible)`. -/
def isVisible (visible : List (List Char)) (original : List Char) : Bool :=
  visible.any fun candidate => decide (original <:+: candidate)

section Resolution

variable (text quote : List Char) (visible : List (List Char))

/-- The interval at an offset of the flattened text, if it gives the quote. -/
def recoveredAt (offset : Nat) : Option (Nat × Nat) := do
  let first <- (positions text)[offset]?
  let last <- (positions text)[offset + (withoutLineFeeds quote).length - 1]?
  let stop := last + 1 + trailing quote
  if leading quote ≤ first ∧ first - leading quote ≤ stop ∧ stop ≤ text.length then
    let original := slice text (first - leading quote) stop
    if passOver '\n' original quote = some [] ∧ isVisible visible original = true then
      return (first - leading quote, stop)
    else none
  else none

/-- The loop over the offsets: it gives up at a second interval. -/
def gatherPlaces : List (Nat × Nat) -> List Nat -> Option (List (Nat × Nat))
  | places, [] => some places
  | places, offset :: rest =>
      match recoveredAt text quote visible offset with
      | none => gatherPlaces places rest
      | some place =>
          let places := if places.contains place then places else places ++ [place]
          if 1 < places.length then none else gatherPlaces places rest

/-- The search for a quote that left out line feeds. -/
def recoverQuote : Option LocatedQuote :=
  if withoutLineFeeds quote = [] then none
  else
    match gatherPlaces text quote visible []
        (occurrencesFrom (withoutLineFeeds quote) 0 (flattened text)) with
    | some [(start, stop)] => some ⟨slice text start stop, start, stop⟩
    | _ => none

/-- The quote as it stands in the text. -/
def exactQuote : Option LocatedQuote :=
  match cutAt quote text with
  | some (before, _) =>
      if isVisible visible quote then some ⟨quote, before.length, before.length + quote.length⟩
      else none
  | none => none

end Resolution

def resolveEvidenceQuote (rangeId : String) (quote : List Char)
    (sources : Table String (List Char)) (sentTexts : Table String (List (List Char))) :
    Option LocatedQuote :=
  let visible := (sentTexts.lookup rangeId).getD []
  match sources.lookup rangeId with
  | none => none
  | some text =>
      if isBlankText quote then none
      else (exactQuote text quote visible).or (recoverQuote text quote visible)

/-!
# Characters other than line feeds
-/

theorem numberedFrom_append (n : Nat) (xs ys : List Char) :
    numberedFrom n (xs ++ ys) = numberedFrom n xs ++ numberedFrom (n + xs.length) ys := by
  unfold numberedFrom
  rw [List.zipIdx_append, List.filter_append]

variable {c : Char}

theorem numberedFrom_cons (hc : c ≠ '\n') (n : Nat) (text : List Char) :
    numberedFrom n (c :: text) = (c, n) :: numberedFrom (n + 1) text := by
  unfold numberedFrom
  rw [List.zipIdx_cons, List.filter_cons_of_pos (by simpa using hc)]

theorem numberedFrom_lineFeed (n : Nat) (text : List Char) :
    numberedFrom n ('\n' :: text) = numberedFrom (n + 1) text := by
  unfold numberedFrom
  rw [List.zipIdx_cons, List.filter_cons_of_neg (by simp)]

theorem withoutLineFeeds_cons (hc : c ≠ '\n') (xs : List Char) :
    withoutLineFeeds (c :: xs) = c :: withoutLineFeeds xs :=
  List.filter_cons_of_pos (decide_eq_true hc)

theorem withoutLineFeeds_lineFeed (xs : List Char) :
    withoutLineFeeds ('\n' :: xs) = withoutLineFeeds xs :=
  List.filter_cons_of_neg (by simp)

theorem map_fst_numberedFrom (n : Nat) (text : List Char) :
    (numberedFrom n text).map Prod.fst = withoutLineFeeds text := by
  induction text generalizing n with
  | nil =>
      rfl
  | cons c text ih =>
      by_cases hc : c = '\n'
      · subst hc
        rw [numberedFrom_lineFeed, withoutLineFeeds_lineFeed, ih]
      · rw [numberedFrom_cons hc, withoutLineFeeds_cons hc, List.map_cons, ih]

theorem flattened_eq (text : List Char) : flattened text = withoutLineFeeds text :=
  map_fst_numberedFrom 0 text

theorem length_numberedFrom (n : Nat) (text : List Char) :
    (numberedFrom n text).length = (withoutLineFeeds text).length := by
  rw [← map_fst_numberedFrom n text, List.length_map]

@[simp]
theorem withoutLineFeeds_append (xs ys : List Char) :
    withoutLineFeeds (xs ++ ys) = withoutLineFeeds xs ++ withoutLineFeeds ys :=
  List.filter_append xs ys

theorem positions_at {before after : List Char} (hc : c ≠ '\n') :
    (positions (before ++ c :: after))[(withoutLineFeeds before).length]? = some before.length := by
  unfold positions
  rw [numberedFrom_append, List.map_append, ← length_numberedFrom 0 before,
    List.getElem?_append_right (by simp)]
  rw [numberedFrom_cons hc]
  simp

theorem split_at_position {n k p : Nat} {text : List Char}
    (h : ((numberedFrom n text).map Prod.snd)[k]? = some p) :
    exists before c after, text = before ++ c :: after ∧ c ≠ '\n' ∧ p = n + before.length ∧
      k = (withoutLineFeeds before).length := by
  induction text generalizing n k with
  | nil =>
      cases h
  | cons c text ih =>
      by_cases hc : c = '\n'
      · subst hc
        rw [numberedFrom_lineFeed] at h
        rcases ih h with ⟨before, d, after, rfl, hd, rfl, rfl⟩
        refine ⟨'\n' :: before, d, after, rfl, hd, ?_, ?_⟩
        · rw [List.length_cons]
          omega
        · rw [withoutLineFeeds_lineFeed]
      · rw [numberedFrom_cons hc, List.map_cons] at h
        cases k with
        | zero =>
            rw [List.getElem?_cons_zero] at h
            cases h
            exact ⟨[], c, text, rfl, hc, rfl, rfl⟩
        | succ k =>
            rw [List.getElem?_cons_succ] at h
            rcases ih h with ⟨before, d, after, rfl, hd, rfl, rfl⟩
            refine ⟨c :: before, d, after, rfl, hd, ?_, ?_⟩
            · rw [List.length_cons]
              omega
            · rw [withoutLineFeeds_cons hc, List.length_cons]

theorem mem_occurrencesFrom {needle text : List Char} (hneedle : needle ≠ []) {n k : Nat} :
    k ∈ occurrencesFrom needle n text <->
      exists before after, text = before ++ (needle ++ after) ∧ k = n + before.length := by
  induction text generalizing n with
  | nil =>
      constructor
      · intro h
        cases h
      · rintro ⟨before, after, hsplit, _⟩
        have hnil := (List.append_eq_nil_iff.mp hsplit.symm).2
        exact absurd (List.append_eq_nil_iff.mp hnil).1 hneedle
  | cons c text ih =>
      rw [occurrencesFrom, List.mem_append, ih]
      constructor
      · rintro (h | ⟨before, after, rfl, rfl⟩)
        · split at h
          · rename_i hstart
            rcases List.isPrefixOf_iff_prefix.mp hstart with ⟨after, hafter⟩
            rw [List.mem_singleton] at h
            exact ⟨[], after, hafter.symm, h⟩
          · cases h
        · refine ⟨c :: before, after, rfl, ?_⟩
          rw [List.length_cons]
          omega
      · rintro ⟨before, after, hsplit, rfl⟩
        cases before with
        | nil =>
            left
            have hstart : needle.isPrefixOf (c :: text) = true := by
              rw [List.isPrefixOf_iff_prefix, hsplit]
              exact List.prefix_append needle after
            rw [if_pos hstart]
            exact List.mem_singleton.mpr rfl
        | cons d before =>
            rw [List.cons_append, List.cons.injEq] at hsplit
            right
            refine ⟨before, after, hsplit.2, ?_⟩
            rw [List.length_cons]
            omega

/-!
# Line feeds at the ends
-/

theorem leading_split {xs rest : List Char} (hxs : withoutLineFeeds xs = []) (hc : c ≠ '\n') :
    leading (xs ++ c :: rest) = xs.length := by
  have hall : forall x, x ∈ xs -> decide (x = '\n') = true := by
    intro x hmem
    have hnone := List.filter_eq_nil_iff.mp hxs x hmem
    simpa using hnone
  unfold leading
  rw [List.takeWhile_append_of_pos hall, List.takeWhile_cons, if_neg (by simpa using hc),
    List.append_nil]

theorem exists_leading {text : List Char} (h : withoutLineFeeds text ≠ []) :
    exists xs c rest, text = xs ++ c :: rest ∧ withoutLineFeeds xs = [] ∧ c ≠ '\n' := by
  induction text with
  | nil =>
      exact absurd rfl h
  | cons c text ih =>
      by_cases hc : c = '\n'
      · subst hc
        rw [withoutLineFeeds_lineFeed] at h
        rcases ih h with ⟨xs, d, rest, rfl, hxs, hd⟩
        exact ⟨'\n' :: xs, d, rest, rfl, by rw [withoutLineFeeds_lineFeed, hxs], hd⟩
      · exact ⟨[], c, text, rfl, rfl, hc⟩

theorem withoutLineFeeds_reverse (text : List Char) :
    withoutLineFeeds text.reverse = (withoutLineFeeds text).reverse :=
  List.filter_reverse

theorem trailing_split {xs rest : List Char} (hrest : withoutLineFeeds rest = []) (hc : c ≠ '\n') :
    trailing (xs ++ c :: rest) = rest.length := by
  have hreverse : (xs ++ c :: rest).reverse = rest.reverse ++ c :: xs.reverse := by
    simp
  unfold trailing
  rw [hreverse, leading_split _ hc, List.length_reverse]
  rw [withoutLineFeeds_reverse, hrest]
  rfl

theorem exists_trailing {text : List Char} (h : withoutLineFeeds text ≠ []) :
    exists xs c rest, text = xs ++ c :: rest ∧ withoutLineFeeds rest = [] ∧ c ≠ '\n' := by
  have hreverse : withoutLineFeeds text.reverse ≠ [] := by
    rw [withoutLineFeeds_reverse, List.reverse_ne_nil_iff]
    exact h
  rcases exists_leading hreverse with ⟨xs, c, rest, hsplit, hxs, hc⟩
  refine ⟨rest.reverse, c, xs.reverse, ?_, ?_, hc⟩
  · have hback := congrArg List.reverse hsplit
    rw [List.reverse_reverse] at hback
    rw [hback]
    simp
  · rw [withoutLineFeeds_reverse, hxs]
    rfl

/-!
# Recovered intervals
-/

/-- The quote is left of the interval when line feeds between its first and its last
other character are deleted. -/
structure Recovers (text quote : List Char) (start stop : Nat) : Prop where
  ordered : start ≤ stop
  inside : stop ≤ text.length
  thinned : Thinned '\n' (slice text start stop) quote
  leading_eq : leading (slice text start stop) = leading quote
  trailing_eq : trailing (slice text start stop) = trailing quote

section Recovery

variable {text quote : List Char} {visible : List (List Char)}

theorem recoveredAt_eq_some {offset start stop : Nat}
    (h : recoveredAt text quote visible offset = some (start, stop)) :
    exists first last, (positions text)[offset]? = some first ∧
      (positions text)[offset + (withoutLineFeeds quote).length - 1]? = some last ∧
      leading quote ≤ first ∧ start = first - leading quote ∧ start ≤ stop ∧
      stop = last + 1 + trailing quote ∧ stop ≤ text.length ∧
      passOver '\n' (slice text start stop) quote = some [] ∧
      isVisible visible (slice text start stop) = true := by
  unfold recoveredAt at h
  cases hfirst : (positions text)[offset]? with
  | none =>
      rw [hfirst] at h
      cases h
  | some first =>
      cases hlast : (positions text)[offset + (withoutLineFeeds quote).length - 1]? with
      | none =>
          rw [hfirst, hlast] at h
          cases h
      | some last =>
          rw [hfirst, hlast] at h
          simp only [Option.bind_eq_bind, Option.bind_some] at h
          split at h
          · rename_i hbounds
            split at h
            · rename_i hmatch
              cases h
              exact ⟨first, last, rfl, rfl, hbounds.1, rfl, hbounds.2.1, rfl, hbounds.2.2,
                hmatch.1, hmatch.2⟩
            · cases h
          · cases h

theorem position_le {xs xs' ys ys' : List Char} {c d : Char} (hd : d ≠ '\n')
    (h : xs ++ c :: xs' = ys ++ d :: ys')
    (hle : (withoutLineFeeds xs).length ≤ (withoutLineFeeds ys).length) :
    xs.length ≤ ys.length := by
  rcases List.append_eq_append_iff.mp h with ⟨more, rfl, _⟩ | ⟨more, rfl, hmore⟩
  · rw [List.length_append]
    exact Nat.le_add_right _ _
  · cases more with
    | nil =>
        rw [List.append_nil]
    | cons b more =>
        rw [List.cons_append, List.cons.injEq] at hmore
        rw [← hmore.1, withoutLineFeeds_append, withoutLineFeeds_cons hd, List.length_append,
          List.length_cons] at hle
        omega

/-- An interval that the loop takes gives the quote. -/
theorem recoveredAt_sound (hneedle : withoutLineFeeds quote ≠ []) {offset start stop : Nat}
    (h : recoveredAt text quote visible offset = some (start, stop)) :
    Recovers text quote start stop ∧ isVisible visible (slice text start stop) = true := by
  rcases recoveredAt_eq_some h with
    ⟨first, last, hfirst, hlast, hle, hstart, hordered, hstop, hinside, hpass, hvisible⟩
  have hthin := passOver_eq_nil.mp hpass
  have hothers : withoutLineFeeds (slice text start stop) = withoutLineFeeds quote :=
    hthin.others_eq
  have hpos := List.length_pos_iff.mpr hneedle
  rcases split_at_position hfirst with ⟨xs, c, xs', htext, hc, rfl, hoffset⟩
  rcases split_at_position hlast with ⟨ys, d, ys', htext', hd, rfl, hoffset'⟩
  rw [Nat.zero_add] at hle hstart hstop
  have hxy : xs.length ≤ ys.length :=
    position_le hd (htext.symm.trans htext') (by omega)
  -- the interval, from the first of these characters and from the last
  have hfront : slice text start stop =
      xs.drop start ++ c :: xs'.take (stop - xs.length - 1) := by
    unfold slice
    rw [htext, List.take_append, List.take_of_length_le (by omega),
      List.drop_append_of_le_length (by omega)]
    rw [show stop - xs.length = (stop - xs.length - 1) + 1 by omega, List.take_succ_cons]
    rfl
  have hback : slice text start stop = ys.drop start ++ d :: ys'.take (trailing quote) := by
    unfold slice
    rw [htext', List.take_append, List.take_of_length_le (by omega),
      List.drop_append_of_le_length (by omega)]
    rw [show stop - ys.length = trailing quote + 1 by omega, List.take_succ_cons]
  have hlong : (ys'.take (trailing quote)).length = trailing quote := by
    rw [htext', List.length_append, List.length_cons] at hinside
    rw [List.length_take]
    omega
  -- so no other character is left for the ends
  have hcount : (withoutLineFeeds (xs.take start)).length + (withoutLineFeeds quote).length =
      (withoutLineFeeds ys).length + 1 +
        (withoutLineFeeds (ys'.take (trailing quote))).length := by
    have hwhole : xs.take start ++ slice text start stop =
        ys ++ d :: ys'.take (trailing quote) := by
      have hsame : xs.take start = ys.take start := by
        have htake := congrArg (List.take start) (htext.symm.trans htext')
        rw [List.take_append_of_le_length (by omega), List.take_append_of_le_length (by omega)]
          at htake
        exact htake
      rw [hback, hsame, ← List.append_assoc, List.take_append_drop]
    have hlengths := congrArg (fun t => (withoutLineFeeds t).length) hwhole
    simp only [withoutLineFeeds_append, List.length_append, hothers] at hlengths
    rw [withoutLineFeeds_cons hd, List.length_cons] at hlengths
    omega
  have hsplit : (withoutLineFeeds xs).length =
      (withoutLineFeeds (xs.take start)).length + (withoutLineFeeds (xs.drop start)).length := by
    rw [← List.length_append, ← withoutLineFeeds_append, List.take_append_drop]
  have hlead : withoutLineFeeds (xs.drop start) = [] := by
    apply List.eq_nil_of_length_eq_zero
    omega
  have htrail : withoutLineFeeds (ys'.take (trailing quote)) = [] := by
    apply List.eq_nil_of_length_eq_zero
    omega
  refine ⟨⟨hordered, hinside, hthin, ?_, ?_⟩, hvisible⟩
  · rw [hfront, leading_split hlead hc, List.length_drop]
    omega
  · rw [hback, trailing_split htrail hd, hlong]

/-- An interval that gives the quote is found. -/
theorem recoveredAt_complete (hneedle : withoutLineFeeds quote ≠ []) {start stop : Nat}
    (h : Recovers text quote start stop)
    (hvisible : isVisible visible (slice text start stop) = true) :
    exists offset, offset ∈ occurrencesFrom (withoutLineFeeds quote) 0 (flattened text) ∧
      recoveredAt text quote visible offset = some (start, stop) := by
  have hothers : withoutLineFeeds (slice text start stop) = withoutLineFeeds quote :=
    h.thinned.others_eq
  have hfilled : withoutLineFeeds (slice text start stop) ≠ [] := by
    rw [hothers]
    exact hneedle
  have htext : text = text.take start ++ (slice text start stop ++ text.drop stop) := by
    have hmiddle := List.take_append_drop start (text.take stop)
    rw [List.take_take, Nat.min_eq_left h.ordered] at hmiddle
    unfold slice
    rw [← List.append_assoc, hmiddle, List.take_append_drop]
  have hbefore : (text.take start).length = start := by
    rw [List.length_take]
    have := h.ordered
    have := h.inside
    omega
  have hlength : (slice text start stop).length = stop - start := length_slice h.inside
  rcases exists_leading hfilled with ⟨xs, c, xs', hfront, hxs, hc⟩
  rcases exists_trailing hfilled with ⟨ys, d, ys', hback, hys, hd⟩
  have hlead : leading quote = xs.length := by
    rw [← h.leading_eq, hfront, leading_split hxs hc]
  have htrail : trailing quote = ys'.length := by
    rw [← h.trailing_eq, hback, trailing_split hys hd]
  have hfirst : (positions text)[(withoutLineFeeds (text.take start)).length]? =
      some (start + xs.length) := by
    have hat := @positions_at c (text.take start ++ xs) (xs' ++ text.drop stop) hc
    have hwhole : text = (text.take start ++ xs) ++ c :: (xs' ++ text.drop stop) := by
      rw [hfront, List.append_assoc, List.cons_append, ← List.append_assoc] at htext
      exact htext
    rw [withoutLineFeeds_append, hxs, List.append_nil, List.length_append, hbefore, ← hwhole]
      at hat
    exact hat
  have hcount : (withoutLineFeeds ys).length + 1 = (withoutLineFeeds quote).length := by
    have hlengths := congrArg (fun t => (withoutLineFeeds t).length) hback
    simp only [withoutLineFeeds_append, List.length_append, hothers] at hlengths
    rw [withoutLineFeeds_cons hd, hys] at hlengths
    simp only [List.length_cons, List.length_nil] at hlengths
    omega
  have hlast : (positions text)[(withoutLineFeeds (text.take start)).length +
      (withoutLineFeeds quote).length - 1]? = some (start + ys.length) := by
    have hat := @positions_at d (text.take start ++ ys) (ys' ++ text.drop stop) hd
    have hwhole : text = (text.take start ++ ys) ++ d :: (ys' ++ text.drop stop) := by
      rw [hback, List.append_assoc, List.cons_append, ← List.append_assoc] at htext
      exact htext
    rw [withoutLineFeeds_append, List.length_append, List.length_append, hbefore, ← hwhole] at hat
    rw [← hcount, ← Nat.add_assoc, Nat.add_sub_cancel]
    exact hat
  have hstop : start + ys.length + 1 + trailing quote = stop := by
    have hsum := congrArg List.length hback
    rw [List.length_append, List.length_cons, hlength] at hsum
    have := h.ordered
    omega
  refine ⟨(withoutLineFeeds (text.take start)).length, ?_, ?_⟩
  · rw [mem_occurrencesFrom hneedle, flattened_eq]
    refine ⟨withoutLineFeeds (text.take start), withoutLineFeeds (text.drop stop), ?_, ?_⟩
    · rw [← hothers, ← withoutLineFeeds_append, ← withoutLineFeeds_append, ← htext]
    · rw [Nat.zero_add]
  · unfold recoveredAt
    rw [hfirst, hlast]
    simp only [Option.bind_eq_bind, Option.bind_some]
    rw [hstop, hlead, Nat.add_sub_cancel]
    have hpass := passOver_eq_nil.mpr h.thinned
    rw [if_pos ⟨Nat.le_add_left _ _, h.ordered, h.inside⟩, if_pos ⟨hpass, hvisible⟩]
    rfl

end Recovery

/-!
# What a resolution gives
-/

/-- A text that the model was shown. -/
def Visible (visible : List (List Char)) (original : List Char) : Prop :=
  exists candidate, candidate ∈ visible ∧ original <:+: candidate

theorem isVisible_iff {visible : List (List Char)} {original : List Char} :
    isVisible visible original = true <-> Visible visible original := by
  unfold isVisible Visible
  rw [List.any_eq_true]
  simp only [decide_eq_true_eq]

/-- An interval that gives the quote and was shown. -/
structure Shows (text quote : List Char) (visible : List (List Char)) (start stop : Nat) :
    Prop where
  recovers : Recovers text quote start stop
  visible : Visible visible (slice text start stop)

/-- The quote stands in the text and was shown as it is. -/
def StandsExact (text quote : List Char) (visible : List (List Char)) : Prop :=
  quote <:+: text ∧ Visible visible quote

/-- A resolution is sound, it is the first place of a quote that stands there, and
otherwise the only interval that gives it. -/
structure Resolves (text quote : List Char) (visible : List (List Char))
    (result : Option LocatedQuote) : Prop where
  sound : forall located, result = some located ->
    located.start < located.stop ∧ located.stop ≤ text.length ∧
      located.quote = slice text located.start located.stop ∧
      Visible visible located.quote ∧ Thinned '\n' located.quote quote
  blank : isBlankText quote = true -> result = none
  exact : isBlankText quote = false -> StandsExact text quote visible ->
    exists start, result = some ⟨quote, start, start + quote.length⟩ ∧
      forall before after, text = before ++ (quote ++ after) -> start ≤ before.length
  recovered : isBlankText quote = false -> ¬ StandsExact text quote visible ->
    forall located, result = some located <->
      located.quote = slice text located.start located.stop ∧
        Shows text quote visible located.start located.stop ∧
        forall start stop, Shows text quote visible start stop ->
          start = located.start ∧ stop = located.stop

section Resolution

variable {text quote : List Char} {visible : List (List Char)}

theorem shows_iff (hneedle : withoutLineFeeds quote ≠ []) {start stop : Nat} :
    Shows text quote visible start stop <->
      exists offset, offset ∈ occurrencesFrom (withoutLineFeeds quote) 0 (flattened text) ∧
        recoveredAt text quote visible offset = some (start, stop) := by
  constructor
  · rintro ⟨hrecovers, hvisible⟩
    exact recoveredAt_complete hneedle hrecovers (isVisible_iff.mpr hvisible)
  · rintro ⟨offset, _, hrecovered⟩
    have hsound := recoveredAt_sound hneedle hrecovered
    exact ⟨hsound.1, isVisible_iff.mp hsound.2⟩

/-- An interval that was taken or will be. -/
def Taken (text quote : List Char) (visible : List (List Char)) (places : List (Nat × Nat))
    (offsets : List Nat) (place : Nat × Nat) : Prop :=
  place ∈ places ∨ exists offset, offset ∈ offsets ∧
    recoveredAt text quote visible offset = some place

variable {places : List (Nat × Nat)}

theorem taken_skip {offset : Nat} {rest : List Nat}
    (hskip : forall place, recoveredAt text quote visible offset = some place -> place ∈ places)
    (place : Nat × Nat) :
    Taken text quote visible places (offset :: rest) place <->
      Taken text quote visible places rest place := by
  constructor
  · rintro (hmem | ⟨other, hmem, hother⟩)
    · exact Or.inl hmem
    · rcases List.mem_cons.mp hmem with rfl | hmem
      · exact Or.inl (hskip place hother)
      · exact Or.inr ⟨other, hmem, hother⟩
  · rintro (hmem | ⟨other, hmem, hother⟩)
    · exact Or.inl hmem
    · exact Or.inr ⟨other, List.mem_cons_of_mem offset hmem, hother⟩

theorem taken_take {offset : Nat} {rest : List Nat} {taken : Nat × Nat}
    (htaken : recoveredAt text quote visible offset = some taken) (place : Nat × Nat) :
    Taken text quote visible places (offset :: rest) place <->
      Taken text quote visible (places ++ [taken]) rest place := by
  unfold Taken
  rw [List.mem_append, List.mem_singleton]
  constructor
  · rintro (hmem | ⟨other, hmem, hother⟩)
    · exact Or.inl (Or.inl hmem)
    · rcases List.mem_cons.mp hmem with rfl | hmem
      · rw [htaken] at hother
        exact Or.inl (Or.inr (Option.some.inj hother).symm)
      · exact Or.inr ⟨other, hmem, hother⟩
  · rintro ((hmem | rfl) | ⟨other, hmem, hother⟩)
    · exact Or.inl hmem
    · exact Or.inr ⟨offset, List.mem_cons_self, htaken⟩
    · exact Or.inr ⟨other, List.mem_cons_of_mem offset hmem, hother⟩

/-- The loop gives the only interval, or none, and gives up when there are two. -/
theorem gatherPlaces_spec (hone : places.length ≤ 1) (offsets : List Nat) :
    match gatherPlaces text quote visible places offsets with
    | some found => found.length ≤ 1 ∧
        forall place, place ∈ found <-> Taken text quote visible places offsets place
    | none => exists a b, a ≠ b ∧ Taken text quote visible places offsets a ∧
        Taken text quote visible places offsets b := by
  induction offsets generalizing places with
  | nil =>
      refine ⟨hone, ?_⟩
      intro place
      simp [Taken]
  | cons offset rest ih =>
      unfold gatherPlaces
      cases hrecovered : recoveredAt text quote visible offset with
      | none =>
          have hskip := @taken_skip text quote visible places offset rest (by
            intro place hsome
            rw [hrecovered] at hsome
            cases hsome)
          simp only [hskip]
          exact ih hone
      | some place =>
          by_cases hmem : place ∈ places
          · have hskip := @taken_skip text quote visible places offset rest (by
              intro other hsome
              rw [hrecovered] at hsome
              cases hsome
              exact hmem)
            simp only [hskip, if_pos (List.contains_iff_mem.mpr hmem),
              if_neg (Nat.not_lt.mpr hone)]
            exact ih hone
          · have htake := @taken_take text quote visible places offset rest place hrecovered
            have habsent : ¬ places.contains place = true := fun h =>
              hmem (List.contains_iff_mem.mp h)
            simp only [htake, if_neg habsent]
            by_cases htwo : 1 < (places ++ [place]).length
            · -- this is the second interval
              rw [if_pos htwo]
              cases places with
              | nil =>
                  simp at htwo
              | cons first others =>
                  refine ⟨first, place, ?_, Or.inl List.mem_cons_self, ?_⟩
                  · rintro rfl
                    exact hmem List.mem_cons_self
                  · exact Or.inl (List.mem_append_right _ List.mem_cons_self)
            · rw [if_neg htwo]
              exact ih (Nat.not_lt.mp htwo)

theorem recoverQuote_spec (hneedle : withoutLineFeeds quote ≠ []) (located : LocatedQuote) :
    recoverQuote text quote visible = some located <->
      located.quote = slice text located.start located.stop ∧
        Shows text quote visible located.start located.stop ∧
        forall start stop, Shows text quote visible start stop ->
          start = located.start ∧ stop = located.stop := by
  have hspec := @gatherPlaces_spec text quote visible [] (Nat.zero_le 1)
    (occurrencesFrom (withoutLineFeeds quote) 0 (flattened text))
  have hshows : forall place, Taken text quote visible []
      (occurrencesFrom (withoutLineFeeds quote) 0 (flattened text)) place <->
        Shows text quote visible place.1 place.2 := by
    intro place
    rw [shows_iff hneedle]
    simp [Taken]
  simp only [hshows] at hspec
  unfold recoverQuote
  rw [if_neg hneedle]
  cases hgather : gatherPlaces text quote visible []
      (occurrencesFrom (withoutLineFeeds quote) 0 (flattened text)) with
  | none =>
      rw [hgather] at hspec
      rcases hspec with ⟨a, b, hne, ha, hb⟩
      constructor
      · intro h
        cases h
      · rintro ⟨_, _, honly⟩
        have hstart := honly a.1 a.2 ha
        have hstart' := honly b.1 b.2 hb
        exact absurd (Prod.ext (hstart.1.trans hstart'.1.symm) (hstart.2.trans hstart'.2.symm)) hne
  | some found =>
      rw [hgather] at hspec
      rcases hspec with ⟨hone, hfound⟩
      match found, hone, hfound with
      | [], _, hfound =>
          constructor
          · intro h
            cases h
          · rintro ⟨_, hshows, _⟩
            cases (hfound (located.start, located.stop)).mpr hshows
      | [(start, stop)], _, hfound =>
          constructor
          · intro h
            cases h
            refine ⟨rfl, (hfound (start, stop)).mp List.mem_cons_self, ?_⟩
            intro start' stop' hshows
            have hmem := List.mem_singleton.mp ((hfound (start', stop')).mpr hshows)
            exact Prod.mk.inj hmem
          · rintro ⟨hquote, hshows, _⟩
            have hmem := (hfound (located.start, located.stop)).mpr hshows
            have heq := Prod.mk.inj (List.mem_singleton.mp hmem)
            show some (⟨slice text start stop, start, stop⟩ : LocatedQuote) = some located
            rw [← heq.1, ← heq.2, ← hquote]
      | _ :: _ :: _, hone, _ =>
          simp at hone

theorem withoutLineFeeds_ne_nil (h : isBlankText quote = false) : withoutLineFeeds quote ≠ [] := by
  intro hnil
  have hall : isBlankText quote = true := by
    unfold isBlankText
    rw [List.all_eq_true]
    intro c hmem
    have hfeed := List.filter_eq_nil_iff.mp hnil c hmem
    have hc : c = '\n' := by
      simpa using hfeed
    rw [hc]
    decide
  rw [h] at hall
  cases hall

theorem exactQuote_spec (hquote : quote ≠ []) :
    match exactQuote text quote visible with
    | some located => StandsExact text quote visible ∧
        located = ⟨quote, located.start, located.start + quote.length⟩ ∧
        (exists before after, text = before ++ (quote ++ after) ∧ located.start = before.length) ∧
        forall before after, text = before ++ (quote ++ after) -> located.start ≤ before.length
    | none => ¬ StandsExact text quote visible := by
  unfold exactQuote
  cases hcut : cutAt quote text with
  | none =>
      rintro ⟨hinside, _⟩
      exact (cutAt_eq_none hquote).mp hcut hinside
  | some found =>
      rcases found with ⟨before, after⟩
      have hsplit := cutAt_eq_some hcut
      simp only
      by_cases hvisible : isVisible visible quote = true
      · rw [if_pos hvisible]
        refine ⟨⟨⟨before, after, ?_⟩, isVisible_iff.mp hvisible⟩, rfl,
          ⟨before, after, hsplit, rfl⟩, ?_⟩
        · rw [hsplit, List.append_assoc]
        · rintro before' after' rfl
          exact cutAt_le hcut
      · rw [if_neg hvisible]
        rintro ⟨_, hshown⟩
        exact hvisible (isVisible_iff.mpr hshown)

end Resolution

/-- A quote is resolved soundly, and to one place only. -/
theorem resolveEvidenceQuote_resolves (rangeId : String) (quote : List Char)
    (sources : Table String (List Char)) (sentTexts : Table String (List (List Char))) :
    match sources.lookup rangeId with
    | none => resolveEvidenceQuote rangeId quote sources sentTexts = none
    | some text => Resolves text quote ((sentTexts.lookup rangeId).getD [])
        (resolveEvidenceQuote rangeId quote sources sentTexts) := by
  unfold resolveEvidenceQuote
  cases hsource : sources.lookup rangeId with
  | none =>
      rfl
  | some text =>
      simp only
      generalize (sentTexts.lookup rangeId).getD [] = visible
      cases hblank : isBlankText quote with
      | true =>
          rw [if_pos rfl]
          refine ⟨?_, fun _ => rfl, ?_, ?_⟩
          · intro located h
            cases h
          · intro h
            rw [hblank] at h
            cases h
          · intro h
            rw [hblank] at h
            cases h
      | false =>
          rw [if_neg Bool.false_ne_true]
          have hneedle := withoutLineFeeds_ne_nil hblank
          have hquote : quote ≠ [] := by
            rintro rfl
            exact hneedle rfl
          have hexact := @exactQuote_spec text quote visible hquote
          cases hfound : exactQuote text quote visible with
          | some located =>
              rw [hfound] at hexact
              rcases hexact with ⟨hstands, hlocated, ⟨before, after, hsplit, hstart⟩, hfirst⟩
              have hstop : located.stop = located.start + quote.length := by
                rw [hlocated]
              have hquote' : located.quote = quote := by
                rw [hlocated]
              have hslice : slice text located.start located.stop = quote := by
                rw [hstop, hstart, hsplit, slice_eq_take_drop, List.drop_left,
                  Nat.add_sub_cancel_left, List.take_left]
              rw [Option.some_or]
              refine ⟨?_, ?_, ?_, ?_⟩
              · intro located' h
                cases h
                refine ⟨?_, ?_, ?_, ?_, ?_⟩
                · have hpos := List.length_pos_iff.mpr hquote
                  omega
                · rw [hstop, hstart, hsplit, List.length_append, List.length_append]
                  omega
                · rw [hslice, hquote']
                · rw [hquote']
                  exact hstands.2
                · rw [hquote']
                  exact Thinned.refl _ _
              · intro h
                rw [hblank] at h
                cases h
              · intro _ _
                exact ⟨located.start, congrArg some hlocated, hfirst⟩
              · intro _ hnot
                exact absurd hstands hnot
          | none =>
              rw [hfound] at hexact
              rw [Option.none_or]
              refine ⟨?_, ?_, ?_, ?_⟩
              · intro located h
                rcases (recoverQuote_spec hneedle located).mp h with ⟨hslice, hshows, _⟩
                refine ⟨?_, hshows.recovers.inside, hslice, ?_, ?_⟩
                · apply Nat.lt_of_le_of_ne hshows.recovers.ordered
                  intro heq
                  have hothers := hshows.recovers.thinned.others_eq
                  rw [heq, slice_self] at hothers
                  exact hneedle hothers.symm
                · rw [hslice]
                  exact hshows.visible
                · rw [hslice]
                  exact hshows.recovers.thinned
              · intro h
                rw [hblank] at h
                cases h
              · intro _ hstands
                exact absurd hstands hexact
              · intro _ _ located
                exact recoverQuote_spec hneedle located

/-- The quote is left of the interval when line feeds between its first and its last
character are deleted. -/
def ThinnedInside (original quote : List Char) : Prop :=
  exists first last inside inside', original = first :: (inside ++ [last]) ∧
    quote = first :: (inside' ++ [last]) ∧ Thinned '\n' inside inside'

/-- A line feed at the end of a quote is the next one of the text, though a later one
would do as well; and a blank quote is resolved nowhere. -/
theorem quote_at_two_line_feeds :
    resolveEvidenceQuote "r" ['a', 'b', '\n'] ⟨[("r", ['a', '\n', 'b', '\n', '\n'])], by simp⟩
        ⟨[("r", [['a', '\n', 'b', '\n', '\n']])], by simp⟩ =
      some ⟨['a', '\n', 'b', '\n'], 0, 4⟩ ∧
    (ThinnedInside (slice ['a', '\n', 'b', '\n', '\n'] 0 4) ['a', 'b', '\n'] ∧
      ThinnedInside (slice ['a', '\n', 'b', '\n', '\n'] 0 5) ['a', 'b', '\n'] ∧
      Visible [['a', '\n', 'b', '\n', '\n']] (slice ['a', '\n', 'b', '\n', '\n'] 0 5)) ∧
    resolveEvidenceQuote "r" [' '] ⟨[("r", [' '])], by simp⟩ ⟨[("r", [[' ']])], by simp⟩ =
      none := by
  refine ⟨by rfl, ⟨?_, ?_, ?_⟩, by rfl⟩
  · exact ⟨'a', '\n', ['\n', 'b'], ['b'], rfl, rfl, .drop (.keep 'b' .nil)⟩
  · exact ⟨'a', '\n', ['\n', 'b', '\n'], ['b'], rfl, rfl, .drop (.keep 'b' (.drop .nil))⟩
  · exact ⟨_, List.mem_cons_self, List.infix_refl _⟩

end Evidence
end KnowledgeBrain
