import KnowledgeBrain.Llm.Events

/-!
# The event that ends a stream

Both readers look for the line that ends the stream.  The reader of bytes wants
an event break behind it; the reader of the body wants it alone between blank
lines, once its line ends are line feeds.
-/

namespace KnowledgeBrain
namespace Llm

open Foundation
open Chunker (Text trim isWhitespace strLines strLines_append strLines_cons strLines_of_no_feed
  linesInduction AtLineStart mem_strLines exists_trim trim_between)

/-- The first line says that the stream is done. -/
def StartsDone (t : Text) : Prop :=
  (strLines t).head?.bind dataOf = some doneMark

instance (t : Text) : Decidable (StartsDone t) :=
  inferInstanceAs (Decidable (_ = _))

/-- A line says that the stream is done, and a blank line follows. -/
def DoneEvent (body : Text) : Prop :=
  exists before behind, body = before ++ behind ∧ AtLineStart before ∧ StartsDone behind ∧
    lineFeeds <:+: normalized behind

/-- A line says that the stream is done, and a blank line with one kind of line end in front
of it and behind it follows. -/
def Terminated (body : Text) : Prop :=
  exists before behind, body = before ++ behind ∧ AtLineStart before ∧ StartsDone behind ∧
    HoldsBreak behind

def doneLine : Text :=
  "data: [DONE]".toList

/-- Only blanks lie behind the start or the last blank line. -/
def OpensGroup (t : Text) : Prop :=
  exists before front, t = before ++ front ∧ (before = [] ∨ lineFeeds <:+ before) ∧
    forall c, c ∈ front -> isWhitespace c = true

/-- Only blanks lie in front of the next blank line. -/
def ClosesGroup (t : Text) : Prop :=
  exists back behind, t = back ++ behind ∧ lineFeeds <:+ back ∧
    forall c, c ∈ back -> isWhitespace c = true

/-- Between two blank lines stands nothing but the line that ends the stream, written with
one blank behind the colon. -/
def DoneAlone (body : Text) : Prop :=
  doneMark ∈ sseDataPayloads body ∧
    exists x y, normalized body = x ++ (doneLine ++ y) ∧ OpensGroup x ∧ ClosesGroup y

/-!
# The reader of bytes
-/

section Bytes

variable {body left : Text} {events : List Text}

theorem mem_sseDataPayloads {data t : Text} : data ∈ sseDataPayloads t <->
    exists before behind, t = before ++ behind ∧ AtLineStart before ∧
      (strLines behind).head?.bind dataOf = some data := by
  unfold sseDataPayloads
  rw [List.mem_filterMap]
  constructor
  · rintro ⟨line, hline, hdata⟩
    rcases mem_strLines.mp hline with ⟨before, behind, hsplit, hstart, hhead⟩
    refine ⟨before, behind, hsplit, hstart, ?_⟩
    rw [hhead]
    exact hdata
  · rintro ⟨before, behind, hsplit, hstart, hdata⟩
    rcases Option.bind_eq_some_iff.mp hdata with ⟨line, hhead, hline⟩
    exact ⟨line, mem_strLines.mpr ⟨before, behind, hsplit, hstart, hhead⟩, hline⟩

theorem strLines_ne_nil {t : Text} (hne : t ≠ []) : strLines t ≠ [] := by
  induction t using linesInduction with
  | hnil =>
      exact absurd rfl hne
  | hlast t hfeed _ =>
      rw [strLines_of_no_feed hfeed hne]
      exact List.cons_ne_nil _ _
  | hline line t hfeed _ =>
      rw [strLines_cons hfeed]
      exact List.cons_ne_nil _ _

theorem startsDone_append {t : Text} (hstart : AtLineStart t) (hne : t ≠ []) (u : Text) :
    StartsDone (t ++ u) <-> StartsDone t := by
  unfold StartsDone
  rw [strLines_append hstart, List.head?_append_of_ne_nil _ (strLines_ne_nil hne)]

theorem AtLineStart.of_append {x y : Text} (h : AtLineStart (x ++ y)) (hne : y ≠ []) :
    AtLineStart y := by
  rcases h with hnil | hlast
  · exact absurd (List.append_eq_nil_iff.mp hnil).2 hne
  · rw [List.getLast?_append_of_ne_nil x hne] at hlast
    exact Or.inr hlast

theorem not_startsDone_of_suffix {t : Text} (h : t <:+ returnLineFeeds ∨ t <:+ lineFeeds) :
    ¬ StartsDone t := by
  have hall : forall s, s ∈ returnLineFeeds.tails ++ lineFeeds.tails -> ¬ StartsDone s := by
    decide
  apply hall
  rw [List.mem_append, List.mem_tails, List.mem_tails]
  exact h

theorem holdsBreak_append {t : Text} (h : HoldsBreak t) (u : Text) : HoldsBreak (t ++ u) := by
  rcases h with h | h
  · exact Or.inl (h.trans (List.prefix_append t u).isInfix)
  · exact Or.inr (h.trans (List.prefix_append t u).isInfix)

/-- The line is among the events exactly if a break follows it. -/
theorem terminated_iff (h : EventsOf body events left) :
    Terminated body <-> doneMark ∈ sseDataPayloads events.flatten := by
  rw [mem_sseDataPayloads]
  constructor
  · rintro ⟨before, behind, hbody, hstart, hdone, hholds⟩
    rw [h.split] at hbody
    rcases List.append_eq_append_iff.mp hbody with ⟨more, rfl, hleft⟩ | ⟨more, hevents, rfl⟩
    · have hleft' : HoldsBreak left := by
        rw [hleft]
        rcases hholds with hlf | hcrlf
        · exact Or.inl (hlf.trans (List.suffix_append _ _).isInfix)
        · exact Or.inr (hcrlf.trans (List.suffix_append _ _).isInfix)
      exact absurd hleft' h.left_free
    · have hne : more ≠ [] := by
        rintro rfl
        exact h.left_free hholds
      have hmore : AtLineStart more := AtLineStart.of_append (hevents ▸ h.atLineStart) hne
      exact ⟨before, more, hevents, hstart, (startsDone_append hmore hne left).mp hdone⟩
  · rintro ⟨before, behind, hevents, hstart, hdone⟩
    have hne : behind ≠ [] := by
      rintro rfl
      cases hdone
    have hmore : AtLineStart behind := AtLineStart.of_append (hevents ▸ h.atLineStart) hne
    refine ⟨before, behind ++ left, ?_, hstart, (startsDone_append hmore hne left).mpr hdone, ?_⟩
    · rw [h.split, hevents, List.append_assoc]
    · apply holdsBreak_append
      cases hlast : events.getLast? with
      | none =>
          rw [List.getLast?_eq_none_iff.mp hlast] at hevents
          exact absurd (List.append_eq_nil_iff.mp hevents.symm).2 hne
      | some last =>
          rcases List.getLast?_eq_some_iff.mp hlast with ⟨front, rfl⟩
          have hwhole : last <:+ before ++ behind := by
            rw [← hevents, List.flatten_append, List.flatten_singleton]
            exact List.suffix_append _ _
          have hbehind := List.suffix_append before behind
          rcases h.ends last (List.mem_append_right _ List.mem_cons_self) with hends | hends
          · rcases List.suffix_or_suffix_of_suffix (hends.trans hwhole) hbehind with hin | hout
            · exact Or.inl hin.isInfix
            · exact absurd hdone (not_startsDone_of_suffix (Or.inr hout))
          · rcases List.suffix_or_suffix_of_suffix (hends.trans hwhole) hbehind with hin | hout
            · exact Or.inr hin.isInfix
            · exact absurd hdone (not_startsDone_of_suffix (Or.inl hout))

end Bytes

/-!
# Line ends
-/

theorem normalized_cons {c : Char} {t : Text} (h : ¬ ['\r', '\n'] <+: c :: t) :
    normalized (c :: t) = c :: normalized t := by
  unfold normalized
  rw [replaceFrom, if_neg fun hleads => h (List.isPrefixOf_iff_prefix.mp hleads)]

/-- A break is a blank line once the line ends are line feeds. -/
theorem lineFeeds_normalized {t : Text} (h : HoldsBreak t) : lineFeeds <:+: normalized t := by
  induction hlength : t.length using Nat.strongRecOn generalizing t with
  | _ n ih =>
      cases t with
      | nil =>
          rcases h with h | h
          · cases List.infix_nil.mp h
          · cases List.infix_nil.mp h
      | cons c t =>
          by_cases hleads : ['\r', '\n'] <+: c :: t
          · rcases hleads with ⟨t', ht⟩
            rw [← ht]
            rw [← ht] at h hlength
            show lineFeeds <:+: '\n' :: normalized t'
            have hshort : t'.length < n := by
              rw [← hlength, List.length_append]
              exact Nat.lt_add_of_pos_left (by decide)
            have hrest : HoldsBreak t' -> lineFeeds <:+: '\n' :: normalized t' :=
              fun hholds => List.infix_cons (ih t'.length hshort hholds rfl)
            have hfeed : ['\n'] <+: t' -> lineFeeds <:+: '\n' :: normalized t' := by
              rintro ⟨t'', rfl⟩
              rw [List.singleton_append, normalized_cons (by simp)]
              exact (List.prefix_append lineFeeds _).isInfix
            rcases h with h | h
            · rcases List.infix_cons_iff.mp h with h | h
              · simp [lineFeeds] at h
              · rcases List.infix_cons_iff.mp h with h | h
                · exact hfeed (List.cons_prefix_cons.mp h).2
                · exact hrest (Or.inl h)
            · rcases List.infix_cons_iff.mp h with h | h
              · rcases (List.cons_prefix_cons.mp (List.cons_prefix_cons.mp h).2).2 with ⟨t'', rfl⟩
                exact (List.prefix_append lineFeeds _).isInfix
              · rcases List.infix_cons_iff.mp h with h | h
                · simp [returnLineFeeds] at h
                · exact hrest (Or.inr h)
          · rw [normalized_cons hleads]
            have hshort : t.length < n := by
              rw [← hlength]
              simp
            have hrest : HoldsBreak t -> lineFeeds <:+: c :: normalized t :=
              fun hholds => List.infix_cons (ih t.length hshort hholds rfl)
            rcases h with h | h
            · rcases List.infix_cons_iff.mp h with h | h
              · rcases List.cons_prefix_cons.mp h with ⟨rfl, t', rfl⟩
                rw [List.singleton_append, normalized_cons (by simp)]
                exact (List.prefix_append lineFeeds _).isInfix
              · exact hrest (Or.inl h)
            · rcases List.infix_cons_iff.mp h with h | h
              · exact absurd ((List.prefix_append ['\r', '\n'] ['\r', '\n']).trans h) hleads
              · exact hrest (Or.inr h)

theorem Terminated.doneEvent {body : Text} (h : Terminated body) : DoneEvent body := by
  rcases h with ⟨before, behind, hbody, hstart, hdone, hholds⟩
  exact ⟨before, behind, hbody, hstart, hdone, lineFeeds_normalized hholds⟩

/-!
# The reader of the body
-/

section Groups

variable {t : Text}

theorem cutBlankLine_some {event rest : Text} (h : cutBlankLine t = some (event, rest)) :
    exists before, event = before ++ lineFeeds ∧ cutAt lineFeeds t = some (before, rest) := by
  rcases Option.map_eq_some_iff.mp h with ⟨⟨before, behind⟩, hcut, heq⟩
  cases heq
  exact ⟨before, rfl, hcut⟩

theorem cutBlankLine_split {event rest : Text} (h : cutBlankLine t = some (event, rest)) :
    t = event ++ rest := by
  rcases cutBlankLine_some h with ⟨before, rfl, hcut⟩
  rw [List.append_assoc]
  exact cutAt_eq_some hcut

theorem cutBlankLine_cutting : Cutting cutBlankLine where
  shorter := by
    intro t rest event h
    rcases cutBlankLine_some h with ⟨before, rfl, hcut⟩
    have hlength := length_cutAt hcut
    have htwo : lineFeeds.length = 2 := rfl
    omega
  append := by
    intro t rest event more h
    rcases cutBlankLine_some h with ⟨before, rfl, hcut⟩
    exact Option.map_eq_some_iff.mpr ⟨(before, rest ++ more), cutAt_append more hcut, rfl⟩

theorem cutBlankLine_le {x y event rest : Text}
    (h : cutBlankLine (x ++ (lineFeeds ++ y)) = some (event, rest)) :
    event.length ≤ (x ++ lineFeeds).length := by
  rcases cutBlankLine_some h with ⟨before, rfl, hcut⟩
  rw [List.length_append, List.length_append]
  exact Nat.add_le_add_right (cutAt_le hcut) _

theorem exists_cutBlankLine (x y : Text) :
    exists event rest, cutBlankLine (x ++ (lineFeeds ++ y)) = some (event, rest) := by
  cases hcut : cutAt lineFeeds (x ++ (lineFeeds ++ y)) with
  | none =>
      have hfree := (cutAt_eq_none (by decide)).mp hcut
      exact absurd ⟨x, y, List.append_assoc _ _ _⟩ hfree
  | some found =>
      exact ⟨found.1 ++ lineFeeds, found.2, Option.map_eq_some_iff.mpr ⟨found, hcut, rfl⟩⟩

/-- What lies behind a blank line opens a group where the whole does. -/
theorem OpensGroup.of_append {event x : Text} (h : OpensGroup (event ++ x)) : OpensGroup x := by
  rcases h with ⟨before, front, hsplit, hbefore, hblank⟩
  rcases List.append_eq_append_iff.mp hsplit with ⟨more, rfl, hx⟩ | ⟨more, rfl, rfl⟩
  · have hmore : more = [] ∨ more = ['\n'] ∨ lineFeeds <:+ more := by
      rcases hbefore with hnil | hends
      · exact Or.inl (List.append_eq_nil_iff.mp hnil).2
      · rcases List.suffix_or_suffix_of_suffix hends (List.suffix_append event more) with
          hin | hout
        · exact Or.inr (Or.inr hin)
        · rw [← List.mem_tails] at hout
          have htails : lineFeeds.tails = [lineFeeds, ['\n'], []] := rfl
          rw [htails] at hout
          simp only [List.mem_cons, List.not_mem_nil, or_false] at hout
          rcases hout with rfl | rfl | rfl
          · exact Or.inr (Or.inr (List.suffix_refl _))
          · exact Or.inr (Or.inl rfl)
          · exact Or.inl rfl
    rcases hmore with hnil | hfeed | hends
    · exact ⟨[], front, by rw [hx, hnil], Or.inl rfl, hblank⟩
    · refine ⟨[], more ++ front, hx, Or.inl rfl, ?_⟩
      intro c hc
      rcases List.mem_append.mp hc with hc | hc
      · rw [hfeed] at hc
        rw [List.mem_singleton.mp hc]
        rfl
      · exact hblank c hc
    · exact ⟨more, front, hx, Or.inr hends, hblank⟩
  · exact ⟨[], x, rfl, Or.inl rfl, fun c hc => hblank c (List.mem_append_right _ hc)⟩

theorem last_doneLine : doneLine.getLast? = some ']' := by
  decide

/-- A blank line behind the line that ends the stream lies behind all of it. -/
theorem lineFeeds_suffix {x y : Text} (h : lineFeeds <:+ x ++ (doneLine ++ y)) :
    lineFeeds <:+ y := by
  have hy : y <:+ x ++ (doneLine ++ y) := by
    rw [← List.append_assoc]
    exact List.suffix_append _ _
  rcases List.suffix_or_suffix_of_suffix h hy with hin | ⟨front, hout⟩
  · exact hin
  · rcases h with ⟨before, hsplit⟩
    rw [← hout, ← List.append_assoc, ← List.append_assoc x] at hsplit
    have hcancel : before ++ front = x ++ doneLine := List.append_cancel_right hsplit
    by_cases hfront : front = []
    · rw [hfront] at hout
      exact ⟨[], hout.symm⟩
    · have hlast := congrArg List.getLast? hcancel
      rw [List.getLast?_append_of_ne_nil _ hfront, List.getLast?_append_of_ne_nil _ (by decide),
        last_doneLine] at hlast
      have hmem : ']' ∈ lineFeeds := by
        rw [← hout]
        exact List.mem_append_left _ (List.mem_of_getLast? hlast)
      exact absurd hmem (by decide)

theorem trim_group {front back : Text} (hfront : forall c, c ∈ front -> isWhitespace c = true)
    (hback : forall c, c ∈ back -> isWhitespace c = true) :
    trim (front ++ (doneLine ++ back)) = doneLine :=
  @trim_between 'd' ']' front "ata: [DONE".toList back hfront (by decide) (by decide) hback

/-- The first blank line, if it lies behind the opening of the group, ends the group. -/
theorem trim_first_event {x d blanks behind rest : Text} (hopen : OpensGroup x) (hd : d ≠ [])
    (hblanks : forall c, c ∈ blanks ++ lineFeeds -> isWhitespace c = true)
    (hcut : cutBlankLine (x ++ (doneLine ++ ((blanks ++ lineFeeds) ++ behind))) =
      some (x ++ d, rest)) : trim (x ++ d) = doneLine := by
  have hpos := List.length_pos_iff.mpr hd
  have hx : forall c, c ∈ x -> isWhitespace c = true := by
    rcases hopen with ⟨before, front, rfl, hbefore, hfront⟩
    rcases hbefore with rfl | ⟨outer, rfl⟩
    · exact hfront
    · have hwhole : ((outer ++ lineFeeds) ++ front) ++
          (doneLine ++ ((blanks ++ lineFeeds) ++ behind)) = outer ++ (lineFeeds ++ (front ++
            (doneLine ++ ((blanks ++ lineFeeds) ++ behind)))) := by
        simp
      rw [hwhole] at hcut
      have hle := cutBlankLine_le hcut
      rw [List.length_append, @List.length_append _ _ front] at hle
      omega
  have hsplit := cutBlankLine_split hcut
  rw [List.append_assoc x d] at hsplit
  rcases List.append_eq_append_iff.mp (List.append_cancel_left hsplit) with
    ⟨b, rfl, hrest⟩ | ⟨inner, hline, _⟩
  · have hwhole : x ++ (doneLine ++ ((blanks ++ lineFeeds) ++ behind)) =
        (x ++ (doneLine ++ blanks)) ++ (lineFeeds ++ behind) := by
      simp
    rw [hwhole] at hcut
    have hle := cutBlankLine_le hcut
    have hshort : b.length ≤ (blanks ++ lineFeeds).length := by
      simp only [List.length_append] at hle ⊢
      omega
    have hin : b <+: blanks ++ lineFeeds :=
      List.prefix_of_prefix_length_le (hrest ▸ List.prefix_append b rest)
        (List.prefix_append _ behind) hshort
    exact trim_group hx fun c hc => hblanks c (hin.subset hc)
  · rcases cutBlankLine_some hcut with ⟨before, hevent, _⟩
    have hlast := congrArg List.getLast? hevent
    rw [List.getLast?_append_of_ne_nil _ hd, List.getLast?_append_of_ne_nil _ (by decide)] at hlast
    have hmem : '\n' ∈ doneLine := by
      rw [hline]
      exact List.mem_append_left _ (List.mem_of_getLast? hlast)
    exact absurd hmem (by decide)

/-- The line that ends the stream stands alone in an event of the body. -/
theorem exists_event_of_group {x y : Text} (hopen : OpensGroup x) (hclose : ClosesGroup y) :
    exists event, event ∈ (eventsOf cutBlankLine (x ++ (doneLine ++ y))).1 ∧
      trim event = doneLine := by
  induction hlength : x.length using Nat.strongRecOn generalizing x with
  | _ n ih =>
      rcases hclose with ⟨back, behind, rfl, ⟨blanks, rfl⟩, hback⟩
      have hwhole : x ++ (doneLine ++ ((blanks ++ lineFeeds) ++ behind)) =
          (x ++ (doneLine ++ blanks)) ++ (lineFeeds ++ behind) := by
        simp
      rcases exists_cutBlankLine (x ++ (doneLine ++ blanks)) behind with ⟨event, rest, hcut⟩
      rw [← hwhole] at hcut
      have hsplit := cutBlankLine_split hcut
      rw [eventsOf_some cutBlankLine_cutting.shorter hcut]
      -- The group lies behind the first event, or the first event is the group.
      have hbehind : forall x', x = event ++ x' -> exists found,
          found ∈ event :: (eventsOf cutBlankLine rest).1 ∧ trim found = doneLine := by
        rintro x' rfl
        have hpos := cutBlankLine_cutting.shorter hcut
        rw [hsplit, List.length_append] at hpos
        rw [List.append_assoc] at hsplit
        rw [List.length_append] at hlength
        rcases ih x'.length (by omega) hopen.of_append rfl with ⟨found, hfound, htrim⟩
        rw [List.append_cancel_left hsplit] at hfound
        exact ⟨found, List.mem_cons_of_mem _ hfound, htrim⟩
      rcases List.append_eq_append_iff.mp hsplit with ⟨d, rfl, hrest⟩ | ⟨x', hx, _⟩
      · by_cases hd : d = []
        · exact hbehind [] (by rw [hd, List.append_nil, List.append_nil])
        · exact ⟨x ++ d, List.mem_cons_self, trim_first_event hopen hd hback hcut⟩
      · exact hbehind x' hx

theorem ends_of_mem_events (t : Text) :
    forall event, event ∈ (eventsOf cutBlankLine t).1 -> lineFeeds <:+ event := by
  apply @forall_mem_eventsOf _ _ _ cutBlankLine_cutting.shorter (lineFeeds <:+ ·)
  intro t rest event hcut
  rcases cutBlankLine_some hcut with ⟨before, rfl, _⟩
  exact List.suffix_append _ _

/-- An event that is the line that ends the stream, between blanks, is a group. -/
theorem group_of_event {event : Text} (hevent : event ∈ (eventsOf cutBlankLine t).1)
    (htrim : trim event = doneLine) :
    exists x y, t = x ++ (doneLine ++ y) ∧ OpensGroup x ∧ ClosesGroup y := by
  have hends := ends_of_mem_events t
  have hsplit := eventsOf_split cutBlankLine_cutting.shorter cutBlankLine_split t
  rcases exists_trim event with ⟨front, back, hparts, hfront, hback⟩
  rw [htrim] at hparts
  have hlast := hends event hevent
  rcases List.append_of_mem hevent with ⟨earlier, later, hevents⟩
  have hbefore : earlier.flatten = [] ∨ lineFeeds <:+ earlier.flatten := by
    cases hlast : earlier.getLast? with
    | none =>
        rw [List.getLast?_eq_none_iff.mp hlast]
        exact Or.inl rfl
    | some last =>
        rcases List.getLast?_eq_some_iff.mp hlast with ⟨first, rfl⟩
        right
        rw [List.flatten_append, List.flatten_singleton]
        apply (hends last _).trans (List.suffix_append _ _)
        rw [hevents]
        simp
  refine ⟨earlier.flatten ++ front, back ++ (later.flatten ++ (eventsOf cutBlankLine t).2), ?_,
    ⟨earlier.flatten, front, rfl, hbefore, hfront⟩, ⟨back, _, rfl, ?_, hback⟩⟩
  · apply hsplit.trans
    rw [hevents, List.flatten_append, List.flatten_cons, hparts]
    simp
  · rw [hparts] at hlast
    exact lineFeeds_suffix hlast

theorem completeTerminal_iff (body : Text) : completeTerminal body = true <->
    exists x y, normalized body = x ++ (doneLine ++ y) ∧ OpensGroup x ∧ ClosesGroup y := by
  unfold completeTerminal splitInclusive
  rw [List.any_eq_true]
  constructor
  · rintro ⟨event, hevent, hdone⟩
    rw [Bool.and_eq_true, List.isSuffixOf_iff_suffix, decide_eq_true_eq] at hdone
    rcases List.mem_append.mp hevent with hevent | hleft
    · exact group_of_event hevent hdone.2
    · have hfree := cut_left cutBlankLine_cutting.shorter (normalized body)
      have hnone := (cutAt_eq_none (by decide)).mp (Option.map_eq_none_iff.mp hfree)
      split at hleft
      · cases hleft
      · rw [List.mem_singleton.mp hleft] at hdone
        exact absurd hdone.1.isInfix hnone
  · rintro ⟨x, y, hsplit, hopen, hclose⟩
    rcases exists_event_of_group hopen hclose with ⟨event, hevent, htrim⟩
    rw [← hsplit] at hevent
    refine ⟨event, List.mem_append_left _ hevent, ?_⟩
    rw [Bool.and_eq_true, List.isSuffixOf_iff_suffix, decide_eq_true_eq]
    exact ⟨ends_of_mem_events _ event hevent, htrim⟩

end Groups

/-!
# The two readers

Where every payload parses, both readers come to the same turn.  They report
the end of the stream together exactly for the bodies in which the line that
ends it has the form that each of them looks for.
-/

/-- Every payload is JSON, but for the one that ends the stream. -/
def Parses (parse : Parse) (payloads : List Text) : Prop :=
  forall data, data ∈ payloads -> data ≠ doneMark -> exists v, parse data = .ok v

/-- The bytes of the body, read in pieces. -/
structure ReadsOf (body : Text) (pieces : List (List UInt8)) : Prop where
  nonempty : forall piece, piece ∈ pieces -> piece ≠ []
  bytes : pieces.flatten = utf8 body

/-- The readers agree on a body. -/
structure ReadersAgree (parse : Parse) (utf8Error : List UInt8 -> String) (body : Text) :
    Prop where
  reads : forall pieces pieces', ReadsOf body pieces -> ReadsOf body pieces' ->
    consumeSseRead parse utf8Error (pieces.map .ok) =
      consumeSseRead parse utf8Error (pieces'.map .ok)
  complete : looksLikeSse body = true -> Parses parse (sseDataPayloads body) ->
    forall pieces, ReadsOf body pieces ->
      ((exists t, consumeSseRead parse utf8Error (pieces.map .ok) = .ok t) <->
        exists r, collectCompletion parse body = .ok r ∧ r.doneSeen = true)
  turn : looksLikeSse body = true -> Parses parse (sseDataPayloads body) ->
    forall pieces t, ReadsOf body pieces ->
      consumeSseRead parse utf8Error (pieces.map .ok) = .ok t -> collectChatTurn parse body = .ok t
  terminal : looksLikeSse body = true -> Parses parse (sseDataPayloads body) ->
    forall pieces, ReadsOf body pieces ->
      ((exists t, consumeSseRead parse utf8Error (pieces.map .ok) = .ok t) <-> DoneEvent body)

section Agreement

variable {parse : Parse} {utf8Error : List UInt8 -> String} {body : Text}
variable {pieces : List (List UInt8)}

theorem exists_readsOf (body : Text) : exists pieces, ReadsOf body pieces := by
  by_cases hbytes : utf8 body = []
  · refine ⟨[], ?_, hbytes.symm⟩
    intro piece hpiece
    cases hpiece
  · refine ⟨[utf8 body], ?_, by simp⟩
    intro piece hpiece
    rw [List.mem_singleton.mp hpiece]
    exact hbytes

theorem exists_collectPayloads {payloads : List Text} (hparses : Parses parse payloads)
    (c : Collected) : exists c', collectPayloads parse payloads c = .ok c' := by
  induction payloads generalizing c with
  | nil =>
      exact ⟨c, rfl⟩
  | cons data payloads ih =>
      rw [collectPayloads]
      by_cases hdone : data = doneMark
      · rw [if_pos hdone]
        exact ⟨c, rfl⟩
      · rw [if_neg hdone]
        rcases hparses data List.mem_cons_self hdone with ⟨v, hv⟩
        have happly : applySseData parse c data = .ok (applyValue c v) := by
          rw [applySseData, hv]
        rw [happly]
        exact ih (fun data h => hparses data (List.mem_cons_of_mem _ h)) (applyValue c v)

theorem exists_scanPayloads {payloads : List Text} (hparses : Parses parse payloads)
    (id : Option String) :
    exists id', scanPayloads parse payloads id = .ok (decide (doneMark ∈ payloads), id') := by
  induction payloads generalizing id with
  | nil =>
      exact ⟨id, rfl⟩
  | cons data payloads ih =>
      rw [scanPayloads]
      by_cases hdone : data = doneMark
      · rw [if_pos hdone]
        exact ⟨id, by simp [hdone]⟩
      · rw [if_neg hdone]
        rcases hparses data List.mem_cons_self hdone with ⟨v, hv⟩
        have hmem : decide (doneMark ∈ data :: payloads) = decide (doneMark ∈ payloads) := by
          simp [Ne.symm hdone]
        rw [hv, hmem]
        exact ih (fun data h => hparses data (List.mem_cons_of_mem _ h)) _

/-- The reader of bytes collects the payloads of the events, up to the end of the stream. -/
theorem consumeSseRead_text (hreads : ReadsOf body pieces) {events : List Text} {left : Text}
    (h : EventsOf body events left) :
    consumeSseRead parse utf8Error (pieces.map .ok) =
      match collectPayloads parse (sseDataPayloads events.flatten) Collected.start with
      | .error e => .error e
      | .ok c =>
          if doneMark ∈ sseDataPayloads events.flatten then .ok c.finished
          else .error (missingDone (utf8 body).length events.length) := by
  rw [consumeSseRead_eq parse utf8Error hreads.nonempty, hreads.bytes, h.bytes,
    takeEvents_utf8, sseDataPayloads_flatten h.ends, takePayloads_eq]
  cases collectPayloads parse (events.flatMap sseDataPayloads) Collected.start with
  | error e =>
      rfl
  | ok c =>
      by_cases hdone : doneMark ∈ events.flatMap sseDataPayloads
      · simp only [if_pos hdone]
        rfl
      · simp only [if_neg hdone]
        show Except.error (missingDone _ (0 + events.length)) = _
        rw [Nat.zero_add]

theorem sseDataPayloads_events {events : List Text} {left : Text} (h : EventsOf body events left) :
    sseDataPayloads body = sseDataPayloads events.flatten ++ sseDataPayloads left := by
  conv_lhs => rw [h.split]
  exact sseDataPayloads_append h.atLineStart left

theorem consume_ok_iff (hparses : Parses parse (sseDataPayloads body))
    (hreads : ReadsOf body pieces) :
    (exists t, consumeSseRead parse utf8Error (pieces.map .ok) = .ok t) <-> Terminated body := by
  rcases exists_eventsOf body with ⟨events, left, h⟩
  have hevents : Parses parse (sseDataPayloads events.flatten) := by
    intro data hdata
    apply hparses data
    rw [sseDataPayloads_events h]
    exact List.mem_append_left _ hdata
  rcases exists_collectPayloads hevents Collected.start with ⟨c, hc⟩
  rw [consumeSseRead_text hreads h, hc, terminated_iff h]
  by_cases hdone : doneMark ∈ sseDataPayloads events.flatten
  · simp only [hdone]
    exact ⟨fun _ => trivial, fun _ => ⟨_, rfl⟩⟩
  · simp only [hdone]
    constructor
    · rintro ⟨t, ht⟩
      cases ht
    · exact False.elim

theorem collectChatTurn_of_consume (hsse : looksLikeSse body = true) {t : ChatTurn}
    (hreads : ReadsOf body pieces)
    (ht : consumeSseRead parse utf8Error (pieces.map .ok) = .ok t) :
    collectChatTurn parse body = .ok t := by
  rcases exists_eventsOf body with ⟨events, left, h⟩
  rw [consumeSseRead_text hreads h] at ht
  cases hc : collectPayloads parse (sseDataPayloads events.flatten) Collected.start with
  | error e =>
      rw [hc] at ht
      cases ht
  | ok c =>
      rw [hc] at ht
      by_cases hdone : doneMark ∈ sseDataPayloads events.flatten
      · simp only [if_pos hdone] at ht
        unfold collectChatTurn
        rw [if_pos hsse, sseDataPayloads_events h, collectPayloads_append parse hdone, hc]
        exact ht
      · simp only [if_neg hdone] at ht
        cases ht

/-- The reader of the body sees the end where the line that ends the stream stands alone. -/
theorem doneSeen_iff (hsse : looksLikeSse body = true)
    (hparses : Parses parse (sseDataPayloads body)) :
    (exists r, collectCompletion parse body = .ok r ∧ r.doneSeen = true) <-> DoneAlone body := by
  rcases exists_collectPayloads hparses Collected.start with ⟨c, hc⟩
  rcases exists_scanPayloads hparses none with ⟨id, hid⟩
  have hturn : collectChatTurn parse body = .ok c.finished := by
    unfold collectChatTurn
    rw [if_pos hsse, hc]
    rfl
  have hresult : exists r, collectCompletion parse body = .ok r ∧
      r.doneSeen = (decide (doneMark ∈ sseDataPayloads body) && completeTerminal body) := by
    unfold collectCompletion
    simp only [hturn, hsse, hid]
    exact ⟨_, rfl, rfl⟩
  rcases hresult with ⟨r, hr, hseen⟩
  have hdone : r.doneSeen = true <-> DoneAlone body := by
    rw [hseen, Bool.and_eq_true, decide_eq_true_eq, completeTerminal_iff]
    exact Iff.rfl
  constructor
  · rintro ⟨r', hr', hseen'⟩
    rw [hr] at hr'
    cases hr'
    exact hdone.mp hseen'
  · intro halone
    exact ⟨r, hr, hdone.mpr halone⟩

end Agreement

/-- Wherever a blank line follows a line that ends the stream, one with the same line end on
both sides follows such a line, and it stands alone; where it stands alone, a blank line
follows. -/
def OneForm (body : Text) : Prop :=
  (DoneEvent body -> Terminated body ∧ DoneAlone body) ∧ (DoneAlone body -> DoneEvent body)

/-- The readers agree exactly on the bodies that end the stream in the form both look for. -/
theorem readersAgree_iff (parse : Parse) (utf8Error : List UInt8 -> String) (body : Text) :
    ReadersAgree parse utf8Error body <->
      (looksLikeSse body = true -> Parses parse (sseDataPayloads body) -> OneForm body) := by
  constructor
  · intro hagree hsse hparses
    rcases exists_readsOf body with ⟨pieces, hreads⟩
    have hconsume := @consume_ok_iff parse utf8Error body pieces hparses hreads
    have hterminal := hagree.terminal hsse hparses pieces hreads
    have hcomplete := hagree.complete hsse hparses pieces hreads
    rw [doneSeen_iff hsse hparses] at hcomplete
    constructor
    · intro hevent
      have hok := hterminal.mpr hevent
      exact ⟨hconsume.mp hok, hcomplete.mp hok⟩
    · intro halone
      exact hterminal.mp (hcomplete.mpr halone)
  · intro hform
    constructor
    · intro pieces pieces' hreads hreads'
      rw [consumeSseRead_eq parse utf8Error hreads.nonempty,
        consumeSseRead_eq parse utf8Error hreads'.nonempty, hreads.bytes, hreads'.bytes]
    · intro hsse hparses pieces hreads
      rcases hform hsse hparses with ⟨hevent, halone⟩
      rw [consume_ok_iff hparses hreads, doneSeen_iff hsse hparses]
      constructor
      · intro hterminated
        exact (hevent hterminated.doneEvent).2
      · intro hdone
        exact (hevent (halone hdone)).1
    · intro hsse _ pieces t hreads ht
      exact collectChatTurn_of_consume hsse hreads ht
    · intro hsse hparses pieces hreads
      rw [consume_ok_iff hparses hreads]
      constructor
      · exact Terminated.doneEvent
      · intro hdone
        exact ((hform hsse hparses).1 hdone).1

/-- A parser that knows the empty object. -/
def emptyObjectOnly : Parse := fun data =>
  if data = "\x7b\x7d".toList then .ok (.object []) else .error "expected value"

/-- No blank stands behind the colon: the reader of bytes completes, the other does not see
the end. -/
def unspacedDone : Text :=
  "data: \x7b\x7d\n\ndata:[DONE]\n\n".toList

theorem unspacedDone_disagrees :
    ¬ ReadersAgree emptyObjectOnly (fun _ => "invalid utf-8 sequence") unspacedDone := by
  intro hagree
  have hparses : Parses emptyObjectOnly (sseDataPayloads unspacedDone) := by
    have hpayloads : sseDataPayloads unspacedDone = ["\x7b\x7d".toList, doneMark] := by decide
    rw [hpayloads]
    intro data hdata hne
    rcases List.mem_cons.mp hdata with rfl | hdata
    · exact ⟨.object [], rfl⟩
    · exact absurd (List.mem_singleton.mp hdata) hne
  have hsse : looksLikeSse unspacedDone = true := by decide
  have hterminated : Terminated unspacedDone := by
    refine ⟨"data: \x7b\x7d\n\n".toList, "data:[DONE]\n\n".toList, by decide, Or.inr (by decide),
      by decide, Or.inl ⟨"data:[DONE]".toList, [], by decide⟩⟩
  have hseen : completeTerminal unspacedDone = false := by decide
  rcases exists_readsOf unspacedDone with ⟨pieces, hreads⟩
  have hseen' := (hagree.complete hsse hparses pieces hreads).mp
    ((consume_ok_iff hparses hreads).mpr hterminated)
  have halone := (doneSeen_iff hsse hparses).mp hseen'
  rw [(completeTerminal_iff unspacedDone).mpr halone.2] at hseen
  cases hseen

end Llm
end KnowledgeBrain
