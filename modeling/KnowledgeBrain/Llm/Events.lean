import KnowledgeBrain.Llm.Sse

/-!
# Events of a stream

What the reader of bytes makes of a stream depends on its bytes and not on its
reads.  The events of an encoded text are slices of the text that end with a
blank line, and what is left holds none.
-/

namespace KnowledgeBrain
namespace Llm

open Foundation
open Chunker (Text AtLineStart strLines strLines_append)

/-!
# Event breaks
-/

section Breaks

variable {pattern t more : List UInt8} {n : Nat}

theorem position_append (h : position pattern t = some n) :
    position pattern (t ++ more) = some n := by
  unfold position at h ⊢
  rcases Option.map_eq_some_iff.mp h with ⟨⟨before, behind⟩, hcut, rfl⟩
  rw [cutAt_append more hcut]
  rfl

theorem position_le (h : position pattern t = some n) : n + pattern.length ≤ t.length := by
  unfold position at h
  rcases Option.map_eq_some_iff.mp h with ⟨⟨before, behind⟩, hcut, rfl⟩
  rw [cutAt_eq_some hcut, List.length_append, List.length_append]
  show before.length + pattern.length ≤ before.length + (pattern.length + behind.length)
  omega

theorem lt_of_position_append (hpattern : pattern ≠ []) (hnone : position pattern t = none)
    (h : position pattern (t ++ more) = some n) : t.length < n + pattern.length := by
  unfold position at hnone h
  rcases Option.map_eq_some_iff.mp h with ⟨⟨before, behind⟩, hcut, rfl⟩
  by_contra hle
  rcases cutAt_of_append hpattern hcut (Nat.le_of_not_lt hle) with ⟨inside, hinside, _⟩
  rw [hinside] at hnone
  cases hnone

theorem findEventBreak_append (h : findEventBreak t = some n) :
    findEventBreak (t ++ more) = some n := by
  unfold findEventBreak at h ⊢
  cases hlf : position feeds t with
  | some a =>
      have hlf' := @position_append feeds t more a hlf
      cases hcrlf : position returnFeeds t with
      | some b =>
          rw [hlf, hcrlf] at h
          rw [hlf', position_append hcrlf]
          exact h
      | none =>
          rw [hlf, hcrlf] at h
          rw [hlf']
          cases hcrlf' : position returnFeeds (t ++ more) with
          | none =>
              exact h
          | some b =>
              have hle := position_le hlf
              have hlt := lt_of_position_append (by decide) hcrlf hcrlf'
              have hn : a + 1 = n := Option.some.inj h
              have hmin : min (a + 1) (b + 3) = n := by
                rw [Nat.min_eq_left, hn]
                show a + 1 ≤ b + 3
                have hfeeds : feeds.length = 2 := rfl
                have hreturns : returnFeeds.length = 4 := rfl
                omega
              exact congrArg some hmin
  | none =>
      cases hcrlf : position returnFeeds t with
      | none =>
          rw [hlf, hcrlf] at h
          cases h
      | some b =>
          rw [hlf, hcrlf] at h
          rw [position_append hcrlf]
          cases hlf' : position feeds (t ++ more) with
          | none =>
              exact h
          | some a =>
              have hle := position_le hcrlf
              have hlt := lt_of_position_append (by decide) hlf hlf'
              have hn : b + 3 = n := Option.some.inj h
              have hmin : min (a + 1) (b + 3) = n := by
                rw [Nat.min_eq_right, hn]
                have hfeeds : feeds.length = 2 := rfl
                have hreturns : returnFeeds.length = 4 := rfl
                omega
              exact congrArg some hmin

theorem findEventBreak_lt (h : findEventBreak t = some n) : n < t.length := by
  unfold findEventBreak at h
  have hfeeds : feeds.length = 2 := rfl
  have hreturns : returnFeeds.length = 4 := rfl
  cases hlf : position feeds t with
  | some a =>
      have hle := position_le hlf
      cases hcrlf : position returnFeeds t with
      | some b =>
          rw [hlf, hcrlf] at h
          have hn : min (a + 1) (b + 3) = n := Option.some.inj h
          omega
      | none =>
          rw [hlf, hcrlf] at h
          have hn : a + 1 = n := Option.some.inj h
          omega
  | none =>
      cases hcrlf : position returnFeeds t with
      | some b =>
          have hle := position_le hcrlf
          rw [hlf, hcrlf] at h
          have hn : b + 3 = n := Option.some.inj h
          omega
      | none =>
          rw [hlf, hcrlf] at h
          cases h

end Breaks

theorem drainEvent_cutting : Cutting drainEvent where
  shorter := by
    intro t rest event h
    rcases Option.map_eq_some_iff.mp h with ⟨idx, hbreak, heq⟩
    cases heq
    have hlt := findEventBreak_lt hbreak
    rw [List.length_drop]
    omega
  append := by
    intro t rest event more h
    rcases Option.map_eq_some_iff.mp h with ⟨idx, hbreak, heq⟩
    cases heq
    have hlt := findEventBreak_lt hbreak
    unfold drainEvent
    rw [findEventBreak_append hbreak, Option.map_some, List.take_append_of_le_length hlt,
      List.drop_append_of_le_length hlt]

/-!
# Reads
-/

section Reads

variable (parse : Parse) (utf8Error : List UInt8 -> String)

theorem readLoop_eq {pieces : List (List UInt8)}
    (hpieces : forall piece, piece ∈ pieces -> piece ≠ [])
    (bytesRead : Nat) (state : (Collected × Nat) × List UInt8) :
    readLoop parse utf8Error (pieces.map .ok) bytesRead state =
      match pieces.foldlM (feedPiece drainEvent (takeEvent parse utf8Error)) state with
      | .ok state => .error (missingDone (bytesRead + pieces.flatten.length) state.1.2)
      | .error result => result := by
  induction pieces generalizing bytesRead state with
  | nil =>
      rfl
  | cons piece pieces ih =>
      cases piece with
      | nil =>
          exact absurd rfl (hpieces [] List.mem_cons_self)
      | cons byte bytes =>
          rw [List.map_cons, readLoop, List.foldlM_cons]
          cases feedPiece drainEvent (takeEvent parse utf8Error) state (byte :: bytes) with
          | error result =>
              rfl
          | ok state =>
              have hrest := ih (fun piece h => hpieces piece (List.mem_cons_of_mem _ h))
                (bytesRead + (byte :: bytes).length) state
              rw [Nat.add_assoc, ← List.length_append, ← List.flatten_cons] at hrest
              exact hrest

theorem consumeSseRead_eq {pieces : List (List UInt8)}
    (hpieces : forall piece, piece ∈ pieces -> piece ≠ []) :
    consumeSseRead parse utf8Error (pieces.map .ok) =
      match (eventsOf drainEvent pieces.flatten).1.foldlM (takeEvent parse utf8Error)
        (Collected.start, 0) with
      | .ok state => .error (missingDone pieces.flatten.length state.2)
      | .error result => result := by
  have hwaits : drainEvent ((Collected.start, 0), ([] : List UInt8)).2 = none := rfl
  unfold consumeSseRead
  rw [readLoop_eq parse utf8Error hpieces, feedPieces_eq drainEvent_cutting hwaits, List.nil_append,
    Nat.zero_add]
  cases (eventsOf drainEvent pieces.flatten).1.foldlM (takeEvent parse utf8Error)
    (Collected.start, 0) with
  | ok state =>
      rfl
  | error result =>
      rfl

end Reads

/-!
# Events of an encoded text
-/

def lineFeeds : Text :=
  ['\n', '\n']

def returnLineFeeds : Text :=
  ['\r', '\n', '\r', '\n']

/-- The break that ends an event of the reader of bytes. -/
def EndsEvent (t : Text) : Prop :=
  lineFeeds <:+ t ∨ returnLineFeeds <:+ t

def HoldsBreak (t : Text) : Prop :=
  lineFeeds <:+: t ∨ returnLineFeeds <:+: t

section Texts

variable {t : Text}

theorem cutAt_feeds (t : Text) : cutAt feeds (utf8 t) =
    (cutAt lineFeeds t).map fun (before, behind) => (utf8 before, utf8 behind) :=
  @cutAt_utf8 lineFeeds (by decide) (by simp [lineFeeds, IsAscii]) t

theorem cutAt_returnFeeds (t : Text) : cutAt returnFeeds (utf8 t) =
    (cutAt returnLineFeeds t).map fun (before, behind) => (utf8 before, utf8 behind) :=
  @cutAt_utf8 returnLineFeeds (by decide) (by simp [returnLineFeeds, IsAscii]) t

theorem position_feeds {n : Nat} (h : position feeds (utf8 t) = some n) :
    exists before behind, t = (before ++ lineFeeds) ++ behind ∧ (utf8 before).length = n := by
  unfold position at h
  rw [cutAt_feeds] at h
  rcases Option.map_eq_some_iff.mp h with ⟨_, hcut, hn⟩
  rcases Option.map_eq_some_iff.mp hcut with ⟨⟨before, behind⟩, hfound, rfl⟩
  refine ⟨before, behind, ?_, hn⟩
  rw [List.append_assoc]
  exact cutAt_eq_some hfound

theorem position_returnFeeds {n : Nat} (h : position returnFeeds (utf8 t) = some n) :
    exists before behind, t = (before ++ returnLineFeeds) ++ behind ∧
      (utf8 before).length = n := by
  unfold position at h
  rw [cutAt_returnFeeds] at h
  rcases Option.map_eq_some_iff.mp h with ⟨_, hcut, hn⟩
  rcases Option.map_eq_some_iff.mp hcut with ⟨⟨before, behind⟩, hfound, rfl⟩
  refine ⟨before, behind, ?_, hn⟩
  rw [List.append_assoc]
  exact cutAt_eq_some hfound

/-- An event of the bytes is an event of the text. -/
theorem findEventBreak_utf8 {n : Nat} (h : findEventBreak (utf8 t) = some n) :
    exists event rest, t = event ++ rest ∧ EndsEvent event ∧ (utf8 event).length = n + 1 := by
  have hlf : forall a, position feeds (utf8 t) = some a -> a + 1 = n ->
      exists event rest, t = event ++ rest ∧ EndsEvent event ∧ (utf8 event).length = n + 1 := by
    intro a ha han
    rcases position_feeds ha with ⟨before, behind, hsplit, hlength⟩
    refine ⟨before ++ lineFeeds, behind, hsplit, Or.inl (List.suffix_append _ _), ?_⟩
    rw [utf8_append, List.length_append, hlength, ← han]
    rfl
  have hcrlf : forall b, position returnFeeds (utf8 t) = some b -> b + 3 = n ->
      exists event rest, t = event ++ rest ∧ EndsEvent event ∧ (utf8 event).length = n + 1 := by
    intro b hb hbn
    rcases position_returnFeeds hb with ⟨before, behind, hsplit, hlength⟩
    refine ⟨before ++ returnLineFeeds, behind, hsplit, Or.inr (List.suffix_append _ _), ?_⟩
    rw [utf8_append, List.length_append, hlength, ← hbn]
    rfl
  unfold findEventBreak at h
  cases ha : position feeds (utf8 t) with
  | some a =>
      cases hb : position returnFeeds (utf8 t) with
      | some b =>
          rw [ha, hb] at h
          have hn : min (a + 1) (b + 3) = n := Option.some.inj h
          rcases Nat.le_total (a + 1) (b + 3) with hle | hle
          · exact hlf a ha (by rw [← hn, Nat.min_eq_left hle])
          · exact hcrlf b hb (by rw [← hn, Nat.min_eq_right hle])
      | none =>
          rw [ha, hb] at h
          exact hlf a ha (Option.some.inj h)
  | none =>
      cases hb : position returnFeeds (utf8 t) with
      | some b =>
          rw [ha, hb] at h
          exact hcrlf b hb (Option.some.inj h)
      | none =>
          rw [ha, hb] at h
          cases h

theorem drainEvent_some {event rest : List UInt8} (h : drainEvent (utf8 t) = some (event, rest)) :
    exists event' rest', t = event' ++ rest' ∧ EndsEvent event' ∧ event = utf8 event' ∧
      rest = utf8 rest' := by
  rcases Option.map_eq_some_iff.mp h with ⟨idx, hbreak, heq⟩
  rcases findEventBreak_utf8 hbreak with ⟨event', rest', rfl, hends, hlength⟩
  cases heq
  refine ⟨event', rest', rfl, hends, ?_, ?_⟩
  · rw [utf8_append, ← hlength, List.take_left]
  · rw [utf8_append, ← hlength, List.drop_left]

theorem drainEvent_none (h : drainEvent (utf8 t) = none) : ¬ HoldsBreak t := by
  have hbreak : findEventBreak (utf8 t) = none := Option.map_eq_none_iff.mp h
  have hboth : position feeds (utf8 t) = none ∧ position returnFeeds (utf8 t) = none := by
    unfold findEventBreak at hbreak
    cases ha : position feeds (utf8 t) with
    | some a =>
        cases hb : position returnFeeds (utf8 t) with
        | some b =>
            rw [ha, hb] at hbreak
            cases hbreak
        | none =>
            rw [ha, hb] at hbreak
            cases hbreak
    | none =>
        cases hb : position returnFeeds (utf8 t) with
        | some b =>
            rw [ha, hb] at hbreak
            cases hbreak
        | none =>
            exact ⟨rfl, rfl⟩
  have hlf : cutAt lineFeeds t = none := by
    have hnone := Option.map_eq_none_iff.mp hboth.1
    rw [cutAt_feeds] at hnone
    exact Option.map_eq_none_iff.mp hnone
  have hcrlf : cutAt returnLineFeeds t = none := by
    have hnone := Option.map_eq_none_iff.mp hboth.2
    rw [cutAt_returnFeeds] at hnone
    exact Option.map_eq_none_iff.mp hnone
  rintro (hholds | hholds)
  · exact (cutAt_eq_none (by decide)).mp hlf hholds
  · exact (cutAt_eq_none (by decide)).mp hcrlf hholds

theorem EndsEvent.ne_nil (h : EndsEvent t) : t ≠ [] := by
  rintro rfl
  rcases h with h | h
  · cases List.suffix_nil.mp h
  · cases List.suffix_nil.mp h

theorem EndsEvent.atLineStart (h : EndsEvent t) : AtLineStart t := by
  rcases h with ⟨before, rfl⟩ | ⟨before, rfl⟩
  · exact Or.inr (List.getLast?_append_of_ne_nil _ (by decide))
  · exact Or.inr (List.getLast?_append_of_ne_nil _ (by decide))

/-- The events of the bytes are texts that end with a break; none is left behind. -/
structure EventsOf (t : Text) (events : List Text) (left : Text) : Prop where
  bytes : eventsOf drainEvent (utf8 t) = (events.map utf8, utf8 left)
  split : t = events.flatten ++ left
  ends : forall event, event ∈ events -> EndsEvent event
  left_free : ¬ HoldsBreak left

theorem exists_eventsOf (t : Text) : exists events left, EventsOf t events left := by
  induction hlength : t.length using Nat.strongRecOn generalizing t with
  | _ n ih =>
      cases hnext : drainEvent (utf8 t) with
      | none =>
          refine ⟨[], t, ?_, rfl, ?_, drainEvent_none hnext⟩
          · exact eventsOf_none hnext
          · intro event hevent
            cases hevent
      | some found =>
          rcases found with ⟨event, rest⟩
          rcases drainEvent_some hnext with ⟨event', rest', rfl, hends, rfl, rfl⟩
          have hpos := List.length_pos_iff.mpr hends.ne_nil
          rw [List.length_append] at hlength
          rcases ih rest'.length (by omega) rest' rfl with ⟨events, left, h⟩
          refine ⟨event' :: events, left, ?_, ?_, ?_, h.left_free⟩
          · rw [eventsOf_some drainEvent_cutting.shorter hnext, h.bytes]
            rfl
          · rw [List.flatten_cons, List.append_assoc, ← h.split]
          · intro event hevent
            rcases List.mem_cons.mp hevent with rfl | hrest
            · exact hends
            · exact h.ends event hrest

theorem EventsOf.atLineStart {events : List Text} {left : Text} (h : EventsOf t events left) :
    AtLineStart events.flatten := by
  cases hlast : events.getLast? with
  | none =>
      rw [List.getLast?_eq_none_iff.mp hlast]
      exact Or.inl rfl
  | some last =>
      rcases List.getLast?_eq_some_iff.mp hlast with ⟨front, rfl⟩
      have hends := h.ends last (List.mem_append_right _ List.mem_cons_self)
      rcases hends.atLineStart with hnil | hfeed
      · exact absurd hnil hends.ne_nil
      · right
        rw [List.flatten_append, List.flatten_singleton,
          List.getLast?_append_of_ne_nil _ hends.ne_nil, hfeed]

theorem sseDataPayloads_append (hstart : AtLineStart t) (u : Text) :
    sseDataPayloads (t ++ u) = sseDataPayloads t ++ sseDataPayloads u := by
  unfold sseDataPayloads
  rw [strLines_append hstart, List.filterMap_append]

theorem sseDataPayloads_flatten {events : List Text}
    (hends : forall event, event ∈ events -> EndsEvent event) :
    sseDataPayloads events.flatten = events.flatMap sseDataPayloads := by
  induction events with
  | nil =>
      rfl
  | cons event events ih =>
      rw [List.flatten_cons, sseDataPayloads_append (hends event List.mem_cons_self).atLineStart,
        ih fun event h => hends event (List.mem_cons_of_mem _ h), List.flatMap_cons]

end Texts

/-!
# Payloads of the events
-/

section Payloads

variable (parse : Parse) (utf8Error : List UInt8 -> String)

theorem takeEvents_utf8 (events : List Text) (c : Collected) (n : Nat) :
    (events.map utf8).foldlM (takeEvent parse utf8Error) (c, n) =
      (events.flatMap sseDataPayloads).foldlM (takePayload parse) c >>= fun c =>
        pure (c, n + events.length) := by
  induction events generalizing c n with
  | nil =>
      rfl
  | cons event events ih =>
      have hstep : takeEvent parse utf8Error (c, n) (utf8 event) =
          (sseDataPayloads event).foldlM (takePayload parse) c >>= fun c => pure (c, n + 1) := by
        unfold takeEvent
        rw [decodeUtf8_utf8]
      rw [List.map_cons, List.foldlM_cons, List.flatMap_cons, List.foldlM_append, hstep, bind_assoc,
        bind_assoc]
      congr 1
      funext c
      rw [pure_bind, ih, Nat.add_assoc, Nat.add_comm 1, List.length_cons]

/-- The payloads up to the end of the stream are collected. -/
theorem takePayloads_eq (payloads : List Text) (c : Collected) :
    payloads.foldlM (takePayload parse) c =
      match collectPayloads parse payloads c with
      | .error e => .error (.error e)
      | .ok c => if doneMark ∈ payloads then .error (.ok c.finished) else .ok c := by
  induction payloads generalizing c with
  | nil =>
      rfl
  | cons data payloads ih =>
      rw [List.foldlM_cons, collectPayloads, takePayload]
      by_cases hdone : data = doneMark
      · rw [if_pos hdone, if_pos hdone]
        simp only [hdone, List.mem_cons_self, if_true]
        rfl
      · rw [if_neg hdone, if_neg hdone]
        have hmem : doneMark ∈ data :: payloads <-> doneMark ∈ payloads := by
          rw [List.mem_cons]
          constructor
          · rintro (h | h)
            · exact absurd h.symm hdone
            · exact h
          · exact Or.inr
        simp only [hmem]
        cases applySseData parse c data with
        | error e =>
            rfl
        | ok c =>
            exact ih c

theorem collectPayloads_append {payloads : List Text} (hdone : doneMark ∈ payloads)
    (more : List Text) (c : Collected) :
    collectPayloads parse (payloads ++ more) c = collectPayloads parse payloads c := by
  induction payloads generalizing c with
  | nil =>
      cases hdone
  | cons data payloads ih =>
      rw [List.cons_append, collectPayloads, collectPayloads]
      by_cases hdata : data = doneMark
      · rw [if_pos hdata, if_pos hdata]
      · rw [if_neg hdata, if_neg hdata]
        have hrest : doneMark ∈ payloads := by
          rcases List.mem_cons.mp hdone with h | h
          · exact absurd h.symm hdata
          · exact h
        cases applySseData parse c data with
        | error e =>
            rfl
        | ok c =>
            exact ih hrest c

end Payloads

end Llm
end KnowledgeBrain
