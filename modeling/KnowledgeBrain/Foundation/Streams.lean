import Mathlib.Data.List.Basic

/-!
# Streams of pieces

A stream arrives in pieces.  What has arrived is cut into events as far as it
goes; the rest waits for more.  When a cut does not depend on what arrives
behind it, the events and what is made of them depend on the stream alone and
not on its pieces.
-/

namespace KnowledgeBrain
namespace Foundation

variable {Symbol Event State : Type}

/-- A cut leaves less than there was. -/
def Shortens (cut : List Symbol -> Option (Event × List Symbol)) : Prop :=
  forall {t rest event}, cut t = some (event, rest) -> rest.length < t.length

/-- A cut takes an event off the front, and more text behind changes neither. -/
structure Cutting (cut : List Symbol -> Option (Event × List Symbol)) : Prop where
  shorter : Shortens cut
  append : forall {t rest event} (more : List Symbol), cut t = some (event, rest) ->
    cut (t ++ more) = some (event, rest ++ more)

/-!
# Events of a text
-/

section Events

variable (cut : List Symbol -> Option (Event × List Symbol))

/-- The events of a text and what is left of it. -/
def eventsFrom : Nat -> List Symbol -> List Event × List Symbol
  | 0, t => ([], t)
  | fuel + 1, t =>
      match cut t with
      | none => ([], t)
      | some (event, rest) => (event :: (eventsFrom fuel rest).1, (eventsFrom fuel rest).2)

/-- Every event takes a symbol at least. -/
def eventsOf (t : List Symbol) : List Event × List Symbol :=
  eventsFrom cut t.length t

variable {cut}

theorem eventsFrom_some {fuel : Nat} {t rest : List Symbol} {event : Event}
    (hsome : cut t = some (event, rest)) : eventsFrom cut (fuel + 1) t =
      (event :: (eventsFrom cut fuel rest).1, (eventsFrom cut fuel rest).2) := by
  rw [eventsFrom, hsome]

theorem eventsFrom_eq (hcut : Shortens cut) {fuel fuel' : Nat} {t : List Symbol}
    (hfuel : t.length ≤ fuel) (hfuel' : t.length ≤ fuel') :
    eventsFrom cut fuel t = eventsFrom cut fuel' t := by
  have hshort : forall {fuel : Nat} {t : List Symbol}, cut t = none ->
      eventsFrom cut fuel t = ([], t) := by
    intro fuel t hnone
    cases fuel with
    | zero => rfl
    | succ fuel => rw [eventsFrom, hnone]
  induction fuel generalizing fuel' t with
  | zero =>
      cases hnext : cut t with
      | none =>
          rw [hshort hnext, hshort hnext]
      | some found =>
          have hshorter := hcut hnext
          omega
  | succ fuel ih =>
      cases hnext : cut t with
      | none =>
          rw [hshort hnext, hshort hnext]
      | some found =>
          rcases found with ⟨event, rest⟩
          have hshorter := hcut hnext
          cases fuel' with
          | zero =>
              omega
          | succ fuel' =>
              have hrest : eventsFrom cut fuel rest = eventsFrom cut fuel' rest :=
                ih (by omega) (by omega)
              rw [eventsFrom_some hnext, eventsFrom_some hnext, hrest]

theorem eventsOf_none {t : List Symbol} (hnone : cut t = none) : eventsOf cut t = ([], t) := by
  unfold eventsOf
  cases t.length with
  | zero => rfl
  | succ n => rw [eventsFrom, hnone]

theorem eventsOf_some (hcut : Shortens cut) {t rest : List Symbol} {event : Event}
    (hsome : cut t = some (event, rest)) :
    eventsOf cut t = (event :: (eventsOf cut rest).1, (eventsOf cut rest).2) := by
  have hshorter := hcut hsome
  rcases Nat.exists_eq_succ_of_ne_zero (Nat.ne_of_gt (Nat.lt_of_le_of_lt (Nat.zero_le _) hshorter))
    with ⟨n, hn⟩
  have hrest : eventsFrom cut n rest = eventsOf cut rest :=
    eventsFrom_eq hcut (by omega) (Nat.le_refl _)
  have hunfold : eventsOf cut t = eventsFrom cut (n + 1) t := by
    rw [eventsOf, hn]
  rw [hunfold, eventsFrom_some hsome, hrest]

theorem cut_left (hcut : Shortens cut) (t : List Symbol) : cut (eventsOf cut t).2 = none := by
  induction hlength : t.length using Nat.strongRecOn generalizing t with
  | _ n ih =>
      cases hnext : cut t with
      | none =>
          rw [eventsOf_none hnext]
          exact hnext
      | some found =>
          rcases found with ⟨event, rest⟩
          rw [eventsOf_some hcut hnext]
          exact ih rest.length (hlength ▸ hcut hnext) rest rfl

theorem eventsOf_append (hcut : Cutting cut) (t more : List Symbol) :
    eventsOf cut (t ++ more) =
      ((eventsOf cut t).1 ++ (eventsOf cut ((eventsOf cut t).2 ++ more)).1,
        (eventsOf cut ((eventsOf cut t).2 ++ more)).2) := by
  induction hlength : t.length using Nat.strongRecOn generalizing t with
  | _ n ih =>
      cases hnext : cut t with
      | none =>
          rw [eventsOf_none hnext]
          rfl
      | some found =>
          rcases found with ⟨event, rest⟩
          rw [eventsOf_some hcut.shorter hnext, eventsOf_some hcut.shorter (hcut.append more hnext),
            ih rest.length (hlength ▸ hcut.shorter hnext) rest rfl]
          rfl

/-- What every cut hands on from the text holds of the events and of what is left. -/
theorem eventsOf_forall (hcut : Shortens cut) {P : List Symbol -> Prop} {Q : Event -> Prop}
    (hstep : forall {t rest event}, cut t = some (event, rest) -> P t -> Q event ∧ P rest)
    {t : List Symbol} (h : P t) :
    (forall event, event ∈ (eventsOf cut t).1 -> Q event) ∧ P (eventsOf cut t).2 := by
  induction hlength : t.length using Nat.strongRecOn generalizing t with
  | _ n ih =>
      cases hnext : cut t with
      | none =>
          rw [eventsOf_none hnext]
          refine ⟨?_, h⟩
          intro event hmem
          cases hmem
      | some found =>
          rcases found with ⟨first, rest⟩
          rcases hstep hnext h with ⟨hfirst, hrest⟩
          rcases ih rest.length (hlength ▸ hcut hnext) hrest rfl with ⟨hmore, hleft⟩
          rw [eventsOf_some hcut hnext]
          refine ⟨?_, hleft⟩
          intro event hmem
          rcases List.mem_cons.mp hmem with rfl | hmem
          · exact hfirst
          · exact hmore event hmem

theorem forall_mem_eventsOf (hcut : Shortens cut) {P : Event -> Prop}
    (hevent : forall {t rest event}, cut t = some (event, rest) -> P event) (t : List Symbol) :
    forall event, event ∈ (eventsOf cut t).1 -> P event :=
  (@eventsOf_forall _ _ cut hcut (fun _ => True) P (fun hnext _ => ⟨hevent hnext, trivial⟩)
    t trivial).1

theorem eventsOf_split {cut : List Symbol -> Option (List Symbol × List Symbol)}
    (hcut : Shortens cut) (hsplit : forall {t rest event}, cut t = some (event, rest) ->
      t = event ++ rest) (t : List Symbol) :
    t = (eventsOf cut t).1.flatten ++ (eventsOf cut t).2 := by
  induction hlength : t.length using Nat.strongRecOn generalizing t with
  | _ n ih =>
      cases hnext : cut t with
      | none =>
          rw [eventsOf_none hnext]
          rfl
      | some found =>
          rcases found with ⟨event, rest⟩
          have hrest := ih rest.length (hlength ▸ hcut hnext) rest rfl
          rw [eventsOf_some hcut hnext, List.flatten_cons, List.append_assoc, ← hrest]
          exact hsplit hnext

end Events

/-!
# Taking the events
-/

section Taking

variable {m : Type -> Type} [Monad m]

section Definitions

variable (cut : List Symbol -> Option (Event × List Symbol)) (step : State -> Event -> m State)

/-- Takes the events of a text one after the other, as long as there are some. -/
def takeEvents : Nat -> State -> List Symbol -> m (State × List Symbol)
  | 0, s, t => pure (s, t)
  | fuel + 1, s, t =>
      match cut t with
      | none => pure (s, t)
      | some (event, rest) => step s event >>= fun s => takeEvents fuel s rest

/-- One more piece behind what waits. -/
def feedPiece (state : State × List Symbol) (piece : List Symbol) : m (State × List Symbol) :=
  takeEvents cut step (state.2 ++ piece).length state.1 (state.2 ++ piece)

end Definitions

variable [LawfulMonad m] {cut : List Symbol -> Option (Event × List Symbol)}
variable {step : State -> Event -> m State}

theorem takeEvents_eq (fuel : Nat) (s : State) (t : List Symbol) :
    takeEvents cut step fuel s t =
      (eventsFrom cut fuel t).1.foldlM step s >>= fun s => pure (s, (eventsFrom cut fuel t).2) := by
  induction fuel generalizing s t with
  | zero =>
      simp [takeEvents, eventsFrom]
  | succ fuel ih =>
      unfold takeEvents eventsFrom
      cases cut t with
      | none =>
          simp
      | some found =>
          rcases found with ⟨event, rest⟩
          simp [ih]

theorem feedPiece_eq (state : State × List Symbol) (piece : List Symbol) :
    feedPiece cut step state piece =
      (eventsOf cut (state.2 ++ piece)).1.foldlM step state.1 >>= fun s =>
        pure (s, (eventsOf cut (state.2 ++ piece)).2) :=
  takeEvents_eq _ _ _

theorem feedPieces_eq (hcut : Cutting cut) {state : State × List Symbol}
    (hwaits : cut state.2 = none) (pieces : List (List Symbol)) :
    pieces.foldlM (feedPiece cut step) state =
      (eventsOf cut (state.2 ++ pieces.flatten)).1.foldlM step state.1 >>= fun s =>
        pure (s, (eventsOf cut (state.2 ++ pieces.flatten)).2) := by
  induction pieces generalizing state with
  | nil =>
      rw [List.flatten_nil, List.append_nil, eventsOf_none hwaits]
      simp
  | cons piece pieces ih =>
      have hnext : forall s : State, cut (s, (eventsOf cut (state.2 ++ piece)).2).2 = none :=
        fun _ => cut_left hcut.shorter (state.2 ++ piece)
      rw [List.foldlM_cons, feedPiece_eq, bind_assoc, List.flatten_cons, ← List.append_assoc,
        eventsOf_append hcut (state.2 ++ piece), List.foldlM_append, bind_assoc]
      congr 1
      funext s
      rw [pure_bind, ih (hnext s)]

end Taking

end Foundation
end KnowledgeBrain
