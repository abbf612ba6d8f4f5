import KnowledgeBrain.Foundation.Table
import Mathlib.Logic.Relation

/-!
# Guarded runs

A system is a function from events and states to states.  A guard says which
events may happen in which states; a run is a finite sequence of events that
meet the guard one after the other.  Safety of a concurrent program whose
transactions are serialised is a statement about all such runs.
-/

namespace KnowledgeBrain
namespace Foundation

section

variable {State Event : Type}

/-- One event that meets the guard. -/
def Leads (step : Event -> State -> State) (guard : Event -> State -> Prop)
    (s t : State) : Prop :=
  exists e, guard e s ∧ step e s = t

/-- Any number of events, each meeting the guard where it happens. -/
def Reaches (step : Event -> State -> State) (guard : Event -> State -> Prop) :
    State -> State -> Prop :=
  Relation.ReflTransGen (Leads step guard)

namespace Reaches

variable {step : Event -> State -> State} {guard : Event -> State -> Prop}
variable {s t : State}

theorem refl (s : State) : Reaches step guard s s :=
  Relation.ReflTransGen.refl

theorem snoc {e : Event} (hrun : Reaches step guard s t) (hguard : guard e t) :
    Reaches step guard s (step e t) :=
  Relation.ReflTransGen.tail hrun ⟨e, hguard, rfl⟩

theorem invariant {P : State -> Prop}
    (hstep : forall e s, P s -> guard e s -> P (step e s))
    (hstart : P s) (hrun : Reaches step guard s t) : P t := by
  induction hrun with
  | refl =>
      exact hstart
  | tail _ hlead ih =>
      obtain ⟨e, hguard, heq⟩ := hlead
      rw [← heq]
      exact hstep e _ ih hguard

theorem preorder {P : State -> Prop} {R : State -> State -> Prop}
    (hrefl : forall s, R s s) (htrans : forall s t u, R s t -> R t u -> R s u)
    (hinv : forall e s, P s -> guard e s -> P (step e s))
    (hstep : forall e s, P s -> guard e s -> R s (step e s))
    (hstart : P s) (hrun : Reaches step guard s t) : R s t := by
  have hboth : P t ∧ R s t := by
    induction hrun with
    | refl =>
        exact ⟨hstart, hrefl s⟩
    | tail _ hlead ih =>
        obtain ⟨e, hguard, heq⟩ := hlead
        rw [← heq]
        exact ⟨hinv e _ ih.1 hguard,
          htrans _ _ _ ih.2 (hstep e _ ih.1 hguard)⟩
  exact hboth.2

end Reaches

/-!
# Concrete traces
-/

/-- Perform a list of events in order. -/
def perform (step : Event -> State -> State) (s : State) (events : List Event) :
    State :=
  events.foldl (fun s e => step e s) s

/-- Every event of the list meets the guard where it happens. -/
def Allowed (step : Event -> State -> State) (guard : Event -> State -> Prop) :
    State -> List Event -> Prop
  | _, [] => True
  | s, e :: rest => guard e s ∧ Allowed step guard (step e s) rest

instance Allowed.decide (step : Event -> State -> State) (guard : Event -> State -> Prop)
    [forall e s, Decidable (guard e s)] :
    (s : State) -> (events : List Event) -> Decidable (Allowed step guard s events)
  | _, [] => isTrue trivial
  | s, e :: rest =>
      have := Allowed.decide step guard (step e s) rest
      inferInstanceAs (Decidable (guard e s ∧ Allowed step guard (step e s) rest))

theorem reaches_perform {step : Event -> State -> State}
    {guard : Event -> State -> Prop} {start s : State} {events : List Event}
    (hrun : Reaches step guard start s) (hallowed : Allowed step guard s events) :
    Reaches step guard start (perform step s events) := by
  induction events generalizing s with
  | nil =>
      exact hrun
  | cons e rest ih =>
      exact ih (hrun.snoc hallowed.1) hallowed.2

end

/-!
# Tables of sends

Rows of a table stand for attempts at something: a row is out while nobody
knows how the attempt ended, and it is spent once it was out.  The rows fall
into classes and are counted by classes.  If a row is only sent when no row of
its classes is out and less than the limit of those it counts with are spent,
then no two rows of a class are ever out together and no more than the limit
that count together are ever spent.
-/

section

variable {K V C D : Type} [DecidableEq K]
variable (carries : C -> V -> Bool) (counts : D -> V -> Bool) (out spent : V -> Bool) (limit : Nat)

/-- What is known of the rows after any number of sends. -/
structure SendsBounded (t : Table K V) : Prop where
  paid : forall id v, t.lookup id = some v -> out v = true -> spent v = true
  single : forall c id v id' v', t.lookup id = some v -> t.lookup id' = some v' ->
    out v = true -> out v' = true -> carries c v = true -> carries c v' = true -> id = id'
  bound : forall d, (t.count fun _ v => counts d v && spent v) ≤ limit

/-- A change of a row that does not send it. -/
structure KeepsSend (v v' : V) : Prop where
  carries : forall c, carries c v' = carries c v
  counts : forall d, counts d v' = counts d v
  out : out v' = true -> out v = true
  spent : spent v' = spent v

/-- A row of the table may be sent. -/
structure MayBeSent (t : Table K V) (v : V) : Prop where
  alone : forall c id' v', carries c v = true -> t.lookup id' = some v' ->
    carries c v' = true -> out v' = false
  spare : forall d, counts d v = true -> (t.count fun _ v' => counts d v' && spent v') < limit

inductive SendStep (t : Table K V) : Table K V -> Prop where
  | keep (f : K -> V -> V)
      (hkeep : forall id v, t.lookup id = some v -> KeepsSend carries counts out spent v (f id v)) :
      SendStep t (t.mapRows f)
  | insert (id : K) (v : V) (hfree : t.lookup id = none) (hout : out v = false)
      (hspent : spent v = false) : SendStep t (t.insertNew id v)
  | send (id : K) (v : V) (f : V -> V) (hlookup : t.lookup id = some v)
      (hcarries : forall c, carries c (f v) = carries c v)
      (hcounts : forall d, counts d (f v) = counts d v) (hspent : spent (f v) = true)
      (hmay : MayBeSent carries counts out spent limit t v) : SendStep t (t.modify id f)

variable {carries counts out spent limit}

theorem SendsBounded.empty :
    SendsBounded carries counts out spent limit (Table.empty : Table K V) := by
  constructor
  · intro id v hlookup
    cases hlookup
  · intro c id v id' v' hlookup
    cases hlookup
  · intro c
    exact Nat.zero_le limit

theorem SendsBounded.keep {t : Table K V} (h : SendsBounded carries counts out spent limit t)
    {f : K -> V -> V}
    (hkeep : forall id v, t.lookup id = some v -> KeepsSend carries counts out spent v (f id v)) :
    SendsBounded carries counts out spent limit (t.mapRows f) := by
  have hbefore : forall id v', (t.mapRows f).lookup id = some v' ->
      exists v, t.lookup id = some v ∧ KeepsSend carries counts out spent v v' := by
    intro id v' hlookup
    rw [Table.lookup_mapRows, Option.map_eq_some_iff] at hlookup
    rcases hlookup with ⟨v, hv, rfl⟩
    exact ⟨v, hv, hkeep id v hv⟩
  constructor
  · intro id v' hlookup hout
    rcases hbefore id v' hlookup with ⟨v, hv, hrow⟩
    rw [hrow.spent]
    exact h.paid id v hv (hrow.out hout)
  · intro c id v1 id' v1' hlookup hlookup' hout hout' hc hc'
    rcases hbefore id v1 hlookup with ⟨v, hv, hrow⟩
    rcases hbefore id' v1' hlookup' with ⟨v', hv', hrow'⟩
    rw [hrow.carries] at hc
    rw [hrow'.carries] at hc'
    exact h.single c id v id' v' hv hv' (hrow.out hout) (hrow'.out hout') hc hc'
  · intro c
    rw [Table.count_mapRows_of_eq]
    · exact h.bound c
    · intro id v hmem
      have hrow := hkeep id v (Table.lookup_eq_some_iff_mem.mpr hmem)
      rw [hrow.counts, hrow.spent]

theorem SendsBounded.insert {t : Table K V} (h : SendsBounded carries counts out spent limit t)
    {id : K} {v : V} (hfree : t.lookup id = none) (hout : out v = false)
    (hspent : spent v = false) :
    SendsBounded carries counts out spent limit (t.insertNew id v) := by
  have hold : forall id' v', (t.insertNew id v).lookup id' = some v' -> out v' = true ->
      t.lookup id' = some v' := by
    intro id' v' hlookup hout'
    rw [Table.lookup_insertNew_eq_or, Option.or_eq_some_iff] at hlookup
    rcases hlookup with hold | ⟨_, hnew⟩
    · exact hold
    · split at hnew
      · cases hnew
        rw [hout] at hout'
        cases hout'
      · cases hnew
  constructor
  · intro id1 v1 hlookup hout1
    exact h.paid id1 v1 (hold id1 v1 hlookup hout1) hout1
  · intro c id1 v1 id2 v2 hlookup1 hlookup2 hout1 hout2
    exact h.single c id1 v1 id2 v2 (hold id1 v1 hlookup1 hout1) (hold id2 v2 hlookup2 hout2)
      hout1 hout2
  · intro c
    rw [Table.count_insertNew _ hfree, hspent, Bool.and_false]
    exact h.bound c

/-- The row that is sent is the only one of its class that is out. -/
theorem SendsBounded.send {t : Table K V} (h : SendsBounded carries counts out spent limit t)
    {id : K} {v : V} {f : V -> V} (hlookup : t.lookup id = some v)
    (hcarries : forall c, carries c (f v) = carries c v)
    (hcounts : forall d, counts d (f v) = counts d v) (hspent : spent (f v) = true)
    (hmay : MayBeSent carries counts out spent limit t v) :
    SendsBounded carries counts out spent limit (t.modify id f) := by
  have hrow : forall id1 v1, (t.modify id f).lookup id1 = some v1 ->
      id1 = id ∧ v1 = f v ∨ id1 ≠ id ∧ t.lookup id1 = some v1 := by
    intro id1 v1 hlookup1
    rcases Table.lookup_modify_cases hlookup1 with ⟨hid, old, hold, hv1⟩ | hother
    · rw [hlookup] at hold
      cases hold
      exact Or.inl ⟨hid, hv1⟩
    · exact Or.inr hother
  have hfirst : forall c id1 v1, t.lookup id1 = some v1 -> out v1 = true ->
      carries c v1 = true -> carries c (f v) = true -> False := by
    intro c id1 v1 hlookup1 hout1 hc1 hc
    rw [hcarries] at hc
    rw [hmay.alone c id1 v1 hc hlookup1 hc1] at hout1
    cases hout1
  constructor
  · intro id1 v1 hlookup1 hout1
    rcases hrow id1 v1 hlookup1 with ⟨_, rfl⟩ | ⟨_, hold⟩
    · exact hspent
    · exact h.paid id1 v1 hold hout1
  · intro c id1 v1 id2 v2 hlookup1 hlookup2 hout1 hout2 hc1 hc2
    rcases hrow id1 v1 hlookup1 with ⟨rfl, rfl⟩ | ⟨_, hold1⟩
    · rcases hrow id2 v2 hlookup2 with ⟨rfl, rfl⟩ | ⟨_, hold2⟩
      · rfl
      · exact absurd (hfirst c id2 v2 hold2 hout2 hc2 hc1) not_false
    · rcases hrow id2 v2 hlookup2 with ⟨rfl, rfl⟩ | ⟨_, hold2⟩
      · exact absurd (hfirst c id1 v1 hold1 hout1 hc1 hc2) not_false
      · exact h.single c id1 v1 id2 v2 hold1 hold2 hout1 hout2 hc1 hc2
  · intro d
    by_cases hd : counts d v = true
    · have hspare := hmay.spare d hd
      have hmore := t.count_modify_le id f fun _ v' => counts d v' && spent v'
      exact Nat.le_trans hmore hspare
    · -- The row that is sent counts for another class.
      refine Nat.le_trans (Nat.le_of_eq ?_) (h.bound d)
      apply Table.count_mapRows_of_eq
      intro id1 v1 hmem
      split
      · rename_i hid
        subst hid
        rw [Table.lookup_eq_some_iff_mem.mpr hmem] at hlookup
        cases hlookup
        have hnot : counts d v = false := by simpa using hd
        rw [hcounts, hnot, Bool.false_and, Bool.false_and]
      · rfl

theorem SendsBounded.step {t t' : Table K V} (h : SendsBounded carries counts out spent limit t)
    (hstep : SendStep carries counts out spent limit t t') :
    SendsBounded carries counts out spent limit t' := by
  cases hstep with
  | keep f hkeep => exact h.keep hkeep
  | insert id v hfree hout hspent => exact h.insert hfree hout hspent
  | send id v f hlookup hcarries hcounts hspent hmay =>
      exact h.send hlookup hcarries hcounts hspent hmay

end

/-!
# Programs that run side by side

A program asks for operations one after the other and goes on with their
replies.  A machine performs the operations of several programs on one state,
in any order, and other parties may change the state between them.  What a
program ensures is shown along its text, with facts about the state that the
others leave alone.
-/

variable {Op : Type} {Reply : Op -> Type} {A B Error : Type}

inductive Program (Op : Type) (Reply : Op -> Type) (A : Type) where
  | done (a : A)
  | call (op : Op) (next : Reply op -> Program Op Reply A)

namespace Program

def bind (program : Program Op Reply A) (f : A -> Program Op Reply B) : Program Op Reply B :=
  match program with
  | .done a => f a
  | .call op next => .call op fun reply => (next reply).bind f

instance : Monad (Program Op Reply) where
  pure := .done
  bind := bind

/-- One operation. -/
def perform (op : Op) : Program Op Reply (Reply op) :=
  .call op .done

/-- A program that may fail. -/
abbrev Fallible (Op : Type) (Reply : Op -> Type) (Error A : Type) : Type :=
  ExceptT Error (Program Op Reply) A

end Program

/-- How operations act on the state, for a program with a number and some outcome of chance. -/
structure Machine (Op : Type) (Reply : Op -> Type) (State Choice : Type) where
  act : Nat -> Choice -> State -> (op : Op) -> Reply op × State
  others : State -> State -> Prop

/-- Programs at work on a state. -/
structure Configuration (Op : Type) (Reply : Op -> Type) (State A : Type) where
  state : State
  programs : List (Program Op Reply A)

variable {State Choice : Type} (machine : Machine Op Reply State Choice)

/-- A step of one program with an outcome that is allowed, or of another party. -/
inductive Step (allowed : Nat -> Choice -> State -> Op -> Prop) :
    Configuration Op Reply State A -> Configuration Op Reply State A -> Prop where
  | act {c : Configuration Op Reply State A} {i : Nat} {op : Op}
      {next : Reply op -> Program Op Reply A} (choice : Choice)
      (running : c.programs[i]? = some (.call op next)) (ok : allowed i choice c.state op) :
      Step allowed c ⟨(machine.act i choice c.state op).2,
        c.programs.set i (next (machine.act i choice c.state op).1)⟩
  | others {c : Configuration Op Reply State A} {state : State}
      (change : machine.others c.state state) : Step allowed c ⟨state, c.programs⟩

/-- Runs of allowed steps. -/
def Runs (allowed : Nat -> Choice -> State -> Op -> Prop)
    (c c' : Configuration Op Reply State A) : Prop :=
  Relation.ReflTransGen (Step machine allowed) c c'

/-- A fact that the other programs and parties leave alone. -/
structure Stable (i : Nat) (P : State -> Prop) : Prop where
  others : forall {s s'}, machine.others s s' -> P s -> P s'
  act : forall {j}, j ≠ i -> forall choice s op, P s -> P (machine.act j choice s op).2

/-- Along the text of a program, from a fact to what has to be known in the end. -/
def Holds (allowed : Nat -> Choice -> State -> Op -> Prop) (i : Nat)
    (final : A -> (State -> Prop) -> Prop) : Program Op Reply A -> (State -> Prop) -> Prop
  | .done a, P => final a P
  | .call op next, P => forall choice s, P s -> allowed i choice s op ->
      exists Q, Stable machine i Q ∧ Q (machine.act i choice s op).2 ∧
        Holds allowed i final (next (machine.act i choice s op).1) Q

variable {machine} {allowed : Nat -> Choice -> State -> Op -> Prop} {i : Nat}
  {final : A -> (State -> Prop) -> Prop} {P : State -> Prop}

theorem holds_bind {program : Program Op Reply B} {f : B -> Program Op Reply A}
    (h : Holds machine allowed i (fun b Q => Holds machine allowed i final (f b) Q) program P) :
    Holds machine allowed i final (program >>= f) P := by
  induction program generalizing P with
  | done b =>
      exact h
  | call op next ih =>
      intro choice s hP hallowed
      rcases h choice s hP hallowed with ⟨Q, hstable, hQ, hnext⟩
      exact ⟨Q, hstable, hQ, ih _ hnext⟩

variable {f : B -> Program.Fallible Op Reply Error A} {program : Program.Fallible Op Reply Error B}

theorem holds_try {final : Except Error A -> (State -> Prop) -> Prop}
    (h : Holds machine allowed i (fun result Q =>
      match result with
      | .ok b => Holds machine allowed i final (f b).run Q
      | .error e => final (.error e) Q) program.run P) :
    Holds machine allowed i final (program >>= f).run P := by
  apply holds_bind
  have hsame : (fun result Q => Holds machine allowed i final
      (ExceptT.bindCont f result) Q) = fun (result : Except Error B) Q =>
        match result with
        | .ok b => Holds machine allowed i final (f b).run Q
        | .error e => final (.error e) Q := by
    funext result Q
    cases result with
    | ok b =>
        rfl
    | error e =>
        rfl
  rw [hsame]
  exact h

theorem run_lift_bind (program : Program Op Reply B) (f : B -> Program.Fallible Op Reply Error A) :
    ((liftM program : Program.Fallible Op Reply Error B) >>= f).run =
      program >>= fun b => (f b).run := by
  induction program with
  | done b =>
      rfl
  | call op next ih =>
      show Program.call op _ = Program.call op _
      congr 1
      funext reply
      exact ih reply

theorem holds_lift {program : Program Op Reply B}
    {final : Except Error A -> (State -> Prop) -> Prop}
    (h : Holds machine allowed i (fun b Q => Holds machine allowed i final (f b).run Q)
      program P) :
    Holds machine allowed i final
      ((liftM program : Program.Fallible Op Reply Error B) >>= f).run P := by
  rw [run_lift_bind]
  exact holds_bind h

/-- All operations of a program keep a fact. -/
def Keeps (machine : Machine Op Reply State Choice) (i : Nat) (P : State -> Prop) :
    Program Op Reply A -> Prop
  | .done _ => True
  | .call op next => (forall choice s, P s -> P (machine.act i choice s op).2) ∧
      forall reply, Keeps machine i P (next reply)

theorem keeps_bind {program : Program Op Reply B} {f : B -> Program Op Reply A}
    (h : Keeps machine i P program) (hf : forall b, Keeps machine i P (f b)) :
    Keeps machine i P (program >>= f) := by
  induction program with
  | done b =>
      exact hf b
  | call op next ih =>
      exact ⟨h.1, fun reply => ih reply (h.2 reply)⟩

theorem keeps_try (h : Keeps machine i P program.run) (hf : forall b, Keeps machine i P (f b).run) :
    Keeps machine i P (program >>= f).run := by
  apply keeps_bind h
  intro result
  cases result with
  | ok b =>
      exact hf b
  | error e =>
      trivial

theorem holds_of_keeps {program : Program Op Reply A} (hstable : Stable machine i P)
    (h : Keeps machine i P program) (hfinal : forall a, final a P) :
    Holds machine allowed i final program P := by
  induction program with
  | done a =>
      exact hfinal a
  | call op next ih =>
      intro choice s hP _
      exact ⟨P, hstable, h.1 choice s hP, ih _ (h.2 _)⟩

theorem holds_after {final : Except Error A -> (State -> Prop) -> Prop}
    (hstable : Stable machine i P) (h : Keeps machine i P program.run)
    (herror : forall e, final (.error e) P)
    (hf : forall b, Holds machine allowed i final (f b).run P) :
    Holds machine allowed i final (program >>= f).run P := by
  apply holds_try
  apply holds_of_keeps hstable h
  intro result
  cases result with
  | ok b =>
      exact hf b
  | error e =>
      exact herror e

/-!
# Runs
-/

/-- Every program is at a place of its text where some stable fact holds. -/
def Placed (machine : Machine Op Reply State Choice)
    (allowed : Nat -> Choice -> State -> Op -> Prop)
    (final : Nat -> A -> (State -> Prop) -> Prop) (c : Configuration Op Reply State A) : Prop :=
  forall i program, c.programs[i]? = some program -> exists P, Stable machine i P ∧ P c.state ∧
    Holds machine allowed i (final i) program P

theorem placed_step {final : Nat -> A -> (State -> Prop) -> Prop}
    {c c' : Configuration Op Reply State A} (h : Placed machine allowed final c)
    (hstep : Step machine allowed c c') : Placed machine allowed final c' := by
  intro j program hprogram
  cases hstep with
  | @act i op next choice running ok =>
      by_cases hsame : j = i
      · rw [hsame] at hprogram ⊢
        have hlt := (List.getElem?_eq_some_iff.mp running).1
        have hnow : (c.programs.set i (next (machine.act i choice c.state op).1))[i]? =
            some program :=
          hprogram
        rw [List.getElem?_set_self hlt] at hnow
        rcases h i _ running with ⟨P, _, hP, hholds⟩
        rcases hholds choice c.state hP ok with ⟨Q, hstable, hQ, hnext⟩
        rw [← Option.some.inj hnow]
        exact ⟨Q, hstable, hQ, hnext⟩
      · have hsame' : (c.programs.set i (next (machine.act i choice c.state op).1))[j]? =
            some program := hprogram
        rw [List.getElem?_set_ne (fun heq => hsame heq.symm)] at hsame'
        rcases h j program hsame' with ⟨P, hstable, hP, hholds⟩
        exact ⟨P, hstable, hstable.act (fun heq => hsame heq.symm) choice c.state op hP, hholds⟩
  | others change =>
      rcases h j program hprogram with ⟨P, hstable, hP, hholds⟩
      exact ⟨P, hstable, hstable.others change hP, hholds⟩

theorem placed_runs {final : Nat -> A -> (State -> Prop) -> Prop}
    {c c' : Configuration Op Reply State A} (h : Placed machine allowed final c)
    (hruns : Runs machine allowed c c') : Placed machine allowed final c' := by
  induction hruns with
  | refl =>
      exact h
  | tail _ hstep ih =>
      exact placed_step ih hstep

/-!
# Schedules
-/

/-- The steps of programs in a given order; a step of a program that is done is none. -/
def follow (machine : Machine Op Reply State Choice) (c : Configuration Op Reply State A) :
    List (Nat × Choice) -> Configuration Op Reply State A
  | [] => c
  | (i, choice) :: rest =>
      match c.programs[i]? with
      | some (.call op next) =>
          follow machine ⟨(machine.act i choice c.state op).2,
            c.programs.set i (next (machine.act i choice c.state op).1)⟩ rest
      | _ => follow machine c rest

/-- The steps of a schedule are allowed where they are taken. -/
def AllowedAlong (machine : Machine Op Reply State Choice)
    (allowed : Nat -> Choice -> State -> Op -> Prop) (c : Configuration Op Reply State A) :
    List (Nat × Choice) -> Prop
  | [] => True
  | (i, choice) :: rest =>
      match c.programs[i]? with
      | some (.call op next) => allowed i choice c.state op ∧
          AllowedAlong machine allowed ⟨(machine.act i choice c.state op).2,
            c.programs.set i (next (machine.act i choice c.state op).1)⟩ rest
      | _ => AllowedAlong machine allowed c rest

theorem runs_follow (c : Configuration Op Reply State A) (schedule : List (Nat × Choice))
    (hallowed : AllowedAlong machine allowed c schedule) :
    Runs machine allowed c (follow machine c schedule) := by
  induction schedule generalizing c with
  | nil =>
      exact Relation.ReflTransGen.refl
  | cons entry rest ih =>
      rcases entry with ⟨i, choice⟩
      unfold follow
      unfold AllowedAlong at hallowed
      split
      · next op next hrunning =>
          rw [hrunning] at hallowed
          exact Relation.ReflTransGen.head (Step.act choice hrunning hallowed.1)
            (ih _ hallowed.2)
      · next hidle =>
          apply ih
          split at hallowed
          · next op next hrunning =>
              exact absurd hrunning (hidle op next)
          · exact hallowed

theorem allowedAlong_true (c : Configuration Op Reply State A) (schedule : List (Nat × Choice)) :
    AllowedAlong machine (fun _ _ _ _ => True) c schedule := by
  induction schedule generalizing c with
  | nil =>
      trivial
  | cons entry rest ih =>
      rcases entry with ⟨i, choice⟩
      unfold AllowedAlong
      split
      · exact ⟨trivial, ih _⟩
      · exact ih c

end Foundation
end KnowledgeBrain
