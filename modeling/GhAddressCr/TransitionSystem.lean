import Mathlib.Logic.Relation
import Mathlib.Data.List.Basic

/-!
# Labelled transition systems

A system of steps between states, each with a label that says who does what. A run may be
held to a condition on its steps, so that a guarantee can say which steps it rests on.
-/
namespace GhAddressCr

structure TransitionSystem (State Label : Type*) where
  init : State → Prop
  step : State → Label → State → Prop

namespace TransitionSystem

variable {State Label : Type*} (T : TransitionSystem State Label)

/-- A condition on the steps of a run. -/
abbrev StepCondition (State Label : Type*) := State → Label → State → Prop

/-- The condition every step meets. -/
def anyStep : StepCondition State Label := fun _ _ _ => True

/-- The states of the runs whose steps all meet `ok`. -/
inductive ReachableUnder (ok : StepCondition State Label) : State → Prop where
  | start {s : State} : T.init s → ReachableUnder ok s
  | next {s s' : State} {l : Label} :
      ReachableUnder ok s → T.step s l s' → ok s l s' → ReachableUnder ok s'

/-- The states of all runs. -/
def Reachable (s : State) : Prop := T.ReachableUnder anyStep s

variable {T}

theorem Reachable.start {s : State} (h : T.init s) : T.Reachable s :=
  ReachableUnder.start h

theorem Reachable.next {s s' : State} {l : Label} (h : T.Reachable s) (hs : T.step s l s') :
    T.Reachable s' :=
  ReachableUnder.next h hs trivial

/-- An invariant of the steps that meet `ok` holds in every state such a run reaches. -/
theorem ReachableUnder.invariant {ok : StepCondition State Label} (Inv : State → Prop)
    (hinit : ∀ s, T.init s → Inv s)
    (hstep : ∀ s l s', Inv s → T.step s l s' → ok s l s' → Inv s')
    {s : State} (h : T.ReachableUnder ok s) : Inv s := by
  induction h with
  | start h => exact hinit _ h
  | next _ hs hok ih => exact hstep _ _ _ ih hs hok

/-- An inductive invariant holds in every reachable state. -/
theorem Reachable.invariant (Inv : State → Prop) (hinit : ∀ s, T.init s → Inv s)
    (hstep : ∀ s l s', Inv s → T.step s l s' → Inv s') {s : State} (h : T.Reachable s) : Inv s :=
  ReachableUnder.invariant Inv hinit (fun s l s' hi hs _ => hstep s l s' hi hs) h

/-- A run held to a condition is a run. -/
theorem ReachableUnder.reachable {ok : StepCondition State Label} {s : State}
    (h : T.ReachableUnder ok s) : T.Reachable s :=
  h.invariant T.Reachable (fun _ hi => .start hi) fun _ _ _ ih hs _ => ih.next hs

/-- The system whose steps a partial function computes. -/
def ofNext (init : State → Prop) (next : State → Label → Option State) :
    TransitionSystem State Label where
  init := init
  step s l s' := next s l = some s'

/-- The state a run of labels ends in. -/
def run (next : State → Label → Option State) (s : State) (labels : List Label) :
    Option State :=
  labels.foldlM next s

theorem reachable_of_run {init : State → Prop} {next : State → Label → Option State}
    (labels : List Label) {s s' : State} (hs : (ofNext init next).Reachable s)
    (h : run next s labels = some s') : (ofNext init next).Reachable s' := by
  induction labels generalizing s with
  | nil =>
      have hsame : s = s' := Option.some.inj h
      exact hsame ▸ hs
  | cons l labels ih =>
      obtain ⟨middle, hmiddle, hrest⟩ := Option.bind_eq_some_iff.mp h
      exact ih (hs.next hmiddle) hrest

/-- A run of labels, each step of which is checked against the condition. -/
theorem reachableUnder_of_run {init : State → Prop} {next : State → Label → Option State}
    {ok : StepCondition State Label} [∀ s l s', Decidable (ok s l s')] (labels : List Label)
    {s s' : State} (hs : (ofNext init next).ReachableUnder ok s)
    (h : run (fun s l => (next s l).filter fun s' => ok s l s') s labels = some s') :
    (ofNext init next).ReachableUnder ok s' := by
  induction labels generalizing s with
  | nil =>
      have hsame : s = s' := Option.some.inj h
      exact hsame ▸ hs
  | cons l labels ih =>
      obtain ⟨middle, hmiddle, hrest⟩ := Option.bind_eq_some_iff.mp h
      obtain ⟨hstep, hok⟩ := Option.filter_eq_some_iff.mp hmiddle
      exact ih (hs.next hstep (by simpa using hok)) hrest

end TransitionSystem
end GhAddressCr
