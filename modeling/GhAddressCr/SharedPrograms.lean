import GhAddressCr.TransitionSystem
import Mathlib.Logic.Function.Basic

/-!
# Programs over a shared state

Any number of parties run a program each over one shared state, in any order of their steps, and
an environment changes the shared state in steps of its own. What holds at a point of a party's
program has to survive the steps of the others: the rule below asks that once, of what a party may
rely on.
-/
namespace GhAddressCr.SharedPrograms

variable {ι σ κ α ε : Type}

structure Program (ι σ κ α ε : Type) where
  /-- A step of a party; `none` where it cannot be taken. -/
  act : ι → α → σ → κ → Option (σ × κ)
  drift : ε → σ → Option σ

structure State (ι σ κ : Type) where
  shared : σ
  locals : ι → κ

inductive Label (ι α ε : Type) where
  | act (party : ι) (action : α)
  | drift (change : ε)
deriving DecidableEq

section Runs

variable [DecidableEq ι] (P : Program ι σ κ α ε)

def next (s : State ι σ κ) : Label ι α ε → Option (State ι σ κ)
  | .act party action =>
      (P.act party action s.shared (s.locals party)).map fun (shared, here) =>
        { shared := shared, locals := Function.update s.locals party here }
  | .drift change => (P.drift change s.shared).map fun shared => { s with shared := shared }

def runs (init : State ι σ κ → Prop) : TransitionSystem (State ι σ κ) (Label ι α ε) :=
  .ofNext init (next P)

/-- The runs that go on from a state. -/
def runsFrom (s : State ι σ κ) : TransitionSystem (State ι σ κ) (Label ι α ε) := runs P (· = s)

end Runs

/-- A condition on the actions of the parties, and on where they lead, and on the drift. -/
def onSteps (acts : α → κ → Prop) (drifts : ε → Prop) :
    TransitionSystem.StepCondition (State ι σ κ) (Label ι α ε) := fun _ label after =>
  match label with
  | .act party action => acts action (after.locals party)
  | .drift change => drifts change

instance {acts : α → κ → Prop} {drifts : ε → Prop} [∀ action here, Decidable (acts action here)]
    [∀ change, Decidable (drifts change)] (s : State ι σ κ) (label : Label ι α ε)
    (after : State ι σ κ) : Decidable (onSteps acts drifts s label after) :=
  match label with
  | .act party action => inferInstanceAs (Decidable (acts action (after.locals party)))
  | .drift change => inferInstanceAs (Decidable (drifts change))

section Rules

variable [DecidableEq ι] {P : Program ι σ κ α ε} {s s' : State ι σ κ}

theorem next_act {party : ι} {action : α} :
    next P s (.act party action) = some s' ↔
      ∃ here, P.act party action s.shared (s.locals party) = some (s'.shared, here) ∧
        s'.locals = Function.update s.locals party here := by
  obtain ⟨shared', locals'⟩ := s'
  simp only [next, Option.map_eq_some_iff, Prod.exists, State.mk.injEq]
  constructor
  · intro ⟨shared, here, hact, hshared, hlocals⟩
    exact ⟨here, hshared ▸ hact, hlocals.symm⟩
  · intro ⟨here, hact, hlocals⟩
    exact ⟨shared', here, hact, rfl, hlocals.symm⟩

theorem next_drift {change : ε} :
    next P s (.drift change) = some s' ↔
      P.drift change s.shared = some s'.shared ∧ s'.locals = s.locals := by
  obtain ⟨shared', locals'⟩ := s'
  simp only [next, Option.map_eq_some_iff, State.mk.injEq]
  constructor
  · intro ⟨shared, hdrift, hshared, hlocals⟩
    exact ⟨hshared ▸ hdrift, hlocals.symm⟩
  · intro ⟨hdrift, hlocals⟩
    exact ⟨shared', hdrift, rfl, hlocals.symm⟩

variable {acts : α → κ → Prop} {drifts : ε → Prop}

/-- What holds of the shared state, and at each point of a party's program, holds along every run:
a party's step keeps its own part and changes the shared state only as the others may rely on,
and so does the drift. -/
theorem invariant {init : State ι σ κ → Prop} (Inv : σ → Prop) (At : ι → σ → κ → Prop)
    (Rely : ι → σ → σ → Prop)
    (hinit : ∀ s, init s → Inv s.shared ∧ ∀ party, At party s.shared (s.locals party))
    (hact : ∀ party action shared here shared' here', Inv shared → At party shared here →
      P.act party action shared here = some (shared', here') → acts action here' →
      Inv shared' ∧ At party shared' here' ∧ ∀ other, other ≠ party → Rely other shared shared')
    (hdrift : ∀ change shared shared', Inv shared → P.drift change shared = some shared' →
      drifts change → Inv shared' ∧ ∀ party, Rely party shared shared')
    (hstable : ∀ party shared shared' here, Inv shared' → At party shared here →
      Rely party shared shared' → At party shared' here)
    (h : (runs P init).ReachableUnder (onSteps acts drifts) s) :
    Inv s.shared ∧ ∀ party, At party s.shared (s.locals party) := by
  refine h.invariant (fun s => Inv s.shared ∧ ∀ party, At party s.shared (s.locals party))
    hinit ?_
  intro s label s' hs hstep hok
  obtain ⟨hinv, hat⟩ := hs
  cases label with
  | act party action =>
      obtain ⟨here, hrun, hlocals⟩ := next_act.mp hstep
      have hallowed : acts action here := by
        have hok' : acts action (s'.locals party) := hok
        simpa [hlocals] using hok'
      have hresult := hact party action _ _ _ _ hinv (hat party) hrun hallowed
      refine ⟨hresult.1, fun other => ?_⟩
      rw [hlocals]
      by_cases hother : other = party
      · subst hother
        simpa using hresult.2.1
      · rw [Function.update_of_ne hother]
        exact hstable other _ _ _ hresult.1 (hat other) (hresult.2.2 other hother)
  | drift change =>
      obtain ⟨hrun, hlocals⟩ := next_drift.mp hstep
      have hresult := hdrift change _ _ hinv hrun hok
      refine ⟨hresult.1, fun party => ?_⟩
      rw [hlocals]
      exact hstable party _ _ _ hresult.1 (hat party) (hresult.2 party)

/-- Every run keeps to no condition. -/
theorem reachable_onSteps {init : State ι σ κ → Prop} (h : (runs P init).Reachable s) :
    (runs P init).ReachableUnder (onSteps (fun _ _ => True) fun _ => True) s := by
  refine h.invariant _ (fun _ hinit => .start hinit) fun _ label _ ih hstep => ih.next hstep ?_
  cases label <;> trivial

theorem reachable_self (ok : TransitionSystem.StepCondition (State ι σ κ) (Label ι α ε)) :
    (runsFrom P s).ReachableUnder ok s := .start rfl

section Labels

variable (P acts drifts)
variable [∀ action here, Decidable (acts action here)] [∀ change, Decidable (drifts change)]

/-- The state after the labels, each of which meets the conditions. -/
def runUnder (s : State ι σ κ) (labels : List (Label ι α ε)) : Option (State ι σ κ) :=
  TransitionSystem.run
    (fun s label => (next P s label).filter fun s' => onSteps acts drifts s label s') s labels

variable {P acts drifts}

theorem reachable_runUnder {init : State ι σ κ → Prop} {labels : List (Label ι α ε)}
    (hs : (runs P init).ReachableUnder (onSteps acts drifts) s)
    (hrun : runUnder P acts drifts s labels = some s') :
    (runs P init).ReachableUnder (onSteps acts drifts) s' :=
  TransitionSystem.reachableUnder_of_run labels hs hrun

end Labels

end Rules

end GhAddressCr.SharedPrograms
