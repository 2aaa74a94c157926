import Mathlib.Logic.Function.Basic
import Mathlib.Logic.Relation

/-!
# Audited tables

A table of statuses with a log of what was done to it. Every entry of the log says which key
was given which status; the log accounts for the table when the last entry of each key is its
status now.
-/
namespace GhAddressCr.AuditedTable

variable {Key Status : Type*} [DecidableEq Key]

structure State (Key Status : Type*) where
  status : Key → Option Status
  log : List (Key × Status)

/-- The last status the log gives to a key. -/
def lastStatus (log : List (Key × Status)) (key : Key) : Option Status :=
  (log.findRev? fun entry => entry.1 = key).map (·.2)

theorem lastStatus_append (log : List (Key × Status)) (entry : Key × Status) (key : Key) :
    lastStatus (log ++ [entry]) key =
      if entry.1 = key then some entry.2 else lastStatus log key := by
  unfold lastStatus
  rw [List.findRev?_eq_find?_reverse, List.findRev?_eq_find?_reverse, List.reverse_append]
  simp only [List.reverse_cons, List.reverse_nil, List.nil_append, List.singleton_append,
    List.find?_cons]
  split
  · next hkey => simp [of_decide_eq_true hkey]
  · next hkey => simp [of_decide_eq_false hkey]

/-- The log accounts for the table. -/
def Accounted (a : State Key Status) : Prop :=
  ∀ (key : Key) (status : Status), lastStatus a.log key = some status → a.status key = some status

/-- The key takes the status, and the log says so. -/
def State.set (a : State Key Status) (key : Key) (status : Status) : State Key Status where
  status := Function.update a.status key (some status)
  log := a.log ++ [(key, status)]

theorem State.status_set (a : State Key Status) (key other : Key) (status : Status) :
    (a.set key status).status other = if other = key then some status else a.status other :=
  Function.update_apply a.status key (some status) other

/-- A key that was never used is added with a first status, or a key moves from one status to
another. -/
inductive Step (First : Key → Status → Prop) (Moves : Status → Status → Prop) :
    State Key Status → State Key Status → Prop where
  | create {a : State Key Status} (key : Key) (status : Status) :
      a.status key = none → (∀ entry ∈ a.log, entry.1 ≠ key) → First key status →
      Step First Moves a (a.set key status)
  | move {a : State Key Status} (key : Key) (old new : Status) :
      a.status key = some old → Moves old new → Step First Moves a (a.set key new)

/-- Any number of steps. -/
def Steps (First : Key → Status → Prop) (Moves : Status → Status → Prop) :
    State Key Status → State Key Status → Prop :=
  Relation.ReflTransGen (Step First Moves)

variable {First : Key → Status → Prop} {Moves : Status → Status → Prop} {a b : State Key Status}

theorem Accounted.set (h : Accounted a) (key : Key) (status : Status) :
    Accounted (a.set key status) := by
  intro other last hlast
  rw [State.status_set]
  simp only [State.set, lastStatus_append] at hlast
  by_cases hkey : key = other
  · subst hkey
    simpa using hlast
  · rw [if_neg hkey] at hlast
    rw [if_neg (Ne.symm hkey)]
    exact h other last hlast

theorem Step.accounted (h : Step First Moves a b) (ha : Accounted a) : Accounted b := by
  cases h with
  | create key status _ _ _ => exact ha.set key status
  | move key _ new _ _ => exact ha.set key new

/-- Steps keep the table accounted for. -/
theorem Steps.accounted (h : Steps First Moves a b) (ha : Accounted a) : Accounted b := by
  induction h with
  | refl => exact ha
  | tail _ hstep ih => exact hstep.accounted ih

/-- A step keeps every key, and moves its status at most once. -/
theorem Step.status (h : Step First Moves a b) {key : Key} {old : Status}
    (hold : a.status key = some old) :
    ∃ new, b.status key = some new ∧ (new = old ∨ Moves old new) := by
  cases h with
  | create created _ hnone _ _ =>
      have hne : key ≠ created := by
        rintro rfl
        simp [hold] at hnone
      exact ⟨old, by rw [State.status_set, if_neg hne, hold], Or.inl rfl⟩
  | move moved before after hmoved hmoves =>
      by_cases hkey : key = moved
      · subst hkey
        rw [hold] at hmoved
        obtain rfl := Option.some.inj hmoved
        exact ⟨after, by rw [State.status_set, if_pos rfl], Or.inr hmoves⟩
      · exact ⟨old, by rw [State.status_set, if_neg hkey, hold], Or.inl rfl⟩

/-- Steps keep every key, and its status only makes moves. -/
theorem Steps.status (h : Steps First Moves a b) {key : Key} {old : Status}
    (hold : a.status key = some old) :
    ∃ new, b.status key = some new ∧ Relation.ReflTransGen Moves old new := by
  induction h with
  | refl => exact ⟨old, hold, .refl⟩
  | tail _ hstep ih =>
      obtain ⟨middle, hmiddle, hpath⟩ := ih
      obtain ⟨new, hnew, hmove⟩ := hstep.status hmiddle
      rcases hmove with rfl | hmove
      · exact ⟨_, hnew, hpath⟩
      · exact ⟨new, hnew, hpath.tail hmove⟩

theorem Step.log (h : Step First Moves a b) : ∃ entry, b.log = a.log ++ [entry] := by
  cases h with
  | create key status _ _ _ => exact ⟨(key, status), rfl⟩
  | move key _ new _ _ => exact ⟨(key, new), rfl⟩

/-- The log only grows. -/
theorem Steps.log (h : Steps First Moves a b) : a.log ⊆ b.log := by
  induction h with
  | refl => exact fun _ hentry => hentry
  | tail _ hstep ih =>
      obtain ⟨entry, hlog⟩ := hstep.log
      intro old hold
      rw [hlog]
      exact List.mem_append_left _ (ih hold)

/-- A key of the log that is in the table afterwards was in it before. -/
theorem Steps.origin (h : Steps First Moves a b) {key : Key} {new : Status}
    (hnew : b.status key = some new) (hlogged : ∃ entry ∈ a.log, entry.1 = key) :
    ∃ old, a.status key = some old ∧ Relation.ReflTransGen Moves old new := by
  induction h generalizing new with
  | refl => exact ⟨new, hnew, .refl⟩
  | tail hsteps hstep ih =>
      obtain ⟨entry, hentry, hkey⟩ := hlogged
      have hkept := Steps.log hsteps hentry
      cases hstep with
      | create created first hnone hunused _ =>
          have hne : key ≠ created := fun hsame => hunused entry hkept (hkey.trans hsame)
          rw [State.status_set, if_neg hne] at hnew
          exact ih hnew
      | move moved before after hmoved hmoves =>
          by_cases hsame : key = moved
          · subst hsame
            rw [State.status_set, if_pos rfl] at hnew
            obtain rfl := Option.some.inj hnew
            obtain ⟨old, hold, hpath⟩ := ih hmoved
            exact ⟨old, hold, hpath.tail hmoves⟩
          · rw [State.status_set, if_neg hsame] at hnew
            exact ih hnew

/-- A key that is not created stays unused. -/
theorem Steps.unused (h : Steps First Moves a b) {key : Key}
    (hfirst : ∀ status, ¬ First key status) (hnone : a.status key = none) (hunused : ∀ entry ∈ a.log, entry.1 ≠ key) :
    b.status key = none ∧ ∀ entry ∈ b.log, entry.1 ≠ key := by
  induction h with
  | refl => exact ⟨hnone, hunused⟩
  | tail _ hstep ih =>
      cases hstep with
      | create created _ _ _ hcreated =>
          have hne : key ≠ created := by
            rintro rfl
            exact hfirst _ hcreated
          refine ⟨by rw [State.status_set, if_neg hne, ih.1], ?_⟩
          intro entry hentry
          rcases List.mem_append.mp hentry with hentry | hentry
          · exact ih.2 entry hentry
          · obtain rfl := List.mem_singleton.mp hentry
            exact hne.symm
      | move moved before after hmoved _ =>
          have hne : key ≠ moved := by
            rintro rfl
            simp [ih.1] at hmoved
          refine ⟨by rw [State.status_set, if_neg hne, ih.1], ?_⟩
          intro entry hentry
          rcases List.mem_append.mp hentry with hentry | hentry
          · exact ih.2 entry hentry
          · obtain rfl := List.mem_singleton.mp hentry
            exact hne.symm

theorem Steps.weaken {First' : Key → Status → Prop} (h : Steps First Moves a b)
    (hfirst : ∀ key status, First key status → First' key status) :
    Steps First' Moves a b := by
  refine Relation.ReflTransGen.mono (fun before after hstep => ?_) _ _ h
  cases hstep with
  | create key status hnone hunused hcreated =>
      exact .create key status hnone hunused (hfirst key status hcreated)
  | move key old new hmoved hmoves => exact .move key old new hmoved hmoves

end GhAddressCr.AuditedTable
