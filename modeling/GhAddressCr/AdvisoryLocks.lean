import Mathlib.Combinatorics.Enumerative.DoubleCounting
import Mathlib.Logic.Function.Basic

/-!
# Advisory locks

A table of named locks, each with at most one holder. A table agrees with what its holders say
they hold; taking and giving back a lock keep that, and so no more holders than locks fit.
-/
namespace GhAddressCr.AdvisoryLocks

variable {ν ι : Type}

/-- Who holds each lock. -/
abbrev LockTable (ν ι : Type) := ν → Option ι

def free : LockTable ν ι := fun _ => none

section Operations

variable [DecidableEq ν]

/-- The lock, or `none` while somebody holds it. -/
def tryAcquire (locks : LockTable ν ι) (name : ν) (holder : ι) : Option (LockTable ν ι) :=
  if (locks name).isNone then some (Function.update locks name (some holder)) else none

def release (locks : LockTable ν ι) : Option ν → LockTable ν ι
  | some name => Function.update locks name none
  | none => locks

end Operations

/-- A holder has exactly the lock that it says it has. -/
def Held (locks : LockTable ν ι) (holder : ι) (lock : Option ν) : Prop :=
  ∀ name, locks name = some holder ↔ lock = some name

/-- The locks of a holder are as they were. -/
def Untouched (holder : ι) (locks locks' : LockTable ν ι) : Prop :=
  ∀ name, locks' name = some holder ↔ locks name = some holder

theorem Untouched.refl (holder : ι) (locks : LockTable ν ι) : Untouched holder locks locks :=
  fun _ => Iff.rfl

theorem Held.of_untouched {locks locks' : LockTable ν ι} {holder : ι} {lock : Option ν}
    (h : Held locks holder lock) (hkept : Untouched holder locks locks') :
    Held locks' holder lock :=
  fun name => (hkept name).trans (h name)

theorem held_free (holder : ι) : Held (free : LockTable ν ι) holder none := by
  intro name
  simp [free]

section Locks

variable [DecidableEq ν] {locks locks' : LockTable ν ι} {name : ν} {holder : ι}

theorem tryAcquire_eq_some :
    tryAcquire locks name holder = some locks' ↔
      locks name = none ∧ locks' = Function.update locks name (some holder) := by
  unfold tryAcquire
  cases hlock : locks name with
  | none => simp [eq_comm]
  | some other => simp

theorem Held.acquire (h : Held locks holder none)
    (hlock : tryAcquire locks name holder = some locks') : Held locks' holder (some name) := by
  obtain ⟨_, rfl⟩ := tryAcquire_eq_some.mp hlock
  intro other
  by_cases hother : other = name
  · simp [hother]
  · have hnone := h other
    simp only [reduceCtorEq, iff_false] at hnone
    simp [Function.update_of_ne hother, hnone, Ne.symm hother]

theorem untouched_acquire {other : ι} (hother : other ≠ holder)
    (hlock : tryAcquire locks name holder = some locks') : Untouched other locks locks' := by
  obtain ⟨hfree, rfl⟩ := tryAcquire_eq_some.mp hlock
  intro taken
  by_cases htaken : taken = name
  · subst htaken
    simp [hfree, Ne.symm hother]
  · rw [Function.update_of_ne htaken]

theorem Held.release {lock : Option ν} (h : Held locks holder lock) :
    Held (release locks lock) holder none := by
  intro other
  simp only [reduceCtorEq, iff_false]
  cases lock with
  | none => simpa [AdvisoryLocks.release] using h other
  | some name =>
      by_cases hother : other = name
      · simp [AdvisoryLocks.release, hother]
      · have hheld := h other
        simp only [Option.some.injEq, Ne.symm hother, iff_false] at hheld
        simpa [AdvisoryLocks.release, Function.update_of_ne hother] using hheld

theorem untouched_release {other : ι} {lock : Option ν} (hother : other ≠ holder)
    (h : Held locks holder lock) : Untouched other locks (AdvisoryLocks.release locks lock) := by
  intro taken
  cases lock with
  | none => simp [AdvisoryLocks.release]
  | some name =>
      by_cases htaken : taken = name
      · subst htaken
        have hholder := (h taken).mpr rfl
        simp [AdvisoryLocks.release, hholder, Ne.symm hother]
      · simp [AdvisoryLocks.release, Function.update_of_ne htaken]

end Locks

variable {locks : LockTable ν ι}

/-- Nobody holds the lock that another holds. -/
theorem Held.unique {name : ν} {holder other : ι} (h : Held locks holder (some name))
    (hother : Held locks other (some name)) : holder = other := by
  have hlock := (h name).mpr rfl
  have hlock' := (hother name).mpr rfl
  rw [hlock] at hlock'
  exact Option.some.inj hlock'

/-- No more holders than there are locks for them. -/
theorem card_le_of_held {held : ι → Option ν} (h : ∀ holder, Held locks holder (held holder))
    (holders : Finset ι) (names : Finset ν)
    (hnames : ∀ holder ∈ holders, ∃ name ∈ names, held holder = some name) :
    holders.card ≤ names.card := by
  refine Finset.card_le_card_of_forall_subsingleton (fun holder name => held holder = some name)
    (fun holder hholder => ?_) ?_
  · obtain ⟨name, hname, hheld⟩ := hnames holder hholder
    exact ⟨name, hname, hheld⟩
  · intro name _ first hfirst second hsecond
    have hone : Held locks first (some name) := hfirst.2 ▸ h first
    have htwo : Held locks second (some name) := hsecond.2 ▸ h second
    exact hone.unique htwo

end GhAddressCr.AdvisoryLocks
