import Mathlib.Data.Set.Finite.Basic
import Mathlib.Order.WellFounded

/-!
# Loops that send requests

A program that sends a request, looks at the answer, and then either goes on or returns. The
answer is chosen by the request, so whoever answers may give each request any answer at all.
-/
namespace GhAddressCr

/-- A program with states `σ`, requests `ι`, answers `ρ` and results `β`. -/
structure RequestLoop (σ ι ρ β : Type*) where
  request : σ → ι
  receive : σ → ρ → σ ⊕ β

namespace RequestLoop

variable {σ ι ρ β : Type*} (loop : RequestLoop σ ι ρ β) (answers : ι → ρ)

/-- One request and what is done with its answer. -/
def step (s : σ) : σ ⊕ β := loop.receive s (answers (loop.request s))

/-- Where the program is after this many requests, or the result if it needed no more. -/
def after : ℕ → σ ⊕ β → σ ⊕ β
  | _, .inr result => .inr result
  | 0, .inl s => .inl s
  | n + 1, .inl s => after n (loop.step answers s)

/-- The program returns this result after finitely many requests. -/
def Returns (start : σ ⊕ β) (result : β) : Prop := ∃ n, loop.after answers n start = .inr result

/-- The program returns after finitely many requests. -/
def Ends (start : σ ⊕ β) : Prop := ∃ result, loop.Returns answers start result

@[simp] theorem after_inr (n : ℕ) (result : β) :
    loop.after answers n (.inr result) = .inr result := by
  cases n <;> rfl

@[simp] theorem after_zero (start : σ ⊕ β) : loop.after answers 0 start = start := by
  cases start <;> rfl

@[simp] theorem after_succ (n : ℕ) (s : σ) :
    loop.after answers (n + 1) (.inl s) = loop.after answers n (loop.step answers s) := rfl

variable {loop answers}

@[simp] theorem returns_inr {result other : β} :
    loop.Returns answers (.inr result) other ↔ result = other := by
  simp [Returns]

/-- A program that is still running returns what it returns after one more request. -/
theorem returns_inl {s : σ} {result : β} :
    loop.Returns answers (.inl s) result ↔ loop.Returns answers (loop.step answers s) result := by
  constructor
  · rintro ⟨n, h⟩
    cases n with
    | zero => simp at h
    | succ n => exact ⟨n, h⟩
  · rintro ⟨n, h⟩
    exact ⟨n + 1, h⟩

@[simp] theorem ends_inr (result : β) : loop.Ends answers (.inr result) :=
  ⟨result, returns_inr.mpr rfl⟩

theorem ends_inl {s : σ} :
    loop.Ends answers (.inl s) ↔ loop.Ends answers (loop.step answers s) :=
  exists_congr fun _ => returns_inl

/-- A loop ends from every state of an invariant if its steps keep to the invariant and go down
a well-founded order. -/
theorem ends_of_wellFounded {r : σ → σ → Prop} (hr : WellFounded r) (Inv : σ → Prop)
    (hstep : ∀ s s', Inv s → loop.step answers s = .inl s' → Inv s' ∧ r s' s) {s : σ}
    (hs : Inv s) : loop.Ends answers (.inl s) := by
  induction s using hr.induction with
  | _ s ih =>
      rw [ends_inl]
      cases h : loop.step answers s with
      | inl s' =>
          obtain ⟨hinv, hless⟩ := hstep s s' hs h
          exact ih s' hless hinv
      | inr result => exact ends_inr result

/-- How many keys have not been seen. -/
def unseen {κ : Type*} [DecidableEq κ] (keys : Finset κ) (seen : List κ) : ℕ :=
  (keys.filter (· ∉ seen)).card

theorem unseen_cons_lt {κ : Type*} [DecidableEq κ] {keys : Finset κ} {seen : List κ} {key : κ}
    (hkey : key ∈ keys) (hfresh : key ∉ seen) : unseen keys (key :: seen) < unseen keys seen := by
  apply Finset.card_lt_card
  rw [Finset.ssubset_iff_of_subset]
  · exact ⟨key, by simp [hkey, hfresh], by simp⟩
  · intro other hother
    simp only [List.mem_cons, not_or, Finset.mem_filter] at hother ⊢
    exact ⟨hother.1, hother.2.2⟩

/-- A loop ends if each step adds to what it has seen something new of a finite set. -/
theorem ends_of_fresh {κ : Type*} [DecidableEq κ] (seen : σ → List κ) (keys : Finset κ)
    (hstep : ∀ s s', loop.step answers s = .inl s' →
      ∃ key ∈ keys, key ∉ seen s ∧ seen s' = key :: seen s) (s : σ) :
    loop.Ends answers (.inl s) := by
  apply ends_of_wellFounded (measure fun s => unseen keys (seen s)).wf (fun _ => True) _ trivial
  intro s s' _ h
  obtain ⟨key, hkey, hfresh, hseen⟩ := hstep s s' h
  refine ⟨trivial, ?_⟩
  show unseen keys (seen s') < unseen keys (seen s)
  rw [hseen]
  exact unseen_cons_lt hkey hfresh

/-- A loop whose steps stay in a set of running states never returns from there. -/
theorem not_ends_of_invariant (Inv : σ → Prop)
    (hstep : ∀ s, Inv s → ∃ s', loop.step answers s = .inl s' ∧ Inv s') {s : σ} (hs : Inv s) :
    ¬ loop.Ends answers (.inl s) := by
  rintro ⟨result, n, h⟩
  induction n generalizing s with
  | zero => simp at h
  | succ n ih =>
      obtain ⟨s', hnext, hinv⟩ := hstep s hs
      rw [after_succ, hnext] at h
      exact ih hinv h

variable (loop)

/-- What the program has come to when these answers have come in, one after the other. -/
def feed : σ ⊕ β → List ρ → σ ⊕ β
  | .inr result, _ => .inr result
  | .inl s, [] => .inl s
  | .inl s, answer :: rest => feed (loop.receive s answer) rest

@[simp] theorem feed_inr (result : β) (rest : List ρ) :
    loop.feed (.inr result) rest = .inr result := by
  cases rest <;> rfl

@[simp] theorem feed_inl_nil (s : σ) : loop.feed (.inl s) [] = .inl s := rfl

@[simp] theorem feed_inl_cons (s : σ) (answer : ρ) (rest : List ρ) :
    loop.feed (.inl s) (answer :: rest) = loop.feed (loop.receive s answer) rest := rfl

end RequestLoop

end GhAddressCr
