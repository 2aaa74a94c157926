import GhAddressCr.AdvisoryLocks
import GhAddressCr.SharedPrograms
import Mathlib.Order.Interval.Finset.Nat

/-!
# The machine-local throttle of `gh` calls

Every session of a machine sends its `gh` calls through one gate: mutations take a lane and keep a
space between them, reads take one of a few slots, and a rate-limit signal opens a window in which
no call is sent. The parties are the calls; each goes through the gate, the command and the signal
a file access, a clock reading or a lock at a time, and may stop anywhere.

Instants count 2⁻²² s, the grain of a float of the seconds since 1970 until 2038. The sums and
differences that the gate computes are exact there.
-/
namespace GhAddressCr.GhThrottle

open SharedPrograms AdvisoryLocks

/-- That many seconds. -/
def seconds (count : ℤ) : ℤ := count * 4194304

def readSlots : ℕ := 8
def slotWaitSeconds : ℤ := seconds 10
def mutationWaitSeconds : ℤ := seconds 30
def mutationSpacingSeconds : ℤ := seconds 1
def backoffLockWaitSeconds : ℤ := seconds 1
def backoffSeconds : ℤ := seconds 60

inductive LockName where
  | mutation
  | slot (index : ℕ)
  | backoff
deriving DecidableEq

/-- What the sessions share: the clocks, the locks, and the number that each file holds, if any. -/
structure Shared where
  monotonic : ℤ
  time : ℤ
  locks : LockTable LockName ℕ := free
  backoffUntil : Option ℤ := none
  lastMutation : Option ℤ := none

/-- A call in the gate, `started` when it began to wait for its lock. -/
structure Call where
  mutation : Bool
  started : ℤ
deriving DecidableEq

/-- A call that was let through, with the lock it got. -/
structure Pass extends Call where
  lock : Option LockName
deriving DecidableEq

/-- The names a call tries in one round. -/
def lockNames (mutation : Bool) : List LockName :=
  if mutation then [.mutation] else (List.range readSlots).map .slot

def waitSeconds (mutation : Bool) : ℤ :=
  if mutation then mutationWaitSeconds else slotWaitSeconds

/-- Where a call is. -/
inductive Phase where
  | idle
  /-- Before the first reading of the window; then with the end that it read. -/
  | entering (mutation : Bool)
  | checking (mutation : Bool) (backoffUntil : ℤ)
  | starting (call : Call)
  | queued (call : Call) (deadline : ℤ) (names : List LockName)
  /-- Through the wait; the window is read again. -/
  | admitted (pass : Pass)
  | rechecking (pass : Pass) (backoffUntil : ℤ)
  | refusing (lock : Option LockName)
  | spacing (pass : Pass)
  | measuring (pass : Pass) (now : ℤ)
  /-- Asleep until then. -/
  | ready (pass : Pass) (wakeAt : ℤ)
  /-- The command runs; without a pass where there is no directory for the files. -/
  | running (pass : Option Pass)
  | marking (pass : Pass) (limited : Bool)
  | writingMark (pass : Pass) (limited : Bool) (now : ℤ)
  | leaving (lock : Option LockName) (limited : Bool)
  | limited
  /-- Waits for the lock of the window; whether it was tried in this round. -/
  | signalling (deadline : ℤ) (tried : Bool)
  | recording
  | extending (expiry : ℤ)
  | writingBackoff (expiry : ℤ)
  | recorded
  | refused
  | returned
  | crashed
deriving DecidableEq

/-- The lock that a call holds there. -/
def Phase.lock : Phase → Option LockName
  | .admitted pass | .rechecking pass _ | .spacing pass | .measuring pass _ | .ready pass _
  | .running (some pass) | .marking pass _ | .writingMark pass _ _ => pass.lock
  | .refusing lock | .leaving lock _ => lock
  | .recording | .extending _ | .writingBackoff _ | .recorded => some .backoff
  | _ => none

/-- A step of a call, with what the world outside answers. -/
inductive Action where
  | begin (mutation root : Bool)
  /-- A file is read; it may fail to be. -/
  | read (readable : Bool)
  /-- A clock is read, and what it decides is done. -/
  | clock
  | tryLock (opens : Bool)
  | launch
  | finish (limited : Bool)
  /-- A file is replaced, or cannot be. -/
  | write (succeeds : Bool)
  | release
  | signal (root : Bool)
  | crash
deriving DecidableEq

/-- What a reading of a file gives: zero where there is no number in it. -/
def readEpoch (content : Option ℤ) (readable : Bool) : ℤ :=
  if readable then content.getD 0 else 0

/-- The length of the sleep before a mutation. -/
def spacingGap (now last : ℤ) : ℤ :=
  let gap := mutationSpacingSeconds - (now - last)
  if 0 < gap ∧ gap ≤ mutationSpacingSeconds then gap else 0

/-- Let through: a mutation keeps its space first. -/
def beforeCommand (pass : Pass) (now : ℤ) : Phase :=
  if pass.mutation then .spacing pass else .ready pass now

/-- After the command: a mutation leaves its mark. -/
def afterCommand (pass : Pass) (limited : Bool) : Phase :=
  if pass.mutation then .marking pass limited else .leaving pass.lock limited

/-- After the gate: a rate-limit signal is recorded. -/
def afterGate (limited : Bool) : Phase := if limited then .limited else .returned

def Phase.over : Phase → Bool
  | .idle | .refused | .returned | .crashed => true
  | _ => false

/-- One step of a call; `none` where it cannot be taken. -/
def act (call : ℕ) : Action → Shared → Phase → Option (Shared × Phase)
  -- gh_call_gate
  | .begin mutation root, s, .idle => some (s, if root then .entering mutation else .running none)
  | .read readable, s, .entering mutation =>
      some (s, .checking mutation (readEpoch s.backoffUntil readable))
  | .clock, s, .checking mutation backoffUntil =>
      some (s, if backoffUntil - s.time ≤ 0 then .starting ⟨mutation, s.monotonic⟩ else .refused)
  | .clock, s, .starting call =>
      let deadline := s.monotonic + waitSeconds call.mutation
      some (s, .queued call deadline (lockNames call.mutation))
  | .tryLock opens, s, .queued here deadline (name :: names) =>
      if opens then
        match tryAcquire s.locks name call with
        | some locks => some ({ s with locks := locks }, .admitted ⟨here, some name⟩)
        | none => some (s, .queued here deadline names)
      else some (s, .admitted ⟨here, none⟩)
  | .clock, s, .queued here deadline [] =>
      some (s, if deadline ≤ s.monotonic then .admitted ⟨here, none⟩
        else .queued here deadline (lockNames here.mutation))
  | .read readable, s, .admitted pass =>
      some (s, .rechecking pass (readEpoch s.backoffUntil readable))
  | .clock, s, .rechecking pass backoffUntil =>
      some (s, if backoffUntil - s.time ≤ 0 then beforeCommand pass s.monotonic
        else .refusing pass.lock)
  | .release, s, .refusing lock => some ({ s with locks := release s.locks lock }, .refused)
  -- _space_mutation
  | .clock, s, .spacing pass => some (s, .measuring pass s.time)
  | .read readable, s, .measuring pass now =>
      some (s, .ready pass (s.monotonic + spacingGap now (readEpoch s.lastMutation readable)))
  | .launch, s, .ready pass wakeAt =>
      if wakeAt ≤ s.monotonic then some (s, .running (some pass)) else none
  | .finish limited, s, .running (some pass) => some (s, afterCommand pass limited)
  | .finish limited, s, .running none => some (s, afterGate limited)
  -- _mark_mutation
  | .clock, s, .marking pass limited => some (s, .writingMark pass limited s.time)
  | .write succeeds, s, .writingMark pass limited now =>
      some (if succeeds then { s with lastMutation := some now } else s, .leaving pass.lock limited)
  | .release, s, .leaving lock limited =>
      some ({ s with locks := release s.locks lock }, afterGate limited)
  -- record_rate_limit
  | .signal root, s, .limited =>
      some (s, if root then .signalling (s.monotonic + backoffLockWaitSeconds) false
        else .returned)
  | .tryLock opens, s, .signalling deadline false =>
      if opens then
        match tryAcquire s.locks .backoff call with
        | some locks => some ({ s with locks := locks }, .recording)
        | none => some (s, .signalling deadline true)
      else some (s, .returned)
  | .clock, s, .signalling deadline true =>
      some (s, if deadline ≤ s.monotonic then .returned else .signalling deadline false)
  | .clock, s, .recording => some (s, .extending (s.time + backoffSeconds))
  | .read readable, s, .extending expiry =>
      some (s, .writingBackoff (max expiry (readEpoch s.backoffUntil readable)))
  | .write succeeds, s, .writingBackoff expiry =>
      some (if succeeds then { s with backoffUntil := some expiry } else s, .recorded)
  | .release, s, .recorded =>
      some ({ s with locks := release s.locks (some .backoff) }, .returned)
  | .crash, s, phase =>
      if phase.over then none
      else some ({ s with locks := release s.locks phase.lock }, .crashed)
  | _, _, _ => none

/-- Time passes, or the clock of the day is set. -/
inductive Drift where
  | advance (duration : ℕ)
  | setTime (time : ℤ)
deriving DecidableEq

def drift : Drift → Shared → Option Shared
  | .advance duration, s =>
      some { s with monotonic := s.monotonic + duration, time := s.time + duration }
  | .setTime time, s => some { s with time := time }

/-- A `gh` call, from the gate to the signal. -/
def throttle : Program ℕ Shared Phase Action Drift := { act := act, drift := drift }

abbrev Machine := State ℕ Shared Phase

/-- No call is on its way; the files are as earlier calls left them. -/
def AtRest (machine : Machine) : Prop :=
  machine.shared.locks = free ∧ ∀ call, machine.locals call = .idle

/-- The runs of all calls of a machine. -/
abbrev throttleRuns : TransitionSystem Machine (Label ℕ Action Drift) := runs throttle AtRest

/-- How the locks change with a step of a call. -/
inductive LockEffect (call : ℕ) (before after : LockTable LockName ℕ)
    (here here' : Phase) : Prop where
  | kept (hlocks : after = before) (hhere : here'.lock = here.lock)
  | taken (name : LockName) (hnone : here.lock = none)
      (hlock : tryAcquire before name call = some after) (hhere : here'.lock = some name)
  | returned (hlocks : after = release before here.lock) (hhere : here'.lock = none)

theorem beforeCommand_lock (pass : Pass) (now : ℤ) :
    (beforeCommand pass now).lock = pass.lock := by
  unfold beforeCommand
  split <;> rfl

theorem afterCommand_lock (pass : Pass) (limited : Bool) :
    (afterCommand pass limited).lock = pass.lock := by
  unfold afterCommand
  split <;> rfl

theorem afterGate_lock (limited : Bool) : (afterGate limited).lock = none := by
  cases limited <;> rfl

/-- A step of a call changes no clock, and each file only where the call writes it. -/
structure Effect (call : ℕ) (s s' : Shared) (here here' : Phase) : Prop where
  locks : LockEffect call s.locks s'.locks here here'
  monotonic : s'.monotonic = s.monotonic
  time : s'.time = s.time
  backoffUntil : s'.backoffUntil = s.backoffUntil ∨
    ∃ expiry, here = .writingBackoff expiry ∧ s'.backoffUntil = some expiry
  lastMutation : s'.lastMutation = s.lastMutation ∨
    ∃ pass limited now, here = .writingMark pass limited now ∧ s'.lastMutation = some now

theorem Effect.inside {call : ℕ} {s : Shared} {here here' : Phase} (h : here'.lock = here.lock) :
    Effect call s s here here' :=
  ⟨.kept rfl h, rfl, rfl, .inl rfl, .inl rfl⟩

theorem Effect.returned {call : ℕ} {s : Shared} {here here' : Phase} {lock : Option LockName}
    (h : here.lock = lock) (h' : here'.lock = none) :
    Effect call s { s with locks := release s.locks lock } here here' :=
  ⟨.returned (h ▸ rfl) h', rfl, rfl, .inl rfl, .inl rfl⟩

theorem Effect.tried {call : ℕ} {s s' : Shared} {here here' got missed failed : Phase}
    {opens : Bool} {name : LockName} (hhere : here.lock = none) (hgot : got.lock = some name)
    (hmissed : missed.lock = none) (hfailed : failed.lock = none)
    (h : (if opens then
        match tryAcquire s.locks name call with
        | some locks => some ({ s with locks := locks }, got)
        | none => some (s, missed)
      else some (s, failed)) = some (s', here')) : Effect call s s' here here' := by
  split at h
  · split at h
    case h_1 locks hlock =>
      cases h
      exact ⟨.taken name hhere hlock hgot, rfl, rfl, .inl rfl, .inl rfl⟩
    case h_2 =>
      cases h
      exact .inside (hmissed.trans hhere.symm)
  · cases h
    exact .inside (hfailed.trans hhere.symm)

theorem act_effect {call : ℕ} {action : Action} {s s' : Shared} {here here' : Phase}
    (h : act call action s here = some (s', here')) : Effect call s s' here here' := by
  unfold act at h
  split at h
  -- A lock is tried.
  case h_5 => exact .tried rfl rfl rfl rfl h
  case h_19 => exact .tried rfl rfl rfl rfl h
  -- The window is read again.
  case h_8 =>
    cases h
    refine .inside ?_
    split
    · exact beforeCommand_lock _ _
    · rfl
  -- The sleep is over.
  case h_12 =>
    split at h
    · cases h
      exact .inside rfl
    · cases h
  -- A file is written.
  case h_16 pass limited now =>
    cases h
    refine ⟨.kept (by split <;> rfl) rfl, by split <;> rfl, by split <;> rfl,
      .inl (by split <;> rfl), ?_⟩
    split
    · exact .inr ⟨pass, limited, now, rfl, rfl⟩
    · exact .inl rfl
  case h_23 expiry =>
    cases h
    refine ⟨.kept (by split <;> rfl) rfl, by split <;> rfl, by split <;> rfl, ?_,
      .inl (by split <;> rfl)⟩
    split
    · exact .inr ⟨expiry, rfl, rfl⟩
    · exact .inl rfl
  case h_25 =>
    split at h
    · cases h
    · cases h
      exact .returned rfl rfl
  case h_26 => cases h
  -- The call alone moves on, or gives its lock back.
  all_goals
    cases h
    first
    | exact .inside rfl
    | exact .inside (by split <;> rfl)
    | exact .inside (afterCommand_lock _ _)
    | exact .inside (afterGate_lock _)
    | exact .returned rfl rfl
    | exact .returned rfl (afterGate_lock _)

/-- The call keeps to what it says it holds, and the locks of the others stay as they are. -/
theorem Effect.held {call : ℕ} {s s' : Shared} {here here' : Phase}
    (h : Effect call s s' here here') (hheld : Held s.locks call here.lock) :
    Held s'.locks call here'.lock ∧
      ∀ other, other ≠ call → Untouched other s.locks s'.locks := by
  cases h.locks with
  | kept hlocks hhere =>
      rw [hlocks, hhere]
      exact ⟨hheld, fun other _ => .refl other _⟩
  | taken name hnone hlock hhere =>
      rw [hhere]
      rw [hnone] at hheld
      exact ⟨hheld.acquire hlock, fun other hother => untouched_acquire hother hlock⟩
  | returned hlocks hhere =>
      rw [hlocks, hhere]
      exact ⟨hheld.release, fun other hother => untouched_release hother hheld⟩

/-- The end of the window, as a call that can read the file reads it. -/
def windowEnd (s : Shared) : ℤ := readEpoch s.backoffUntil true

/-- The runs in which no file fails to be read. -/
def FilesRead (action : Action) (_ : Phase) : Prop := action ≠ .read false

instance (action : Action) (here : Phase) : Decidable (FilesRead action here) :=
  inferInstanceAs (Decidable (action ≠ .read false))

/-- A call about to write the window does not shorten it. -/
def Extends (s : Shared) : Phase → Prop
  | .writingBackoff expiry => windowEnd s ≤ expiry
  | _ => True

theorem act_extends {call : ℕ} {action : Action} {s s' : Shared} {here here' : Phase}
    (h : act call action s here = some (s', here')) (hread : FilesRead action here') :
    Extends s' here' := by
  unfold act beforeCommand afterCommand afterGate at h
  split at h
  case h_22 readable expiry =>
    cases h
    have hreadable : readable = true := by
      cases readable with
      | true => rfl
      | false => exact absurd rfl hread
    rw [hreadable]
    exact le_max_right _ _
  all_goals
    repeat' split at h
    all_goals cases h <;> trivial

/-- What holds of a call wherever it is. -/
structure Standing (call : ℕ) (s : Shared) (here : Phase) : Prop where
  held : Held s.locks call here.lock
  expiry : Extends s here

/-- What a call may rely on while others take their steps. -/
structure Undisturbed (call : ℕ) (s s' : Shared) : Prop where
  locks : Untouched call s.locks s'.locks
  backoffUntil : s.locks .backoff = some call → s'.backoffUntil = s.backoffUntil

theorem Standing.of_undisturbed {call : ℕ} {s s' : Shared} {here : Phase}
    (h : Standing call s here) (hrely : Undisturbed call s s') : Standing call s' here := by
  refine ⟨h.held.of_untouched hrely.locks, ?_⟩
  have hexpiry := h.expiry
  cases here with
  | writingBackoff expiry =>
      have hfile := hrely.backoffUntil ((h.held .backoff).mpr rfl)
      simpa [Extends, windowEnd, hfile] using hexpiry
  | _ => trivial

/-- A step of a call keeps what holds of it, disturbs no other, and does not shorten the window. -/
theorem act_standing {call : ℕ} {action : Action} {s s' : Shared} {here here' : Phase}
    (hat : Standing call s here) (h : act call action s here = some (s', here'))
    (hread : FilesRead action here') :
    Standing call s' here' ∧ (∀ other, other ≠ call → Undisturbed other s s') ∧
      windowEnd s ≤ windowEnd s' := by
  have heffect := act_effect h
  obtain ⟨hheld, huntouched⟩ := heffect.held hat.held
  refine ⟨⟨hheld, act_extends h hread⟩, fun other hother => ⟨huntouched other hother, ?_⟩, ?_⟩
  · intro hlock
    rcases heffect.backoffUntil with hkept | ⟨expiry, rfl, -⟩
    · exact hkept
    · -- The call that writes the window holds its lock.
      have hcall := (hat.held .backoff).mpr rfl
      rw [hlock] at hcall
      exact absurd (Option.some.inj hcall) hother
  · rcases heffect.backoffUntil with hkept | ⟨expiry, rfl, hwritten⟩
    · exact le_of_eq (by rw [windowEnd, windowEnd, hkept])
    · have hexpiry : windowEnd s ≤ expiry := hat.expiry
      simpa [windowEnd, readEpoch, hwritten] using hexpiry

theorem drift_undisturbed {change : Drift} {s s' : Shared} (h : drift change s = some s')
    (call : ℕ) : Undisturbed call s s' ∧ windowEnd s' = windowEnd s := by
  cases change <;> cases h <;> exact ⟨⟨.refl call _, fun _ => rfl⟩, rfl⟩

theorem standing_atRest {machine : Machine} (h : AtRest machine) (call : ℕ) :
    Standing call machine.shared (machine.locals call) := by
  obtain ⟨hfree, hidle⟩ := h
  rw [hidle call]
  exact ⟨hfree ▸ held_free call, trivial⟩

theorem standing_of_reachable {machine : Machine}
    (h : throttleRuns.ReachableUnder (onSteps FilesRead fun _ => True) machine) (call : ℕ) :
    Standing call machine.shared (machine.locals call) := by
  refine (invariant (fun _ => True) Standing Undisturbed ?_ ?_ ?_ ?_ h).2 call
  · exact fun _ hrest => ⟨trivial, standing_atRest hrest⟩
  · intro _ _ _ _ _ _ _ hat hact hread
    obtain ⟨hkept, hothers, -⟩ := act_standing hat hact hread
    exact ⟨trivial, hkept, hothers⟩
  · exact fun _ _ _ _ hdrift _ => ⟨trivial, fun party => (drift_undisturbed hdrift party).1⟩
  · exact fun _ _ _ _ _ hat hrely => hat.of_undisturbed hrely

/-- The end of the window that a call has read and not yet compared. -/
def Phase.readEnd : Phase → Option ℤ
  | .checking _ backoffUntil | .rechecking _ backoffUntil => some backoffUntil
  | _ => none

def Phase.turnedAway : Phase → Bool
  | .refused | .refusing _ => true
  | _ => false

/-- What a call has read, once the window ends at `bound`. -/
def Within (bound : ℤ) (here : Phase) : Prop :=
  ∀ backoffUntil, here.readEnd = some backoffUntil → bound ≤ backoffUntil

theorem act_within {call : ℕ} {action : Action} {s s' : Shared} {here here' : Phase}
    {bound : ℤ} (h : act call action s here = some (s', here'))
    (hread : FilesRead action here') (hbound : bound ≤ windowEnd s) : Within bound here' := by
  have hreadable : ∀ readable, action = .read readable → readable = true := by
    intro readable haction
    cases readable with
    | true => rfl
    | false => exact absurd haction hread
  unfold act beforeCommand afterCommand afterGate at h
  split at h
  case h_2 readable mutation =>
    cases h
    rw [hreadable readable rfl]
    intro backoffUntil hend
    exact hbound.trans_eq (Option.some.inj hend)
  case h_7 readable pass =>
    cases h
    rw [hreadable readable rfl]
    intro backoffUntil hend
    exact hbound.trans_eq (Option.some.inj hend)
  all_goals
    repeat' split at h
    all_goals cases h <;> simp [Within, Phase.readEnd]

/-- A signal on its way into the file, with an end that is not before `bound`. -/
def Recorded (bound : ℤ) : Phase → Prop
  | .extending expiry | .writingBackoff expiry => bound ≤ expiry
  | .recorded | .returned | .crashed => True
  | _ => False

theorem act_recorded {call : ℕ} {action : Action} {s s' : Shared} {here here' : Phase}
    {bound : ℤ} (h : act call action s here = some (s', here'))
    (hrecorded : Recorded bound here) : Recorded bound here' := by
  unfold act beforeCommand afterCommand afterGate at h
  split at h
  case h_22 readable expiry =>
    cases h
    have hexpiry : bound ≤ expiry := hrecorded
    exact hexpiry.trans (le_max_left _ _)
  all_goals
    repeat' split at h
    all_goals cases h <;> trivial

/-- A call is let through when the window that it read is over. -/
theorem act_clock_through {call : ℕ} {s s' : Shared} {here here' : Phase} {backoffUntil : ℤ}
    (hread : here.readEnd = some backoffUntil)
    (h : act call .clock s here = some (s', here')) (hthrough : here'.turnedAway = false) :
    backoffUntil ≤ s.time := by
  cases here with
  | checking mutation expiry =>
      cases hread
      by_cases hover : backoffUntil - s.time ≤ 0
      · omega
      · simp only [act, hover, if_false, Option.some.injEq, Prod.mk.injEq] at h
        simp [← h.2, Phase.turnedAway] at hthrough
  | rechecking pass expiry =>
      cases hread
      by_cases hover : backoffUntil - s.time ≤ 0
      · omega
      · simp only [act, hover, if_false, Option.some.injEq, Prod.mk.injEq] at h
        simp [← h.2, Phase.turnedAway] at hthrough
  | _ => cases hread

section Window

variable {start : Machine}

/-- Where a call is, in the runs that go on from a state. -/
structure SinceStart (start : Machine) (call : ℕ) (s : Shared) (here : Phase) : Prop where
  standing : Standing call s here
  within : (start.locals call).readEnd = none → Within (windowEnd start.shared) here
  recorded : ∀ expiry, start.locals call = .extending expiry → Recorded expiry here

theorem sinceStart_start
    (h : throttleRuns.ReachableUnder (onSteps FilesRead fun _ => True) start) (call : ℕ) :
    SinceStart start call start.shared (start.locals call) := by
  refine ⟨standing_of_reachable h call, fun hnone => ?_, fun expiry hexpiry => ?_⟩
  · intro backoffUntil hread
    simp [hnone] at hread
  · rw [hexpiry]
    exact le_refl expiry

theorem sinceStart_of_run {later : Machine}
    (h : throttleRuns.ReachableUnder (onSteps FilesRead fun _ => True) start)
    (hrun : (runsFrom throttle start).ReachableUnder (onSteps FilesRead fun _ => True) later) :
    windowEnd start.shared ≤ windowEnd later.shared ∧
      ∀ call, SinceStart start call later.shared (later.locals call) := by
  refine invariant (fun s => windowEnd start.shared ≤ windowEnd s) (SinceStart start)
    Undisturbed ?_ ?_ ?_ ?_ hrun
  · rintro _ rfl
    exact ⟨le_rfl, sinceStart_start h⟩
  · intro call action s here s' here' hbound hat hact hread
    obtain ⟨hkept, hothers, hwindow⟩ := act_standing hat.standing hact hread
    exact ⟨hbound.trans hwindow, ⟨hkept, fun _ => act_within hact hread hbound,
      fun expiry hexpiry => act_recorded hact (hat.recorded expiry hexpiry)⟩, hothers⟩
  · intro change s s' hbound hdrift _
    refine ⟨?_, fun call => (drift_undisturbed hdrift call).1⟩
    rw [(drift_undisturbed hdrift 0).2]
    exact hbound
  · exact fun call s s' here _ hat hrely =>
      ⟨hat.standing.of_undisturbed hrely, hat.within, hat.recorded⟩

end Window

/-- The window is never shortened, whatever the calls do and wherever they stop; no call that reads
it from then on is let through before its end, and a signal that is written keeps it open as long
as the signal asked. -/
theorem backoff_window_honored {machine later : Machine}
    (h : throttleRuns.ReachableUnder (onSteps FilesRead fun _ => True) machine)
    (hrun : (runsFrom throttle machine).ReachableUnder (onSteps FilesRead fun _ => True) later) :
    windowEnd machine.shared ≤ windowEnd later.shared ∧
    (∀ call passed, (machine.locals call).readEnd = none →
      (later.locals call).readEnd.isSome → next throttle later (.act call .clock) = some passed →
      (passed.locals call).turnedAway = false → windowEnd machine.shared ≤ later.shared.time) ∧
    ∀ call expiry writing written, machine.locals call = .extending expiry →
      later.locals call = .writingBackoff writing →
      next throttle later (.act call (.write true)) = some written →
      expiry ≤ windowEnd written.shared := by
  obtain ⟨hwindow, hcalls⟩ := sinceStart_of_run h hrun
  refine ⟨hwindow, ?_, ?_⟩
  · intro call passed hnone hread hpass hthrough
    obtain ⟨backoffUntil, hread⟩ := Option.isSome_iff_exists.mp hread
    obtain ⟨here, hact, hlocals⟩ := next_act.mp hpass
    rw [hlocals, Function.update_self] at hthrough
    exact ((hcalls call).within hnone backoffUntil hread).trans
      (act_clock_through hread hact hthrough)
  · intro call expiry writing written hexpiry hwriting hwrite
    have hrecorded := (hcalls call).recorded expiry hexpiry
    obtain ⟨here, hact, -⟩ := next_act.mp hwrite
    rw [hwriting] at hrecorded hact
    have hfile : written.shared.backoffUntil = some writing := by
      have hpair := Option.some.inj hact
      simpa using congrArg (fun result => result.1.backoffUntil) hpair.symm
    have hexpiry : expiry ≤ writing := hrecorded
    simpa [windowEnd, readEpoch, hfile] using hexpiry

/-- The pass of a call that was let through. -/
def Phase.pass : Phase → Option Pass
  | .admitted pass | .rechecking pass _ | .spacing pass | .measuring pass _ | .ready pass _
  | .running (some pass) | .marking pass _ | .writingMark pass _ _ => some pass
  | _ => none

/-- The runs in which every lock file can be opened. -/
def LocksOpen (action : Action) (_ : Phase) : Prop := action ≠ .tryLock false

instance (action : Action) (here : Phase) : Decidable (LocksOpen action here) :=
  inferInstanceAs (Decidable (action ≠ .tryLock false))

/-- A call goes on with one of the locks of its kind, or after the whole wait. -/
def Pass.InTurn (pass : Pass) (s : Shared) : Prop :=
  match pass.lock with
  | some name => name ∈ lockNames pass.mutation
  | none => pass.started + waitSeconds pass.mutation ≤ s.monotonic

/-- A call waits out its time, a name of its kind after the other. -/
def InTurn (s : Shared) : Phase → Prop
  | .starting call => call.started ≤ s.monotonic
  | .queued call deadline names =>
      call.started + waitSeconds call.mutation ≤ deadline ∧ names ⊆ lockNames call.mutation
  | here => ∀ pass, here.pass = some pass → pass.InTurn s

theorem Pass.InTurn.later {pass : Pass} {s s' : Shared} (h : pass.InTurn s)
    (hlater : s.monotonic ≤ s'.monotonic) : pass.InTurn s' := by
  unfold Pass.InTurn at *
  split
  case h_1 name hlock => simpa [hlock] using h
  case h_2 hlock =>
    rw [hlock] at h
    exact le_trans h hlater

theorem InTurn.later {s s' : Shared} {here : Phase} (h : InTurn s here)
    (hlater : s.monotonic ≤ s'.monotonic) : InTurn s' here := by
  cases here with
  | starting call => exact le_trans h hlater
  | queued call deadline names => exact h
  | _ => exact fun pass hpass => (h pass hpass).later hlater

theorem act_inTurn {call : ℕ} {action : Action} {s s' : Shared} {here here' : Phase}
    (h : act call action s here = some (s', here')) (hopen : LocksOpen action here')
    (hturn : InTurn s here) : InTurn s' here' := by
  unfold act beforeCommand afterCommand afterGate at h
  split at h
  case h_4 here =>
    cases h
    refine ⟨?_, List.Subset.refl _⟩
    have hstarted : here.started ≤ s.monotonic := hturn
    omega
  case h_5 opens here deadline name names =>
    obtain ⟨hdeadline, hnames⟩ := hturn
    cases opens with
    | false => exact absurd rfl hopen
    | true =>
        obtain ⟨hname, hrest⟩ := List.cons_subset.mp hnames
        cases hlock : tryAcquire s.locks name call with
        | none =>
            simp only [hlock, if_true] at h
            cases h
            exact ⟨hdeadline, hrest⟩
        | some locks =>
            simp only [hlock, if_true] at h
            cases h
            rintro pass hpass
            cases hpass
            exact hname
  case h_6 here deadline =>
    obtain ⟨hdeadline, hnames⟩ := hturn
    by_cases hover : deadline ≤ s.monotonic
    · simp only [hover, if_true] at h
      cases h
      intro pass hpass
      cases hpass
      exact hdeadline.trans hover
    · simp only [hover, if_false] at h
      cases h
      exact ⟨hdeadline, List.Subset.refl _⟩
  all_goals
    repeat' split at h
    all_goals cases h
    all_goals first
      | exact le_refl s.monotonic
      | exact fun pass hpass => hturn pass hpass
      | simp [InTurn, Phase.pass]

/-- What holds of a call in the runs in which the lock files open. -/
structure InLine (call : ℕ) (s : Shared) (here : Phase) : Prop where
  held : Held s.locks call here.lock
  turn : InTurn s here

/-- The locks of a call stay its own, and time goes on. -/
structure InTime (call : ℕ) (s s' : Shared) : Prop where
  locks : Untouched call s.locks s'.locks
  monotonic : s.monotonic ≤ s'.monotonic

theorem inLine_of_reachable {machine : Machine}
    (h : throttleRuns.ReachableUnder (onSteps LocksOpen fun _ => True) machine) (call : ℕ) :
    InLine call machine.shared (machine.locals call) := by
  refine (invariant (fun _ => True) InLine InTime ?_ ?_ ?_ ?_ h).2 call
  · rintro start ⟨hfree, hidle⟩
    refine ⟨trivial, fun party => ?_⟩
    rw [hidle party]
    exact ⟨hfree ▸ held_free party, by simp [InTurn, Phase.pass]⟩
  · intro party action s here s' here' _ hat hact hopen
    have heffect := act_effect hact
    obtain ⟨hheld, huntouched⟩ := heffect.held hat.held
    exact ⟨trivial, ⟨hheld, act_inTurn hact hopen hat.turn⟩,
      fun other hother => ⟨huntouched other hother, heffect.monotonic.ge⟩⟩
  · intro change s s' _ hdrift _
    refine ⟨trivial, fun party => ?_⟩
    cases change with
    | advance duration =>
        cases hdrift
        exact ⟨.refl party _, by simp⟩
    | setTime time =>
        cases hdrift
        exact ⟨.refl party _, le_rfl⟩
  · exact fun _ _ _ _ _ hat hrely =>
      ⟨hat.held.of_untouched hrely.locks, hat.turn.later hrely.monotonic⟩

/-- The pass of a command that runs. -/
def Phase.runs : Phase → Option Pass
  | .running pass => pass
  | _ => none

/-- A command that runs without a lock, its call having waited the whole time for one. -/
def Phase.overdue (now : ℤ) (here : Phase) : Bool :=
  here.runs.any fun pass =>
    pass.lock.isNone && decide (pass.started + waitSeconds pass.mutation ≤ now)

/-- However the calls interleave and wherever they stop, no more commands of a kind run at a time
than there are locks for them, but for those whose calls waited the whole time for a lock. -/
theorem running_calls_bounded {machine : Machine}
    (h : throttleRuns.ReachableUnder (onSteps LocksOpen fun _ => True) machine) (mutation : Bool)
    (calls : Finset ℕ)
    (hcalls : ∀ call ∈ calls, ∃ pass,
      (machine.locals call).runs = some pass ∧ pass.mutation = mutation) :
    calls.card ≤ (if mutation then 1 else readSlots) +
      (calls.filter fun call => (machine.locals call).overdue machine.shared.monotonic).card := by
  have hline := inLine_of_reachable h
  have hsplit := calls.card_filter_add_card_filter_not
    fun call => (machine.locals call).overdue machine.shared.monotonic = true
  have hlocked : (calls.filter fun call =>
      ¬ (machine.locals call).overdue machine.shared.monotonic = true).card ≤
        (lockNames mutation).toFinset.card := by
    refine card_le_of_held (fun call => (hline call).held) _ _ fun call hcall => ?_
    obtain ⟨hmem, htime⟩ := Finset.mem_filter.mp hcall
    obtain ⟨pass, hruns, hkind⟩ := hcalls call hmem
    have hturn := (hline call).turn
    cases hhere : machine.locals call with
    | running inside =>
        rw [hhere] at hruns hturn
        have hinside : inside = some pass := hruns
        subst hinside
        have hpass : pass.InTurn machine.shared := hturn pass rfl
        cases hlock : pass.lock with
        | none =>
            simp [Phase.overdue, hhere, Phase.runs, Pass.InTurn, hlock] at htime hpass
            omega
        | some name =>
            refine ⟨name, ?_, by simpa [Phase.lock] using hlock⟩
            simpa [Pass.InTurn, hlock, hkind] using hpass
    | _ => simp [hhere, Phase.runs] at hruns
  have hnames : (lockNames mutation).toFinset.card ≤ if mutation then 1 else readSlots := by
    cases mutation <;> decide
  omega

def Phase.outOfLane (here : Phase) : Bool :=
  here.pass.any fun pass => pass.mutation && pass.lock != some .mutation

/-- The runs in which files can be read and no mutation goes on without the lane. -/
def KeepsLane (action : Action) (here : Phase) : Prop :=
  action ≠ .read false ∧ here.outOfLane = false

instance (action : Action) (here : Phase) : Decidable (KeepsLane action here) :=
  inferInstanceAs (Decidable (_ ∧ _))

/-- The clock of the day only goes on. -/
def ClockKept (change : Drift) : Prop := ∀ time, change ≠ .setTime time

instance (change : Drift) : Decidable (ClockKept change) :=
  match change with
  | .advance _ => isTrue fun _ => nofun
  | .setTime time => isFalse fun h => h time rfl

/-- When the last mutation left its mark, as a call that can read the file reads it. -/
def lastMark (s : Shared) : ℤ := readEpoch s.lastMutation true

/-- Only mutations keep a space and leave a mark. -/
def OfMutation : Phase → Prop
  | .spacing pass | .measuring pass _ | .marking pass _ | .writingMark pass _ _ =>
      pass.mutation = true
  | _ => True

theorem act_ofMutation {call : ℕ} {action : Action} {s s' : Shared} {here here' : Phase}
    (h : act call action s here = some (s', here')) (hkind : OfMutation here) :
    OfMutation here' := by
  unfold act beforeCommand afterCommand afterGate at h
  split at h
  all_goals
    repeat' split at h
    all_goals cases h <;> trivial

/-- A mark about to be left is of a time that is past. -/
def MarksPast (s : Shared) : Phase → Prop
  | .writingMark _ _ now => now ≤ s.time
  | _ => True

/-- After a mark at `bound`, a mutation is as far from the command as the space asks. -/
def Spaced (bound : ℤ) (s : Shared) : Phase → Prop
  | .measuring _ now => lastMark s ≤ now ∧ now ≤ s.time
  | .ready pass wakeAt =>
      pass.mutation = true → bound + mutationSpacingSeconds ≤ s.time + max 0 (wakeAt - s.monotonic)
  | .writingMark _ _ now => lastMark s ≤ now ∧ now ≤ s.time
  | _ => True

theorem spacingGap_spaced {bound last now time : ℤ} (hbound : bound ≤ last) (hlast : last ≤ now)
    (hnow : now ≤ time) : bound + mutationSpacingSeconds ≤ time + spacingGap now last := by
  unfold spacingGap mutationSpacingSeconds seconds
  dsimp only
  split <;> omega

theorem act_spaced {call : ℕ} {action : Action} {s s' : Shared} {here here' : Phase} {bound : ℤ}
    (h : act call action s here = some (s', here')) (hread : action ≠ .read false)
    (hbound : bound ≤ lastMark s) (hlast : lastMark s ≤ s.time) (hspaced : Spaced bound s here) :
    Spaced bound s' here' ∧ bound ≤ lastMark s' ∧ lastMark s' ≤ s'.time := by
  unfold act beforeCommand afterCommand afterGate at h
  split at h
  case h_11 readable pass now =>
    cases h
    obtain ⟨hmark, hnow⟩ := hspaced
    have hreadable : readable = true := by
      cases readable with
      | true => rfl
      | false => exact absurd rfl hread
    refine ⟨fun _ => ?_, hbound, hlast⟩
    have hgap := spacingGap_spaced hbound hmark hnow
    have hrefl : readEpoch s.lastMutation readable = lastMark s := by rw [hreadable, lastMark]
    rw [hrefl]
    omega
  case h_16 succeeds pass limited now =>
    obtain ⟨hmark, hnow⟩ := hspaced
    cases succeeds with
    | false =>
        cases h
        exact ⟨trivial, hbound, hlast⟩
    | true =>
        cases h
        exact ⟨trivial, hbound.trans hmark, hnow⟩
  all_goals
    repeat' split at h
    all_goals cases h
    all_goals first
      | exact ⟨trivial, hbound, hlast⟩
      | exact ⟨⟨hlast, le_refl s.time⟩, hbound, hlast⟩
      | exact ⟨fun hmutation => absurd hmutation ‹_›, hbound, hlast⟩

/-- What holds of a call in the runs in which mutations keep to the lane. -/
structure OnLane (call : ℕ) (s : Shared) (here : Phase) : Prop where
  held : Held s.locks call here.lock
  inLane : here.outOfLane = false
  ofMutation : OfMutation here
  past : MarksPast s here

/-- The locks of a call stay its own, the clocks go on together, and nobody else leaves a mark
while the call has the lane. -/
structure LaneKept (call : ℕ) (s s' : Shared) : Prop where
  locks : Untouched call s.locks s'.locks
  clocks : ∃ duration : ℕ, s'.time = s.time + duration ∧ s'.monotonic = s.monotonic + duration
  lastMutation : s.locks .mutation = some call → s'.lastMutation = s.lastMutation

theorem Phase.lock_of_pass {here : Phase} {pass : Pass} (h : here.pass = some pass) :
    here.lock = pass.lock := by
  cases here with
  | running inside =>
      cases inside with
      | none => simp [Phase.pass] at h
      | some inside =>
          cases h
          rfl
  | _ => simp_all [Phase.pass, Phase.lock]

theorem OnLane.lane {call : ℕ} {s : Shared} {here : Phase} (h : OnLane call s here) {pass : Pass}
    (hpass : here.pass = some pass) (hmutation : pass.mutation = true) :
    here.lock = some .mutation := by
  have hlane := h.inLane
  have hlock : pass.lock = some .mutation := by
    simpa [Phase.outOfLane, hpass, hmutation] using hlane
  rw [Phase.lock_of_pass hpass, hlock]

theorem OnLane.writingMark_lane {call : ℕ} {s : Shared} {pass : Pass} {limited : Bool} {now : ℤ}
    (h : OnLane call s (.writingMark pass limited now)) : s.locks .mutation = some call :=
  (h.held .mutation).mpr (h.lane rfl h.ofMutation)

theorem OnLane.of_laneKept {call : ℕ} {s s' : Shared} {here : Phase} (h : OnLane call s here)
    (hrely : LaneKept call s s') : OnLane call s' here := by
  refine ⟨h.held.of_untouched hrely.locks, h.inLane, h.ofMutation, ?_⟩
  obtain ⟨duration, htime, -⟩ := hrely.clocks
  have hpast := h.past
  cases here with
  | writingMark pass limited now =>
      have hnow : now ≤ s.time := hpast
      show now ≤ s'.time
      omega
  | _ => trivial

theorem act_marksPast {call : ℕ} {action : Action} {s s' : Shared} {here here' : Phase}
    (h : act call action s here = some (s', here')) : MarksPast s' here' := by
  unfold act beforeCommand afterCommand afterGate at h
  split at h
  case h_15 =>
    cases h
    exact le_refl s.time
  all_goals
    repeat' split at h
    all_goals cases h <;> trivial

theorem act_onLane {call : ℕ} {action : Action} {s s' : Shared} {here here' : Phase}
    (hat : OnLane call s here) (h : act call action s here = some (s', here'))
    (hlane : here'.outOfLane = false) :
    OnLane call s' here' ∧ ∀ other, other ≠ call → LaneKept other s s' := by
  have heffect := act_effect h
  obtain ⟨hheld, huntouched⟩ := heffect.held hat.held
  refine ⟨⟨hheld, hlane, act_ofMutation h hat.ofMutation, act_marksPast h⟩, fun other hother => ?_⟩
  refine ⟨huntouched other hother, ⟨0, by simp [heffect.time], by simp [heffect.monotonic]⟩, ?_⟩
  intro hlock
  rcases heffect.lastMutation with hkept | ⟨pass, limited, now, rfl, -⟩
  · exact hkept
  · -- The call that leaves a mark has the lane.
    rw [hat.writingMark_lane] at hlock
    exact absurd (Option.some.inj hlock).symm hother

theorem drift_laneKept {change : Drift} {s s' : Shared} (h : drift change s = some s')
    (hclock : ClockKept change) (call : ℕ) : LaneKept call s s' := by
  cases change with
  | advance duration =>
      cases h
      exact ⟨.refl call _, ⟨duration, rfl, rfl⟩, fun _ => rfl⟩
  | setTime time => exact absurd rfl (hclock time)

theorem onLane_of_reachable {machine : Machine}
    (h : throttleRuns.ReachableUnder (onSteps KeepsLane ClockKept) machine) (call : ℕ) :
    OnLane call machine.shared (machine.locals call) := by
  refine (invariant (fun _ => True) OnLane LaneKept ?_ ?_ ?_ ?_ h).2 call
  · rintro start ⟨hfree, hidle⟩
    refine ⟨trivial, fun party => ?_⟩
    rw [hidle party]
    exact ⟨hfree ▸ held_free party, rfl, trivial, trivial⟩
  · exact fun _ _ _ _ _ _ _ hat hact hkeeps => ⟨trivial, act_onLane hat hact hkeeps.2⟩
  · exact fun _ _ _ _ hdrift hclock => ⟨trivial, drift_laneKept hdrift hclock⟩
  · exact fun _ _ _ _ _ hat hrely => hat.of_laneKept hrely

/-- What holds after a mark at `bound`. -/
structure SinceMark (bound : ℤ) (call : ℕ) (s : Shared) (here : Phase) : Prop where
  onLane : OnLane call s here
  spaced : Spaced bound s here

theorem SinceMark.of_laneKept {bound : ℤ} {call : ℕ} {s s' : Shared} {here : Phase}
    (h : SinceMark bound call s here) (hrely : LaneKept call s s') :
    SinceMark bound call s' here := by
  refine ⟨h.onLane.of_laneKept hrely, ?_⟩
  obtain ⟨duration, htime, hmonotonic⟩ := hrely.clocks
  have hspaced := h.spaced
  cases here with
  | measuring pass now =>
      have hlock := (h.onLane.held .mutation).mpr (h.onLane.lane rfl h.onLane.ofMutation)
      have hfile : lastMark s' = lastMark s := by rw [lastMark, lastMark, hrely.lastMutation hlock]
      obtain ⟨hmark, hnow⟩ := hspaced
      exact ⟨by omega, by omega⟩
  | ready pass wakeAt =>
      intro hmutation
      have hwake := hspaced hmutation
      omega
  | writingMark pass limited now =>
      have hfile : lastMark s' = lastMark s := by
        rw [lastMark, lastMark, hrely.lastMutation h.onLane.writingMark_lane]
      obtain ⟨hmark, hnow⟩ := hspaced
      exact ⟨by omega, by omega⟩
  | _ => trivial

/-- Once a mutation has left its mark, nobody else is past the lane. -/
theorem spaced_of_other {marker call : ℕ} {s : Shared} {here : Phase} {bound : ℤ}
    (h : OnLane call s here) (hmarker : s.locks .mutation = some marker) (hother : call ≠ marker) :
    Spaced bound s here := by
  have hout : here.lock ≠ some .mutation := by
    intro hlock
    have hcall := (h.held .mutation).mpr hlock
    rw [hmarker] at hcall
    exact hother (Option.some.inj hcall).symm
  cases here with
  | measuring pass now => exact absurd (h.lane rfl h.ofMutation) hout
  | ready pass wakeAt => exact fun hmutation => absurd (h.lane rfl hmutation) hout
  | writingMark pass limited now => exact absurd (h.lane rfl h.ofMutation) hout
  | _ => trivial

theorem sinceMark_marked {machine marked : Machine} {marker : ℕ} {marking : Pass} {limited : Bool}
    {now : ℤ} (hlane : ∀ call, OnLane call machine.shared (machine.locals call))
    (hmarking : machine.locals marker = .writingMark marking limited now)
    (hmark : next throttle machine (.act marker (.write true)) = some marked) :
    (now ≤ lastMark marked.shared ∧ lastMark marked.shared ≤ marked.shared.time) ∧
      ∀ call, SinceMark now call marked.shared (marked.locals call) := by
  obtain ⟨here, hact, hlocals⟩ := next_act.mp hmark
  have hmarker := hlane marker
  rw [hmarking] at hact hmarker
  obtain ⟨hshared, hhere⟩ := Prod.mk.inj (Option.some.inj hact)
  have hpast : now ≤ machine.shared.time := hmarker.past
  have hleft : here.outOfLane = false := by
    rw [← hhere]
    rfl
  have hstep : act marker (.write true) machine.shared (.writingMark marking limited now) =
      some (marked.shared, here) := hact
  obtain ⟨hkept, hothers⟩ := act_onLane hmarker hstep hleft
  refine ⟨⟨by rw [← hshared]; exact le_refl now, hshared ▸ hpast⟩, fun call => ?_⟩
  rw [hlocals]
  by_cases hcall : call = marker
  · subst hcall
    rw [Function.update_self]
    exact ⟨hkept, hhere ▸ trivial⟩
  · rw [Function.update_of_ne hcall]
    have honlane := (hlane call).of_laneKept (hothers call hcall)
    refine ⟨honlane, spaced_of_other honlane ?_ hcall⟩
    rw [← hshared]
    exact hmarker.writingMark_lane

/-- With the clock kept and every mutation in the lane, a mutation is sent no sooner after the mark
of an earlier one than the space asks, however the calls interleave and wherever they stop. -/
theorem mutations_spaced {machine marked later launched : Machine} {marker call : ℕ}
    {marking pass : Pass} {limited : Bool} {now wakeAt : ℤ}
    (h : throttleRuns.ReachableUnder (onSteps KeepsLane ClockKept) machine)
    (hmarking : machine.locals marker = .writingMark marking limited now)
    (hmark : next throttle machine (.act marker (.write true)) = some marked)
    (hrun : (runsFrom throttle marked).ReachableUnder (onSteps KeepsLane ClockKept) later)
    (hready : later.locals call = .ready pass wakeAt) (hmutation : pass.mutation = true)
    (hlaunch : next throttle later (.act call .launch) = some launched) :
    now + mutationSpacingSeconds ≤ later.shared.time := by
  obtain ⟨hmarked, hcalls⟩ := sinceMark_marked (onLane_of_reachable h) hmarking hmark
  have hlater := invariant (fun s => now ≤ lastMark s ∧ lastMark s ≤ s.time) (SinceMark now)
    LaneKept ?_ ?_ ?_ ?_ hrun
  · have hspaced := (hlater.2 call).spaced
    rw [hready] at hspaced
    have hwake := hspaced hmutation
    obtain ⟨here, hact, -⟩ := next_act.mp hlaunch
    rw [hready] at hact
    by_cases hawake : wakeAt ≤ later.shared.monotonic
    · omega
    · simp [throttle, act, hawake] at hact
  · rintro _ rfl
    exact ⟨hmarked, hcalls⟩
  · intro party action s here s' here' hbound hat hact hkeeps
    obtain ⟨hspaced, hbound'⟩ := act_spaced hact hkeeps.1 hbound.1 hbound.2 hat.spaced
    obtain ⟨honlane, hothers⟩ := act_onLane hat.onLane hact hkeeps.2
    exact ⟨hbound', ⟨honlane, hspaced⟩, hothers⟩
  · intro change s s' hbound hdrift hclock
    refine ⟨?_, drift_laneKept hdrift hclock⟩
    cases change with
    | advance duration =>
        cases hdrift
        exact ⟨hbound.1, hbound.2.trans (by simp)⟩
    | setTime time => exact absurd rfl (hclock time)
  · exact fun _ _ _ _ _ hat hrely => hat.of_laneKept hrely

def steps (call : ℕ) (actions : List Action) : List (Label ℕ Action Drift) :=
  actions.map fun action => .act call action

/-- A machine on which nothing was sent yet. -/
def freshMachine : Machine :=
  { shared := { monotonic := 0, time := seconds 1000 }, locals := fun _ => .idle }

theorem freshMachine_reachable
    (ok : TransitionSystem.StepCondition Machine (Label ℕ Action Drift)) :
    throttleRuns.ReachableUnder ok freshMachine := .start ⟨rfl, fun _ => rfl⟩

/-- A read that takes the first slot and is told of a rate limit. -/
def limitedRead : List (Label ℕ Action Drift) :=
  steps 0 [.begin false true, .read true, .clock, .clock, .tryLock true, .read true, .clock,
    .launch, .finish true, .release, .signal true, .tryLock true, .clock, .read true,
    .write true, .release]

/-- Another one, when the window is over. -/
def readAfterWindow : List (Label ℕ Action Drift) :=
  .drift (.advance 251658240) :: steps 1 [.begin false true, .read true]

/-- A mutation up to its command, in the lane or after the whole wait. -/
def mutationUpTo (call : ℕ) (wait : List (Label ℕ Action Drift)) : List (Label ℕ Action Drift) :=
  steps call [.begin true true, .read true, .clock, .clock, .tryLock true] ++ wait ++
    steps call [.read true, .clock, .clock, .read true]

def mutationInLane : List (Label ℕ Action Drift) :=
  mutationUpTo 0 [] ++ steps 0 [.launch, .finish false, .clock]

def secondInLane : List (Label ℕ Action Drift) :=
  steps 0 [.release] ++ mutationUpTo 1 [] ++ [.drift (.advance 4194304)]

def twoMutations : List (Label ℕ Action Drift) :=
  mutationUpTo 0 [] ++ steps 0 [.launch] ++
    mutationUpTo 1 ([.drift (.advance 125829120)] ++ steps 1 [.clock]) ++ steps 1 [.launch]

theorem sample_runs :
    (((runUnder throttle FilesRead (fun _ => True) freshMachine limitedRead).bind fun machine =>
      (runUnder throttle FilesRead (fun _ => True) machine readAfterWindow).bind fun later =>
        (next throttle later (.act 1 .clock)).map fun passed =>
          (windowEnd machine.shared, machine.locals 1, later.locals 1, passed.locals 1)) =
      some (seconds 1060, .idle, .checking false (seconds 1060), .starting ⟨false, seconds 60⟩)) ∧
    (((runUnder throttle LocksOpen (fun _ => True) freshMachine twoMutations).map fun machine =>
      ((machine.locals 0).runs, (machine.locals 1).runs)) =
      some (some ⟨⟨true, 0⟩, some .mutation⟩, some ⟨⟨true, 0⟩, none⟩)) ∧
    ((runUnder throttle KeepsLane ClockKept freshMachine mutationInLane).bind fun machine =>
      (next throttle machine (.act 0 (.write true))).bind fun marked =>
        (runUnder throttle KeepsLane ClockKept marked secondInLane).bind fun later =>
          (next throttle later (.act 1 .launch)).map fun _ =>
            (machine.locals 0, later.locals 1)) =
      some (.writingMark ⟨⟨true, 0⟩, some .mutation⟩ false (seconds 1000),
        .ready ⟨⟨true, 0⟩, some .mutation⟩ (seconds 1)) := by
  decide +kernel

/-- A read after a minute finds the window of an earlier signal over. -/
theorem backoff_window_honored_minute : ∃ machine later passed : Machine,
    windowEnd machine.shared = seconds 1060 ∧
    next throttle later (.act 1 .clock) = some passed ∧
    windowEnd machine.shared ≤ windowEnd later.shared ∧
    windowEnd machine.shared ≤ later.shared.time := by
  obtain ⟨machine, hmachine, hrest⟩ := Option.bind_eq_some_iff.mp sample_runs.1
  obtain ⟨later, hlater, hrest⟩ := Option.bind_eq_some_iff.mp hrest
  obtain ⟨passed, hpassed, hfacts⟩ := Option.map_eq_some_iff.mp hrest
  simp only [Prod.mk.injEq] at hfacts
  obtain ⟨hwindow, hidle, hchecking, hstarting⟩ := hfacts
  have hreached := reachable_runUnder (freshMachine_reachable _) hmachine
  have hrun := reachable_runUnder (reachable_self _) hlater
  obtain ⟨hkept, hthrough, -⟩ := backoff_window_honored hreached hrun
  refine ⟨machine, later, passed, hwindow, hpassed, hkept, hthrough 1 passed ?_ ?_ hpassed ?_⟩
  · rw [hidle]
    rfl
  · rw [hchecking]
    rfl
  · rw [hstarting]
    rfl

theorem running_calls_bounded_late : ∃ machine : Machine,
    (∀ call ∈ ({0, 1} : Finset ℕ), ∃ pass,
      (machine.locals call).runs = some pass ∧ pass.mutation = true) ∧
    ({0, 1} : Finset ℕ).card ≤ 1 + (({0, 1} : Finset ℕ).filter fun call =>
      (machine.locals call).overdue machine.shared.monotonic).card := by
  obtain ⟨machine, hmachine, hfacts⟩ := Option.map_eq_some_iff.mp sample_runs.2.1
  obtain ⟨hfirst, hsecond⟩ := Prod.mk.inj hfacts
  have hcalls : ∀ call ∈ ({0, 1} : Finset ℕ), ∃ pass,
      (machine.locals call).runs = some pass ∧ pass.mutation = true := by
    intro call hcall
    simp only [Finset.mem_insert, Finset.mem_singleton] at hcall
    rcases hcall with rfl | rfl
    · exact ⟨_, hfirst, rfl⟩
    · exact ⟨_, hsecond, rfl⟩
  exact ⟨machine, hcalls, running_calls_bounded
    (reachable_runUnder (freshMachine_reachable _) hmachine) true _ hcalls⟩

theorem mutations_spaced_second : ∃ later launched : Machine,
    next throttle later (.act 1 .launch) = some launched ∧
    seconds 1000 + mutationSpacingSeconds ≤ later.shared.time := by
  obtain ⟨machine, hmachine, hrest⟩ := Option.bind_eq_some_iff.mp sample_runs.2.2
  obtain ⟨marked, hmarked, hrest⟩ := Option.bind_eq_some_iff.mp hrest
  obtain ⟨later, hlater, hrest⟩ := Option.bind_eq_some_iff.mp hrest
  obtain ⟨launched, hlaunched, hfacts⟩ := Option.map_eq_some_iff.mp hrest
  obtain ⟨hmarking, hready⟩ := Prod.mk.inj hfacts
  exact ⟨later, launched, hlaunched, mutations_spaced
    (reachable_runUnder (freshMachine_reachable _) hmachine) hmarking hmarked
    (reachable_runUnder (reachable_self _) hlater) hready rfl hlaunched⟩

end GhAddressCr.GhThrottle
