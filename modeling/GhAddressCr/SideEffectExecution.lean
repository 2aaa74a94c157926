import GhAddressCr.SessionWrites
import GhAddressCr.SideEffectOutbox
import GhAddressCr.TransitionSystem
import Mathlib.Logic.Function.Basic

/-!
# Processes executing side effects

Any number of processes over one store and one GitHub: each publishes side effects or
recovers dead executors, a transaction, a lock operation, a GitHub call or a read at a
time. Between two steps any other process may act, the session may be written by other
commands, and GitHub's threads may change.

A process that raises unwinds its execution guard and one that dies has its locks released
by the operating system, so both end in the same state. Everything an activity carries was
read or decided by that process earlier.
-/
namespace GhAddressCr.SideEffectExecution

open RuntimeStore SideEffectOutbox

inductive EffectType where
  | githubReply | githubResolve
  deriving DecidableEq, Repr

def EffectType.value : EffectType → String
  | .githubReply => "github_reply"
  | .githubResolve => "github_resolve"

/-- What does not change while the processes run. -/
structure Site (P : Type) where
  sessionId : String
  /-- The thread of an item. -/
  threadId : String → String
  /-- The GitHub login a process acts under. -/
  login : P → String

/-- A side effect one process is to execute for an item. -/
structure SideEffect where
  itemId : String
  effectType : EffectType
  leaseId : Option String
  agentId : String
  timestamp : Int
  deriving DecidableEq

namespace SideEffect

variable {P : Type} (site : Site P) (effect : SideEffect)

/-- `_side_effect_key`. -/
def key : String := site.sessionId ++ ":" ++ effect.itemId ++ ":" ++ effect.effectType.value

def commandId : String := outboxCommandId effect.effectType.value (effect.key site)

def command : OutboxCommand where
  commandId := effect.commandId site
  effectType := effect.effectType.value
  idempotencyKey := effect.key site
  operationCategory := effect.effectType.value
  retryBoundary := some (retryBoundaryFor effect.effectType.value)

/-- The evidence record of an attempt in this status. -/
def record (status : AttemptStatus) (externalUrl lastError : Option String) : EvidenceRecord :=
  SideEffectAttempt.record
    { sessionId := site.sessionId
      itemId := effect.itemId
      sideEffectType := effect.effectType.value
      idempotencyKey := effect.key site
      status := status
      lastError := lastError
      externalUrl := externalUrl
      timestamp := effect.timestamp }
    effect.leaseId effect.agentId

end SideEffect

/-- How an attempt ended. -/
inductive AttemptEnd where
  | succeeded (externalUrl : String)
  | failed (error : String)
  deriving DecidableEq

namespace AttemptEnd

def record {P : Type} (site : Site P) (effect : SideEffect) : AttemptEnd → EvidenceRecord
  | .succeeded url => effect.record site .succeeded (some url) none
  | .failed error => effect.record site .failed none (some error)

def result : AttemptEnd → OutboxResult
  | .succeeded url => { succeeded := true, externalResultReference := some url }
  | .failed _ => { succeeded := false, errorType := some "external_error" }

end AttemptEnd

/-- Where `_begin_attempt` and the call after it stand. -/
inductive GuardPhase where
  | read | plan | mark | call
  deriving DecidableEq

/-- Where `_finish_attempt` stands. -/
inductive FinishPhase where
  | read | plan | mark | record
  deriving DecidableEq

/-- What a process is doing. -/
inductive Activity where
  | idle
  /-- `recover_outbox`, before it reads the in-flight commands; it may be part of
  `side_effect_state` for the effect to resume. -/
  | readInFlight (resume : Option SideEffect)
  /-- Probing the remaining commands; the owners of the dead ones held no lock. -/
  | probing (remaining dead : List InFlightCommand) (resume : Option SideEffect)
  | demoting (dead : List InFlightCommand) (resume : Option SideEffect)
  /-- `side_effect_state`, before it reads the row, at first or after recovery. -/
  | readState (effect : SideEffect) (recovered : Bool)
  /-- The row was in flight: is its owner alive? -/
  | probeOwner (effect : SideEffect)
  /-- The row is still in flight: is its owner alive? -/
  | confirmOwner (effect : SideEffect)
  /-- The reply's row was unknown: `_reconcile_in_flight_reply`. -/
  | listLatest (effect : SideEffect) (row : OutboxRow)
  /-- `_publisher_never_replied`. -/
  | listViewer (effect : SideEffect) (row : OutboxRow)
  /-- `reconcile_side_effect_no_effect`. -/
  | reconciling (effect : SideEffect) (row : OutboxRow)
  /-- Before `execution_guard`. -/
  | acquire (effect : SideEffect)
  /-- Inside the guard, up to and including the GitHub call. -/
  | guarded (effect : SideEffect) (token : String) (phase : GuardPhase)
  /-- `_finish_attempt`, inside the guard when it has an owner token. -/
  | finishing (effect : SideEffect) (owner : Option String) (ended : AttemptEnd)
      (phase : FinishPhase)
  deriving DecidableEq

/-- The guard an activity holds: its effect and owner token. -/
def Activity.guard : Activity → Option (SideEffect × String)
  | .guarded effect token _ => some (effect, token)
  | .finishing effect (some token) _ _ => some (effect, token)
  | _ => none

structure Comment where
  author : String
  /-- The body ends in one of the reply attributions. -/
  attributed : Bool
  url : String
  deriving DecidableEq

/-- The store, the locks, the processes and GitHub. -/
structure World (P : Type) where
  store : Store
  /-- Who holds the execution lock of a command. -/
  locks : String → Option P
  activity : P → Activity
  /-- The owner tokens handed out so far. -/
  issued : List String
  /-- The comments of a thread, in order. -/
  threads : String → List Comment
  /-- The keys of the `post_reply` mutations that took effect. -/
  replies : List String

/-- How the GitHub call ends. -/
inductive CallEnd where
  /-- The mutation took effect and its result arrived. -/
  | returned (url : String)
  /-- The mutation took effect but the process died, or raised, before its result arrived. -/
  | lost (url : String)
  /-- `GitHubError`; the mutation had no effect. -/
  | refused (error : String)
  deriving DecidableEq

/-- What the environment decides in a step. -/
structure Choice where
  /-- Another process probes the lock at this moment. -/
  contended : Bool := false
  /-- The token `uuid4` returns. -/
  token : String := ""
  /-- The revision of the session the process holds. -/
  sessionToken : Option Nat := none
  callEnd : CallEnd := .refused ""
  listingFails : Bool := false
  viewerReplyChecked : Bool := true

inductive Label (P : Type) where
  /-- `recover_outbox`, before a load. -/
  | recover (process : P)
  /-- `_execute_single_publish_plan`, for one of its side effects. -/
  | publish (process : P) (effect : SideEffect)
  | advance (process : P) (choice : Choice)
  /-- An exception unwinds the activity, or the process dies. -/
  | stop (process : P)
  | write (write : SessionWrite)
  | comment (thread : String) (comment : Comment)
  | removeComment (thread : String) (index : Nat)

/-- The process a step belongs to. -/
def Label.process {P : Type} : Label P → Option P
  | .recover p | .publish p _ | .advance p _ | .stop p => some p
  | _ => none

namespace World

variable {P : Type} [DecidableEq P] (w : World P)

def setActivity (p : P) (activity : Activity) : World P :=
  { w with activity := Function.update w.activity p activity }

/-- The process is done with its activity and holds no lock. -/
def stop (p : P) : World P :=
  { w.setActivity p .idle with
    locks := fun commandId => if w.locks commandId = some p then none else w.locks commandId }

/-- `is_execution_lock_held`. -/
def lockHeld (commandId : String) (choice : Choice) : Bool :=
  choice.contended || (w.locks commandId).isSome

/-- Commit a store and go on, or unwind when the transaction raised. -/
def commit (p : P) (activity : Activity) (result : StoreResult Store) : World P :=
  match result with
  | .ok store => { w.setActivity p activity with store := store }
  | .error _ => w.stop p

/-- Commit a store and finish, or unwind when the transaction raised. -/
def commitAndStop (p : P) (result : StoreResult Store) : World P :=
  match result with
  | .ok store => { w.stop p with store := store }
  | .error _ => w.stop p

end World

/-- `_reconcile_in_flight_reply`: the thread's latest comment, when it is the publisher's. -/
def reconcileInFlightReply (comments : List Comment) (login : String) : Option String :=
  match comments.getLast? with
  | some latest =>
      if login ≠ "" ∧ latest.author = login ∧ latest.attributed ∧ latest.url ≠ "" then
        some latest.url
      else none
  | none => none

/-- `viewer_replied`: a comment after the first one, with a url, by this login. -/
def viewerReplied (comments : List Comment) (login : String) : Bool :=
  comments.tail.any fun comment => comment.author == login && PyText.strip comment.url != ""

section Steps

variable {P : Type} [DecidableEq P] (site : Site P) (w : World P) (p : P)

/-- Where recovery returns to. -/
def afterRecovery : Option SideEffect → Activity
  | none => .idle
  | some effect => .readState effect true

/-- `side_effect_state` reads the row; what the publisher does with each state. -/
def stateRead (effect : SideEffect) (recovered : Bool) : Activity :=
  match w.store.outbox[effect.commandId site]? with
  | none => .acquire effect
  | some row =>
      match row.status with
      | .inFlight => if recovered then .confirmOwner effect else .probeOwner effect
      | .succeeded =>
          if effect.effectType = .githubReply ∧ row.externalResultReference.getD "" = "" then
            .acquire effect
          else .idle
      | .unknown =>
          if effect.effectType = .githubReply then .listLatest effect row else .acquire effect
      | .planned | .failed => .acquire effect

/-- `_begin_attempt` decides from the row it reads; `none` where it raises. -/
def beginPhase (effect : SideEffect) : Option GuardPhase :=
  match w.store.outbox[effect.commandId site]? with
  | none => some .plan
  | some row => if entersFlight row then some .mark else none

/-- `_finish_attempt` decides from the row it reads. -/
def finishPhase (effect : SideEffect) : FinishPhase :=
  match w.store.outbox[effect.commandId site]? with
  | none => .plan
  | some row => if row.status = .planned then .mark else .record

/-- `_plan`: a transaction that changes nothing but the outbox. -/
def plan (effect : SideEffect) (expected : Option Nat) : StoreResult Store :=
  (transact w.store (fun session => .ok (session, ())) expected [] [effect.command site]).map
    (·.1)

/-- A reply appears on its thread, which has a first comment. -/
def postReply (effect : SideEffect) (url : String) : Option (World P) :=
  let thread := site.threadId effect.itemId
  if w.threads thread ≠ [] ∧ PyText.strip url ≠ "" then
    some { w with
      threads := Function.update w.threads thread
        (w.threads thread ++ [⟨site.login p, true, url⟩])
      replies := effect.key site :: w.replies }
  else none

/-- The mutation takes effect on GitHub; resolving a thread adds no comment. -/
def performCall (effect : SideEffect) (url : String) : Option (World P) :=
  match effect.effectType with
  | .githubReply => postReply site w p effect url
  | .githubResolve => some w

end Steps

section Machine

variable {P : Type} [DecidableEq P] (site : Site P) (w : World P)

/-- The next step of a process inside its execution guard. -/
def advanceGuarded (p : P) (choice : Choice) (effect : SideEffect) (token : String) :
    GuardPhase → Option (World P)
  | .read =>
      match beginPhase site w effect with
      | some phase => some (w.setActivity p (.guarded effect token phase))
      | none => some (w.stop p)
  | .plan =>
      some (w.commit p (.guarded effect token .mark) (plan site w effect choice.sessionToken))
  | .mark =>
      some (w.commit p (.guarded effect token .call)
        ((markOutboxInFlight w.store (effect.commandId site) (some token)
          [effect.record site .inFlight none none]).map (·.1)))
  | .call =>
      match choice.callEnd with
      | .refused error =>
          some (w.setActivity p (.finishing effect (some token) (.failed error) .read))
      | .returned url => do
          let w ← performCall site w p effect url
          let reference :=
            match effect.effectType with
            | .githubReply => url
            | .githubResolve => site.threadId effect.itemId
          return w.setActivity p (.finishing effect (some token) (.succeeded reference) .read)
      | .lost url => do
          let w ← performCall site w p effect url
          return w.stop p

/-- The next step of `_finish_attempt`. -/
def advanceFinishing (p : P) (effect : SideEffect) (owner : Option String)
    (ended : AttemptEnd) : FinishPhase → World P
  | .read => w.setActivity p (.finishing effect owner ended (finishPhase site w effect))
  | .plan => w.commit p (.finishing effect owner ended .mark) (plan site w effect none)
  | .mark =>
      w.commit p (.finishing effect owner ended .record)
        ((markOutboxInFlight w.store (effect.commandId site) owner []).map (·.1))
  | .record =>
      w.commitAndStop p
        ((recordOutboxResult w.store (effect.commandId site) ended.result
          [ended.record site effect] owner).map (·.1))

/-- The next step of a process. -/
def advance (p : P) (choice : Choice) : Option (World P) :=
  match w.activity p with
  | .idle => none
  | .readInFlight resume =>
      some (w.setActivity p (.probing (inFlightCommands w.store) [] resume))
  | .probing [] [] resume => some (w.setActivity p (afterRecovery resume))
  | .probing [] dead resume => some (w.setActivity p (.demoting dead resume))
  | .probing (command :: remaining) dead resume =>
      let dead := if w.lockHeld command.1 choice then dead else dead ++ [command]
      some (w.setActivity p (.probing remaining dead resume))
  | .demoting dead resume =>
      some (w.commit p (afterRecovery resume) ((demoteDead w.store dead).map (·.1)))
  | .readState effect recovered =>
      some (w.setActivity p (stateRead site w effect recovered))
  | .probeOwner effect =>
      if w.lockHeld (effect.commandId site) choice then
        some (w.setActivity p (.confirmOwner effect))
      else some (w.setActivity p (.readInFlight (some effect)))
  | .confirmOwner effect =>
      if w.lockHeld (effect.commandId site) choice then some (w.stop p)
      else some (w.setActivity p (.acquire effect))
  | .listLatest effect row =>
      if choice.listingFails then some (w.setActivity p (.listViewer effect row))
      else
        match reconcileInFlightReply (w.threads (site.threadId effect.itemId)) (site.login p) with
        | some url =>
            some (w.setActivity p (.finishing effect none (.succeeded url) .read))
        | none => some (w.setActivity p (.listViewer effect row))
  | .listViewer effect row =>
      let comments := w.threads (site.threadId effect.itemId)
      -- A thread without comments is not listed.
      if choice.listingFails ∨ comments = [] ∨ !choice.viewerReplyChecked ∨
          viewerReplied comments (site.login p) then
        some (w.stop p)
      else some (w.setActivity p (.reconciling effect row))
  | .reconciling effect _ =>
      some (w.commit p (.acquire effect)
        ((recordOutboxResult w.store (effect.commandId site)
          { succeeded := false, errorType := some "reconciled_no_effect" } [] none).map (·.1)))
  | .acquire effect =>
      if w.lockHeld (effect.commandId site) choice then some (w.stop p)
      else if choice.token ∈ w.issued then none
      else
        some { w.setActivity p (.guarded effect choice.token .read) with
          locks := Function.update w.locks (effect.commandId site) (some p)
          issued := choice.token :: w.issued }
  | .guarded effect token phase => advanceGuarded site w p choice effect token phase
  | .finishing effect owner ended phase =>
      some (advanceFinishing site w p effect owner ended phase)

def step (label : Label P) : Option (World P) :=
  match label with
  | .recover p =>
      if w.activity p = .idle then some (w.setActivity p (.readInFlight none)) else none
  | .publish p effect =>
      if w.activity p = .idle then some (w.setActivity p (.readState effect false)) else none
  | .advance p choice => advance site w p choice
  | .stop p => some (w.stop p)
  | .write write =>
      match write.apply w.store with
      | .ok store => some { w with store := store }
      | .error _ => none
  | .comment thread comment =>
      some { w with
        threads := Function.update w.threads thread (w.threads thread ++ [comment]) }
  | .removeComment thread index =>
      some { w with
        threads := Function.update w.threads thread ((w.threads thread).eraseIdx index) }

/-- A succeeded row names its external result. -/
def HasReference (row : OutboxRow) : Prop :=
  row.status = .succeeded → row.externalResultReference.getD "" ≠ ""

/-- No process is active; the tokens in the table were handed out before, and a succeeded
row has its reference, as a migration leaves it. -/
structure Initial (w : World P) : Prop where
  idle : ∀ p, w.activity p = .idle
  unlocked : ∀ commandId, w.locks commandId = none
  tokenIssued : ∀ (commandId : String) row token, w.store.outbox[commandId]? = some row →
    row.ownerToken = some token → token ∈ w.issued
  reference : ∀ (commandId : String) row, w.store.outbox[commandId]? = some row →
    HasReference row

def executions : TransitionSystem (World P) (Label P) := .ofNext Initial (step site)

end Machine
end GhAddressCr.SideEffectExecution
