import GhAddressCr.SessionWrites
import GhAddressCr.SideEffectOutbox
import GhAddressCr.TransitionSystem
import Mathlib.Logic.Function.Basic

/-!
# Revision tokens

Any number of commands over one store. A command loads a session, changes it in memory and
saves it under its token, the committed revision it takes the session to describe. The
outbox helper commits side effects in between and moves the token past its own commits. No
successful save overwrites what another command committed since the load.
-/
namespace GhAddressCr.RevisionTokens

open RuntimeStore SideEffectOutbox

/-- What a load asks for: a working set, or everything. -/
abbrev Scope := Option WorkingSetRequest

def loadScope (store : Store) : Scope → StoreResult Session
  | none => loadSnapshot store
  | some request => (loadWorkingSet store request).map (·.session)

/-- A session in memory, with what its command knows of the store. -/
structure Held where
  /-- The session as it stands, its token in `revision`. -/
  session : Session
  scope : Scope
  /-- The revision the load read. -/
  loadedAt : Nat
  /-- The committed session the copy was loaded from, or last saved as. -/
  base : Session
  /-- An outbox commit of this command, before `_advance_token`. -/
  commit : Option OutboxCommit := none

inductive Phase where
  | idle
  /-- The session row is read, with this revision; items and leases are not. -/
  | loading (scope : Scope) (revision : Nat)
  | holding (held : Held)

structure Commit (H : Type) where
  writer : H
  revision : Nat

structure State (H : Type) where
  store : Store
  phase : H → Phase
  /-- Every commit so far. -/
  commits : List (Commit H)

/-- A commit of the outbox helper. -/
inductive OutboxOperation where
  /-- `_plan`; before the external call it waits on the session's token. -/
  | plan (command : OutboxCommand) (guardRevision : Bool)
  | markInFlight (commandId : String) (ownerToken : Option String)
      (evidence : List EvidenceRecord)
  | recordResult (commandId : String) (result : OutboxResult) (evidence : List EvidenceRecord)
      (ownerToken : Option String)
  | recover (dead : List InFlightCommand)

def OutboxOperation.apply (store : Store) (token : Option Nat) :
    OutboxOperation → StoreResult (Store × Option OutboxCommit)
  | .plan command guardRevision =>
      (transact store (fun session => .ok (session, ())) (if guardRevision then token else none)
        [] [command]).map fun planned =>
          (planned.1, some ⟨planned.2.revision - 1, planned.2.revision⟩)
  | .markInFlight commandId ownerToken evidence =>
      (markOutboxInFlight store commandId ownerToken evidence).map fun marked =>
        (marked.1, some marked.2)
  | .recordResult commandId result evidence ownerToken =>
      (recordOutboxResult store commandId result evidence ownerToken).map fun recorded =>
        (recorded.1, some recorded.2)
  | .recover dead => demoteDead store dead

/-- `_advance_token`. -/
def advanceToken (session : Session) (commit : OutboxCommit) : Session :=
  if session.revision = some commit.baseRevision then
    { session with revision := some commit.revision }
  else session

/-- A save of the held session under its token. -/
inductive Save where
  /-- `save_session`. -/
  | replace (evidence : List EvidenceRecord)
  /-- `transact_session` at the token. -/
  | transact (mutation : Mutation Unit) (evidence : List EvidenceRecord)
  /-- `transact_working_set` at the token, as `_persist_loaded_scope` and an accepted response
  make it. -/
  | workingSet (request : WorkingSetRequest) (mutation : Mutation Unit)
      (evidence : List EvidenceRecord)

def Save.write (session : Session) : Save → SessionWrite
  | .replace evidence => .replace session session.revision evidence
  | .transact mutation evidence => .transact mutation session.revision evidence
  | .workingSet request mutation evidence =>
      .workingSet request mutation session.revision evidence

/-- Only a whole session is saved as the whole session. -/
def Save.allowed (held : Held) : Save → Bool
  | .replace _ => held.scope == none
  | _ => true

/-- The held session after the save: `save_session` gives it the token of its commit. -/
def Save.saved (held : Held) (committed : Store) : Save → Held
  | .replace _ =>
      { held with
        session := { held.session with
          pendingEvidence := []
          revision := some committed.latestRevision }
        base := (committedView held.session).toOption.getD held.base }
  | _ => held

inductive Label (H : Type) where
  | beginLoad (h : H) (scope : Scope)
  /-- The remaining SELECTs; `mixture` is what they return when a commit came in between. -/
  | finishLoad (h : H) (mixture : Session)
  /-- The command changes its copy. -/
  | edit (h : H) (session : Session)
  | outbox (h : H) (operation : OutboxOperation)
  | adopt (h : H)
  | save (h : H) (save : Save)
  /-- Any other write; the command's copy, if it has one, is not saved by it. -/
  | write (h : H) (write : SessionWrite)
  /-- `transact_session`, whose committed payload the command goes on with. -/
  | transact (h : H) (mutation : Mutation Unit) (evidence : List EvidenceRecord)
  /-- The command ends, at any point. -/
  | drop (h : H)

section Steps

variable {H : Type} [DecidableEq H] (s : State H)

def State.setPhase (h : H) (phase : Phase) : State H :=
  { s with phase := Function.update s.phase h phase }

def State.committed (h : H) (store : Store) (phase : Phase) : State H where
  store := store
  phase := Function.update s.phase h phase
  commits := ⟨h, store.latestRevision⟩ :: s.commits

/-- A load read everything at one revision, or some rows of a later one. -/
def finishLoad (scope : Scope) (revision : Nat) (mixture : Session) : Phase :=
  if s.store.sessionRevision = revision then
    match loadScope s.store scope with
    | .ok session =>
        .holding {
          session := { session with revision := some revision }
          scope := scope
          loadedAt := revision
          base := session }
    | .error _ => .idle
  else
    .holding {
      session := { mixture with revision := some revision }
      scope := scope
      loadedAt := revision
      base := mixture }

/-- The command holds the commit's revision until it adopts it. -/
def outboxPhase (commit : OutboxCommit) : Phase → Phase
  | .holding held => .holding { held with commit := some commit }
  | phase => phase

def Phase.token : Phase → Option Nat
  | .holding held => held.session.revision
  | _ => none

/-- An outbox commit whose revision is not adopted yet. -/
def Phase.commit : Phase → Option OutboxCommit
  | .holding held => held.commit
  | _ => none

def step (label : Label H) : Option (State H) :=
  match label with
  | .beginLoad h scope => some (s.setPhase h (.loading scope s.store.sessionRevision))
  | .finishLoad h mixture =>
      match s.phase h with
      | .loading scope revision => some (s.setPhase h (finishLoad s scope revision mixture))
      | _ => none
  | .edit h session =>
      match s.phase h with
      | .holding held =>
          some (s.setPhase h (.holding { held with
            session := { session with revision := held.session.revision } }))
      | _ => none
  | .outbox h operation =>
      if (s.phase h).commit = none then
        match operation.apply s.store (s.phase h).token with
        | .ok (store, some commit) =>
            some (s.committed h store (outboxPhase commit (s.phase h)))
        | .ok (_, none) => some s
        | .error _ => none
      else none
  | .adopt h =>
      match s.phase h with
      | .holding held =>
          match held.commit with
          | some commit =>
              some (s.setPhase h (.holding { held with
                session := advanceToken held.session commit
                commit := none }))
          | none => none
      | _ => none
  | .save h save =>
      match s.phase h with
      | .holding held =>
          if held.commit = none ∧ save.allowed held = true ∧
              (save.write held.session).keepsSession s.store = true then
            match (save.write held.session).apply s.store with
            | .ok store => some (s.committed h store (.holding (save.saved held store)))
            | .error _ => none
          else none
      | _ => none
  | .write h write =>
      if write.keepsSession s.store = true then
        match write.apply s.store with
        | .ok store => some (s.committed h store (s.phase h))
        | .error _ => none
      else none
  | .transact h mutation evidence =>
      match RuntimeStore.transact s.store mutation none evidence with
      | .ok (store, result) =>
          some (s.committed h store (.holding {
            session := { result.payload with revision := some result.revision }
            scope := none
            loadedAt := result.revision
            base := result.payload }))
      | .error _ => none
  | .drop h => some (s.setPhase h .idle)

end Steps

/-- No command has begun; the session row is at the store's revision. -/
structure Initial {H : Type} (s : State H) : Prop where
  revision : s.store.sessionRevision = s.store.latestRevision
  idle : ∀ h, s.phase h = .idle
  commits : s.commits = []

def editing {H : Type} [DecidableEq H] : TransitionSystem (State H) (Label H) :=
  .ofNext Initial step

section Invariant

variable {H : Type}

/-- Every commit after one revision, up to another, is by this command. -/
def OwnCommits (s : State H) (h : H) (low high : Nat) : Prop :=
  ∀ commit ∈ s.commits, low < commit.revision → commit.revision ≤ high → commit.writer = h

/-- At the store's revision, a load returns the copy's base. -/
def Describes (s : State H) (held : Held) (revision : Nat) : Prop :=
  revision = s.store.latestRevision → loadScope s.store held.scope = .ok held.base

/-- What a held session's token, and a commit it may adopt, say about the store. -/
structure Tracks (s : State H) (h : H) (held : Held) : Prop where
  token : ∃ token, held.session.revision = some token ∧ held.loadedAt ≤ token ∧
    token ≤ s.store.latestRevision ∧ OwnCommits s h held.loadedAt token ∧
    Describes s held token
  commit : ∀ commit, held.commit = some commit →
    commit.baseRevision < commit.revision ∧ commit.revision ≤ s.store.latestRevision ∧
      OwnCommits s h commit.baseRevision commit.revision ∧
      (held.session.revision = some commit.baseRevision → Describes s held commit.revision)

structure Invariant (s : State H) : Prop where
  revision : s.store.sessionRevision = s.store.latestRevision
  commits : ∀ commit ∈ s.commits, commit.revision ≤ s.store.latestRevision
  loading : ∀ h scope revision, s.phase h = .loading scope revision →
    revision ≤ s.store.latestRevision
  holding : ∀ h held, s.phase h = .holding held → Tracks s h held

variable {s : State H}

theorem OwnCommits.refl (s : State H) (h : H) (revision : Nat) :
    OwnCommits s h revision revision := by
  intro commit _ hafter hupto
  omega

theorem OwnCommits.trans {h : H} {low middle high : Nat} (hlow : OwnCommits s h low middle)
    (hhigh : OwnCommits s h middle high) : OwnCommits s h low high := by
  intro commit hmem hafter hupto
  by_cases hmiddle : commit.revision ≤ middle
  · exact hlow commit hmem hafter hmiddle
  · exact hhigh commit hmem (by omega) hupto

variable [DecidableEq H]

/-- A change of one command's phase keeps the invariant when the new phase fits the store. -/
theorem Invariant.setPhase (hinv : Invariant s) {h : H} {phase : Phase}
    (hloading : ∀ scope revision, phase = .loading scope revision →
      revision ≤ s.store.latestRevision)
    (hholding : ∀ held, phase = .holding held → Tracks s h held) :
    Invariant (s.setPhase h phase) where
  revision := hinv.revision
  commits := hinv.commits
  loading := by
    intro g scope revision hg
    by_cases hsame : g = h
    · subst hsame
      exact hloading scope revision (by simpa [State.setPhase] using hg)
    · exact hinv.loading g scope revision (by simpa [State.setPhase, hsame] using hg)
  holding := by
    intro g held hg
    by_cases hsame : g = h
    · subst hsame
      obtain ⟨htoken, hcommit⟩ := hholding held (by simpa [State.setPhase] using hg)
      exact ⟨htoken, hcommit⟩
    · obtain ⟨htoken, hcommit⟩ :=
        hinv.holding g held (by simpa [State.setPhase, hsame] using hg)
      exact ⟨htoken, hcommit⟩

/-- A new commit is later than every revision a command knows. -/
theorem ownCommits_committed (h : H) {store : Store} (phase : Phase) {g : H} {low high : Nat}
    (hown : OwnCommits s g low high) (hlater : high < store.latestRevision) :
    OwnCommits (s.committed h store phase) g low high := by
  intro commit hmem hafter hupto
  rcases List.mem_cons.mp hmem with hnew | hold
  · subst hnew
    exact absurd hupto (by show ¬ store.latestRevision ≤ high; omega)
  · exact hown commit hold hafter hupto

/-- The commits after the store's revision are the new one. -/
theorem ownCommits_latest (hinv : Invariant s) (h : H) (store : Store) (phase : Phase) :
    OwnCommits (s.committed h store phase) h s.store.latestRevision store.latestRevision := by
  intro commit hmem hafter _
  rcases List.mem_cons.mp hmem with hnew | hold
  · subst hnew
    rfl
  · have hbound := hinv.commits commit hold
    omega

/-- A copy that another command commits past is stale, and knows it. -/
theorem Tracks.committed {g h : H} {held : Held} {store : Store} {phase : Phase}
    (htracks : Tracks s g held) (hfollows : Follows s.store store) :
    Tracks (s.committed h store phase) g held where
  token := by
    obtain ⟨token, hrevision, hloaded, hlatest, hown, -⟩ := htracks.token
    have hnext := hfollows.latest
    refine ⟨token, hrevision, hloaded, by show token ≤ store.latestRevision; omega,
      ownCommits_committed h phase hown (by omega), ?_⟩
    intro hsame
    have hsame : token = store.latestRevision := hsame
    omega
  commit := by
    intro commit hcommit
    obtain ⟨hbase, hlatest, hown, -⟩ := htracks.commit commit hcommit
    have hnext := hfollows.latest
    refine ⟨hbase, by show commit.revision ≤ store.latestRevision; omega,
      ownCommits_committed h phase hown (by omega), ?_⟩
    intro _ hsame
    have hsame : commit.revision = store.latestRevision := hsame
    omega

/-- A commit keeps the invariant when the writer's new phase fits the new store. -/
theorem Invariant.committed (hinv : Invariant s) {h : H} {store : Store} {phase : Phase}
    (hfollows : Follows s.store store)
    (hloading : ∀ scope revision, phase = .loading scope revision →
      revision ≤ store.latestRevision)
    (hholding : ∀ held, phase = .holding held → Tracks (s.committed h store phase) h held) :
    Invariant (s.committed h store phase) where
  revision := hfollows.session
  commits := by
    intro commit hmem
    have hnext := hfollows.latest
    rcases List.mem_cons.mp hmem with hnew | hold
    · subst hnew
      exact Nat.le_refl _
    · have hbound := hinv.commits commit hold
      show commit.revision ≤ store.latestRevision
      omega
  loading := by
    intro g scope revision hg
    by_cases hsame : g = h
    · subst hsame
      exact hloading scope revision (by simpa [State.committed] using hg)
    · have hbound := hinv.loading g scope revision (by simpa [State.committed, hsame] using hg)
      have hnext := hfollows.latest
      show revision ≤ store.latestRevision
      omega
  holding := by
    intro g held hg
    by_cases hsame : g = h
    · subst hsame
      exact hholding held (by simpa [State.committed] using hg)
    · exact (hinv.holding g held (by simpa [State.committed, hsame] using hg)).committed hfollows

/-- The phase of a command before its commit still fits the store after it. -/
theorem Invariant.committed_samePhase (hinv : Invariant s) {h : H} {store : Store}
    (hfollows : Follows s.store store) : Invariant (s.committed h store (s.phase h)) := by
  refine hinv.committed hfollows ?_ ?_
  · intro scope revision hphase
    have hbound := hinv.loading h scope revision hphase
    have hnext := hfollows.latest
    omega
  · intro held hphase
    exact (hinv.holding h held hphase).committed hfollows

end Invariant

/-- A load returns after the commit what it returned before. -/
def LoadsAlike (store store' : Store) : Prop :=
  ∀ scope session, loadScope store scope = .ok session → loadScope store' scope = .ok session

theorem LoadsAlike.ofSameSession {store store' : Store} (h : SameSession store store') :
    LoadsAlike store store' := by
  intro scope session hload
  cases scope with
  | none => exact h.loadSnapshot.trans hload
  | some request => exact (congrArg (·.map (·.session)) (h.loadWorkingSet request)).trans hload

/-- What one outbox commit does to the store, and what it reports. -/
structure OutboxStep (store store' : Store) (commit : OutboxCommit) : Prop where
  follows : Follows store store'
  loads : LoadsAlike store store'
  reports : commit = ⟨store.latestRevision, store.latestRevision + 1⟩

theorem commitOutbox_step {store store' : Store} {rows : Rows OutboxRow}
    {evidence : List EvidenceRecord} {commit : OutboxCommit}
    (h : commitOutbox store rows evidence = .ok (store', commit)) :
    OutboxStep store store' commit := by
  obtain ⟨⟨added, rfl⟩, -, hcommit⟩ := commitOutbox_ok h
  exact ⟨⟨rfl, rfl, added, rfl⟩, .ofSameSession ⟨rfl, rfl, rfl, rfl⟩, hcommit⟩

/-- Planning commits the session it loads: its claims are projected as before. -/
theorem plan_step {store store' : Store} {expected : Option Nat} {command : OutboxCommand}
    {result : TransactionResult Unit} (hrevision : store.sessionRevision = store.latestRevision)
    (h : transact store (fun session => .ok (session, ())) expected [] [command] =
      .ok (store', result)) :
    OutboxStep store store' ⟨result.revision - 1, result.revision⟩ := by
  obtain ⟨current, session, hload, -, hmutation, hcommit, -, hresult⟩ := transact_ok h
  obtain ⟨rfl, -⟩ := Prod.mk.inj (Except.ok.inj hmutation)
  rw [hrevision] at hcommit hresult
  have hafter : loadSnapshot store' = .ok current := by
    rw [commitSession_view hcommit, committedView_loadSnapshot hload]
  refine ⟨commitSession_follows rfl hcommit, ?_, by rw [hresult]; rfl⟩
  intro scope session hscope
  cases scope with
  | none =>
      have hsame : current = session := Except.ok.inj (hload.symm.trans hscope)
      exact hsame ▸ hafter
  | some request => exact (workingSet_congr hload hafter request).trans hscope

theorem OutboxOperation.apply_step {store store' : Store} {token : Option Nat}
    {operation : OutboxOperation} {commit : OutboxCommit}
    (hrevision : store.sessionRevision = store.latestRevision)
    (h : operation.apply store token = .ok (store', some commit)) :
    OutboxStep store store' commit := by
  cases operation with
  | plan command guardRevision =>
      obtain ⟨⟨planned, result⟩, htransact, hpair⟩ := StoreResult.map_ok.mp h
      obtain ⟨rfl, hcommit⟩ := Prod.mk.inj hpair
      have hcommit := Option.some.inj hcommit
      subst hcommit
      exact plan_step hrevision htransact
  | markInFlight commandId ownerToken evidence =>
      obtain ⟨⟨marked, commit'⟩, hmark, hpair⟩ := StoreResult.map_ok.mp h
      obtain ⟨rfl, hcommit⟩ := Prod.mk.inj hpair
      have hcommit := Option.some.inj hcommit
      subst hcommit
      obtain ⟨row, -, -, hwrite⟩ := markOutboxInFlight_ok hmark
      exact commitOutbox_step hwrite
  | recordResult commandId result evidence ownerToken =>
      obtain ⟨⟨recorded, commit'⟩, hrecord, hpair⟩ := StoreResult.map_ok.mp h
      obtain ⟨rfl, hcommit⟩ := Prod.mk.inj hpair
      have hcommit := Option.some.inj hcommit
      subst hcommit
      obtain ⟨-, row, -, -, hwrite⟩ := recordOutboxResult_ok hrecord
      exact commitOutbox_step hwrite
  | recover dead => exact commitOutbox_step (demoteDead_commit h)

/-- The writer of an outbox commit may adopt it. -/
theorem Tracks.outbox {H : Type} [DecidableEq H] {s : State H} (hinv : Invariant s) {h : H}
    {held : Held} {store : Store} {commit : OutboxCommit} (phase : Phase)
    (htracks : Tracks s h held) (hstep : OutboxStep s.store store commit) :
    Tracks (s.committed h store phase) h { held with commit := some commit } where
  token := by
    obtain ⟨token, hrevision, hloaded, hlatest, hown, -⟩ := (htracks.committed hstep.follows).token
    obtain ⟨before, hbefore, -, hbound, -, -⟩ := htracks.token
    have hnext := hstep.follows.latest
    have hsame : before = token := Option.some.inj (hbefore.symm.trans hrevision)
    refine ⟨token, hrevision, hloaded, hlatest, hown, ?_⟩
    intro hat
    have hat : token = store.latestRevision := hat
    omega
  commit := by
    intro other hother
    have hother := Option.some.inj hother
    subst hother
    obtain ⟨token, hrevision, -, -, -, hdescribes⟩ := htracks.token
    have hnext := hstep.follows.latest
    rw [hstep.reports]
    refine ⟨Nat.lt_succ_self _, Nat.le_of_eq hnext.symm, ?_, ?_⟩
    · have hown := ownCommits_latest hinv h store phase
      rwa [hnext] at hown
    · intro hat _
      have hat : token = s.store.latestRevision := Option.some.inj (hrevision.symm.trans hat)
      exact hstep.loads _ _ (hdescribes hat)

section Runs

variable {H : Type} {s : State H}

/-- What a save that succeeds, and an adopted token, say of the other commands' commits. -/
structure NoLostUpdate (s : State H) (label : Label H) (s' : State H) : Prop where
  /-- A save follows the revision its copy describes, no other command committed since the
  copy was loaded, and evidence and side effects stay. -/
  saved : ∀ h save held, label = .save h save → s.phase h = .holding held →
    held.session.revision = some s.store.latestRevision ∧
      loadScope s.store held.scope = .ok held.base ∧
      (∀ commit ∈ s.commits, held.loadedAt < commit.revision → commit.writer = h) ∧
      (∃ added, s'.store.evidence = s.store.evidence ++ added) ∧
      s'.store.outbox = s.store.outbox
  /-- A token moves only past commits of its own command. -/
  adopted : ∀ h held held' token token', label = .adopt h → s.phase h = .holding held →
    s'.phase h = .holding held' → held.session.revision = some token →
    held'.session.revision = some token' → OwnCommits s h token token'

theorem NoLostUpdate.of_other {label : Label H} {s' : State H}
    (hsave : ∀ h save, label ≠ .save h save) (hadopt : ∀ h, label ≠ .adopt h) :
    NoLostUpdate s label s' where
  saved h save _ hlabel := absurd hlabel (hsave h save)
  adopted h _ _ _ _ hlabel := absurd hlabel (hadopt h)

theorem Save.write_expected (session : Session) (save : Save) :
    (save.write session).expected = session.revision := by
  cases save <;> rfl

/-- The token of a held session is at the store's revision when its save succeeds. -/
theorem Tracks.saved {h : H} {held : Held} (hinv : Invariant s) (htracks : Tracks s h held)
    (hat : ∀ token, held.session.revision = some token → token = s.store.latestRevision) :
    held.session.revision = some s.store.latestRevision ∧
      loadScope s.store held.scope = .ok held.base ∧
      ∀ commit ∈ s.commits, held.loadedAt < commit.revision → commit.writer = h := by
  obtain ⟨token, hrevision, -, -, hown, hdescribes⟩ := htracks.token
  have htoken := hat token hrevision
  subst htoken
  refine ⟨hrevision, hdescribes rfl, ?_⟩
  intro commit hmem hafter
  exact hown commit hmem hafter (hinv.commits commit hmem)

theorem Initial.invariant (h : Initial s) : Invariant s where
  revision := h.revision
  commits := by simp [h.commits]
  loading := by
    intro g _ _ hg
    rw [h.idle g] at hg
    cases hg
  holding := by
    intro g _ hg
    rw [h.idle g] at hg
    cases hg

/-- A load that straddled no commit describes its revision; any other one is stale. -/
theorem finishLoad_tracks (hinv : Invariant s) {h : H} {scope : Scope} {revision : Nat}
    {mixture : Session} {held : Held} (hloading : s.phase h = .loading scope revision)
    (hheld : finishLoad s scope revision mixture = .holding held) : Tracks s h held := by
  have hbound := hinv.loading h scope revision hloading
  have hrevision := hinv.revision
  unfold finishLoad at hheld
  split at hheld
  case isTrue hsame =>
      split at hheld
      case h_1 session hload =>
          have hheld := Phase.holding.inj hheld
          subst hheld
          refine ⟨⟨revision, rfl, Nat.le_refl _, hbound, .refl s h revision, fun _ => hload⟩, ?_⟩
          intro commit hcommit
          cases hcommit
      case h_2 => cases hheld
  case isFalse hlater =>
      have hheld := Phase.holding.inj hheld
      subst hheld
      refine ⟨⟨revision, rfl, Nat.le_refl _, hbound, .refl s h revision, ?_⟩, ?_⟩
      · intro hat
        exact absurd (hrevision.trans hat.symm) hlater
      · intro commit hcommit
        cases hcommit

/-- A session after `_advance_token` still knows its revision: the token moves only over the
command's own commit. -/
theorem Tracks.adopt {h : H} {held : Held} {commit : OutboxCommit} (htracks : Tracks s h held)
    (hcommit : held.commit = some commit) :
    Tracks s h { held with session := advanceToken held.session commit, commit := none } ∧
      ∀ token token', held.session.revision = some token →
        (advanceToken held.session commit).revision = some token' →
        OwnCommits s h token token' := by
  obtain ⟨token, hrevision, hloaded, hlatest, hown, hdescribes⟩ := htracks.token
  obtain ⟨hbase, hbound, howns, hafter⟩ := htracks.commit commit hcommit
  have hnothing : ∀ other, (none : Option OutboxCommit) = some other →
      other.baseRevision < other.revision ∧ other.revision ≤ s.store.latestRevision ∧
        OwnCommits s h other.baseRevision other.revision ∧
        ((advanceToken held.session commit).revision = some other.baseRevision →
          Describes s { held with
            session := advanceToken held.session commit
            commit := none } other.revision) := by
    intro other hother
    cases hother
  by_cases hat : held.session.revision = some commit.baseRevision
  · have hmoved : (advanceToken held.session commit).revision = some commit.revision := by
      simp [advanceToken, hat]
    have htoken : token = commit.baseRevision := Option.some.inj (hrevision.symm.trans hat)
    subst htoken
    refine ⟨⟨⟨commit.revision, hmoved, by show held.loadedAt ≤ commit.revision; omega, hbound,
      hown.trans howns, hafter hat⟩, hnothing⟩, ?_⟩
    intro before after hbefore hafterwards
    rw [hat] at hbefore
    rw [hmoved] at hafterwards
    rw [← Option.some.inj hbefore, ← Option.some.inj hafterwards]
    exact howns
  · have hkept : advanceToken held.session commit = held.session := by
      simp [advanceToken, hat]
    refine ⟨⟨⟨token, by rw [hkept]; exact hrevision, hloaded, hlatest, hown, hdescribes⟩,
      hnothing⟩, ?_⟩
    intro before after hbefore hafterwards
    rw [hkept, hbefore] at hafterwards
    have hsame : before = after := Option.some.inj hafterwards
    exact hsame ▸ .refl s h before

variable [DecidableEq H]

/-- A whole session that was saved is the committed one. -/
theorem Tracks.ofSave {h : H} {held : Held} {store : Store} {save : Save} (hinv : Invariant s)
    (htracks : Tracks s h held) (hidle : held.commit = none)
    (hallowed : save.allowed held = true) (hfollows : Follows s.store store)
    (happly : (save.write held.session).apply s.store = .ok store)
    (hat : held.session.revision = some s.store.latestRevision) (phase : Phase) :
    Tracks (s.committed h store phase) h (save.saved held store) := by
  cases save with
  | transact mutation evidence => exact htracks.committed hfollows
  | workingSet request mutation evidence => exact htracks.committed hfollows
  | replace evidence =>
      obtain ⟨revision, hreplace⟩ := StoreResult.map_fst_ok happly
      obtain ⟨-, hcommit, -⟩ := replace_ok hreplace
      obtain ⟨token, hrevision, hloaded, -, hown, -⟩ := htracks.token
      have htoken : token = s.store.latestRevision := Option.some.inj (hrevision.symm.trans hat)
      subst htoken
      have hnext := hfollows.latest
      have hscope : held.scope = none := by simpa [Save.allowed] using hallowed
      have hview := commitSession_view hcommit
      refine ⟨⟨store.latestRevision, rfl, ?_, Nat.le_refl _, ?_, ?_⟩, ?_⟩
      · show held.loadedAt ≤ store.latestRevision
        omega
      · have hbefore := ownCommits_committed h phase hown (by omega : _ < store.latestRevision)
        exact hbefore.trans (ownCommits_latest hinv h store phase)
      · intro _
        obtain ⟨written, -, -, hwritten, -, -, -⟩ := commitSession_ok hcommit
        have hshown := committedView_ok.mpr ⟨(writeSession_view hwritten).2.1, rfl⟩
        show loadScope store held.scope = _
        rw [hscope]
        show loadSnapshot store = _
        rw [hview]
        simp [Save.saved, hshown, Except.toOption]
      · intro commit hcommit
        exact absurd (hidle.symm.trans hcommit) (by simp)

/-- A transaction's committed payload describes the revision it reports. -/
theorem tracks_ofTransact (hinv : Invariant s) {h : H} {mutation : Mutation Unit}
    {evidence : List EvidenceRecord} {store : Store} {result : TransactionResult Unit}
    (htransact : transact s.store mutation none evidence = .ok (store, result))
    (phase : Phase) :
    Follows s.store store ∧ Tracks (s.committed h store phase) h {
      session := { result.payload with revision := some result.revision }
      scope := none
      loadedAt := result.revision
      base := result.payload } := by
  obtain ⟨current, session, -, -, -, hcommit, hview, hresult⟩ := transact_ok htransact
  rw [hinv.revision] at hcommit hresult
  have hfollows := commitSession_follows rfl hcommit
  have hnext := hfollows.latest
  refine ⟨hfollows, ⟨result.revision, rfl, Nat.le_refl _, ?_, .refl _ h result.revision, ?_⟩, ?_⟩
  · show result.revision ≤ store.latestRevision
    omega
  · intro _
    exact (commitSession_view hcommit).trans hview
  · intro commit hcommit
    cases hcommit

theorem Invariant.step_beginLoad (hinv : Invariant s) {h : H} {scope : Scope} {s' : State H}
    (hstep : step s (.beginLoad h scope) = some s') :
    Invariant s' ∧ NoLostUpdate s (.beginLoad h scope) s' := by
  have hs' := Option.some.inj hstep
  subst hs'
  refine ⟨hinv.setPhase ?_ ?_, .of_other nofun nofun⟩
  · intro _ revision hphase
    obtain ⟨-, rfl⟩ := Phase.loading.inj hphase
    exact Nat.le_of_eq hinv.revision
  · intro held hphase
    cases hphase

theorem Invariant.step_finishLoad (hinv : Invariant s) {h : H} {mixture : Session} {s' : State H}
    (hstep : step s (.finishLoad h mixture) = some s') :
    Invariant s' ∧ NoLostUpdate s (.finishLoad h mixture) s' := by
  simp only [RevisionTokens.step] at hstep
  split at hstep
  case h_1 scope revision hphase =>
      have hs' := Option.some.inj hstep
      subst hs'
      refine ⟨hinv.setPhase ?_ fun held => finishLoad_tracks hinv hphase,
        .of_other nofun nofun⟩
      intro scope' revision' hloading
      unfold finishLoad at hloading
      repeat' split at hloading
      all_goals cases hloading
  case h_2 => cases hstep

theorem Invariant.step_edit (hinv : Invariant s) {h : H} {session : Session} {s' : State H}
    (hstep : step s (.edit h session) = some s') :
    Invariant s' ∧ NoLostUpdate s (.edit h session) s' := by
  simp only [RevisionTokens.step] at hstep
  split at hstep
  case h_1 held hphase =>
      have hs' := Option.some.inj hstep
      subst hs'
      refine ⟨hinv.setPhase nofun ?_, .of_other nofun nofun⟩
      intro held' hheld
      have hheld := Phase.holding.inj hheld
      subst hheld
      obtain ⟨htoken, hcommit⟩ := hinv.holding h held hphase
      exact ⟨htoken, hcommit⟩
  case h_2 => cases hstep

/-- A step of the outbox commits no session. -/
theorem Invariant.step_outbox (hinv : Invariant s) {h : H}
    {operation : OutboxOperation} {s' : State H}
    (hstep : step s (.outbox h operation) = some s') :
    Invariant s' ∧ NoLostUpdate s (.outbox h operation) s' := by
  simp only [RevisionTokens.step] at hstep
  split at hstep
  case isFalse => cases hstep
  case isTrue =>
      split at hstep
      case h_1 store commit happly =>
          have hs' := Option.some.inj hstep
          subst hs'
          have houtbox := OutboxOperation.apply_step hinv.revision happly
          refine ⟨hinv.committed houtbox.follows ?_ ?_, .of_other nofun nofun⟩
          · intro scope revision hphase
            cases hbefore : s.phase h with
            | loading scope' revision' =>
                rw [hbefore] at hphase
                obtain ⟨rfl, rfl⟩ := Phase.loading.inj hphase
                have hbound := hinv.loading h _ _ hbefore
                have hnext := houtbox.follows.latest
                omega
            | idle => rw [hbefore] at hphase; cases hphase
            | holding held => rw [hbefore] at hphase; cases hphase
          · intro held hphase
            cases hbefore : s.phase h with
            | holding before =>
                rw [hbefore] at hphase
                have hheld := Phase.holding.inj hphase
                subst hheld
                exact (hinv.holding h before hbefore).outbox hinv _ houtbox
            | idle => rw [hbefore] at hphase; cases hphase
            | loading scope revision => rw [hbefore] at hphase; cases hphase
      case h_2 =>
          have hs' := Option.some.inj hstep
          subst hs'
          exact ⟨hinv, .of_other nofun nofun⟩
      case h_3 => cases hstep

/-- An adopted token moves past the outbox commits of its own command only. -/
theorem Invariant.step_adopt (hinv : Invariant s) {h : H} {s' : State H}
    (hstep : step s (.adopt h) = some s') :
    Invariant s' ∧ NoLostUpdate s (.adopt h) s' := by
  simp only [RevisionTokens.step] at hstep
  split at hstep
  case h_1 held hphase =>
      split at hstep
      case h_1 commit hcommit =>
          have hs' := Option.some.inj hstep
          subst hs'
          obtain ⟨htracks, hmoves⟩ := (hinv.holding h held hphase).adopt hcommit
          refine ⟨hinv.setPhase nofun ?_, ?_, ?_⟩
          · intro held' hheld
            have hheld := Phase.holding.inj hheld
            subst hheld
            exact htracks
          · intro _ _ _ hlabel
            cases hlabel
          · intro g before after token token' hlabel hbefore hafter htoken htoken'
            have hsame := Label.adopt.inj hlabel
            subst hsame
            have hbefore := Phase.holding.inj (hphase.symm.trans hbefore)
            subst hbefore
            have hafter := Phase.holding.inj
              (show Phase.holding _ = .holding after by simpa [State.setPhase] using hafter)
            subst hafter
            exact hmoves token token' htoken htoken'
      case h_2 => cases hstep
  case h_2 => cases hstep

/-- A save that succeeds finds what its command loaded. -/
theorem Invariant.step_save (hinv : Invariant s) {h : H} {save : Save} {s' : State H}
    (hstep : step s (.save h save) = some s') :
    Invariant s' ∧ NoLostUpdate s (.save h save) s' := by
  simp only [RevisionTokens.step] at hstep
  split at hstep
  case h_1 held hphase =>
      split at hstep
      case isTrue hallowed =>
          obtain ⟨hidle, hallowed, hkeeps⟩ := hallowed
          split at hstep
          case h_1 store happly =>
              have hs' := Option.some.inj hstep
              subst hs'
              obtain ⟨hfollows, hexpected⟩ :=
                SessionWrite.apply_follows hinv.revision hkeeps happly
              rw [Save.write_expected] at hexpected
              have htracks := hinv.holding h held hphase
              obtain ⟨hat, hbase, hothers⟩ := htracks.saved hinv hexpected
              refine ⟨hinv.committed hfollows nofun ?_, ?_, ?_⟩
              · intro held' hheld
                have hheld := Phase.holding.inj hheld
                subst hheld
                exact htracks.ofSave hinv hidle hallowed hfollows happly hat _
              · intro g save' before hlabel hbefore
                obtain ⟨rfl, -⟩ := Label.save.inj hlabel
                have hbefore := Phase.holding.inj (hphase.symm.trans hbefore)
                subst hbefore
                exact ⟨hat, hbase, hothers, hfollows.evidence,
                  SessionWrite.apply_outbox happly⟩
              · intro g _ _ _ _ hlabel
                cases hlabel
          case h_2 => cases hstep
      case isFalse => cases hstep
  case h_2 => cases hstep

theorem Invariant.step_write (hinv : Invariant s) {h : H} {write : SessionWrite} {s' : State H}
    (hstep : step s (.write h write) = some s') :
    Invariant s' ∧ NoLostUpdate s (.write h write) s' := by
  simp only [RevisionTokens.step] at hstep
  split at hstep
  case isTrue hkeeps =>
      split at hstep
      case h_1 store happly =>
          have hs' := Option.some.inj hstep
          subst hs'
          have hfollows := (SessionWrite.apply_follows hinv.revision hkeeps happly).1
          exact ⟨hinv.committed_samePhase hfollows, .of_other nofun nofun⟩
      case h_2 => cases hstep
  case isFalse => cases hstep

theorem Invariant.step_transact (hinv : Invariant s) {h : H}
    {mutation : Mutation Unit} {evidence : List EvidenceRecord} {s' : State H}
    (hstep : step s (.transact h mutation evidence) = some s') :
    Invariant s' ∧ NoLostUpdate s (.transact h mutation evidence) s' := by
  simp only [RevisionTokens.step] at hstep
  split at hstep
  case h_1 store result htransact =>
      have hs' := Option.some.inj hstep
      subst hs'
      have hheld := fun phase => tracks_ofTransact hinv (h := h) htransact phase
      refine ⟨hinv.committed (hheld .idle).1 nofun ?_, .of_other nofun nofun⟩
      intro held hphase
      have hsame := Phase.holding.inj hphase
      subst hsame
      exact (hheld _).2
  case h_2 => cases hstep

theorem Invariant.step_drop (hinv : Invariant s) {h : H} {s' : State H}
    (hstep : step s (.drop h) = some s') :
    Invariant s' ∧ NoLostUpdate s (.drop h) s' := by
  have hs' := Option.some.inj hstep
  subst hs'
  exact ⟨hinv.setPhase nofun nofun, .of_other nofun nofun⟩

theorem Invariant.step (hinv : Invariant s) {label : Label H} {s' : State H}
    (hstep : step s label = some s') : Invariant s' ∧ NoLostUpdate s label s' := by
  cases label with
  | beginLoad h scope => exact hinv.step_beginLoad hstep
  | finishLoad h mixture => exact hinv.step_finishLoad hstep
  | edit h session => exact hinv.step_edit hstep
  | outbox h operation => exact hinv.step_outbox hstep
  | adopt h => exact hinv.step_adopt hstep
  | save h save => exact hinv.step_save hstep
  | write h write => exact hinv.step_write hstep
  | transact h mutation evidence => exact hinv.step_transact hstep
  | drop h => exact hinv.step_drop hstep

/-- In every run, a save that succeeds overwrites nothing another command committed after
the saved session was loaded. -/
theorem no_lost_update {label : Label H} {s' : State H} (hreach : (editing (H := H)).Reachable s)
    (hstep : step s label = some s') : NoLostUpdate s label s' :=
  (Invariant.step (hreach.invariant Invariant (fun _ => Initial.invariant)
    fun _ _ _ hinv hnext => (hinv.step hnext).1) hstep).2

end Runs

/-- A store of one session, and two commands. -/
def oneSession : State Bool where
  store :=
    { latestRevision := 1
      sessionRevision := 1
      root := Dict.ofFields [("session_id", .str "session")]
      items := ∅
      leases := ∅
      leaseEvents := []
      evidence := []
      outbox := ∅ }
  phase := fun _ => .idle
  commits := []

theorem oneSession_initial : Initial oneSession := ⟨rfl, fun _ => rfl, rfl⟩

def plannedReply : OutboxCommand where
  commandId := "command"
  effectType := "github_reply"
  idempotencyKey := "session:item:github_reply"
  operationCategory := "github_reply"
  retryBoundary := some .reconcileOnly

/-- One command writes; then the other loads, plans a side effect and adopts its commit. -/
def planAndAdopt : List (Label Bool) :=
  [.write false (.transact (fun session => .ok (session, ())) none []),
    .beginLoad true none,
    .finishLoad true { root := ∅, items := ∅, leases := ∅, leaseEvents := [] },
    .outbox true (.plan plannedReply true),
    .adopt true]

theorem no_lost_update_planAndAdopt : ∃ s s',
    TransitionSystem.run step oneSession planAndAdopt = some s ∧
    step s (.save true (.replace [])) = some s' ∧
    NoLostUpdate s (.save true (.replace [])) s' := by
  have hsaves : ((TransitionSystem.run step oneSession planAndAdopt).bind fun s =>
      step s (.save true (.replace []))).isSome = true := by
    decide +kernel
  obtain ⟨s', hs'⟩ := Option.isSome_iff_exists.mp hsaves
  obtain ⟨s, hs, hstep⟩ := Option.bind_eq_some_iff.mp hs'
  have hreach : (editing (H := Bool)).Reachable s :=
    TransitionSystem.reachable_of_run _ (.start oneSession_initial) hs
  exact ⟨s, s', hs, hstep, no_lost_update hreach hstep⟩

end GhAddressCr.RevisionTokens
