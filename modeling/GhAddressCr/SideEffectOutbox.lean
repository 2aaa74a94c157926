import GhAddressCr.RuntimeStore

/-!
# The outbox of side effects

The store's transitions of outbox rows, each a transaction of its own: entering flight,
recording a result, and demoting the commands of dead executors.
-/
namespace GhAddressCr

open RuntimeStore

/-- `outbox_command_id`: a digest of the effect and its key, taken to be injective. -/
def outboxCommandId (effectType idempotencyKey : String) : String :=
  "outbox_" ++ effectType ++ "\x00" ++ idempotencyKey

/-- A reply may already be visible after an interrupted call, so it is reconciled, never
blindly retried. -/
def retryBoundaryFor (effectType : String) : RetryBoundary :=
  if effectType = "github_reply" then .reconcileOnly else .idempotent

/-- An outbox-only commit: the revision it was based on and the one it produced. -/
structure OutboxCommit where
  baseRevision : Nat
  revision : Nat
  deriving DecidableEq, Repr

namespace SideEffectOutbox

/-- Commit changed outbox rows and the evidence recorded with them. -/
def commitOutbox (store : Store) (rows : Rows OutboxRow) (evidence : List EvidenceRecord) :
    StoreResult (Store × OutboxCommit) := do
  let revision := store.latestRevision + 1
  let written ← writeEvidence { store with outbox := rows } evidence revision
  return (advanceRevision { written with sessionRevision := revision } revision,
    ⟨store.latestRevision, revision⟩)

/-- The row may enter flight; an unknown one only when its effect may be repeated. -/
def entersFlight (row : OutboxRow) : Bool :=
  match row.status with
  | .planned | .failed => true
  | .unknown => row.retryBoundary == some .idempotent
  | .inFlight | .succeeded => false

def inFlightRow (row : OutboxRow) (ownerToken : Option String) : OutboxRow :=
  { row with
    status := .inFlight
    attemptCount := row.attemptCount + 1
    errorType := none
    externalResultReference := none
    ownerToken := ownerToken }

def markOutboxInFlight (store : Store) (commandId : String) (ownerToken : Option String)
    (evidence : List EvidenceRecord) : StoreResult (Store × OutboxCommit) :=
  match store.outbox[commandId]? with
  | some row =>
      if entersFlight row then
        commitOutbox store (store.outbox.insert commandId (inFlightRow row ownerToken)) evidence
      else .error (.persistenceInvalid
        "Outbox command is missing or cannot enter the requested state.")
  | none => .error (.persistenceInvalid
      "Outbox command is missing or cannot enter the requested state.")

/-- An external result, as an executor or a reconciler reports it. -/
structure OutboxResult where
  succeeded : Bool
  externalResultReference : Option String := none
  errorType : Option String := none
  deriving DecidableEq

def OutboxResult.status (result : OutboxResult) : OutboxStatus :=
  if result.succeeded then .succeeded else .failed

/-- An in-flight row accepts a result only from its owner, an unknown row from anyone. -/
def acceptsResult (row : OutboxRow) (ownerToken : Option String) : Bool :=
  row.status == .unknown ||
    (row.status == .inFlight && (row.ownerToken == none || row.ownerToken == ownerToken))

def resultRow (row : OutboxRow) (result : OutboxResult) : OutboxRow :=
  { row with
    status := result.status
    errorType := result.errorType
    externalResultReference := result.externalResultReference
    ownerToken := none }

def recordOutboxResult (store : Store) (commandId : String) (result : OutboxResult)
    (evidence : List EvidenceRecord) (ownerToken : Option String) :
    StoreResult (Store × OutboxCommit) := do
  require (result.succeeded = true →
      evidence ≠ [] ∧ result.externalResultReference.getD "" ≠ "")
    (.persistenceInvalid
      "A successful outbox result requires evidence and an external result reference.")
  match store.outbox[commandId]? with
  | some row =>
      if acceptsResult row ownerToken then
        commitOutbox store (store.outbox.insert commandId (resultRow row result)) evidence
      else .error (.persistenceInvalid
        "Outbox command is missing, not owned by this executor, or cannot record the requested result.")
  | none => .error (.persistenceInvalid
      "Outbox command is missing, not owned by this executor, or cannot record the requested result.")

/-- An in-flight command as recovery reads it: its identifier and owner token. -/
abbrev InFlightCommand := String × Option String

/-- `SELECT command_id, owner_token FROM outbox_commands WHERE status = 'in_flight'`. -/
def inFlightCommands (store : Store) : List InFlightCommand :=
  (store.outbox.toList.filter fun row => row.2.status == .inFlight).map fun row =>
    (row.1, row.2.ownerToken)

def unknownRow (row : OutboxRow) : OutboxRow :=
  { row with status := .unknown, ownerToken := none }

/-- Demote a command unless another executor marked it again in the meantime. -/
def demote (rows : Rows OutboxRow) (command : InFlightCommand) : Rows OutboxRow :=
  match rows[command.1]? with
  | some row =>
      if row.status = .inFlight ∧ row.ownerToken = command.2 then
        rows.insert command.1 (unknownRow row)
      else rows
  | none => rows

/-- The write transaction of `recover_outbox`; nothing is committed when every command
changed hands. -/
def demoteDead (store : Store) (dead : List InFlightCommand) :
    StoreResult (Store × Option OutboxCommit) := do
  let rows := dead.foldl demote store.outbox
  if rows = store.outbox then return (store, none)
  else
    let (committed, commit) ← commitOutbox store rows []
    return (committed, some commit)

/-- The record is in the committed evidence: it was before, or it is of this commit. -/
def Recorded (before committed : Store) (record : EvidenceRecord) : Prop :=
  ∃ row ∈ committed.evidence, row.record = record ∧
    (row ∈ before.evidence ∨ row.committedRevision = committed.latestRevision)

theorem commitOutbox_ok {store committed : Store} {rows : Rows OutboxRow}
    {evidence : List EvidenceRecord} {commit : OutboxCommit}
    (h : commitOutbox store rows evidence = .ok (committed, commit)) :
    (∃ added, committed = { store with
        outbox := rows
        evidence := store.evidence ++ added
        sessionRevision := store.latestRevision + 1
        latestRevision := store.latestRevision + 1 }) ∧
      (∀ record ∈ evidence, Recorded store committed record) ∧
      commit = ⟨store.latestRevision, store.latestRevision + 1⟩ := by
  unfold commitOutbox at h
  obtain ⟨written, hwritten, h⟩ := StoreResult.bind_ok.mp h
  obtain ⟨rfl, rfl⟩ := Prod.mk.inj (StoreResult.pure_ok.mp h)
  obtain ⟨added, rfl, hrevision, hall⟩ := writeEvidence_ok hwritten
  refine ⟨⟨added, rfl⟩, ?_, rfl⟩
  intro record hmem
  obtain ⟨row, hrow, hrecord⟩ := hall record hmem
  refine ⟨row, hrow, hrecord, ?_⟩
  rcases List.mem_append.mp hrow with hold | hnew
  · exact Or.inl hold
  · exact Or.inr (hrevision row hnew)

theorem markOutboxInFlight_ok {store committed : Store} {commandId : String}
    {ownerToken : Option String} {evidence : List EvidenceRecord} {commit : OutboxCommit}
    (h : markOutboxInFlight store commandId ownerToken evidence = .ok (committed, commit)) :
    ∃ row, store.outbox[commandId]? = some row ∧ entersFlight row = true ∧
      commitOutbox store (store.outbox.insert commandId (inFlightRow row ownerToken))
        evidence = .ok (committed, commit) := by
  unfold markOutboxInFlight at h
  split at h
  case h_1 row hrow =>
      split at h
      case isTrue henters => exact ⟨row, hrow, henters, h⟩
      case isFalse => cases h
  case h_2 => cases h

theorem recordOutboxResult_ok {store committed : Store} {commandId : String}
    {result : OutboxResult} {evidence : List EvidenceRecord} {ownerToken : Option String}
    {commit : OutboxCommit}
    (h : recordOutboxResult store commandId result evidence ownerToken =
      .ok (committed, commit)) :
    (result.succeeded = true → result.externalResultReference.getD "" ≠ "") ∧
      ∃ row, store.outbox[commandId]? = some row ∧ acceptsResult row ownerToken = true ∧
        commitOutbox store (store.outbox.insert commandId (resultRow row result)) evidence =
          .ok (committed, commit) := by
  unfold recordOutboxResult at h
  obtain ⟨_, hreference, h⟩ := StoreResult.bind_ok.mp h
  have hreference := require_ok.mp hreference
  refine ⟨fun hsucceeded => (hreference hsucceeded).2, ?_⟩
  split at h
  case h_1 row hrow =>
      split at h
      case isTrue haccepts => exact ⟨row, hrow, haccepts, h⟩
      case isFalse => cases h
  case h_2 => cases h

theorem demoteDead_ok {store committed : Store} {dead : List InFlightCommand}
    {commit : Option OutboxCommit} (h : demoteDead store dead = .ok (committed, commit)) :
    committed.outbox = dead.foldl demote store.outbox := by
  unfold demoteDead at h
  dsimp only at h
  split at h
  case isTrue hsame =>
      obtain ⟨rfl, -⟩ := Prod.mk.inj (StoreResult.pure_ok.mp h)
      exact hsame.symm
  case isFalse =>
      obtain ⟨⟨written, _⟩, hwritten, h⟩ := StoreResult.bind_ok.mp h
      obtain ⟨rfl, -⟩ := Prod.mk.inj (StoreResult.pure_ok.mp h)
      obtain ⟨⟨_, hcommitted⟩, -, -⟩ := commitOutbox_ok hwritten
      rw [hcommitted]

theorem demoteDead_none {store committed : Store} {dead : List InFlightCommand}
    (h : demoteDead store dead = .ok (committed, none)) :
    committed = store ∧ dead.foldl demote store.outbox = store.outbox := by
  unfold demoteDead at h
  dsimp only at h
  split at h
  case isTrue hsame => exact ⟨(Prod.mk.inj (StoreResult.pure_ok.mp h)).1.symm, hsame⟩
  case isFalse =>
      obtain ⟨⟨written, _⟩, -, h⟩ := StoreResult.bind_ok.mp h
      cases (Prod.mk.inj (StoreResult.pure_ok.mp h)).2

theorem demoteDead_changed {store committed : Store} {dead : List InFlightCommand}
    {commit : OutboxCommit} (h : demoteDead store dead = .ok (committed, some commit)) :
    dead.foldl demote store.outbox ≠ store.outbox := by
  intro hsame
  unfold demoteDead at h
  dsimp only at h
  rw [if_pos hsame] at h
  cases (Prod.mk.inj (StoreResult.pure_ok.mp h)).2

/-- Recovery that demotes a command commits its demotions. -/
theorem demoteDead_commit {store committed : Store} {dead : List InFlightCommand}
    {commit : OutboxCommit} (h : demoteDead store dead = .ok (committed, some commit)) :
    commitOutbox store (dead.foldl demote store.outbox) [] = .ok (committed, commit) := by
  unfold demoteDead at h
  dsimp only at h
  split at h
  case isTrue => cases (Prod.mk.inj (StoreResult.pure_ok.mp h)).2
  case isFalse =>
      obtain ⟨⟨written, commit'⟩, hwritten, h⟩ := StoreResult.bind_ok.mp h
      obtain ⟨rfl, hcommit⟩ := Prod.mk.inj (StoreResult.pure_ok.mp h)
      rwa [← Option.some.inj hcommit]

theorem mem_inFlightCommands {store : Store} {command : InFlightCommand}
    (h : command ∈ inFlightCommands store) :
    ∃ row, store.outbox[command.1]? = some row ∧ row.status = .inFlight ∧
      row.ownerToken = command.2 := by
  obtain ⟨entry, hentry, rfl⟩ := List.mem_map.mp h
  obtain ⟨hmem, hstatus⟩ := List.mem_filter.mp hentry
  exact ⟨entry.2, Std.ExtTreeMap.mem_toList_iff_getElem?_eq_some.mp hmem,
    by simpa using hstatus, rfl⟩

theorem getElem?_demote (rows : Rows OutboxRow) (command : InFlightCommand)
    (commandId : String) :
    (demote rows command)[commandId]? = rows[commandId]? ∨
      ∃ row, rows[commandId]? = some row ∧ command = (commandId, row.ownerToken) ∧
        row.status = .inFlight ∧
        (demote rows command)[commandId]? = some (unknownRow row) := by
  unfold demote
  split
  case h_1 row hrow =>
      split
      case isTrue hdemote =>
          by_cases hsame : command.1 = commandId
          · right
            subst hsame
            exact ⟨row, hrow, by rw [hdemote.2], hdemote.1, by simp⟩
          · left
            exact KeyedRows.getElem?_insert_of_ne rows _ hsame
      case isFalse => exact Or.inl rfl
  case h_2 => exact Or.inl rfl

/-- After demoting a list, a row is as before, or was in flight under a listed token. -/
theorem getElem?_foldl_demote (dead : List InFlightCommand) (commandId : String) :
    ∀ rows : Rows OutboxRow, (dead.foldl demote rows)[commandId]? = rows[commandId]? ∨
      ∃ row, rows[commandId]? = some row ∧ (commandId, row.ownerToken) ∈ dead ∧
        row.status = .inFlight ∧
        (dead.foldl demote rows)[commandId]? = some (unknownRow row) := by
  induction dead with
  | nil => intro rows; exact Or.inl rfl
  | cons command dead ih =>
      intro rows
      rw [List.foldl_cons]
      rcases getElem?_demote rows command commandId with hkept | hdemoted
      · rcases ih (demote rows command) with hrest | ⟨row, hrow, hmem, hstatus, hrest⟩
        · exact Or.inl (hrest.trans hkept)
        · exact Or.inr ⟨row, hkept ▸ hrow, List.mem_cons_of_mem _ hmem, hstatus, hrest⟩
      · obtain ⟨row, hrow, hcommand, hstatus, hunknown⟩ := hdemoted
        right
        refine ⟨row, hrow, by rw [hcommand]; exact List.mem_cons_self, hstatus, ?_⟩
        rcases ih (demote rows command) with hrest | ⟨row', hrow', -, hstatus', -⟩
        · exact hrest.trans hunknown
        · rw [hunknown] at hrow'
          have hsame := Option.some.inj hrow'
          subst hsame
          simp [unknownRow] at hstatus'

end SideEffectOutbox
end GhAddressCr
