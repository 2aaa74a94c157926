import GhAddressCr.SideEffectOutbox

/-!
# Initializing a store

A store is created in one exclusive transaction: the schema, its metadata at revision 1, the
session, and the evidence. A legacy session is imported the same way, and each side effect that
only its evidence records gets an outbox row.
-/
namespace GhAddressCr.RuntimeStore

/-- The writes of `_initialize` for a payload. -/
def createStore (payload : Session) (evidence : List EvidenceRecord) : StoreResult Store := do
  let store ← writeSession blankStore payload 1
  writeEvidence store evidence 1

/-- What `SideEffectAttempt.from_json` reads of an attempt, as far as the backfill uses it. -/
structure RecordedAttempt where
  sideEffectType : String
  idempotencyKey : String
  status : String
  externalUrl : Value
  deriving DecidableEq

namespace RecordedAttempt

/-- `SideEffectAttempt.from_json`; `none` where it raises. -/
def fromJson (payload : Dict) : Option RecordedAttempt :=
  let required := ["attempt_id", "session_id", "item_id", "side_effect_type", "idempotency_key",
    "status"]
  let retryCount := if payload.has "retry_count" then (payload.get "retry_count").toInt? else some 0
  if required.all payload.has ∧ retryCount.isSome then
    some {
      sideEffectType := (payload.get "side_effect_type").text
      idempotencyKey := (payload.get "idempotency_key").text
      status := (payload.get "status").text
      externalUrl := payload.get "external_url" }
  else none

def key (attempt : RecordedAttempt) : String × String :=
  (attempt.sideEffectType, attempt.idempotencyKey)

/-- `_BACKFILL_STATUS`. -/
def backfillStatus : String → Option OutboxStatus
  | "succeeded" => some .succeeded
  | "failed" => some .failed
  | "in_flight" => some .unknown
  | _ => none

/-- The text a column gets from a value; a list, an object or an integer of more than 64 bits
cannot be bound. -/
def columnText : Value → StoreResult (Option String)
  | .null => .ok none
  | .list _ | .dict _ => .error (.raised "InterfaceError")
  | .int i =>
      if -2 ^ 63 ≤ i ∧ i < 2 ^ 63 then .ok (some (toString i))
      else .error (.raised "OverflowError")
  | .bool b => .ok (some (if b then "1" else "0"))
  | value => .ok (some value.text)

/-- The outbox row of a side effect whose last recorded attempt this is. -/
def backfillRow (attempt : RecordedAttempt) (sessionId : String) (attempts revision : Nat) :
    StoreResult OutboxRow :=
  match backfillStatus attempt.status with
  | none => .error (.persistenceInvalid
      ("Unsupported recorded side-effect status " ++ Value.reprStr attempt.status ++ "."))
  | some status => do
      let reference ← columnText (if status = .succeeded then attempt.externalUrl else .null)
      -- A success without its reference goes through reconciliation.
      let interrupted := status = .succeeded ∧ attempt.externalUrl.truthy = false
      return {
        sessionId := sessionId
        effectType := attempt.sideEffectType
        idempotencyKey := attempt.idempotencyKey
        plannedRevision := revision
        operationCategory := attempt.sideEffectType
        status := if interrupted then .unknown else status
        attemptCount := attempts
        retryBoundary := some (retryBoundaryFor attempt.sideEffectType)
        errorType := if status = .failed then some "external_error" else none
        externalResultReference := reference
        ownerToken := none }

end RecordedAttempt

/-- The attempts the evidence records, in its order. -/
def recordedAttempts (evidence : List EvidenceRow) : StoreResult (List RecordedAttempt) :=
  (evidence.filter fun row => row.record.eventType = "side_effect_attempt").mapM fun row =>
    match RecordedAttempt.fromJson row.record.payload with
    | some attempt => .ok attempt
    | none => .error (.persistenceInvalid
        "A recorded side-effect attempt is malformed and cannot be backfilled.")

/-- The last attempt of each side effect, by the first one of each. -/
def latestAttempts (attempts : List RecordedAttempt) : List RecordedAttempt :=
  (attempts.map (·.key)).eraseDups.filterMap fun key =>
    attempts.reverse.find? (·.key = key)

def backfillAttempt (sessionId : String) (attempts : List RecordedAttempt) (revision : Nat)
    (rows : Rows OutboxRow) (attempt : RecordedAttempt) : StoreResult (Rows OutboxRow) :=
  -- A row that exists is canonical.
  if rows.toList.any fun row => (row.2.effectType, row.2.idempotencyKey) = attempt.key then
    .ok rows
  else do
    let started := attempts.countP fun other => other.key = attempt.key ∧ other.status = "in_flight"
    let row ← attempt.backfillRow sessionId started revision
    let commandId := outboxCommandId attempt.sideEffectType attempt.idempotencyKey
    require (rows[commandId]? = none) (.raised "IntegrityError")
    return rows.insert commandId row

/-- `_backfill_outbox_from_evidence`. -/
def backfillOutboxFromEvidence (store : Store) (revision : Nat) : StoreResult Store := do
  let attempts ← recordedAttempts store.evidence
  let rows ← (latestAttempts attempts).foldlM
    (backfillAttempt (sessionId store.root) attempts revision) store.outbox
  return { store with outbox := rows }

/-- The legacy files, as they decode; `none` where reading one raises. -/
structure LegacyInput where
  session : Option Session
  evidence : Option (List EvidenceRecord)

/-- The writes of `_initialize` for legacy files. -/
def importLegacy (legacy : LegacyInput) : StoreResult Store :=
  match legacy.session, legacy.evidence with
  | none, _ => .error (.persistenceInvalid "Legacy session JSON is malformed.")
  | some _, none => .error (.persistenceInvalid "Legacy evidence ledger is malformed.")
  | some payload, some evidence => do
      let store ← createStore payload evidence
      backfillOutboxFromEvidence store 1

theorem createStore_ok {payload : Session} {evidence : List EvidenceRecord} {store : Store}
    (h : createStore payload evidence = .ok store) :
    store.latestRevision = 1 ∧ store.sessionRevision = 1 ∧ store.root = payload.root ∧
      store.outbox = ∅ ∧
      evidence.foldlM (fun rows record => writeEvidenceRecord rows record 1) [] =
        .ok store.evidence := by
  unfold createStore at h
  obtain ⟨written, hwritten, h⟩ := StoreResult.bind_ok.mp h
  obtain ⟨houtbox, hevidence, hrevision, hroot, hlatest⟩ := writeSession_ok hwritten
  unfold writeEvidence at h
  obtain ⟨rows, hrows, h⟩ := StoreResult.bind_ok.mp h
  have hstore := StoreResult.pure_ok.mp h
  subst hstore
  rw [hevidence] at hrows
  exact ⟨hlatest, hrevision, hroot, houtbox, hrows⟩

theorem backfillOutboxFromEvidence_ok {store backfilled : Store} {revision : Nat}
    (h : backfillOutboxFromEvidence store revision = .ok backfilled) :
    ∃ rows, backfilled = { store with outbox := rows } := by
  unfold backfillOutboxFromEvidence at h
  obtain ⟨attempts, -, h⟩ := StoreResult.bind_ok.mp h
  obtain ⟨rows, -, h⟩ := StoreResult.bind_ok.mp h
  exact ⟨rows, (StoreResult.pure_ok.mp h).symm⟩

theorem importLegacy_ok {legacy : LegacyInput} {store : Store}
    (h : importLegacy legacy = .ok store) :
    ∃ payload evidence created rows, legacy.session = some payload ∧
      legacy.evidence = some evidence ∧ createStore payload evidence = .ok created ∧
      store = { created with outbox := rows } := by
  unfold importLegacy at h
  split at h
  · cases h
  · cases h
  · next payload evidence hpayload hevidence =>
    obtain ⟨created, hcreated, h⟩ := StoreResult.bind_ok.mp h
    obtain ⟨rows, hrows⟩ := backfillOutboxFromEvidence_ok h
    exact ⟨payload, evidence, created, rows, hpayload, hevidence, hcreated, hrows⟩

end GhAddressCr.RuntimeStore
