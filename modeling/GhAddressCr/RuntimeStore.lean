import GhAddressCr.EvidenceLedger
import GhAddressCr.KeyedRows

/-!
# The runtime store

The tables of one session and the transactions on them: whole-session transactions and
replacements, and transactions on a declared working set. A payload column holds the
canonical text of a document, so it is kept as the decoded document, and two texts are
equal exactly when the documents are. Time stamps of rows, the columns copied out of a
payload and the table of materialised artifacts decide nothing here and are left out.

An operation returns the store it commits, or the error it raises after rolling back.
-/
namespace GhAddressCr

open GithubThreadState KeyedRows

structure ItemRow where
  payload : Dict
  firstObservedRevision : Nat
  lastObservedRevision : Nat
  deriving DecidableEq

structure LeaseRow where
  lease : Lease
  transitionRevision : Nat
  deriving DecidableEq

structure EvidenceRow where
  record : EvidenceRecord
  committedRevision : Nat
  deriving DecidableEq

inductive OutboxStatus where
  | planned | inFlight | succeeded | failed | unknown
  deriving DecidableEq, Repr

inductive RetryBoundary where
  | idempotent | reconcileOnly
  deriving DecidableEq, Repr

/-- One side effect on GitHub and what is known of its execution. -/
structure OutboxRow where
  sessionId : String
  effectType : String
  idempotencyKey : String
  plannedRevision : Nat
  operationCategory : String
  status : OutboxStatus
  attemptCount : Nat
  retryBoundary : Option RetryBoundary
  errorType : Option String
  externalResultReference : Option String
  ownerToken : Option String
  deriving DecidableEq

/-- An initialized store: its metadata row, its session row and the tables. -/
structure Store where
  /-- `store_metadata.latest_revision`. -/
  latestRevision : Nat
  /-- `sessions.revision`. -/
  sessionRevision : Nat
  /-- `sessions.payload_json`. -/
  root : Dict
  items : Rows ItemRow
  leases : Rows LeaseRow
  leaseEvents : List Dict
  evidence : List EvidenceRow
  outbox : Rows OutboxRow
  deriving DecidableEq

inductive StoreError where
  | persistenceBusy
  | staleRevision (expected actual : Nat)
  | persistenceInvalid (detail : String)
  /-- An exception of the mutation. -/
  | raised (exception : String)
  deriving DecidableEq, Repr

abbrev StoreResult (α : Type) := Except StoreError α

theorem StoreResult.bind_ok {α β : Type} {x : StoreResult α} {f : α → StoreResult β} {b : β} :
    x >>= f = .ok b ↔ ∃ a, x = .ok a ∧ f a = .ok b := by
  cases x with
  | error e => simp [bind, Except.bind]
  | ok a => simp [bind, Except.bind]

@[simp] theorem StoreResult.pure_ok {α : Type} {a b : α} :
    (pure a : StoreResult α) = .ok b ↔ a = b :=
  Except.ok.injEq a b ▸ Iff.rfl

theorem StoreResult.map_ok {α β : Type} {x : StoreResult α} {f : α → β} {b : β} :
    x.map f = .ok b ↔ ∃ a, x = .ok a ∧ f a = b := by
  cases x with
  | error e => simp [Except.map]
  | ok a => simp [Except.map]

theorem StoreResult.map_fst_ok {α β : Type} {result : StoreResult (α × β)} {a : α}
    (h : result.map (·.1) = .ok a) : ∃ b, result = .ok (a, b) := by
  cases result with
  | error e => cases h
  | ok pair =>
      obtain ⟨a', b⟩ := pair
      have hsame : a' = a := Except.ok.inj h
      exact ⟨b, by rw [hsame]⟩

/-- A computation that returns a value which passes a check. -/
theorem StoreResult.exists_ok {α : Type} {x : StoreResult α} {check : α → Bool}
    (h : x.toOption.any check = true) : ∃ a, x = .ok a ∧ check a = true := by
  cases x with
  | error e => cases h
  | ok a => exact ⟨a, rfl, h⟩

/-- Raise the error unless the condition holds. -/
def require (condition : Prop) [Decidable condition] (error : StoreError) : StoreResult Unit :=
  if condition then .ok () else .error error

@[simp] theorem require_ok {condition : Prop} [Decidable condition] {error : StoreError}
    {u : Unit} : require condition error = .ok u ↔ condition := by
  unfold require
  split <;> simp_all

namespace RuntimeStore

/-- `session_id` of the session row. -/
def sessionId (root : Dict) : String := root.textOr "session_id" ""

def integrityError : StoreError :=
  .persistenceInvalid
    "The transition violates a runtime store invariant, such as one active lease per item."

/-- The items that active leases hold, one entry for each lease. -/
def activeItemIds (leases : Rows Lease) : List String :=
  ((leases.toList.map (·.2)).filter Lease.isActive).map (·.itemId)

/-- The active lease on an item. -/
def activeLeaseOf (leases : Rows Lease) (itemId : String) : Option Lease :=
  (leases.toList.map (·.2)).find? fun lease => lease.isActive && lease.itemId == itemId

/-- The claim fields an item shows for its active lease. -/
def projectClaim (item : Dict) (activeLease : Option Lease) : Dict :=
  match activeLease with
  | none =>
      let item :=
        if item.get "state" = .str "claimed" then
          let (state, status) := returnedClaimableState item
          (item.set "state" (.str state)).set "status" (.str status)
        else item
      (((item.set "claimed_by" .null).set "claimed_at" .null).set "lease_expires_at" .null).pop
        "active_lease_id"
  | some lease =>
      ((((item.set "state" (.str "claimed")).set "active_lease_id" (.str lease.leaseId)).set
        "claimed_by" (.str lease.agentId)).set "claimed_at" (.time lease.createdAt)).set
        "lease_expires_at" (.time lease.expiresAt)

def deriveItemClaimProjection (items : Rows Dict) (leases : Rows Lease) :
    StoreResult (Rows Dict) := do
  require (activeItemIds leases).Nodup
    (.persistenceInvalid "Multiple active leases reference one item.")
  return items.map fun itemId item => projectClaim item (activeLeaseOf leases itemId)

def itemPayloads (rows : Rows ItemRow) : Rows Dict := rows.map fun _ row => row.payload

def leasePayloads (rows : Rows LeaseRow) : Rows Lease := rows.map fun _ row => row.lease

/-- The session the tables describe. -/
def loadSnapshot (store : Store) : StoreResult Session := do
  let items ← deriveItemClaimProjection (itemPayloads store.items) (leasePayloads store.leases)
  return {
    root := store.root
    items := items
    leases := leasePayloads store.leases
    leaseEvents := store.leaseEvents }

/-- The item rows after writing `items`: a row whose payload is unchanged stays as it is. -/
def itemRows (stored : Rows ItemRow) (items : Rows Dict) (revision : Nat) : Rows ItemRow :=
  items.map fun itemId item =>
    match stored[itemId]? with
    | some prior =>
        if prior.payload = item then prior
        else ⟨item, prior.firstObservedRevision, revision⟩
    | none => ⟨item, revision, revision⟩

def leaseRows (stored : Rows LeaseRow) (leases : Rows Lease) (revision : Nat) : Rows LeaseRow :=
  leases.map fun leaseId lease =>
    match stored[leaseId]? with
    | some prior => if prior.lease = lease then prior else ⟨lease, revision⟩
    | none => ⟨lease, revision⟩

/-- The leases whose rows a write deletes and inserts again. -/
def changedLeases (stored : Rows LeaseRow) (leases : Rows Lease) : List Lease :=
  (leases.toList.filter fun row => stored[row.1]?.map (·.lease) != some row.2).map (·.2)

/-- What the schema asks of the inserted rows: a lease lists a conflict key once, and an
item has one active lease. -/
def checkLeaseRows (rows : Rows LeaseRow) (inserted : List Lease) : StoreResult Unit :=
  require ((∀ lease ∈ inserted, lease.conflictKeys.Nodup) ∧
    (activeItemIds (leasePayloads rows)).Nodup) integrityError

/-- Write the whole session over the stored one. -/
def writeSession (store : Store) (session : Session) (revision : Nat) : StoreResult Store := do
  require (sessionId session.root ≠ "") (.persistenceInvalid "Session ID is required.")
  let items ← deriveItemClaimProjection session.items session.leases
  -- Deleting the row of another session deletes its items, leases and events.
  let kept := sessionId session.root = sessionId store.root
  let storedItems := if kept then store.items else ∅
  let storedLeases := if kept then store.leases else ∅
  let leases := leaseRows storedLeases session.leases revision
  checkLeaseRows leases (changedLeases storedLeases session.leases)
  return { store with
    root := session.root
    sessionRevision := revision
    items := itemRows storedItems items revision
    leases := leases
    leaseEvents := session.leaseEvents }

/-- One evidence record: committed under this revision, or already committed as it is. -/
def writeEvidenceRecord (rows : List EvidenceRow) (record : EvidenceRecord) (revision : Nat) :
    StoreResult (List EvidenceRow) := do
  let recordId := record.recordId.text
  require (hashPayload record.payload = record.payloadHash)
    (.persistenceInvalid ("Evidence record " ++ recordId ++ " has a payload hash mismatch."))
  match rows.find? (·.record.recordId == record.recordId) with
  | some existing =>
      require (existing.record = record)
        (.persistenceInvalid
          ("Evidence record " ++ recordId ++ " diverges from canonical content."))
      return rows
  | none => return rows ++ [⟨record, revision⟩]

def writeEvidence (store : Store) (records : List EvidenceRecord) (revision : Nat) :
    StoreResult Store := do
  let rows ← records.foldlM (fun rows record => writeEvidenceRecord rows record revision)
    store.evidence
  return { store with evidence := rows }

/-- A side effect to plan. -/
structure OutboxCommand where
  commandId : String
  effectType : String
  idempotencyKey : String
  operationCategory : String
  retryBoundary : Option RetryBoundary
  deriving DecidableEq

def plannedRow (sessionId : String) (command : OutboxCommand) (revision : Nat) : OutboxRow where
  sessionId := sessionId
  effectType := command.effectType
  idempotencyKey := command.idempotencyKey
  plannedRevision := revision
  operationCategory := command.operationCategory
  status := .planned
  attemptCount := 0
  retryBoundary := command.retryBoundary
  errorType := none
  externalResultReference := none
  ownerToken := none

/-- The key on which the outbox is unique besides the command. -/
def OutboxRow.uniqueKey (row : OutboxRow) : String × String × String :=
  (row.sessionId, row.effectType, row.idempotencyKey)

def insertOutboxRow (sessionId : String) (rows : Rows OutboxRow) (command : OutboxCommand)
    (revision : Nat) : StoreResult (Rows OutboxRow) := do
  let row := plannedRow sessionId command revision
  require (rows[command.commandId]? = none ∧
    ∀ other ∈ rows.toList, OutboxRow.uniqueKey other.2 ≠ OutboxRow.uniqueKey row) integrityError
  return rows.insert command.commandId row

def writeOutbox (store : Store) (commands : List OutboxCommand) (revision : Nat) :
    StoreResult Store := do
  let rows ← commands.foldlM
    (fun rows command => insertOutboxRow (sessionId store.root) rows command revision)
    store.outbox
  return { store with outbox := rows }

def advanceRevision (store : Store) (revision : Nat) : Store :=
  { store with latestRevision := revision }

/-- What a committed transaction reports. -/
structure TransactionResult (V : Type) where
  payload : Session
  revision : Nat
  value : V

/-- A mutation of the loaded session, which may raise. -/
abbrev Mutation (V : Type) := Session → Except String (Session × V)

def runMutation {V : Type} (mutation : Mutation V) (session : Session) :
    StoreResult (Session × V) :=
  match mutation session with
  | .ok result => .ok result
  | .error exception => .error (.raised exception)

def checkRevision (expected : Option Nat) (actual : Nat) : StoreResult Unit :=
  match expected with
  | none => .ok ()
  | some revision => require (revision = actual) (.staleRevision revision actual)

/-- The session a commit leaves, as a load would return it. -/
def committedView (session : Session) : StoreResult Session := do
  let items ← deriveItemClaimProjection session.items session.leases
  return { session with items := items, pendingEvidence := [], revision := none }

/-- The tables that `_create_schema` and `_insert_metadata` leave; no session row is there yet. -/
def blankStore : Store where
  latestRevision := 1
  sessionRevision := 0
  root := ∅
  items := ∅
  leases := ∅
  leaseEvents := []
  evidence := []
  outbox := ∅

/-- The writes of a whole-session transaction. -/
def commitSession (store : Store) (session : Session) (evidence : List EvidenceRecord)
    (outbox : List OutboxCommand) (revision : Nat) : StoreResult Store := do
  let store ← writeSession store session revision
  -- Evidence buffered on the payload commits with the state it describes.
  let store ← writeEvidence store (evidence ++ session.pendingEvidence) revision
  let store ← writeOutbox store outbox revision
  return advanceRevision store revision

def transact {V : Type} (store : Store) (mutation : Mutation V)
    (expectedRevision : Option Nat := none) (evidence : List EvidenceRecord := [])
    (outbox : List OutboxCommand := []) : StoreResult (Store × TransactionResult V) := do
  let current ← loadSnapshot store
  checkRevision expectedRevision store.sessionRevision
  let (session, value) ← runMutation mutation current
  let revision := store.sessionRevision + 1
  let committed ← commitSession store session evidence outbox revision
  let payload ← committedView session
  return (committed, ⟨payload, revision, value⟩)

/-- Commit a payload the caller holds as the whole session. -/
def replace (store : Store) (payload : Session) (expectedRevision : Option Nat)
    (evidence : List EvidenceRecord := []) (outbox : List OutboxCommand := []) :
    StoreResult (Store × Nat) := do
  checkRevision expectedRevision store.latestRevision
  let revision := store.latestRevision + 1
  let committed ← commitSession store payload evidence outbox revision
  return (committed, revision)

/-- The rows one command needs. -/
structure WorkingSetRequest where
  itemIds : List String := []
  leaseIds : List String := []
  activeLeaseItemIds : List String := []
  includeActiveLeases : Bool := false
  deriving DecidableEq

namespace WorkingSetRequest

def explicitLeaseIds (request : WorkingSetRequest) : List String :=
  request.leaseIds.filter (· != "")

def activeItemIds (request : WorkingSetRequest) : List String :=
  (request.itemIds ++ request.activeLeaseItemIds).filter (· != "")

/-- A lease that brings its item into the working set. -/
def selectsItem (request : WorkingSetRequest) (leaseId : String) (lease : Lease) : Bool :=
  request.explicitLeaseIds.contains leaseId || (request.includeActiveLeases && lease.isActive)

/-- The items of the leases that bring them. -/
def leaseItemIds (request : WorkingSetRequest) (leases : Rows Lease) : List String :=
  (leases.toList.filter fun row => request.selectsItem row.1 row.2).map (·.2.itemId)

/-- A lease the request names, and every active lease of an item it names or brings. -/
def selectsLease (request : WorkingSetRequest) (leases : Rows Lease) (leaseId : String)
    (lease : Lease) : Bool :=
  request.explicitLeaseIds.contains leaseId ||
    (lease.isActive &&
      (request.includeActiveLeases || request.activeItemIds.contains lease.itemId ||
        (request.leaseItemIds leases).contains lease.itemId))

def selectedLeaseIds (request : WorkingSetRequest) (leases : Rows Lease) : List String :=
  (leases.toList.filter fun row => request.selectsLease leases row.1 row.2).map (·.1)

def selectedItemIds (request : WorkingSetRequest) (leases : Rows Lease) : List String :=
  request.itemIds.filter (· != "") ++ request.leaseItemIds leases

end WorkingSetRequest

/-- The loaded subset of a session, with the rows it was loaded from. -/
structure WorkingSet where
  session : Session
  storedItems : Rows ItemRow
  storedLeases : Rows LeaseRow

def loadWorkingSet (store : Store) (request : WorkingSetRequest) : StoreResult WorkingSet := do
  require (sessionId store.root ≠ "") (.persistenceInvalid "Session ID is required.")
  let leases := leasePayloads store.leases
  let storedLeases := restrict store.leases (request.selectedLeaseIds leases)
  let storedItems := restrict store.items (request.selectedItemIds leases)
  let items ← deriveItemClaimProjection (itemPayloads storedItems) (leasePayloads storedLeases)
  return {
    session := {
      root := store.root
      items := items
      leases := leasePayloads storedLeases
      leaseEvents := [] }
    storedItems := storedItems
    storedLeases := storedLeases }

/-- The working set may hold only rows it was loaded from and new rows. -/
def rejectUnselectedExistingRows {α β : Type} (table : String) (candidates : Rows α)
    (selected existing : Rows β) : StoreResult Unit :=
  require (∀ id ∈ candidates.keys, selected[id]? = none → existing[id]? = none)
    (.persistenceInvalid
      ("Working-set mutation attempted to overwrite unselected " ++ table ++ " rows."))

def changedItems (stored : Rows ItemRow) (items : Rows Dict) : List String :=
  (items.toList.filter fun row => stored[row.1]?.map (·.payload) != some row.2).map (·.1)

/-- The loaded rows the payload no longer has. -/
def removedRows {α β : Type} (stored : Rows α) (payload : Rows β) : List String :=
  stored.keys.filter fun id => payload[id]?.isNone

def writeWorkingSet (store : Store) (session : Session) (storedItems : Rows ItemRow)
    (storedLeases : Rows LeaseRow) (revision : Nat) : StoreResult Store := do
  require (sessionId session.root ≠ "") (.persistenceInvalid "Session ID is required.")
  let items ← deriveItemClaimProjection session.items session.leases
  require (session.root.get "metadata" = .null ∨
      ((session.root.get "metadata").toDict?).isSome)
    (.persistenceInvalid "Working-set metadata must be an object.")
  let changed := changedLeases storedLeases session.leases
  let removedLeases := removedRows storedLeases session.leases
  if sessionId session.root = sessionId store.root then
    rejectUnselectedExistingRows "items" items storedItems store.items
    rejectUnselectedExistingRows "leases" session.leases storedLeases store.leases
    let leases := overwrite (discard store.leases removedLeases)
      (leaseRows storedLeases session.leases revision)
    checkLeaseRows leases changed
    return { store with
      root := session.root
      sessionRevision := revision
      items := overwrite (discard store.items (removedRows storedItems items))
        (itemRows storedItems items revision)
      leases := leases
      leaseEvents := store.leaseEvents ++ session.leaseEvents }
  else
    -- No session row has this id: nothing is updated, and an inserted row would break its
    -- foreign key.
    require (session.leaseEvents = [] ∧ changedItems storedItems items = [] ∧ changed = [])
      integrityError
    return { store with leases := discard store.leases removedLeases }

def transactWorkingSet {V : Type} (store : Store) (request : WorkingSetRequest)
    (mutation : Mutation V) (expectedRevision : Option Nat := none)
    (evidence : List EvidenceRecord := []) (outbox : List OutboxCommand := []) :
    StoreResult (Store × TransactionResult V) := do
  let current ← loadWorkingSet store request
  checkRevision expectedRevision store.sessionRevision
  let (session, value) ← runMutation mutation current.session
  let revision := store.sessionRevision + 1
  let written ← writeWorkingSet store session current.storedItems current.storedLeases revision
  let written ← writeEvidence written (evidence ++ session.pendingEvidence) revision
  let written ← writeOutbox written outbox revision
  let committed := advanceRevision written revision
  let payload ← committedView session
  return (committed, ⟨payload, revision, value⟩)

theorem writeEvidenceRecord_ok {rows rows' : List EvidenceRow} {record : EvidenceRecord}
    {revision : Nat} (h : writeEvidenceRecord rows record revision = .ok rows') :
    (∃ added, rows' = rows ++ added ∧ ∀ row ∈ added, row.committedRevision = revision) ∧
      ∃ row ∈ rows', row.record = record := by
  unfold writeEvidenceRecord at h
  obtain ⟨_, _, h⟩ := StoreResult.bind_ok.mp h
  split at h
  case h_1 existing hfind =>
      obtain ⟨_, hsame, h⟩ := StoreResult.bind_ok.mp h
      have hrows : rows = rows' := by simpa using h
      have hrecord : existing.record = record := by simpa using hsame
      subst hrows
      exact ⟨⟨[], by simp, by simp⟩, existing, List.mem_of_find?_eq_some hfind, hrecord⟩
  case h_2 =>
      have hrows : rows ++ [⟨record, revision⟩] = rows' := by simpa using h
      subst hrows
      exact ⟨⟨_, rfl, by simp⟩, ⟨record, revision⟩, by simp, rfl⟩

theorem foldlM_writeEvidenceRecord_ok {revision : Nat} {records : List EvidenceRecord} :
    ∀ {rows rows' : List EvidenceRow},
      records.foldlM (fun rows record => writeEvidenceRecord rows record revision) rows =
        (.ok rows' : StoreResult _) →
      (∃ added, rows' = rows ++ added ∧ ∀ row ∈ added, row.committedRevision = revision) ∧
        ∀ record ∈ records, ∃ row ∈ rows', row.record = record := by
  induction records with
  | nil =>
      intro rows rows' h
      have hrows : rows = rows' := by simpa using h
      exact ⟨⟨[], by simp [hrows], by simp⟩, by simp⟩
  | cons record records ih =>
      intro rows rows' h
      rw [List.foldlM_cons] at h
      obtain ⟨middle, hhead, htail⟩ := StoreResult.bind_ok.mp h
      obtain ⟨⟨added, hmiddle, hadded⟩, row, hrow, hrecord⟩ := writeEvidenceRecord_ok hhead
      obtain ⟨⟨added', hrows', hadded'⟩, hall⟩ := ih htail
      refine ⟨⟨added ++ added', by simp [hrows', hmiddle], ?_⟩, ?_⟩
      · intro row hmem
        rcases List.mem_append.mp hmem with hmem | hmem
        · exact hadded row hmem
        · exact hadded' row hmem
      · intro other hother
        rcases List.mem_cons.mp hother with hsame | hother
        · subst hsame
          refine ⟨row, ?_, hrecord⟩
          rw [hrows']
          exact List.mem_append_left _ hrow
        · exact hall other hother

/-- Writing evidence appends rows of this revision; afterwards every record is committed. -/
theorem writeEvidence_ok {store store' : Store} {records : List EvidenceRecord}
    {revision : Nat} (h : writeEvidence store records revision = .ok store') :
    ∃ added, store' = { store with evidence := store.evidence ++ added } ∧
      (∀ row ∈ added, row.committedRevision = revision) ∧
      ∀ record ∈ records, ∃ row ∈ store.evidence ++ added, row.record = record := by
  unfold writeEvidence at h
  obtain ⟨rows, hrows, h⟩ := StoreResult.bind_ok.mp h
  obtain ⟨⟨added, hadded, hrevision⟩, hall⟩ := foldlM_writeEvidenceRecord_ok hrows
  have hstore : { store with evidence := rows } = store' := by simpa using h
  subst hadded
  exact ⟨added, hstore.symm, hrevision, hall⟩

theorem writeOutbox_nil (store : Store) (revision : Nat) :
    writeOutbox store [] revision = .ok store := rfl

/-- One command is planned as a new row. -/
theorem writeOutbox_singleton {store store' : Store} {command : OutboxCommand} {revision : Nat}
    (h : writeOutbox store [command] revision = .ok store') :
    store.outbox[command.commandId]? = none ∧
      store' = { store with
        outbox := store.outbox.insert command.commandId
          (plannedRow (sessionId store.root) command revision) } := by
  unfold writeOutbox at h
  obtain ⟨rows, hrows, h⟩ := StoreResult.bind_ok.mp h
  rw [List.foldlM_cons] at hrows
  obtain ⟨rows', hinsert, hlast⟩ := StoreResult.bind_ok.mp hrows
  have hlast : rows' = rows := by simpa using hlast
  unfold insertOutboxRow at hinsert
  obtain ⟨_, habsent, hinsert⟩ := StoreResult.bind_ok.mp hinsert
  have habsent := require_ok.mp habsent
  have hrows' : store.outbox.insert command.commandId
      (plannedRow (sessionId store.root) command revision) = rows' := by simpa using hinsert
  have hstore : { store with outbox := rows } = store' := by simpa using h
  subst hlast hrows'
  exact ⟨habsent.1, hstore.symm⟩

theorem writeSession_ok {store store' : Store} {session : Session} {revision : Nat}
    (h : writeSession store session revision = .ok store') :
    store'.outbox = store.outbox ∧ store'.evidence = store.evidence ∧
      store'.sessionRevision = revision ∧ store'.root = session.root ∧
      store'.latestRevision = store.latestRevision := by
  unfold writeSession at h
  obtain ⟨_, _, h⟩ := StoreResult.bind_ok.mp h
  obtain ⟨_, _, h⟩ := StoreResult.bind_ok.mp h
  obtain ⟨_, _, h⟩ := StoreResult.bind_ok.mp h
  have hstore := Except.ok.inj h
  subst hstore
  exact ⟨rfl, rfl, rfl, rfl, rfl⟩

theorem runMutation_ok {V : Type} {mutation : Mutation V} {session : Session}
    {result : Session × V} :
    runMutation mutation session = .ok result ↔ mutation session = .ok result := by
  unfold runMutation
  cases mutation session <;> simp

theorem checkRevision_ok {expected : Option Nat} {actual : Nat} {u : Unit} :
    checkRevision expected actual = .ok u ↔ ∀ revision, expected = some revision →
      revision = actual := by
  cases expected <;> simp [checkRevision]

theorem commitSession_ok {store committed : Store} {session : Session}
    {evidence : List EvidenceRecord} {outbox : List OutboxCommand} {revision : Nat}
    (h : commitSession store session evidence outbox revision = .ok committed) :
    ∃ written added final,
      writeSession store session revision = .ok written ∧
      writeEvidence written (evidence ++ session.pendingEvidence) revision =
        .ok { written with evidence := store.evidence ++ added } ∧
      writeOutbox { written with evidence := store.evidence ++ added } outbox revision =
        .ok final ∧
      committed = advanceRevision final revision := by
  unfold commitSession at h
  obtain ⟨written, hwritten, h⟩ := StoreResult.bind_ok.mp h
  obtain ⟨middle, hmiddle, h⟩ := StoreResult.bind_ok.mp h
  obtain ⟨final, hfinal, h⟩ := StoreResult.bind_ok.mp h
  have hcommitted := StoreResult.pure_ok.mp h
  obtain ⟨added, hadded, _, _⟩ := writeEvidence_ok hmiddle
  have hevidence := (writeSession_ok hwritten).2.1
  rw [hevidence] at hadded
  subst hadded
  exact ⟨written, added, final, hwritten, hmiddle, hfinal, hcommitted.symm⟩

theorem transact_ok {V : Type} {store committed : Store} {mutation : Mutation V}
    {expected : Option Nat} {evidence : List EvidenceRecord} {outbox : List OutboxCommand}
    {result : TransactionResult V}
    (h : transact store mutation expected evidence outbox = .ok (committed, result)) :
    ∃ current session,
      loadSnapshot store = .ok current ∧
      (∀ revision, expected = some revision → revision = store.sessionRevision) ∧
      mutation current = .ok (session, result.value) ∧
      commitSession store session evidence outbox (store.sessionRevision + 1) =
        .ok committed ∧
      committedView session = .ok result.payload ∧
      result.revision = store.sessionRevision + 1 := by
  unfold transact at h
  obtain ⟨current, hcurrent, h⟩ := StoreResult.bind_ok.mp h
  obtain ⟨_, hrevision, h⟩ := StoreResult.bind_ok.mp h
  obtain ⟨⟨session, value⟩, hmutation, h⟩ := StoreResult.bind_ok.mp h
  obtain ⟨final, hfinal, h⟩ := StoreResult.bind_ok.mp h
  obtain ⟨payload, hpayload, h⟩ := StoreResult.bind_ok.mp h
  have hpair := StoreResult.pure_ok.mp h
  obtain ⟨rfl, rfl⟩ := Prod.mk.inj hpair
  exact ⟨current, session, hcurrent, checkRevision_ok.mp hrevision,
    runMutation_ok.mp hmutation, hfinal, hpayload, rfl⟩

theorem replace_ok {store committed : Store} {payload : Session} {expected : Option Nat}
    {evidence : List EvidenceRecord} {outbox : List OutboxCommand} {revision : Nat}
    (h : replace store payload expected evidence outbox = .ok (committed, revision)) :
    (∀ token, expected = some token → token = store.latestRevision) ∧
      commitSession store payload evidence outbox (store.latestRevision + 1) =
        .ok committed ∧
      revision = store.latestRevision + 1 := by
  unfold replace at h
  obtain ⟨_, hrevision, h⟩ := StoreResult.bind_ok.mp h
  obtain ⟨final, hfinal, h⟩ := StoreResult.bind_ok.mp h
  obtain ⟨rfl, rfl⟩ := Prod.mk.inj (StoreResult.pure_ok.mp h)
  exact ⟨checkRevision_ok.mp hrevision, hfinal, rfl⟩

theorem writeWorkingSet_ok {store store' : Store} {session : Session}
    {storedItems : Rows ItemRow} {storedLeases : Rows LeaseRow} {revision : Nat}
    (h : writeWorkingSet store session storedItems storedLeases revision = .ok store') :
    store'.outbox = store.outbox ∧ store'.evidence = store.evidence := by
  unfold writeWorkingSet at h
  obtain ⟨_, _, h⟩ := StoreResult.bind_ok.mp h
  obtain ⟨_, _, h⟩ := StoreResult.bind_ok.mp h
  obtain ⟨_, _, h⟩ := StoreResult.bind_ok.mp h
  split at h
  · obtain ⟨_, _, h⟩ := StoreResult.bind_ok.mp h
    obtain ⟨_, _, h⟩ := StoreResult.bind_ok.mp h
    obtain ⟨_, _, h⟩ := StoreResult.bind_ok.mp h
    have hstore := StoreResult.pure_ok.mp h
    subst hstore
    exact ⟨rfl, rfl⟩
  · obtain ⟨_, _, h⟩ := StoreResult.bind_ok.mp h
    have hstore := StoreResult.pure_ok.mp h
    subst hstore
    exact ⟨rfl, rfl⟩

theorem transactWorkingSet_ok {V : Type} {store committed : Store}
    {request : WorkingSetRequest} {mutation : Mutation V} {expected : Option Nat}
    {evidence : List EvidenceRecord} {outbox : List OutboxCommand}
    {result : TransactionResult V}
    (h : transactWorkingSet store request mutation expected evidence outbox =
      .ok (committed, result)) :
    ∃ current session written added final,
      loadWorkingSet store request = .ok current ∧
      (∀ revision, expected = some revision → revision = store.sessionRevision) ∧
      mutation current.session = .ok (session, result.value) ∧
      writeWorkingSet store session current.storedItems current.storedLeases
        (store.sessionRevision + 1) = .ok written ∧
      writeEvidence written (evidence ++ session.pendingEvidence) (store.sessionRevision + 1) =
        .ok { written with evidence := store.evidence ++ added } ∧
      writeOutbox { written with evidence := store.evidence ++ added } outbox
        (store.sessionRevision + 1) = .ok final ∧
      committed = advanceRevision final (store.sessionRevision + 1) ∧
      committedView session = .ok result.payload ∧
      result.revision = store.sessionRevision + 1 := by
  unfold transactWorkingSet at h
  obtain ⟨current, hcurrent, h⟩ := StoreResult.bind_ok.mp h
  obtain ⟨_, hrevision, h⟩ := StoreResult.bind_ok.mp h
  obtain ⟨⟨session, value⟩, hmutation, h⟩ := StoreResult.bind_ok.mp h
  obtain ⟨written, hwritten, h⟩ := StoreResult.bind_ok.mp h
  obtain ⟨middle, hmiddle, h⟩ := StoreResult.bind_ok.mp h
  obtain ⟨final, hfinal, h⟩ := StoreResult.bind_ok.mp h
  obtain ⟨payload, hpayload, h⟩ := StoreResult.bind_ok.mp h
  obtain ⟨rfl, rfl⟩ := Prod.mk.inj (StoreResult.pure_ok.mp h)
  obtain ⟨added, hadded, _, _⟩ := writeEvidence_ok hmiddle
  rw [(writeWorkingSet_ok hwritten).2] at hadded
  subst hadded
  exact ⟨current, session, written, added, final, hcurrent, checkRevision_ok.mp hrevision,
    runMutation_ok.mp hmutation, hwritten, hmiddle, hfinal, rfl, hpayload, rfl⟩

/-- A whole-session commit that plans nothing leaves the outbox alone. -/
theorem commitSession_outbox {store committed : Store} {session : Session}
    {evidence : List EvidenceRecord} {revision : Nat}
    (h : commitSession store session evidence [] revision = .ok committed) :
    committed.outbox = store.outbox := by
  obtain ⟨written, added, final, hwritten, _, hfinal, rfl⟩ := commitSession_ok h
  rw [writeOutbox_nil] at hfinal
  have hfinal := Except.ok.inj hfinal
  subst hfinal
  exact (writeSession_ok hwritten).1

end RuntimeStore
end GhAddressCr
