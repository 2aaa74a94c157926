import GhAddressCr.AppendOnlyLog
import GhAddressCr.ExclusiveTransactions
import GhAddressCr.StoreInitialization
import Mathlib.Data.List.Nodup

/-!
# Schema upgrades

A store of an older schema is brought to the current one when it is opened: each migration
applies in one exclusive transaction, version by version. Before version 2 nothing kept an item
to one active lease and the outbox was not canonical; before version 3 the lease events were a
list in the root of the session.
-/
namespace GhAddressCr.RuntimeStore

open ExclusiveTransactions KeyedRows

/-- `SCHEMA_VERSION`. -/
def currentSchema : Nat := 3

/-- A row of `lease_events`. -/
structure LeaseEventRow where
  sequence : Nat
  sessionId : String
  payload : Value
  deriving DecidableEq

/-- A row of `migration_history`. -/
structure MigrationRow where
  migrationId : String
  fromVersion : Nat
  toVersion : Nat
  deriving DecidableEq

/-- The recovery bundle beside the database, by its stat signature. -/
inductive RecoveryBundle where
  | absent
  | present (signature : String) (intact : Bool)
  deriving DecidableEq

def RecoveryBundle.verifies : RecoveryBundle → Bool
  | .absent => true
  | .present _ intact => intact

/-- `_bundle_signature`. -/
def RecoveryBundle.signature : RecoveryBundle → Option String
  | .absent => none
  | .present signature _ => some signature

/-- The tables of a store of any schema version. -/
structure Tables where
  schemaVersion : Nat
  latestRevision : Nat
  sessionRevision : Nat
  root : Dict
  items : Rows ItemRow
  leases : Rows LeaseRow
  /-- The table that version 3 has. -/
  leaseEvents : Option (List LeaseEventRow)
  evidence : List EvidenceRow
  outbox : Rows OutboxRow
  /-- `leases_one_active_per_item` is there. -/
  oneActivePerItem : Bool
  migrationHistory : List MigrationRow
  legacyBundleSignature : Option String
  deriving DecidableEq

/-- The store of these tables, up to its lease events. -/
def Tables.rows (tables : Tables) : Store where
  latestRevision := tables.latestRevision
  sessionRevision := tables.sessionRevision
  root := tables.root
  items := tables.items
  leases := tables.leases
  leaseEvents := []
  evidence := tables.evidence
  outbox := tables.outbox

/-- A statement of the upgrade. -/
abbrev UpgradeStatement := Statement StoreError Tables RecoveryBundle

/-- The items that more than one active lease holds. -/
def duplicateActiveItems (leases : Rows Lease) : List String :=
  (activeItemIds leases).eraseDups.filter fun itemId => 1 < (activeItemIds leases).count itemId

/-- A column that rows get without a value. -/
def addOwnerToken (tables : Tables) : StoreResult Tables :=
  .ok { tables with outbox := tables.outbox.map fun _ row => { row with ownerToken := none } }

def rejectDuplicates (tables : Tables) : StoreResult Tables := do
  let duplicate := duplicateActiveItems (leasePayloads tables.leases)
  require (duplicate = []) (.persistenceInvalid (toString duplicate.length ++
    " item(s) hold more than one active lease; the store cannot be upgraded until repaired."))
  return tables

def createActiveLeaseIndex (tables : Tables) : StoreResult Tables := do
  require (activeItemIds (leasePayloads tables.leases)).Nodup (.raised "IntegrityError")
  return { tables with oneActivePerItem := true }

def backfillOutbox (tables : Tables) : StoreResult Tables := do
  let store ← backfillOutboxFromEvidence tables.rows tables.latestRevision
  return { tables with outbox := store.outbox }

/-- `_migrate_v1_to_v2`. -/
def migrateV1ToV2 : List UpgradeStatement :=
  [addOwnerToken, rejectDuplicates, createActiveLeaseIndex, backfillOutbox].map .ofView

def createLeaseEvents (tables : Tables) : StoreResult Tables :=
  match tables.leaseEvents with
  | none => .ok { tables with leaseEvents := some [] }
  | some _ => .error (.raised "OperationalError")

/-- A row under the next sequence number. -/
def insertLeaseEvent (sessionId : String) (rows : List LeaseEventRow) (event : Value) :
    List LeaseEventRow :=
  rows ++ [⟨((rows.getLast?.map (·.sequence)).getD 0) + 1, sessionId, event⟩]

/-- The lease events in the root of a session. -/
def embeddedLeaseEvents (root : Dict) : Option (List Value) :=
  match root["lease_events"]? with
  | none => some []
  | some (.list events) => some events
  | some _ => none

def moveLeaseEvents (tables : Tables) : StoreResult Tables :=
  match embeddedLeaseEvents tables.root with
  | none => .error (.persistenceInvalid "Session lease_events must be an array.")
  | some events => .ok { tables with
      leaseEvents := tables.leaseEvents.map fun rows =>
        events.foldl (insertLeaseEvent (sessionId tables.root)) rows
      root := tables.root.pop "lease_events" }

/-- `_migrate_v2_to_v3`. -/
def migrateV2ToV3 : List UpgradeStatement := [createLeaseEvents, moveLeaseEvents].map .ofView

/-- `_MIGRATIONS`. -/
def migrations : Nat → Option (List UpgradeStatement)
  | 1 => some migrateV1ToV2
  | 2 => some migrateV2ToV3
  | _ => none

def migrationId (version : Nat) : String :=
  "sqlite-v" ++ toString version ++ "-to-v" ++ toString (version + 1)

def recordMigration (version : Nat) (tables : Tables) : StoreResult Tables := do
  require (∀ row ∈ tables.migrationHistory, row.migrationId ≠ migrationId version)
    (.raised "IntegrityError")
  return { tables with
    migrationHistory := tables.migrationHistory ++
      [⟨migrationId version, version, version + 1⟩]
    schemaVersion := version + 1 }

/-- One round of the loop. -/
def migrationRound (version : Nat) : List UpgradeStatement :=
  (match migrations version with
    | some statements => statements
    | none => [fun _ => .error (.persistenceInvalid
        ("No migration exists from runtime schema version " ++ toString version ++ "."))]) ++
    [.ofView (recordMigration version)]

def verifyRecoveryBundle (bundle : RecoveryBundle) : StoreResult Unit :=
  require (bundle.verifies = true)
    (.persistenceInvalid "Legacy recovery bundle integrity check failed.")

def recordBundleSignature : UpgradeStatement := fun (tables, bundle) => do
  verifyRecoveryBundle bundle
  return ({ tables with legacyBundleSignature := bundle.signature }, bundle)

/-- The statements of `_upgrade_schema` once it has the lock. -/
def upgradeStatements (tables : Tables) : List UpgradeStatement :=
  -- Version 0 reads as no version.
  let version := if tables.schemaVersion = 0 then currentSchema else tables.schemaVersion
  (List.range' version (currentSchema - version)).flatMap migrationRound ++
    [recordBundleSignature]

/-- `_upgrade_schema`. -/
def upgradeSchema (tables : Tables) (bundle : RecoveryBundle) : StoreResult Tables :=
  if tables.schemaVersion < currentSchema then
    (execute (upgradeStatements tables) (tables, bundle)).map (·.1)
  else .ok tables

/-- Any number of openers that upgrade the store, each of which may stop anywhere. -/
abbrev upgradeRuns (tables : Tables) (bundle : RecoveryBundle) :
    TransitionSystem (Database Unit StoreError Tables RecoveryBundle) (Step Unit) :=
  databaseRuns (fun _ tables _ => upgradeStatements tables) tables bundle

/-- A loaded session, whose lease events may be any values. -/
structure LoadedSession where
  root : Dict
  items : Rows Dict
  leases : Rows Lease
  leaseEvents : List Value
  deriving DecidableEq

/-- The session, when its lease events are objects. -/
def LoadedSession.session (loaded : LoadedSession) : Option Session :=
  (loaded.leaseEvents.mapM Value.toDict?).map fun events => {
    root := loaded.root
    items := loaded.items
    leases := loaded.leases
    leaseEvents := events }

def checkRecoveryBundle (tables : Tables) (bundle : RecoveryBundle) : StoreResult Unit :=
  if bundle.signature = none ∨ tables.legacyBundleSignature = bundle.signature then .ok ()
  else verifyRecoveryBundle bundle

/-- `load`, once the schema is upgraded. -/
def loadTables (tables : Tables) (bundle : RecoveryBundle) : StoreResult LoadedSession := do
  require (tables.schemaVersion = currentSchema) (.persistenceInvalid
    ("Unsupported runtime schema version " ++ toString tables.schemaVersion ++ "; expected " ++
      toString currentSchema ++ "."))
  checkRecoveryBundle tables bundle
  match tables.leaseEvents with
  | none => .error (.raised "OperationalError")
  | some rows => do
      let ofSession := rows.filter (·.sessionId = sessionId tables.root)
      let ordered := ofSession.mergeSort (·.sequence ≤ ·.sequence)
      let items ← deriveItemClaimProjection (itemPayloads tables.items)
        (leasePayloads tables.leases)
      return {
        root := tables.root
        items := items
        leases := leasePayloads tables.leases
        leaseEvents := ordered.map (·.payload) }

/-- What a process that opens the store leaves in it, and what it loads. -/
def openTables (tables : Tables) (bundle : RecoveryBundle) : Tables × StoreResult LoadedSession :=
  match upgradeSchema tables bundle with
  | .ok upgraded => (upgraded, loadTables upgraded bundle)
  | .error error => (tables, .error error)

/-- The attempts that the evidence records and that can be read. -/
def readableAttempts (evidence : List EvidenceRow) : List RecordedAttempt :=
  (evidence.filter fun row => row.record.eventType = "side_effect_attempt").filterMap fun row =>
    RecordedAttempt.fromJson row.record.payload

namespace RecordedAttempt

def commandId (attempt : RecordedAttempt) : String :=
  outboxCommandId attempt.sideEffectType attempt.idempotencyKey

/-- The outbox has a row of this side effect. -/
def hasRow (rows : Rows OutboxRow) (attempt : RecordedAttempt) : Bool :=
  rows.toList.any fun row => (row.2.effectType, row.2.idempotencyKey) = attempt.key

/-- The attempt has a supported status, and a success a reference that a column can hold. -/
structure Backfills (attempt : RecordedAttempt) : Prop where
  status : (backfillStatus attempt.status).isSome
  reference : attempt.status = "succeeded" → ∃ text, columnText attempt.externalUrl = .ok text

end RecordedAttempt

/-- The last attempts of the side effects without a row. -/
def missingEffects (evidence : List EvidenceRow) (rows : Rows OutboxRow) : List RecordedAttempt :=
  (latestAttempts (readableAttempts evidence)).filter fun attempt => !attempt.hasRow rows

/-- What the backfill asks of the evidence: it can read every attempt, and can add a row for
the last attempt of each side effect without one. -/
structure Backfillable (evidence : List EvidenceRow) (rows : Rows OutboxRow) : Prop where
  readable : ∀ row ∈ evidence, row.record.eventType = "side_effect_attempt" →
    (RecordedAttempt.fromJson row.record.payload).isSome
  backfills : ∀ attempt ∈ missingEffects evidence rows, attempt.Backfills
  distinct : ((missingEffects evidence rows).map (·.commandId)).Nodup
  free : ∀ attempt ∈ missingEffects evidence rows, rows[attempt.commandId]? = none

theorem mapM_readable_ok {α β : Type} {read : α → StoreResult β} {f : α → Option β}
    (hread : ∀ a b, read a = .ok b ↔ f a = some b) {l : List α} {l' : List β} :
    l.mapM read = .ok l' ↔ (∀ a ∈ l, (f a).isSome) ∧ l.filterMap f = l' := by
  induction l generalizing l' with
  | nil => simp
  | cons a l ih =>
      simp only [List.mapM_cons, StoreResult.bind_ok, StoreResult.pure_ok, hread, ih]
      cases hf : f a with
      | none => simp [hf]
      | some b =>
          simp only [Option.some.injEq, exists_eq_left', List.mem_cons, forall_eq_or_imp, hf,
            Option.isSome_some, true_and, List.filterMap_cons_some hf]
          constructor
          · rintro ⟨_, ⟨hall, rfl⟩, rfl⟩
            exact ⟨hall, rfl⟩
          · rintro ⟨hall, rfl⟩
            exact ⟨_, ⟨hall, rfl⟩, rfl⟩

theorem recordedAttempts_ok {evidence : List EvidenceRow} {attempts : List RecordedAttempt} :
    recordedAttempts evidence = .ok attempts ↔
      (∀ row ∈ evidence, row.record.eventType = "side_effect_attempt" →
        (RecordedAttempt.fromJson row.record.payload).isSome) ∧
      readableAttempts evidence = attempts := by
  unfold recordedAttempts
  rw [mapM_readable_ok (f := fun row : EvidenceRow =>
    RecordedAttempt.fromJson row.record.payload)]
  · simp [readableAttempts]
  · intro row attempt
    cases RecordedAttempt.fromJson row.record.payload <;> simp

theorem nodup_latestAttempts (attempts : List RecordedAttempt) :
    ((latestAttempts attempts).map (·.key)).Nodup := by
  unfold latestAttempts
  rw [List.map_filterMap]
  refine List.Nodup.filterMap (fun key key' found hfound hfound' => ?_) (AppendOnlyLog.nodup_eraseDups _)
  obtain ⟨attempt, hattempt, rfl⟩ := Option.map_eq_some_iff.mp hfound
  obtain ⟨attempt', hattempt', hkey⟩ := Option.map_eq_some_iff.mp hfound'
  have hfind : attempt.key = key := by simpa using List.find?_some hattempt
  have hfind' : attempt'.key = key' := by simpa using List.find?_some hattempt'
  rw [← hfind, ← hfind', hkey]

theorem RecordedAttempt.backfillRow_ok (attempt : RecordedAttempt)
    (sessionId : String) (attempts revision : Nat) :
    (∃ row, attempt.backfillRow sessionId attempts revision = .ok row) ↔ attempt.Backfills := by
  have hsucceeded : backfillStatus attempt.status = some .succeeded ↔
      attempt.status = "succeeded" := by
    unfold backfillStatus
    split <;> simp_all
  unfold backfillRow
  split
  · next hunsupported =>
    constructor
    · rintro ⟨_, h⟩
      cases h
    · intro hbackfills
      exact absurd hbackfills.status (by simp [hunsupported])
  · next status hstatus =>
    simp only [StoreResult.bind_ok, StoreResult.pure_ok]
    constructor
    · rintro ⟨_, reference, hreference, -⟩
      refine ⟨by simp [hstatus], fun h => ?_⟩
      obtain rfl : status = .succeeded := by
        rw [hsucceeded.mpr h] at hstatus
        exact (Option.some.inj hstatus).symm
      exact ⟨reference, by simpa using hreference⟩
    · intro hbackfills
      by_cases hs : status = .succeeded
      · subst hs
        obtain ⟨reference, hreference⟩ := hbackfills.reference (hsucceeded.mp hstatus)
        exact ⟨_, reference, by simpa using hreference, rfl⟩
      · exact ⟨_, none, by simp [hs, columnText], rfl⟩

theorem RecordedAttempt.backfillRow_key {attempt : RecordedAttempt} {sessionId : String}
    {attempts revision : Nat} {row : OutboxRow}
    (h : attempt.backfillRow sessionId attempts revision = .ok row) :
    (row.effectType, row.idempotencyKey) = attempt.key := by
  unfold backfillRow at h
  split at h
  · cases h
  · obtain ⟨_, -, h⟩ := StoreResult.bind_ok.mp h
    rw [← StoreResult.pure_ok.mp h]
    rfl

theorem RecordedAttempt.hasRow_iff {rows : Rows OutboxRow} {attempt : RecordedAttempt} :
    attempt.hasRow rows = true ↔
      ∃ (commandId : String) (row : OutboxRow), rows[commandId]? = some row ∧
      (row.effectType, row.idempotencyKey) = attempt.key := by
  simp only [hasRow, List.any_eq_true, decide_eq_true_eq, Prod.exists,
    Std.ExtTreeMap.mem_toList_iff_getElem?_eq_some]

/-- A row under a free command matters to its own side effect only. -/
theorem RecordedAttempt.hasRow_insert {rows : Rows OutboxRow} {attempt : RecordedAttempt}
    {commandId : String} {row : OutboxRow} (hfree : rows[commandId]? = none)
    (hother : (row.effectType, row.idempotencyKey) ≠ attempt.key) :
    attempt.hasRow (rows.insert commandId row) = attempt.hasRow rows := by
  rw [Bool.eq_iff_iff, hasRow_iff, hasRow_iff]
  constructor
  · rintro ⟨id, found, hfound, hkey⟩
    rw [Std.ExtTreeMap.getElem?_insert] at hfound
    split at hfound
    · obtain rfl := Option.some.inj hfound
      exact absurd hkey hother
    · exact ⟨id, found, hfound, hkey⟩
  · rintro ⟨id, found, hfound, hkey⟩
    refine ⟨id, found, ?_, hkey⟩
    rw [KeyedRows.getElem?_insert_of_ne rows row ?_]
    · exact hfound
    · rintro rfl
      rw [hfree] at hfound
      cases hfound

theorem backfillAttempt_of_hasRow {sessionId : String} {attempts : List RecordedAttempt}
    {revision : Nat} {rows : Rows OutboxRow} {attempt : RecordedAttempt}
    (h : attempt.hasRow rows = true) :
    backfillAttempt sessionId attempts revision rows attempt = .ok rows := by
  unfold RecordedAttempt.hasRow at h
  unfold backfillAttempt
  rw [if_pos h]

theorem backfillAttempt_ok {sessionId : String} {attempts : List RecordedAttempt}
    {revision : Nat} {rows rows' : Rows OutboxRow} {attempt : RecordedAttempt}
    (hmissing : ¬ attempt.hasRow rows = true) :
    backfillAttempt sessionId attempts revision rows attempt = .ok rows' ↔
      ∃ row, attempt.backfillRow sessionId
          (attempts.countP fun other => other.key = attempt.key ∧ other.status = "in_flight")
          revision = .ok row ∧
        rows[attempt.commandId]? = none ∧ rows' = rows.insert attempt.commandId row := by
  unfold RecordedAttempt.hasRow at hmissing
  unfold backfillAttempt
  rw [if_neg hmissing]
  simp only [StoreResult.bind_ok, require_ok, StoreResult.pure_ok, RecordedAttempt.commandId]
  constructor
  · rintro ⟨row, hrow, _, hfree, rfl⟩
    exact ⟨row, hrow, hfree, rfl⟩
  · rintro ⟨row, hrow, hfree, rfl⟩
    exact ⟨row, hrow, (), hfree, rfl⟩

/-- Attempts at different side effects can all get their rows exactly when those without one
can be written under commands of their own. -/
theorem foldlM_backfillAttempt_ok (sessionId : String) (attempts : List RecordedAttempt)
    (revision : Nat) {latest : List RecordedAttempt} (hkeys : (latest.map (·.key)).Nodup)
    (rows : Rows OutboxRow) :
    (∃ rows', latest.foldlM (backfillAttempt sessionId attempts revision) rows = .ok rows') ↔
      (∀ attempt ∈ latest.filter (!·.hasRow rows), attempt.Backfills) ∧
      ((latest.filter (!·.hasRow rows)).map (·.commandId)).Nodup ∧
      ∀ attempt ∈ latest.filter (!·.hasRow rows), rows[attempt.commandId]? = none := by
  induction latest generalizing rows with
  | nil => simp [pure, Except.pure]
  | cons attempt latest ih =>
      obtain ⟨hfresh, hkeys⟩ := List.nodup_cons.mp hkeys
      rw [List.foldlM_cons]
      by_cases hrow : attempt.hasRow rows = true
      · rw [List.filter_cons_of_neg (by simp [hrow]), ← ih hkeys rows,
          backfillAttempt_of_hasRow hrow]
        rfl
      · rw [List.filter_cons_of_pos (by simp [hrow])]
        -- The new row gives none of the other side effects a row.
        have hsame : ∀ row : OutboxRow, (row.effectType, row.idempotencyKey) = attempt.key →
            rows[attempt.commandId]? = none →
            latest.filter (!·.hasRow (rows.insert attempt.commandId row)) =
              latest.filter (!·.hasRow rows) := by
          intro row hkey hfree
          refine List.filter_congr fun other hother => ?_
          have hne : attempt.key ≠ other.key := fun heq =>
            hfresh (List.mem_map.mpr ⟨other, hother, heq.symm⟩)
          rw [RecordedAttempt.hasRow_insert hfree (hkey ▸ hne)]
        have hlookup : ∀ (row : OutboxRow) (other : RecordedAttempt),
            (rows.insert attempt.commandId row)[other.commandId]? = none ↔
              attempt.commandId ≠ other.commandId ∧ rows[other.commandId]? = none := by
          intro row other
          by_cases hid : attempt.commandId = other.commandId <;>
            simp [Std.ExtTreeMap.getElem?_insert, hid]
        simp only [StoreResult.bind_ok, backfillAttempt_ok hrow, List.mem_cons, forall_eq_or_imp,
          List.map_cons, List.nodup_cons]
        constructor
        · rintro ⟨rows', _, ⟨row, hbackfill, hfree, rfl⟩, hrest⟩
          obtain ⟨hbackfills, hdistinct, hcommands⟩ := (ih hkeys _).mp ⟨rows', hrest⟩
          rw [hsame row (RecordedAttempt.backfillRow_key hbackfill) hfree] at hbackfills hdistinct
          rw [hsame row (RecordedAttempt.backfillRow_key hbackfill) hfree] at hcommands
          refine ⟨⟨(attempt.backfillRow_ok _ _ _).mp ⟨row, hbackfill⟩, hbackfills⟩, ⟨?_, hdistinct⟩,
            hfree, fun other hother => ((hlookup row other).mp (hcommands other hother)).2⟩
          intro hmem
          obtain ⟨other, hother, hid⟩ := List.mem_map.mp hmem
          exact ((hlookup row other).mp (hcommands other hother)).1 hid.symm
        · rintro ⟨⟨hbackfill, hbackfills⟩, ⟨hid, hdistinct⟩, hfree, hcommands⟩
          obtain ⟨row, hrow⟩ := (attempt.backfillRow_ok sessionId _ revision).mpr hbackfill
          have hkey := RecordedAttempt.backfillRow_key hrow
          obtain ⟨rows', hrest⟩ := (ih hkeys (rows.insert attempt.commandId row)).mpr (by
            rw [hsame row hkey hfree]
            refine ⟨hbackfills, hdistinct, fun other hother => (hlookup row other).mpr
              ⟨fun heq => hid ?_, hcommands other hother⟩⟩
            rw [heq]
            exact List.mem_map_of_mem hother)
          exact ⟨rows', _, ⟨row, hrow, hfree, rfl⟩, hrest⟩

theorem backfillOutboxFromEvidence_iff (store : Store) (revision : Nat) :
    (∃ store', backfillOutboxFromEvidence store revision = .ok store') ↔
      Backfillable store.evidence store.outbox := by
  have hfold := foldlM_backfillAttempt_ok (sessionId store.root) (readableAttempts store.evidence)
    revision (nodup_latestAttempts (readableAttempts store.evidence)) store.outbox
  simp only [backfillOutboxFromEvidence, StoreResult.bind_ok, recordedAttempts_ok]
  constructor
  · rintro ⟨_, _, ⟨hreadable, rfl⟩, rows, hrows, -⟩
    obtain ⟨hbackfills, hdistinct, hfree⟩ := hfold.mp ⟨rows, hrows⟩
    exact ⟨hreadable, hbackfills, hdistinct, hfree⟩
  · intro h
    obtain ⟨rows, hrows⟩ := hfold.mpr ⟨h.backfills, h.distinct, h.free⟩
    exact ⟨_, _, ⟨h.readable, rfl⟩, rows, hrows, rfl⟩

/-- The rows of one session, numbered from 1 in the order they were inserted. -/
structure Numbered (sessionId : String) (rows : List LeaseEventRow) : Prop where
  sequences : rows.map (·.sequence) = List.range' 1 rows.length
  ofSession : ∀ row ∈ rows, row.sessionId = sessionId

theorem Numbered.insert {sessionId : String} {rows : List LeaseEventRow}
    (h : Numbered sessionId rows) (event : Value) :
    Numbered sessionId (insertLeaseEvent sessionId rows event) := by
  have hlast : (rows.getLast?.map (·.sequence)).getD 0 = rows.length := by
    rw [← List.getLast?_map, h.sequences, List.getLast?_range']
    cases rows <;> simp
  refine ⟨?_, ?_⟩
  · simp only [insertLeaseEvent, hlast, List.map_append, h.sequences, List.length_append,
      List.length_singleton, List.map_cons, List.map_nil]
    rw [List.range'_1_concat, Nat.add_comm 1]
  · intro row hrow
    rcases List.mem_append.mp hrow with hrow | hrow
    · exact h.ofSession row hrow
    · rw [List.mem_singleton.mp hrow]

theorem Numbered.foldl_insert {sessionId : String} (events : List Value)
    {rows : List LeaseEventRow} (h : Numbered sessionId rows) :
    Numbered sessionId (events.foldl (insertLeaseEvent sessionId) rows) ∧
      (events.foldl (insertLeaseEvent sessionId) rows).map (·.payload) =
        rows.map (·.payload) ++ events := by
  induction events generalizing rows with
  | nil => exact ⟨h, by simp⟩
  | cons event events ih =>
      obtain ⟨hnumbered, hpayloads⟩ := ih (h.insert event)
      refine ⟨hnumbered, ?_⟩
      rw [List.foldl_cons, hpayloads]
      simp [insertLeaseEvent]

/-- Numbered rows are loaded in their order. -/
theorem Numbered.mergeSort_filter {sessionId : String} {rows : List LeaseEventRow}
    (h : Numbered sessionId rows) :
    (rows.filter (·.sessionId = sessionId)).mergeSort (·.sequence ≤ ·.sequence) = rows := by
  rw [List.filter_eq_self.mpr fun row hrow => by simpa using h.ofSession row hrow]
  refine List.mergeSort_of_pairwise ?_
  have hsorted : (rows.map (·.sequence)).Pairwise (· < ·) := by
    rw [h.sequences]
    exact List.pairwise_lt_range'
  rw [List.pairwise_map] at hsorted
  exact hsorted.imp fun hlt => by simpa using Nat.le_of_lt hlt

/-- A store of version 1 or 2, with what its schema promises. -/
structure OlderStore where
  tables : Tables
  version : tables.schemaVersion = 1 ∨ tables.schemaVersion = 2
  /-- Version 2 has the index on active leases. -/
  indexed : tables.schemaVersion = 2 → (activeItemIds (leasePayloads tables.leases)).Nodup
  /-- The owner of a command is a column of version 2. -/
  ownerless : tables.schemaVersion = 1 →
    ∀ (commandId : String) (row : OutboxRow), tables.outbox[commandId]? = some row →
      row.ownerToken = none
  noEventRows : tables.leaseEvents = none
  /-- The history has no migration from this version on. -/
  unrecorded : ∀ row ∈ tables.migrationHistory, ∀ version ≥ tables.schemaVersion,
    row.migrationId ≠ migrationId version

/-- The session that the tables of an older schema hold, as a load presents it: the lease events
are those in its root. -/
def heldSession (tables : Tables) : Option LoadedSession :=
  match embeddedLeaseEvents tables.root,
    deriveItemClaimProjection (itemPayloads tables.items) (leasePayloads tables.leases) with
  | some events, .ok items => some {
      root := tables.root.pop "lease_events"
      items := items
      leases := leasePayloads tables.leases
      leaseEvents := events }
  | _, _ => none

/-- What the newer schemas ask of older rows, and of the files that a store imported from a
legacy session keeps. -/
structure MeetsNewConstraints (tables : Tables) (bundle : RecoveryBundle) : Prop where
  oneActive : (activeItemIds (leasePayloads tables.leases)).Nodup
  backfillable : tables.schemaVersion = 1 → Backfillable tables.evidence tables.outbox
  events : (embeddedLeaseEvents tables.root).isSome
  recoverable : bundle.verifies = true

/-- The rows of an older store in the current schema. -/
structure Carried (old new : Tables) : Prop where
  schemaVersion : new.schemaVersion = currentSchema
  latestRevision : new.latestRevision = old.latestRevision
  sessionRevision : new.sessionRevision = old.sessionRevision
  root : new.root = old.root.pop "lease_events"
  items : new.items = old.items
  leases : new.leases = old.leases
  leaseEvents : ∃ rows, new.leaseEvents = some rows ∧ Numbered (sessionId old.root) rows ∧
    embeddedLeaseEvents old.root = some (rows.map (·.payload))
  evidence : new.evidence = old.evidence

/-- The tables after the last migration. -/
def normalizeLeaseEvents (tables : Tables) (events : List Value) (bundle : RecoveryBundle) :
    Tables :=
  { tables with
    schemaVersion := currentSchema
    root := tables.root.pop "lease_events"
    leaseEvents := some (events.foldl (insertLeaseEvent (sessionId tables.root)) [])
    migrationHistory := tables.migrationHistory ++ [⟨migrationId 2, 2, 3⟩]
    legacyBundleSignature := bundle.signature }

theorem execute_second_round {tables : Tables} {bundle : RecoveryBundle}
    {result : Tables × RecoveryBundle} (hevents : tables.leaseEvents = none)
    (hhistory : ∀ row ∈ tables.migrationHistory, row.migrationId ≠ migrationId 2) :
    execute (migrationRound 2 ++ [recordBundleSignature]) (tables, bundle) = .ok result ↔
      bundle.verifies = true ∧ ∃ events, embeddedLeaseEvents tables.root = some events ∧
        result = (normalizeLeaseEvents tables events bundle, bundle) := by
  have hround : migrationRound 2 ++ [recordBundleSignature] =
      [.ofView createLeaseEvents, .ofView moveLeaseEvents, .ofView (recordMigration 2),
        recordBundleSignature] := rfl
  rw [hround]
  simp only [execute_ofView_cons_ok]
  simp only [createLeaseEvents, hevents, Except.ok.injEq, exists_eq_left', moveLeaseEvents,
    recordMigration, recordBundleSignature, verifyRecoveryBundle, execute_cons, execute_nil,
    StoreResult.bind_ok, require_ok, StoreResult.pure_ok]
  cases hembedded : embeddedLeaseEvents tables.root with
  | none => simp
  | some events =>
      simp only [Except.ok.injEq, exists_eq_left', Option.some.injEq, Option.map_some]
      constructor
      · rintro ⟨_, ⟨_, -, rfl⟩, _, ⟨_, hverifies, rfl⟩, rfl⟩
        exact ⟨hverifies, rfl⟩
      · rintro ⟨hverifies, rfl⟩
        exact ⟨_, ⟨(), hhistory, rfl⟩, _, ⟨(), hverifies, rfl⟩, rfl⟩

/-- The tables after the first migration. -/
def backfilled (tables : Tables) (store : Store) : Tables :=
  { tables with
    schemaVersion := 2
    outbox := store.outbox
    oneActivePerItem := true
    migrationHistory := tables.migrationHistory ++ [⟨migrationId 1, 1, 2⟩] }

theorem duplicateActiveItems_eq_nil {leases : Rows Lease} :
    duplicateActiveItems leases = [] ↔ (activeItemIds leases).Nodup := by
  rw [List.nodup_iff_count_le_one]
  simp only [duplicateActiveItems, List.filter_eq_nil_iff, List.mem_eraseDups, decide_eq_true_eq,
    Nat.not_lt]
  constructor
  · intro h itemId
    by_cases hmem : itemId ∈ activeItemIds leases
    · exact h itemId hmem
    · rw [List.count_eq_zero_of_not_mem hmem]
      omega
  · intro h itemId _
    exact h itemId

theorem addOwnerToken_ok {tables : Tables}
    (h : ∀ (commandId : String) (row : OutboxRow), tables.outbox[commandId]? = some row →
      row.ownerToken = none) : addOwnerToken tables = .ok tables := by
  have hrows : (tables.outbox.map fun _ row => { row with ownerToken := none }) =
      tables.outbox := by
    refine Std.ExtTreeMap.ext_getElem? fun commandId => ?_
    rw [Std.ExtTreeMap.getElem?_map]
    cases hrow : tables.outbox[commandId]? with
    | none => rfl
    | some row => simp [← h commandId row hrow]
  rw [addOwnerToken, hrows]

theorem execute_first_round {tables : Tables} {bundle : RecoveryBundle}
    {rest : List UpgradeStatement} {result : Tables × RecoveryBundle}
    (howner : addOwnerToken tables = .ok tables)
    (hhistory : ∀ row ∈ tables.migrationHistory, row.migrationId ≠ migrationId 1) :
    execute (migrationRound 1 ++ rest) (tables, bundle) = .ok result ↔
      (activeItemIds (leasePayloads tables.leases)).Nodup ∧ ∃ store,
        backfillOutboxFromEvidence tables.rows tables.latestRevision = .ok store ∧
        execute rest (backfilled tables store, bundle) = .ok result := by
  have hround : migrationRound 1 ++ rest =
      .ofView addOwnerToken :: .ofView rejectDuplicates :: .ofView createActiveLeaseIndex ::
        .ofView backfillOutbox :: .ofView (recordMigration 1) :: rest := rfl
  rw [hround]
  simp only [execute_ofView_cons_ok]
  simp only [howner, Except.ok.injEq, exists_eq_left', rejectDuplicates, createActiveLeaseIndex,
    backfillOutbox, recordMigration, StoreResult.bind_ok, require_ok, StoreResult.pure_ok,
    duplicateActiveItems_eq_nil]
  constructor
  · rintro ⟨_, ⟨_, hnodup, rfl⟩, _, ⟨_, -, rfl⟩, _, ⟨store, hstore, rfl⟩, _, ⟨_, -, rfl⟩, hrest⟩
    exact ⟨hnodup, store, hstore, hrest⟩
  · rintro ⟨hnodup, store, hstore, hrest⟩
    exact ⟨_, ⟨(), hnodup, rfl⟩, _, ⟨(), hnodup, rfl⟩, _, ⟨store, hstore, rfl⟩, _,
      ⟨(), hhistory, rfl⟩, hrest⟩

theorem normalizeLeaseEvents_carried {tables : Tables} {events : List Value}
    (h : embeddedLeaseEvents tables.root = some events) (bundle : RecoveryBundle) :
    Carried tables (normalizeLeaseEvents tables events bundle) := by
  have hempty : Numbered (sessionId tables.root) [] := ⟨rfl, by simp⟩
  obtain ⟨hnumbered, hpayloads⟩ := hempty.foldl_insert events
  exact ⟨rfl, rfl, rfl, rfl, rfl, rfl, ⟨_, rfl, hnumbered, by rw [h, hpayloads]; simp⟩, rfl⟩

/-- An older store is upgraded exactly when it meets the newer schemas' constraints, and its rows
are carried over. -/
theorem OlderStore.upgradeSchema_iff (old : OlderStore) (bundle : RecoveryBundle) :
    ((∃ new, upgradeSchema old.tables bundle = .ok new) ↔
      MeetsNewConstraints old.tables bundle) ∧
    ∀ new, upgradeSchema old.tables bundle = .ok new → Carried old.tables new := by
  have hbehind : old.tables.schemaVersion < currentSchema := by
    rcases old.version with h | h <;> simp [h, currentSchema]
  have hresult : ∀ new, upgradeSchema old.tables bundle = .ok new ↔
      ∃ files, execute (upgradeStatements old.tables) (old.tables, bundle) = .ok (new, files) := by
    intro new
    rw [upgradeSchema, if_pos hbehind, StoreResult.map_ok]
    constructor
    · rintro ⟨⟨new, files⟩, h, rfl⟩
      exact ⟨files, h⟩
    · rintro ⟨files, h⟩
      exact ⟨_, h, rfl⟩
  simp only [hresult]
  rcases old.version with hversion | hversion
  · have hstatements : upgradeStatements old.tables =
        migrationRound 1 ++ (migrationRound 2 ++ [recordBundleSignature]) := by
      simp [upgradeStatements, hversion, currentSchema, List.range']
    have hhistory : ∀ version ≥ 1, ∀ row ∈ old.tables.migrationHistory,
        row.migrationId ≠ migrationId version := fun version hv row hrow =>
      old.unrecorded row hrow version (hversion ▸ hv)
    have hsecond : ∀ store, ∀ row ∈ (backfilled old.tables store).migrationHistory,
        row.migrationId ≠ migrationId 2 := by
      intro store row hrow
      rcases List.mem_append.mp hrow with hrow | hrow
      · exact hhistory 2 (by omega) row hrow
      · rw [List.mem_singleton.mp hrow]
        decide
    simp only [hstatements, execute_first_round (addOwnerToken_ok (old.ownerless hversion))
      (hhistory 1 (by omega)), @execute_second_round (backfilled old.tables _) _ _
        old.noEventRows (hsecond _), Prod.mk.injEq]
    have hbackfill := backfillOutboxFromEvidence_iff old.tables.rows old.tables.latestRevision
    refine ⟨⟨?_, ?_⟩, ?_⟩
    · rintro ⟨new, _, hnodup, store, hstore, hverifies, events, hevents, -, -⟩
      exact ⟨hnodup, fun _ => hbackfill.mp ⟨store, hstore⟩,
        Option.isSome_iff_exists.mpr ⟨events, hevents⟩, hverifies⟩
    · intro hmeets
      obtain ⟨store, hstore⟩ := hbackfill.mpr (hmeets.backfillable hversion)
      obtain ⟨events, hevents⟩ := Option.isSome_iff_exists.mp hmeets.events
      exact ⟨_, _, hmeets.oneActive, store, hstore, hmeets.recoverable, events, hevents, rfl, rfl⟩
    · rintro new ⟨_, -, store, -, -, events, hevents, rfl, -⟩
      have hcarried := @normalizeLeaseEvents_carried (backfilled old.tables store) _ hevents bundle
      exact ⟨hcarried.schemaVersion, hcarried.latestRevision, hcarried.sessionRevision,
        hcarried.root, hcarried.items, hcarried.leases, hcarried.leaseEvents, hcarried.evidence⟩
  · have hstatements : upgradeStatements old.tables =
        migrationRound 2 ++ [recordBundleSignature] := by
      simp [upgradeStatements, hversion, currentSchema]
    have hhistory : ∀ row ∈ old.tables.migrationHistory, row.migrationId ≠ migrationId 2 :=
      fun row hrow => old.unrecorded row hrow 2 (hversion ▸ Nat.le_refl 2)
    simp only [hstatements, execute_second_round old.noEventRows hhistory, Prod.mk.injEq]
    refine ⟨⟨?_, ?_⟩, ?_⟩
    · rintro ⟨new, _, hverifies, events, hevents, -, -⟩
      exact ⟨old.indexed hversion, fun h => absurd (hversion.symm.trans h) (by decide),
        Option.isSome_iff_exists.mpr ⟨events, hevents⟩, hverifies⟩
    · intro hmeets
      obtain ⟨events, hevents⟩ := Option.isSome_iff_exists.mp hmeets.events
      exact ⟨_, _, hmeets.recoverable, events, hevents, rfl, rfl⟩
    · rintro new ⟨_, -, events, hevents, rfl, -⟩
      exact normalizeLeaseEvents_carried hevents bundle

/-- The carried rows load as the session the older store holds. -/
theorem Carried.loadTables_eq {old new : Tables} (h : Carried old new) {bundle : RecoveryBundle}
    (hone : (activeItemIds (leasePayloads old.leases)).Nodup) (hbundle : bundle.verifies = true) :
    ∃ session, heldSession old = some session ∧ loadTables new bundle = .ok session := by
  obtain ⟨rows, hrows, hnumbered, hevents⟩ := h.leaseEvents
  have hsession : sessionId (old.root.pop "lease_events") = sessionId old.root := by
    simp [sessionId, Dict.textOr]
  have hitems : ∃ items, deriveItemClaimProjection (itemPayloads old.items)
      (leasePayloads old.leases) = .ok items :=
    ⟨_, StoreResult.bind_ok.mpr ⟨(), require_ok.mpr hone, rfl⟩⟩
  obtain ⟨items, hitems⟩ := hitems
  refine ⟨⟨old.root.pop "lease_events", items, leasePayloads old.leases, rows.map (·.payload)⟩,
    by simp [heldSession, hevents, hitems], ?_⟩
  refine StoreResult.bind_ok.mpr ⟨(), require_ok.mpr h.schemaVersion,
    StoreResult.bind_ok.mpr ⟨(), ?_, ?_⟩⟩
  · unfold checkRecoveryBundle verifyRecoveryBundle
    split
    · rfl
    · exact require_ok.mpr hbundle
  · simp only [hrows, h.items, h.leases, hitems, h.root, hsession, hnumbered.mergeSort_filter]
    rfl

/-- No statement of the upgrade touches the recovery bundle. -/
theorem upgradeStatements_files {tables : Tables} {statement : UpgradeStatement}
    (h : statement ∈ upgradeStatements tables) {view view' : Tables}
    {files files' : RecoveryBundle} (hran : statement (view, files) = .ok (view', files')) :
    files' = files := by
  have hview : ∀ {migration : Tables → StoreResult Tables},
      statement = .ofView migration → files' = files := by
    rintro migration rfl
    obtain ⟨_, -, hpair⟩ := StoreResult.map_ok.mp hran
    exact (congrArg Prod.snd hpair).symm
  simp only [upgradeStatements, List.mem_append, List.mem_flatMap, List.mem_singleton] at h
  rcases h with ⟨version, -, hround⟩ | rfl
  · rcases List.mem_append.mp hround with hmigration | hrecord
    · unfold migrations at hmigration
      split at hmigration
      · next statements hstatements =>
        split at hstatements
        · obtain rfl := Option.some.inj hstatements
          obtain ⟨_, -, rfl⟩ := List.mem_map.mp hmigration
          exact hview rfl
        · obtain rfl := Option.some.inj hstatements
          obtain ⟨_, -, rfl⟩ := List.mem_map.mp hmigration
          exact hview rfl
        · cases hstatements
      · rw [List.mem_singleton.mp hmigration] at hran
        cases hran
    · exact hview (List.mem_singleton.mp hrecord)
  · obtain ⟨_, -, hpair⟩ := StoreResult.bind_ok.mp hran
    exact (congrArg Prod.snd (StoreResult.pure_ok.mp hpair)).symm

/-- A store of version 1 or 2 that meets the newer constraints is opened as a store of the
current version: the session it loads and the evidence are those the older store holds. One
that does not is refused. In any run of openers that stop anywhere, the tables are the older
ones until a whole upgrade is committed. -/
theorem openTables_preserves_session (old : OlderStore) (bundle : RecoveryBundle) :
    (MeetsNewConstraints old.tables bundle → ∃ new session,
      openTables old.tables bundle = (new, .ok session) ∧
      heldSession old.tables = some session ∧ Carried old.tables new) ∧
    (¬ MeetsNewConstraints old.tables bundle → ∃ error,
      openTables old.tables bundle = (old.tables, .error error)) ∧
    ∀ database, (upgradeRuns old.tables bundle).Reachable database →
      database.committed = old.tables ∨
        MeetsNewConstraints old.tables bundle ∧ Carried old.tables database.committed := by
  obtain ⟨hiff, hcarried⟩ := old.upgradeSchema_iff bundle
  refine ⟨?_, ?_, ?_⟩
  · intro hmeets
    obtain ⟨new, hnew⟩ := hiff.mpr hmeets
    obtain ⟨session, hheld, hloaded⟩ :=
      (hcarried new hnew).loadTables_eq hmeets.oneActive hmeets.recoverable
    exact ⟨new, session, by simp [openTables, hnew, hloaded], hheld, hcarried new hnew⟩
  · intro hviolates
    cases hupgrade : upgradeSchema old.tables bundle with
    | error error => exact ⟨error, by simp [openTables, hupgrade]⟩
    | ok new => exact absurd (hiff.mp ⟨new, hupgrade⟩) hviolates
  · intro database hreachable
    have hbehind : old.tables.schemaVersion < currentSchema := by
      rcases old.version with h | h <;> simp [h, currentSchema]
    refine (invariant_of_reachable (fun tables => tables = old.tables ∨
      MeetsNewConstraints old.tables bundle ∧ Carried old.tables tables) (· = bundle)
      (.inl rfl) rfl ?_ ?_ hreachable).1
    · rintro _ committed files committed' files' (rfl | ⟨hmeets, hbefore⟩) hfiles hexecute
      · rw [hfiles] at hexecute
        have hupgrade : upgradeSchema old.tables bundle = .ok committed' := by
          rw [upgradeSchema, if_pos hbehind, hexecute]
          rfl
        exact .inr ⟨hiff.mp ⟨committed', hupgrade⟩, hcarried committed' hupgrade⟩
      · -- Another opener finds the current version under the lock.
        have hstatements : upgradeStatements committed = [recordBundleSignature] := by
          simp [upgradeStatements, hbefore.schemaVersion, currentSchema]
        rw [hstatements, execute_cons] at hexecute
        obtain ⟨_, hrecord, hdone⟩ := StoreResult.bind_ok.mp hexecute
        obtain ⟨_, -, hrecord⟩ := StoreResult.bind_ok.mp hrecord
        obtain rfl := StoreResult.pure_ok.mp hrecord
        obtain rfl := (Prod.mk.inj (Except.ok.inj hdone)).1
        exact .inr ⟨hmeets, hbefore.schemaVersion, hbefore.latestRevision, hbefore.sessionRevision,
          hbefore.root, hbefore.items, hbefore.leases, hbefore.leaseEvents, hbefore.evidence⟩
    · intro _ committed _ statement hmem _ view files view' files' hfiles hran
      rw [upgradeStatements_files hmem hran, hfiles]

/-- A reply that a store of version 1 has as evidence only. -/
def recordedReply : RecordedAttempt where
  sideEffectType := "github_reply"
  idempotencyKey := "k"
  status := "succeeded"
  externalUrl := .str "u"

def versionOneEvidence (recordId eventType : String) (payload : Dict) : EvidenceRow where
  record :=
    { recordId := ⟨.str recordId⟩, timestamp := 0, sessionId := "s", itemId := "a"
      leaseId := some "l1", agentId := "agent", role := "fixer", eventType := eventType
      payload := payload, payloadHash := ⟨payload.toValue⟩ }
  committedRevision := 4

def versionOneLease (leaseId itemId : String) (status : LeaseStatus) : LeaseRow where
  lease :=
    { leaseId := leaseId, itemId := itemId, agentId := "agent", role := .fixer, status := status
      createdAt := 0, expiresAt := 1, resumeToken := none, requestHash := "", requestId := none
      requestPath := none, conflictKeys := [] }
  transitionRevision := 2

/-- The tables of a session with two items, two leases, and the two events of its leases. The
second lease holds the item given. -/
def versionOneTables (held : String) : Tables where
  schemaVersion := 1
  latestRevision := 4
  sessionRevision := 4
  root := Dict.ofFields
    [("session_id", .str "s"), ("lease_events", .list [.str "first", .str "second"])]
  items := ((∅ : Rows ItemRow).insert "a" ⟨Dict.ofFields [("state", .str "open")], 1, 4⟩).insert "b"
    ⟨Dict.ofFields [("state", .str "claimed")], 1, 4⟩
  leases := ((∅ : Rows LeaseRow).insert "l1" (versionOneLease "l1" "a" .active)).insert "l2"
    (versionOneLease "l2" held .active)
  leaseEvents := none
  evidence := [versionOneEvidence "r1" "lease_granted" ∅,
    versionOneEvidence "r2" "side_effect_attempt" (Dict.ofFields [("attempt_id", .str "t"),
      ("session_id", .str "s"), ("item_id", .str "a"), ("side_effect_type", .str "github_reply"),
      ("idempotency_key", .str "k"), ("status", .str "succeeded"), ("external_url", .str "u")])]
  outbox := (∅ : Rows OutboxRow).insert "o"
    { sessionId := "s", effectType := "github_resolve", idempotencyKey := "k", plannedRevision := 3
      operationCategory := "github_resolve", status := .planned, attemptCount := 0
      retryBoundary := some .idempotent, errorType := none, externalResultReference := none
      ownerToken := none }
  oneActivePerItem := false
  migrationHistory := [⟨"legacy-v1-to-sqlite-v1", 0, 1⟩]
  legacyBundleSignature := none

def versionOneStore (held : String) : OlderStore where
  tables := versionOneTables held
  version := .inl rfl
  indexed h := absurd h (by simp [versionOneTables])
  ownerless _ commandId row hrow := by
    simp only [versionOneTables, Std.ExtTreeMap.getElem?_insert] at hrow
    split at hrow
    · rw [← Option.some.inj hrow]
    · simp at hrow
  noEventRows := rfl
  unrecorded row hrow version _ hid := by
    rw [List.mem_singleton.mp hrow] at hid
    have hfirst := congrArg (fun id => id.toList.head?) hid
    simp [migrationId] at hfirst

theorem versionOneTables_facts :
    (activeItemIds (leasePayloads (versionOneTables "b").leases)).Nodup ∧
    (∀ row ∈ (versionOneTables "b").evidence, row.record.eventType = "side_effect_attempt" →
      (RecordedAttempt.fromJson row.record.payload).isSome = true) ∧
    missingEffects (versionOneTables "b").evidence (versionOneTables "b").outbox =
      [recordedReply] ∧
    (versionOneTables "b").outbox[recordedReply.commandId]? = none ∧
    ¬ (activeItemIds (leasePayloads (versionOneTables "a").leases)).Nodup ∧
    (heldSession (versionOneTables "b")).map (fun session =>
      (session.items.size, session.leases.size, session.leaseEvents)) =
        some (2, 2, [.str "first", .str "second"]) := by
  decide +kernel

theorem versionOneTables_meet : MeetsNewConstraints (versionOneTables "b") .absent where
  oneActive := versionOneTables_facts.1
  backfillable _ := by
    obtain ⟨-, hreadable, hmissing, hfree, -⟩ := versionOneTables_facts
    constructor
    · exact hreadable
    · intro attempt hattempt
      rw [hmissing, List.mem_singleton] at hattempt
      subst hattempt
      exact ⟨rfl, fun _ => ⟨some "u", rfl⟩⟩
    · simp [hmissing]
    · intro attempt hattempt
      rw [hmissing, List.mem_singleton] at hattempt
      rw [hattempt]
      exact hfree
  events := rfl
  recoverable := rfl

/-- The session of version 1 is loaded as it was held; with two leases on one item the store stays
at version 1. -/
theorem versionOneStore_opens :
    (∃ new session, openTables (versionOneTables "b") .absent = (new, .ok session) ∧
      heldSession (versionOneTables "b") = some session ∧ Carried (versionOneTables "b") new ∧
      session.items.size = 2 ∧ session.leases.size = 2 ∧
      session.leaseEvents = [.str "first", .str "second"]) ∧
    ∃ error, openTables (versionOneTables "a") .absent = (versionOneTables "a", .error error) := by
  obtain ⟨-, -, -, -, htwice, hheld⟩ := versionOneTables_facts
  obtain ⟨hopens, -, -⟩ := openTables_preserves_session (versionOneStore "b") .absent
  obtain ⟨-, hrefused, -⟩ := openTables_preserves_session (versionOneStore "a") .absent
  obtain ⟨new, session, hopened, hsession, hcarried⟩ := hopens versionOneTables_meet
  have hsession : heldSession (versionOneTables "b") = some session := hsession
  rw [hsession] at hheld
  obtain ⟨hitems, hleases, hevents⟩ := by simpa using hheld
  exact ⟨⟨new, session, hopened, hsession, hcarried, hitems, hleases, hevents⟩,
    hrefused fun hmeets => htwice hmeets.oneActive⟩

/-- The store that tables of the current version are, when its lease events are objects. -/
def Tables.store (tables : Tables) : Option Store := do
  let rows ← tables.leaseEvents
  let events ← ((rows.filter (·.sessionId = sessionId tables.root)).mergeSort
    (·.sequence ≤ ·.sequence)).mapM (·.payload.toDict?)
  return { tables.rows with leaseEvents := events }

/-- What the tables load is the snapshot of their store. -/
theorem loadSnapshot_of_loadTables {tables : Tables} {store : Store} {bundle : RecoveryBundle}
    {loaded : LoadedSession} (hstore : tables.store = some store)
    (hloaded : loadTables tables bundle = .ok loaded) :
    ∃ session, loaded.session = some session ∧ loadSnapshot store = .ok session := by
  obtain ⟨rows, hrows, hstore⟩ := Option.bind_eq_some_iff.mp hstore
  obtain ⟨events, hevents, hstore⟩ := Option.bind_eq_some_iff.mp hstore
  obtain rfl := Option.some.inj hstore
  obtain ⟨_, -, hloaded⟩ := StoreResult.bind_ok.mp hloaded
  obtain ⟨_, -, hloaded⟩ := StoreResult.bind_ok.mp hloaded
  simp only [hrows] at hloaded
  obtain ⟨items, hitems, hloaded⟩ := StoreResult.bind_ok.mp hloaded
  obtain rfl := StoreResult.pure_ok.mp hloaded
  refine ⟨⟨tables.root, items, leasePayloads tables.leases, events, [], none⟩, ?_, ?_⟩
  · unfold LoadedSession.session
    rw [List.mapM_map]
    exact (congrArg (Option.map _) hevents).trans rfl
  · exact StoreResult.bind_ok.mpr ⟨items, hitems, rfl⟩

end GhAddressCr.RuntimeStore
