import GhAddressCr.AppendOnlyLog
import GhAddressCr.SessionWrites
import GhAddressCr.StoreInitialization
import GhAddressCr.TransitionSystem

/-!
# Operations of the store

Everything that commits to the database, from its creation on: initialization, transactions of
the whole session or of a working set, replacements, and the transitions of the outbox. An
operation that raises is rolled back.
-/
namespace GhAddressCr.RuntimeStore

open SideEffectOutbox

/-- An operation on a store that may not be initialized yet. -/
inductive StoreOperation where
  | bootstrap (payload : Session) (evidence : List EvidenceRecord)
  | openOrMigrate (legacy : LegacyInput)
  | transact (mutation : Mutation Unit) (expected : Option Nat) (evidence : List EvidenceRecord)
      (outbox : List OutboxCommand)
  | replace (payload : Session) (expected : Option Nat) (evidence : List EvidenceRecord)
      (outbox : List OutboxCommand)
  | transactWorkingSet (request : WorkingSetRequest) (mutation : Mutation Unit)
      (expected : Option Nat) (evidence : List EvidenceRecord) (outbox : List OutboxCommand)
  | markOutboxInFlight (commandId : String) (ownerToken : Option String)
      (evidence : List EvidenceRecord)
  | recordOutboxResult (commandId : String) (result : OutboxResult)
      (evidence : List EvidenceRecord) (ownerToken : Option String)
  | recoverOutbox (dead : List InFlightCommand)

namespace StoreOperation

/-- The operation on an initialized store. -/
def applyTo (store : Store) : StoreOperation → StoreResult Store
  -- Another writer initialized the store: the transaction is rolled back.
  | .bootstrap _ _ | .openOrMigrate _ => .ok store
  | .transact mutation expected evidence outbox =>
      (RuntimeStore.transact store mutation expected evidence outbox).map (·.1)
  | .replace payload expected evidence outbox =>
      (RuntimeStore.replace store payload expected evidence outbox).map (·.1)
  | .transactWorkingSet request mutation expected evidence outbox =>
      (RuntimeStore.transactWorkingSet store request mutation expected evidence outbox).map (·.1)
  | .markOutboxInFlight commandId ownerToken evidence =>
      (SideEffectOutbox.markOutboxInFlight store commandId ownerToken evidence).map (·.1)
  | .recordOutboxResult commandId result evidence ownerToken =>
      (SideEffectOutbox.recordOutboxResult store commandId result evidence ownerToken).map (·.1)
  | .recoverOutbox dead => (demoteDead store dead).map (·.1)

/-- The operation on a database without a schema. -/
def create : StoreOperation → StoreResult Store
  | .bootstrap payload evidence => createStore payload evidence
  | .openOrMigrate legacy => importLegacy legacy
  | _ => .error (.persistenceInvalid "Runtime schema metadata is unavailable.")

def apply (store : Option Store) (operation : StoreOperation) : StoreResult Store :=
  match store with
  | none => operation.create
  | some store => operation.applyTo store

/-- An operation that returns has committed, unless it found nothing to do. -/
def writes : Option Store → StoreOperation → Bool
  | some _, .bootstrap _ _ | some _, .openOrMigrate _ => false
  | some store, .recoverOutbox dead => dead.foldl demote store.outbox ≠ store.outbox
  | _, _ => true

/-- What is committed after the operation, which may have raised. -/
def after (store : Option Store) (operation : StoreOperation) : Option Store :=
  match operation.apply store with
  | .ok committed => some committed
  | .error _ => store

/-- The session a mutation leaves, where it is reached. -/
def mutated (session : StoreResult Session) (mutation : Mutation Unit) : Option Session :=
  match session with
  | .ok session =>
      match mutation session with
      | .ok (session, _) => some session
      | .error _ => none
  | .error _ => none

def pendingOf (session : Option Session) : List EvidenceRecord :=
  (session.map (·.pendingEvidence)).getD []

/-- The records the transaction of the operation appends. -/
def records (store : Option Store) (operation : StoreOperation) : List EvidenceRecord :=
  match store, operation with
  | none, .bootstrap _ evidence => evidence
  | none, .openOrMigrate legacy => legacy.evidence.getD []
  | some store, .transact mutation _ evidence _ =>
      evidence ++ pendingOf (mutated (loadSnapshot store) mutation)
  | some _, .replace payload _ evidence _ => evidence ++ payload.pendingEvidence
  | some store, .transactWorkingSet request mutation _ evidence _ =>
      evidence ++ pendingOf (mutated ((loadWorkingSet store request).map (·.session)) mutation)
  | some _, .markOutboxInFlight _ _ evidence => evidence
  | some _, .recordOutboxResult _ _ evidence _ => evidence
  | _, _ => []

end StoreOperation

/-- The database over any number of operations. -/
def storeRuns : TransitionSystem (Option Store) StoreOperation :=
  .ofNext (· = none) fun store operation => some (operation.after store)

def evidenceOf (store : Option Store) : List EvidenceRow := (store.map (·.evidence)).getD []

/-- The evidence grew by these records. -/
abbrev EvidenceGrows (before : List EvidenceRow) (records : List EvidenceRecord)
    (after : List EvidenceRow) : Prop :=
  (∃ added, after = before ++ added) ∧
    AppendOnlyLog.Grows EvidenceRecord.recordId (before.map (·.record)) records
      (after.map (·.record))

/-- Each record identifier is of one committed record. -/
abbrev EvidenceKeyed (evidence : List EvidenceRow) : Prop :=
  AppendOnlyLog.Keyed EvidenceRecord.recordId (evidence.map (·.record))

theorem writeEvidenceRecord_write {rows rows' : List EvidenceRow} {record : EvidenceRecord}
    {revision : Nat} (h : writeEvidenceRecord rows record revision = .ok rows') :
    AppendOnlyLog.write EvidenceRecord.recordId (rows.map (·.record)) record =
      some (rows'.map (·.record)) := by
  unfold writeEvidenceRecord at h
  obtain ⟨_, -, h⟩ := StoreResult.bind_ok.mp h
  have hfind : (rows.map (·.record)).find? (fun existing => existing.recordId = record.recordId) =
      (rows.find? (·.record.recordId == record.recordId)).map (·.record) := by
    rw [List.find?_map]
    rfl
  unfold AppendOnlyLog.write
  rw [hfind]
  split at h
  · next existing hexisting =>
    obtain ⟨_, hsame, h⟩ := StoreResult.bind_ok.mp h
    obtain rfl := StoreResult.pure_ok.mp h
    have hsame := require_ok.mp hsame
    simp [hexisting, hsame]
  · next hnone =>
    obtain rfl := StoreResult.pure_ok.mp h
    simp [hnone]

theorem foldlM_writeEvidenceRecord_write {records : List EvidenceRecord}
    {rows rows' : List EvidenceRow} {revision : Nat}
    (h : records.foldlM (fun rows record => writeEvidenceRecord rows record revision) rows =
      .ok rows') :
    records.foldlM (AppendOnlyLog.write EvidenceRecord.recordId) (rows.map (·.record)) =
      some (rows'.map (·.record)) := by
  induction records generalizing rows with
  | nil =>
      obtain rfl : rows = rows' := by simpa using h
      rfl
  | cons record records ih =>
      rw [List.foldlM_cons] at h
      obtain ⟨middle, hmiddle, hrest⟩ := StoreResult.bind_ok.mp h
      rw [List.foldlM_cons, writeEvidenceRecord_write hmiddle]
      exact ih hrest

theorem evidenceGrows_of_foldlM {records : List EvidenceRecord} {rows rows' : List EvidenceRow}
    {revision : Nat} (hkeyed : EvidenceKeyed rows)
    (h : records.foldlM (fun rows record => writeEvidenceRecord rows record revision) rows =
      .ok rows') :
    EvidenceGrows rows records rows' := by
  obtain ⟨⟨added, hadded, -⟩, -⟩ := foldlM_writeEvidenceRecord_ok h
  exact ⟨⟨added, hadded⟩,
    AppendOnlyLog.writeAll_grows hkeyed (foldlM_writeEvidenceRecord_write h)⟩

theorem evidenceGrows_of_writeEvidence {store store' : Store} {records : List EvidenceRecord}
    {revision : Nat} (hkeyed : EvidenceKeyed store.evidence)
    (h : writeEvidence store records revision = .ok store') :
    EvidenceGrows store.evidence records store'.evidence := by
  unfold writeEvidence at h
  obtain ⟨rows, hrows, h⟩ := StoreResult.bind_ok.mp h
  obtain rfl := StoreResult.pure_ok.mp h
  exact evidenceGrows_of_foldlM hkeyed hrows

theorem evidenceGrows_nil {evidence : List EvidenceRow} (hkeyed : EvidenceKeyed evidence) :
    EvidenceGrows evidence [] evidence :=
  ⟨⟨[], by simp⟩, .refl hkeyed⟩

theorem commitSession_evidence {store committed : Store} {session : Session}
    {evidence : List EvidenceRecord} {outbox : List OutboxCommand} {revision : Nat}
    (hkeyed : EvidenceKeyed store.evidence)
    (h : commitSession store session evidence outbox revision = .ok committed) :
    EvidenceGrows store.evidence (evidence ++ session.pendingEvidence) committed.evidence := by
  obtain ⟨written, added, final, hwritten, hevidence, hfinal, rfl⟩ := commitSession_ok h
  have hsame := (writeSession_ok hwritten).2.1
  rw [← hsame] at hkeyed ⊢
  have hgrows := evidenceGrows_of_writeEvidence hkeyed hevidence
  unfold writeOutbox at hfinal
  obtain ⟨rows, -, hfinal⟩ := StoreResult.bind_ok.mp hfinal
  obtain rfl := StoreResult.pure_ok.mp hfinal
  exact hgrows

theorem commitOutbox_evidence {store committed : Store} {rows : Rows OutboxRow}
    {evidence : List EvidenceRecord} {commit : OutboxCommit}
    (hkeyed : EvidenceKeyed store.evidence)
    (h : commitOutbox store rows evidence = .ok (committed, commit)) :
    EvidenceGrows store.evidence evidence committed.evidence := by
  unfold commitOutbox at h
  obtain ⟨written, hwritten, h⟩ := StoreResult.bind_ok.mp h
  obtain ⟨rfl, -⟩ := Prod.mk.inj (StoreResult.pure_ok.mp h)
  have hgrows : EvidenceGrows store.evidence evidence written.evidence :=
    @evidenceGrows_of_writeEvidence { store with outbox := rows } _ _ _ hkeyed hwritten
  exact hgrows

theorem createStore_evidence {payload : Session} {evidence : List EvidenceRecord} {store : Store}
    (h : createStore payload evidence = .ok store) : EvidenceGrows [] evidence store.evidence := by
  obtain ⟨-, -, -, -, hrows⟩ := createStore_ok h
  exact evidenceGrows_of_foldlM List.nodup_nil hrows

theorem StoreOperation.create_evidence {operation : StoreOperation} {committed : Store}
    (h : operation.create = .ok committed) :
    EvidenceGrows [] (operation.records none) committed.evidence := by
  cases operation with
  | bootstrap payload evidence => exact createStore_evidence h
  | openOrMigrate legacy =>
      obtain ⟨payload, evidence, created, rows, -, hevidence, hcreated, rfl⟩ := importLegacy_ok h
      have hgrows := createStore_evidence hcreated
      simpa [StoreOperation.records, hevidence] using hgrows
  | transact mutation expected evidence outbox => cases h
  | replace payload expected evidence outbox => cases h
  | transactWorkingSet request mutation expected evidence outbox => cases h
  | markOutboxInFlight commandId ownerToken evidence => cases h
  | recordOutboxResult commandId result evidence ownerToken => cases h
  | recoverOutbox dead => cases h

theorem StoreOperation.applyTo_evidence {store committed : Store} {operation : StoreOperation}
    (hkeyed : EvidenceKeyed store.evidence) (h : operation.applyTo store = .ok committed) :
    EvidenceGrows store.evidence (operation.records (some store)) committed.evidence := by
  cases operation with
  | bootstrap payload evidence =>
      obtain rfl := Except.ok.inj h
      exact evidenceGrows_nil hkeyed
  | openOrMigrate legacy =>
      obtain rfl := Except.ok.inj h
      exact evidenceGrows_nil hkeyed
  | transact mutation expected evidence outbox =>
      obtain ⟨result, htransact⟩ := StoreResult.map_fst_ok h
      obtain ⟨current, session, hcurrent, -, hmutation, hcommit, -, -⟩ := transact_ok htransact
      have hrecords : StoreOperation.records (some store)
          (.transact mutation expected evidence outbox) = evidence ++ session.pendingEvidence := by
        simp [StoreOperation.records, mutated, hcurrent, hmutation, pendingOf]
      rw [hrecords]
      exact commitSession_evidence hkeyed hcommit
  | replace payload expected evidence outbox =>
      obtain ⟨revision, hreplace⟩ := StoreResult.map_fst_ok h
      obtain ⟨-, hcommit, -⟩ := replace_ok hreplace
      exact commitSession_evidence hkeyed hcommit
  | transactWorkingSet request mutation expected evidence outbox =>
      obtain ⟨result, htransact⟩ := StoreResult.map_fst_ok h
      obtain ⟨current, session, written, added, final, hcurrent, -, hmutation, hwritten, hevidence,
        hfinal, rfl, -⟩ := transactWorkingSet_ok htransact
      have hrecords : StoreOperation.records (some store)
          (.transactWorkingSet request mutation expected evidence outbox) =
            evidence ++ session.pendingEvidence := by
        simp [StoreOperation.records, mutated, hcurrent, hmutation, pendingOf, Except.map]
      have hsame := (writeWorkingSet_ok hwritten).2
      rw [← hsame] at hkeyed ⊢
      rw [hrecords]
      have hgrows := evidenceGrows_of_writeEvidence hkeyed hevidence
      unfold writeOutbox at hfinal
      obtain ⟨rows, -, hfinal⟩ := StoreResult.bind_ok.mp hfinal
      obtain rfl := StoreResult.pure_ok.mp hfinal
      exact hgrows
  | markOutboxInFlight commandId ownerToken evidence =>
      obtain ⟨commit, hmark⟩ := StoreResult.map_fst_ok h
      obtain ⟨row, -, -, hcommit⟩ := markOutboxInFlight_ok hmark
      exact commitOutbox_evidence hkeyed hcommit
  | recordOutboxResult commandId result evidence ownerToken =>
      obtain ⟨commit, hrecord⟩ := StoreResult.map_fst_ok h
      obtain ⟨-, row, -, -, hcommit⟩ := recordOutboxResult_ok hrecord
      exact commitOutbox_evidence hkeyed hcommit
  | recoverOutbox dead =>
      obtain ⟨commit, hdemote⟩ := StoreResult.map_fst_ok h
      cases commit with
      | none =>
          obtain ⟨rfl, -⟩ := demoteDead_none hdemote
          exact evidenceGrows_nil hkeyed
      | some commit => exact commitOutbox_evidence hkeyed (demoteDead_commit hdemote)

theorem StoreOperation.apply_evidence {store : Option Store} {committed : Store}
    {operation : StoreOperation} (hkeyed : EvidenceKeyed (evidenceOf store))
    (h : operation.apply store = .ok committed) :
    EvidenceGrows (evidenceOf store) (operation.records store) committed.evidence := by
  cases store with
  | none => exact create_evidence h
  | some store => exact applyTo_evidence hkeyed h

/-- An operation that found nothing to do leaves the store as it is. -/
theorem StoreOperation.apply_of_not_writes {store : Option Store} {before committed : Store}
    {operation : StoreOperation} (h : operation.apply store = .ok committed)
    (hbefore : store = some before) (hnothing : operation.writes store = false) :
    committed = before := by
  subst hbefore
  cases operation with
  | bootstrap payload evidence => exact (Except.ok.inj h).symm
  | openOrMigrate legacy => exact (Except.ok.inj h).symm
  | transact mutation expected evidence outbox => cases hnothing
  | replace payload expected evidence outbox => cases hnothing
  | transactWorkingSet request mutation expected evidence outbox => cases hnothing
  | markOutboxInFlight commandId ownerToken evidence => cases hnothing
  | recordOutboxResult commandId result evidence ownerToken => cases hnothing
  | recoverOutbox dead =>
      obtain ⟨commit, hdemote⟩ := StoreResult.map_fst_ok h
      cases commit with
      | none => exact (demoteDead_none hdemote).1
      | some commit =>
          have hchanged := demoteDead_changed hdemote
          simp [StoreOperation.writes, hchanged] at hnothing

theorem StoreOperation.after_evidence {store : Option Store} (operation : StoreOperation)
    (hkeyed : EvidenceKeyed (evidenceOf store)) :
    EvidenceKeyed (evidenceOf (operation.after store)) ∧
      ∃ added, evidenceOf (operation.after store) = evidenceOf store ++ added := by
  unfold StoreOperation.after
  cases h : operation.apply store with
  | error error => exact ⟨hkeyed, [], by simp⟩
  | ok committed =>
      obtain ⟨hadded, hgrows⟩ := apply_evidence hkeyed h
      exact ⟨hgrows.keyed, hadded⟩

theorem evidenceKeyed_of_reachable {store : Option Store} (h : storeRuns.Reachable store) :
    EvidenceKeyed (evidenceOf store) := by
  refine h.invariant (fun store => EvidenceKeyed (evidenceOf store)) ?_ ?_
  · rintro store rfl
    exact List.nodup_nil
  · intro store operation store' hkeyed hstep
    obtain rfl := Option.some.inj hstep
    exact (operation.after_evidence hkeyed).1

theorem foldl_after_evidence (operations : List StoreOperation) {store : Option Store}
    (hkeyed : EvidenceKeyed (evidenceOf store)) :
    ∃ added, evidenceOf (operations.foldl StoreOperation.after store) =
      evidenceOf store ++ added := by
  induction operations generalizing store with
  | nil => exact ⟨[], by simp⟩
  | cons operation operations ih =>
      obtain ⟨hkeyed', added, hadded⟩ := operation.after_evidence hkeyed
      obtain ⟨rest, hrest⟩ := ih hkeyed'
      exact ⟨added ++ rest, by rw [List.foldl_cons, hrest, hadded, List.append_assoc]⟩

/-- Committed evidence rows stay as they are and where they are. A transaction adds rows only
for records whose identifiers are free, and one that takes the identifier of another record
commits nothing. -/
theorem evidence_append_only {store : Option Store} (h : storeRuns.Reachable store) :
    (∀ operations : List StoreOperation,
      ∃ added, evidenceOf (operations.foldl StoreOperation.after store) =
        evidenceOf store ++ added) ∧
    (∀ (operation : StoreOperation) (committed : Store),
      operation.apply store = .ok committed →
      ∃ added, committed.evidence = evidenceOf store ++ added ∧
        (∀ row ∈ added, row.record ∈ operation.records store ∧
          ∀ existing ∈ evidenceOf store, existing.record.recordId ≠ row.record.recordId) ∧
        ∀ record ∈ operation.records store, ∃ row ∈ committed.evidence, row.record = record) ∧
    ∀ (operation : StoreOperation) (record : EvidenceRecord) (existing : EvidenceRow),
      record ∈ operation.records store → existing ∈ evidenceOf store →
      existing.record.recordId = record.recordId → existing.record ≠ record →
      (∃ error, operation.apply store = .error error) ∧ operation.after store = store := by
  have hkeyed := evidenceKeyed_of_reachable h
  refine ⟨fun operations => foldl_after_evidence operations hkeyed, ?_, ?_⟩
  · intro operation committed hcommitted
    obtain ⟨⟨added, hadded⟩, hgrows⟩ := StoreOperation.apply_evidence hkeyed hcommitted
    refine ⟨added, hadded, fun row hrow => ?_, fun record hrecord => ?_⟩
    · obtain ⟨records, hrecords, hfree⟩ := hgrows.added
      have hsame : added.map (·.record) = records := by
        rw [hadded, List.map_append] at hrecords
        exact List.append_cancel_left hrecords
      obtain ⟨hmem, hkeys⟩ := hfree row.record (by rw [← hsame]; exact List.mem_map_of_mem hrow)
      exact ⟨hmem, fun existing hexisting => hkeys _ (List.mem_map_of_mem hexisting)⟩
    · exact List.mem_map.mp (hgrows.holds record hrecord)
  · intro operation record existing hrecord hexisting hkey hne
    have hfails : ∀ committed, operation.apply store ≠ .ok committed := by
      intro committed hcommitted
      obtain ⟨⟨added, hadded⟩, hgrows⟩ := StoreOperation.apply_evidence hkeyed hcommitted
      refine hne (List.inj_on_of_nodup_map hgrows.keyed ?_ (hgrows.holds record hrecord) hkey)
      exact hgrows.mem (List.mem_map_of_mem hexisting)
    cases happly : operation.apply store with
    | ok committed => exact absurd happly (hfails committed)
    | error error => exact ⟨⟨error, rfl⟩, by rw [StoreOperation.after, happly]⟩

/-- A new session, and the record that its item was observed. -/
def observedRecord : EvidenceRecord :=
  EvidenceRecord.new "octo/example#7" "item" none "runtime" "intake" "finding_observed" ∅ 0

def openedSession : Session where
  root := Dict.ofFields [("session_id", .str "octo/example#7")]
  items := ∅
  leases := ∅
  leaseEvents := []

def openedStore : Option Store :=
  (StoreOperation.bootstrap openedSession [observedRecord]).after none

theorem openedStore_reachable : storeRuns.Reachable openedStore :=
  .next (.start rfl) rfl

/-- A transaction that gives the record another agent, under its identifier, is refused. -/
theorem evidence_append_only_forged :
    ∃ error, (StoreOperation.transact (fun session => .ok (session, ())) none
      [{ observedRecord with agentId := "other" }] []).apply openedStore = .error error := by
  have hexisting : (⟨observedRecord, 1⟩ : EvidenceRow) ∈ evidenceOf openedStore := by
    decide +kernel
  have hrecord : { observedRecord with agentId := "other" } ∈
      StoreOperation.records openedStore (.transact (fun session => .ok (session, ())) none
        [{ observedRecord with agentId := "other" }] []) := by
    decide +kernel
  obtain ⟨-, -, hforged⟩ := evidence_append_only openedStore_reachable
  exact (hforged _ _ _ hrecord hexisting rfl (by decide)).1

/-- `store_metadata.latest_revision` and `sessions.revision`; both zero before the store is
initialized. -/
def counters (store : Option Store) : Nat × Nat :=
  (store.map fun store => (store.latestRevision, store.sessionRevision)).getD (0, 0)

/-- The mutation of a working set leaves the session its id. -/
def StoreOperation.keepsSession (store : Option Store) : StoreOperation → Bool
  | .transactWorkingSet request mutation _ _ _ =>
      store.all fun store =>
        (mutated ((loadWorkingSet store request).map (·.session)) mutation).all fun session =>
          sessionId session.root == sessionId store.root
  | _ => true

theorem StoreOperation.create_counters {operation : StoreOperation} {committed : Store}
    (h : operation.create = .ok committed) : counters (some committed) = (1, 1) := by
  cases operation with
  | bootstrap payload evidence =>
      obtain ⟨hlatest, hsession, -⟩ := createStore_ok h
      simp [counters, hlatest, hsession]
  | openOrMigrate legacy =>
      obtain ⟨payload, evidence, created, rows, -, -, hcreated, rfl⟩ := importLegacy_ok h
      obtain ⟨hlatest, hsession, -⟩ := createStore_ok hcreated
      simp [counters, hlatest, hsession]
  | transact mutation expected evidence outbox => cases h
  | replace payload expected evidence outbox => cases h
  | transactWorkingSet request mutation expected evidence outbox => cases h
  | markOutboxInFlight commandId ownerToken evidence => cases h
  | recordOutboxResult commandId result evidence ownerToken => cases h
  | recoverOutbox dead => cases h

theorem Follows.counters {store committed : Store} (h : Follows store committed)
    (hagree : store.sessionRevision = store.latestRevision) :
    RuntimeStore.counters (some committed) =
      (store.latestRevision + 1, store.sessionRevision + 1) := by
  simp [RuntimeStore.counters, h.session, h.latest, hagree]

theorem commitOutbox_follows {store committed : Store} {rows : Rows OutboxRow}
    {evidence : List EvidenceRecord} {commit : OutboxCommit}
    (h : commitOutbox store rows evidence = .ok (committed, commit)) : Follows store committed := by
  obtain ⟨⟨added, rfl⟩, -, -⟩ := commitOutbox_ok h
  exact ⟨rfl, rfl, added, rfl⟩

theorem StoreOperation.applyTo_follows {store committed : Store} {operation : StoreOperation}
    (hagree : store.sessionRevision = store.latestRevision)
    (hkeeps : operation.keepsSession (some store) = true)
    (h : operation.applyTo store = .ok committed) :
    if operation.writes (some store) then Follows store committed else committed = store := by
  cases operation with
  | bootstrap payload evidence => exact (Except.ok.inj h).symm
  | openOrMigrate legacy => exact (Except.ok.inj h).symm
  | transact mutation expected evidence outbox =>
      obtain ⟨result, htransact⟩ := StoreResult.map_fst_ok h
      obtain ⟨current, session, -, -, -, hcommit, -, -⟩ := transact_ok htransact
      rw [hagree] at hcommit
      exact commitSession_follows rfl hcommit
  | replace payload expected evidence outbox =>
      obtain ⟨revision, hreplace⟩ := StoreResult.map_fst_ok h
      obtain ⟨-, hcommit, -⟩ := replace_ok hreplace
      exact commitSession_follows rfl hcommit
  | transactWorkingSet request mutation expected evidence outbox =>
      obtain ⟨result, htransact⟩ := StoreResult.map_fst_ok h
      obtain ⟨current, session, written, added, final, hcurrent, -, hmutation, hwritten, -, hfinal,
        rfl, -⟩ := transactWorkingSet_ok htransact
      have hsame : sessionId session.root = sessionId store.root := by
        simpa [StoreOperation.keepsSession, mutated, hcurrent, hmutation, Except.map] using hkeeps
      have hsession := writeWorkingSet_sessionRevision hsame hwritten
      unfold writeOutbox at hfinal
      obtain ⟨rows, -, hfinal⟩ := StoreResult.bind_ok.mp hfinal
      obtain rfl := StoreResult.pure_ok.mp hfinal
      rw [hagree] at hsession ⊢
      exact ⟨rfl, hsession, added, rfl⟩
  | markOutboxInFlight commandId ownerToken evidence =>
      obtain ⟨commit, hmark⟩ := StoreResult.map_fst_ok h
      obtain ⟨row, -, -, hcommit⟩ := markOutboxInFlight_ok hmark
      exact commitOutbox_follows hcommit
  | recordOutboxResult commandId result evidence ownerToken =>
      obtain ⟨commit, hrecord⟩ := StoreResult.map_fst_ok h
      obtain ⟨-, row, -, -, hcommit⟩ := recordOutboxResult_ok hrecord
      exact commitOutbox_follows hcommit
  | recoverOutbox dead =>
      obtain ⟨commit, hdemote⟩ := StoreResult.map_fst_ok h
      cases commit with
      | none =>
          obtain ⟨rfl, hsame⟩ := demoteDead_none hdemote
          simp [StoreOperation.writes, hsame]
      | some commit =>
          have hcommit := demoteDead_commit hdemote
          have hchanged := demoteDead_changed hdemote
          rw [StoreOperation.writes, if_pos (by simpa using hchanged)]
          exact commitOutbox_follows hcommit

theorem StoreOperation.apply_counters {store : Option Store} {committed : Store}
    {operation : StoreOperation} (hagree : (counters store).1 = (counters store).2)
    (hkeeps : operation.keepsSession store = true)
    (h : operation.apply store = .ok committed) :
    counters (some committed) =
      if operation.writes store then ((counters store).1 + 1, (counters store).2 + 1)
      else counters store := by
  cases store with
  | none =>
      rw [create_counters h]
      cases operation <;> rfl
  | some store =>
      have hfollows := applyTo_follows hagree.symm hkeeps h
      split at hfollows
      · next hwrites =>
        rw [if_pos hwrites, hfollows.counters hagree.symm]
        rfl
      · next hnothing => rw [if_neg hnothing, hfollows]

end GhAddressCr.RuntimeStore
