import GhAddressCr.WorkingSetRefinement

/-!
# Failures around a commit

The calls by which commands write a session, with a failure of the environment at any of
their stages: a lock that stays busy, a full disk, an interrupted write of the projections.
A stage before COMMIT rolls back when it fails. The projections are written after it.
-/
namespace GhAddressCr.CommitFailures

open RuntimeStore

/-- Where a call can fail besides the checks of its transaction. -/
inductive Stage where
  /-- `is_initialized`. -/
  | initialized
  | connect | begin | validateSchema | load | writeSession | writeEvidence | writeOutbox
  | advanceRevision
  /-- `_committed_view`. -/
  | committedView
  | commit
  /-- `materialize_compatibility_artifacts` or `materialize_evidence_artifacts`. -/
  | materialize
  deriving DecidableEq, Repr

/-- What the environment raises at each stage. -/
abbrev Faults := Stage → Option StoreError

def Faults.check (faults : Faults) (stage : Stage) : StoreResult Unit :=
  match faults stage with
  | some error => .error error
  | none => .ok ()

/-- What a call leaves: the canonical store, and its result or exception. -/
structure Call where
  store : Store
  result : StoreResult Unit

/-- A call of the store's write operations. -/
inductive Operation (V : Type) where
  /-- `save_session`. -/
  | save (payload : Session)
  /-- `transact_session`. -/
  | transact (mutation : Mutation V) (expected : Option Nat) (evidence : List EvidenceRecord)
      (outbox : List OutboxCommand)
  /-- `transact_working_set`. -/
  | workingSet (request : WorkingSetRequest) (mutation : Mutation V) (expected : Option Nat)
      (evidence : List EvidenceRecord) (outbox : List OutboxCommand)

section Calls

variable (store : Store) (faults : Faults)

/-- `BEGIN IMMEDIATE` on a connection of its own. -/
def openTransaction : StoreResult Unit := do
  faults.check .connect
  faults.check .begin
  faults.check .validateSchema

/-- The records, and the revision, that every transaction writes last. -/
def writeTail (written : Store) (evidence : List EvidenceRecord) (outbox : List OutboxCommand)
    (revision : Nat) : StoreResult Store := do
  let written ← writeEvidence written evidence revision
  faults.check .writeEvidence
  let written ← writeOutbox written outbox revision
  faults.check .writeOutbox
  faults.check .advanceRevision
  return advanceRevision written revision

/-- `save_session` up to its commit. -/
def saveToCommit (payload : Session) : StoreResult Store := do
  faults.check .initialized
  match payload.revision with
  | none => .error (.raised "UNVERSIONED_SESSION_WRITE")
  | some token =>
      openTransaction faults
      checkRevision (some token) store.latestRevision
      let revision := store.latestRevision + 1
      let written ← writeSession store payload revision
      faults.check .writeSession
      let committed ← writeTail faults written payload.pendingEvidence [] revision
      faults.check .commit
      return committed

/-- `transact_session` up to its commit. -/
def transactToCommit {V : Type} (mutation : Mutation V) (expected : Option Nat)
    (evidence : List EvidenceRecord) (outbox : List OutboxCommand) : StoreResult Store := do
  faults.check .initialized
  openTransaction faults
  faults.check .load
  let current ← loadSnapshot store
  checkRevision expected store.sessionRevision
  let (session, _) ← runMutation mutation current
  let revision := store.sessionRevision + 1
  let written ← writeSession store session revision
  faults.check .writeSession
  let committed ← writeTail faults written (evidence ++ session.pendingEvidence) outbox revision
  faults.check .committedView
  let _ ← committedView session
  faults.check .commit
  return committed

/-- `transact_working_set` up to its commit; the session as the mutation left it. -/
def workingSetToCommit {V : Type} (request : WorkingSetRequest) (mutation : Mutation V)
    (expected : Option Nat) (evidence : List EvidenceRecord) (outbox : List OutboxCommand) :
    StoreResult (Store × Session) := do
  faults.check .initialized
  openTransaction faults
  faults.check .load
  let current ← loadWorkingSet store request
  checkRevision expected store.sessionRevision
  let (session, _) ← runMutation mutation current.session
  let revision := store.sessionRevision + 1
  let written ← writeWorkingSet store session current.storedItems current.storedLeases revision
  faults.check .writeSession
  let committed ← writeTail faults written (evidence ++ session.pendingEvidence) outbox revision
  faults.check .commit
  return (committed, session)

/-- What follows the commit in `transact_working_set`. -/
def afterWorkingSet (session : Session) : StoreResult Unit := do
  faults.check .committedView
  let _ ← committedView session
  faults.check .materialize

/-- The committed store, and how the rest of the call ends. -/
def Operation.toCommit {V : Type} : Operation V → StoreResult (Store × StoreResult Unit)
  | .save payload =>
      (saveToCommit store faults payload).map fun committed =>
        (committed, faults.check .materialize)
  | .transact mutation expected evidence outbox =>
      (transactToCommit store faults mutation expected evidence outbox).map fun committed =>
        (committed, faults.check .materialize)
  | .workingSet request mutation expected evidence outbox =>
      (workingSetToCommit store faults request mutation expected evidence outbox).map
        fun committed => (committed.1, afterWorkingSet faults committed.2)

/-- The whole call. A projection that fails is marked in a table of its own. -/
def Operation.run {V : Type} (operation : Operation V) : Call :=
  match operation.toCommit store faults with
  | .error error => ⟨store, .error error⟩
  | .ok (committed, after) => ⟨committed, after⟩

end Calls

/-- The stages of a call before its commit, and the commit. -/
def Operation.stagesToCommit {V : Type} : Operation V → List Stage
  | .save _ => [.initialized, .connect, .begin, .validateSchema, .writeSession, .writeEvidence,
      .writeOutbox, .advanceRevision, .commit]
  | .transact .. => [.initialized, .connect, .begin, .validateSchema, .load, .writeSession,
      .writeEvidence, .writeOutbox, .advanceRevision, .committedView, .commit]
  | .workingSet .. => [.initialized, .connect, .begin, .validateSchema, .load, .writeSession,
      .writeEvidence, .writeOutbox, .advanceRevision, .commit]

/-- The stages of a call after its commit. -/
def Operation.stagesAfterCommit {V : Type} : Operation V → List Stage
  | .save _ | .transact .. => [.materialize]
  | .workingSet .. => [.committedView, .materialize]

/-- The transaction's own checks accept the write. -/
def Operation.Accepted {V : Type} (store : Store) : Operation V → Prop
  | .save payload => ∃ token, payload.revision = some token ∧
      (replace store payload (some token)).isOk = true
  | .transact mutation expected evidence outbox =>
      (RuntimeStore.transact store mutation expected evidence outbox).isOk = true
  | .workingSet request mutation expected evidence outbox =>
      (transactWorkingSet store request mutation expected evidence outbox).isOk = true

section Proofs

variable {store : Store} {faults : Faults}

theorem Faults.check_ok {stage : Stage} {u : Unit} :
    faults.check stage = .ok u ↔ faults stage = none := by
  unfold Faults.check
  cases faults stage <;> simp

theorem Faults.check_isOk {stage : Stage} :
    (faults.check stage).isOk = true ↔ faults stage = none := by
  unfold Faults.check
  cases faults stage <;> simp [Except.isOk, Except.toBool]

theorem openTransaction_ok {u : Unit} : openTransaction faults = .ok u ↔
    faults .connect = none ∧ faults .begin = none ∧ faults .validateSchema = none := by
  simp [openTransaction, StoreResult.bind_ok, Faults.check_ok]

theorem writeTail_ok {written committed : Store} {evidence : List EvidenceRecord}
    {outbox : List OutboxCommand} {revision : Nat} :
    writeTail faults written evidence outbox revision = .ok committed ↔
      (faults .writeEvidence = none ∧ faults .writeOutbox = none ∧
        faults .advanceRevision = none) ∧
        writeRecords written evidence outbox revision = .ok committed := by
  simp only [writeTail, writeRecords, StoreResult.bind_ok, Faults.check_ok, exists_const]
  constructor
  · rintro ⟨middle, hevidence, hfault, final, houtbox, hfault', hfault'', hcommitted⟩
    exact ⟨⟨hfault, hfault', hfault''⟩, middle, hevidence, final, houtbox, hcommitted⟩
  · rintro ⟨⟨hfault, hfault', hfault''⟩, middle, hevidence, final, houtbox, hcommitted⟩
    exact ⟨middle, hevidence, hfault, final, houtbox, hfault', hfault'', hcommitted⟩

theorem commitSession_eq (store : Store) (session : Session) (evidence : List EvidenceRecord)
    (outbox : List OutboxCommand) (revision : Nat) :
    commitSession store session evidence outbox revision =
      writeSession store session revision >>= fun written =>
        writeRecords written (evidence ++ session.pendingEvidence) outbox revision :=
  rfl

theorem saveToCommit_ok {V : Type} {payload : Session} {committed : Store} :
    saveToCommit store faults payload = .ok committed ↔
      (∀ stage ∈ (Operation.save payload : Operation V).stagesToCommit, faults stage = none) ∧
        ∃ token, payload.revision = some token ∧
          replace store payload (some token) = .ok (committed, store.latestRevision + 1) := by
  unfold saveToCommit
  cases hrevision : payload.revision with
  | none => simp [StoreResult.bind_ok]
  | some token =>
      simp only [StoreResult.bind_ok, StoreResult.pure_ok, Faults.check_ok, openTransaction_ok,
        writeTail_ok, exists_const, Operation.stagesToCommit, replace, commitSession_eq,
        List.nil_append, List.mem_cons, List.not_mem_nil, or_false, forall_eq_or_imp, forall_eq,
        Option.some.injEq, exists_eq_left', Prod.mk.injEq, and_true, exists_eq_right]
      constructor
      · rintro ⟨hinitialized, ⟨hconnect, hbegin, hschema⟩, u, hrevision, written, hwritten,
          hwrite, final, ⟨⟨hevidence, houtbox, hadvance⟩, hrecords⟩, hcommit, rfl⟩
        exact ⟨⟨hinitialized, hconnect, hbegin, hschema, hwrite, hevidence, houtbox, hadvance,
          hcommit⟩, u, hrevision, written, hwritten, hrecords⟩
      · rintro ⟨⟨hinitialized, hconnect, hbegin, hschema, hwrite, hevidence, houtbox, hadvance,
          hcommit⟩, u, hrevision, written, hwritten, hrecords⟩
        exact ⟨hinitialized, ⟨hconnect, hbegin, hschema⟩, u, hrevision, written, hwritten, hwrite,
          committed, ⟨⟨hevidence, houtbox, hadvance⟩, hrecords⟩, hcommit, rfl⟩

theorem transactToCommit_ok {V : Type} {mutation : Mutation V} {expected : Option Nat}
    {evidence : List EvidenceRecord} {outbox : List OutboxCommand} {committed : Store} :
    transactToCommit store faults mutation expected evidence outbox = .ok committed ↔
      (∀ stage ∈ (Operation.transact mutation expected evidence outbox).stagesToCommit,
        faults stage = none) ∧
        ∃ result, transact store mutation expected evidence outbox = .ok (committed, result) := by
  unfold transactToCommit transact
  simp only [StoreResult.bind_ok, StoreResult.pure_ok, Faults.check_ok, openTransaction_ok,
    writeTail_ok, exists_const, Operation.stagesToCommit, commitSession_eq, List.mem_cons,
    List.not_mem_nil, or_false, forall_eq_or_imp, forall_eq, Prod.mk.injEq, Prod.exists]
  constructor
  · rintro ⟨hinitialized, ⟨hconnect, hbegin, hschema⟩, hload, current, hcurrent, u, hrevision,
      session, value, hmutation, written, hwritten, hwrite, final,
      ⟨⟨hevidence, houtbox, hadvance⟩, hrecords⟩, hview, payload, hpayload, hcommit, hfinal⟩
    exact ⟨⟨hinitialized, hconnect, hbegin, hschema, hload, hwrite, hevidence, houtbox, hadvance,
      hview, hcommit⟩, _, current, hcurrent, u, hrevision, session, value, hmutation, final,
      ⟨written, hwritten, hrecords⟩, payload, hpayload, hfinal, rfl⟩
  · rintro ⟨⟨hinitialized, hconnect, hbegin, hschema, hload, hwrite, hevidence, houtbox, hadvance,
      hview, hcommit⟩, _, current, hcurrent, u, hrevision, session, value, hmutation, final,
      ⟨written, hwritten, hrecords⟩, payload, hpayload, hfinal, _⟩
    exact ⟨hinitialized, ⟨hconnect, hbegin, hschema⟩, hload, current, hcurrent, u, hrevision,
      session, value, hmutation, written, hwritten, hwrite, final,
      ⟨⟨hevidence, houtbox, hadvance⟩, hrecords⟩, hview, payload, hpayload, hcommit, hfinal⟩

/-- The view of a session that a working set wrote cannot fail. -/
theorem committedView_of_writeWorkingSet {session : Session} {storedItems : Rows ItemRow}
    {storedLeases : Rows LeaseRow} {revision : Nat} {written : Store}
    (h : writeWorkingSet store session storedItems storedLeases revision = .ok written) :
    ∃ view, committedView session = .ok view := by
  unfold writeWorkingSet at h
  obtain ⟨_, _, h⟩ := StoreResult.bind_ok.mp h
  obtain ⟨items, hitems, -⟩ := StoreResult.bind_ok.mp h
  exact ⟨_, committedView_ok.mpr ⟨(deriveItemClaimProjection_ok.mp hitems).1, rfl⟩⟩

theorem workingSetToCommit_ok {V : Type} {request : WorkingSetRequest} {mutation : Mutation V}
    {expected : Option Nat} {evidence : List EvidenceRecord} {outbox : List OutboxCommand}
    {committed : Store} :
    (∃ session, workingSetToCommit store faults request mutation expected evidence outbox =
        .ok (committed, session)) ↔
      (∀ stage ∈ (Operation.workingSet request mutation expected evidence outbox).stagesToCommit,
        faults stage = none) ∧
        ∃ result, transactWorkingSet store request mutation expected evidence outbox =
          .ok (committed, result) := by
  simp only [workingSetToCommit, transactWorkingSet, StoreResult.bind_ok, StoreResult.pure_ok, Faults.check_ok, openTransaction_ok,
    writeTail_ok, exists_const, Operation.stagesToCommit, List.mem_cons, List.not_mem_nil,
    or_false, forall_eq_or_imp, forall_eq, Prod.mk.injEq, Prod.exists, writeRecords]
  constructor
  · rintro ⟨session, hinitialized, ⟨hconnect, hbegin, hschema⟩, hload, current, hcurrent, u,
      hrevision, changed, value, hmutation, written, hwritten, hwrite, final,
      ⟨⟨hevidence, houtbox, hadvance⟩, evidenced, hevidenced, planned, hplanned, hfinal⟩,
      hcommit, hsame, _⟩
    obtain ⟨view, hview⟩ := committedView_of_writeWorkingSet hwritten
    exact ⟨⟨hinitialized, hconnect, hbegin, hschema, hload, hwrite, hevidence, houtbox, hadvance,
      hcommit⟩, _, current, hcurrent, u, hrevision, changed, value, hmutation, written, hwritten,
      evidenced, hevidenced, planned, hplanned, view, hview, hfinal.trans hsame, rfl⟩
  · rintro ⟨⟨hinitialized, hconnect, hbegin, hschema, hload, hwrite, hevidence, houtbox, hadvance,
      hcommit⟩, _, current, hcurrent, u, hrevision, changed, value, hmutation, written, hwritten,
      evidenced, hevidenced, planned, hplanned, _, _, hfinal, _⟩
    exact ⟨changed, hinitialized, ⟨hconnect, hbegin, hschema⟩, hload, current, hcurrent, u,
      hrevision, changed, value, hmutation, written, hwritten, hwrite, committed,
      ⟨⟨hevidence, houtbox, hadvance⟩, evidenced, hevidenced, planned, hplanned, hfinal⟩,
      hcommit, rfl, rfl⟩

/-- What a working set committed can be viewed. -/
theorem committedView_of_workingSetToCommit {V : Type} {request : WorkingSetRequest}
    {mutation : Mutation V} {expected : Option Nat} {evidence : List EvidenceRecord}
    {outbox : List OutboxCommand} {committed : Store} {session : Session}
    (h : workingSetToCommit store faults request mutation expected evidence outbox =
      .ok (committed, session)) : ∃ view, committedView session = .ok view := by
  simp only [workingSetToCommit, StoreResult.bind_ok, StoreResult.pure_ok, Prod.mk.injEq,
    Prod.exists] at h
  obtain ⟨_, _, _, _, _, _, _, _, _, _, changed, _, _, written, hwritten, _, _, _, _, _, _, _,
    rfl⟩ := h
  exact committedView_of_writeWorkingSet hwritten

theorem exists_isOk {α : Type} {x : StoreResult α} : x.isOk = true ↔ ∃ a, x = .ok a := by
  cases x <;> simp [Except.isOk, Except.toBool]

/-- A call commits when nothing fails up to its commit. -/
theorem Operation.toCommit_ok {V : Type} (operation : Operation V) (store : Store)
    (faults : Faults) :
    (∃ committed after, operation.toCommit store faults = .ok (committed, after)) ↔
      (∀ stage ∈ operation.stagesToCommit, faults stage = none) ∧ operation.Accepted store := by
  cases operation with
  | save payload =>
      simp only [toCommit, Accepted, StoreResult.map_ok, Prod.mk.injEq, exists_isOk, Prod.exists]
      constructor
      · rintro ⟨committed, _, _, hcommit, -, -⟩
        obtain ⟨hstages, token, htoken, hreplace⟩ := (saveToCommit_ok (V := V)).mp hcommit
        exact ⟨hstages, token, htoken, _, _, hreplace⟩
      · rintro ⟨hstages, token, htoken, committed, revision, hreplace⟩
        obtain ⟨-, -, rfl⟩ := replace_ok hreplace
        exact ⟨committed, _, committed,
          (saveToCommit_ok (V := V)).mpr ⟨hstages, token, htoken, hreplace⟩, rfl, rfl⟩
  | transact mutation expected evidence outbox =>
      simp only [toCommit, Accepted, StoreResult.map_ok, Prod.mk.injEq, exists_isOk, Prod.exists]
      constructor
      · rintro ⟨committed, _, _, hcommit, -, -⟩
        obtain ⟨hstages, result, htransact⟩ := transactToCommit_ok.mp hcommit
        exact ⟨hstages, _, _, htransact⟩
      · rintro ⟨hstages, committed, result, htransact⟩
        exact ⟨committed, _, committed, transactToCommit_ok.mpr ⟨hstages, result, htransact⟩,
          rfl, rfl⟩
  | workingSet request mutation expected evidence outbox =>
      simp only [toCommit, Accepted, StoreResult.map_ok, Prod.mk.injEq, exists_isOk, Prod.exists]
      constructor
      · rintro ⟨_, _, committed, session, hcommit, -, -⟩
        obtain ⟨hstages, result, htransact⟩ := workingSetToCommit_ok.mp ⟨session, hcommit⟩
        exact ⟨hstages, _, _, htransact⟩
      · rintro ⟨hstages, committed, result, htransact⟩
        obtain ⟨session, hcommit⟩ := workingSetToCommit_ok.mpr ⟨hstages, result, htransact⟩
        exact ⟨committed, _, committed, session, hcommit, rfl, rfl⟩

theorem afterWorkingSet_isOk {session view : Session} (hview : committedView session = .ok view) :
    (afterWorkingSet faults session).isOk = true ↔
      faults .committedView = none ∧ faults .materialize = none := by
  rw [exists_isOk]
  simp [afterWorkingSet, StoreResult.bind_ok, Faults.check_ok, hview]

/-- A call that commits leaves the next revision, and then fails with its projections. -/
theorem Operation.toCommit_spec {V : Type} {operation : Operation V} {committed : Store}
    {after : StoreResult Unit} (hrevision : store.sessionRevision = store.latestRevision)
    (h : operation.toCommit store faults = .ok (committed, after)) :
    committed.latestRevision = store.latestRevision + 1 ∧
      (after.isOk = true ↔ ∀ stage ∈ operation.stagesAfterCommit, faults stage = none) := by
  cases operation with
  | save payload =>
      obtain ⟨final, hcommit, hpair⟩ := StoreResult.map_ok.mp h
      obtain ⟨rfl, rfl⟩ := Prod.mk.inj hpair
      obtain ⟨-, token, -, hreplace⟩ := (saveToCommit_ok (V := V)).mp hcommit
      obtain ⟨-, hwrites, -⟩ := replace_ok hreplace
      exact ⟨(commitSession_follows rfl hwrites).latest, by
        simp [stagesAfterCommit, Faults.check_isOk]⟩
  | transact mutation expected evidence outbox =>
      obtain ⟨final, hcommit, hpair⟩ := StoreResult.map_ok.mp h
      obtain ⟨rfl, rfl⟩ := Prod.mk.inj hpair
      obtain ⟨-, result, htransact⟩ := transactToCommit_ok.mp hcommit
      obtain ⟨_, _, -, -, -, hwrites, -, -⟩ := transact_ok htransact
      rw [hrevision] at hwrites
      exact ⟨(commitSession_follows rfl hwrites).latest, by
        simp [stagesAfterCommit, Faults.check_isOk]⟩
  | workingSet request mutation expected evidence outbox =>
      obtain ⟨⟨final, session⟩, hcommit, hpair⟩ := StoreResult.map_ok.mp h
      obtain ⟨rfl, rfl⟩ := Prod.mk.inj hpair
      obtain ⟨view, hview⟩ := committedView_of_workingSetToCommit hcommit
      obtain ⟨-, result, htransact⟩ := workingSetToCommit_ok.mp ⟨session, hcommit⟩
      obtain ⟨_, _, _, _, _, -, -, -, -, -, -, rfl, -⟩ := transactWorkingSet_ok htransact
      exact ⟨by rw [← hrevision]; rfl, by
        simp [stagesAfterCommit, afterWorkingSet_isOk hview]⟩

/-- A call that raises has changed nothing, unless it raises after its commit. -/
theorem failed_call_unchanged_iff {V : Type} (hcommitted : Committed store) (faults : Faults)
    (operation : Operation V) :
    (∀ error, (operation.run store faults).result = .error error →
        (operation.run store faults).store = store) ↔
      ¬ ((∀ stage ∈ operation.stagesToCommit, faults stage = none) ∧
        operation.Accepted store ∧
        ∃ stage ∈ operation.stagesAfterCommit, faults stage ≠ none) := by
  have hrevision := hcommitted.revision
  have hreaches := operation.toCommit_ok store faults
  unfold Operation.run
  cases hcommit : operation.toCommit store faults with
  | error e =>
      refine ⟨fun _ => ?_, fun _ _ _ => rfl⟩
      rintro ⟨hstages, haccepted, -⟩
      obtain ⟨_, _, hok⟩ := hreaches.mpr ⟨hstages, haccepted⟩
      rw [hcommit] at hok
      cases hok
  | ok pair =>
      obtain ⟨committed, after⟩ := pair
      obtain ⟨hnext, hafter⟩ := Operation.toCommit_spec hrevision hcommit
      obtain ⟨hstages, haccepted⟩ := hreaches.mp ⟨committed, after, hcommit⟩
      have hmoved : committed ≠ store := by
        intro hsame
        rw [hsame] at hnext
        omega
      constructor
      · rintro hunchanged ⟨-, -, stage, hstage, hfault⟩
        cases hresult : after with
        | ok u =>
            have hall := hafter.mp (by rw [hresult]; rfl)
            exact hfault (hall stage hstage)
        | error e => exact hmoved (hunchanged e hresult)
      · intro hnot error hresult
        exfalso
        apply hnot
        refine ⟨hstages, haccepted, ?_⟩
        by_contra hnone
        have hall : ∀ stage ∈ operation.stagesAfterCommit, faults stage = none := by
          intro stage hstage
          by_contra hfault
          exact hnone ⟨stage, hstage, hfault⟩
        have hok := hafter.mpr hall
        have hresult : after = .error error := hresult
        rw [hresult] at hok
        cases hok

end Proofs

/-- The environment raises at one stage. -/
def busyAt (stage : Stage) : Faults :=
  fun other => if other = stage then some .persistenceBusy else none

/-- A transaction that leaves the session as it is. -/
def touch : Operation Unit := .transact (fun session => .ok (session, ())) none [] []

theorem failed_call_unchanged_iff_busyCommit : ∃ store, Committed store ∧
    (touch.run store (busyAt .commit)).result = .error .persistenceBusy ∧
    ∀ error, (touch.run store (busyAt .commit)).result = .error error →
      (touch.run store (busyAt .commit)).store = store := by
  have hruns : (commitSession blankStore claimedSession [] [] 1).toOption.any (fun store =>
      (touch.run store (busyAt .commit)).result = .error .persistenceBusy) = true := by
    decide +kernel
  obtain ⟨store, hstore, hbusy⟩ := StoreResult.exists_ok hruns
  have hcommitted := Committed.bootstrap hstore
  refine ⟨store, hcommitted, of_decide_eq_true hbusy,
    (failed_call_unchanged_iff hcommitted (busyAt .commit) touch).mpr ?_⟩
  rintro ⟨hstages, -, -⟩
  have hcommit := hstages .commit (by decide)
  cases hcommit

/-- The session is committed before its projection finds the store locked. -/
theorem busyMaterialization_commits :
    ¬ ∀ store, Committed store → ∀ (V : Type) (faults : Faults) (operation : Operation V) error,
      (operation.run store faults).result = .error error →
        (operation.run store faults).store = store := by
  intro hclaim
  have hruns : (commitSession blankStore claimedSession [] [] 1).toOption.any (fun store =>
      (touch.run store (busyAt .materialize)).result = .error .persistenceBusy ∧
        (touch.run store (busyAt .materialize)).store.latestRevision ≠
          store.latestRevision) = true := by
    decide +kernel
  obtain ⟨store, hstore, houtcome⟩ := StoreResult.exists_ok hruns
  obtain ⟨hbusy, hmoved⟩ := of_decide_eq_true houtcome
  have hsame := hclaim store (.bootstrap hstore) Unit (busyAt .materialize) touch _ hbusy
  exact hmoved (congrArg Store.latestRevision hsame)

end GhAddressCr.CommitFailures
