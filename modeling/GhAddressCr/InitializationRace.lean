import GhAddressCr.ExclusiveTransactions
import GhAddressCr.StoreOperations
import Mathlib.Logic.Function.Basic

/-!
# The race to initialize a store

Any number of processes open one uninitialized session, with a payload of their own or with the
legacy files beside the database. Each queues on the lock of the database; whoever has it first
creates the schema and the session in one transaction, the others load what was committed. A
legacy import builds the recovery bundle while it holds the lock.
-/
namespace GhAddressCr.InitializationRace

open RuntimeStore ExclusiveTransactions

/-- What the database holds. -/
inductive DatabaseState where
  | empty
  /-- The schema, without a row in `store_metadata`. -/
  | schema
  | store (store : Store)

/-- `_is_initialized`. -/
def isInitialized : DatabaseState → StoreResult Bool
  | .empty => .ok false
  | .schema => .error (.persistenceInvalid "Runtime store metadata is incomplete.")
  | .store _ => .ok true

/-- The hashes of files, by their names. -/
abbrev FileHashes := List (String × String)

/-- A published recovery bundle. -/
structure Bundle where
  /-- The files the manifest lists, where there is a manifest. -/
  manifest : Option FileHashes
  /-- The files have the hashes the manifest lists. -/
  intact : Bool
  deriving DecidableEq

/-- The legacy files as they decode, and `_legacy_input_hashes`. -/
structure LegacyFiles where
  input : LegacyInput
  hashes : FileHashes

/-- What stands beside the database. -/
structure Files where
  legacy : Option LegacyFiles
  bundle : Option Bundle := none
  /-- Staging directories of bundles. -/
  staging : Nat := 0
  /-- Bundles renamed aside. -/
  aside : List Bundle := []

/-- How a process opens the session. -/
inductive Opening where
  | bootstrap (payload : Session) (evidence : List EvidenceRecord) (requireNew : Bool)
  | openOrMigrate

def Opening.requiresNew : Opening → Bool
  | .bootstrap _ _ requireNew => requireNew
  | .openOrMigrate => false

abbrev InitialStatement := Statement StoreError DatabaseState Files

def raise (error : StoreError) : InitialStatement := fun _ => .error error

def createSchema : DatabaseState → StoreResult DatabaseState
  | .empty => .ok .schema
  | _ => .error (.raised "OperationalError")

def insertMetadata : DatabaseState → StoreResult DatabaseState
  | .schema => .ok (.store blankStore)
  | _ => .error (.raised "IntegrityError")

/-- A statement on the tables. -/
def onStore (write : Store → StoreResult Store) : DatabaseState → StoreResult DatabaseState
  | .store store => (write store).map .store
  | _ => .error (.raised "OperationalError")

def insertPayload (payload : Session) (evidence : List EvidenceRecord) : List InitialStatement :=
  [.ofView createSchema, .ofView insertMetadata, .ofView (onStore (writeSession · payload 1)),
    .ofView (onStore (writeEvidence · evidence 1))]

def bundleInvalid : StoreError :=
  .persistenceInvalid "Legacy recovery bundle integrity check failed."

/-- A bundle that verifies against its own manifest. -/
def Bundle.verifies (bundle : Bundle) : Bool := bundle.manifest.isSome && bundle.intact

/-- `_verify_recovery_bundle`. -/
def verifyBundle (files : Files) : StoreResult Unit :=
  require (files.bundle.all (·.verifies) = true) bundleInvalid

def onFiles (change : Files → StoreResult Files) : InitialStatement := fun (state, files) =>
  (change files).map fun files => (state, files)

def removeStaging (files : Files) : StoreResult Files := .ok { files with staging := 0 }

/-- A bundle without a manifest or of other inputs is renamed aside; a damaged one is left. -/
def retireBundle (hashes : FileHashes) (files : Files) : StoreResult Files :=
  match files.bundle with
  | none => .ok files
  | some bundle =>
      match bundle.manifest with
      | none => .ok { files with bundle := none, aside := files.aside ++ [bundle] }
      | some listed =>
          if bundle.intact then
            if listed = hashes then .ok files
            else .ok { files with bundle := none, aside := files.aside ++ [bundle] }
          else .error bundleInvalid

/-- The copies and the manifest in a staging directory; a bundle of these inputs is kept. -/
def stageBundle (files : Files) : StoreResult Files :=
  if files.bundle.isSome then .ok files else .ok { files with staging := files.staging + 1 }

/-- The rename that publishes the staging directory. -/
def publishBundle (hashes : FileHashes) (files : Files) : StoreResult Files :=
  if files.bundle.isSome then .ok files
  else .ok { files with bundle := some ⟨some hashes, true⟩, staging := files.staging - 1 }

/-- `_create_recovery_bundle`. -/
def createRecoveryBundle (hashes : FileHashes) : List InitialStatement :=
  [removeStaging, retireBundle hashes, stageBundle, publishBundle hashes].map onFiles

/-- `_record_bundle_signature`, for the verification it makes. -/
def recordSignature : InitialStatement := onFiles fun files =>
  (verifyBundle files).map fun _ => files

/-- The statements of `_initialize` on a database without a store. -/
def Opening.statements (files : Files) : Opening → List InitialStatement
  | .bootstrap payload evidence _ => insertPayload payload evidence
  | .openOrMigrate =>
      match files.legacy with
      | none => [raise (.persistenceInvalid "No runtime store or legacy session exists.")]
      | some legacy =>
          match legacy.input.session, legacy.input.evidence with
          | none, _ => [raise (.persistenceInvalid "Legacy session JSON is malformed.")]
          | some _, none => [raise (.persistenceInvalid "Legacy evidence ledger is malformed.")]
          | some payload, some evidence =>
              createRecoveryBundle legacy.hashes ++ insertPayload payload evidence ++
                [.ofView (onStore (backfillOutboxFromEvidence · 1)), recordSignature]

/-- Who holds the lock: a process that opens the session, or the writer of a later operation. -/
inductive Party where
  | opener (process : Nat)
  | writer (operation : StoreOperation)

/-- What a party does under the lock. -/
def plan (openings : Nat → Opening) (party : Party) (state : DatabaseState) (files : Files) :
    List InitialStatement :=
  match party with
  | .opener process =>
      match isInitialized state with
      | .ok false => (openings process).statements files
      -- Another process was first: the transaction is rolled back.
      | .ok true => []
      | .error error => [raise error]
  | .writer operation => [.ofView (onStore operation.applyTo)]

inductive Phase where
  | idle
  /-- The store was not initialized when the process looked. -/
  | waiting
  | locked
  /-- The transaction is over, and committed the process's own payload or not. -/
  | loading (created : Bool)
  | loaded (session : Session) (revision : Nat)
  | failed (error : StoreError)
  | crashed

structure Race where
  database : Database Party StoreError DatabaseState Files
  phases : Nat → Phase := fun _ => .idle
  /-- The initial transactions that were committed. -/
  initial : List (Nat × Store) := []

def Race.setPhase (race : Race) (process : Nat) (phase : Phase) : Race :=
  { race with phases := Function.update race.phases process phase }

inductive RaceStep where
  /-- `is_initialized`, without the lock. -/
  | probe (process : Nat)
  | begin (process : Nat)
  | beginWrite (operation : StoreOperation)
  | statement
  | commit
  /-- The busy timeout of a process ends while another party has the lock. -/
  | busy (process : Nat)
  | load (process : Nat)
  | crash (process : Nat)
  | crashWriter

/-- A process that is about to use the database. -/
def Phase.awaits : Phase → Bool
  | .idle | .waiting | .loading _ => true
  | _ => false

/-- A process that may take the lock next. -/
def Phase.mayBegin (opening : Opening) : Phase → Bool
  | .idle => match opening with
    | .bootstrap _ _ _ => true
    | .openOrMigrate => false
  | .waiting => true
  | _ => false

/-- What `load` ends in, for a process that created the store or not. -/
def loadOutcome (opening : Opening) (created : Bool) (state : DatabaseState) (files : Files) :
    Phase :=
  match state with
  | .store store =>
      match verifyBundle files, loadSnapshot store with
      | .error error, _ => .failed error
      | .ok _, .error error => .failed error
      | .ok _, .ok session =>
          if opening.requiresNew && !created then
            .failed (.staleRevision 0 store.sessionRevision)
          else .loaded session store.sessionRevision
  | _ => .failed (.persistenceInvalid "Runtime schema metadata is unavailable.")

/-- The store that the transaction of an opener initialized. -/
def initialStore (committed view : DatabaseState) : Option Store :=
  match committed, view with
  | .empty, .store store => some store
  | _, _ => none

def Database.held (database : Database Party StoreError DatabaseState Files) (process : Nat) :
    Bool :=
  match database.transaction with
  | some ⟨.opener holder, _, _⟩ => holder = process
  | _ => false

section Steps

variable (openings : Nat → Opening)

/-- One step of the race; `none` where it cannot be taken. -/
def Race.next (race : Race) : RaceStep → Option Race
  | .probe process =>
      match openings process, race.phases process, race.database.transaction with
      | .openOrMigrate, .idle, none =>
          some (race.setPhase process (match isInitialized race.database.committed with
            | .ok true => .loading false
            | .ok false => .waiting
            | .error error => .failed error))
      | _, _, _ => none
  | .begin process =>
      if (race.phases process).mayBegin (openings process) then
        (race.database.next (plan openings) (.begin (.opener process))).map fun database =>
          ({ race with database := database } : Race).setPhase process .locked
      else none
  | .beginWrite operation =>
      (race.database.next (plan openings) (.begin (.writer operation))).map fun database =>
        { race with database := database }
  | .statement =>
      match race.database.transaction with
      | some ⟨party, view, statement :: _⟩ =>
          (race.database.next (plan openings) .statement).map fun database =>
            match statement (view, race.database.files), party with
            | .error error, .opener process =>
                ({ race with database := database } : Race).setPhase process (.failed error)
            | _, _ => { race with database := database }
      | _ => none
  | .commit =>
      match race.database.transaction with
      | some ⟨.opener process, view, []⟩ =>
          let created := initialStore race.database.committed view
          (race.database.next (plan openings) .commit).map fun database =>
            ({ race with
              database := database
              initial := race.initial ++ created.toList.map fun store => (process, store) } :
              Race).setPhase process (.loading created.isSome)
      | some ⟨.writer _, _, []⟩ =>
          (race.database.next (plan openings) .commit).map fun database =>
            { race with database := database }
      | _ => none
  | .busy process =>
      if race.database.transaction.isSome ∧ (race.phases process).awaits then
        some (race.setPhase process (.failed .persistenceBusy))
      else none
  | .load process =>
      match race.phases process, race.database.transaction with
      | .loading created, none => some (race.setPhase process
          (loadOutcome (openings process) created race.database.committed race.database.files))
      | _, _ => none
  | .crash process =>
      if Database.held race.database process then
        (race.database.next (plan openings) .stop).map fun database =>
          ({ race with database := database } : Race).setPhase process .crashed
      else if (race.phases process).awaits then some (race.setPhase process .crashed)
      else none
  | .crashWriter =>
      match race.database.transaction with
      | some ⟨.writer _, _, _⟩ =>
          (race.database.next (plan openings) .stop).map fun database =>
            { race with database := database }
      | _ => none

/-- The processes and writers on a database without a schema. -/
def raceRuns (files : Files) : TransitionSystem Race RaceStep :=
  .ofNext (· = { database := { committed := .empty, files := files } }) (Race.next openings)

end Steps

/-- The store that an opening starts when it is first. -/
def Opening.creates (files : Files) : Opening → StoreResult Store
  | .bootstrap payload evidence _ => createStore payload evidence
  | .openOrMigrate =>
      match files.legacy with
      | none => .error (.persistenceInvalid "No runtime store or legacy session exists.")
      | some legacy => importLegacy legacy.input

/-- A bundle that is there was published whole, and nothing was done to it since. -/
def Files.Sound (files : Files) : Prop := ∀ bundle, files.bundle = some bundle → bundle.verifies

theorem verifyBundle_ok {files : Files} (h : files.Sound) : verifyBundle files = .ok () := by
  refine require_ok.mpr ?_
  cases hbundle : files.bundle with
  | none => rfl
  | some bundle => exact h bundle hbundle

theorem verifyBundle_error {files : Files} {error : StoreError}
    (h : verifyBundle files = .error error) : error = bundleInvalid := by
  unfold verifyBundle require at h
  split at h
  · cases h
  · exact (Except.error.inj h).symm

theorem onStore_store_ok {write : Store → StoreResult Store} {store : Store}
    {state : DatabaseState} :
    onStore write (.store store) = .ok state ↔ ∃ written, write store = .ok written ∧
      .store written = state := by
  simp only [onStore, StoreResult.map_ok]

theorem execute_onFiles_cons {change : Files → StoreResult Files} {files files' : Files}
    (h : change files = .ok files') (statements : List InitialStatement) (state : DatabaseState) :
    execute (onFiles change :: statements) (state, files) = execute statements (state, files') := by
  rw [execute_cons]
  simp only [onFiles, h]
  rfl

theorem execute_onStore_cons (write : Store → StoreResult Store)
    (statements : List InitialStatement) (store : Store) (files : Files) :
    execute (.ofView (onStore write) :: statements) (.store store, files) =
      write store >>= fun store => execute statements (.store store, files) := by
  rw [execute_cons]
  simp only [Statement.ofView, onStore]
  cases write store <;> rfl

theorem execute_insertPayload (payload : Session) (evidence : List EvidenceRecord)
    (rest : List InitialStatement) (files : Files) :
    execute (insertPayload payload evidence ++ rest) (.empty, files) =
      createStore payload evidence >>= fun store => execute rest (.store store, files) := by
  show execute (.ofView createSchema :: .ofView insertMetadata ::
    .ofView (onStore (writeSession · payload 1)) ::
      .ofView (onStore (writeEvidence · evidence 1)) :: rest) (.empty, files) = _
  rw [execute_cons, createStore, bind_assoc]
  show execute (.ofView insertMetadata :: _) (.schema, files) = _
  rw [execute_cons]
  show execute (.ofView (onStore (writeSession · payload 1)) :: _) (.store blankStore, files) = _
  simp only [execute_onStore_cons]

/-- A change of the files that leaves the legacy files and keeps a sound bundle sound. -/
def KeepsFiles (change : Files → StoreResult Files) : Prop :=
  ∀ files files', change files = .ok files' →
    files'.legacy = files.legacy ∧ (files.Sound → files'.Sound)

theorem removeStaging_keeps : KeepsFiles removeStaging := by
  intro files files' h
  obtain rfl := Except.ok.inj h
  exact ⟨rfl, id⟩

theorem retireBundle_keeps (hashes : FileHashes) : KeepsFiles (retireBundle hashes) := by
  intro files files' h
  have hnone : ∀ bundle : Bundle,
      ({ files with bundle := none, aside := files.aside ++ [bundle] } : Files).Sound := by
    rintro _ _ ⟨⟩
  unfold retireBundle at h
  repeat' split at h
  all_goals cases h
  · exact ⟨rfl, id⟩
  · exact ⟨rfl, fun _ => hnone _⟩
  · exact ⟨rfl, id⟩
  · exact ⟨rfl, fun _ => hnone _⟩

theorem stageBundle_keeps : KeepsFiles stageBundle := by
  intro files files' h
  unfold stageBundle at h
  split at h
  · obtain rfl := Except.ok.inj h
    exact ⟨rfl, id⟩
  · obtain rfl := Except.ok.inj h
    exact ⟨rfl, id⟩

theorem publishBundle_keeps (hashes : FileHashes) : KeepsFiles (publishBundle hashes) := by
  intro files files' h
  unfold publishBundle at h
  split at h
  · obtain rfl := Except.ok.inj h
    exact ⟨rfl, id⟩
  · obtain rfl := Except.ok.inj h
    refine ⟨rfl, fun _ => ?_⟩
    rintro _ ⟨⟩
    rfl

/-- The bundle that is left is sound, unless it was found damaged. -/
theorem retireBundle_cases (hashes : FileHashes) (files : Files) :
    (retireBundle hashes files = .error bundleInvalid ∧ ¬ files.Sound) ∨
      ∃ files', retireBundle hashes files = .ok files' ∧ files'.Sound := by
  have haside (bundle : Bundle) :
      ({ files with bundle := none, aside := files.aside ++ [bundle] } : Files).Sound := by
    rintro _ ⟨⟩
  unfold retireBundle
  split
  · next hbundle => exact .inr ⟨files, rfl, by simp [Files.Sound, hbundle]⟩
  · next bundle hbundle =>
    split
    · exact .inr ⟨_, rfl, haside bundle⟩
    · next listed hmanifest =>
      split
      · next hintact =>
        split
        · exact .inr ⟨files, rfl, by simp [Files.Sound, hbundle, Bundle.verifies, hmanifest, hintact]⟩
        · exact .inr ⟨_, rfl, haside bundle⟩
      · next hdamaged =>
        refine .inl ⟨rfl, fun hsound => ?_⟩
        have hverifies := hsound bundle hbundle
        simp [Bundle.verifies, hdamaged] at hverifies

/-- The bundle is built and the rest follows, unless a damaged bundle is there. -/
theorem execute_createRecoveryBundle (hashes : FileHashes) (files : Files) (state : DatabaseState)
    (rest : List InitialStatement) :
    (execute (createRecoveryBundle hashes ++ rest) (state, files) = .error bundleInvalid ∧
        ¬ files.Sound) ∨
      ∃ files', files'.Sound ∧ execute (createRecoveryBundle hashes ++ rest) (state, files) =
        execute rest (state, files') := by
  have hcleaned : removeStaging files = .ok { files with staging := 0 } := rfl
  show (execute (onFiles removeStaging :: onFiles (retireBundle hashes) :: onFiles stageBundle ::
    onFiles (publishBundle hashes) :: rest) (state, files) = _ ∧ _) ∨ ∃ files', _ ∧
      execute (onFiles removeStaging :: onFiles (retireBundle hashes) :: onFiles stageBundle ::
        onFiles (publishBundle hashes) :: rest) (state, files) = _
  rw [execute_onFiles_cons hcleaned]
  rcases retireBundle_cases hashes { files with staging := 0 } with
    ⟨herror, hsound⟩ | ⟨retired, hretired, hsound⟩
  · refine .inl ⟨?_, hsound⟩
    rw [execute_cons]
    simp only [onFiles, herror]
    rfl
  · obtain ⟨staged, hstaged⟩ : ∃ staged, stageBundle retired = .ok staged := by
      unfold stageBundle
      split
      · exact ⟨_, rfl⟩
      · exact ⟨_, rfl⟩
    have hsound := (stageBundle_keeps _ _ hstaged).2 hsound
    obtain ⟨published, hpublished⟩ : ∃ published, publishBundle hashes staged = .ok published := by
      unfold publishBundle
      split
      · exact ⟨_, rfl⟩
      · exact ⟨_, rfl⟩
    refine .inr ⟨published, (publishBundle_keeps hashes _ _ hpublished).2 hsound, ?_⟩
    rw [execute_onFiles_cons hretired, execute_onFiles_cons hstaged,
      execute_onFiles_cons hpublished]

/-- The statements of an opening leave the store it creates or raise what creating it raises,
unless a damaged bundle is there. -/
theorem Opening.execute_statements (opening : Opening) (files : Files) :
    (execute (opening.statements files) (.empty, files) = .error bundleInvalid ∧ ¬ files.Sound) ∨
      ∃ files', (files.Sound → files'.Sound) ∧
        execute (opening.statements files) (.empty, files) =
          (opening.creates files).map fun store => (.store store, files') := by
  cases opening with
  | bootstrap payload evidence requireNew =>
      refine .inr ⟨files, id, ?_⟩
      have hall := execute_insertPayload payload evidence [] files
      rw [List.append_nil] at hall
      rw [statements, creates, hall]
      cases createStore payload evidence <;> rfl
  | openOrMigrate =>
      simp only [statements, creates]
      cases files.legacy with
      | none => exact .inr ⟨files, id, rfl⟩
      | some legacy =>
          simp only [importLegacy]
          cases hpayload : legacy.input.session with
          | none => exact .inr ⟨files, id, rfl⟩
          | some payload =>
              cases hevidence : legacy.input.evidence with
              | none => exact .inr ⟨files, id, rfl⟩
              | some evidence =>
                  dsimp only
                  rw [List.append_assoc]
                  refine (execute_createRecoveryBundle legacy.hashes files .empty _).imp_right ?_
                  rintro ⟨published, hsound, hexecute⟩
                  refine ⟨published, fun _ => hsound, ?_⟩
                  rw [hexecute, execute_insertPayload]
                  simp only [execute_onStore_cons, recordSignature]
                  cases createStore payload evidence with
                  | error error => rfl
                  | ok store =>
                      show (backfillOutboxFromEvidence store 1 >>= fun store => _) =
                        (backfillOutboxFromEvidence store 1).map _
                      cases backfillOutboxFromEvidence store 1 with
                      | error error => rfl
                      | ok backfilled =>
                          exact execute_onFiles_cons (by rw [verifyBundle_ok hsound]; rfl) [] _

/-- What the statements of an opening leave is the store it creates. -/
theorem Opening.statements_creates {opening : Opening} {files files' : Files}
    {state : DatabaseState}
    (h : execute (opening.statements files) (.empty, files) = .ok (state, files')) :
    ∃ store, opening.creates files = .ok store ∧ state = .store store := by
  rcases opening.execute_statements files with ⟨herror, -⟩ | ⟨left, -, hexecute⟩
  · rw [herror] at h
    cases h
  · obtain ⟨store, hstore, hpair⟩ := StoreResult.map_ok.mp (hexecute.symm.trans h)
    exact ⟨store, hstore, (Prod.mk.inj hpair).1.symm⟩

/-- Over sound files the statements of an opening run through when its input is valid. -/
theorem Opening.statements_ok {opening : Opening} {files : Files} {store : Store}
    (hsound : files.Sound) (h : opening.creates files = .ok store) :
    ∃ files', execute (opening.statements files) (.empty, files) = .ok (.store store, files') ∧
      files'.Sound := by
  rcases opening.execute_statements files with ⟨-, hdamaged⟩ | ⟨files', hkept, hexecute⟩
  · exact absurd hsound hdamaged
  · exact ⟨files', by rw [hexecute, h]; rfl, hkept hsound⟩

/-- What the statements of an opening raise is the error of its input, or of a damaged bundle. -/
theorem Opening.statements_error {opening : Opening} {files : Files} {error : StoreError}
    (h : execute (opening.statements files) (.empty, files) = .error error) :
    opening.creates files = .error error ∨ (error = bundleInvalid ∧ ¬ files.Sound) := by
  rcases opening.execute_statements files with ⟨herror, hdamaged⟩ | ⟨files', -, hexecute⟩
  · exact .inr ⟨Except.error.inj (h.symm.trans herror), hdamaged⟩
  · left
    rw [hexecute] at h
    cases hcreates : opening.creates files with
    | error raised =>
        rw [hcreates] at h
        exact congrArg Except.error (Except.error.inj h)
    | ok store =>
        rw [hcreates] at h
        cases h

/-- The second store comes from the first by operations. -/
def Descends (store store' : Store) : Prop :=
  Relation.ReflTransGen (fun store store' =>
    ∃ operation : StoreOperation, operation.applyTo store = .ok store') store store'

section Runs

variable {openings : Nat → Opening} {start : Files}

/-- The legacy files are those of the start, and a sound bundle stays sound. -/
def KeptFrom (start files : Files) : Prop :=
  files.legacy = start.legacy ∧ (start.Sound → files.Sound)

theorem KeepsFiles.keptFrom {change : Files → StoreResult Files} (h : KeepsFiles change)
    {state state' : DatabaseState} {files files' : Files} (hkept : KeptFrom start files)
    (hran : onFiles change (state, files) = .ok (state', files')) : KeptFrom start files' := by
  obtain ⟨_, hchange, hpair⟩ := StoreResult.map_ok.mp hran
  obtain rfl := (Prod.mk.inj hpair).2
  obtain ⟨hlegacy, hsound⟩ := h _ _ hchange
  exact ⟨hlegacy.trans hkept.1, fun hstart => hsound (hkept.2 hstart)⟩

theorem recordSignature_keeps :
    KeepsFiles fun files => (verifyBundle files).map fun _ => files := by
  intro files files' h
  obtain ⟨_, -, rfl⟩ := StoreResult.map_ok.mp h
  exact ⟨rfl, id⟩

theorem ofView_keptFrom {write : DatabaseState → StoreResult DatabaseState}
    {view view' : DatabaseState} {files files' : Files} (hkept : KeptFrom start files)
    (hran : Statement.ofView write (view, files) = .ok (view', files')) :
    KeptFrom start files' := by
  obtain ⟨_, -, hpair⟩ := StoreResult.map_ok.mp hran
  obtain rfl := (Prod.mk.inj hpair).2
  exact hkept

theorem insertPayload_keptFrom {payload : Session} {evidence : List EvidenceRecord}
    {statement : InitialStatement} (h : statement ∈ insertPayload payload evidence)
    {view view' : DatabaseState} {files files' : Files} (hkept : KeptFrom start files)
    (hran : statement (view, files) = .ok (view', files')) : KeptFrom start files' := by
  simp only [insertPayload, List.mem_cons, List.not_mem_nil, or_false] at h
  rcases h with rfl | rfl | rfl | rfl <;> exact ofView_keptFrom hkept hran

theorem createRecoveryBundle_keptFrom {hashes : FileHashes} {statement : InitialStatement}
    (h : statement ∈ createRecoveryBundle hashes) {view view' : DatabaseState}
    {files files' : Files} (hkept : KeptFrom start files)
    (hran : statement (view, files) = .ok (view', files')) : KeptFrom start files' := by
  simp only [createRecoveryBundle, List.map_cons, List.map_nil, List.mem_cons, List.not_mem_nil,
    or_false] at h
  rcases h with rfl | rfl | rfl | rfl
  · exact removeStaging_keeps.keptFrom hkept hran
  · exact (retireBundle_keeps _).keptFrom hkept hran
  · exact stageBundle_keeps.keptFrom hkept hran
  · exact (publishBundle_keeps _).keptFrom hkept hran

theorem Opening.statements_keptFrom {opening : Opening} {planned : Files}
    {statement : InitialStatement} (h : statement ∈ opening.statements planned)
    {view view' : DatabaseState} {files files' : Files} (hkept : KeptFrom start files)
    (hran : statement (view, files) = .ok (view', files')) : KeptFrom start files' := by
  have hraise : ∀ {error : StoreError}, statement ∈ [raise error] → KeptFrom start files' := by
    intro error hmem
    rw [List.mem_singleton.mp hmem] at hran
    cases hran
  cases opening with
  | bootstrap payload evidence requireNew => exact insertPayload_keptFrom h hkept hran
  | openOrMigrate =>
      simp only [statements] at h
      split at h
      · exact hraise h
      · split at h
        · exact hraise h
        · exact hraise h
        · simp only [List.mem_append, List.mem_cons, List.not_mem_nil, or_false] at h
          rcases h with (hmem | hmem) | rfl | rfl
          · exact createRecoveryBundle_keptFrom hmem hkept hran
          · exact insertPayload_keptFrom hmem hkept hran
          · exact ofView_keptFrom hkept hran
          · exact recordSignature_keeps.keptFrom hkept hran

/-- No statement touches the legacy files, or damages a bundle. -/
theorem plan_keptFrom {party : Party} {state : DatabaseState} {planned : Files}
    {statement : InitialStatement} (h : statement ∈ plan openings party state planned)
    {view view' : DatabaseState} {files files' : Files} (hkept : KeptFrom start files)
    (hran : statement (view, files) = .ok (view', files')) : KeptFrom start files' := by
  cases party with
  | opener process =>
      cases state with
      | empty => exact Opening.statements_keptFrom h hkept hran
      | schema =>
          rw [List.mem_singleton.mp h] at hran
          cases hran
      | store store => cases h
  | writer operation =>
      rw [List.mem_singleton.mp h] at hran
      exact ofView_keptFrom hkept hran

variable (openings) in
/-- What the whole plan of a party leaves, by what it found. -/
def PlanOutcome (party : Party) (files : Files) (state' : DatabaseState) : DatabaseState → Prop
  | .empty => ∃ process store, party = .opener process ∧
      (openings process).creates files = .ok store ∧ state' = .store store
  | .schema => False
  | .store store => ∃ store', state' = .store store' ∧ Descends store store'

theorem execute_plan_ok {party : Party} {state state' : DatabaseState} {files files' : Files}
    (h : execute (plan openings party state files) (state, files) = .ok (state', files')) :
    PlanOutcome openings party files state' state := by
  cases party with
  | opener process =>
      cases state with
      | empty =>
          obtain ⟨store, hstore, rfl⟩ := Opening.statements_creates h
          exact ⟨process, store, rfl, hstore, rfl⟩
      | schema => cases h
      | store store =>
          obtain rfl := (Prod.mk.inj (Except.ok.inj h)).1
          exact ⟨store, rfl, .refl⟩
  | writer operation =>
      obtain ⟨view, hview, hdone⟩ := execute_ofView_cons_ok.mp h
      obtain rfl := (Prod.mk.inj (Except.ok.inj hdone)).1
      cases state with
      | empty => cases hview
      | schema => cases hview
      | store store =>
          obtain ⟨store', hstore', rfl⟩ := onStore_store_ok.mp hview
          exact ⟨store', rfl, .single ⟨operation, hstore'⟩⟩

/-- The database never shows a schema without a store, and an open transaction has run the
first part of its plan. -/
theorem database_of_reachable {database : Database Party StoreError DatabaseState Files}
    (h : (databaseRuns (plan openings) .empty start).Reachable database) :
    database.committed ≠ .schema ∧ KeptFrom start database.files ∧ ∀ transaction,
      database.transaction = some transaction →
        Underway (plan openings) (KeptFrom start) database transaction := by
  refine invariant_of_reachable (· ≠ .schema) (KeptFrom start) (by simp) ⟨rfl, id⟩ ?_ ?_ h
  · intro party committed files committed' files' hcommitted _ hexecute
    have hresult := execute_plan_ok hexecute
    cases committed with
    | empty =>
        obtain ⟨_, store, -, -, rfl⟩ := hresult
        simp
    | schema => exact absurd rfl hcommitted
    | store store =>
        obtain ⟨store', rfl, -⟩ := hresult
        simp
  · intro party committed planned statement hmem _ view files view' files' hkept hran
    exact plan_keptFrom hmem hkept hran

end Runs

/-- No item has two active leases, so a load succeeds. -/
def OneActive (store : Store) : Prop := (activeItemIds (leasePayloads store.leases)).Nodup

theorem OneActive.load {store : Store} (h : OneActive store) :
    ∃ session, loadSnapshot store = .ok session :=
  ⟨_, loadSnapshot_ok.mpr ⟨h, rfl⟩⟩

theorem writeSession_oneActive {store written : Store} {session : Session} {revision : Nat}
    (h : writeSession store session revision = .ok written) : OneActive written := by
  obtain ⟨-, hnodup, -, -, hleases, -⟩ := writeSession_view h
  unfold OneActive
  rwa [hleases]

theorem SameSession.oneActive {store other : Store} (h : SameSession store other)
    (hone : OneActive store) : OneActive other := by
  unfold OneActive
  rwa [h.leases]

theorem commitSession_oneActive {store committed : Store} {session : Session}
    {evidence : List EvidenceRecord} {outbox : List OutboxCommand} {revision : Nat}
    (h : commitSession store session evidence outbox revision = .ok committed) :
    OneActive committed := by
  obtain ⟨written, added, final, hwritten, hevidence, hfinal, rfl⟩ := commitSession_ok h
  exact SameSession.oneActive (.ofWrites hevidence hfinal) (writeSession_oneActive hwritten)

theorem commitOutbox_oneActive {store committed : Store} {rows : Rows OutboxRow}
    {evidence : List EvidenceRecord} {commit : OutboxCommit}
    (hone : OneActive store)
    (h : SideEffectOutbox.commitOutbox store rows evidence = .ok (committed, commit)) :
    OneActive committed := by
  obtain ⟨⟨added, rfl⟩, -, -⟩ := SideEffectOutbox.commitOutbox_ok h
  exact hone

theorem writeWorkingSet_oneActive {store written : Store} {session : Session}
    {storedItems : Rows ItemRow} {storedLeases : Rows LeaseRow} {revision : Nat}
    (hone : OneActive store)
    (h : writeWorkingSet store session storedItems storedLeases revision = .ok written) :
    OneActive written := by
  unfold writeWorkingSet at h
  obtain ⟨_, -, h⟩ := StoreResult.bind_ok.mp h
  obtain ⟨_, -, h⟩ := StoreResult.bind_ok.mp h
  obtain ⟨_, -, h⟩ := StoreResult.bind_ok.mp h
  split at h
  · obtain ⟨_, -, h⟩ := StoreResult.bind_ok.mp h
    obtain ⟨_, -, h⟩ := StoreResult.bind_ok.mp h
    obtain ⟨_, hchecked, h⟩ := StoreResult.bind_ok.mp h
    obtain rfl := StoreResult.pure_ok.mp h
    exact (require_ok.mp hchecked).2
  · obtain ⟨_, -, h⟩ := StoreResult.bind_ok.mp h
    obtain rfl := StoreResult.pure_ok.mp h
    refine nodup_activeItemIds_of_subset hone fun id lease hlease => ?_
    rw [getElem?_leasePayloads, KeyedRows.getElem?_discard] at hlease
    rw [getElem?_leasePayloads]
    split at hlease
    · cases hlease
    · exact hlease

theorem applyTo_oneActive {store committed : Store} {operation : StoreOperation}
    (hone : OneActive store) (h : operation.applyTo store = .ok committed) :
    OneActive committed := by
  cases operation with
  | bootstrap payload evidence =>
      obtain rfl := Except.ok.inj h
      exact hone
  | openOrMigrate legacy =>
      obtain rfl := Except.ok.inj h
      exact hone
  | transact mutation expected evidence outbox =>
      obtain ⟨result, htransact⟩ := StoreResult.map_fst_ok h
      obtain ⟨current, session, -, -, -, hcommit, -, -⟩ := transact_ok htransact
      exact commitSession_oneActive hcommit
  | replace payload expected evidence outbox =>
      obtain ⟨revision, hreplace⟩ := StoreResult.map_fst_ok h
      obtain ⟨-, hcommit, -⟩ := replace_ok hreplace
      exact commitSession_oneActive hcommit
  | transactWorkingSet request mutation expected evidence outbox =>
      obtain ⟨result, htransact⟩ := StoreResult.map_fst_ok h
      obtain ⟨current, session, written, added, final, -, -, -, hwritten, hevidence, hfinal, rfl,
        -⟩ := transactWorkingSet_ok htransact
      exact SameSession.oneActive (.ofWrites hevidence hfinal)
        (writeWorkingSet_oneActive hone hwritten)
  | markOutboxInFlight commandId ownerToken evidence =>
      obtain ⟨commit, hmark⟩ := StoreResult.map_fst_ok h
      obtain ⟨row, -, -, hcommit⟩ := SideEffectOutbox.markOutboxInFlight_ok hmark
      exact commitOutbox_oneActive hone hcommit
  | recordOutboxResult commandId result evidence ownerToken =>
      obtain ⟨commit, hrecord⟩ := StoreResult.map_fst_ok h
      obtain ⟨-, row, -, -, hcommit⟩ := SideEffectOutbox.recordOutboxResult_ok hrecord
      exact commitOutbox_oneActive hone hcommit
  | recoverOutbox dead =>
      obtain ⟨commit, hdemote⟩ := StoreResult.map_fst_ok h
      cases commit with
      | none =>
          obtain ⟨rfl, -⟩ := SideEffectOutbox.demoteDead_none hdemote
          exact hone
      | some commit =>
          exact commitOutbox_oneActive hone (SideEffectOutbox.demoteDead_commit hdemote)

theorem Descends.oneActive {store store' : Store} (h : Descends store store')
    (hone : OneActive store) : OneActive store' := by
  induction h with
  | refl => exact hone
  | tail _ hstep ih =>
      obtain ⟨operation, hoperation⟩ := hstep
      exact applyTo_oneActive ih hoperation

theorem createStore_oneActive {payload : Session} {evidence : List EvidenceRecord} {store : Store}
    (h : createStore payload evidence = .ok store) : OneActive store := by
  obtain ⟨written, hwritten, h⟩ := StoreResult.bind_ok.mp h
  obtain ⟨added, rfl, -, -⟩ := writeEvidence_ok h
  have hone := writeSession_oneActive hwritten
  exact hone

/-- The store that an opening starts is at revision 1, and loads. -/
theorem Opening.creates_ok {opening : Opening} {files : Files} {store : Store}
    (h : opening.creates files = .ok store) : store.sessionRevision = 1 ∧ OneActive store := by
  cases opening with
  | bootstrap payload evidence requireNew =>
      obtain ⟨-, hrevision, -, -, -⟩ := createStore_ok h
      exact ⟨hrevision, createStore_oneActive h⟩
  | openOrMigrate =>
      simp only [creates] at h
      split at h
      · cases h
      · obtain ⟨_, _, created, rows, -, -, hcreated, rfl⟩ := importLegacy_ok h
        obtain ⟨-, hrevision, -, -, -⟩ := createStore_ok hcreated
        have hone := createStore_oneActive hcreated
        exact ⟨hrevision, hone⟩

/-- A process that is past its transaction. -/
def Phase.past : Phase → Bool
  | .idle | .waiting | .locked => false
  | _ => true

section Invariant

variable (openings : Nat → Opening) (start : Files)

/-- Why a process fails without having changed the store. -/
inductive Refused (initial : List (Nat × Store)) (process : Nat) : StoreError → Prop where
  | busy : Refused initial process .persistenceBusy
  /-- It required a new session, and another process had started one. -/
  | stale {winner : Nat} {store : Store} {revision : Nat} :
      (openings process).requiresNew = true → (winner, store) ∈ initial → winner ≠ process →
      Refused initial process (.staleRevision 0 revision)
  /-- Its own input starts no store. -/
  | input {error : StoreError} :
      (openings process).creates start = .error error → Refused initial process error
  /-- The recovery bundle was found damaged or incomplete. -/
  | bundle : ¬ start.Sound → Refused initial process bundleInvalid

/-- What the phase of a process says about the initial transaction. -/
def Agrees (initial : List (Nat × Store)) (process : Nat) : Phase → Prop
  | .loading created => initial ≠ [] ∧ (created = true ↔ ∃ store, (process, store) ∈ initial)
  | .loaded session revision => ∃ winner store current, (winner, store) ∈ initial ∧
      Descends store current ∧ loadSnapshot current = .ok session ∧
      revision = current.sessionRevision ∧
      ((openings process).requiresNew = true → winner = process)
  | .failed error => Refused openings start initial process error
  | _ => True

/-- At most one initial transaction was committed, and the store comes from it. -/
def Started (race : Race) : Prop :=
  (race.initial = [] ∧ race.database.committed = .empty) ∨
    ∃ winner store current, race.initial = [(winner, store)] ∧
      (openings winner).creates start = .ok store ∧ race.database.committed = .store current ∧
      Descends store current ∧ (race.phases winner).past = true

structure RaceInvariant (race : Race) : Prop where
  database : (databaseRuns (plan openings) .empty start).Reachable race.database
  started : Started openings start race
  held : ∀ process, Database.held race.database process = true → race.phases process = .locked
  agrees : ∀ process, Agrees openings start race.initial process (race.phases process)

variable {openings start}

theorem Race.setPhase_self (race : Race) (process : Nat) (phase : Phase) :
    (race.setPhase process phase).phases process = phase := by
  simp [Race.setPhase]

theorem Race.setPhase_of_ne (race : Race) {process other : Nat} (phase : Phase)
    (h : other ≠ process) : (race.setPhase process phase).phases other = race.phases other := by
  simp [Race.setPhase, h]

/-- A step that commits nothing and moves one process. -/
theorem RaceInvariant.moved {race : Race} (hinv : RaceInvariant openings start race)
    {database : Database Party StoreError DatabaseState Files}
    (hdatabase : (databaseRuns (plan openings) .empty start).Reachable database)
    (hcommitted : database.committed = race.database.committed) {process : Nat} {phase : Phase}
    (hheld : ∀ other, Database.held database other = true → other ≠ process →
      Database.held race.database other = true)
    (hself : Database.held database process = true → phase = .locked)
    (hagrees : Agrees openings start race.initial process phase)
    (hpast : (race.phases process).past = true → phase.past = true) :
    RaceInvariant openings start
      (({ race with database := database } : Race).setPhase process phase) := by
  refine ⟨hdatabase, ?_, ?_, ?_⟩
  · rcases hinv.started with ⟨hinitial, hempty⟩ | ⟨winner, store, current, hinitial, hcreates,
      hcurrent, hdescends, hwinner⟩
    · exact .inl ⟨hinitial, hcommitted.trans hempty⟩
    · refine .inr ⟨winner, store, current, hinitial, hcreates, hcommitted.trans hcurrent,
        hdescends, ?_⟩
      by_cases hsame : winner = process
      · subst hsame
        rw [Race.setPhase_self]
        exact hpast hwinner
      · rw [Race.setPhase_of_ne _ _ hsame]
        exact hwinner
  · intro other hother
    by_cases hsame : other = process
    · subst hsame
      rw [Race.setPhase_self]
      exact hself hother
    · rw [Race.setPhase_of_ne _ _ hsame]
      exact hinv.held other (hheld other hother hsame)
  · intro other
    by_cases hsame : other = process
    · subst hsame
      rw [Race.setPhase_self]
      exact hagrees
    · rw [Race.setPhase_of_ne _ _ hsame]
      exact hinv.agrees other

/-- A step of the database that commits nothing and moves no process. -/
theorem RaceInvariant.framed {race : Race} (hinv : RaceInvariant openings start race)
    {database : Database Party StoreError DatabaseState Files}
    (hdatabase : (databaseRuns (plan openings) .empty start).Reachable database)
    (hcommitted : database.committed = race.database.committed)
    (hheld : ∀ process, Database.held database process = true →
      Database.held race.database process = true) :
    RaceInvariant openings start { race with database := database } := by
  refine ⟨hdatabase, ?_, fun process h => hinv.held process (hheld process h), hinv.agrees⟩
  rcases hinv.started with ⟨hinitial, hempty⟩ | ⟨winner, store, current, hinitial, hcreates,
    hcurrent, hdescends, hwinner⟩
  · exact .inl ⟨hinitial, hcommitted.trans hempty⟩
  · exact .inr ⟨winner, store, current, hinitial, hcreates, hcommitted.trans hcurrent, hdescends,
      hwinner⟩

theorem Opening.creates_of_keptFrom {opening : Opening} {files : Files}
    (h : KeptFrom start files) : opening.creates files = opening.creates start := by
  cases opening with
  | bootstrap payload evidence requireNew => rfl
  | openOrMigrate => simp only [creates, h.1]

/-- A process whose statement raises is refused for its input or for the bundle. -/
theorem RaceInvariant.refused {race : Race} (hinv : RaceInvariant openings start race)
    {process : Nat} {view : DatabaseState} {statement : InitialStatement}
    {rest : List InitialStatement} {error : StoreError}
    (htransaction : race.database.transaction = some ⟨.opener process, view, statement :: rest⟩)
    (hraised : statement (view, race.database.files) = .error error) :
    Refused openings start race.initial process error := by
  obtain ⟨hcommitted, -, hunderway⟩ := database_of_reachable hinv.database
  obtain ⟨done, planned, hplanned, hplan, hexecuted⟩ := hunderway _ htransaction
  cases hstate : race.database.committed with
  | schema => exact absurd hstate hcommitted
  | store current =>
      rw [hstate] at hplan
      simp [plan, isInitialized] at hplan
  | empty =>
      rw [hstate] at hplan hexecuted
      have hplan : (openings process).statements planned = done ++ statement :: rest := hplan
      have hexecute : execute ((openings process).statements planned) (.empty, planned) =
          .error error := by
        rw [hplan, execute_append, hexecuted]
        show execute (statement :: rest) (view, race.database.files) = _
        rw [execute_cons, hraised]
        rfl
      rcases Opening.statements_error hexecute with hcreates | ⟨rfl, hdamaged⟩
      · exact .input ((Opening.creates_of_keptFrom hplanned).symm.trans hcreates)
      · exact .bundle fun hsound => hdamaged (hplanned.2 hsound)

/-- What a load ends in agrees with the initial transaction. -/
theorem RaceInvariant.loadOutcome {race : Race} (hinv : RaceInvariant openings start race)
    {process : Nat} {created : Bool} (hphase : race.phases process = .loading created) :
    Agrees openings start race.initial process (loadOutcome (openings process) created
      race.database.committed race.database.files) ∧
      (loadOutcome (openings process) created race.database.committed
        race.database.files).past = true := by
  have hloading := hinv.agrees process
  rw [hphase] at hloading
  obtain ⟨hinitial, hcreated⟩ := hloading
  rcases hinv.started with ⟨hempty, -⟩ | ⟨winner, store, current, hwinner, hcreates, hcurrent,
    hdescends, -⟩
  · exact absurd hempty hinitial
  rw [hwinner] at hcreated ⊢
  have hcreated : created = true ↔ winner = process := by
    rw [hcreated]
    simp [eq_comm]
  rw [hcurrent]
  obtain ⟨session, hsession⟩ := (hdescends.oneActive (Opening.creates_ok hcreates).2).load
  simp only [InitializationRace.loadOutcome, hsession]
  cases hbundle : verifyBundle race.database.files with
  | error error =>
      obtain ⟨-, hkept, -⟩ := database_of_reachable hinv.database
      obtain rfl := verifyBundle_error hbundle
      refine ⟨.bundle fun hsound => ?_, rfl⟩
      rw [verifyBundle_ok (hkept.2 hsound)] at hbundle
      cases hbundle
  | ok _ =>
      dsimp only
      split
      · next hstale =>
        simp only [Bool.and_eq_true, Bool.not_eq_true'] at hstale
        obtain ⟨hnew, hlost⟩ := hstale
        refine ⟨.stale hnew (List.mem_singleton.mpr rfl) fun hsame => ?_, rfl⟩
        rw [hcreated.mpr hsame] at hlost
        cases hlost
      · next hkeeps =>
        refine ⟨⟨winner, store, current, List.mem_singleton.mpr rfl, hdescends, hsession, rfl,
          fun hnew => ?_⟩, rfl⟩
        exact hcreated.mp (by simpa [hnew] using hkeeps)

/-- The commit of a process, which starts the session or finds it started. -/
theorem RaceInvariant.committed {race : Race} (hinv : RaceInvariant openings start race)
    {process : Nat} {view : DatabaseState}
    {database : Database Party StoreError DatabaseState Files}
    (htransaction : race.database.transaction = some ⟨.opener process, view, []⟩)
    (hdatabase : (databaseRuns (plan openings) .empty start).Reachable database)
    (hcommit : database = { race.database with committed := view, transaction := none }) :
    RaceInvariant openings start (({ race with
      database := database
      initial := race.initial ++ (initialStore race.database.committed view).toList.map
        fun store => (process, store) } : Race).setPhase process
          (.loading (initialStore race.database.committed view).isSome)) := by
  have hfree : ∀ other, Database.held database other = false := by
    intro other
    rw [hcommit]
    rfl
  have hlocked := hinv.held process (by simp [Database.held, htransaction])
  obtain ⟨hcommitted, -, hunderway⟩ := database_of_reachable hinv.database
  obtain ⟨done, planned, hplanned, hplan, hexecuted⟩ := hunderway _ htransaction
  rw [List.append_nil] at hplan
  rw [← hplan] at hexecuted
  cases hstate : race.database.committed with
  | schema => exact absurd hstate hcommitted
  | store current =>
      rw [hstate] at hexecuted
      -- The process found the store and rolled back.
      have hview : view = .store current := (Prod.mk.inj (Except.ok.inj hexecuted)).1.symm
      simp only [initialStore, Option.toList_none, List.map_nil, List.append_nil,
        Option.isSome_none]
      refine hinv.moved hdatabase (by rw [hcommit, hstate, hview]) (fun other hother _ => ?_)
        (fun hother => ?_) ?_ (fun _ => rfl)
      · rw [hfree] at hother
        cases hother
      · rw [hfree] at hother
        cases hother
      · rcases hinv.started with ⟨-, hempty⟩ | ⟨winner, store, _, hwinner, -, -, -, hpast⟩
        · rw [hstate] at hempty
          cases hempty
        · refine ⟨by simp [hwinner], by simp, ?_⟩
          rintro ⟨store', hmem⟩
          rw [hwinner] at hmem
          obtain ⟨rfl, -⟩ := Prod.mk.inj (List.mem_singleton.mp hmem)
          rw [hlocked] at hpast
          cases hpast
  | empty =>
      rw [hstate] at hexecuted
      obtain ⟨store, hstore, rfl⟩ := Opening.statements_creates hexecuted
      have hinitial : race.initial = [] := by
        rcases hinv.started with ⟨hinitial, -⟩ | ⟨_, _, _, -, -, hcurrent, -, -⟩
        · exact hinitial
        · rw [hstate] at hcurrent
          cases hcurrent
      simp only [initialStore, hinitial, Option.toList_some, List.map_cons, List.map_nil,
        List.nil_append, Option.isSome_some]
      refine ⟨hdatabase, .inr ⟨process, store, store, rfl,
        (Opening.creates_of_keptFrom hplanned).symm.trans hstore, by rw [Race.setPhase, hcommit],
        .refl, by rw [Race.setPhase_self]; rfl⟩, fun other hother => ?_, fun other => ?_⟩
      · have hother : Database.held database other = true := hother
        rw [hfree] at hother
        cases hother
      · by_cases hsame : other = process
        · subst hsame
          rw [Race.setPhase_self]
          exact ⟨by simp [Race.setPhase], by simp [Race.setPhase]⟩
        · rw [Race.setPhase_of_ne _ _ hsame]
          have hagrees := hinv.agrees other
          rw [hinitial] at hagrees
          show Agrees openings start [(process, store)] other (race.phases other)
          cases hphase : race.phases other with
          | loading created =>
              rw [hphase] at hagrees
              exact absurd rfl hagrees.1
          | loaded session revision =>
              rw [hphase] at hagrees
              obtain ⟨_, _, _, hmem, -⟩ := hagrees
              cases hmem
          | failed error =>
              rw [hphase] at hagrees
              cases hagrees with
              | busy => exact .busy
              | stale hnew hmem hne => cases hmem
              | input hinput => exact .input hinput
              | bundle hsound => exact .bundle hsound
          | idle => trivial
          | waiting => trivial
          | locked => trivial
          | crashed => trivial

/-- The commit of a later operation on the store. -/
theorem RaceInvariant.written {race : Race} (hinv : RaceInvariant openings start race)
    {operation : StoreOperation} {view : DatabaseState}
    (htransaction : race.database.transaction = some ⟨.writer operation, view, []⟩)
    (hdatabase : (databaseRuns (plan openings) .empty start).Reachable
      { race.database with committed := view, transaction := none }) :
    RaceInvariant openings start { race with
      database := { race.database with committed := view, transaction := none } } := by
  obtain ⟨hcommitted, -, hunderway⟩ := database_of_reachable hinv.database
  obtain ⟨done, planned, -, hplan, hexecuted⟩ := hunderway _ htransaction
  rw [List.append_nil] at hplan
  rw [← hplan] at hexecuted
  have hresult := execute_plan_ok hexecuted
  refine ⟨hdatabase, ?_, fun process hother => (nomatch hother), hinv.agrees⟩
  rcases hinv.started with ⟨-, hempty⟩ | ⟨winner, store, current, hwinner, hcreates, hcurrent,
    hdescends, hpast⟩
  · rw [hempty] at hresult
    obtain ⟨_, _, hparty, -⟩ := hresult
    cases hparty
  · rw [hcurrent] at hresult
    obtain ⟨store', rfl, hlater⟩ := hresult
    exact .inr ⟨winner, store, store', hwinner, hcreates, rfl, hdescends.trans hlater, hpast⟩

theorem begin_next {database database' : Database Party StoreError DatabaseState Files}
    {party : Party} (h : database.next (plan openings) (.begin party) = some database') :
    database.transaction = none ∧ database' = { database with
      transaction := some ⟨party, database.committed,
        plan openings party database.committed database.files⟩ } := by
  simp only [Database.next] at h
  split at h
  · cases h
  · next hfree => exact ⟨hfree, (Option.some.inj h).symm⟩

/-- A process that awaits the database and does not have it moves on by itself. -/
theorem RaceInvariant.kept {race : Race} (hinv : RaceInvariant openings start race) {process : Nat}
    {phase : Phase} (hawaits : (race.phases process).awaits = true)
    (hagrees : Agrees openings start race.initial process phase)
    (hpast : (race.phases process).past = true → phase.past = true) :
    RaceInvariant openings start (race.setPhase process phase) := by
  refine hinv.moved hinv.database rfl (fun other hother _ => hother) (fun hother => ?_) hagrees
    hpast
  rw [hinv.held process hother] at hawaits
  cases hawaits

theorem RaceInvariant.next_probe {race race' : Race} {process : Nat}
    (hinv : RaceInvariant openings start race)
    (h : race.next openings (.probe process) = some race') :
    RaceInvariant openings start race' := by
  simp only [Race.next] at h
  split at h
  · next hopening hidle htransaction =>
    obtain rfl := Option.some.inj h
    refine hinv.kept (by rw [hidle]; rfl) ?_ (by rw [hidle]; rintro ⟨⟩)
    rcases hinv.started with ⟨-, hempty⟩ | ⟨winner, store, current, hwinner, -, hcurrent, -,
      hpast⟩
    · rw [hempty]
      trivial
    · rw [hcurrent]
      refine ⟨by simp [hwinner], by simp, ?_⟩
      rintro ⟨store', hmem⟩
      rw [hwinner] at hmem
      obtain ⟨rfl, -⟩ := Prod.mk.inj (List.mem_singleton.mp hmem)
      rw [hidle] at hpast
      cases hpast
  · cases h

theorem RaceInvariant.next_begin {race race' : Race} {process : Nat}
    (hinv : RaceInvariant openings start race)
    (h : race.next openings (.begin process) = some race') :
    RaceInvariant openings start race' := by
  simp only [Race.next] at h
  split at h
  · next hbegins =>
    obtain ⟨database, hdatabase, rfl⟩ := Option.map_eq_some_iff.mp h
    have hreachable := reachable_next hinv.database hdatabase
    obtain ⟨hfree, rfl⟩ := begin_next hdatabase
    refine hinv.moved hreachable rfl (fun other hother hne => ?_) (fun _ => rfl) trivial ?_
    · simp only [Database.held, decide_eq_true_eq] at hother
      exact absurd hother.symm hne
    · intro hpast
      cases hphase : race.phases process <;> simp_all [Phase.mayBegin, Phase.past]
  · cases h

theorem RaceInvariant.next_beginWrite {race race' : Race} {operation : StoreOperation}
    (hinv : RaceInvariant openings start race)
    (h : race.next openings (.beginWrite operation) = some race') :
    RaceInvariant openings start race' := by
  simp only [Race.next] at h
  obtain ⟨database, hdatabase, rfl⟩ := Option.map_eq_some_iff.mp h
  have hreachable := reachable_next hinv.database hdatabase
  obtain ⟨hfree, rfl⟩ := begin_next hdatabase
  refine hinv.framed hreachable rfl fun process hother => ?_
  cases hother

theorem RaceInvariant.next_statement {race race' : Race}
    (hinv : RaceInvariant openings start race)
    (h : race.next openings .statement = some race') :
    RaceInvariant openings start race' := by
  simp only [Race.next] at h
  split at h
  · next party view statement rest htransaction =>
    obtain ⟨database, hdatabase, hrace⟩ := Option.map_eq_some_iff.mp h
    have hreachable := reachable_next hinv.database hdatabase
    simp only [Database.next, htransaction] at hdatabase
    split at hdatabase
    · next view' files' hran =>
      obtain rfl := Option.some.inj hdatabase
      simp only [hran] at hrace
      obtain rfl := hrace
      refine hinv.framed hreachable rfl fun process hother => ?_
      unfold Database.held
      rw [htransaction]
      cases party with
      | opener holder => exact hother
      | writer operation => exact hother
    · next error hraised =>
      obtain rfl := Option.some.inj hdatabase
      simp only [hraised] at hrace
      cases party with
      | opener process =>
          obtain rfl := hrace
          refine hinv.moved hreachable rfl (fun other hother _ => ?_) (fun hother => ?_)
            (hinv.refused htransaction hraised) fun _ => rfl
          · cases hother
          · cases hother
      | writer operation =>
          obtain rfl := hrace
          refine hinv.framed hreachable rfl fun process hother => ?_
          cases hother
  · cases h

theorem RaceInvariant.next_commit {race race' : Race}
    (hinv : RaceInvariant openings start race)
    (h : race.next openings .commit = some race') :
    RaceInvariant openings start race' := by
  simp only [Race.next] at h
  split at h
  · next process view htransaction =>
    obtain ⟨database, hdatabase, rfl⟩ := Option.map_eq_some_iff.mp h
    have hreachable := reachable_next hinv.database hdatabase
    simp only [Database.next, htransaction] at hdatabase
    exact hinv.committed htransaction hreachable (Option.some.inj hdatabase).symm
  · next operation view htransaction =>
    obtain ⟨database, hdatabase, rfl⟩ := Option.map_eq_some_iff.mp h
    have hreachable := reachable_next hinv.database hdatabase
    simp only [Database.next, htransaction] at hdatabase
    obtain rfl := Option.some.inj hdatabase
    exact hinv.written htransaction hreachable
  · cases h

theorem RaceInvariant.next_busy {race race' : Race} {process : Nat}
    (hinv : RaceInvariant openings start race)
    (h : race.next openings (.busy process) = some race') :
    RaceInvariant openings start race' := by
  simp only [Race.next] at h
  split at h
  · next hbusy =>
    obtain rfl := Option.some.inj h
    exact hinv.kept hbusy.2 .busy fun _ => rfl
  · cases h

theorem RaceInvariant.next_load {race race' : Race} {process : Nat}
    (hinv : RaceInvariant openings start race)
    (h : race.next openings (.load process) = some race') :
    RaceInvariant openings start race' := by
  simp only [Race.next] at h
  split at h
  · next created hphase htransaction =>
    obtain rfl := Option.some.inj h
    obtain ⟨hagrees, hpast⟩ := hinv.loadOutcome hphase
    exact hinv.kept (by rw [hphase]; rfl) hagrees fun _ => hpast
  · cases h

theorem RaceInvariant.next_crash {race race' : Race} {process : Nat}
    (hinv : RaceInvariant openings start race)
    (h : race.next openings (.crash process) = some race') :
    RaceInvariant openings start race' := by
  simp only [Race.next] at h
  split at h
  · obtain ⟨database, hdatabase, rfl⟩ := Option.map_eq_some_iff.mp h
    have hreachable := reachable_next hinv.database hdatabase
    obtain rfl := Option.some.inj hdatabase
    refine hinv.moved hreachable rfl (fun other hother _ => ?_) (fun hother => ?_) trivial
      fun _ => rfl
    · cases hother
    · cases hother
  · split at h
    · next hawaits =>
      obtain rfl := Option.some.inj h
      exact hinv.kept hawaits trivial fun _ => rfl
    · cases h

theorem RaceInvariant.next_crashWriter {race race' : Race}
    (hinv : RaceInvariant openings start race)
    (h : race.next openings .crashWriter = some race') :
    RaceInvariant openings start race' := by
  simp only [Race.next] at h
  split at h
  · obtain ⟨database, hdatabase, rfl⟩ := Option.map_eq_some_iff.mp h
    have hreachable := reachable_next hinv.database hdatabase
    obtain rfl := Option.some.inj hdatabase
    refine hinv.framed hreachable rfl fun process hother => ?_
    cases hother
  · cases h

theorem RaceInvariant.next {race race' : Race} {step : RaceStep}
    (hinv : RaceInvariant openings start race) (h : race.next openings step = some race') :
    RaceInvariant openings start race' := by
  cases step with
  | probe process => exact hinv.next_probe h
  | begin process => exact hinv.next_begin h
  | beginWrite operation => exact hinv.next_beginWrite h
  | statement => exact hinv.next_statement h
  | commit => exact hinv.next_commit h
  | busy process => exact hinv.next_busy h
  | load process => exact hinv.next_load h
  | crash process => exact hinv.next_crash h
  | crashWriter => exact hinv.next_crashWriter h

theorem raceInvariant_of_reachable {race : Race} (h : (raceRuns openings start).Reachable race) :
    RaceInvariant openings start race := by
  refine h.invariant (RaceInvariant openings start) ?_ fun _ _ _ hinv hnext => hinv.next hnext
  rintro _ rfl
  exact ⟨.start rfl, .inl ⟨rfl, rfl⟩, fun process hother => (nomatch hother),
    fun process => trivial⟩

/-- A step that a process takes while no other one acts. -/
def RaceStep.ofProcess (process : Nat) : RaceStep → Bool
  | .probe other | .begin other | .load other => other = process
  | .statement | .commit => true
  | _ => false

theorem run_cons (race : Race) (step : RaceStep) (steps : List RaceStep) :
    TransitionSystem.run (Race.next openings) race (step :: steps) =
      (race.next openings step).bind fun race =>
        TransitionSystem.run (Race.next openings) race steps := by
  simp only [TransitionSystem.run, List.foldlM_cons]
  rfl

theorem run_append (race : Race) (steps steps' : List RaceStep) :
    TransitionSystem.run (Race.next openings) race (steps ++ steps') =
      (TransitionSystem.run (Race.next openings) race steps).bind fun race =>
        TransitionSystem.run (Race.next openings) race steps' := by
  simp only [TransitionSystem.run, List.foldlM_append]
  rfl

/-- The statements of a transaction that executes, one after another. -/
theorem run_statements {race : Race} {process : Nat} {committed view' : DatabaseState}
    {files' : Files} (rest : List InitialStatement) {view : DatabaseState} {files : Files}
    (hexecute : execute rest (view, files) = .ok (view', files')) :
    TransitionSystem.run (Race.next openings)
        { race with database := ⟨committed, files, some ⟨.opener process, view, rest⟩⟩ }
        (List.replicate rest.length .statement) =
      some { race with database := ⟨committed, files', some ⟨.opener process, view', []⟩⟩ } := by
  induction rest generalizing view files with
  | nil =>
      obtain ⟨rfl, rfl⟩ := Prod.mk.inj (Except.ok.inj hexecute)
      rfl
  | cons statement rest ih =>
      rw [execute_cons] at hexecute
      cases hran : statement (view, files) with
      | error error =>
          rw [hran] at hexecute
          cases hexecute
      | ok state =>
          obtain ⟨middle, between⟩ := state
          rw [hran] at hexecute
          rw [List.length_cons, List.replicate_succ, run_cons]
          simp only [Race.next, Database.next, hran, Option.map_some, Option.bind_some]
          exact ih hexecute

/-- A process that may take the lock of an uninitialized store initializes it alone. -/
theorem run_initializes {race : Race} {process : Nat} {store : Store}
    (hbegins : (race.phases process).mayBegin (openings process) = true)
    (hempty : race.database.committed = .empty) (hfree : race.database.transaction = none)
    (hinitial : race.initial = []) (hsound : race.database.files.Sound)
    (hcreates : (openings process).creates race.database.files = .ok store) :
    ∃ steps race', (∀ step ∈ steps, RaceStep.ofProcess process step = true) ∧
      TransitionSystem.run (Race.next openings) race steps = some race' ∧
      race'.initial = [(process, store)] ∧
      ∃ session, loadSnapshot store = .ok session ∧ race'.phases process = .loaded session 1 := by
  obtain ⟨hrevision, hone⟩ := Opening.creates_ok hcreates
  obtain ⟨session, hsession⟩ := hone.load
  obtain ⟨files', hexecute, hsound'⟩ := Opening.statements_ok hsound hcreates
  obtain ⟨⟨committed, files, transaction⟩, phases, initial⟩ := race
  obtain rfl : committed = .empty := hempty
  obtain rfl : transaction = none := hfree
  obtain rfl : initial = [] := hinitial
  let statements := (openings process).statements files
  let locked : Race := ⟨⟨.empty, files, some ⟨.opener process, .empty, statements⟩⟩,
    Function.update phases process .locked, []⟩
  let executed : Race := ⟨⟨.empty, files', some ⟨.opener process, .store store, []⟩⟩,
    locked.phases, []⟩
  let committed : Race := ⟨⟨.store store, files', none⟩,
    Function.update locked.phases process (.loading true), [(process, store)]⟩
  have hbegin : Race.next openings ⟨⟨.empty, files, none⟩, phases, []⟩ (.begin process) =
      some locked := by
    simp only [Race.next, hbegins, if_true]
    rfl
  have hstatements : TransitionSystem.run (Race.next openings) locked
      (List.replicate statements.length .statement) = some executed :=
    @run_statements _ locked _ _ _ _ statements _ _ hexecute
  have hcommit : executed.next openings .commit = some committed := rfl
  have hload : committed.next openings (.load process) =
      some (committed.setPhase process (.loaded session 1)) := by
    have hphase : committed.phases process = .loading true := by simp [committed]
    have houtcome : loadOutcome (openings process) true (.store store) files' =
        .loaded session 1 := by
      simp [loadOutcome, verifyBundle_ok hsound', hsession, hrevision]
    simp only [Race.next, hphase]
    exact congrArg (fun phase => some (committed.setPhase process phase)) houtcome
  refine ⟨.begin process :: (List.replicate statements.length .statement ++
    [.commit, .load process]), committed.setPhase process (.loaded session 1), ?_, ?_, rfl,
    session, hsession, Race.setPhase_self _ _ _⟩
  · intro step hstep
    simp only [List.mem_cons, List.mem_append, List.mem_replicate, List.not_mem_nil,
      or_false] at hstep
    rcases hstep with rfl | ⟨-, rfl⟩ | rfl | rfl <;> simp [RaceStep.ofProcess]
  · rw [run_cons, hbegin, Option.bind_some, run_append, hstatements, Option.bind_some, run_cons,
      hcommit, Option.bind_some, run_cons, hload]
    rfl

/-- While no initial transaction is committed, a process that has not begun and whose input
starts a store initializes it alone. -/
theorem RaceInvariant.initializes {race : Race} (hinv : RaceInvariant openings start race)
    (hinitial : race.initial = []) (hfree : race.database.transaction = none)
    (hsound : start.Sound) {process : Nat} {store : Store}
    (hidle : race.phases process = .idle)
    (hcreates : (openings process).creates start = .ok store) :
    ∃ steps race', (∀ step ∈ steps, RaceStep.ofProcess process step = true) ∧
      TransitionSystem.run (Race.next openings) race steps = some race' ∧
      race'.initial = [(process, store)] ∧
      ∃ session, loadSnapshot store = .ok session ∧ race'.phases process = .loaded session 1 := by
  have hempty : race.database.committed = .empty := by
    rcases hinv.started with ⟨-, hempty⟩ | ⟨_, _, _, hstarted, -⟩
    · exact hempty
    · rw [hinitial] at hstarted
      cases hstarted
  obtain ⟨-, hkept, -⟩ := database_of_reachable hinv.database
  have hcreates := (Opening.creates_of_keptFrom hkept).trans hcreates
  cases hopening : openings process with
  | bootstrap payload evidence requireNew =>
      exact run_initializes (by rw [hidle, hopening]; rfl) hempty hfree hinitial (hkept.2 hsound)
        hcreates
  | openOrMigrate =>
      -- It first looks whether the store is initialized.
      have hprobe : race.next openings (.probe process) =
          some (race.setPhase process .waiting) := by
        simp only [Race.next, hopening, hidle, hfree, hempty, isInitialized]
      have hbegins : ((race.setPhase process .waiting).phases process).mayBegin
          (openings process) = true := by
        rw [Race.setPhase_self]
        rfl
      obtain ⟨steps, race', hsteps, hrun, hresult⟩ :=
        run_initializes hbegins hempty hfree hinitial (hkept.2 hsound) hcreates
      refine ⟨.probe process :: steps, race', ?_, ?_, hresult⟩
      · intro step hstep
        rcases List.mem_cons.mp hstep with rfl | hstep
        · simp [RaceStep.ofProcess]
        · exact hsteps step hstep
      · rw [run_cons, hprobe]
        exact hrun

/-- For any processes, writers, interleaving and crashes: at most one initial payload becomes
revision 1, and the store comes from it by later operations; before it the store is not
initialized, and a later process alone initializes it whole. A process that loads gets the
store that the payload started, and one that required a new session started it; one that
fails was refused and started nothing that is not its own. -/
theorem initialization_race {race : Race} (h : (raceRuns openings start).Reachable race) :
    race.initial.length ≤ 1 ∧
    (race.initial = [] → race.database.committed = .empty) ∧
    (∀ winner store, (winner, store) ∈ race.initial →
      (openings winner).creates start = .ok store ∧ store.sessionRevision = 1 ∧
      ∃ current, race.database.committed = .store current ∧ Descends store current) ∧
    (∀ process session revision, race.phases process = .loaded session revision →
      ∃ winner store current, (winner, store) ∈ race.initial ∧ Descends store current ∧
        loadSnapshot current = .ok session ∧ revision = current.sessionRevision ∧
        ((openings process).requiresNew = true → winner = process)) ∧
    (∀ process error, race.phases process = .failed error →
      Refused openings start race.initial process error) ∧
    (race.initial = [] → race.database.transaction = none → start.Sound →
      ∀ process store, race.phases process = .idle →
        (openings process).creates start = .ok store →
        ∃ steps race', (∀ step ∈ steps, RaceStep.ofProcess process step = true) ∧
          TransitionSystem.run (Race.next openings) race steps = some race' ∧
          race'.initial = [(process, store)] ∧
          ∃ session, loadSnapshot store = .ok session ∧
            race'.phases process = .loaded session 1) := by
  have hinv := raceInvariant_of_reachable h
  refine ⟨?_, ?_, ?_, ?_, ?_, ?_⟩
  · rcases hinv.started with ⟨hinitial, -⟩ | ⟨_, _, _, hinitial, -⟩ <;> simp [hinitial]
  · intro hnone
    rcases hinv.started with ⟨-, hempty⟩ | ⟨_, _, _, hinitial, -⟩
    · exact hempty
    · rw [hnone] at hinitial
      cases hinitial
  · intro winner store hmem
    rcases hinv.started with ⟨hinitial, -⟩ | ⟨winner', store', current, hinitial, hcreates,
      hcurrent, hdescends, -⟩
    · rw [hinitial] at hmem
      cases hmem
    · rw [hinitial] at hmem
      obtain ⟨rfl, rfl⟩ := Prod.mk.inj (List.mem_singleton.mp hmem)
      exact ⟨hcreates, (Opening.creates_ok hcreates).1, current, hcurrent, hdescends⟩
  · intro process session revision hphase
    have hagrees := hinv.agrees process
    rw [hphase] at hagrees
    exact hagrees
  · intro process error hphase
    have hagrees := hinv.agrees process
    rw [hphase] at hagrees
    exact hagrees
  · intro hinitial hfree hsound process store hidle hcreates
    exact hinv.initializes hinitial hfree hsound hidle hcreates

end Invariant

/-- Every process bootstraps the same session. -/
def bootstrapping (requireNew : Bool) : Nat → Opening := fun _ =>
  .bootstrap openedSession [] requireNew

def raceAfter (requireNew : Bool) (steps : List RaceStep) : Option Race :=
  TransitionSystem.run (Race.next (bootstrapping requireNew))
    { database := { committed := .empty, files := { legacy := none } } } steps

theorem raceAfter_reachable {requireNew : Bool} {steps : List RaceStep} {race : Race}
    (h : raceAfter requireNew steps = some race) :
    (raceRuns (bootstrapping requireNew) { legacy := none }).Reachable race :=
  TransitionSystem.reachable_of_run steps (.start rfl) h

def Phase.failure : Phase → Option StoreError
  | .failed error => some error
  | _ => none

theorem Phase.failure_eq_some {phase : Phase} {error : StoreError}
    (h : phase.failure = some error) : phase = .failed error := by
  cases phase <;> simp_all [failure]

/-- The second process required a new session and lost. -/
theorem initialization_race_lost :
    ∃ race, (raceRuns (bootstrapping true) { legacy := none }).Reachable race ∧
      race.initial.length ≤ 1 ∧ race.phases 1 = .failed (.staleRevision 0 1) ∧
      Refused (bootstrapping true) { legacy := none } race.initial 1 (.staleRevision 0 1) := by
  obtain ⟨race, hrun, hlost⟩ := (Option.any_eq_true
    (fun race : Race => (race.phases 1).failure = some (.staleRevision 0 1))
    (raceAfter true [.begin 0, .statement, .statement, .statement, .statement, .commit, .begin 1,
      .commit, .load 1])).mp (by decide +kernel)
  have hreachable := raceAfter_reachable hrun
  have hphase := Phase.failure_eq_some (of_decide_eq_true hlost)
  obtain ⟨hone, -, -, -, hrefused, -⟩ := initialization_race hreachable
  exact ⟨race, hreachable, hone, hphase, hrefused 1 _ hphase⟩

/-- The first process starts the session; the second, which did not require a new one, waited
for the lock too long, and neither loads nor finds its revision stale. -/
theorem initialization_race_busy :
    ∃ race, (raceRuns (bootstrapping false) { legacy := none }).Reachable race ∧
      race.initial.map (·.1) = [0] ∧ (bootstrapping false 1).requiresNew = false ∧
      race.phases 1 = .failed .persistenceBusy := by
  obtain ⟨race, hrun, hbusy⟩ := (Option.any_eq_true
    (fun race : Race => race.initial.map (·.1) = [0] ∧
      (race.phases 1).failure = some .persistenceBusy)
    (raceAfter false [.begin 0, .busy 1, .statement, .statement, .statement, .statement, .commit,
      .load 0])).mp (by decide +kernel)
  obtain ⟨hinitial, hfailure⟩ := of_decide_eq_true hbusy
  exact ⟨race, raceAfter_reachable hrun, hinitial, rfl, Phase.failure_eq_some hfailure⟩

end GhAddressCr.InitializationRace
