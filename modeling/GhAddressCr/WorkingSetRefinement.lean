import GhAddressCr.SideEffectOutbox
import GhAddressCr.WorkingSetLocality

/-!
# Working sets refine whole sessions

A transaction on a declared working set commits what the whole-session transaction commits
for the same mutation, as long as the mutation keeps to the rows it loaded and leaves the
metadata an object.
-/
namespace GhAddressCr.RuntimeStore

open KeyedRows SideEffectOutbox

/-- The stores that initialization and any sequence of commits leave. -/
inductive Committed : Store → Prop where
  | bootstrap {payload : Session} {evidence : List EvidenceRecord} {store : Store} :
      commitSession blankStore payload evidence [] 1 = .ok store → Committed store
  | transact {V : Type} {store committed : Store} {mutation : Mutation V}
      {expected : Option Nat} {evidence : List EvidenceRecord} {outbox : List OutboxCommand}
      {result : TransactionResult V} : Committed store →
      RuntimeStore.transact store mutation expected evidence outbox = .ok (committed, result) →
      Committed committed
  | replace {store committed : Store} {payload : Session} {expected : Option Nat}
      {evidence : List EvidenceRecord} {outbox : List OutboxCommand} {revision : Nat} :
      Committed store →
      RuntimeStore.replace store payload expected evidence outbox = .ok (committed, revision) →
      Committed committed
  | workingSet {V : Type} {store committed : Store} {request : WorkingSetRequest}
      {whole : Session} {loaded : WorkingSet} {mutation : Mutation V} {expected : Option Nat}
      {evidence : List EvidenceRecord} {outbox : List OutboxCommand}
      {result : TransactionResult V} : Committed store → Loaded store request whole loaded →
      LocalMutation mutation whole loaded.session →
      transactWorkingSet store request mutation expected evidence outbox =
        .ok (committed, result) → Committed committed
  | outbox {store committed : Store} {rows : Rows OutboxRow} {evidence : List EvidenceRecord}
      {commit : OutboxCommit} : Committed store →
      commitOutbox store rows evidence = .ok (committed, commit) → Committed committed

theorem get_state_of_activeLease {items : Rows Dict} {leases : Rows Lease} {itemId : String}
    {item : Dict} {lease : Lease} (hitem : (projectedItems items leases)[itemId]? = some item)
    (hlease : activeLeaseOf leases itemId = some lease) : item.get "state" = .str "claimed" := by
  rw [getElem?_projectedItems, hlease] at hitem
  obtain ⟨before, -, rfl⟩ := Option.map_eq_some_iff.mp hitem
  exact get_state_projectClaim_some before lease

theorem SameSession.wellFormed {store other : Store} (h : SameSession store other)
    (hformed : WellFormed store) : WellFormed other := by
  obtain ⟨hid, hactive, hclaimed⟩ := hformed
  constructor
  · rw [h.root]
    exact hid
  · rw [h.leases]
    exact hactive
  · rw [h.items, h.leases]
    exact hclaimed

theorem commitSession_wellFormed {store committed : Store} {session : Session}
    {evidence : List EvidenceRecord} {outbox : List OutboxCommand} {revision : Nat}
    (h : commitSession store session evidence outbox revision = .ok committed) :
    WellFormed committed := by
  obtain ⟨written, added, final, hwritten, hevidence, houtbox, rfl⟩ := commitSession_ok h
  refine (SameSession.ofWrites hevidence houtbox).wellFormed ?_
  obtain ⟨hid, hactive, hroot, hitems, hleases, -⟩ := writeSession_view hwritten
  constructor
  · rw [hroot]
    exact hid
  · rw [hleases]
    exact hactive
  · intro itemId item lease hitem hlease
    rw [hitems] at hitem
    rw [hleases] at hlease
    exact get_state_of_activeLease hitem hlease

/-- What a transaction writes once the session is written. -/
def writeRecords (written : Store) (evidence : List EvidenceRecord)
    (outbox : List OutboxCommand) (revision : Nat) : StoreResult Store := do
  let written ← writeEvidence written evidence revision
  let written ← writeOutbox written outbox revision
  return advanceRevision written revision

/-- The whole-session transaction, from its mutation's result on. -/
def commitWhole {V : Type} (store : Store) (evidence : List EvidenceRecord)
    (outbox : List OutboxCommand) (revision : Nat) (result : Session × V) :
    StoreResult (Store × TransactionResult V) := do
  let written ← writeSession store result.1 revision
  let committed ← writeRecords written (evidence ++ result.1.pendingEvidence) outbox revision
  let payload ← committedView result.1
  return (committed, ⟨payload, revision, result.2⟩)

/-- The transaction on a working set, from its mutation's result on. -/
def commitPart {V : Type} (store : Store) (loaded : WorkingSet) (evidence : List EvidenceRecord)
    (outbox : List OutboxCommand) (revision : Nat) (result : Session × V) :
    StoreResult (Store × TransactionResult V) := do
  let written ← writeWorkingSet store result.1 loaded.storedItems loaded.storedLeases revision
  let committed ← writeRecords written (evidence ++ result.1.pendingEvidence) outbox revision
  let payload ← committedView result.1
  return (committed, ⟨payload, revision, result.2⟩)

theorem transact_eq {V : Type} {store : Store} {whole : Session} {mutation : Mutation V}
    {expected : Option Nat} {evidence : List EvidenceRecord} {outbox : List OutboxCommand}
    (hwhole : loadSnapshot store = .ok whole) :
    transact store mutation expected evidence outbox = (do
      checkRevision expected store.sessionRevision
      let result ← runMutation mutation whole
      commitWhole store evidence outbox (store.sessionRevision + 1) result) := by
  have hwrites : ∀ session, commitSession store session evidence outbox
        (store.sessionRevision + 1) =
      writeSession store session (store.sessionRevision + 1) >>= fun written =>
        writeRecords written (evidence ++ session.pendingEvidence) outbox
          (store.sessionRevision + 1) := fun _ => rfl
  simp only [transact, hwhole, hwrites, commitWhole, bind_assoc]
  rfl

theorem transactWorkingSet_eq {V : Type} {store : Store} {request : WorkingSetRequest}
    {loaded : WorkingSet} {mutation : Mutation V} {expected : Option Nat}
    {evidence : List EvidenceRecord} {outbox : List OutboxCommand}
    (hloaded : loadWorkingSet store request = .ok loaded) :
    transactWorkingSet store request mutation expected evidence outbox = (do
      checkRevision expected store.sessionRevision
      let result ← runMutation mutation loaded.session
      commitPart store loaded evidence outbox (store.sessionRevision + 1) result) := by
  simp only [transactWorkingSet, hloaded, commitPart, writeRecords, bind_assoc]
  rfl

/-- Both transactions commit the same, or both raise. -/
inductive SameOutcome {V : Type} : StoreResult (Store × TransactionResult V) →
    StoreResult (Store × TransactionResult V) → Prop where
  | raised (e e' : StoreError) : SameOutcome (.error e) (.error e')
  | committed {store store' : Store} {result result' : TransactionResult V} (session : Session)
      (reloaded : loadSnapshot store = .ok session)
      (reloaded' : loadSnapshot store' = .ok session)
      (value : result'.value = result.value)
      (evidence : store'.evidence = store.evidence)
      (outbox : store'.outbox = store.outbox)
      (revision : result'.revision = result.revision)
      (latest : store'.latestRevision = store.latestRevision)
      (sessionRow : store'.sessionRevision = store.sessionRevision) :
      SameOutcome (.ok (store, result)) (.ok (store', result'))

theorem SameOutcome.isOk {V : Type} {x y : StoreResult (Store × TransactionResult V)}
    (h : SameOutcome x y) : y.isOk = x.isOk := by
  cases h <;> rfl

theorem SameOutcome.bind {V α : Type} (x : StoreResult α)
    {f g : α → StoreResult (Store × TransactionResult V)} (h : ∀ a, SameOutcome (f a) (g a)) :
    SameOutcome (x >>= f) (x >>= g) := by
  cases x with
  | error e => exact .raised e e
  | ok a => exact h a

/-- The records written after the session depend on the records there were. -/
theorem writeRecords_alike {written other : Store} (hroot : other.root = written.root)
    (hevidence : other.evidence = written.evidence) (houtbox : other.outbox = written.outbox)
    (evidence : List EvidenceRecord) (outbox : List OutboxCommand) (revision : Nat) :
    (∃ e, writeRecords written evidence outbox revision = .error e ∧
        writeRecords other evidence outbox revision = .error e) ∨
      ∃ rows commands,
        writeRecords written evidence outbox revision = .ok { written with
          evidence := rows
          outbox := commands
          latestRevision := revision } ∧
        writeRecords other evidence outbox revision = .ok { other with
          evidence := rows
          outbox := commands
          latestRevision := revision } := by
  unfold writeRecords writeEvidence writeOutbox
  rw [hevidence]
  cases evidence.foldlM (fun rows record => writeEvidenceRecord rows record revision)
      written.evidence with
  | error e => exact Or.inl ⟨e, rfl, rfl⟩
  | ok rows =>
      simp only [bind, Except.bind, pure, Except.pure]
      rw [hroot, houtbox]
      cases outbox.foldlM (fun rows command =>
          insertOutboxRow (sessionId written.root) rows command revision) written.outbox with
      | error e => exact Or.inl ⟨e, rfl, rfl⟩
      | ok commands => exact Or.inr ⟨rows, commands, rfl, rfl⟩

/-- The checks a write of the session passes, besides those on its root. -/
def LeasesAllowed (stored : Rows LeaseRow) (leases : Rows Lease) : Prop :=
  (activeItemIds leases).Nodup ∧ ∀ lease ∈ changedLeases stored leases, lease.conflictKeys.Nodup

/-- The session row is the one to write: it has an id, the stored one. -/
structure KeepsRow (store : Store) (session : Session) : Prop where
  identified : sessionId session.root ≠ ""
  same : sessionId session.root = sessionId store.root

/-- The store after the whole session is written. -/
def wholeWritten (store : Store) (session : Session) (revision : Nat) : Store :=
  { store with
    root := session.root
    sessionRevision := revision
    items := itemRows store.items (projectedItems session.items session.leases) revision
    leases := leaseRows store.leases session.leases revision
    leaseEvents := session.leaseEvents }

theorem writeSession_iff {store written : Store} {session : Session} {revision : Nat}
    (hrow : KeepsRow store session) :
    writeSession store session revision = .ok written ↔
      LeasesAllowed store.leases session.leases ∧
        wholeWritten store session revision = written := by
  unfold writeSession
  simp only [if_pos hrow.same]
  constructor
  · intro h
    obtain ⟨_, _, h⟩ := StoreResult.bind_ok.mp h
    obtain ⟨items, hitems, h⟩ := StoreResult.bind_ok.mp h
    obtain ⟨hnodup, rfl⟩ := deriveItemClaimProjection_ok.mp hitems
    obtain ⟨_, hchecked, h⟩ := StoreResult.bind_ok.mp h
    exact ⟨⟨hnodup, (require_ok.mp hchecked).1⟩, StoreResult.pure_ok.mp h⟩
  · rintro ⟨⟨hnodup, hkeys⟩, hwritten⟩
    refine StoreResult.bind_ok.mpr ⟨(), require_ok.mpr hrow.identified, ?_⟩
    refine StoreResult.bind_ok.mpr ⟨_, deriveItemClaimProjection_ok.mpr ⟨hnodup, rfl⟩, ?_⟩
    refine StoreResult.bind_ok.mpr ⟨(), require_ok.mpr ⟨hkeys, ?_⟩, ?_⟩
    · rw [leasePayloads_leaseRows]
      exact hnodup
    · exact StoreResult.pure_ok.mpr hwritten

/-- `metadata` is an object, or there is none. -/
def MetadataIsObject (session : Session) : Prop :=
  session.root.get "metadata" = .null ∨ ((session.root.get "metadata").toDict?).isSome

instance (session : Session) : Decidable (MetadataIsObject session) :=
  inferInstanceAs (Decidable (_ ∨ _))

section Part

variable {store : Store} {request : WorkingSetRequest} {whole : Session} {loaded : WorkingSet}
  {changed : Session}

/-- The store after the rows of a working set are written back. -/
def writtenPart (store : Store) (loaded : WorkingSet) (changed : Session) (revision : Nat) :
    Store :=
  { store with
    root := changed.root
    sessionRevision := revision
    items := writeBack store.items loaded.storedItems
      (projectedItems changed.items changed.leases)
      (itemRows loaded.storedItems (projectedItems changed.items changed.leases) revision)
    leases := writeBack store.leases loaded.storedLeases changed.leases
      (leaseRows loaded.storedLeases changed.leases revision)
    leaseEvents := store.leaseEvents ++ changed.leaseEvents }

theorem Loaded.rejects_nothing (h : Loaded store request whole loaded)
    (hwrites : LocalWrites whole loaded.session changed) :
    rejectUnselectedExistingRows "items" (projectedItems changed.items changed.leases)
        loaded.storedItems store.items = .ok () ∧
      rejectUnselectedExistingRows "leases" changed.leases loaded.storedLeases store.leases =
        .ok () := by
  constructor
  · refine require_ok.mpr fun id hcandidate hunselected => ?_
    rw [mem_keys_iff, getElem?_projectedItems] at hcandidate
    have hnew := hwrites.items id ((h.item_iff id).mpr hunselected) (by simpa using hcandidate)
    rw [h.wholeItems, getElem?_projectedItems, getElem?_itemPayloads] at hnew
    simpa using hnew
  · refine require_ok.mpr fun id hcandidate hunselected => ?_
    rw [mem_keys_iff] at hcandidate
    have hnew := hwrites.leases id ((h.lease_iff id).mpr hunselected) hcandidate
    rw [h.wholeLeases, getElem?_leasePayloads] at hnew
    simpa using hnew

/-- The row-level write passes exactly the checks the whole-session write passes. -/
theorem Loaded.writeWorkingSet_iff (h : Loaded store request whole loaded)
    (hwrites : LocalWrites whole loaded.session changed) (hrow : KeepsRow store changed)
    {written : Store} {revision : Nat} :
    writeWorkingSet store changed loaded.storedItems loaded.storedLeases revision =
        .ok written ↔
      MetadataIsObject changed ∧
        LeasesAllowed store.leases (putBack whole loaded.session changed).leases ∧
        writtenPart store loaded changed revision = written := by
  obtain ⟨hitems, hleases⟩ := h.rejects_nothing hwrites
  have hpart : (activeItemIds (putBack whole loaded.session changed).leases).Nodup →
      (activeItemIds changed.leases).Nodup := fun hnodup =>
    nodup_activeItemIds_of_subset hnodup fun id lease hlease => by
      rw [h.getElem?_putBack_leases, hlease, Option.some_or]
  unfold writeWorkingSet
  simp only [if_pos hrow.same]
  constructor
  · intro hwrite
    obtain ⟨_, _, hwrite⟩ := StoreResult.bind_ok.mp hwrite
    obtain ⟨items, hderived, hwrite⟩ := StoreResult.bind_ok.mp hwrite
    obtain ⟨-, rfl⟩ := deriveItemClaimProjection_ok.mp hderived
    obtain ⟨_, hmetadata, hwrite⟩ := StoreResult.bind_ok.mp hwrite
    obtain ⟨_, _, hwrite⟩ := StoreResult.bind_ok.mp hwrite
    obtain ⟨_, _, hwrite⟩ := StoreResult.bind_ok.mp hwrite
    obtain ⟨_, hchecked, hwrite⟩ := StoreResult.bind_ok.mp hwrite
    obtain ⟨hkeys, hnodup⟩ := require_ok.mp hchecked
    have hnodup : (activeItemIds (putBack whole loaded.session changed).leases).Nodup := by
      rw [← h.leasePayloads_writeBack changed revision]
      exact hnodup
    refine ⟨require_ok.mp hmetadata, ⟨hnodup, ?_⟩, StoreResult.pure_ok.mp hwrite⟩
    intro lease hlease
    exact hkeys lease ((h.mem_changedLeases hwrites lease).mp hlease)
  · rintro ⟨hmetadata, ⟨hnodup, hkeys⟩, hwritten⟩
    refine StoreResult.bind_ok.mpr ⟨(), require_ok.mpr hrow.identified, ?_⟩
    refine StoreResult.bind_ok.mpr
      ⟨_, deriveItemClaimProjection_ok.mpr ⟨hpart hnodup, rfl⟩, ?_⟩
    refine StoreResult.bind_ok.mpr ⟨(), require_ok.mpr hmetadata, ?_⟩
    refine StoreResult.bind_ok.mpr ⟨(), hitems, ?_⟩
    refine StoreResult.bind_ok.mpr ⟨(), hleases, ?_⟩
    refine StoreResult.bind_ok.mpr ⟨(), require_ok.mpr ⟨?_, ?_⟩, StoreResult.pure_ok.mpr hwritten⟩
    · intro lease hlease
      exact hkeys lease ((h.mem_changedLeases hwrites lease).mpr hlease)
    · have hview := h.leasePayloads_writeBack changed revision
      unfold writeBack at hview
      rw [hview]
      exact hnodup

theorem Loaded.keepsRow (h : Loaded store request whole loaded) (hformed : WellFormed store)
    (hwrites : LocalWrites whole loaded.session changed) : KeepsRow store changed := by
  have hsame : sessionId changed.root = sessionId store.root := by
    rw [sessionId_eq_of_localWrites hwrites, h.root]
  exact ⟨by rw [hsame]; exact hformed.identified, hsame⟩

/-- A reload finds the same session, whichever way it was written. -/
theorem Loaded.reload_written (h : Loaded store request whole loaded)
    (hformed : WellFormed store) (hwrites : LocalWrites whole loaded.session changed)
    (hnodup : (activeItemIds (putBack whole loaded.session changed).leases).Nodup)
    (revision : Nat) :
    loadSnapshot (writtenPart store loaded changed revision) =
      committedView (putBack whole loaded.session changed) := by
  have hview := committedView_ok.mpr ⟨hnodup, rfl⟩
  have hleases := h.leasePayloads_writeBack changed revision
  have hload : loadSnapshot (writtenPart store loaded changed revision) = .ok _ :=
    loadSnapshot_ok.mpr ⟨by rw [writtenPart, hleases]; exact hnodup, rfl⟩
  rw [hview, hload]
  simp only [writtenPart, hleases, h.projectedItems_writeBack hformed hwrites hnodup]
  simp [putBack, h.wholeEvents]

theorem Loaded.writtenPart_wellFormed (h : Loaded store request whole loaded)
    (hformed : WellFormed store) (hwrites : LocalWrites whole loaded.session changed)
    (hnodup : (activeItemIds (putBack whole loaded.session changed).leases).Nodup)
    (revision : Nat) : WellFormed (writtenPart store loaded changed revision) := by
  have hleases := h.leasePayloads_writeBack changed revision
  constructor
  · exact (h.keepsRow hformed hwrites).identified
  · rw [writtenPart, hleases]
    exact hnodup
  · intro itemId item lease hitem hlease
    rw [writtenPart, hleases] at hlease
    rw [writtenPart, getElem?_itemPayloads_writeBack, getElem?_projectedItems] at hitem
    cases hchanged : changed.items[itemId]? with
    | some row =>
        have hexists : changed.items[itemId]? ≠ none := by simp [hchanged]
        have hclaim := h.claim_of_changed hwrites hnodup hexists
        rw [hchanged, hclaim, hlease] at hitem
        have hitem := Option.some.inj hitem
        subst hitem
        exact get_state_projectClaim_some row lease
    | none =>
        rw [hchanged, Option.map_none, Option.none_or] at hitem
        split at hitem
        case isFalse => cases hitem
        case isTrue hunloaded =>
            have hexists : (itemPayloads store.items)[itemId]? ≠ none := by simp [hitem]
            obtain ⟨held, hheld⟩ :=
              h.claimed_before hwrites hnodup hexists hunloaded hlease
            exact hformed.claimed itemId item held hitem hheld

/-- From the mutation on, both paths commit the same or raise. -/
theorem Loaded.commitPart_same {V : Type} (h : Loaded store request whole loaded)
    (hformed : WellFormed store) (hwrites : LocalWrites whole loaded.session changed)
    (hmetadata : MetadataIsObject changed) (value : V) (evidence : List EvidenceRecord)
    (outbox : List OutboxCommand) (revision : Nat) :
    SameOutcome
      (commitWhole store evidence outbox revision (putBack whole loaded.session changed, value))
      (commitPart store loaded evidence outbox revision (changed, value)) := by
  have hrow := h.keepsRow hformed hwrites
  have hrow' : KeepsRow store (putBack whole loaded.session changed) :=
    ⟨hrow.identified, hrow.same⟩
  unfold commitWhole commitPart
  cases hwhole : writeSession store (putBack whole loaded.session changed) revision with
  | error e =>
      cases hpart : writeWorkingSet store changed loaded.storedItems loaded.storedLeases
          revision with
      | error e' => exact .raised e e'
      | ok written =>
          obtain ⟨-, hallowed, -⟩ := (h.writeWorkingSet_iff hwrites hrow).mp hpart
          rw [(writeSession_iff hrow').mpr ⟨hallowed, rfl⟩] at hwhole
          cases hwhole
  | ok written =>
      obtain ⟨hallowed, hwritten⟩ := (writeSession_iff hrow').mp hwhole
      rw [(h.writeWorkingSet_iff hwrites hrow).mpr ⟨hmetadata, hallowed, rfl⟩]
      have hviewed := committedView_ok.mpr ⟨hallowed.1, rfl⟩
      have hpart : (activeItemIds changed.leases).Nodup :=
        nodup_activeItemIds_of_subset hallowed.1 fun id lease hlease => by
          rw [h.getElem?_putBack_leases, hlease, Option.some_or]
      have hviewed' := committedView_ok.mpr ⟨hpart, rfl⟩
      have hreload := (writeSession_reload hwhole).trans hviewed
      have hreload' := (h.reload_written hformed hwrites hallowed.1 revision).trans hviewed
      subst hwritten
      have hrecords := writeRecords_alike
        (show (writtenPart store loaded changed revision).root =
          (wholeWritten store (putBack whole loaded.session changed) revision).root from rfl)
        rfl rfl (evidence ++ changed.pendingEvidence) outbox revision
      rcases hrecords with ⟨e, hraised, hraised'⟩ | ⟨rows, commands, hrecorded, hrecorded'⟩
      · have hraised : writeRecords (wholeWritten store (putBack whole loaded.session changed)
            revision) (evidence ++ (putBack whole loaded.session changed).pendingEvidence) outbox
            revision = .error e := hraised
        simp only [bind, Except.bind, hraised, hraised']
        exact .raised e e
      · have hrecorded : writeRecords (wholeWritten store (putBack whole loaded.session changed)
            revision) (evidence ++ (putBack whole loaded.session changed).pendingEvidence) outbox
            revision = .ok _ := hrecorded
        simp only [bind, Except.bind, hrecorded, hrecorded', hviewed, hviewed', pure, Except.pure]
        exact .committed _ hreload hreload' rfl rfl rfl rfl rfl rfl

/-- Reading alone is local. -/
theorem Loaded.putBack_self (h : Loaded store request whole loaded) :
    putBack whole loaded.session loaded.session = whole := by
  obtain ⟨-, hwhole⟩ := loadSnapshot_ok.mp h.whole
  obtain ⟨-, -, hloaded⟩ := loadWorkingSet_ok.mp h.part
  have hitems : (putBack whole loaded.session loaded.session).items = whole.items := by
    refine Std.ExtTreeMap.ext_getElem? fun itemId => ?_
    rw [h.getElem?_putBack_items]
    cases hitem : loaded.session.items[itemId]? with
    | some item => rw [Option.some_or, (h.closed hitem).1]
    | none => rw [Option.none_or, if_pos ((h.item_iff itemId).mp hitem)]
  have hleases : (putBack whole loaded.session loaded.session).leases = whole.leases := by
    refine Std.ExtTreeMap.ext_getElem? fun id => ?_
    rw [h.getElem?_putBack_leases, h.wholeLeases, h.partLeases, getElem?_leasePayloads]
    by_cases hstored : loaded.storedLeases[id]? = none
    · rw [hstored, Option.map_none, Option.none_or, if_pos rfl]
    · rw [h.lease_stored hstored, ← getElem?_leasePayloads]
      rw [h.lease_stored hstored] at hstored
      cases hlease : (leasePayloads store.leases)[id]? with
      | some lease => rfl
      | none => simp [hstored]
  calc putBack whole loaded.session loaded.session
      = { whole with
          root := loaded.session.root
          leaseEvents := whole.leaseEvents ++ loaded.session.leaseEvents
          pendingEvidence := loaded.session.pendingEvidence
          revision := loaded.session.revision } := by
        rw [← hitems, ← hleases]
        rfl
    _ = whole := by rw [hloaded, hwhole, List.append_nil]

theorem Loaded.localMutation_read {V : Type} (h : Loaded store request whole loaded)
    (value : V) : LocalMutation (fun session => .ok (session, value)) whole loaded.session where
  reads := by simp [Except.map, h.putBack_self]
  writes := by
    intro changed _ hchanged
    obtain ⟨rfl, -⟩ := Prod.mk.inj (Except.ok.inj hchanged)
    constructor
    · intro key _
      rfl
    · intro itemId hnone hsome
      exact absurd hnone hsome
    · intro leaseId hnone hsome
      exact absurd hnone hsome
    · intro leaseId lease hlease hactive _ _
      exact ⟨leaseId, lease, hlease, hactive, rfl⟩
    · intro itemId hsome hnone
      cases hitem : loaded.session.items[itemId]? with
      | none => exact absurd hitem hsome
      | some item =>
          rw [(h.closed hitem).1] at hnone
          cases hnone

/-- So is writing a loaded item and ending a loaded lease, with an event. -/
theorem Loaded.localMutation_write {V : Type} (h : Loaded store request whole loaded)
    {itemId leaseId : String} {item event : Dict} {lease : Lease} (value : V)
    (hitem : loaded.session.items[itemId]? ≠ none)
    (hlease : loaded.session.leases[leaseId]? ≠ none) (hended : lease.isActive = false) :
    LocalMutation (fun session => .ok ({ session with
      items := session.items.insert itemId item
      leases := session.leases.insert leaseId lease
      leaseEvents := session.leaseEvents ++ [event] }, value)) whole loaded.session where
  reads := by
    have hself := h.putBack_self
    refine congrArg (fun session => Except.ok (session, value)) ?_
    have hitems : whole.items.insert itemId item = (putBack whole loaded.session { loaded.session with
        items := loaded.session.items.insert itemId item }).items := by
      refine Std.ExtTreeMap.ext_getElem? fun id => ?_
      rw [h.getElem?_putBack_items, Std.ExtTreeMap.getElem?_insert, Std.ExtTreeMap.getElem?_insert]
      split
      · rfl
      · rw [← @Loaded.getElem?_putBack_items _ _ _ _ loaded.session h, hself]
    have hleases : whole.leases.insert leaseId lease = (putBack whole loaded.session
        { loaded.session with leases := loaded.session.leases.insert leaseId lease }).leases := by
      refine Std.ExtTreeMap.ext_getElem? fun id => ?_
      rw [h.getElem?_putBack_leases, Std.ExtTreeMap.getElem?_insert,
        Std.ExtTreeMap.getElem?_insert]
      split
      · rfl
      · rw [← @Loaded.getElem?_putBack_leases _ _ _ _ loaded.session h, hself]
    have hevents : loaded.session.leaseEvents = [] := by
      simpa [putBack] using congrArg Session.leaseEvents hself
    have hroot : loaded.session.root = whole.root := by
      simpa [putBack] using congrArg Session.root hself
    have hpending : loaded.session.pendingEvidence = whole.pendingEvidence := by
      simpa [putBack] using congrArg Session.pendingEvidence hself
    have hrevision : loaded.session.revision = whole.revision := by
      simpa [putBack] using congrArg Session.revision hself
    show ({ whole with
      items := whole.items.insert itemId item
      leases := whole.leases.insert leaseId lease
      leaseEvents := whole.leaseEvents ++ [event] } : Session) = _
    rw [hitems, hleases]
    simp only [putBack, hevents, hroot, hpending, hrevision, List.nil_append]
  writes := by
    intro changed _ hchanged
    obtain ⟨rfl, -⟩ := Prod.mk.inj (Except.ok.inj hchanged)
    have hread := (h.localMutation_read value).writes _ _ rfl
    have hwritten : ∀ {id : String}, (loaded.session.items.insert itemId item)[id]? ≠ none →
        loaded.session.items[id]? ≠ none := by
      intro id hsome
      rw [Std.ExtTreeMap.getElem?_insert] at hsome
      split at hsome
      · next hid =>
        rw [Std.LawfulEqCmp.eq_of_compare hid] at hitem
        exact hitem
      · exact hsome
    constructor
    · intro key _
      rfl
    · intro id hnone hsome
      exact absurd hnone (hwritten hsome)
    · intro id hnone hsome
      rw [Std.ExtTreeMap.getElem?_insert] at hsome
      split at hsome
      · next hid =>
        rw [Std.LawfulEqCmp.eq_of_compare hid] at hlease
        exact absurd hnone hlease
      · exact absurd hnone hsome
    · intro id held hheld hactive
      rw [Std.ExtTreeMap.getElem?_insert] at hheld
      split at hheld
      · rw [← Option.some.inj hheld, hended] at hactive
        cases hactive
      · exact hread.claims id held hheld hactive
    · intro id hsome
      exact hread.created id (hwritten hsome)

end Part

theorem Committed.wellFormed {store : Store} (h : Committed store) : WellFormed store := by
  induction h with
  | bootstrap hcommit => exact commitSession_wellFormed hcommit
  | transact _ htransact _ =>
      obtain ⟨_, _, -, -, -, hcommit, -, -⟩ := transact_ok htransact
      exact commitSession_wellFormed hcommit
  | replace _ hreplace _ =>
      obtain ⟨-, hcommit, -⟩ := replace_ok hreplace
      exact commitSession_wellFormed hcommit
  | workingSet _ hload hlocal htransact ih =>
      obtain ⟨current, changed, written, added, final, hcurrent, -, hmutation, hwritten,
        hevidence, houtbox, rfl, -⟩ := transactWorkingSet_ok htransact
      have hsame := Except.ok.inj (hcurrent.symm.trans hload.part)
      subst hsame
      have hwrites := hlocal.writes _ _ hmutation
      have hrow := hload.keepsRow ih hwrites
      obtain ⟨-, hallowed, rfl⟩ := (hload.writeWorkingSet_iff hwrites hrow).mp hwritten
      exact (SameSession.ofWrites hevidence houtbox).wellFormed
        (hload.writtenPart_wellFormed ih hwrites hallowed.1 _)
  | outbox _ hcommit ih =>
      obtain ⟨⟨added, rfl⟩, -, -⟩ := commitOutbox_ok hcommit
      obtain ⟨hid, hactive, hclaimed⟩ := ih
      exact ⟨hid, hactive, hclaimed⟩

/-- The session row is at the store's revision. -/
theorem Committed.revision {store : Store} (h : Committed store) :
    store.sessionRevision = store.latestRevision := by
  induction h with
  | bootstrap hcommit =>
      obtain ⟨written, added, final, hwritten, -, hfinal, rfl⟩ := commitSession_ok hcommit
      rw [writeOutbox_nil] at hfinal
      have hfinal := Except.ok.inj hfinal
      subst hfinal
      exact (writeSession_ok hwritten).2.2.1
  | transact _ htransact ih =>
      obtain ⟨_, _, -, -, -, hcommit, -, -⟩ := transact_ok htransact
      exact (commitSession_follows (by rw [ih]) hcommit).session
  | replace _ hreplace _ =>
      obtain ⟨-, hcommit, -⟩ := replace_ok hreplace
      exact (commitSession_follows rfl hcommit).session
  | workingSet hcommitted hload hlocal htransact ih =>
      obtain ⟨current, changed, written, added, final, hcurrent, -, hmutation, hwritten,
        hevidence, houtbox, rfl, -⟩ := transactWorkingSet_ok htransact
      have hsame := Except.ok.inj (hcurrent.symm.trans hload.part)
      subst hsame
      have hrow := hload.keepsRow hcommitted.wellFormed (hlocal.writes _ _ hmutation)
      have hsession := writeWorkingSet_sessionRevision hrow.same hwritten
      unfold writeOutbox at houtbox
      obtain ⟨rows, -, houtbox⟩ := StoreResult.bind_ok.mp houtbox
      have hfinal := StoreResult.pure_ok.mp houtbox
      subst hfinal
      exact hsession
  | outbox _ hcommit _ =>
      obtain ⟨⟨added, rfl⟩, -, -⟩ := commitOutbox_ok hcommit
      rfl

/-- The mutation leaves the metadata an object, or drops it. -/
def KeepsMetadata {V : Type} (mutation : Mutation V) (session : Session) : Prop :=
  ∀ changed value, mutation session = .ok (changed, value) → MetadataIsObject changed

/-- The items of a working set are those of the session, each with its active lease. -/
def ClosedPart (whole part : Session) : Prop :=
  ∀ (itemId : String) (item : Dict), part.items[itemId]? = some item →
    whole.items[itemId]? = some item ∧
      ∀ (leaseId : String) (lease : Lease), whole.leases[leaseId]? = some lease →
        lease.isActive = true → lease.itemId = itemId → part.leases[leaseId]? = some lease

/-- Of every committed store, each working set is a closed part of the session, and
committing a local mutation of it commits what the whole-session transaction commits. -/
theorem transactWorkingSet_refines {store : Store} (hcommitted : Committed store)
    (request : WorkingSetRequest) :
    ∃ whole loaded, loadSnapshot store = .ok whole ∧ loadWorkingSet store request = .ok loaded ∧
      ClosedPart whole loaded.session ∧
      ∀ (V : Type) (mutation : Mutation V), LocalMutation mutation whole loaded.session →
        KeepsMetadata mutation loaded.session →
        ∀ expected evidence outbox,
          SameOutcome (transact store mutation expected evidence outbox)
            (transactWorkingSet store request mutation expected evidence outbox) := by
  have hformed := hcommitted.wellFormed
  obtain ⟨whole, loaded, h⟩ := hformed.loaded request
  refine ⟨whole, loaded, h.whole, h.part, fun _ _ hitem => h.closed hitem, ?_⟩
  intro V mutation hlocal hmetadata expected evidence outbox
  rw [transact_eq h.whole, transactWorkingSet_eq h.part]
  refine SameOutcome.bind _ fun _ => ?_
  have hwhole : runMutation mutation whole = (runMutation mutation loaded.session).map
      fun result => (putBack whole loaded.session result.1, result.2) := by
    unfold runMutation
    rw [hlocal.reads]
    cases mutation loaded.session <;> rfl
  rw [hwhole]
  cases hrun : runMutation mutation loaded.session with
  | error e => exact .raised e e
  | ok result =>
      have hmutation := runMutation_ok.mp hrun
      exact h.commitPart_same hformed (hlocal.writes _ _ hmutation) (hmetadata _ _ hmutation)
        result.2 evidence outbox _

def claimedLease : Lease where
  leaseId := "lease"
  itemId := "item"
  agentId := "agent"
  role := .fixer
  status := .active
  createdAt := 0
  expiresAt := 10
  resumeToken := none
  requestHash := ""
  requestId := none
  requestPath := none
  conflictKeys := []

/-- A session whose one item is claimed. -/
def claimedSession : Session where
  root := Dict.ofFields [("session_id", .str "session")]
  items := Std.ExtTreeMap.ofList [("item", Dict.ofFields [("state", .str "open")])] compare
  leases := Std.ExtTreeMap.ofList [("lease", claimedLease)] compare
  leaseEvents := []

/-- The claimed item, with the lease it brings. -/
def claimedItem : WorkingSetRequest where
  itemIds := ["item"]

/-- The agent gives the item back, with a note, and its lease ends. -/
def giveBack : Mutation Unit := fun session =>
  .ok ({ session with
    items := session.items.insert "item"
      (Dict.ofFields [("state", .str "open"), ("note", .str "given back")])
    leases := session.leases.insert "lease" { claimedLease with status := .released }
    leaseEvents := session.leaseEvents ++
      [Dict.ofFields [("lease_id", .str "lease"), ("status", .str "released")]] }, ())

theorem transactWorkingSet_refines_claimedItem : ∃ store,
    Committed store ∧ (∃ loaded, loadWorkingSet store claimedItem = .ok loaded ∧
      loaded.session.items["item"]? ≠ none) ∧
    (transact store giveBack).isOk = true ∧
    SameOutcome (transact store giveBack) (transactWorkingSet store claimedItem giveBack) := by
  have hcommits : (commitSession blankStore claimedSession [] [] 1).toOption.any (fun store =>
      (transact store giveBack).isOk && (loadWorkingSet store claimedItem).toOption.any fun loaded =>
        loaded.session.items["item"]? ≠ none ∧ loaded.session.leases["lease"]? ≠ none ∧
          MetadataIsObject loaded.session) = true := by
    decide +kernel
  obtain ⟨store, hstore, hruns⟩ := StoreResult.exists_ok hcommits
  obtain ⟨hgiven, hloads⟩ := (Bool.and_eq_true _ _).mp hruns
  obtain ⟨loaded, hloaded, hfacts⟩ := StoreResult.exists_ok hloads
  obtain ⟨hitem, hlease, hmetadata⟩ := of_decide_eq_true hfacts
  have hcommitted := Committed.bootstrap hstore
  obtain ⟨whole, loaded', hwhole, hloaded', -, hrefines⟩ :=
    transactWorkingSet_refines hcommitted claimedItem
  have hsame := Except.ok.inj (hloaded'.symm.trans hloaded)
  subst hsame
  refine ⟨store, hcommitted, ⟨loaded', hloaded, hitem⟩, hgiven, hrefines Unit _
    (Loaded.localMutation_write ⟨hwhole, hloaded⟩ () hitem hlease rfl) ?_ none [] []⟩
  intro changed _ hchanged
  obtain ⟨rfl, -⟩ := Prod.mk.inj (Except.ok.inj hchanged)
  exact hmetadata

/-- A session whose metadata is a list. -/
def listedMetadata : Session where
  root := Dict.ofFields [("session_id", .str "session"), ("metadata", .list [])]
  items := ∅
  leases := ∅
  leaseEvents := []

/-- Metadata that is no object is committed with the whole session and refused with a
working set. -/
theorem transactWorkingSet_refuses_listedMetadata :
    ¬ ∀ store, Committed store → ∀ request whole loaded, Loaded store request whole loaded →
      ∀ (V : Type) (mutation : Mutation V), LocalMutation mutation whole loaded.session →
      SameOutcome (transact store mutation) (transactWorkingSet store request mutation) := by
  intro hclaim
  have hruns : (commitSession blankStore listedMetadata [] [] 1).toOption.any (fun store =>
      ((transact store fun session => .ok (session, ())).isOk &&
        !(transactWorkingSet store {} fun session => .ok (session, ())).isOk)) = true := by
    decide +kernel
  obtain ⟨store, hstore, houtcomes⟩ := StoreResult.exists_ok hruns
  have hcommitted := Committed.bootstrap hstore
  obtain ⟨whole, loaded, h⟩ := hcommitted.wellFormed.loaded {}
  have hsame := hclaim store hcommitted {} whole loaded h Unit _ (h.localMutation_read ())
  simp [hsame.isOk] at houtcomes

end GhAddressCr.RuntimeStore
