import GhAddressCr.ActionRequests
import GhAddressCr.LeaseConflicts
import GhAddressCr.WorkingSetRefinement

/-!
# Changes of one item and one lease

Most commands change one item, one lease and the metadata. Such a change of a loaded part is
the same change of the whole session, and a reload after its commit finds it there.
-/
namespace GhAddressCr

open RuntimeStore GithubThreadState

/-- The second session is the first with the lease under `leaseId` changed by `g`, the item
`itemId` by `f`, and of the root fields only the metadata. -/
structure Touches (s s' : Session) (leaseId : String) (g : Lease → Lease) (itemId : String)
    (f : Dict → Dict) : Prop where
  root : ∀ key : String, key ≠ "metadata" → s'.root[key]? = s.root[key]?
  leases : ∀ id : String,
    s'.leases[id]? = if id = leaseId then (s.leases[id]?).map g else s.leases[id]?
  items : ∀ id : String,
    s'.items[id]? = if id = itemId then (s.items[id]?).map f else s.items[id]?

theorem Touches.of_tables {s s' : Session}
    (hroot : ∀ key : String, key ≠ "metadata" → s'.root[key]? = s.root[key]?)
    (hleases : s'.leases = s.leases) (hitems : s'.items = s.items) (leaseId itemId : String) :
    Touches s s' leaseId id itemId id :=
  ⟨hroot, fun key => by simp [hleases], fun key => by simp [hitems]⟩

theorem Touches.trans {s s' s'' : Session} {leaseId itemId : String} {g g' : Lease → Lease}
    {f f' : Dict → Dict} (h : Touches s s' leaseId g itemId f)
    (h' : Touches s' s'' leaseId g' itemId f') :
    Touches s s'' leaseId (g' ∘ g) itemId (f' ∘ f) := by
  constructor
  · intro key hkey
    rw [h'.root key hkey, h.root key hkey]
  · intro key
    rw [h'.leases, h.leases]
    split <;> simp
  · intro key
    rw [h'.items, h.items]
    split <;> simp

theorem getElem?_modifyItem (s : Session) (itemId : String) (f : Dict → Dict) (key : String) :
    (s.modifyItem itemId f).items[key]? =
      if key = itemId then (s.items[key]?).map f else s.items[key]? := by
  unfold Session.modifyItem
  split
  · next item hitem =>
    by_cases hkey : key = itemId
    · simp [hkey, hitem]
    · simp [hkey, Ne.symm hkey, Std.ExtTreeMap.getElem?_insert]
  · next hitem =>
    by_cases hkey : key = itemId
    · simp [hkey, hitem]
    · simp [hkey]

@[simp] theorem modifyItem_leases (s : Session) (itemId : String) (f : Dict → Dict) :
    (s.modifyItem itemId f).leases = s.leases := by
  unfold Session.modifyItem
  split <;> rfl

@[simp] theorem modifyItem_root (s : Session) (itemId : String) (f : Dict → Dict) :
    (s.modifyItem itemId f).root = s.root := by
  unfold Session.modifyItem
  split <;> rfl

@[simp] theorem modifyItem_leaseEvents (s : Session) (itemId : String) (f : Dict → Dict) :
    (s.modifyItem itemId f).leaseEvents = s.leaseEvents := by
  unfold Session.modifyItem
  split <;> rfl

@[simp] theorem modifyItem_pendingEvidence (s : Session) (itemId : String) (f : Dict → Dict) :
    (s.modifyItem itemId f).pendingEvidence = s.pendingEvidence := by
  unfold Session.modifyItem
  split <;> rfl

theorem modifyItem_touches (s : Session) (leaseId itemId : String) (f : Dict → Dict) :
    Touches s (s.modifyItem itemId f) leaseId id itemId f :=
  ⟨fun key _ => by simp, fun key => by simp, getElem?_modifyItem s itemId f⟩

/-- What `return_expired_items_to_open` makes of the item of a lease. -/
def returnedItem (leaseId : String) (item : Dict) : Dict :=
  if item.get "active_lease_id" = .str leaseId then
    clearClaimFields (returnItemToClaimableState item)
  else item

theorem returnExpiredItemsToOpen_singleton (s : Session) (lease : Lease) (key : String) :
    (returnExpiredItemsToOpen s [lease]).items[key]? =
      if key = lease.itemId then (s.items[key]?).map (returnedItem lease.leaseId)
      else s.items[key]? := by
  have hsame : ∀ id : String, (returnExpiredItemsToOpen s [lease]).items[id]? =
      (s.modifyItem lease.itemId (returnedItem lease.leaseId)).items[id]? := by
    intro id
    simp only [returnExpiredItemsToOpen, List.foldl_cons, List.foldl_nil, Session.modifyItem,
      returnedItem]
    cases hitem : s.items[lease.itemId]? with
    | none => rfl
    | some item =>
        simp only
        split
        · rfl
        · by_cases hid : id = lease.itemId
          · simp [hid, hitem]
          · simp [Ne.symm hid, Std.ExtTreeMap.getElem?_insert]
  rw [hsame, getElem?_modifyItem]

@[simp] theorem returnExpiredItemsToOpen_root (s : Session) (expired : List Lease) :
    (returnExpiredItemsToOpen s expired).root = s.root := by
  unfold returnExpiredItemsToOpen
  induction expired generalizing s with
  | nil => rfl
  | cons lease expired ih =>
      rw [List.foldl_cons, ih]
      split
      · split <;> rfl
      · rfl

/-- What the second look of `_expire_lease` makes of an item still marked claimed. -/
def openedItem (lease : Lease) (item : Dict) : Dict :=
  if item.get "state" = .str "claimed" ∧
      (item.get "active_lease_id" = .null ∨ item.get "active_lease_id" = .str lease.leaseId) ∧
      (item.get "claimed_by" = .null ∨ item.get "claimed_by" = .str lease.agentId) then
    clearClaimFields (item.set "state" (.str "open"))
  else item

theorem openClaimedItem_items (s : Session) (lease : Lease) (key : String) :
    (openClaimedItem s lease).items[key]? =
      if key = lease.itemId then (s.items[key]?).map (openedItem lease) else s.items[key]? := by
  have hsame : ∀ id : String, (openClaimedItem s lease).items[id]? =
      (s.modifyItem lease.itemId (openedItem lease)).items[id]? := by
    intro id
    simp only [openClaimedItem, Session.modifyItem, openedItem]
    cases hitem : s.items[lease.itemId]? with
    | none => rfl
    | some item =>
        simp only
        split
        · rfl
        · by_cases hid : id = lease.itemId
          · simp [hid, hitem]
          · simp [Ne.symm hid, Std.ExtTreeMap.getElem?_insert]
  rw [hsame, getElem?_modifyItem]

@[simp] theorem openClaimedItem_root (s : Session) (lease : Lease) :
    (openClaimedItem s lease).root = s.root := by
  unfold openClaimedItem
  split
  · simp only
    split <;> rfl
  · rfl

theorem expireLease_touches {s : Session} {leaseId : String} {lease : Lease}
    (hlease : s.leases[leaseId]? = some lease) (now : Int) :
    Touches s (expireLease s leaseId lease now) leaseId (fun _ => expiredLease lease now)
      lease.itemId (openedItem (expiredLease lease now) ∘ returnedItem lease.leaseId) := by
  constructor
  · intro key _
    simp [expireLease, appendLeaseEvent]
  · intro key
    rw [expireLease_leases]
    by_cases hkey : key = leaseId
    · simp [hkey, hlease]
    · simp [hkey, Ne.symm hkey, Std.ExtTreeMap.getElem?_insert]
  · intro key
    have hitem : (expiredLease lease now).itemId = lease.itemId := rfl
    have hid : (expiredLease lease now).leaseId = lease.leaseId := rfl
    simp only [expireLease, appendLeaseEvent, openClaimedItem_items,
      returnExpiredItemsToOpen_singleton, hitem, hid]
    split <;> simp

/-- A released lease. -/
def releasedLease (lease : Lease) (now : Int) (reason : Option String) : Lease :=
  { lease with status := .released, completedAt := some now, reason }

theorem releaseLease_touches {s : Session} {leaseId : String} {lease : Lease}
    (hlease : s.leases[leaseId]? = some lease) (hactive : lease.isActive = true) (now : Int)
    (reason : Option String) (itemId : String) :
    Touches s (releaseLease s leaseId now reason).1 leaseId
      (fun _ => releasedLease lease now reason) itemId id := by
  have hvalue : (releaseLease s leaseId now reason).1 =
      appendLeaseEvent { s with
        leases := s.leases.insert leaseId (releasedLease lease now reason) }
        (releasedLease lease now reason) "lease_released" now reason := by
    simp [releaseLease, hlease, hactive, releasedLease]
  rw [hvalue]
  constructor
  · intro key _
    rfl
  · intro key
    by_cases hkey : key = leaseId
    · simp [appendLeaseEvent, hkey, hlease]
    · simp [appendLeaseEvent, hkey, Ne.symm hkey, Std.ExtTreeMap.getElem?_insert]
  · intro key
    simp [appendLeaseEvent]

section Part

variable {store : Store} {request : WorkingSetRequest} {whole : Session} {loaded : WorkingSet}
  {changed : Session}

/-- A command that brings no new rows and activates no lease writes only what it loaded. -/
theorem RuntimeStore.Loaded.localWrites (h : Loaded store request whole loaded)
    (hroot : ∀ key : String, key ≠ "metadata" →
      changed.root[key]? = loaded.session.root[key]?)
    (hitems : ∀ id : String, changed.items[id]? ≠ none → loaded.session.items[id]? ≠ none)
    (hleases : ∀ (id : String) (lease : Lease), changed.leases[id]? = some lease →
      ∃ held, loaded.session.leases[id]? = some held ∧ held.itemId = lease.itemId ∧
        (lease.isActive = true → held.isActive = true)) :
    LocalWrites whole loaded.session changed := by
  constructor
  · exact hroot
  · intro itemId hnone hsome
    exact absurd hnone (hitems itemId hsome)
  · intro leaseId hnone hsome
    obtain ⟨lease, hlease⟩ := Option.ne_none_iff_exists'.mp hsome
    obtain ⟨held, hheld, -⟩ := hleases leaseId lease hlease
    rw [hnone] at hheld
    cases hheld
  · intro leaseId lease hlease hactive _ _
    obtain ⟨held, hheld, hitem, hwas⟩ := hleases leaseId lease hlease
    exact ⟨leaseId, held, hheld, hwas hactive, hitem⟩
  · intro itemId hsome hnone
    obtain ⟨item, hitem⟩ := Option.ne_none_iff_exists'.mp (hitems itemId hsome)
    rw [(h.closed hitem).1] at hnone
    cases hnone

theorem RuntimeStore.Loaded.leases_of_part (h : Loaded store request whole loaded) {id : String}
    {lease : Lease} (hlease : loaded.session.leases[id]? = some lease) :
    whole.leases[id]? = some lease := by
  have hstored : loaded.storedLeases[id]? ≠ none := by
    intro hnone
    rw [(h.lease_iff id).mpr hnone] at hlease
    cases hlease
  rw [h.partLeases, getElem?_leasePayloads, h.lease_stored hstored] at hlease
  rw [h.wholeLeases, getElem?_leasePayloads]
  exact hlease

/-- A change of loaded rows is local. -/
theorem Touches.localWrites (h : Loaded store request whole loaded) {leaseId itemId : String}
    {g : Lease → Lease} {f : Dict → Dict}
    (ht : Touches loaded.session changed leaseId g itemId f)
    (hkept : ∀ lease, loaded.session.leases[leaseId]? = some lease →
      (g lease).itemId = lease.itemId ∧ ((g lease).isActive = true → lease.isActive = true)) :
    LocalWrites whole loaded.session changed := by
  refine h.localWrites ht.root ?_ ?_
  · intro id hsome hnone
    rw [ht.items, hnone] at hsome
    simp at hsome
  · intro id lease hlease
    rw [ht.leases] at hlease
    split at hlease
    · next hid =>
      subst hid
      obtain ⟨held, hheld, rfl⟩ := Option.map_eq_some_iff.mp hlease
      exact ⟨held, hheld, (hkept held hheld).1.symm, (hkept held hheld).2⟩
    · exact ⟨lease, hlease, rfl, fun hactive => hactive⟩

/-- A change of loaded rows is the same change of the whole session. -/
theorem Touches.putBack (h : Loaded store request whole loaded) {leaseId itemId : String}
    {g : Lease → Lease} {f : Dict → Dict}
    (ht : Touches loaded.session changed leaseId g itemId f)
    (hlease : loaded.session.leases[leaseId]? = whole.leases[leaseId]?)
    (hitem : loaded.session.items[itemId]? = whole.items[itemId]?) :
    Touches whole (putBack whole loaded.session changed) leaseId g itemId f := by
  constructor
  · intro key hkey
    obtain ⟨-, hwhole⟩ := loadSnapshot_ok.mp h.whole
    have hroot : (RuntimeStore.putBack whole loaded.session changed).root = changed.root := rfl
    rw [hroot, ht.root key hkey, h.root, hwhole]
  · intro id
    rw [h.getElem?_putBack_leases, ht.leases, ← h.wholeLeases]
    by_cases hid : id = leaseId
    · subst hid
      simp only [if_true]
      rw [hlease]
      cases hrow : whole.leases[id]? <;> simp
    · rw [if_neg hid, if_neg hid]
      cases hrow : loaded.session.leases[id]? with
      | some row => rw [h.leases_of_part hrow, Option.some_or]
      | none => rw [Option.none_or, if_pos ((h.lease_iff id).mp hrow)]
  · intro id
    rw [h.getElem?_putBack_items, ht.items]
    by_cases hid : id = itemId
    · subst hid
      simp only [if_true]
      rw [hitem]
      cases hrow : whole.items[id]? <;> simp
    · rw [if_neg hid, if_neg hid]
      cases hrow : loaded.session.items[id]? with
      | some row => rw [(h.closed hrow).1, Option.some_or]
      | none => rw [Option.none_or, if_pos ((h.item_iff id).mp hrow)]

end Part

/-- After a transaction on a working set, a load finds the part put back into the session. -/
theorem transactWorkingSet_reload {V : Type} {store committed : Store} {whole changed : Session}
    {request : WorkingSetRequest} {loaded : WorkingSet} {mutation : Mutation V}
    {expected : Option Nat} {evidence : List EvidenceRecord} {outbox : List OutboxCommand}
    {result : TransactionResult V} (hformed : WellFormed store)
    (h : Loaded store request whole loaded)
    (htransact : transactWorkingSet store request mutation expected evidence outbox =
      .ok (committed, result))
    (hmutation : mutation loaded.session = .ok (changed, result.value))
    (hwrites : LocalWrites whole loaded.session changed) :
    loadSnapshot committed = committedView (putBack whole loaded.session changed) ∧
      (activeItemIds (putBack whole loaded.session changed).leases).Nodup := by
  obtain ⟨current, session, written, added, final, hcurrent, -, hmutation', hwritten, hevidence,
    hfinal, rfl, -⟩ := transactWorkingSet_ok htransact
  have hsame : current = loaded := by
    rw [h.part] at hcurrent
    exact (Except.ok.inj hcurrent).symm
  subst hsame
  have hchanged : session = changed := by
    rw [hmutation] at hmutation'
    exact (Prod.mk.inj (Except.ok.inj hmutation')).1.symm
  subst hchanged
  obtain ⟨-, hallowed, rfl⟩ :=
    (h.writeWorkingSet_iff hwrites (h.keepsRow hformed hwrites)).mp hwritten
  have hkept := SameSession.ofWrites hevidence hfinal
  exact ⟨by rw [hkept.loadSnapshot, h.reload_written hformed hwrites hallowed.1], hallowed.1⟩

/-- After a whole-session write, a load finds the session that was written. -/
theorem commitSession_reload {store committed : Store} {session : Session}
    {evidence : List EvidenceRecord} {outbox : List OutboxCommand} {revision : Nat}
    (h : commitSession store session evidence outbox revision = .ok committed) :
    loadSnapshot committed = committedView session ∧ (activeItemIds session.leases).Nodup := by
  obtain ⟨written, added, final, hwritten, hevidence, hfinal, rfl⟩ := commitSession_ok h
  have hkept := SameSession.ofWrites hevidence hfinal
  have hreload := writeSession_reload hwritten
  refine ⟨by rw [hkept.loadSnapshot, hreload], ?_⟩
  unfold writeSession at hwritten
  obtain ⟨_, -, hwritten⟩ := StoreResult.bind_ok.mp hwritten
  obtain ⟨items, hderived, -⟩ := StoreResult.bind_ok.mp hwritten
  exact (deriveItemClaimProjection_ok.mp hderived).1

theorem writeEvidenceRecord_mem {rows rows' : List EvidenceRow} {record : EvidenceRecord}
    {revision : Nat} (h : writeEvidenceRecord rows record revision = .ok rows') :
    ∀ row ∈ rows', row ∈ rows ∨ row.record = record := by
  unfold writeEvidenceRecord at h
  obtain ⟨_, _, h⟩ := StoreResult.bind_ok.mp h
  split at h
  · obtain ⟨_, _, h⟩ := StoreResult.bind_ok.mp h
    have hrows : rows = rows' := by simpa using h
    subst hrows
    exact fun row hrow => Or.inl hrow
  · have hrows : rows ++ [⟨record, revision⟩] = rows' := by simpa using h
    subst hrows
    intro row hrow
    rcases List.mem_append.mp hrow with hrow | hrow
    · exact Or.inl hrow
    · obtain rfl := List.mem_singleton.mp hrow
      exact Or.inr rfl

theorem foldlM_writeEvidenceRecord_mem {rows rows' : List EvidenceRow}
    {records : List EvidenceRecord} {revision : Nat}
    (h : records.foldlM (fun rows record => writeEvidenceRecord rows record revision) rows =
      (.ok rows' : StoreResult _)) :
    ∀ row ∈ rows', row ∈ rows ∨ row.record ∈ records := by
  induction records generalizing rows with
  | nil =>
      have hsame : rows = rows' := by simpa using h
      subst hsame
      exact fun row hrow => Or.inl hrow
  | cons record records ih =>
      rw [List.foldlM_cons] at h
      obtain ⟨middle, hhead, htail⟩ := StoreResult.bind_ok.mp h
      intro row hrow
      rcases ih htail row hrow with hmiddle | hrecord
      · rcases writeEvidenceRecord_mem hhead row hmiddle with hbefore | hrecord
        · exact Or.inl hbefore
        · exact Or.inr (List.mem_cons.mpr (Or.inl hrecord))
      · exact Or.inr (List.mem_cons_of_mem record hrecord)

/-- Writing evidence adds nothing but the records. -/
theorem writeEvidence_mem {store store' : Store} {records : List EvidenceRecord} {revision : Nat}
    (h : writeEvidence store records revision = .ok store') :
    ∀ row ∈ store'.evidence, row ∈ store.evidence ∨ row.record ∈ records := by
  unfold writeEvidence at h
  obtain ⟨rows, hrows, h⟩ := StoreResult.bind_ok.mp h
  have hstore : { store with evidence := rows } = store' := by simpa using h
  subst hstore
  exact foldlM_writeEvidenceRecord_mem hrows

/-- A whole-session write commits the pending evidence, and no other. -/
theorem commitSession_evidence {store committed : Store} {session : Session} {revision : Nat}
    (h : commitSession store session [] [] revision = .ok committed) :
    (∀ record ∈ session.pendingEvidence, ∃ row ∈ committed.evidence, row.record = record) ∧
      ∀ row ∈ committed.evidence,
        row ∈ store.evidence ∨ row.record ∈ session.pendingEvidence := by
  obtain ⟨written, added, final, hwritten, hevidence, hfinal, rfl⟩ := commitSession_ok h
  rw [writeOutbox_nil] at hfinal
  obtain rfl := Except.ok.inj hfinal
  have hsame := (writeSession_ok hwritten).2.1
  obtain ⟨added', hstore, -, hall⟩ := writeEvidence_ok hevidence
  have hadded : store.evidence ++ added = written.evidence ++ added' :=
    congrArg Store.evidence hstore
  constructor
  · intro record hrecord
    obtain ⟨row, hrow, hfound⟩ := hall record hrecord
    exact ⟨row, by rw [← hadded] at hrow; exact hrow, hfound⟩
  · intro row hrow
    have hmem := writeEvidence_mem hevidence row hrow
    rw [hsame] at hmem
    exact hmem

end GhAddressCr
