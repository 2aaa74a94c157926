import GhAddressCr.SessionWrites

/-!
# Mutations of a working set

What it means for a mutation to read and write only a loaded part of the session, and what
the tables hold after the rows of the part are written back.
-/
namespace GhAddressCr.RuntimeStore

open GithubThreadState KeyedRows

/-- The whole session with the loaded part replaced by what a mutation made of it. -/
def putBack (whole loaded changed : Session) : Session where
  root := changed.root
  items := overwrite (discard whole.items loaded.items.keys) changed.items
  leases := overwrite (discard whole.leases loaded.leases.keys) changed.leases
  leaseEvents := whole.leaseEvents ++ changed.leaseEvents
  pendingEvidence := changed.pendingEvidence
  revision := changed.revision

/-- The mutation changed nothing outside the loaded part. -/
structure LocalWrites (whole loaded changed : Session) : Prop where
  /-- Of the root fields, only the metadata. -/
  root : ∀ key : String, key ≠ "metadata" → changed.root[key]? = loaded.root[key]?
  /-- An item that was not loaded is new. -/
  items : ∀ itemId : String, loaded.items[itemId]? = none → changed.items[itemId]? ≠ none →
    whole.items[itemId]? = none
  leases : ∀ leaseId : String, loaded.leases[leaseId]? = none →
    changed.leases[leaseId]? ≠ none → whole.leases[leaseId]? = none
  /-- An item that was not loaded is not claimed, for a claim writes the item. -/
  claims : ∀ (leaseId : String) (lease : Lease), changed.leases[leaseId]? = some lease →
    lease.isActive = true → whole.items[lease.itemId]? ≠ none →
    loaded.items[lease.itemId]? = none →
    ∃ (heldId : String) (held : Lease), loaded.leases[heldId]? = some held ∧
      held.isActive = true ∧ held.itemId = lease.itemId
  /-- An item under an active lease that was not loaded is not created. -/
  created : ∀ itemId : String, changed.items[itemId]? ≠ none → whole.items[itemId]? = none →
    ∀ (leaseId : String) (lease : Lease), whole.leases[leaseId]? = some lease →
    lease.isActive = true → lease.itemId = itemId → loaded.leases[leaseId]? ≠ none

/-- On the whole session, the mutation does to the loaded part what it does to it alone,
and appends the same lease events. -/
structure LocalMutation {V : Type} (mutation : Mutation V) (whole loaded : Session) : Prop where
  reads : mutation whole =
    (mutation loaded).map fun result => (putBack whole loaded result.1, result.2)
  writes : ∀ changed value, mutation loaded = .ok (changed, value) →
    LocalWrites whole loaded changed

/-- What holds of the tables of every committed store. -/
structure WellFormed (store : Store) : Prop where
  identified : sessionId store.root ≠ ""
  oneActive : (activeItemIds (leasePayloads store.leases)).Nodup
  /-- The row of an item with an active lease says that it is claimed. -/
  claimed : ∀ (itemId : String) (item : Dict) (lease : Lease),
    (itemPayloads store.items)[itemId]? = some item →
    activeLeaseOf (leasePayloads store.leases) itemId = some lease →
    item.get "state" = .str "claimed"

theorem get_projectClaim_some_of_ne (item : Dict) (lease : Lease) {key : String}
    (hkey : key ∉ ["state", "active_lease_id", "claimed_by", "claimed_at", "lease_expires_at"]) :
    (projectClaim item (some lease)).get key = item.get key := by
  simp only [List.mem_cons, List.not_mem_nil, or_false, not_or] at hkey
  obtain ⟨hstate, hlease, hby, hat, hexpires⟩ := hkey
  simp [projectClaim, Ne.symm hstate, Ne.symm hlease, Ne.symm hby, Ne.symm hat,
    Ne.symm hexpires]

theorem get_state_projectClaim_some (item : Dict) (lease : Lease) :
    (projectClaim item (some lease)).get "state" = .str "claimed" := by
  simp [projectClaim]

/-- What a stale thread is read from. -/
theorem returnedClaimableState_congr {item other : Dict}
    (hstate : item.get "state" = other.get "state")
    (hstatus : item.get "status" = other.get "status")
    (houtdated : item.get "is_outdated" = other.get "is_outdated")
    (houtdated' : item.get "isOutdated" = other.get "isOutdated") :
    returnedClaimableState item = returnedClaimableState other := by
  have htext : item.textOr "status" "" = other.textOr "status" "" := by
    unfold Dict.textOr
    rw [hstatus]
  have hnormalized : normalizedThreadState item = normalizedThreadState other := by
    unfold normalizedThreadState
    rw [htext, show item.textOr "state" "" = other.textOr "state" "" by
      unfold Dict.textOr; rw [hstate]]
  have hstale : isStaleOrOutdatedGithubThread item = isStaleOrOutdatedGithubThread other := by
    unfold isStaleOrOutdatedGithubThread
    rw [hnormalized, htext, houtdated, houtdated']
  unfold returnedClaimableState
  rw [hstale]

/-- Releasing a claimed item forgets its claim, whether or not the claim was shown. -/
theorem projectClaim_none_projectClaim_some {item : Dict} (lease : Lease)
    (hclaimed : item.get "state" = .str "claimed") :
    projectClaim (projectClaim item (some lease)) none = projectClaim item none := by
  have hstate := get_state_projectClaim_some item lease
  have hkept : ∀ key : String,
      key ∉ ["state", "active_lease_id", "claimed_by", "claimed_at", "lease_expires_at"] →
      (projectClaim item (some lease)).get key = item.get key :=
    fun key => get_projectClaim_some_of_ne item lease
  have hreturned : returnedClaimableState (projectClaim item (some lease)) =
      returnedClaimableState item :=
    returnedClaimableState_congr (by rw [hstate, hclaimed]) (hkept "status" (by decide))
      (hkept "is_outdated" (by decide)) (hkept "isOutdated" (by decide))
  rw [projectClaim_none_claimed hstate, projectClaim_none_claimed hclaimed, hreturned]
  refine Dict.ext fun key => ?_
  simp only [clearedClaim, projectClaim, Dict.getElem?_set, Dict.getElem?_pop]
  split_ifs <;> rfl

/-- What a load of the whole session and one of a working set return. -/
structure Loaded (store : Store) (request : WorkingSetRequest) (whole : Session)
    (loaded : WorkingSet) : Prop where
  whole : loadSnapshot store = .ok whole
  part : loadWorkingSet store request = .ok loaded

theorem WellFormed.loaded {store : Store} (h : WellFormed store) (request : WorkingSetRequest) :
    ∃ whole loaded, Loaded store request whole loaded :=
  ⟨_, _, loadSnapshot_ok.mpr ⟨h.oneActive, rfl⟩, loadWorkingSet_ok.mpr ⟨h.identified,
    nodup_activeItemIds_of_subset h.oneActive fun _ _ => getElem?_leases_of_workingSet, rfl⟩⟩

section Part

variable {store : Store} {request : WorkingSetRequest} {whole : Session} {loaded : WorkingSet}

theorem Loaded.storedItems (h : Loaded store request whole loaded) :
    loaded.storedItems = workingSetItems store request := by
  obtain ⟨-, -, hloaded⟩ := loadWorkingSet_ok.mp h.part
  rw [hloaded]

theorem Loaded.storedLeases (h : Loaded store request whole loaded) :
    loaded.storedLeases = workingSetLeases store request := by
  obtain ⟨-, -, hloaded⟩ := loadWorkingSet_ok.mp h.part
  rw [hloaded]

theorem Loaded.root (h : Loaded store request whole loaded) :
    loaded.session.root = store.root := by
  obtain ⟨-, -, hloaded⟩ := loadWorkingSet_ok.mp h.part
  rw [hloaded]

theorem Loaded.partLeases (h : Loaded store request whole loaded) :
    loaded.session.leases = leasePayloads loaded.storedLeases := by
  obtain ⟨-, -, hloaded⟩ := loadWorkingSet_ok.mp h.part
  rw [hloaded]

theorem Loaded.wholeLeases (h : Loaded store request whole loaded) :
    whole.leases = leasePayloads store.leases := by
  obtain ⟨-, hwhole⟩ := loadSnapshot_ok.mp h.whole
  rw [hwhole]

theorem Loaded.wholeItems (h : Loaded store request whole loaded) :
    whole.items = projectedItems (itemPayloads store.items) (leasePayloads store.leases) := by
  obtain ⟨-, hwhole⟩ := loadSnapshot_ok.mp h.whole
  rw [hwhole]

theorem Loaded.wholeEvents (h : Loaded store request whole loaded) :
    whole.leaseEvents = store.leaseEvents := by
  obtain ⟨-, hwhole⟩ := loadSnapshot_ok.mp h.whole
  rw [hwhole]

theorem Loaded.oneActive (h : Loaded store request whole loaded) :
    (activeItemIds (leasePayloads store.leases)).Nodup :=
  (loadSnapshot_ok.mp h.whole).1

theorem Loaded.getElem?_storedLeases (h : Loaded store request whole loaded) (id : String) :
    loaded.storedLeases[id]? =
      if id ∈ request.selectedLeaseIds (leasePayloads store.leases) then store.leases[id]?
      else none := by
  rw [h.storedLeases, workingSetLeases, getElem?_restrict]

theorem Loaded.getElem?_storedItems (h : Loaded store request whole loaded) (id : String) :
    loaded.storedItems[id]? =
      if id ∈ request.selectedItemIds (leasePayloads store.leases) then store.items[id]?
      else none := by
  rw [h.storedItems, workingSetItems, getElem?_restrict]

/-- A loaded lease is the stored one. -/
theorem Loaded.lease_stored (h : Loaded store request whole loaded) {id : String}
    (hloaded : loaded.storedLeases[id]? ≠ none) :
    loaded.storedLeases[id]? = store.leases[id]? := by
  rw [h.getElem?_storedLeases] at hloaded ⊢
  split at hloaded
  case isTrue hselected => rw [if_pos hselected]
  case isFalse => exact absurd rfl hloaded

theorem Loaded.lease_iff (h : Loaded store request whole loaded) (id : String) :
    loaded.session.leases[id]? = none ↔ loaded.storedLeases[id]? = none := by
  rw [h.partLeases, getElem?_leasePayloads, Option.map_eq_none_iff]

theorem Loaded.getElem?_items (h : Loaded store request whole loaded) (itemId : String) :
    loaded.session.items[itemId]? =
      if itemId ∈ request.selectedItemIds (leasePayloads store.leases) then
        whole.items[itemId]? else none := by
  obtain ⟨-, -, hloaded⟩ := loadWorkingSet_ok.mp h.part
  rw [h.wholeItems, hloaded]
  exact getElem?_workingSet_items request h.oneActive itemId

theorem Loaded.item_iff (h : Loaded store request whole loaded) (itemId : String) :
    loaded.session.items[itemId]? = none ↔ loaded.storedItems[itemId]? = none := by
  rw [h.getElem?_items, h.getElem?_storedItems, h.wholeItems, getElem?_projectedItems,
    getElem?_itemPayloads]
  split <;> simp

/-- A loaded item is the item of the whole session, and its active lease is loaded. -/
theorem Loaded.closed (h : Loaded store request whole loaded) {itemId : String} {item : Dict}
    (hitem : loaded.session.items[itemId]? = some item) :
    whole.items[itemId]? = some item ∧
      ∀ (leaseId : String) (lease : Lease), whole.leases[leaseId]? = some lease →
        lease.isActive = true → lease.itemId = itemId →
        loaded.session.leases[leaseId]? = some lease := by
  rw [h.getElem?_items] at hitem
  split at hitem
  case isFalse => cases hitem
  case isTrue hselected =>
      refine ⟨hitem, ?_⟩
      intro leaseId lease hlease hactive hheld
      rw [h.wholeLeases] at hlease
      have hid := activeLease_selected hselected hlease hactive hheld
      rw [h.partLeases, getElem?_leasePayloads, h.getElem?_storedLeases, if_pos hid,
        ← getElem?_leasePayloads]
      exact hlease

end Part

/-- The rows after those of a working set are written back. -/
def writeBack {α β : Type} (table stored : Rows α) (rows : Rows β) (changed : Rows α) : Rows α :=
  overwrite (discard table (removedRows stored rows)) changed

theorem mem_removedRows {α β : Type} (stored : Rows α) (rows : Rows β) (id : String) :
    id ∈ removedRows stored rows ↔ stored[id]? ≠ none ∧ rows[id]? = none := by
  simp [removedRows, List.mem_filter]

theorem getElem?_writeBack {α β : Type} (table stored : Rows α) (rows : Rows β)
    (changed : Rows α) (id : String) (hchanged : changed[id]? = none ↔ rows[id]? = none) :
    (writeBack table stored rows changed)[id]? =
      changed[id]?.or (if stored[id]? = none then table[id]? else none) := by
  rw [writeBack, getElem?_overwrite, getElem?_discard]
  cases hrow : changed[id]? with
  | some row => rfl
  | none =>
      have hrows := hchanged.mp hrow
      by_cases hstored : stored[id]? = none
      · simp [mem_removedRows, hstored]
      · simp [mem_removedRows, hstored, hrows]

theorem getElem?_itemRows_eq_none (stored : Rows ItemRow) (items : Rows Dict) (revision : Nat)
    (id : String) : (itemRows stored items revision)[id]? = none ↔ items[id]? = none := by
  simp [itemRows]

theorem getElem?_leaseRows_eq_none (stored : Rows LeaseRow) (leases : Rows Lease)
    (revision : Nat) (id : String) :
    (leaseRows stored leases revision)[id]? = none ↔ leases[id]? = none := by
  simp [leaseRows]

theorem mem_changedLeases {stored : Rows LeaseRow} {leases : Rows Lease} {lease : Lease} :
    lease ∈ changedLeases stored leases ↔ ∃ id : String, leases[id]? = some lease ∧
      (leasePayloads stored)[id]? ≠ some lease := by
  simp [changedLeases, List.mem_filter, Std.ExtTreeMap.mem_toList_iff_getElem?_eq_some,
    getElem?_leasePayloads]

section Part

variable {store : Store} {request : WorkingSetRequest} {whole : Session} {loaded : WorkingSet}
  {changed : Session}

theorem Loaded.getElem?_putBack_leases (h : Loaded store request whole loaded) (id : String) :
    (putBack whole loaded.session changed).leases[id]? = changed.leases[id]?.or
      (if loaded.storedLeases[id]? = none then (leasePayloads store.leases)[id]? else none) := by
  rw [putBack, getElem?_overwrite, getElem?_discard, h.wholeLeases]
  simp only [mem_keys_iff, ne_eq, h.lease_iff, ite_not]

theorem Loaded.getElem?_putBack_items (h : Loaded store request whole loaded) (id : String) :
    (putBack whole loaded.session changed).items[id]? = changed.items[id]?.or
      (if loaded.storedItems[id]? = none then whole.items[id]? else none) := by
  rw [putBack, getElem?_overwrite, getElem?_discard]
  simp only [mem_keys_iff, ne_eq, h.item_iff, ite_not]

/-- Both paths leave the same leases. -/
theorem Loaded.leasePayloads_writeBack (h : Loaded store request whole loaded)
    (changed : Session) (revision : Nat) :
    leasePayloads (writeBack store.leases loaded.storedLeases changed.leases
        (leaseRows loaded.storedLeases changed.leases revision)) =
      (putBack whole loaded.session changed).leases := by
  refine Std.ExtTreeMap.ext_getElem? fun id => ?_
  rw [h.getElem?_putBack_leases, getElem?_leasePayloads, getElem?_writeBack _ _ _ _ _
    (getElem?_leaseRows_eq_none _ _ _ _)]
  have hrows : (leaseRows loaded.storedLeases changed.leases revision)[id]?.map (·.lease) =
      changed.leases[id]? := by
    rw [← getElem?_leasePayloads, leasePayloads_leaseRows]
  rw [← hrows]
  cases (leaseRows loaded.storedLeases changed.leases revision)[id]? with
  | some row => rfl
  | none =>
      simp only [Option.none_or, Option.map_none]
      split <;> simp [getElem?_leasePayloads]

theorem Loaded.getElem?_itemPayloads_writeBack (items : Rows Dict)
    (revision : Nat) (id : String) :
    (itemPayloads (writeBack store.items loaded.storedItems items
        (itemRows loaded.storedItems items revision)))[id]? = items[id]?.or
      (if loaded.storedItems[id]? = none then (itemPayloads store.items)[id]? else none) := by
  rw [getElem?_itemPayloads, getElem?_writeBack _ _ _ _ _ (getElem?_itemRows_eq_none _ _ _ _)]
  have hrows : (itemRows loaded.storedItems items revision)[id]?.map (·.payload) = items[id]? := by
    rw [← getElem?_itemPayloads, itemPayloads_itemRows]
  rw [← hrows]
  cases (itemRows loaded.storedItems items revision)[id]? with
  | some row => rfl
  | none =>
      simp only [Option.none_or, Option.map_none]
      split <;> simp [getElem?_itemPayloads]

/-- Both paths insert the same leases again. -/
theorem Loaded.mem_changedLeases (h : Loaded store request whole loaded)
    (hwrites : LocalWrites whole loaded.session changed) (lease : Lease) :
    lease ∈ changedLeases store.leases (putBack whole loaded.session changed).leases ↔
      lease ∈ changedLeases loaded.storedLeases changed.leases := by
  rw [RuntimeStore.mem_changedLeases, RuntimeStore.mem_changedLeases]
  refine exists_congr fun id => ?_
  rw [h.getElem?_putBack_leases]
  cases hchanged : changed.leases[id]? with
  | some row =>
      rw [Option.some_or]
      refine and_congr_right fun _ => ?_
      by_cases hloaded : loaded.storedLeases[id]? = none
      · have hnew := hwrites.leases id ((h.lease_iff id).mpr hloaded) (by rw [hchanged]; simp)
        rw [h.wholeLeases] at hnew
        simp [hnew, getElem?_leasePayloads, hloaded]
      · rw [getElem?_leasePayloads, getElem?_leasePayloads, h.lease_stored hloaded]
  | none =>
      constructor
      · rintro ⟨hrow, hne⟩
        rw [Option.none_or] at hrow
        split at hrow
        case isTrue => exact absurd hrow hne
        case isFalse => cases hrow
      · rintro ⟨hrow, -⟩
        cases hrow

theorem sessionId_eq_of_localWrites (hwrites : LocalWrites whole loaded.session changed) :
    sessionId changed.root = sessionId loaded.session.root := by
  unfold sessionId Dict.textOr Dict.get
  rw [hwrites.root "session_id" (by decide)]

/-- An item that was not loaded and shows an active lease showed one before. -/
theorem Loaded.claimed_before (h : Loaded store request whole loaded)
    (hwrites : LocalWrites whole loaded.session changed)
    (hnodup : (activeItemIds (putBack whole loaded.session changed).leases).Nodup)
    {itemId : String} {lease : Lease} (hexists : (itemPayloads store.items)[itemId]? ≠ none)
    (hunloaded : loaded.storedItems[itemId]? = none)
    (hlease : activeLeaseOf (putBack whole loaded.session changed).leases itemId = some lease) :
    ∃ held, activeLeaseOf (leasePayloads store.leases) itemId = some held := by
  obtain ⟨id, hid, hactive, hitem⟩ := (activeLeaseOf_eq_some hnodup).mp hlease
  rw [h.getElem?_putBack_leases] at hid
  cases hchanged : changed.leases[id]? with
  | some row =>
      rw [hchanged, Option.some_or] at hid
      have hrow := Option.some.inj hid
      subst hrow
      have hwhole : whole.items[itemId]? ≠ none := by
        rw [h.wholeItems, getElem?_projectedItems]
        simpa using hexists
      have hpart := (h.item_iff itemId).mpr hunloaded
      subst hitem
      obtain ⟨heldId, held, hheld, hheldActive, hheldItem⟩ :=
        hwrites.claims id row hchanged hactive hwhole hpart
      rw [h.partLeases, getElem?_leasePayloads] at hheld
      have hstored : loaded.storedLeases[heldId]? = store.leases[heldId]? := h.lease_stored (by
        intro hnone
        rw [hnone] at hheld
        cases hheld)
      rw [hstored, ← getElem?_leasePayloads] at hheld
      exact ⟨held, (activeLeaseOf_eq_some h.oneActive).mpr
        ⟨heldId, hheld, hheldActive, hheldItem⟩⟩
  | none =>
      rw [hchanged, Option.none_or] at hid
      split at hid
      case isTrue =>
          exact ⟨lease, (activeLeaseOf_eq_some h.oneActive).mpr ⟨id, hid, hactive, hitem⟩⟩
      case isFalse => cases hid

/-- An item the mutation leaves in the part shows the same claim on both paths. -/
theorem Loaded.claim_of_changed (h : Loaded store request whole loaded)
    (hwrites : LocalWrites whole loaded.session changed)
    (hnodup : (activeItemIds (putBack whole loaded.session changed).leases).Nodup)
    {itemId : String} (hitem : changed.items[itemId]? ≠ none) :
    activeLeaseOf changed.leases itemId =
      activeLeaseOf (putBack whole loaded.session changed).leases itemId := by
  have hpart : (activeItemIds changed.leases).Nodup := by
    refine nodup_activeItemIds_of_subset hnodup fun id lease hlease => ?_
    rw [h.getElem?_putBack_leases, hlease, Option.some_or]
  refine activeLeaseOf_congr hpart hnodup fun id lease hactive hheld => ?_
  rw [h.getElem?_putBack_leases]
  constructor
  · intro hlease
    rw [hlease, Option.some_or]
  · intro hlease
    cases hchanged : changed.leases[id]? with
    | some row => rwa [hchanged, Option.some_or] at hlease
    | none =>
        -- The lease would be active on the item and not loaded.
        rw [hchanged, Option.none_or] at hlease
        split at hlease
        case isFalse => cases hlease
        case isTrue hunloaded =>
            exfalso
            have hnone := (h.lease_iff id).mpr hunloaded
            rw [← h.wholeLeases] at hlease
            cases hloaded : loaded.session.items[itemId]? with
            | some item =>
                have hlease' := (h.closed hloaded).2 id lease hlease hactive hheld
                rw [hnone] at hlease'
                cases hlease'
            | none =>
                have hnew := hwrites.items itemId hloaded hitem
                exact hwrites.created itemId hitem hnew id lease hlease hactive hheld hnone

/-- Both paths leave items that show the same. -/
theorem Loaded.projectedItems_writeBack (h : Loaded store request whole loaded)
    (hformed : WellFormed store) (hwrites : LocalWrites whole loaded.session changed)
    (hnodup : (activeItemIds (putBack whole loaded.session changed).leases).Nodup)
    (revision : Nat) :
    projectedItems (itemPayloads (writeBack store.items loaded.storedItems
        (projectedItems changed.items changed.leases)
        (itemRows loaded.storedItems (projectedItems changed.items changed.leases) revision)))
        (putBack whole loaded.session changed).leases =
      projectedItems (putBack whole loaded.session changed).items
        (putBack whole loaded.session changed).leases := by
  refine Std.ExtTreeMap.ext_getElem? fun itemId => ?_
  rw [getElem?_projectedItems, getElem?_projectedItems, Loaded.getElem?_itemPayloads_writeBack,
    h.getElem?_putBack_items, getElem?_projectedItems]
  cases hchanged : changed.items[itemId]? with
  | some item =>
      have hitem : changed.items[itemId]? ≠ none := by simp [hchanged]
      have hclaim := h.claim_of_changed hwrites hnodup hitem
      simp [hclaim, projectClaim_idem]
  | none =>
      simp only [Option.map_none, Option.none_or]
      split
      case isFalse => rfl
      case isTrue hunloaded =>
          rw [h.wholeItems, getElem?_projectedItems]
          cases hitem : (itemPayloads store.items)[itemId]? with
          | none => rfl
          | some item =>
              have hexists : (itemPayloads store.items)[itemId]? ≠ none := by simp [hitem]
              simp only [Option.map_some, Option.some.injEq]
              cases hheld : activeLeaseOf (leasePayloads store.leases) itemId with
              | none =>
                  cases hlease : activeLeaseOf (putBack whole loaded.session changed).leases
                      itemId with
                  | none => rw [projectClaim_idem]
                  | some lease =>
                      obtain ⟨held, hheld'⟩ :=
                        h.claimed_before hwrites hnodup hexists hunloaded hlease
                      rw [hheld] at hheld'
                      cases hheld'
              | some held =>
                  cases hlease : activeLeaseOf (putBack whole loaded.session changed).leases
                      itemId with
                  | none =>
                      have hclaimed := hformed.claimed itemId item held hitem hheld
                      rw [projectClaim_none_projectClaim_some held hclaimed]
                  | some lease => rw [projectClaim_some_projectClaim_some]

end Part

end GhAddressCr.RuntimeStore
