import GhAddressCr.RuntimeStore
import Mathlib.Data.List.Nodup
import Mathlib.Tactic.SplitIfs

/-!
# What a load returns

The claim fields of an item are projected from the active leases whenever a session is
loaded or written. Projecting twice changes nothing, so a load returns the session that
the last commit was given, with its claims projected.
-/
namespace GhAddressCr.RuntimeStore

open GithubThreadState KeyedRows

/-- The item with no claim fields. -/
def clearedClaim (item : Dict) : Dict :=
  (((item.set "claimed_by" .null).set "claimed_at" .null).set "lease_expires_at" .null).pop
    "active_lease_id"

theorem clearedClaim_idem (item : Dict) : clearedClaim (clearedClaim item) = clearedClaim item := by
  refine Dict.ext fun key => ?_
  simp only [clearedClaim, Dict.getElem?_set, Dict.getElem?_pop]
  split_ifs <;> rfl

theorem get_state_clearedClaim (item : Dict) :
    (clearedClaim item).get "state" = item.get "state" := by
  simp [clearedClaim]

theorem projectClaim_none_unclaimed {item : Dict} (h : item.get "state" ≠ .str "claimed") :
    projectClaim item none = clearedClaim item := by
  simp only [projectClaim, if_neg h, clearedClaim]

theorem projectClaim_none_claimed {item : Dict} (h : item.get "state" = .str "claimed") :
    projectClaim item none = clearedClaim
      ((item.set "state" (.str (returnedClaimableState item).1)).set "status"
        (.str (returnedClaimableState item).2)) := by
  simp only [projectClaim, if_pos h, clearedClaim]

/-- Without an active lease, an item is shown cleared and not claimed. -/
theorem projectClaim_none_cleared (item : Dict) :
    ∃ base : Dict, base.get "state" ≠ .str "claimed" ∧
      projectClaim item none = clearedClaim base := by
  by_cases h : item.get "state" = .str "claimed"
  · refine ⟨_, ?_, projectClaim_none_claimed h⟩
    simpa using returnedClaimableState_ne_claimed item
  · exact ⟨item, h, projectClaim_none_unclaimed h⟩

/-- A lease's claim overwrites whatever the item showed before. -/
theorem projectClaim_some_projectClaim_some (item : Dict) (lease other : Lease) :
    projectClaim (projectClaim item (some other)) (some lease) =
      projectClaim item (some lease) := by
  refine Dict.ext fun key => ?_
  simp only [projectClaim, Dict.getElem?_set]
  split_ifs <;> rfl

theorem projectClaim_idem (item : Dict) (activeLease : Option Lease) :
    projectClaim (projectClaim item activeLease) activeLease = projectClaim item activeLease := by
  cases activeLease with
  | none =>
      obtain ⟨base, hbase, hitem⟩ := projectClaim_none_cleared item
      have hstate : (clearedClaim base).get "state" ≠ .str "claimed" := by
        rw [get_state_clearedClaim]
        exact hbase
      rw [hitem, projectClaim_none_unclaimed hstate, clearedClaim_idem]
  | some lease => exact projectClaim_some_projectClaim_some item lease lease

/-- The items as `deriveItemClaimProjection` leaves them. -/
def projectedItems (items : Rows Dict) (leases : Rows Lease) : Rows Dict :=
  items.map fun itemId item => projectClaim item (activeLeaseOf leases itemId)

theorem deriveItemClaimProjection_ok {items derived : Rows Dict} {leases : Rows Lease} :
    deriveItemClaimProjection items leases = .ok derived ↔
      (activeItemIds leases).Nodup ∧ projectedItems items leases = derived := by
  unfold deriveItemClaimProjection
  rw [StoreResult.bind_ok]
  constructor
  · rintro ⟨_, hnodup, hderived⟩
    exact ⟨require_ok.mp hnodup, StoreResult.pure_ok.mp hderived⟩
  · rintro ⟨hnodup, hderived⟩
    exact ⟨(), require_ok.mpr hnodup, StoreResult.pure_ok.mpr hderived⟩

theorem getElem?_projectedItems (items : Rows Dict) (leases : Rows Lease) (itemId : String) :
    (projectedItems items leases)[itemId]? =
      items[itemId]?.map fun item => projectClaim item (activeLeaseOf leases itemId) := by
  simp [projectedItems]

theorem projectedItems_idem (items : Rows Dict) (leases : Rows Lease) :
    projectedItems (projectedItems items leases) leases = projectedItems items leases := by
  refine Std.ExtTreeMap.ext_getElem? fun itemId => ?_
  rw [getElem?_projectedItems, getElem?_projectedItems]
  cases items[itemId]? with
  | none => rfl
  | some item => simp [projectClaim_idem]

theorem loadSnapshot_ok {store : Store} {session : Session} :
    loadSnapshot store = .ok session ↔
      (activeItemIds (leasePayloads store.leases)).Nodup ∧
        session = {
          root := store.root
          items := projectedItems (itemPayloads store.items) (leasePayloads store.leases)
          leases := leasePayloads store.leases
          leaseEvents := store.leaseEvents } := by
  unfold loadSnapshot
  rw [StoreResult.bind_ok]
  constructor
  · rintro ⟨items, hitems, hsession⟩
    obtain ⟨hnodup, rfl⟩ := deriveItemClaimProjection_ok.mp hitems
    exact ⟨hnodup, (StoreResult.pure_ok.mp hsession).symm⟩
  · rintro ⟨hnodup, rfl⟩
    exact ⟨_, deriveItemClaimProjection_ok.mpr ⟨hnodup, rfl⟩, rfl⟩

theorem committedView_ok {session view : Session} :
    committedView session = .ok view ↔
      (activeItemIds session.leases).Nodup ∧
        view = { session with
          items := projectedItems session.items session.leases
          pendingEvidence := []
          revision := none } := by
  unfold committedView
  rw [StoreResult.bind_ok]
  constructor
  · rintro ⟨items, hitems, hview⟩
    obtain ⟨hnodup, rfl⟩ := deriveItemClaimProjection_ok.mp hitems
    exact ⟨hnodup, (StoreResult.pure_ok.mp hview).symm⟩
  · rintro ⟨hnodup, rfl⟩
    exact ⟨_, deriveItemClaimProjection_ok.mpr ⟨hnodup, rfl⟩, rfl⟩

@[simp] theorem itemPayloads_itemRows (stored : Rows ItemRow) (items : Rows Dict)
    (revision : Nat) : itemPayloads (itemRows stored items revision) = items := by
  refine Std.ExtTreeMap.ext_getElem? fun itemId => ?_
  simp only [itemPayloads, itemRows, Std.ExtTreeMap.getElem?_map]
  cases items[itemId]? with
  | none => rfl
  | some item =>
      cases stored[itemId]? with
      | none => rfl
      | some prior =>
          by_cases h : prior.payload = item <;> simp [h]

@[simp] theorem leasePayloads_leaseRows (stored : Rows LeaseRow) (leases : Rows Lease)
    (revision : Nat) : leasePayloads (leaseRows stored leases revision) = leases := by
  refine Std.ExtTreeMap.ext_getElem? fun leaseId => ?_
  simp only [leasePayloads, leaseRows, Std.ExtTreeMap.getElem?_map]
  cases leases[leaseId]? with
  | none => rfl
  | some lease =>
      cases stored[leaseId]? with
      | none => rfl
      | some prior =>
          by_cases h : prior.lease = lease <;> simp [h]

/-- Nothing of the session but its evidence and outbox differs. -/
structure SameSession (store other : Store) : Prop where
  root : other.root = store.root
  items : other.items = store.items
  leases : other.leases = store.leases
  leaseEvents : other.leaseEvents = store.leaseEvents

theorem SameSession.loadSnapshot {store other : Store} (h : SameSession store other) :
    loadSnapshot other = loadSnapshot store := by
  unfold RuntimeStore.loadSnapshot
  rw [h.root, h.items, h.leases, h.leaseEvents]

theorem SameSession.loadWorkingSet {store other : Store} (h : SameSession store other)
    (request : WorkingSetRequest) :
    loadWorkingSet other request = loadWorkingSet store request := by
  unfold RuntimeStore.loadWorkingSet
  rw [h.root, h.items, h.leases]

/-- The evidence, outbox and revision written after the session leave it alone. -/
theorem SameSession.ofWrites {written evidenced final : Store} {records : List EvidenceRecord}
    {outbox : List OutboxCommand} {revision : Nat}
    (hevidence : writeEvidence written records revision = .ok evidenced)
    (houtbox : writeOutbox evidenced outbox revision = .ok final) :
    SameSession written (advanceRevision final revision) := by
  obtain ⟨added, rfl, -, -⟩ := writeEvidence_ok hevidence
  unfold writeOutbox at houtbox
  obtain ⟨rows, -, houtbox⟩ := StoreResult.bind_ok.mp houtbox
  have hfinal := StoreResult.pure_ok.mp houtbox
  subst hfinal
  exact ⟨rfl, rfl, rfl, rfl⟩

/-- A whole-session write passes its checks and leaves the session to load. -/
theorem writeSession_view {store written : Store} {session : Session} {revision : Nat}
    (h : writeSession store session revision = .ok written) :
    sessionId session.root ≠ "" ∧ (activeItemIds session.leases).Nodup ∧
      written.root = session.root ∧
      itemPayloads written.items = projectedItems session.items session.leases ∧
      leasePayloads written.leases = session.leases ∧
      written.leaseEvents = session.leaseEvents := by
  unfold writeSession at h
  obtain ⟨_, hid, h⟩ := StoreResult.bind_ok.mp h
  obtain ⟨items, hitems, h⟩ := StoreResult.bind_ok.mp h
  obtain ⟨hnodup, rfl⟩ := deriveItemClaimProjection_ok.mp hitems
  obtain ⟨_, _, h⟩ := StoreResult.bind_ok.mp h
  have hwritten := StoreResult.pure_ok.mp h
  subst hwritten
  exact ⟨require_ok.mp hid, hnodup, rfl, itemPayloads_itemRows _ _ _,
    leasePayloads_leaseRows _ _ _, rfl⟩

theorem writeSession_reload {store written : Store} {session : Session} {revision : Nat}
    (h : writeSession store session revision = .ok written) :
    loadSnapshot written = committedView session := by
  obtain ⟨-, hnodup, hroot, hitems, hleases, hevents⟩ := writeSession_view h
  have hview := committedView_ok.mpr ⟨hnodup, rfl⟩
  have hload : loadSnapshot written = .ok _ :=
    loadSnapshot_ok.mpr ⟨by rw [hleases]; exact hnodup, rfl⟩
  rw [hview, hload, hroot, hitems, hleases, hevents, projectedItems_idem]

/-- A load after a whole-session commit returns the view the commit reports. -/
theorem commitSession_view {store committed : Store} {session : Session}
    {evidence : List EvidenceRecord} {outbox : List OutboxCommand} {revision : Nat}
    (h : commitSession store session evidence outbox revision = .ok committed) :
    loadSnapshot committed = committedView session := by
  obtain ⟨written, added, final, hwritten, hevidence, houtbox, rfl⟩ := commitSession_ok h
  rw [(SameSession.ofWrites hevidence houtbox).loadSnapshot]
  exact writeSession_reload hwritten

/-- Committing a loaded session again changes nothing a load shows. -/
theorem committedView_loadSnapshot {store : Store} {session : Session}
    (h : loadSnapshot store = .ok session) : committedView session = .ok session := by
  obtain ⟨hnodup, rfl⟩ := loadSnapshot_ok.mp h
  rw [committedView_ok]
  exact ⟨hnodup, by simp [projectedItems_idem]⟩

theorem activeItemIds_eq (leases : Rows Lease) :
    activeItemIds leases =
      (leases.toList.filter fun row => row.2.isActive).map fun row => row.2.itemId := by
  simp [activeItemIds, List.filter_map, Function.comp_def]

/-- No item has two active leases. -/
theorem nodup_activeItemIds {leases : Rows Lease} :
    (activeItemIds leases).Nodup ↔
      ∀ (id other : String) (lease held : Lease),
        leases[id]? = some lease → leases[other]? = some held →
        lease.isActive = true → held.isActive = true → lease.itemId = held.itemId →
        id = other := by
  have hrows : (leases.toList.filter fun row => row.2.isActive).Nodup := by
    have hdistinct := (pairwise_ne_toList leases).imp fun {a b} h heq => h (congrArg Prod.fst heq)
    exact List.Nodup.filter _ hdistinct
  rw [activeItemIds_eq, List.nodup_map_iff_inj_on hrows]
  have hmem : ∀ (id : String) (lease : Lease),
      (id, lease) ∈ (leases.toList.filter fun row => row.2.isActive) ↔
        leases[id]? = some lease ∧ lease.isActive = true := by
    simp [Std.ExtTreeMap.mem_toList_iff_getElem?_eq_some]
  constructor
  · intro h id other lease held hlease hheld hactive hactive' hitem
    have hsame := h (id, lease) ((hmem _ _).mpr ⟨hlease, hactive⟩) (other, held)
      ((hmem _ _).mpr ⟨hheld, hactive'⟩) hitem
    exact congrArg Prod.fst hsame
  · rintro h ⟨id, lease⟩ hrow ⟨other, held⟩ hrow' hitem
    obtain ⟨hlease, hactive⟩ := (hmem _ _).mp hrow
    obtain ⟨hheld, hactive'⟩ := (hmem _ _).mp hrow'
    have hid := h id other lease held hlease hheld hactive hactive' hitem
    subst hid
    rw [hlease] at hheld
    rw [Option.some.inj hheld]

/-- Rows of a table with one active lease for each item form such a table. -/
theorem nodup_activeItemIds_of_subset {leases part : Rows Lease}
    (h : (activeItemIds leases).Nodup)
    (hpart : ∀ (id : String) (lease : Lease), part[id]? = some lease → leases[id]? = some lease) :
    (activeItemIds part).Nodup := by
  rw [nodup_activeItemIds] at h ⊢
  intro id other lease held hlease hheld
  exact h id other lease held (hpart id lease hlease) (hpart other held hheld)

theorem activeLeaseOf_eq_some {leases : Rows Lease} (hnodup : (activeItemIds leases).Nodup)
    {itemId : String} {lease : Lease} :
    activeLeaseOf leases itemId = some lease ↔
      ∃ id : String, leases[id]? = some lease ∧ lease.isActive = true ∧ lease.itemId = itemId := by
  have hmem : ∀ held : Lease, held ∈ leases.toList.map (·.2) ↔
      ∃ id : String, leases[id]? = some held := by
    intro held
    simp [List.mem_map, Std.ExtTreeMap.mem_toList_iff_getElem?_eq_some]
  constructor
  · intro h
    have hfound := List.find?_some h
    obtain ⟨id, hid⟩ := (hmem lease).mp (List.mem_of_find?_eq_some h)
    simp only [Bool.and_eq_true, beq_iff_eq] at hfound
    exact ⟨id, hid, hfound.1, hfound.2⟩
  · rintro ⟨id, hid, hactive, rfl⟩
    cases hfind : activeLeaseOf leases lease.itemId with
    | none =>
        have hall := List.find?_eq_none.mp hfind lease ((hmem lease).mpr ⟨id, hid⟩)
        simp [hactive] at hall
    | some held =>
        have hfound := List.find?_some hfind
        obtain ⟨other, hother⟩ := (hmem held).mp (List.mem_of_find?_eq_some hfind)
        simp only [Bool.and_eq_true, beq_iff_eq] at hfound
        have hsame := nodup_activeItemIds.mp hnodup id other lease held hid hother hactive
          hfound.1 hfound.2.symm
        subst hsame
        rw [hid] at hother
        exact hother.symm

theorem activeLeaseOf_eq_none {leases : Rows Lease} (hnodup : (activeItemIds leases).Nodup)
    {itemId : String} :
    activeLeaseOf leases itemId = none ↔
      ∀ (id : String) (lease : Lease), leases[id]? = some lease → lease.isActive = true →
        lease.itemId ≠ itemId := by
  rw [Option.eq_none_iff_forall_ne_some]
  constructor
  · intro h id lease hid hactive hitem
    exact h lease ((activeLeaseOf_eq_some hnodup).mpr ⟨id, hid, hactive, hitem⟩)
  · intro h lease hlease
    obtain ⟨id, hid, hactive, hitem⟩ := (activeLeaseOf_eq_some hnodup).mp hlease
    exact h id lease hid hactive hitem

/-- Two tables with the same active leases on an item show it the same claim. -/
theorem activeLeaseOf_congr {leases others : Rows Lease} (hnodup : (activeItemIds leases).Nodup)
    (hnodup' : (activeItemIds others).Nodup) {itemId : String}
    (h : ∀ (id : String) (lease : Lease), lease.isActive = true → lease.itemId = itemId →
      (leases[id]? = some lease ↔ others[id]? = some lease)) :
    activeLeaseOf leases itemId = activeLeaseOf others itemId := by
  refine Option.ext fun lease => ?_
  rw [activeLeaseOf_eq_some hnodup, activeLeaseOf_eq_some hnodup']
  constructor
  · rintro ⟨id, hid, hactive, hitem⟩
    exact ⟨id, (h id lease hactive hitem).mp hid, hactive, hitem⟩
  · rintro ⟨id, hid, hactive, hitem⟩
    exact ⟨id, (h id lease hactive hitem).mpr hid, hactive, hitem⟩

theorem getElem?_leasePayloads (rows : Rows LeaseRow) (id : String) :
    (leasePayloads rows)[id]? = rows[id]?.map (·.lease) := by
  simp [leasePayloads]

theorem getElem?_itemPayloads (rows : Rows ItemRow) (id : String) :
    (itemPayloads rows)[id]? = rows[id]?.map (·.payload) := by
  simp [itemPayloads]

/-- The leases a working set loads. -/
def workingSetLeases (store : Store) (request : WorkingSetRequest) : Rows LeaseRow :=
  restrict store.leases (request.selectedLeaseIds (leasePayloads store.leases))

/-- The items a working set loads. -/
def workingSetItems (store : Store) (request : WorkingSetRequest) : Rows ItemRow :=
  restrict store.items (request.selectedItemIds (leasePayloads store.leases))

theorem mem_selectedLeaseIds {request : WorkingSetRequest} {leases : Rows Lease} {id : String} :
    id ∈ request.selectedLeaseIds leases ↔
      ∃ lease, leases[id]? = some lease ∧ request.selectsLease leases id lease = true := by
  simp [WorkingSetRequest.selectedLeaseIds, List.mem_map, List.mem_filter,
    Std.ExtTreeMap.mem_toList_iff_getElem?_eq_some]

/-- A loaded item brings its active lease. -/
theorem activeLease_selected {request : WorkingSetRequest} {leases : Rows Lease}
    {itemId id : String} {lease : Lease} (hitem : itemId ∈ request.selectedItemIds leases)
    (hlease : leases[id]? = some lease) (hactive : lease.isActive = true)
    (hheld : lease.itemId = itemId) : id ∈ request.selectedLeaseIds leases := by
  rw [mem_selectedLeaseIds]
  refine ⟨lease, hlease, ?_⟩
  have hcovered : lease.itemId ∈ request.activeItemIds ∨
      lease.itemId ∈ request.leaseItemIds leases := by
    rw [hheld]
    rcases List.mem_append.mp hitem with hnamed | hbrought
    · obtain ⟨hnamed, hblank⟩ := List.mem_filter.mp hnamed
      exact Or.inl (List.mem_filter.mpr ⟨List.mem_append_left _ hnamed, hblank⟩)
    · exact Or.inr hbrought
  rcases hcovered with h | h <;> simp [WorkingSetRequest.selectsLease, hactive, h]

theorem getElem?_workingSetLeases (store : Store) (request : WorkingSetRequest) (id : String) :
    (leasePayloads (workingSetLeases store request))[id]? =
      if id ∈ request.selectedLeaseIds (leasePayloads store.leases) then
        (leasePayloads store.leases)[id]? else none := by
  rw [getElem?_leasePayloads, workingSetLeases, getElem?_restrict, getElem?_leasePayloads]
  split <;> rfl

theorem getElem?_workingSetItems (store : Store) (request : WorkingSetRequest) (id : String) :
    (itemPayloads (workingSetItems store request))[id]? =
      if id ∈ request.selectedItemIds (leasePayloads store.leases) then
        (itemPayloads store.items)[id]? else none := by
  rw [getElem?_itemPayloads, workingSetItems, getElem?_restrict, getElem?_itemPayloads]
  split <;> rfl

theorem getElem?_leases_of_workingSet {store : Store} {request : WorkingSetRequest} {id : String}
    {lease : Lease} (h : (leasePayloads (workingSetLeases store request))[id]? = some lease) :
    (leasePayloads store.leases)[id]? = some lease := by
  rw [getElem?_workingSetLeases] at h
  split at h
  case isTrue => exact h
  case isFalse => cases h

/-- Closure: a loaded item shows the claim it shows in the whole session. -/
theorem activeLeaseOf_workingSet {store : Store} (request : WorkingSetRequest)
    (hnodup : (activeItemIds (leasePayloads store.leases)).Nodup) {itemId : String}
    (hitem : itemId ∈ request.selectedItemIds (leasePayloads store.leases)) :
    activeLeaseOf (leasePayloads (workingSetLeases store request)) itemId =
      activeLeaseOf (leasePayloads store.leases) itemId := by
  have hpart : (activeItemIds (leasePayloads (workingSetLeases store request))).Nodup :=
    nodup_activeItemIds_of_subset hnodup fun _ _ => getElem?_leases_of_workingSet
  refine activeLeaseOf_congr hpart hnodup fun id lease hactive hheld => ?_
  constructor
  · exact getElem?_leases_of_workingSet
  · intro hlease
    rw [getElem?_workingSetLeases, if_pos (activeLease_selected hitem hlease hactive hheld)]
    exact hlease

theorem loadWorkingSet_ok {store : Store} {request : WorkingSetRequest} {loaded : WorkingSet} :
    loadWorkingSet store request = .ok loaded ↔
      sessionId store.root ≠ "" ∧
        (activeItemIds (leasePayloads (workingSetLeases store request))).Nodup ∧
        loaded = {
          session := {
            root := store.root
            items := projectedItems (itemPayloads (workingSetItems store request))
              (leasePayloads (workingSetLeases store request))
            leases := leasePayloads (workingSetLeases store request)
            leaseEvents := [] }
          storedItems := workingSetItems store request
          storedLeases := workingSetLeases store request } := by
  unfold loadWorkingSet
  rw [StoreResult.bind_ok]
  constructor
  · rintro ⟨_, hid, h⟩
    obtain ⟨items, hitems, hloaded⟩ := StoreResult.bind_ok.mp h
    obtain ⟨hnodup, rfl⟩ := deriveItemClaimProjection_ok.mp hitems
    exact ⟨require_ok.mp hid, hnodup, (StoreResult.pure_ok.mp hloaded).symm⟩
  · rintro ⟨hid, hnodup, rfl⟩
    refine ⟨(), require_ok.mpr hid, ?_⟩
    exact StoreResult.bind_ok.mpr ⟨_, deriveItemClaimProjection_ok.mpr ⟨hnodup, rfl⟩, rfl⟩

/-- The items of a working set are those of the whole session. -/
theorem getElem?_workingSet_items {store : Store} (request : WorkingSetRequest)
    (hnodup : (activeItemIds (leasePayloads store.leases)).Nodup) (itemId : String) :
    (projectedItems (itemPayloads (workingSetItems store request))
        (leasePayloads (workingSetLeases store request)))[itemId]? =
      if itemId ∈ request.selectedItemIds (leasePayloads store.leases) then
        (projectedItems (itemPayloads store.items) (leasePayloads store.leases))[itemId]?
      else none := by
  rw [getElem?_projectedItems, getElem?_projectedItems, getElem?_workingSetItems]
  by_cases hitem : itemId ∈ request.selectedItemIds (leasePayloads store.leases)
  · simp only [if_pos hitem, activeLeaseOf_workingSet request hnodup hitem]
  · simp [if_neg hitem]

/-- A bounded load shows a part of what a whole load shows, and nothing else. -/
theorem workingSet_congr {store other : Store} {session : Session}
    (hstore : loadSnapshot store = .ok session) (hother : loadSnapshot other = .ok session)
    (request : WorkingSetRequest) :
    (loadWorkingSet other request).map (·.session) =
      (loadWorkingSet store request).map (·.session) := by
  obtain ⟨hnodup, rfl⟩ := loadSnapshot_ok.mp hstore
  obtain ⟨hnodup', hsame⟩ := loadSnapshot_ok.mp hother
  simp only [Session.mk.injEq] at hsame
  obtain ⟨hroot, hitems, hleases, -⟩ := hsame
  have hpart : leasePayloads (workingSetLeases other request) =
      leasePayloads (workingSetLeases store request) := by
    refine Std.ExtTreeMap.ext_getElem? fun id => ?_
    rw [getElem?_workingSetLeases, getElem?_workingSetLeases, hleases]
  have hshown : projectedItems (itemPayloads (workingSetItems other request))
        (leasePayloads (workingSetLeases other request)) =
      projectedItems (itemPayloads (workingSetItems store request))
        (leasePayloads (workingSetLeases store request)) := by
    refine Std.ExtTreeMap.ext_getElem? fun itemId => ?_
    rw [getElem?_workingSet_items request hnodup', getElem?_workingSet_items request hnodup,
      ← hitems, hleases]
  by_cases hid : sessionId store.root = ""
  · have hother : sessionId other.root = "" := by rw [← hroot]; exact hid
    simp [loadWorkingSet, require, hid, hother, bind, Except.bind, Except.map]
  · have hbounded : (activeItemIds (leasePayloads (workingSetLeases store request))).Nodup :=
      nodup_activeItemIds_of_subset hnodup fun _ _ => getElem?_leases_of_workingSet
    rw [loadWorkingSet_ok.mpr ⟨hid, hbounded, rfl⟩,
      loadWorkingSet_ok.mpr ⟨by rw [← hroot]; exact hid, by rw [hpart]; exact hbounded, rfl⟩]
    show Except.ok _ = Except.ok _
    rw [hshown, hpart, hroot]

end GhAddressCr.RuntimeStore
