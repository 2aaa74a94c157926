import GhAddressCr.StackGate
import GhAddressCr.SubmissionSteps

/-!
# Rejected submissions

What a rejected response leaves of the work in a session. A request that can no longer be
answered is given up: its lease is released while it is active, but its item is reset
whatever has become of the lease.
-/
namespace GhAddressCr

open PyText GithubThreadState RuntimeStore

/-- The fields by which an item shows its claim. -/
def claimFields : List String :=
  ["claimed_by", "claimed_at", "lease_expires_at", "active_lease_id"]

/-- State, status, evidence and all else but the claim are as before. -/
def SameWork (item item' : Dict) : Prop :=
  ∀ key : String, key ∉ claimFields → item'[key]? = item[key]?

/-- The item is claimable, and otherwise as before. -/
structure ReturnedWork (item item' : Dict) : Prop where
  claimable : ∃ state ∈ githubThreadClaimableStates, item'.get "state" = .str state
  rest : ∀ key : String, key ∉ "state" :: "status" :: claimFields → item'[key]? = item[key]?

/-- Only the lease that the response is for may end, if it was active, and only its item may
be returned; all other work is kept. -/
structure KeepsCompletedWork (response : Dict) (before after : Session) : Prop where
  items : ∀ (itemId : String) (item : Dict), before.items[itemId]? = some item →
    ∃ item', after.items[itemId]? = some item' ∧
      (SameWork item item' ∨
        (∃ (leaseId : String) (lease : Lease), before.leases[leaseId]? = some lease ∧
          lease.isActive = true ∧ lease.itemId = itemId ∧ Answers response leaseId lease) ∧
          ReturnedWork item item')
  leases : ∀ (leaseId : String) (lease : Lease), before.leases[leaseId]? = some lease →
    ∃ lease', after.leases[leaseId]? = some lease' ∧
      (lease' = lease ∨ lease.isActive = true ∧ Answers response leaseId lease ∧
        (lease'.status = .released ∨ lease'.status = .expired))

/-- The request given up is one whose lease has ended, on an item that no lease holds and that
is not as a reset leaves it. -/
def ResetsFinishedItem (session : Session) (submission : ResponseSubmission) : Prop :=
  ∃ prepared, givenUpRequest session submission = some prepared ∧
    prepared.lease.isActive = false ∧
    activeLeaseOf session.leases prepared.itemId = none ∧
    (prepared.item.get "state", prepared.item.get "status") ≠
      (.str (returnedClaimableState prepared.item).1,
        .str (returnedClaimableState prepared.item).2)

/-- The change returns an item that the lease holds, and touches nothing but its state and
claim. -/
structure ReturnsItem (leaseId : String) (f : Dict → Dict) : Prop where
  claimable : ∀ item : Dict, item.get "active_lease_id" = .str leaseId →
    ∃ state ∈ githubThreadClaimableStates, (f item).get "state" = .str state
  rest : ∀ (item : Dict) (key : String), item.get "active_lease_id" = .str leaseId →
    key ∉ "state" :: "status" :: claimFields → (f item)[key]? = item[key]?

theorem getElem?_cleared_returned (item : Dict) {key : String}
    (hkey : key ∉ "state" :: "status" :: claimFields) :
    (clearClaimFields (returnItemToClaimableState item))[key]? = item[key]? := by
  simp only [claimFields, List.mem_cons, List.not_mem_nil, or_false, not_or] at hkey
  obtain ⟨hstate, hstatus, hby, hat, hexpires, hid⟩ := hkey
  simp [clearClaimFields, returnItemToClaimableState, Dict.getElem?_set, Dict.getElem?_pop,
    Ne.symm hstate, Ne.symm hstatus, Ne.symm hby, Ne.symm hat, Ne.symm hexpires, Ne.symm hid]

theorem get_state_cleared_returned (item : Dict) :
    (clearClaimFields (returnItemToClaimableState item)).get "state" =
      .str (returnedClaimableState item).1 := by
  simp [clearClaimFields, returnItemToClaimableState]

theorem resetIrrecoverable_returns (leaseId : String) :
    ReturnsItem leaseId (resetIrrecoverableItem leaseId) := by
  have hreset : ∀ item : Dict, item.get "active_lease_id" = .str leaseId →
      resetIrrecoverableItem leaseId item =
        clearClaimFields (returnItemToClaimableState item) := by
    intro item hitem
    unfold resetIrrecoverableItem
    by_cases hempty : leaseId = "" <;> simp [Dict.textOr, Value.orElse, hitem, hempty]
  constructor
  · intro item hitem
    rw [hreset item hitem]
    exact ⟨_, returnedClaimableState_mem item, get_state_cleared_returned item⟩
  · intro item key hitem hkey
    rw [hreset item hitem]
    exact getElem?_cleared_returned item hkey

theorem openedItem_unclaimed (lease : Lease) {item : Dict}
    (h : item.get "state" ≠ .str "claimed") : openedItem lease item = item := by
  unfold openedItem
  rw [if_neg fun hclaimed => h hclaimed.1]

theorem expiry_returns (lease expired : Lease) :
    ReturnsItem lease.leaseId (openedItem expired ∘ returnedItem lease.leaseId) := by
  have hreset : ∀ item : Dict, item.get "active_lease_id" = .str lease.leaseId →
      (openedItem expired ∘ returnedItem lease.leaseId) item =
        clearClaimFields (returnItemToClaimableState item) := by
    intro item hitem
    have hunclaimed : (clearClaimFields (returnItemToClaimableState item)).get "state" ≠
        .str "claimed" := by
      rw [get_state_cleared_returned]
      simpa using returnedClaimableState_ne_claimed item
    simp only [Function.comp_apply, returnedItem, if_pos hitem]
    exact openedItem_unclaimed expired hunclaimed
  constructor
  · intro item hitem
    rw [hreset item hitem]
    exact ⟨_, returnedClaimableState_mem item, get_state_cleared_returned item⟩
  · intro item key hitem hkey
    rw [hreset item hitem]
    exact getElem?_cleared_returned item hkey

/-- A session as a load finds it: no item has two active leases, and the items show them. -/
structure Projected (s : Session) : Prop where
  oneActive : (activeItemIds s.leases).Nodup
  items : projectedItems s.items s.leases = s.items

theorem Projected.ofLoad {store : Store} {s : Session} (h : loadSnapshot store = .ok s) :
    Projected s := by
  obtain ⟨hnodup, rfl⟩ := loadSnapshot_ok.mp h
  exact ⟨hnodup, projectedItems_idem _ _⟩

theorem Projected.item {s : Session} (h : Projected s) {itemId : String} {item : Dict}
    (hitem : s.items[itemId]? = some item) :
    projectClaim item (activeLeaseOf s.leases itemId) = item := by
  have hsame := congrArg (fun items : Rows Dict => items[itemId]?) h.items
  simp only [getElem?_projectedItems, hitem, Option.map_some, Option.some.injEq] at hsame
  exact hsame

/-- The session a load finds once this one is committed. -/
def reloaded (s : Session) : Session :=
  { s with items := projectedItems s.items s.leases, pendingEvidence := [], revision := none }

theorem getElem?_reloaded_items (s : Session) (itemId : String) :
    (reloaded s).items[itemId]? =
      s.items[itemId]?.map fun item => projectClaim item (activeLeaseOf s.leases itemId) :=
  getElem?_projectedItems s.items s.leases itemId

theorem keeps_notes {response : Dict} {before changed : Session} (hbefore : Projected before)
    (hleases : changed.leases = before.leases) (hitems : changed.items = before.items) :
    KeepsCompletedWork response before (reloaded changed) := by
  have hsame : (reloaded changed).items = before.items := by
    unfold reloaded
    rw [hleases, hitems]
    exact hbefore.items
  constructor
  · intro itemId item hitem
    rw [hsame]
    exact ⟨item, hitem, Or.inl fun _ _ => rfl⟩
  · intro leaseId lease hlease
    refine ⟨lease, ?_, Or.inl rfl⟩
    show changed.leases[leaseId]? = some lease
    rw [hleases]
    exact hlease

/-- Once its lease has ended no lease holds the item, and the other items are held as before. -/
theorem activeLeaseOf_ended {before changed : Session}
    (hbefore : (activeItemIds before.leases).Nodup) (hchanged : (activeItemIds changed.leases).Nodup)
    {leaseId : String} {lease ended : Lease} {f : Dict → Dict}
    (hlease : before.leases[leaseId]? = some lease) (hactive : lease.isActive = true)
    (hended : ended.isActive = false)
    (ht : Touches before changed leaseId (fun _ => ended) lease.itemId f) (itemId : String) :
    activeLeaseOf changed.leases itemId =
      if itemId = lease.itemId then none else activeLeaseOf before.leases itemId := by
  split
  · next hid =>
    rw [activeLeaseOf_eq_none hchanged]
    intro id other hother hotherActive hheld
    rw [ht.leases] at hother
    split at hother
    · next hsame =>
      subst hsame
      rw [hlease] at hother
      obtain rfl := Option.some.inj hother
      simp [hended] at hotherActive
    · next hne =>
      exact hne (nodup_activeItemIds.mp hbefore id leaseId other lease hother hlease
        hotherActive hactive (hheld.trans hid))
  · next hid =>
    refine activeLeaseOf_congr hchanged hbefore fun id other hother hheld => ?_
    rw [ht.leases]
    split
    · next hkey =>
      subst hkey
      have hne : ended ≠ other := by
        rintro rfl
        simp [hended] at hother
      have hne' : lease ≠ other := by
        rintro rfl
        exact hid hheld.symm
      simp [hlease, hne, hne']
    · rfl

theorem clearedClaim_returned {leaseId : String} {f : Dict → Dict} (h : ReturnsItem leaseId f)
    {item : Dict} (hitem : item.get "active_lease_id" = .str leaseId) :
    ReturnedWork item (projectClaim (f item) none) := by
  obtain ⟨state, hclaimable, hstate⟩ := h.claimable item hitem
  have hunclaimed : (f item).get "state" ≠ .str "claimed" := by
    rw [hstate]
    intro hclaimed
    obtain rfl := Value.str.inj hclaimed
    exact absurd hclaimable (by decide)
  rw [projectClaim_none_unclaimed hunclaimed]
  constructor
  · exact ⟨state, hclaimable, by rw [get_state_clearedClaim, hstate]⟩
  · intro key hkey
    rw [← h.rest item key hitem hkey]
    simp only [claimFields, List.mem_cons, List.not_mem_nil, or_false, not_or] at hkey
    obtain ⟨-, -, hby, hat, hexpires, hlink⟩ := hkey
    simp [clearedClaim, Dict.getElem?_set, Dict.getElem?_pop, Ne.symm hby, Ne.symm hat,
      Ne.symm hexpires, Ne.symm hlink]

/-- An active lease has ended, and its item is returned. -/
theorem keeps_ended {response : Dict} {before changed : Session} (hbefore : Projected before)
    {leaseId : String} {lease ended : Lease} {f : Dict → Dict}
    (hlease : before.leases[leaseId]? = some lease) (hactive : lease.isActive = true)
    (hanswers : Answers response leaseId lease)
    (hended : ended.status = .released ∨ ended.status = .expired)
    (ht : Touches before changed leaseId (fun _ => ended) lease.itemId f)
    (hreturns : ReturnsItem lease.leaseId f) (hchanged : (activeItemIds changed.leases).Nodup) :
    KeepsCompletedWork response before (reloaded changed) := by
  have hinactive : ended.isActive = false := by
    unfold Lease.isActive
    rcases hended with h | h <;> rw [h] <;> rfl
  have hclaims := activeLeaseOf_ended hbefore.oneActive hchanged hlease hactive hinactive ht
  constructor
  · intro itemId item hitem
    rw [getElem?_reloaded_items, ht.items, hitem, hclaims]
    by_cases hid : itemId = lease.itemId
    · have hclaim : activeLeaseOf before.leases itemId = some lease :=
        (activeLeaseOf_eq_some hbefore.oneActive).mpr ⟨leaseId, hlease, hactive, hid.symm⟩
      have hshown : item.get "active_lease_id" = .str lease.leaseId := by
        rw [← hbefore.item hitem, hclaim]
        simp [projectClaim]
      rw [if_pos hid, if_pos hid]
      exact ⟨_, rfl, Or.inr ⟨⟨leaseId, lease, hlease, hactive, hid.symm, hanswers⟩,
        clearedClaim_returned hreturns hshown⟩⟩
    · rw [if_neg hid, if_neg hid, Option.map_some, hbefore.item hitem]
      exact ⟨item, rfl, Or.inl fun _ _ => rfl⟩
  · intro id other hother
    show ∃ lease', changed.leases[id]? = some lease' ∧ _
    rw [ht.leases]
    split
    · next hkey =>
      subst hkey
      rw [hlease] at hother
      obtain rfl := Option.some.inj hother
      rw [hlease]
      exact ⟨ended, rfl, Or.inr ⟨hactive, hanswers, hended⟩⟩
    · exact ⟨other, hother, Or.inl rfl⟩

/-- Where no lease holds the item, a reset leaves it as it was exactly when it was reset
before. -/
theorem sameWork_reset_iff {item : Dict} (leaseId : String) (hitem : projectClaim item none = item) :
    SameWork item (projectClaim (resetIrrecoverableItem leaseId item) none) ↔
      (item.get "state", item.get "status") =
        (.str (returnedClaimableState item).1, .str (returnedClaimableState item).2) := by
  have hshown : item.get "active_lease_id" = .null := by
    rw [← hitem]
    simp [projectClaim]
  have hreset : resetIrrecoverableItem leaseId item =
      clearClaimFields (returnItemToClaimableState item) := by
    unfold resetIrrecoverableItem
    simp [Dict.textOr, Value.orElse, hshown]
  have hunclaimed : (clearClaimFields (returnItemToClaimableState item)).get "state" ≠
      .str "claimed" := by
    rw [get_state_cleared_returned]
    simpa using returnedClaimableState_ne_claimed item
  have hafter : projectClaim (resetIrrecoverableItem leaseId item) none =
      clearClaimFields (returnItemToClaimableState item) := by
    rw [hreset, projectClaim_none_unclaimed hunclaimed]
    exact clearedClaim_idem _
  rw [hafter]
  constructor
  · intro hsame
    have hstate := hsame "state" (by decide)
    have hstatus := hsame "status" (by decide)
    simp only [clearClaimFields, returnItemToClaimableState, Dict.getElem?_set,
      Dict.getElem?_pop] at hstate hstatus
    simp [Dict.get, ← hstate, ← hstatus]
  · intro hpair key hkey
    obtain ⟨hstate, hstatus⟩ := Prod.mk.inj hpair
    have hfound : ∀ {field value : String}, item.get field = .str value →
        item[field]? = some (.str value) := by
      intro field value hget
      unfold Dict.get at hget
      cases hfield : item[field]? with
      | none => simp [hfield] at hget
      | some found => simpa [hfield] using hget
    by_cases hkeyState : key = "state"
    · rw [hkeyState, hfound hstate]
      simp [clearClaimFields, returnItemToClaimableState, Dict.getElem?_set, Dict.getElem?_pop]
    · by_cases hkeyStatus : key = "status"
      · rw [hkeyStatus, hfound hstatus]
        simp [clearClaimFields, returnItemToClaimableState, Dict.getElem?_set, Dict.getElem?_pop]
      · exact getElem?_cleared_returned item (by simp [hkeyState, hkeyStatus, hkey])

theorem Touches.leases_eq {s s' : Session} {leaseId itemId : String} {f : Dict → Dict}
    (h : Touches s s' leaseId id itemId f) : s'.leases = s.leases :=
  Std.ExtTreeMap.ext_getElem? fun id => by simp [h.leases]

/-- The item of a lease that had ended is reset. -/
theorem keeps_reset_iff {response : Dict} {before changed : Session} (hbefore : Projected before)
    (hkeyed : LeasesKeyed before) {prepared : PreparedSubmission}
    (hfrom : PreparedFrom before response prepared) (hinactive : prepared.lease.isActive = false)
    (ht : Touches before changed prepared.leaseId id prepared.itemId
      (resetIrrecoverableItem prepared.leaseId)) :
    KeepsCompletedWork response before (reloaded changed) ↔
      ¬ (activeLeaseOf before.leases prepared.itemId = none ∧
        (prepared.item.get "state", prepared.item.get "status") ≠
          (.str (returnedClaimableState prepared.item).1,
            .str (returnedClaimableState prepared.item).2)) := by
  have hleases := ht.leases_eq
  have hshown := hbefore.item hfrom.item
  cases hactive : activeLeaseOf before.leases prepared.itemId with
  | some other =>
      obtain ⟨id, hother, hotherActive, -⟩ :=
        (activeLeaseOf_eq_some hbefore.oneActive).mp hactive
      obtain ⟨hkey, hnonempty⟩ := hkeyed id other hother
      have hne : id ≠ prepared.leaseId := by
        rintro rfl
        rw [hfrom.lease] at hother
        obtain rfl := Option.some.inj hother
        simp [hinactive] at hotherActive
      have hheld : prepared.item.get "active_lease_id" = .str id := by
        rw [← hshown, hactive]
        simp [projectClaim, hkey]
      have hkept : resetIrrecoverableItem prepared.leaseId prepared.item = prepared.item := by
        unfold resetIrrecoverableItem
        simp [Dict.textOr, Value.orElse, hheld, hnonempty, hne]
      have hitems : changed.items = before.items := by
        refine Std.ExtTreeMap.ext_getElem? fun key => ?_
        rw [ht.items]
        split
        · next hsame => rw [hsame, hfrom.item, Option.map_some, hkept]
        · rfl
      simp [keeps_notes hbefore hleases hitems]
  | none =>
      rw [hactive] at hshown
      have hafter : (reloaded changed).items[prepared.itemId]? =
          some (projectClaim (resetIrrecoverableItem prepared.leaseId prepared.item) none) := by
        rw [getElem?_reloaded_items, ht.items, if_pos rfl, hfrom.item, hleases, hactive]
        rfl
      simp only [true_and, ne_eq, not_not]
      rw [← sameWork_reset_iff prepared.leaseId hshown]
      constructor
      · intro hkeeps
        obtain ⟨item', hitem', hwork⟩ := hkeeps.items prepared.itemId prepared.item hfrom.item
        obtain rfl := Option.some.inj (hafter.symm.trans hitem')
        rcases hwork with hwork | ⟨⟨id, lease, hlease, hleaseActive, hheld, -⟩, -⟩
        · exact hwork
        · exact absurd hheld
            ((activeLeaseOf_eq_none hbefore.oneActive).mp hactive id lease hlease hleaseActive)
      · intro hwork
        constructor
        · intro itemId item hitem
          by_cases hid : itemId = prepared.itemId
          · subst hid
            obtain rfl := Option.some.inj (hfrom.item.symm.trans hitem)
            exact ⟨_, hafter, Or.inl hwork⟩
          · rw [getElem?_reloaded_items, ht.items, if_neg hid, hitem, hleases, Option.map_some,
              hbefore.item hitem]
            exact ⟨item, rfl, Or.inl fun _ _ => rfl⟩
        · intro leaseId lease hlease
          refine ⟨lease, ?_, Or.inl rfl⟩
          show changed.leases[leaseId]? = some lease
          rw [hleases]
          exact hlease

/-- What a command has loaded: the whole session, or a part of it. -/
inductive Scope (store : Store) (whole : Session) : Session → Option WorkingSetRequest → Prop where
  | whole : Scope store whole whole none
  | part {request : WorkingSetRequest} {loaded : WorkingSet}
      (h : Loaded store request whole loaded) : Scope store whole loaded.session (some request)

section Scope

variable {store committed : Store} {whole part changed : Session}
  {request : Option WorkingSetRequest}

theorem Scope.lease (hscope : Scope store whole part request) {id : String} {lease : Lease}
    (hlease : part.leases[id]? = some lease) : whole.leases[id]? = some lease := by
  cases hscope with
  | whole => exact hlease
  | part h => exact h.leases_of_part hlease

theorem Scope.item (hscope : Scope store whole part request) {id : String} {item : Dict}
    (hitem : part.items[id]? = some item) : whole.items[id]? = some item := by
  cases hscope with
  | whole => exact hitem
  | part h => exact (h.closed hitem).1

theorem Scope.keyed (hscope : Scope store whole part request) (hkeyed : LeasesKeyed whole) :
    LeasesKeyed part :=
  fun id lease hlease => hkeyed id lease (hscope.lease hlease)

theorem Scope.prepared (hscope : Scope store whole part request) {response : Dict}
    {prepared : PreparedSubmission} (h : PreparedFrom part response prepared) :
    PreparedFrom whole response prepared :=
  ⟨hscope.lease h.lease, h.held, hscope.item h.item, h.answers⟩

theorem NotesOnly.putBack {request : WorkingSetRequest} {loaded : WorkingSet}
    (h : Loaded store request whole loaded) (hnotes : NotesOnly loaded.session changed) :
    (putBack whole loaded.session changed).leases = whole.leases ∧
      (putBack whole loaded.session changed).items = whole.items := by
  have hself := h.putBack_self
  have hleases : (RuntimeStore.putBack whole loaded.session changed).leases =
      (RuntimeStore.putBack whole loaded.session loaded.session).leases := by
    simp only [RuntimeStore.putBack, hnotes.leases]
  have hitems : (RuntimeStore.putBack whole loaded.session changed).items =
      (RuntimeStore.putBack whole loaded.session loaded.session).items := by
    simp only [RuntimeStore.putBack, hnotes.items]
  rw [hleases, hitems, hself]
  exact ⟨rfl, rfl⟩

theorem NotesOnly.localWrites {request : WorkingSetRequest} {loaded : WorkingSet}
    (h : Loaded store request whole loaded) (hnotes : NotesOnly loaded.session changed) :
    LocalWrites whole loaded.session changed := by
  refine h.localWrites hnotes.root ?_ ?_
  · intro id hsome
    rwa [hnotes.items] at hsome
  · intro id lease hlease
    rw [hnotes.leases] at hlease
    exact ⟨lease, hlease, rfl, fun hactive => hactive⟩

/-- A transaction on a part that only takes notes leaves the work as it was. -/
theorem transactPart_notes {V : Type} (hformed : WellFormed store)
    {request : WorkingSetRequest} {loaded : WorkingSet} (h : Loaded store request whole loaded)
    {mutation : Mutation V} {expected : Option Nat} {result : TransactionResult V}
    (htransact : transactWorkingSet store request mutation expected = .ok (committed, result))
    (hmutation : mutation loaded.session = .ok (changed, result.value))
    (hnotes : NotesOnly loaded.session changed) :
    ∃ written, loadSnapshot committed = .ok (reloaded written) ∧
      written.leases = whole.leases ∧ written.items = whole.items := by
  obtain ⟨hload, hnodup⟩ := transactWorkingSet_reload hformed h htransact hmutation
    (hnotes.localWrites h)
  obtain ⟨hleases, hitems⟩ := hnotes.putBack h
  exact ⟨_, hload.trans (committedView_ok.mpr ⟨hnodup, rfl⟩), hleases, hitems⟩

/-- A transaction on a part makes the change it makes there in the whole session. -/
theorem transactPart_touches {V : Type} (hformed : WellFormed store)
    {request : WorkingSetRequest} {loaded : WorkingSet} (h : Loaded store request whole loaded)
    {mutation : Mutation V} {expected : Option Nat} {result : TransactionResult V}
    (htransact : transactWorkingSet store request mutation expected = .ok (committed, result))
    (hmutation : mutation loaded.session = .ok (changed, result.value))
    {leaseId itemId : String} {g : Lease → Lease} {f : Dict → Dict} {lease : Lease} {item : Dict}
    (ht : Touches loaded.session changed leaseId g itemId f)
    (hlease : loaded.session.leases[leaseId]? = some lease)
    (hitem : loaded.session.items[itemId]? = some item)
    (hkept : (g lease).itemId = lease.itemId ∧ ((g lease).isActive = true → lease.isActive = true)) :
    ∃ written, loadSnapshot committed = .ok (reloaded written) ∧
      (activeItemIds written.leases).Nodup ∧ Touches whole written leaseId g itemId f := by
  have hwrites : LocalWrites whole loaded.session changed := by
    refine ht.localWrites h fun held hheld => ?_
    obtain rfl := Option.some.inj (hlease.symm.trans hheld)
    exact hkept
  obtain ⟨hload, hnodup⟩ := transactWorkingSet_reload hformed h htransact hmutation hwrites
  refine ⟨_, hload.trans (committedView_ok.mpr ⟨hnodup, rfl⟩), hnodup, ht.putBack h ?_ ?_⟩
  · rw [hlease, h.leases_of_part hlease]
  · rw [hitem, (h.closed hitem).1]

theorem persist_whole (h : persistLoadedScope store changed none = .ok committed) :
    loadSnapshot committed = .ok (reloaded changed) ∧ (activeItemIds changed.leases).Nodup := by
  obtain ⟨revision, hreplace⟩ := StoreResult.map_fst_ok h
  obtain ⟨-, hcommit, -⟩ := replace_ok hreplace
  obtain ⟨hload, hnodup⟩ := commitSession_reload hcommit
  exact ⟨hload.trans (committedView_ok.mpr ⟨hnodup, rfl⟩), hnodup⟩

theorem Scope.persisted_notes (hscope : Scope store whole part request)
    (hformed : WellFormed store) (hnotes : NotesOnly part changed)
    (hpersist : persistLoadedScope store changed request = .ok committed) :
    ∃ written, loadSnapshot committed = .ok (reloaded written) ∧
      written.leases = whole.leases ∧ written.items = whole.items := by
  cases hscope with
  | whole => exact ⟨changed, (persist_whole hpersist).1, hnotes.leases, hnotes.items⟩
  | part h =>
      obtain ⟨result, htransact⟩ := StoreResult.map_fst_ok hpersist
      exact transactPart_notes hformed h htransact rfl hnotes

theorem Scope.persisted_touches (hscope : Scope store whole part request)
    (hformed : WellFormed store) {leaseId itemId : String} {g : Lease → Lease} {f : Dict → Dict}
    {lease : Lease} {item : Dict} (ht : Touches part changed leaseId g itemId f)
    (hlease : part.leases[leaseId]? = some lease) (hitem : part.items[itemId]? = some item)
    (hkept : (g lease).itemId = lease.itemId ∧ ((g lease).isActive = true → lease.isActive = true))
    (hpersist : persistLoadedScope store changed request = .ok committed) :
    ∃ written, loadSnapshot committed = .ok (reloaded written) ∧
      (activeItemIds written.leases).Nodup ∧ Touches whole written leaseId g itemId f := by
  cases hscope with
  | whole =>
      obtain ⟨hload, hnodup⟩ := persist_whole hpersist
      exact ⟨changed, hload, hnodup, ht⟩
  | part h =>
      obtain ⟨result, htransact⟩ := StoreResult.map_fst_ok hpersist
      exact transactPart_touches hformed h htransact rfl ht hlease hitem hkept

end Scope

theorem PreparedFrom.congr {session : Session} {response other : Dict}
    {prepared : PreparedSubmission} (h : PreparedFrom session response prepared)
    (haddress : ∀ field ∈ addressFields, response.get field = other.get field) :
    PreparedFrom session other prepared :=
  ⟨h.lease, h.held, h.item, h.answers.congr haddress⟩

/-- The response goes into the transaction under the address it came with. -/
theorem preflight_address {s s' : Session} {submission : ResponseSubmission} {response : Dict}
    {prepared : PreparedSubmission}
    (h : preflightSubmission s submission = (s', .ok (response, prepared))) :
    ∀ field ∈ addressFields, response.get field = submission.response.get field := by
  unfold preflightSubmission at h
  simp only at h
  split at h
  · simp at h
  · split at h
    · simp at h
    · next session expanded prepared' hprepared =>
      split at h
      · simp at h
      · next session' binding hverified =>
        split at h
        · simp at h
        · simp only [Prod.mk.injEq, Except.ok.injEq] at h
          obtain ⟨-, rfl, -⟩ := h
          intro field hfield
          rw [← prepare_address hprepared field hfield]
          have hne : "_runtime_revision_binding" ≠ field := by
            revert field
            decide
          unfold Dict.setIfSome
          split <;> simp [hne]

/-- A given-up request is prepared for the response. -/
theorem givenUp_from {session : Session} (hkeyed : LeasesKeyed session)
    {submission : ResponseSubmission} {prepared : PreparedSubmission}
    (h : givenUpRequest session submission = some prepared) :
    PreparedFrom session submission.response prepared := by
  unfold givenUpRequest prepared? at h
  split at h
  · cases h
  · obtain ⟨hprepared, -⟩ := Option.filter_eq_some_iff.mp h
    cases hresult : prepareActionResponseSubmission session submission.files submission.response
        submission.now with
    | mk session' result =>
        cases result with
        | error stop => simp [hresult, Except.toOption] at hprepared
        | ok pair =>
            obtain ⟨expanded, found⟩ := pair
            simp only [hresult, Except.toOption, Option.map_some, Option.some.injEq] at hprepared
            subst hprepared
            exact prepare_from hkeyed hresult

section Rejection

variable {store committed : Store} {before part : Session} {request : Option WorkingSetRequest}
  {submission : ResponseSubmission} {rejection : Rejection}

theorem not_resets_of_not_givenUp (h : givenUpRequest before submission = none) :
    ¬ ResetsFinishedItem before submission := by
  rintro ⟨prepared, hgiven, -⟩
  rw [h] at hgiven
  cases hgiven

theorem releasedLease_kept (lease : Lease) (now : Int) (reason : Option String) :
    (releasedLease lease now reason).itemId = lease.itemId ∧
      ((releasedLease lease now reason).isActive = true → lease.isActive = true) := by
  simp [releasedLease, Lease.isActive, LeaseStatus.isActive]

/-- The request is given up before the transaction. -/
theorem givenUp_kept_iff (hformed : WellFormed store) (hload : loadSnapshot store = .ok before)
    (hkeyed : LeasesKeyed before) (hscope : Scope store before part request)
    {prepared : PreparedSubmission} {noted : Session}
    (hgiven : givenUpRequest part submission = some prepared)
    (hgiven' : givenUpRequest before submission = some prepared) (hnotes : NotesOnly part noted)
    (hpersist : persistLoadedScope store
      (releaseIrrecoverableRequestLease noted prepared submission.now) request = .ok committed) :
    ∃ after, loadSnapshot committed = .ok after ∧
      (KeepsCompletedWork submission.response before after ↔
        ¬ ResetsFinishedItem before submission) := by
  have hbefore := Projected.ofLoad hload
  have hfrom := givenUp_from (hscope.keyed hkeyed) hgiven
  have hfrom' := hscope.prepared hfrom
  have hresets : ResetsFinishedItem before submission ↔
      prepared.lease.isActive = false ∧ activeLeaseOf before.leases prepared.itemId = none ∧
        (prepared.item.get "state", prepared.item.get "status") ≠
          (.str (returnedClaimableState prepared.item).1,
            .str (returnedClaimableState prepared.item).2) := by
    unfold ResetsFinishedItem
    constructor
    · rintro ⟨found, hfound, hreset⟩
      rw [hgiven'] at hfound
      obtain rfl := Option.some.inj hfound
      exact hreset
    · intro hreset
      exact ⟨prepared, hgiven', hreset⟩
  have ht := releaseIrrecoverable_touches hfrom hnotes submission.now
  cases hactive : prepared.lease.isActive with
  | true =>
      rw [hactive, if_pos rfl] at ht
      obtain ⟨written, hreload, hnodup, htouches⟩ := hscope.persisted_touches hformed ht
        hfrom.lease hfrom.item (releasedLease_kept _ _ _) hpersist
      refine ⟨reloaded written, hreload, ?_⟩
      rw [← hfrom.held] at htouches
      have hreturns : ReturnsItem prepared.lease.leaseId
          (resetIrrecoverableItem prepared.leaseId) := by
        rw [(hkeyed _ _ hfrom'.lease).1]
        exact resetIrrecoverable_returns prepared.leaseId
      have hkeeps := keeps_ended hbefore hfrom'.lease hactive hfrom'.answers (Or.inl rfl)
        htouches hreturns hnodup
      simp [hkeeps, hresets, hactive]
  | false =>
      rw [hactive, if_neg (by simp)] at ht
      obtain ⟨written, hreload, -, htouches⟩ := hscope.persisted_touches hformed ht hfrom.lease
        hfrom.item ⟨rfl, fun h => h⟩ hpersist
      refine ⟨reloaded written, hreload, ?_⟩
      rw [keeps_reset_iff hbefore hkeyed hfrom' hactive htouches, hresets]
      simp [hactive]

/-- A rejected submission on what was loaded keeps completed work, unless it resets the item
of a lease that had ended. -/
theorem submitLoaded_kept_iff (hformed : WellFormed store)
    (hload : loadSnapshot store = .ok before) (hkeyed : LeasesKeyed before)
    (hscope : Scope store before part request)
    (hsame : givenUpRequest part submission = givenUpRequest before submission)
    (h : submitLoaded store part request submission = (committed, .rejected rejection)) :
    ∃ after, loadSnapshot committed = .ok after ∧
      (KeepsCompletedWork submission.response before after ↔
        ¬ ResetsFinishedItem before submission) := by
  have hbefore := Projected.ofLoad hload
  unfold submitLoaded at h
  split at h
  · simp at h
  · next refused refusal hrefused =>
    split at h
    · next persisted hpersist =>
      simp only [Prod.mk.injEq, SubmissionOutcome.rejected.injEq] at h
      obtain ⟨rfl, rfl⟩ := h
      rcases preflight_rejected hrefused with ⟨hgiven, hnotes⟩ |
        ⟨prepared, noted, hgiven, hnotes, rfl⟩
      · obtain ⟨written, hreload, hleases, hitems⟩ := hscope.persisted_notes hformed hnotes hpersist
        refine ⟨reloaded written, hreload, ?_⟩
        simp [keeps_notes hbefore hleases hitems,
          not_resets_of_not_givenUp (hsame.symm.trans hgiven)]
      · exact givenUp_kept_iff hformed hload hkeyed hscope hgiven (hsame.symm.trans hgiven) hnotes
          hpersist
    · simp at h
  · next passed response prepared hpassed =>
    have hnone := not_resets_of_not_givenUp (hsame.symm.trans (preflight_passed hpassed))
    split at h
    · simp at h
    · next written result htransact =>
      split at h
      · simp at h
      · next refusal hvalue =>
        simp only [Prod.mk.injEq, SubmissionOutcome.rejected.injEq] at h
        obtain ⟨rfl, rfl⟩ := h
        obtain ⟨current, changed, -, -, -, hcurrent, -, hmutation, -⟩ :=
          transactWorkingSet_ok htransact
        rw [hvalue] at hmutation
        have hloaded : Loaded store _ before current := ⟨hload, hcurrent⟩
        have hkeyedPart : LeasesKeyed current.session := (Scope.part hloaded).keyed hkeyed
        have hmutation' := hmutation
        rw [← hvalue] at hmutation'
        rcases acceptMutation_rejected hkeyedPart hmutation with
          hnotes | ⟨found, hfrom, hexpires⟩
        · obtain ⟨final, hreload, hleases, hitems⟩ :=
            transactPart_notes hformed hloaded htransact hmutation' hnotes
          refine ⟨reloaded final, hreload, ?_⟩
          simp [keeps_notes hbefore hleases hitems, hnone]
        · obtain ⟨final, hreload, hnodup, htouches⟩ := transactPart_touches hformed hloaded
            htransact hmutation' hexpires.touches hexpires.found
            (by rw [hfrom.held]; exact hfrom.item)
            ⟨rfl, by simp [expiredLease, Lease.isActive, LeaseStatus.isActive]⟩
          refine ⟨reloaded final, hreload, ?_⟩
          have hfrom' := ((Scope.part hloaded).prepared hfrom).congr (preflight_address hpassed)
          have hkeeps := keeps_ended hbefore hfrom'.lease hexpires.active hfrom'.answers
            (Or.inr rfl) htouches (expiry_returns _ _) hnodup
          simp [hkeeps, hnone]

end Rejection

/-- What a response names is in the part that is loaded for it. -/
theorem sameTarget_part {store : Store} {before : Session} {response : Dict} {loaded : WorkingSet}
    {leaseIds : List String}
    (h : Loaded store { leaseIds := leaseIds } before loaded)
    (hids : response.textOr "lease_id" "" ≠ "" → response.textOr "lease_id" "" ∈ leaseIds)
    (hfound : response.textOr "lease_id" "" ≠ "" →
      loaded.session.leases[response.textOr "lease_id" ""]? ≠ none) :
    SameTarget loaded.session before response where
  root := by
    obtain ⟨-, hbefore⟩ := loadSnapshot_ok.mp h.whole
    rw [h.root, hbefore]
  named := by
    intro hid
    obtain ⟨lease, hlease⟩ := Option.ne_none_iff_exists'.mp (hfound hid)
    have hwhole := h.leases_of_part hlease
    refine ⟨lease, hlease, hwhole, ?_⟩
    rw [h.wholeLeases] at hwhole
    have hselected : lease.itemId ∈
        WorkingSetRequest.selectedItemIds { leaseIds := leaseIds } (leasePayloads store.leases) := by
      refine List.mem_append_right _
        (List.mem_map.mpr ⟨(response.textOr "lease_id" "", lease), ?_, rfl⟩)
      simp [List.mem_filter, Std.ExtTreeMap.mem_toList_iff_getElem?_eq_some, hwhole,
        WorkingSetRequest.selectsItem, WorkingSetRequest.explicitLeaseIds, hids hid, hid]
    rw [h.getElem?_items, if_pos hselected]

/-- A rejected submission keeps completed work exactly when it does not reset the item of a
lease that had ended. -/
theorem rejected_submission_keeps_iff {store committed : Store} {before : Session}
    {submission : ResponseSubmission} {rejection : Rejection} (hstore : Committed store)
    (hload : loadSnapshot store = .ok before) (hkeyed : LeasesKeyed before)
    (h : submitActionResponse store submission = (committed, .rejected rejection)) :
    ∃ after, loadSnapshot committed = .ok after ∧
      (KeepsCompletedWork submission.response before after ↔
        ¬ ResetsFinishedItem before submission) := by
  have hformed := hstore.wellFormed
  unfold submitActionResponse at h
  simp only at h
  split at h
  · simp at h
  · next loaded hloaded =>
    have hpart : Loaded store _ before loaded := ⟨hload, hloaded⟩
    split at h
    · next hmissing =>
      rw [hload] at h
      exact submitLoaded_kept_iff hformed hload hkeyed .whole rfl h
    · next hfound =>
      have htarget := sameTarget_part hpart (fun hid => by simp [hid]) fun hid hnone =>
        hfound ⟨hid, hnone⟩
      exact submitLoaded_kept_iff hformed hload hkeyed (.part hpart) htarget.givenUpRequest h

/-- An open thread that is to be clarified. -/
def openThread : Dict :=
  Dict.ofFields
    [("item_id", .str "thread"), ("item_kind", .str "github_thread"), ("state", .str "open"),
      ("status", .str "OPEN"),
      ("classification_evidence", (Dict.ofFields [("classification", .str "clarify")]).toValue)]

def threadSession : Session where
  root := Dict.ofFields [("session_id", .str "session")]
  items := Std.ExtTreeMap.ofList [("thread", openThread)] compare
  leases := ∅
  leaseEvents := []

def clarification (requestId leaseId agentId : String) : Dict :=
  Dict.ofFields
    [("request_id", .str requestId), ("lease_id", .str leaseId), ("agent_id", .str agentId),
      ("resolution", .str "clarify"), ("note", .str "why"), ("reply_markdown", .str "Because.")]

/-- The thread, leased to an agent whose request file is gone. -/
def leasedSession : Session :=
  { threadSession with
    leases := Std.ExtTreeMap.ofList [("lease", {
      leaseId := "lease", itemId := "thread", agentId := "agent", role := .fixer
      status := .active, createdAt := 0, expiresAt := 10, resumeToken := none
      requestHash := "hash", requestId := some "request", requestPath := none
      conflictKeys := ["item:thread"] })] compare }

/-- The agent's response. -/
def lateResponse : ResponseSubmission where
  response := clarification "request" "lease" "agent"
  now := 1
  files := ∅
  prNumber := "102"
  observed := none
  prCommitShas := none

/-- The store once the response is accepted and the pull request was seen in a stack. -/
def clarifiedStore? : StoreResult Store := do
  let store ← commitSession blankStore leasedSession [] [] 1
  let (store, _) ← transact store (acceptMutation none lateResponse lateResponse.response)
  let (store, _) ← transact store fun current =>
    .ok (cachePullRequestContext current (Dict.ofFields [("availability", .str "present")]), ())
  return store

theorem clarifiedStore_committed {store : Store} (h : clarifiedStore? = .ok store) :
    Committed store := by
  unfold clarifiedStore? at h
  obtain ⟨first, hfirst, h⟩ := StoreResult.bind_ok.mp h
  obtain ⟨⟨second, _⟩, hsecond, h⟩ := StoreResult.bind_ok.mp h
  obtain ⟨⟨third, _⟩, hthird, h⟩ := StoreResult.bind_ok.mp h
  obtain rfl := StoreResult.pure_ok.mp h
  exact ((Committed.bootstrap hfirst).transact hsecond).transact hthird

/-- Sent again after it was accepted, the response is rejected and its thread reopened. -/
theorem lateResponse_run : ∃ store committed before after rejection,
    Committed store ∧ loadSnapshot store = .ok before ∧ LeasesKeyed before ∧
      submitActionResponse store lateResponse = (committed, .rejected rejection) ∧
      loadSnapshot committed = .ok after ∧ activeItemIds before.leases = [] ∧
      (∃ item, before.items["thread"]? = some item ∧
        item.get "state" = .str "publish_ready") ∧
      ∃ item, after.items["thread"]? = some item ∧ item.get "state" = .str "open" := by
  have hrun : (clarifiedStore?.toOption.any fun store =>
      (loadSnapshot store).toOption.any fun before =>
        match submitActionResponse store lateResponse with
        | (committed, .rejected _) =>
            (loadSnapshot committed).toOption.any fun after =>
              decide (activeItemIds before.leases = [] ∧ LeasesKeyed before) &&
                (before.items["thread"]?.any (·.get "state" = .str "publish_ready") &&
                after.items["thread"]?.any (·.get "state" = .str "open"))
        | _ => false) = true := by
    decide +kernel
  obtain ⟨store, hstore, hrun⟩ := StoreResult.exists_ok hrun
  obtain ⟨before, hbefore, hrun⟩ := StoreResult.exists_ok hrun
  split at hrun
  · next committed rejection hsubmit =>
    obtain ⟨after, hafter, hrun⟩ := StoreResult.exists_ok hrun
    obtain ⟨hfacts, hrun⟩ := (Bool.and_eq_true _ _).mp hrun
    obtain ⟨hready, hopen⟩ := (Bool.and_eq_true _ _).mp hrun
    obtain ⟨hactive, hkeyed⟩ := of_decide_eq_true hfacts
    obtain ⟨item, hitem, hstate⟩ := (Option.any_eq_true _ _).mp hready
    obtain ⟨item', hitem', hstate'⟩ := (Option.any_eq_true _ _).mp hopen
    exact ⟨store, committed, before, after, rejection, clarifiedStore_committed hstore,
      hbefore, hkeyed, hsubmit, hafter, hactive, ⟨item, hitem, of_decide_eq_true hstate⟩,
      item', hitem', of_decide_eq_true hstate'⟩
  · cases hrun

theorem rejected_submission_keeps_lateResponse : ∃ store committed before submission rejection,
    submitActionResponse store submission = (committed, .rejected rejection) ∧
      loadSnapshot store = .ok before ∧
      ∃ after, loadSnapshot committed = .ok after ∧
        (KeepsCompletedWork submission.response before after ↔
          ¬ ResetsFinishedItem before submission) := by
  obtain ⟨store, committed, before, after, rejection, hstore, hbefore, hkeyed, hsubmit, -⟩ :=
    lateResponse_run
  exact ⟨store, committed, before, lateResponse, rejection, hsubmit, hbefore,
    rejected_submission_keeps_iff hstore hbefore hkeyed hsubmit⟩

/-- The late response reopens a thread that was ready to be published. -/
theorem lateResponse_alters_completed_work :
    ¬ ∀ (store committed : Store) (before : Session) (submission : ResponseSubmission)
      (rejection : Rejection), Committed store → loadSnapshot store = .ok before →
      LeasesKeyed before →
      submitActionResponse store submission = (committed, .rejected rejection) →
      ∃ after, loadSnapshot committed = .ok after ∧
        KeepsCompletedWork submission.response before after := by
  intro hclaim
  obtain ⟨store, committed, before, after, rejection, hstore, hbefore, hkeyed, hsubmit, hafter,
    hactive, ⟨item, hitem, hstate⟩, item', hitem', hstate'⟩ := lateResponse_run
  obtain ⟨found, hfound, hkeeps⟩ := hclaim store committed before _ rejection hstore hbefore hkeyed
    hsubmit
  obtain rfl := Except.ok.inj (hafter.symm.trans hfound)
  obtain ⟨kept, hkept, hwork⟩ := hkeeps.items "thread" item hitem
  obtain rfl := Option.some.inj (hitem'.symm.trans hkept)
  rcases hwork with hsame | ⟨⟨leaseId, lease, hlease, hleaseActive, -⟩, -⟩
  · have hstates := hsame "state" (by decide)
    have hget : item'.get "state" = item.get "state" := by
      unfold Dict.get
      rw [hstates]
    rw [hstate, hstate'] at hget
    simp at hget
  · have hmem : lease.itemId ∈ activeItemIds before.leases := by
      simp only [activeItemIds, List.mem_map, List.mem_filter]
      exact ⟨lease, ⟨⟨(leaseId, lease),
        Std.ExtTreeMap.mem_toList_iff_getElem?_eq_some.mpr hlease, rfl⟩, hleaseActive⟩, rfl⟩
    simp [hactive] at hmem

end GhAddressCr
