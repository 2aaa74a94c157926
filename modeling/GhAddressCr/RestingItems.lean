import GhAddressCr.AuditTrail
import GhAddressCr.BatchAtomicity

/-!
# Items at rest

An item is at rest when no active lease is on it and nothing is to be done about it. No command
moves such an item except those that name it: a claim, the refusal of a request that is given
up, a batch that is taken back, an observation or a report of it, and its reopening.
-/
namespace GhAddressCr

open PyText GithubThreadState RuntimeStore

/-- The items carry the ids they are kept under. -/
def ItemsKeyed (s : Session) : Prop :=
  ∀ (id : String) (item : Dict), s.items[id]? = some item → item.get "item_id" = .str id

/-- No active lease is on the item. -/
def Unheld (s : Session) (id : String) : Prop :=
  ∀ (key : String) (lease : Lease), s.leases[key]? = some lease → lease.isActive = true →
    lease.itemId ≠ id

/-- The fields that say where an item stands. -/
def standingFields : List String :=
  ["item_kind", "kind", "state", "status", "isResolved", "is_resolved", "is_outdated",
    "isOutdated", "handled", "blocking"]

/-- The items agree in where they stand. -/
def SameStanding (item item' : Dict) : Prop :=
  ∀ field ∈ standingFields, item'[field]? = item[field]?

theorem SameStanding.refl (item : Dict) : SameStanding item item := fun _ _ => rfl

theorem SameStanding.trans {item item' item'' : Dict} (h : SameStanding item item')
    (h' : SameStanding item' item'') : SameStanding item item'' :=
  fun field hfield => (h' field hfield).trans (h field hfield)

theorem SameStanding.get {item item' : Dict} (h : SameStanding item item') {field : String}
    (hfield : field ∈ standingFields) : item'.get field = item.get field := by
  simp [Dict.get, h field hfield]

theorem SameStanding.set {item item' : Dict} (h : SameStanding item item') {key : String}
    (value : Value) (hkey : key ∉ standingFields) : SameStanding item (item'.set key value) := by
  intro field hfield
  have hne : key ≠ field := by
    rintro rfl
    exact hkey hfield
  rw [Dict.getElem?_set, if_neg hne, h field hfield]

theorem SameStanding.setIfSome {item item' : Dict} (h : SameStanding item item') {key : String}
    (value : Option Value) (hkey : key ∉ standingFields) :
    SameStanding item (item'.setIfSome key value) := by
  cases value with
  | none => exact h
  | some value => exact h.set value hkey

theorem SameStanding.pop {item item' : Dict} (h : SameStanding item item') {key : String}
    (hkey : key ∉ standingFields) : SameStanding item (item'.pop key) := by
  intro field hfield
  have hne : key ≠ field := by
    rintro rfl
    exact hkey hfield
  rw [Dict.getElem?_pop, if_neg hne, h field hfield]

theorem SameStanding.itemIsOpen {item item' : Dict} (h : SameStanding item item') :
    itemIsOpen item' = itemIsOpen item := by
  refine itemIsOpen_congr fun field hfield => h field ?_
  revert field
  decide

theorem SameStanding.isPublishReady {item item' : Dict} (h : SameStanding item item') :
    isPublishReady item' = isPublishReady item := by
  unfold GhAddressCr.isPublishReady Dict.textOr
  rw [h.get (by decide), h.get (by decide)]

/-- Nothing is to be done about the item. -/
structure Settled (item : Dict) : Prop where
  notOpen : itemIsOpen item = false
  notReady : isPublishReady item = false
  notClaimed : item.get "state" ≠ .str "claimed"

theorem SameStanding.settled {item item' : Dict} (h : SameStanding item item')
    (hitem : Settled item) : Settled item' where
  notOpen := h.itemIsOpen.trans hitem.notOpen
  notReady := h.isPublishReady.trans hitem.notReady
  notClaimed := by
    rw [h.get (by decide)]
    exact hitem.notClaimed

structure AtRest (s : Session) (id : String) : Prop where
  unheld : Unheld s id
  settled : ∀ item, s.items[id]? = some item → Settled item

/-- The item of the second session is the item of the first, where it stood. -/
def StaysAt (s s' : Session) (id : String) : Prop :=
  ∀ item', s'.items[id]? = some item' →
    ∃ item, s.items[id]? = some item ∧ SameStanding item item'

/-- The items keep their ids, and those at rest stay where they are, but for the disturbed. -/
def Orderly (disturbed : String → Prop) (s s' : Session) : Prop :=
  ItemsKeyed s → ItemsKeyed s' ∧
    ∀ id, ¬ disturbed id → AtRest s id → Unheld s' id ∧ StaysAt s s' id

/-- Nothing is disturbed. -/
abbrev LetsRest : Session → Session → Prop := Orderly fun _ => False

theorem StaysAt.trans {s s' s'' : Session} {id : String} (h : StaysAt s s' id)
    (h' : StaysAt s' s'' id) : StaysAt s s'' id := by
  intro item'' hitem''
  obtain ⟨item', hitem', hstands'⟩ := h' item'' hitem''
  obtain ⟨item, hitem, hstands⟩ := h item' hitem'
  exact ⟨item, hitem, hstands.trans hstands'⟩

theorem StaysAt.atRest {s s' : Session} {id : String} (h : StaysAt s s' id) (hrest : AtRest s id)
    (hunheld : Unheld s' id) : AtRest s' id := by
  refine ⟨hunheld, fun item' hitem' => ?_⟩
  obtain ⟨item, hitem, hstands⟩ := h item' hitem'
  exact hstands.settled (hrest.settled item hitem)

theorem Orderly.refl {disturbed : String → Prop} (s : Session) : Orderly disturbed s s :=
  fun hkeyed => ⟨hkeyed, fun _ _ hrest =>
    ⟨hrest.unheld, fun item hitem => ⟨item, hitem, .refl item⟩⟩⟩

/-- The second part may disturb what the first has not left at rest. -/
theorem Orderly.trans {disturbed disturbed' : String → Prop} {s s' s'' : Session}
    (h : Orderly disturbed s s') (h' : Orderly disturbed' s' s'')
    (hdisturbed : ∀ id, AtRest s id → disturbed' id → disturbed id) :
    Orderly disturbed s s'' := by
  intro hkeyed
  obtain ⟨hkeyed', hrests⟩ := h hkeyed
  obtain ⟨hkeyed'', hrests'⟩ := h' hkeyed'
  refine ⟨hkeyed'', fun id hleft hrest => ?_⟩
  obtain ⟨hunheld, hstays⟩ := hrests id hleft hrest
  obtain ⟨hunheld', hstays'⟩ := hrests' id (fun hid => hleft (hdisturbed id hrest hid))
    (hstays.atRest hrest hunheld)
  exact ⟨hunheld', hstays.trans hstays'⟩

theorem Orderly.weaken {disturbed disturbed' : String → Prop} {s s' : Session}
    (h : Orderly disturbed s s') (hdisturbed : ∀ id, AtRest s id → disturbed id → disturbed' id) :
    Orderly disturbed' s s' := by
  intro hkeyed
  obtain ⟨hkeyed', hrests⟩ := h hkeyed
  exact ⟨hkeyed', fun id hleft hrest =>
    hrests id (fun hid => hleft (hdisturbed id hrest hid)) hrest⟩

theorem Orderly.then {disturbed : String → Prop} {s s' s'' : Session}
    (h : Orderly disturbed s s') (h' : Orderly disturbed s' s'') : Orderly disturbed s s'' :=
  h.trans h' fun _ _ hdisturbed => hdisturbed

theorem LetsRest.orderly {s s' : Session} (h : LetsRest s s') (disturbed : String → Prop) :
    Orderly disturbed s s' := Orderly.weaken h fun _ _ hnever => absurd hnever id

theorem Unheld.of_noNewClaims {s s' : Session} {id : String} (h : Unheld s id)
    (hclaims : NoNewClaims s s') : Unheld s' id := by
  intro key lease' hlease' hactive'
  obtain ⟨lease, hlease, hactive, hterms⟩ := hclaims key lease' hlease' hactive'
  have hitem : lease'.itemId = lease.itemId := congrArg (·.1) hterms
  rw [hitem]
  exact h key lease hlease hactive

/-- The items are not written, and no claim is made. -/
theorem Orderly.of_items {disturbed : String → Prop} {s s' : Session}
    (hclaims : NoNewClaims s s') (hitems : s'.items = s.items) : Orderly disturbed s s' := by
  intro hkeyed
  refine ⟨fun id item hitem => hkeyed id item (by rw [← hitems]; exact hitem), ?_⟩
  intro id _ hrest
  refine ⟨hrest.unheld.of_noNewClaims hclaims, fun item hitem => ⟨item, ?_, .refl item⟩⟩
  rw [← hitems]
  exact hitem

/-- Neither the items nor the leases are written. -/
theorem Orderly.of_tables {disturbed : String → Prop} {s s' : Session}
    (hleases : s'.leases = s.leases) (hitems : s'.items = s.items) : Orderly disturbed s s' := by
  refine .of_items (fun key lease hlease hactive => ⟨lease, ?_, hactive, rfl⟩) hitems
  rw [← hleases]
  exact hlease

theorem Orderly.appendEvidence {disturbed : String → Prop} {s s' : Session}
    (h : Orderly disturbed s s') (record : EvidenceRecord) :
    Orderly disturbed s (s'.appendEvidence record) := h

/-- One item is written and keeps its id; the others are left alone. -/
theorem Orderly.of_item {disturbed : String → Prop} {s s' : Session} {itemId : String}
    {f : Dict → Dict} (hclaims : NoNewClaims s s')
    (hitems : ∀ id : String,
      s'.items[id]? = if id = itemId then (s.items[id]?).map f else s.items[id]?)
    (hids : ∀ item, (f item).get "item_id" = item.get "item_id")
    (hdisturbed : AtRest s itemId → disturbed itemId ∨
      ∀ item, s.items[itemId]? = some item → SameStanding item (f item)) :
    Orderly disturbed s s' := by
  intro hkeyed
  constructor
  · intro id item' hitem'
    rw [hitems] at hitem'
    split at hitem'
    · obtain ⟨item, hitem, rfl⟩ := Option.map_eq_some_iff.mp hitem'
      rw [hids]
      exact hkeyed id item hitem
    · exact hkeyed id item' hitem'
  · intro id hleft hrest
    refine ⟨hrest.unheld.of_noNewClaims hclaims, fun item' hitem' => ?_⟩
    rw [hitems] at hitem'
    split at hitem'
    · next hid =>
      subst hid
      obtain ⟨item, hitem, rfl⟩ := Option.map_eq_some_iff.mp hitem'
      rcases hdisturbed hrest with hdisturbed | hstands
      · exact absurd hdisturbed hleft
      · exact ⟨item, hitem, hstands item hitem⟩
    · exact ⟨item', hitem', .refl item'⟩

theorem Orderly.modifyItem {disturbed : String → Prop} {s : Session} {itemId : String}
    {f : Dict → Dict} (hids : ∀ item, (f item).get "item_id" = item.get "item_id")
    (hdisturbed : AtRest s itemId → disturbed itemId ∨
      ∀ item, s.items[itemId]? = some item → SameStanding item (f item)) :
    Orderly disturbed s (s.modifyItem itemId f) := by
  refine .of_item (fun key lease hlease hactive => ⟨lease, ?_, hactive, rfl⟩)
    (getElem?_modifyItem s itemId f) hids hdisturbed
  simpa using hlease

/-- The change leaves an item its id. -/
abbrev KeepsId (f : Dict → Dict) : Prop := ∀ item, (f item).get "item_id" = item.get "item_id"

theorem clearClaimFields_keepsId : KeepsId clearClaimFields := by
  intro item
  simp [clearClaimFields]

theorem returnItemToClaimableState_keepsId : KeepsId returnItemToClaimableState := by
  intro item
  simp [returnItemToClaimableState]

theorem returnedItem_keepsId (leaseId : String) : KeepsId (returnedItem leaseId) := by
  intro item
  unfold returnedItem
  split
  · rw [clearClaimFields_keepsId, returnItemToClaimableState_keepsId]
  · rfl

theorem openedItem_keepsId (lease : Lease) : KeepsId (openedItem lease) := by
  intro item
  unfold openedItem
  split
  · simp [clearClaimFields]
  · rfl

theorem resetIrrecoverableItem_keepsId (leaseId : String) :
    KeepsId (resetIrrecoverableItem leaseId) := by
  intro item
  unfold resetIrrecoverableItem
  simp only
  split
  · rfl
  · rw [clearClaimFields_keepsId, returnItemToClaimableState_keepsId]

theorem markClaimed_keepsId (leaseId : String) : KeepsId (markClaimed leaseId) := by
  intro item
  simp [markClaimed]

theorem adoptClassification_keepsId (claim : PendingClaim) :
    KeepsId (adoptClassification claim) := by
  intro item
  unfold adoptClassification
  split
  · simp
  · rfl

theorem rolledBackItem_keepsId : KeepsId rolledBackItem := by
  intro item
  unfold rolledBackItem
  simp only [clearClaimFields_keepsId _]
  split
  · exact returnItemToClaimableState_keepsId item
  · simp [returnItemToClaimableState]

theorem staleItem_keepsId : KeepsId staleItem := by
  intro item
  simp [staleItem]

theorem rejectVerification_keepsId (response : Dict) : KeepsId (rejectVerification response) := by
  intro item
  simp [rejectVerification]

theorem applyResponseToItem_keepsId (response : Dict) (now : Int) :
    KeepsId fun item => applyResponseToItem item response now := by
  intro item
  have hsetIfSome : ∀ (d : Dict) (key : String) (value : Option Value), key ≠ "item_id" →
      (d.setIfSome key value).get "item_id" = d.get "item_id" := by
    intro d key value hkey
    simp [Dict.get, Dict.getElem?_setIfSome_of_ne d value hkey]
  show (applyResponseToItem item response now).get "item_id" = _
  unfold applyResponseToItem
  split
  · simp [applyResponseToThread]
  · simp [applyResponseToLocalItem, hsetIfSome]

theorem classifiedItem_keepsId (record : EvidenceRecord) (args : ClassifyArgs)
    (classification : String) (released : Bool) :
    KeepsId (classifiedItem record args classification released) := by
  intro item
  unfold classifiedItem
  simp only
  split
  · rw [rolledBackItem_keepsId]
    simp
  · simp

theorem AtRest.not_held {s : Session} {id key : String} {lease : Lease} (hrest : AtRest s id)
    (hlease : s.leases[key]? = some lease) (hactive : lease.isActive = true) :
    lease.itemId ≠ id := hrest.unheld key lease hlease hactive

theorem expireLease_letsRest {s : Session} {key : String} {lease : Lease}
    (hlease : s.leases[key]? = some lease) (hactive : lease.isActive = true) (now : Int) :
    LetsRest s (expireLease s key lease now) := by
  refine .of_item (expireLease_noNewClaims s key lease now) (expireLease_touches hlease now).items
    (fun item => ?_) fun hrest => absurd rfl (hrest.not_held hlease hactive)
  rw [Function.comp_apply, openedItem_keepsId, returnedItem_keepsId]

theorem expireRows_letsRest (now : Int) {rows : List (String × Lease)} {s : Session}
    {expired : List Lease} (hdistinct : rows.Pairwise fun a b => a.1 ≠ b.1)
    (hheld : ∀ row ∈ rows, s.leases[row.1]? = some row.2) :
    LetsRest s (rows.foldl (expireLeaseIfDue now) (s, expired)).1 ∧
      ∀ lease ∈ (rows.foldl (expireLeaseIfDue now) (s, expired)).2,
        lease ∈ expired ∨ ∃ row ∈ rows, row.2.isActive = true ∧ row.2.itemId = lease.itemId := by
  induction rows generalizing s expired with
  | nil => exact ⟨.refl s, fun lease hlease => Or.inl hlease⟩
  | cons row rows ih =>
      obtain ⟨hne, hrest⟩ := List.pairwise_cons.mp hdistinct
      have hrow := hheld row List.mem_cons_self
      rw [List.foldl_cons]
      by_cases hdue : (row.2.isActive && isExpired row.2 now) = true
      · have hactive : row.2.isActive = true := (Bool.and_eq_true _ _).mp hdue |>.1
        have hstep : expireLeaseIfDue now (s, expired) row =
            (expireLease s row.1 row.2 now, expired ++ [expiredLease row.2 now]) := by
          simp only [expireLeaseIfDue, hdue, if_true]
        rw [hstep]
        obtain ⟨hrests, hexpired⟩ := @ih (expireLease s row.1 row.2 now)
          (expired ++ [expiredLease row.2 now]) hrest (fun other hother => by
            simp only [expireLease_leases, Std.ExtTreeMap.getElem?_insert,
              Std.compare_eq_iff_eq, hne other hother, if_false]
            exact hheld other (List.mem_cons_of_mem row hother))
        refine ⟨(expireLease_letsRest hrow hactive now).then hrests, fun lease hlease => ?_⟩
        rcases hexpired lease hlease with hmem | ⟨other, hother, hended⟩
        · rcases List.mem_append.mp hmem with hmem | hmem
          · exact Or.inl hmem
          · obtain rfl := List.mem_singleton.mp hmem
            exact Or.inr ⟨row, List.mem_cons_self, hactive, rfl⟩
        · exact Or.inr ⟨other, List.mem_cons_of_mem row hother, hended⟩
      · have hstep : expireLeaseIfDue now (s, expired) row = (s, expired) := by
          simp only [expireLeaseIfDue, hdue, Bool.false_eq_true, if_false]
        rw [hstep]
        obtain ⟨hrests, hexpired⟩ := @ih s expired hrest
          fun other hother => hheld other (List.mem_cons_of_mem row hother)
        refine ⟨hrests, fun lease hlease => ?_⟩
        rcases hexpired lease hlease with hmem | ⟨other, hother, hended⟩
        · exact Or.inl hmem
        · exact Or.inr ⟨other, List.mem_cons_of_mem row hother, hended⟩

/-- Leases that run out leave the items at rest alone; each was active on its item. -/
theorem expireLeases_letsRest (s : Session) (now : Int) :
    LetsRest s (expireLeases s now).1 ∧ ∀ lease ∈ (expireLeases s now).2,
      ∃ (key : String) (held : Lease), s.leases[key]? = some held ∧ held.isActive = true ∧
        held.itemId = lease.itemId := by
  have hrows : ∀ row ∈ s.leases.toList, s.leases[row.1]? = some row.2 := fun row hrow =>
    Std.ExtTreeMap.mem_toList_iff_getElem?_eq_some.mp hrow
  obtain ⟨hrests, hexpired⟩ := @expireRows_letsRest now _ s [] (KeyedRows.pairwise_ne_toList _)
    hrows
  refine ⟨hrests, fun lease hlease => ?_⟩
  rcases hexpired lease hlease with hmem | ⟨row, hrow, hactive, hitem⟩
  · cases hmem
  · exact ⟨row.1, row.2, hrows row hrow, hactive, hitem⟩

theorem returnExpiredItemsToOpen_orderly (s : Session) (expired : List Lease) :
    Orderly (fun id => ∃ lease ∈ expired, lease.itemId = id) s
      (returnExpiredItemsToOpen s expired) := by
  induction expired generalizing s with
  | nil => exact .refl s
  | cons lease expired ih =>
      have hfirst : Orderly (fun id => ∃ other ∈ lease :: expired, other.itemId = id) s
          (returnExpiredItemsToOpen s [lease]) := by
        refine .of_item (fun key held hheld hactive => ⟨held, ?_, hactive, rfl⟩)
          (returnExpiredItemsToOpen_singleton s lease) (returnedItem_keepsId lease.leaseId)
          fun _ => Or.inl ⟨lease, List.mem_cons_self, rfl⟩
        simpa using hheld
      refine hfirst.trans (ih (returnExpiredItemsToOpen s [lease])) ?_
      rintro id - ⟨other, hother, hitem⟩
      exact ⟨other, List.mem_cons_of_mem lease hother, hitem⟩

theorem expireAndReturn_letsRest (s : Session) (now : Int) :
    LetsRest s (expireAndReturn s now) := by
  obtain ⟨hrests, hexpired⟩ := expireLeases_letsRest s now
  refine Orderly.trans hrests (returnExpiredItemsToOpen_orderly _ _) ?_
  rintro id hrest ⟨lease, hlease, rfl⟩
  obtain ⟨key, held, hheld, hactive, hitem⟩ := hexpired lease hlease
  exact hrest.not_held hheld hactive hitem

theorem submitLease_letsRest (s : Session) (leaseId : String) (args : SubmitArgs) :
    LetsRest s (submitLease s leaseId args).1 := by
  have hclaims := submitLease_noNewClaims s leaseId args
  have hraised : ∀ reasonCode detail lease,
      LetsRest s (raiseSubmissionError s reasonCode detail lease args).1 :=
    fun _ _ _ => .of_tables rfl rfl
  revert hclaims
  unfold submitLease
  split
  · exact fun _ => .refl s
  · next lease hlease =>
    split
    · exact fun _ => hraised _ _ _
    · split
      · exact fun _ => hraised _ _ _
      · next hactive =>
        have hstatus : lease.status = .active := by simpa using hactive
        have hlive : lease.isActive = true := by simp [Lease.isActive, hstatus, LeaseStatus.isActive]
        split
        · exact fun _ => hraised _ _ _
        · split
          · exact fun _ => hraised _ _ _
          · split
            · exact fun _ => hraised _ _ _
            · split
              · intro _
                let recovery := submissionRecovery s leaseId args
                have hnoted : LetsRest s (appendLeaseRecoveryEvent s recovery args.now) :=
                  .of_tables rfl rfl
                exact hnoted.then (@expireLease_letsRest (appendLeaseRecoveryEvent s recovery
                  args.now) leaseId lease hlease hlive args.now)
              · split
                · exact fun _ => hraised _ _ _
                · exact fun hclaims => .of_items hclaims rfl

theorem acceptLease_items (s : Session) (leaseId : String) (now : Int) :
    (acceptLease s leaseId now).1.items = s.items := by
  unfold acceptLease
  split
  · rfl
  · split <;> rfl

theorem releaseLease_items (s : Session) (leaseId : String) (now : Int) (reason : Option String) :
    (releaseLease s leaseId now reason).1.items = s.items := by
  unfold releaseLease
  split
  · rfl
  · split <;> rfl

theorem acceptLease_letsRest (s : Session) (leaseId : String) (now : Int) :
    LetsRest s (acceptLease s leaseId now).1 :=
  .of_items (acceptLease_noNewClaims s leaseId now) (acceptLease_items s leaseId now)

theorem releaseLease_letsRest (s : Session) (leaseId : String) (now : Int)
    (reason : Option String) : LetsRest s (releaseLease s leaseId now reason).1 :=
  .of_items (releaseLease_noNewClaims s leaseId now reason) (releaseLease_items s leaseId now reason)

theorem submitAndAcceptLease_letsRest (s : Session) (leaseId : String) (args : SubmitArgs) :
    LetsRest s (submitAndAcceptLease s leaseId args).1 := by
  have hsubmit := submitLease_letsRest s leaseId args
  unfold submitAndAcceptLease
  split
  · next submitted error heq =>
    rw [heq] at hsubmit
    exact hsubmit
  · next submitted lease heq =>
    rw [heq] at hsubmit
    exact hsubmit.then (acceptLease_letsRest submitted leaseId args.now)

/-- A lease that is released was active on its item. -/
theorem releaseLease_ok {s s' : Session} {leaseId : String} {now : Int} {reason : Option String}
    {released : Lease} (h : releaseLease s leaseId now reason = (s', .ok released)) :
    ∃ lease, s.leases[leaseId]? = some lease ∧ lease.isActive = true ∧
      released = releasedLease lease now reason := by
  unfold releaseLease at h
  split at h
  · cases h
  · next lease hlease =>
    split at h
    · cases h
    · next hactive =>
      refine ⟨lease, hlease, by simpa using hactive, ?_⟩
      exact (Except.ok.inj (Prod.mk.inj h).2).symm

theorem releaseClaimedLease_letsRest (s : Session) (leaseId : String) (now : Int)
    (reason : String) : LetsRest s (releaseClaimedLease s leaseId now reason).1 := by
  have hrelease := releaseLease_letsRest s leaseId now (some reason)
  unfold releaseClaimedLease
  split
  · exact .refl s
  · split
    · exact .refl s
    · split
      · next session released heq =>
        rw [heq] at hrelease
        refine Orderly.trans hrelease (returnExpiredItemsToOpen_orderly session [released]) ?_
        rintro id hrest ⟨lease, hlease, rfl⟩
        obtain rfl := List.mem_singleton.mp hlease
        obtain ⟨held, hheld, hactive, rfl⟩ := releaseLease_ok heq
        exact hrest.not_held hheld hactive rfl
      · next session error heq =>
        rw [heq] at hrelease
        exact hrelease

/-- A change on one item is none to an item at rest, where an active lease was on it. -/
theorem LetsRest.then_on_held {s s' s'' : Session} {itemId key : String} {lease : Lease}
    (h : LetsRest s s') (h' : Orderly (· = itemId) s' s'') (hlease : s.leases[key]? = some lease)
    (hactive : lease.isActive = true) (hitem : lease.itemId = itemId) : LetsRest s s'' := by
  refine Orderly.trans h h' fun id hrest hid => ?_
  subst hid
  exact hrest.not_held hlease hactive hitem

theorem NotesOnly.letsRest {s s' : Session} (h : NotesOnly s s') : LetsRest s s' :=
  .of_tables h.leases h.items

theorem modifyItem_orderly (s : Session) (itemId : String) {f : Dict → Dict} (hids : KeepsId f) :
    Orderly (· = itemId) s (s.modifyItem itemId f) := .modifyItem hids fun _ => Or.inl rfl

/-- A lease that is submitted is active, and on the item it is submitted for. -/
theorem submitLease_held {s s' : Session} {leaseId : String} {args : SubmitArgs} {lease : Lease}
    (h : submitLease s leaseId args = (s', .ok lease)) :
    ∃ held, s.leases[leaseId]? = some held ∧ held.isActive = true ∧ held.itemId = args.itemId := by
  unfold submitLease at h
  split at h
  · simp at h
  · next held hheld =>
    refine ⟨held, hheld, ?_⟩
    repeat' split at h
    all_goals simp only [raiseSubmissionError, Prod.mk.injEq, reduceCtorEq, and_false,
      Except.ok.injEq] at h
    next hactive _ _ hitem _ _ =>
      have hstatus : held.status = .active := by simpa using hactive
      exact ⟨by simp [Lease.isActive, hstatus, LeaseStatus.isActive], by simpa using hitem⟩

theorem submitAndAcceptLease_held {s s' : Session} {leaseId : String} {args : SubmitArgs}
    {lease : Lease} (h : submitAndAcceptLease s leaseId args = (s', .ok lease)) :
    ∃ held, s.leases[leaseId]? = some held ∧ held.isActive = true ∧ held.itemId = args.itemId := by
  unfold submitAndAcceptLease at h
  split at h
  · simp at h
  · next submitted _ hsubmit => exact submitLease_held hsubmit

theorem finishAcceptance_orderly (s : Session) (response : Dict) (prepared : PreparedSubmission)
    (now : Int) :
    Orderly (· = prepared.itemId) s (finishAcceptance s response prepared now).1 := by
  unfold finishAcceptance
  split
  · exact (modifyItem_orderly s _ (rejectVerification_keepsId response)).appendEvidence _
  · exact (modifyItem_orderly s _ (applyResponseToItem_keepsId response now)).appendEvidence _

/-- A response is accepted on an item that an active lease was on. -/
theorem acceptedLease_letsRest {s s' : Session} {leaseId : String} {args : SubmitArgs}
    {lease : Lease} {response : Dict} {prepared : PreparedSubmission} (now : Int)
    (hitem : args.itemId = prepared.itemId)
    (h : submitAndAcceptLease s leaseId args = (s', .ok lease)) :
    LetsRest s (finishAcceptance s' response prepared now).1 := by
  have haccept := submitAndAcceptLease_letsRest s leaseId args
  rw [h] at haccept
  obtain ⟨held, hheld, hactive, hon⟩ := submitAndAcceptLease_held h
  exact haccept.then_on_held (finishAcceptance_orderly s' response prepared now) hheld hactive
    (hon.trans hitem)

theorem acceptSubmission_letsRest (s : Session) (response : Dict) (prepared : PreparedSubmission)
    (now : Int) :
    LetsRest s (acceptActionResponseSubmission s response prepared now).1 := by
  have haccept := submitAndAcceptLease_letsRest s prepared.leaseId
    (prepared.submitArgs response now)
  unfold acceptActionResponseSubmission
  split
  · next accepted lease heq => exact acceptedLease_letsRest now rfl heq
  · next refused reasonCode detail recovery heq =>
    rw [heq] at haccept
    simp only
    split
    · exact haccept.then (rejectResponse_notes (α := Acceptance) refused response now _).letsRest
    · next rebound _ =>
      split
      · next accepted lease heq' => exact haccept.then (acceptedLease_letsRest now rfl heq')
      · next escaped error heq' =>
        have hrebound := submitAndAcceptLease_letsRest refused (prepared.rebind rebound).leaseId
          ((prepared.rebind rebound).submitArgs response now)
        rw [heq'] at hrebound
        exact haccept.then hrebound
  · next escaped error _ heq =>
    rw [heq] at haccept
    exact haccept

theorem acceptMutation_letsRest {s s' : Session} {metadata : Option Dict}
    {submission : ResponseSubmission} {response : Dict} {result : Except Rejection Acceptance}
    (h : acceptMutation metadata submission response s = .ok (s', result)) : LetsRest s s' := by
  let loaded := metadata.elim s s.setMetadata
  have hloaded : LetsRest s loaded := by
    cases metadata with
    | none => exact .refl s
    | some metadata => exact .of_tables rfl rfl
  rw [acceptMutation_loaded] at h
  unfold acceptMutation at h
  simp only at h
  split at h
  · cases h
  · cases h
  · next prepared expanded target heq =>
    have hprepared : prepareActionResponseSubmission loaded submission.files response
        submission.now = (prepared, .ok (expanded, target)) := heq
    obtain rfl : prepared = loaded := prepare_same hprepared
    have haccept := acceptSubmission_letsRest loaded expanded target submission.now
    split at h
    · next accepted acceptance heq' =>
      rw [heq'] at haccept
      obtain ⟨rfl, -⟩ := Prod.mk.inj (Except.ok.inj h)
      exact hloaded.then haccept
    · next accepted rejection heq' =>
      rw [heq'] at haccept
      obtain ⟨rfl, -⟩ := Prod.mk.inj (Except.ok.inj h)
      exact hloaded.then haccept
    · cases h

/-- A request that is given up disturbs its item. -/
theorem releaseIrrecoverable_orderly (s : Session) (prepared : PreparedSubmission) (now : Int) :
    Orderly (· = prepared.itemId) s (releaseIrrecoverableRequestLease s prepared now) := by
  have hreset := fun current =>
    modifyItem_orderly current prepared.itemId (resetIrrecoverableItem_keepsId prepared.leaseId)
  unfold releaseIrrecoverableRequestLease
  simp only
  split
  · exact (releaseLease_letsRest s prepared.leaseId now _ |>.orderly _).trans (hreset _)
      fun _ _ hid => hid
  · exact hreset s

theorem preflight_orderly {s s' : Session} {submission : ResponseSubmission}
    {rejection : Rejection}
    (h : preflightSubmission s submission = (s', .error (.rejected rejection))) :
    Orderly (fun id => (givenUpRequest s submission).any (·.itemId = id)) s s' := by
  rcases preflight_rejected h with ⟨-, hnotes⟩ | ⟨prepared, noted, hgiven, hnotes, rfl⟩
  · exact hnotes.letsRest.orderly _
  · refine (hnotes.letsRest.orderly _).trans (releaseIrrecoverable_orderly noted prepared _) ?_
    rintro id - rfl
    simp [hgiven]

theorem releaseRows_orderly (rows : List PreparedRow) (now : Int) (s : Session) :
    Orderly (fun id => ∃ row ∈ rows, row.prepared.itemId = id) s
      (rows.foldl
        (fun session row => releaseIrrecoverableRequestLease session row.prepared now) s) := by
  induction rows generalizing s with
  | nil => exact .refl s
  | cons row rows ih =>
      have hfirst : Orderly (fun id => ∃ other ∈ row :: rows, other.prepared.itemId = id) s
          (releaseIrrecoverableRequestLease s row.prepared now) :=
        (releaseIrrecoverable_orderly s row.prepared now).weaken fun id _ hid =>
          ⟨row, List.mem_cons_self, hid.symm⟩
      refine hfirst.trans (ih _) ?_
      rintro id - ⟨other, hother, hitem⟩
      exact ⟨other, List.mem_cons_of_mem row hother, hitem⟩

theorem rejectBatch_orderly (s : Session) (rows : List PreparedRow) (now : Int)
    (stop : SubmissionStop) :
    Orderly (fun id => ∃ row ∈ rows, row.prepared.itemId = id) s
      (rejectBatch s rows now stop) := by
  unfold rejectBatch
  split
  · exact .refl s
  · split
    · exact releaseRows_orderly rows now s
    · exact .refl s

theorem acceptRows_letsRest (now : Int) (rows : List PreparedRow) (s : Session) :
    LetsRest s (acceptRows s now rows).1 := by
  induction rows generalizing s with
  | nil => exact .refl s
  | cons row rows ih =>
      have hrow := acceptSubmission_letsRest s row.response row.prepared now
      unfold acceptRows
      split
      · next accepted stop heq => rwa [heq] at hrow
      · next accepted acceptance heq =>
        rw [heq] at hrow
        have hrest := ih accepted
        split
        · next rest stop heq' =>
          rw [heq'] at hrest
          exact hrow.then hrest
        · next rest acceptances heq' =>
          rw [heq'] at hrest
          exact hrow.then hrest

theorem bindRows_orderly (submission : BatchSubmission) (s : Session)
    (rows : List PreparedRow) :
    Orderly (fun id => ∃ row ∈ rows, row.prepared.itemId = id) s
      (bindRows submission s [] rows).session := by
  cases hstop : (bindRows submission s [] rows).stop with
  | none => exact (bindRows_ok hstop).1.letsRest.orderly _
  | some stop =>
      obtain ⟨noted, hnotes, hsession | ⟨row, hrow, _, -, -, hsession⟩⟩ := bindRows_stop hstop
      · rw [hsession]
        exact hnotes.letsRest.orderly _
      · rw [hsession]
        refine (hnotes.letsRest.orderly _).trans
          (releaseIrrecoverable_orderly noted row.prepared submission.now) ?_
        rintro id - rfl
        exact ⟨row, hrow, rfl⟩

/-- A batch is answered for leases that are active, whatever becomes of it. -/
theorem submitBatch_letsRest {s : Session} (hkeyed : LeasesKeyed s)
    (submission : BatchSubmission) : LetsRest s (submitBatch s submission).1 := by
  unfold submitBatch
  split
  · exact .refl s
  · next responses _ =>
    obtain ⟨hnotes, hready, -⟩ :=
      preflightRows_spec submission hkeyed responses (readyRows_nil s submission.now)
    have hheld : ∀ id, AtRest s id →
        (∃ row ∈ (preflightRows submission s [] responses).rows, row.prepared.itemId = id) →
        False := by
      rintro id hrest ⟨row, hrow, rfl⟩
      have hrow := hready.ready row hrow
      exact hrest.not_held hrow.lease hrow.isActive hrow.held
    simp only
    split
    · exact Orderly.trans hnotes.letsRest (rejectBatch_orderly _ _ _ _) hheld
    · let checked := preflightRows submission s [] responses
      have hbound : LetsRest s (bindRows submission checked.session [] checked.rows).session :=
        Orderly.trans hnotes.letsRest (bindRows_orderly _ _ _) hheld
      split
      · exact Orderly.trans hbound (rejectBatch_orderly _ _ _ _) hheld
      · have haccepted := hbound.then (acceptRows_letsRest submission.now
          (bindRows submission checked.session [] checked.rows).rows _)
        split
        · next accepted stop heq =>
          rw [heq] at haccepted
          exact Orderly.trans haccepted (rejectBatch_orderly _ _ _ _) hheld
        · next accepted acceptances heq =>
          rw [heq] at haccepted
          exact haccepted

theorem activeTriageRow_some {s : Session} {itemId key : String} {lease : Lease}
    (h : activeTriageRow s itemId = some (key, lease)) :
    s.leases[key]? = some lease ∧ lease.itemId = itemId ∧ lease.isActive = true := by
  have hfound := List.find?_some h
  have hmem := List.mem_of_find?_eq_some h
  simp only [Bool.and_eq_true, beq_iff_eq] at hfound
  exact ⟨Std.ExtTreeMap.mem_toList_iff_getElem?_eq_some.mp hmem, hfound.1.1, hfound.2⟩

theorem releaseActiveTriageLease_letsRest (s : Session) (args : ClassifyArgs) :
    LetsRest s (releaseActiveTriageLease s args).1 ∧
      ((releaseActiveTriageLease s args).2.isSome = true → ∃ (key : String) (lease : Lease),
        s.leases[key]? = some lease ∧ lease.isActive = true ∧ lease.itemId = args.itemId) := by
  unfold releaseActiveTriageLease
  split
  · exact ⟨.refl s, fun h => by cases h⟩
  · next key lease hrow =>
    obtain ⟨hlease, hitem, hactive⟩ := activeTriageRow_some hrow
    refine ⟨?_, fun _ => ⟨key, lease, hlease, hactive, hitem⟩⟩
    exact Orderly.appendEvidence (releaseLease_letsRest s key args.now _) _

/-- A classification gives an item back only if a triage lease was on it. -/
theorem classifyReleased_letsRest (s : Session) (record : EvidenceRecord) (args : ClassifyArgs)
    (classification : String) :
    LetsRest s ((releaseActiveTriageLease s args).1.modifyItem args.itemId
      (classifiedItem record args classification
        (releaseActiveTriageLease s args).2.isSome)) := by
  obtain ⟨hrelease, hheld⟩ := releaseActiveTriageLease_letsRest s args
  cases hreleased : (releaseActiveTriageLease s args).2.isSome with
  | true =>
      obtain ⟨key, lease, hlease, hactive, hitem⟩ := hheld hreleased
      exact hrelease.then_on_held (modifyItem_orderly _ args.itemId
        (classifiedItem_keepsId record args classification true)) hlease hactive hitem
  | false =>
      refine hrelease.then (.modifyItem (classifiedItem_keepsId record args classification false)
        fun _ => Or.inr fun item _ => ?_)
      simp only [classifiedItem, Bool.false_eq_true, if_false]
      exact (((SameStanding.refl item).set _ (by decide)).set _ (by decide)).set _ (by decide)

theorem recordClassification_letsRest {s s' : Session} {args : ClassifyArgs}
    {released : Option String} (h : recordClassification args s = .ok (s', released)) :
    LetsRest s s' := by
  unfold recordClassification at h
  simp only at h
  repeat' split at h
  · cases h
  · cases h
  · cases h
  · obtain ⟨rfl, -⟩ := Prod.mk.inj (Except.ok.inj h)
    have hrecorded : LetsRest s _ := (Orderly.refl s).appendEvidence
      (classificationRecorded s args (lower (strip args.classification)))
    exact hrecorded.then (classifyReleased_letsRest _ _ args _)

theorem releaseRows_letsRest (rows : List (String × Lease)) (now : Int) (s : Session) :
    LetsRest s (rows.foldl (fun session row =>
      (releaseLease session row.2.leaseId now (some "stale_reclaim")).1) s) := by
  induction rows generalizing s with
  | nil => exact .refl s
  | cons row rows ih => exact (releaseLease_letsRest s row.2.leaseId now _).then (ih _)

theorem releaseSelfStaleLease_letsRest (s : Session) (itemId agentId : String) (now : Int) :
    LetsRest s (releaseSelfStaleLease s itemId agentId now) := by
  unfold releaseSelfStaleLease
  simp only
  split
  · exact .refl s
  · next hrows =>
    obtain ⟨row, hrow⟩ := List.exists_mem_of_ne_nil _ (by simpa using hrows)
    obtain ⟨hmem, hown⟩ := List.mem_filter.mp hrow
    simp only [Bool.and_eq_true, beq_iff_eq] at hown
    exact (releaseRows_letsRest _ now s).then_on_held
      (modifyItem_orderly _ itemId staleItem_keepsId)
      (Std.ExtTreeMap.mem_toList_iff_getElem?_eq_some.mp hmem) hown.1.1.1 hown.1.1.2

theorem releaseStaleLeases_letsRest (itemIds : List String) (agentId : String) (now : Int)
    (s : Session) : LetsRest s (itemIds.foldl
      (fun session itemId => releaseSelfStaleLease session itemId agentId now) s) := by
  induction itemIds generalizing s with
  | nil => exact .refl s
  | cons itemId itemIds ih =>
      exact (releaseSelfStaleLease_letsRest s itemId agentId now).then (ih _)

theorem reclaimLeases_letsRest {s s' : Session} {now : Int} {expired : List Lease}
    (h : reclaimLeases now s = .ok (s', expired)) : LetsRest s s' := by
  have hrecords : ∀ (leases : List Lease) (current : Session), LetsRest current
      (leases.foldl (fun session lease =>
        session.appendEvidence (leaseExpiredRecord session lease now)) current) := by
    intro leases
    induction leases with
    | nil => exact fun current => .refl current
    | cons lease leases ih =>
        exact fun current => Orderly.then ((Orderly.refl current).appendEvidence
          (leaseExpiredRecord current lease now)) (ih _)
  unfold reclaimLeases at h
  simp only at h
  obtain ⟨rfl, -⟩ := Prod.mk.inj (Except.ok.inj h)
  exact (expireAndReturn_letsRest s now).then (hrecords _ _)

end GhAddressCr
