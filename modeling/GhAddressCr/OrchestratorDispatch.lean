import GhAddressCr.Leases
import GhAddressCr.SessionViews

/-!
# Dispatches of the orchestrator

The orchestrator keeps a dispatch for each item that one of its workers holds. It mirrors the
canonical leases: reconciling drops the dispatches whose lease is gone, and rebuilds the ones
that a crash lost.
-/
namespace GhAddressCr.Orchestrator

open PyText RuntimeStore

structure DispatchReceipt where
  itemId : String
  assignedRole : String
  agentId : String
  leaseId : String
  requestId : String
  runtimeRevision : Nat
  deliveryToken : String
  retryCount : Int := 0
  waitingForHuman : Bool := false
  handoffReason : Option String := none
  artifactPath : Option String := none
  deriving DecidableEq

structure OrchestrationSession where
  activeDispatches : Rows DispatchReceipt
  queuedItems : List String
  auditWarnings : List String
  deriving DecidableEq

def orchestratorAgentPrefix : String := "orchestrator:"

/-- `_append_audit_warning`. -/
def OrchestrationSession.appendAuditWarning (session : OrchestrationSession) (message : String) :
    OrchestrationSession :=
  let warnings :=
    if session.auditWarnings.contains message then session.auditWarnings
    else session.auditWarnings ++ [message]
  { session with auditWarnings := warnings.drop (warnings.length - 8) }

/-- `log_audit_event`, as far as the session keeps it: the warning when the log cannot be
written. -/
def OrchestrationSession.logAuditEvent (session : OrchestrationSession) (eventType : String)
    (error : Option String) : OrchestrationSession :=
  match error with
  | none => session
  | some error => session.appendAuditWarning (eventType ++ ": " ++ error)

/-- `_canonical_active_lease`. -/
def canonicalActiveLease (leases : Rows Lease) (leaseId itemId : String) : Option Lease :=
  leases[leaseId]?.filter fun lease => lease.itemId = itemId ∧ lease.isActive

/-- A lease whose dispatch can be rebuilt: an active one of an orchestrator's agent on an item,
with the token its worker was given. -/
def rebuildable (lease : Lease) : Bool :=
  lease.itemId ≠ "" && startsWith lease.agentId orchestratorAgentPrefix && lease.isActive &&
    lease.resumeToken.getD "" ≠ ""

def receiptOf (leaseId : String) (lease : Lease) (runtimeRevision : Nat) : DispatchReceipt where
  itemId := lease.itemId
  assignedRole := lease.role.value
  agentId := lease.agentId
  leaseId
  requestId := lease.requestId.getD ""
  runtimeRevision
  deliveryToken := lease.resumeToken.getD ""

/-- One turn of the rebuilding loop, with the number of dispatches rebuilt. -/
def rebuildDispatch (runtimeRevision : Nat) (auditError : Option String)
    (state : OrchestrationSession × Nat) (row : String × Lease) : OrchestrationSession × Nat :=
  let (session, rebuilt) := state
  let (leaseId, lease) := row
  if rebuildable lease ∧ session.activeDispatches[lease.itemId]? = none then
    let session := { session with
      activeDispatches := session.activeDispatches.insert lease.itemId
        (receiptOf leaseId lease runtimeRevision) }
    (session.logAuditEvent "DISPATCH_REBUILT" auditError, rebuilt + 1)
  else (session, rebuilt)

/-- The result of `reconcile_dispatches`. -/
structure Reconciliation where
  retained : Nat
  removed : Nat
  rebuilt : Nat
  runtimeRevision : Nat
  deriving DecidableEq

/-- The dispatches whose canonical lease is active. -/
def retainedDispatches (session : OrchestrationSession) (leases : Rows Lease) :
    Rows DispatchReceipt :=
  session.activeDispatches.filter fun itemId receipt =>
    (canonicalActiveLease leases receipt.leaseId itemId).isSome

def reconcileDispatches (session : OrchestrationSession) (leases : Rows Lease)
    (runtimeRevision : Nat) (auditError : Option String) :
    OrchestrationSession × Reconciliation :=
  let kept := retainedDispatches session leases
  let (session', rebuilt) := leases.toList.foldl (rebuildDispatch runtimeRevision auditError)
    ({ session with activeDispatches := kept }, 0)
  (session', {
    retained := session'.activeDispatches.size - rebuilt
    removed := session.activeDispatches.size - kept.size
    rebuilt
    runtimeRevision })

/-- `_eligible_runtime_items`. -/
def eligibleRuntimeItems (runtime : Session) : List String :=
  (runtime.items.toList.filter fun row =>
    (row.2.get "blocking").truthy && !(row.2.get "handled").truthy &&
      !(activeItemIds runtime.leases).contains row.1).map (·.1)

/-- `_sync_queue_from_runtime`. -/
def syncQueueFromRuntime (session : OrchestrationSession) (runtime : Session)
    (auditError : Option String) : OrchestrationSession × Reconciliation :=
  let (session, result) := reconcileDispatches session runtime.leases (runtime.revision.getD 0)
    auditError
  ({ session with
    queuedItems := (eligibleRuntimeItems runtime).filter fun itemId =>
      session.activeDispatches[itemId]?.isNone }, result)

@[simp] theorem logAuditEvent_activeDispatches (session : OrchestrationSession)
    (eventType : String) (error : Option String) :
    (session.logAuditEvent eventType error).activeDispatches = session.activeDispatches := by
  cases error <;> rfl

theorem canonicalActiveLease_eq_some {leases : Rows Lease} {leaseId itemId : String}
    {lease : Lease} :
    canonicalActiveLease leases leaseId itemId = some lease ↔
      leases[leaseId]? = some lease ∧ lease.itemId = itemId ∧ lease.isActive = true := by
  simp [canonicalActiveLease, Option.filter_eq_some_iff]

theorem retainedDispatches_eq_some {session : OrchestrationSession} {leases : Rows Lease}
    {itemId : String} {receipt : DispatchReceipt} :
    (retainedDispatches session leases)[itemId]? = some receipt ↔
      session.activeDispatches[itemId]? = some receipt ∧
        ∃ lease, canonicalActiveLease leases receipt.leaseId itemId = some lease := by
  unfold retainedDispatches
  rw [Std.ExtTreeMap.getElem?_filter', Option.filter_eq_some_iff, Option.isSome_iff_exists]

/-- The dispatches mirror the leases: each has an active lease on its item. -/
def Mirrors (leases : Rows Lease) (dispatches : Rows DispatchReceipt) : Prop :=
  ∀ itemId receipt, dispatches[itemId]? = some receipt →
    ∃ lease, canonicalActiveLease leases receipt.leaseId itemId = some lease

theorem retainedDispatches_mirrors (session : OrchestrationSession) (leases : Rows Lease) :
    Mirrors leases (retainedDispatches session leases) :=
  fun _ _ hreceipt => (retainedDispatches_eq_some.mp hreceipt).2

section Rebuilding

variable {leases : Rows Lease} {runtimeRevision : Nat} {auditError : Option String}

/-- What a turn does: the dispatches it finds stay, and the lease of a rebuildable row has one. -/
theorem rebuildDispatch_dispatches (state : OrchestrationSession × Nat) (row : String × Lease) :
    let after := (rebuildDispatch runtimeRevision auditError state row).1.activeDispatches
    (∀ (itemId : String) (receipt : DispatchReceipt),
      state.1.activeDispatches[itemId]? = some receipt → after[itemId]? = some receipt) ∧
    (∀ (itemId : String) (receipt : DispatchReceipt), after[itemId]? = some receipt →
      state.1.activeDispatches[itemId]? = some receipt ∨
        rebuildable row.2 = true ∧ itemId = row.2.itemId ∧
          receipt = receiptOf row.1 row.2 runtimeRevision) ∧
    (rebuildable row.2 = true → after[row.2.itemId]?.isSome) := by
  obtain ⟨session, rebuilt⟩ := state
  obtain ⟨leaseId, lease⟩ := row
  unfold rebuildDispatch
  simp only
  split
  · next hrebuild =>
    simp only [logAuditEvent_activeDispatches]
    refine ⟨fun itemId receipt hreceipt => ?_, fun itemId receipt hreceipt => ?_, fun _ => ?_⟩
    · have hne : lease.itemId ≠ itemId := by
        rintro rfl
        exact absurd (hrebuild.2.symm.trans hreceipt) nofun
      rw [KeyedRows.getElem?_insert_of_ne _ _ hne, hreceipt]
    · by_cases hitem : lease.itemId = itemId
      · subst hitem
        right
        simp only [Std.ExtTreeMap.getElem?_insert_self] at hreceipt
        exact ⟨hrebuild.1, rfl, (Option.some.inj hreceipt).symm⟩
      · left
        rwa [KeyedRows.getElem?_insert_of_ne _ _ hitem] at hreceipt
    · simp
  · next hkept =>
    refine ⟨fun _ _ hreceipt => hreceipt, fun _ _ hreceipt => .inl hreceipt, fun hrebuild => ?_⟩
    exact Option.isSome_iff_ne_none.mpr fun hnone => hkept ⟨hrebuild, hnone⟩

theorem foldl_rebuildDispatch_kept (rows : List (String × Lease))
    (state : OrchestrationSession × Nat) {itemId : String} {receipt : DispatchReceipt}
    (hreceipt : state.1.activeDispatches[itemId]? = some receipt) :
    (rows.foldl (rebuildDispatch runtimeRevision auditError) state).1.activeDispatches[itemId]? =
      some receipt := by
  induction rows generalizing state with
  | nil => exact hreceipt
  | cons row rows ih =>
      exact ih _ ((rebuildDispatch_dispatches state row).1 itemId receipt hreceipt)

theorem foldl_rebuildDispatch_origin (rows : List (String × Lease))
    (state : OrchestrationSession × Nat) {itemId : String} {receipt : DispatchReceipt}
    (hreceipt : (rows.foldl (rebuildDispatch runtimeRevision auditError)
      state).1.activeDispatches[itemId]? = some receipt) :
    state.1.activeDispatches[itemId]? = some receipt ∨
      ∃ row ∈ rows, rebuildable row.2 = true ∧ itemId = row.2.itemId ∧
        receipt = receiptOf row.1 row.2 runtimeRevision := by
  induction rows generalizing state with
  | nil => exact .inl hreceipt
  | cons row rows ih =>
      rcases ih _ hreceipt with hbefore | ⟨other, hother, hrebuilt⟩
      · rcases (rebuildDispatch_dispatches state row).2.1 itemId receipt hbefore with hkept | hnew
        · exact .inl hkept
        · exact .inr ⟨row, List.mem_cons_self, hnew⟩
      · exact .inr ⟨other, List.mem_cons_of_mem row hother, hrebuilt⟩

theorem foldl_rebuildDispatch_covers (rows : List (String × Lease))
    (state : OrchestrationSession × Nat) {row : String × Lease} (hrow : row ∈ rows)
    (hrebuild : rebuildable row.2 = true) :
    (rows.foldl (rebuildDispatch runtimeRevision auditError)
      state).1.activeDispatches[row.2.itemId]?.isSome := by
  induction rows generalizing state with
  | nil => cases hrow
  | cons first rows ih =>
      rcases List.mem_cons.mp hrow with rfl | hrow
      · obtain ⟨receipt, hreceipt⟩ :=
          Option.isSome_iff_exists.mp ((rebuildDispatch_dispatches state row).2.2 hrebuild)
        rw [List.foldl_cons, foldl_rebuildDispatch_kept rows _ hreceipt]
        rfl
      · exact ih _ hrow

/-- Where every rebuildable lease has its dispatch there is nothing to rebuild. -/
theorem foldl_rebuildDispatch_same (rows : List (String × Lease))
    (state : OrchestrationSession × Nat)
    (h : ∀ row ∈ rows, rebuildable row.2 = true →
      state.1.activeDispatches[row.2.itemId]?.isSome) :
    rows.foldl (rebuildDispatch runtimeRevision auditError) state = state := by
  induction rows with
  | nil => rfl
  | cons row rows ih =>
      have hsame : rebuildDispatch runtimeRevision auditError state row = state := by
        obtain ⟨session, rebuilt⟩ := state
        obtain ⟨leaseId, lease⟩ := row
        unfold rebuildDispatch
        simp only
        rw [if_neg]
        rintro ⟨hrebuild, hnone⟩
        have hsome := h _ List.mem_cons_self hrebuild
        rw [hnone] at hsome
        cases hsome
      rw [List.foldl_cons, hsame]
      exact ih fun other hother => h other (List.mem_cons_of_mem row hother)

end Rebuilding

section Reconciling

variable (session : OrchestrationSession) (leases : Rows Lease) (runtimeRevision : Nat)
  (auditError : Option String)

theorem reconcileDispatches_mirrors :
    Mirrors leases
      (reconcileDispatches session leases runtimeRevision auditError).1.activeDispatches := by
  intro itemId receipt hreceipt
  rcases foldl_rebuildDispatch_origin leases.toList _ hreceipt with hkept | hrebuilt
  · exact retainedDispatches_mirrors session leases itemId receipt hkept
  · obtain ⟨⟨leaseId, lease⟩, hrow, hrebuild, rfl, rfl⟩ := hrebuilt
    have hlease : leases[leaseId]? = some lease :=
      Std.ExtTreeMap.mem_toList_iff_getElem?_eq_some.mp hrow
    have hactive : lease.isActive = true := by
      simp only [rebuildable, Bool.and_eq_true] at hrebuild
      exact hrebuild.1.2
    exact ⟨lease, canonicalActiveLease_eq_some.mpr ⟨hlease, rfl, hactive⟩⟩

theorem reconcileDispatches_covers {leaseId : String} {lease : Lease}
    (hlease : leases[leaseId]? = some lease) (hrebuild : rebuildable lease = true) :
    ∃ receipt, (reconcileDispatches session leases runtimeRevision
      auditError).1.activeDispatches[lease.itemId]? = some receipt :=
  Option.isSome_iff_exists.mp
    (have hrow : (leaseId, lease) ∈ leases.toList :=
      Std.ExtTreeMap.mem_toList_iff_getElem?_eq_some.mpr hlease
    foldl_rebuildDispatch_covers leases.toList _ hrow hrebuild)

/-- A session that mirrors the leases already is left as it is. -/
theorem reconcileDispatches_same (hmirrors : Mirrors leases session.activeDispatches)
    (hcovers : ∀ (leaseId : String) (lease : Lease), leases[leaseId]? = some lease →
      rebuildable lease = true → session.activeDispatches[lease.itemId]?.isSome) :
    reconcileDispatches session leases runtimeRevision auditError =
      (session, ⟨session.activeDispatches.size, 0, 0, runtimeRevision⟩) := by
  have hkept : retainedDispatches session leases = session.activeDispatches := by
    refine Std.ExtTreeMap.ext_getElem? fun itemId => ?_
    cases hreceipt : session.activeDispatches[itemId]? with
    | none =>
        refine Option.eq_none_iff_forall_ne_some.mpr fun receipt hretained => ?_
        exact absurd (hreceipt.symm.trans (retainedDispatches_eq_some.mp hretained).1) nofun
    | some receipt =>
        exact retainedDispatches_eq_some.mpr ⟨hreceipt, hmirrors itemId receipt hreceipt⟩
  have hfold : leases.toList.foldl (rebuildDispatch runtimeRevision auditError) (session, 0) =
      (session, 0) :=
    foldl_rebuildDispatch_same leases.toList (session, 0) fun row hrow hrebuild =>
      hcovers row.1 row.2 (Std.ExtTreeMap.mem_toList_iff_getElem?_eq_some.mp hrow) hrebuild
  unfold reconcileDispatches
  rw [hkept]
  simp [hfold]

end Reconciling

/-- Where an item has at most one active lease, reconciling makes the dispatches the mirror of
the canonical leases, and a second time changes nothing. -/
theorem reconcileDispatches_mirror (session : OrchestrationSession) (leases : Rows Lease)
    (runtimeRevision : Nat) (auditError : Option String)
    (hone : (activeItemIds leases).Nodup) :
    let after := (reconcileDispatches session leases runtimeRevision auditError).1
    (∀ (itemId : String) (receipt : DispatchReceipt),
      after.activeDispatches[itemId]? = some receipt →
      ∃ lease : Lease, leases[receipt.leaseId]? = some lease ∧ lease.itemId = itemId ∧
        lease.isActive = true) ∧
    (∀ (leaseId : String) (lease : Lease), leases[leaseId]? = some lease →
      rebuildable lease = true →
      ∃ receipt, after.activeDispatches[lease.itemId]? = some receipt ∧
        receipt.leaseId = leaseId) ∧
    (∀ (itemId other : String) (receipt receipt' : DispatchReceipt),
      after.activeDispatches[itemId]? = some receipt →
      after.activeDispatches[other]? = some receipt' → receipt.leaseId = receipt'.leaseId →
      itemId = other) ∧
    ∀ (laterRevision : Nat) (laterError : Option String),
      reconcileDispatches after leases laterRevision laterError =
        (after, ⟨after.activeDispatches.size, 0, 0, laterRevision⟩) := by
  intro after
  have hmirrors : Mirrors leases after.activeDispatches :=
    reconcileDispatches_mirrors session leases runtimeRevision auditError
  refine ⟨fun itemId receipt hreceipt => ?_, fun leaseId lease hlease hrebuild => ?_, ?_, ?_⟩
  · obtain ⟨lease, hlease⟩ := hmirrors itemId receipt hreceipt
    exact ⟨lease, canonicalActiveLease_eq_some.mp hlease⟩
  · obtain ⟨receipt, hreceipt⟩ := reconcileDispatches_covers session leases runtimeRevision
      auditError hlease hrebuild
    obtain ⟨mirrored, hmirrored⟩ := hmirrors lease.itemId receipt hreceipt
    obtain ⟨hfound, hitem, hactive⟩ := canonicalActiveLease_eq_some.mp hmirrored
    have hactive' : lease.isActive = true := by
      simp only [rebuildable, Bool.and_eq_true] at hrebuild
      exact hrebuild.1.2
    exact ⟨receipt, hreceipt,
      nodup_activeItemIds.mp hone _ _ _ _ hfound hlease hactive hactive' hitem⟩
  · intro itemId other receipt receipt' hreceipt hreceipt' hsame
    obtain ⟨lease, hlease⟩ := hmirrors itemId receipt hreceipt
    obtain ⟨lease', hlease'⟩ := hmirrors other receipt' hreceipt'
    obtain ⟨hfound, hitem, -⟩ := canonicalActiveLease_eq_some.mp hlease
    obtain ⟨hfound', hitem', -⟩ := canonicalActiveLease_eq_some.mp hlease'
    rw [hsame] at hfound
    obtain rfl := Option.some.inj (hfound.symm.trans hfound')
    exact hitem.symm.trans hitem'
  · intro laterRevision laterError
    refine reconcileDispatches_same after leases laterRevision laterError hmirrors ?_
    intro leaseId lease hlease hrebuild
    exact Option.isSome_iff_exists.mpr
      (reconcileDispatches_covers session leases runtimeRevision auditError hlease hrebuild)

/-- An item with a dispatch is not queued for another. -/
theorem syncQueueFromRuntime_queued (session : OrchestrationSession) (runtime : Session)
    (auditError : Option String) :
    ∀ itemId ∈ (syncQueueFromRuntime session runtime auditError).1.queuedItems,
      (syncQueueFromRuntime session runtime auditError).1.activeDispatches[itemId]? = none := by
  intro itemId hqueued
  obtain ⟨-, hfree⟩ := List.mem_filter.mp hqueued
  exact Option.isNone_iff_eq_none.mp hfree

/-- A lease of an orchestrator's worker. -/
def workerLease : Lease where
  leaseId := "lease-2"
  itemId := "item-2"
  agentId := "orchestrator:worker"
  role := .fixer
  status := .active
  createdAt := 0
  expiresAt := 10
  resumeToken := some "token"
  requestHash := "hash"
  requestId := some "request-2"
  requestPath := none
  conflictKeys := []

/-- A dispatch whose lease is gone, and none for the lease there is. -/
def crashedSession : OrchestrationSession where
  activeDispatches := (∅ : Rows DispatchReceipt).insert "item-1"
    (receiptOf "lease-1" { workerLease with leaseId := "lease-1", itemId := "item-1" } 3)
  queuedItems := []
  auditWarnings := []

theorem reconcileDispatches_mirror_crashed :
    let leases := (∅ : Rows Lease).insert "lease-2" workerLease
    let after := (reconcileDispatches crashedSession leases 4 none).1
    after.activeDispatches["item-1"]? = none ∧
      (∃ receipt, after.activeDispatches["item-2"]? = some receipt ∧
        receipt.leaseId = "lease-2") ∧
      reconcileDispatches after leases 5 none =
        (after, ⟨after.activeDispatches.size, 0, 0, 5⟩) := by
  intro leases after
  have hone : (activeItemIds leases).Nodup := by decide +kernel
  have hgone : (after.activeDispatches["item-1"]?).isNone = true := by decide +kernel
  obtain ⟨-, hcovers, -, hagain⟩ := reconcileDispatches_mirror crashedSession leases 4 none hone
  exact ⟨Option.isNone_iff_eq_none.mp hgone,
    hcovers "lease-2" workerLease (by decide +kernel) (by decide +kernel), hagain 5 none⟩

end GhAddressCr.Orchestrator
