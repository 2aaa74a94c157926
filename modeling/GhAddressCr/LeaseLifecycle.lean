import GhAddressCr.AuditedTable
import GhAddressCr.SessionOperations
import GhAddressCr.SubmissionSteps

/-!
# The lifecycle of leases

Every operation but one changes the status of a lease together with an event that says so, and
no other way. The leases and their events are read as an audited table, and each operation is
a number of its steps.
-/
namespace GhAddressCr

open PyText GithubThreadState RuntimeStore AuditedTable

/-- The status a lifecycle event gives to its lease. -/
def lifecycleStatus? (eventType : String) : Option LeaseStatus :=
  match eventType with
  | "lease_created" => some .active
  | "lease_submitted" => some .submitted
  | "lease_accepted" => some .accepted
  | "lease_released" => some .released
  | "lease_expired" => some .expired
  | _ => none

/-- The lease of a lifecycle event, with the item and the status the event gives. -/
def loggedLifecycle? (event : Dict) : Option (String × String × LeaseStatus) :=
  match event.get "event_type", event.get "lease_id", event.get "item_id" with
  | .str eventType, .str leaseId, .str itemId =>
      (lifecycleStatus? eventType).map fun status => (leaseId, itemId, status)
  | _, _, _ => none

/-- The leases by their items and statuses, with the events that say so. -/
def auditedLeases (s : Session) : AuditedTable.State String (String × LeaseStatus) where
  status id := (s.leases[id]?).map fun lease => (lease.itemId, lease.status)
  log := s.leaseEvents.filterMap loggedLifecycle?

/-- The ways the status of a lease may go. -/
inductive StatusMoves : LeaseStatus → LeaseStatus → Prop where
  | submit : StatusMoves .active .submitted
  | accept : StatusMoves .submitted .accepted
  | release {status : LeaseStatus} : status.isActive = true → StatusMoves status .released
  | expire {status : LeaseStatus} : status.isActive = true → StatusMoves status .expired

/-- The lease stays on its item. -/
structure LeaseMoves (old new : String × LeaseStatus) : Prop where
  item : new.1 = old.1
  status : StatusMoves old.2 new.2

/-- The terminal statuses are absorbing. -/
theorem StatusMoves.isActive {old new : LeaseStatus} (h : StatusMoves old new) :
    old.isActive = true := by
  cases h with
  | submit => rfl
  | accept => rfl
  | release hactive => exact hactive
  | expire hactive => exact hactive

/-- The leases stay keyed by their own ids. They are created and change their statuses by steps
that the events say. -/
def LeaseSteps (First : String → String × LeaseStatus → Prop) (s s' : Session) : Prop :=
  LeasesKeyed s →
    LeasesKeyed s' ∧ Steps First LeaseMoves (auditedLeases s) (auditedLeases s')

/-- Leases are created active, under these ids. -/
abbrev CreatesLeases (ids : String → Prop) : Session → Session → Prop :=
  LeaseSteps fun id entry => ids id ∧ entry.2 = .active

/-- Leases are created active. -/
abbrev Lifecycle : Session → Session → Prop := CreatesLeases fun _ => True

/-- No lease is created. -/
abbrev EndsLeases : Session → Session → Prop := LeaseSteps fun _ _ => False

variable {First : String → String × LeaseStatus → Prop}

theorem LeaseSteps.refl (s : Session) : LeaseSteps First s s := fun hkeyed => ⟨hkeyed, .refl⟩

theorem LeaseSteps.trans {s s' s'' : Session} (h : LeaseSteps First s s')
    (h' : LeaseSteps First s' s'') : LeaseSteps First s s'' := by
  intro hkeyed
  obtain ⟨hkeyed', hsteps⟩ := h hkeyed
  obtain ⟨hkeyed'', hsteps'⟩ := h' hkeyed'
  exact ⟨hkeyed'', Relation.ReflTransGen.trans hsteps hsteps'⟩

theorem LeaseSteps.weaken {First' : String → String × LeaseStatus → Prop} {s s' : Session}
    (h : LeaseSteps First s s') (hfirst : ∀ id entry, First id entry → First' id entry) :
    LeaseSteps First' s s' := by
  intro hkeyed
  obtain ⟨hkeyed', hsteps⟩ := h hkeyed
  exact ⟨hkeyed', hsteps.weaken hfirst⟩

theorem EndsLeases.creates {s s' : Session} (h : EndsLeases s s') (ids : String → Prop) :
    CreatesLeases ids s s' := h.weaken fun _ _ hnever => absurd hnever id

theorem EndsLeases.lifecycle {s s' : Session} (h : EndsLeases s s') : Lifecycle s s' :=
  h.creates _

theorem CreatesLeases.lifecycle {s s' : Session} {ids : String → Prop}
    (h : CreatesLeases ids s s') : Lifecycle s s' :=
  LeaseSteps.weaken h fun _ _ hcreated => ⟨trivial, hcreated.2⟩

/-- Nothing of the leases and their events is written. -/
theorem LeaseSteps.of_same {s s' : Session} (hleases : s'.leases = s.leases)
    (hevents : s'.leaseEvents = s.leaseEvents) : LeaseSteps First s s' := by
  intro hkeyed
  have hsame : auditedLeases s' = auditedLeases s := by
    simp only [auditedLeases, hleases, hevents]
  constructor
  · unfold LeasesKeyed
    rw [hleases]
    exact hkeyed
  · rw [hsame]
    exact .refl

/-- The id was never given to a lease. -/
structure FreshLeaseId (s : Session) (id : String) : Prop where
  nonempty : id ≠ ""
  unused : s.leases[id]? = none
  unlogged : ∀ entry ∈ (auditedLeases s).log, entry.1 ≠ id

theorem LeaseSteps.fresh {s s' : Session} (h : LeaseSteps First s s') (hkeyed : LeasesKeyed s)
    {id : String} (hfirst : ∀ entry, ¬ First id entry) (hid : FreshLeaseId s id) :
    FreshLeaseId s' id := by
  obtain ⟨-, hsteps⟩ := h hkeyed
  obtain ⟨hnone, hunlogged⟩ := hsteps.unused hfirst (by simp [auditedLeases, hid.unused])
    hid.unlogged
  exact ⟨hid.nonempty, by simpa [auditedLeases] using hnone, hunlogged⟩

theorem leasesKeyed_insert {s s' : Session} {key : String} {lease : Lease} (hkeyed : LeasesKeyed s)
    (hleases : s'.leases = s.leases.insert key lease) (hid : lease.leaseId = key)
    (hnonempty : key ≠ "") : LeasesKeyed s' := by
  intro id held hheld
  rw [hleases, Std.ExtTreeMap.getElem?_insert] at hheld
  by_cases hkey : key = id
  · subst hkey
    simp only [Std.compare_self, if_true, Option.some.injEq] at hheld
    subst hheld
    exact ⟨hid, hnonempty⟩
  · simp only [Std.compare_eq_iff_eq, hkey, if_false] at hheld
    exact hkeyed id held hheld

theorem auditedLeases_insert {s s' : Session} {key : String} {lease : Lease}
    (hleases : s'.leases = s.leases.insert key lease) :
    (auditedLeases s').status =
      Function.update (auditedLeases s).status key (some (lease.itemId, lease.status)) := by
  ext1 id
  simp only [auditedLeases, hleases, Std.ExtTreeMap.getElem?_insert, Function.update_apply]
  by_cases hid : key = id
  · simp [hid]
  · simp [hid, Ne.symm hid]

/-- The same lease with other terms. -/
theorem LeaseSteps.rewrite {s s' : Session} {key : String} {lease : Lease} (lease' : Lease)
    (hlease : s.leases[key]? = some lease) (hleases : s'.leases = s.leases.insert key lease')
    (hid : lease'.leaseId = lease.leaseId) (hitem : lease'.itemId = lease.itemId)
    (hstatus : lease'.status = lease.status) (hevents : s'.leaseEvents = s.leaseEvents) :
    LeaseSteps First s s' := by
  intro hkeyed
  obtain ⟨hkey, hnonempty⟩ := hkeyed key lease hlease
  have hsame : auditedLeases s' = auditedLeases s := by
    have htable := auditedLeases_insert hleases
    have hvalue : (auditedLeases s).status key = some (lease'.itemId, lease'.status) := by
      simp [auditedLeases, hlease, hitem, hstatus]
    rw [← hvalue, Function.update_eq_self] at htable
    have hlog : (auditedLeases s').log = (auditedLeases s).log := by
      simp only [auditedLeases, hevents]
    cases hbefore : auditedLeases s
    cases hafter : auditedLeases s'
    simp_all
  refine ⟨leasesKeyed_insert hkeyed hleases (hid.trans hkey) hnonempty, ?_⟩
  rw [hsame]
  exact .refl

theorem appendLeaseEvent_entry (lease : Lease) (eventType : String) (now : Int)
    (reason : Option String) (s : Session) :
    (auditedLeases (appendLeaseEvent s lease eventType now reason)).log =
      (auditedLeases s).log ++
        ((lifecycleStatus? eventType).map fun status =>
          (lease.leaseId, lease.itemId, status)).toList := by
  have hentry : ∀ event : Dict, event.get "event_type" = .str eventType →
      event.get "lease_id" = .str lease.leaseId → event.get "item_id" = .str lease.itemId →
      [event].filterMap loggedLifecycle? = ((lifecycleStatus? eventType).map fun status =>
        (lease.leaseId, lease.itemId, status)).toList := by
    intro event htype hid hitem
    cases hstatus : lifecycleStatus? eventType <;>
      simp [loggedLifecycle?, htype, hid, hitem, hstatus]
  simp only [auditedLeases, appendLeaseEvent, List.filterMap_append]
  congr 1
  apply hentry
  · cases reason <;> simp [Dict.ofFields, Dict.get_insert]
  · cases reason <;> simp [Dict.ofFields, Dict.get_insert]
  · cases reason <;> simp [Dict.ofFields, Dict.get_insert]

/-- A lease takes a status, and the event says so. -/
theorem auditedLeases_event {s s' : Session} {key : String} {lease : Lease} {eventType : String}
    {now : Int} {reason : Option String}
    (hs' : s' = appendLeaseEvent { s with leases := s.leases.insert key lease } lease eventType now
      reason)
    (hid : lease.leaseId = key) (htype : lifecycleStatus? eventType = some lease.status) :
    auditedLeases s' = (auditedLeases s).set key (lease.itemId, lease.status) := by
  subst hs'
  have hlog := appendLeaseEvent_entry lease eventType now reason
    { s with leases := s.leases.insert key lease }
  have htable := @auditedLeases_insert s (appendLeaseEvent
    { s with leases := s.leases.insert key lease } lease eventType now reason) key lease rfl
  rw [htype, hid] at hlog
  simp only [AuditedTable.State.set]
  rw [← htable]
  have hsame : (auditedLeases { s with leases := s.leases.insert key lease }).log =
      (auditedLeases s).log := rfl
  rw [hsame] at hlog
  simp only [Option.map_some, Option.toList_some] at hlog
  rw [← hlog]

theorem LeaseSteps.move {s s' : Session} {key : String} {lease : Lease} (lease' : Lease)
    (eventType : String) (now : Int) (reason : Option String) (hlease : s.leases[key]? = some lease)
    (hs' : s' = appendLeaseEvent { s with leases := s.leases.insert key lease' } lease' eventType
      now reason)
    (hid : lease'.leaseId = lease.leaseId) (htype : lifecycleStatus? eventType = some lease'.status)
    (hmoves : LeaseMoves (lease.itemId, lease.status) (lease'.itemId, lease'.status)) :
    LeaseSteps First s s' := by
  intro hkeyed
  obtain ⟨hkey, hnonempty⟩ := hkeyed key lease hlease
  have hown := hid.trans hkey
  refine ⟨leasesKeyed_insert hkeyed (by rw [hs']; rfl) hown hnonempty, ?_⟩
  rw [auditedLeases_event hs' hown htype]
  exact Relation.ReflTransGen.single
    (.move key (lease.itemId, lease.status) _ (by simp [auditedLeases, hlease]) hmoves)

theorem LeaseSteps.create {s s' : Session} {lease : Lease} {now : Int}
    (hfresh : FreshLeaseId s lease.leaseId) (hactive : lease.status = .active)
    (hs' : s' = appendLeaseEvent { s with leases := s.leases.insert lease.leaseId lease } lease
      "lease_created" now) : CreatesLeases (· = lease.leaseId) s s' := by
  intro hkeyed
  refine ⟨leasesKeyed_insert hkeyed (by rw [hs']; rfl) rfl hfresh.nonempty, ?_⟩
  rw [auditedLeases_event hs' rfl (by rw [hactive]; rfl)]
  exact Relation.ReflTransGen.single (.create lease.leaseId _
    (by simp [auditedLeases, hfresh.unused]) hfresh.unlogged ⟨rfl, hactive⟩)

/-- An event that is no lifecycle event. -/
theorem LeaseSteps.recovery (s : Session) (recovery : LeaseRecoveryState) (now : Int) :
    LeaseSteps First s (appendLeaseRecoveryEvent s recovery now) := by
  intro hkeyed
  have hentry : loggedLifecycle? (Dict.ofFields
      [("event_type", .str "lease_recovery_calculated"), ("timestamp", .time now),
        ("lease_id", .str recovery.leaseId), ("item_id", .str recovery.itemId),
        ("agent_id", .str recovery.agentId), ("status", .str recovery.leaseStatus),
        ("recovery_outcome", .str recovery.recoveryOutcome.value),
        ("reason_code", .str recovery.reasonCode)]) = none := by
    simp [loggedLifecycle?, Dict.ofFields, Dict.get_insert, lifecycleStatus?]
  have hsame : auditedLeases (appendLeaseRecoveryEvent s recovery now) = auditedLeases s := by
    simp only [auditedLeases, appendLeaseRecoveryEvent, List.filterMap_append,
      List.filterMap_cons, hentry, List.filterMap_nil, List.append_nil]
  refine ⟨hkeyed, ?_⟩
  rw [hsame]
  exact .refl

theorem returnExpiredItemsToOpen_leaseEvents (s : Session) (expired : List Lease) :
    (returnExpiredItemsToOpen s expired).leaseEvents = s.leaseEvents := by
  unfold returnExpiredItemsToOpen
  induction expired generalizing s with
  | nil => rfl
  | cons lease expired ih =>
      rw [List.foldl_cons, ih]
      split
      · split <;> rfl
      · rfl

theorem openClaimedItem_leaseEvents (s : Session) (lease : Lease) :
    (openClaimedItem s lease).leaseEvents = s.leaseEvents := by
  unfold openClaimedItem
  split
  · dsimp only
    split <;> rfl
  · rfl

theorem returnExpiredItemsToOpen_ends (s : Session) (expired : List Lease) :
    EndsLeases s (returnExpiredItemsToOpen s expired) :=
  .of_same (returnExpiredItemsToOpen_leases s expired)
    (returnExpiredItemsToOpen_leaseEvents s expired)

theorem expireLease_ends {s : Session} {key : String} {lease : Lease}
    (hlease : s.leases[key]? = some lease) (hactive : lease.isActive = true) (now : Int) :
    EndsLeases s (expireLease s key lease now) := by
  have hmove : EndsLeases s _ := .move (expiredLease lease now) "lease_expired" now none hlease rfl rfl rfl
    ⟨rfl, .expire hactive⟩
  refine hmove.trans (.of_same (by simp) ?_)
  simp only [expireLease, appendLeaseEvent, openClaimedItem_leaseEvents,
    returnExpiredItemsToOpen_leaseEvents]

theorem expireRows_ends (now : Int) {rows : List (String × Lease)}
    {acc : Session × List Lease} (hdistinct : rows.Pairwise fun a b => a.1 ≠ b.1)
    (hheld : ∀ row ∈ rows, acc.1.leases[row.1]? = some row.2) :
    EndsLeases acc.1 (rows.foldl (expireLeaseIfDue now) acc).1 := by
  induction rows generalizing acc with
  | nil => exact .refl acc.1
  | cons row rows ih =>
      obtain ⟨hne, hrest⟩ := List.pairwise_cons.mp hdistinct
      have hrow := hheld row List.mem_cons_self
      rw [List.foldl_cons]
      by_cases hdue : (row.2.isActive && isExpired row.2 now) = true
      · have hactive : row.2.isActive = true := (Bool.and_eq_true _ _).mp hdue |>.1
        have hstep : expireLeaseIfDue now acc row =
            (expireLease acc.1 row.1 row.2 now, acc.2 ++ [expiredLease row.2 now]) := by
          simp only [expireLeaseIfDue, hdue, if_true]
        rw [hstep]
        refine (expireLease_ends hrow hactive now).trans
          (@ih (expireLease acc.1 row.1 row.2 now, _) hrest fun other hother => ?_)
        simp only [expireLease_leases, Std.ExtTreeMap.getElem?_insert, Std.compare_eq_iff_eq,
          hne other hother, if_false]
        exact hheld other (List.mem_cons_of_mem row hother)
      · have hstep : expireLeaseIfDue now acc row = acc := by
          simp only [expireLeaseIfDue, hdue, Bool.false_eq_true, if_false]
        rw [hstep]
        exact ih hrest fun other hother => hheld other (List.mem_cons_of_mem row hother)

theorem expireLeases_ends (s : Session) (now : Int) :
    EndsLeases s (expireLeases s now).1 :=
  @expireRows_ends now _ (s, []) (KeyedRows.pairwise_ne_toList s.leases)
    fun _ hrow => Std.ExtTreeMap.mem_toList_iff_getElem?_eq_some.mp hrow

theorem expireAndReturn_ends (s : Session) (now : Int) :
    EndsLeases s (expireAndReturn s now) :=
  (expireLeases_ends s now).trans (returnExpiredItemsToOpen_ends _ _)

theorem claimLease_creates {s : Session} (item : Dict) {args : ClaimArgs}
    (hkeyed : LeasesKeyed s) (hfresh : FreshLeaseId s args.leaseId) :
    CreatesLeases (· = args.leaseId) s (claimLease s item args).1 := by
  have hexpire := expireLeases_ends s args.now
  have hfresh' := hexpire.fresh hkeyed (fun _ hnever => hnever) hfresh
  unfold claimLease
  simp only
  split
  · exact hexpire.creates _
  · split
    · exact hexpire.creates _
    · split
      · exact hexpire.creates _
      · split
        · exact hexpire.creates _
        · exact (hexpire.creates _).trans (.create hfresh' rfl rfl)

theorem submitLease_ends (s : Session) (leaseId : String) (args : SubmitArgs) :
    EndsLeases s (submitLease s leaseId args).1 := by
  have hraised : ∀ reasonCode detail lease,
      EndsLeases s (raiseSubmissionError s reasonCode detail lease args).1 :=
    fun _ _ _ => .recovery s _ _
  unfold submitLease
  split
  · exact .refl s
  · next lease hlease =>
    split
    · exact hraised _ _ _
    · split
      · exact hraised _ _ _
      · next hactive =>
        have hstatus : lease.status = .active := by simpa using hactive
        split
        · exact hraised _ _ _
        · split
          · exact hraised _ _ _
          · split
            · exact hraised _ _ _
            · split
              · let recovery := submissionRecovery s leaseId args
                refine (LeaseSteps.recovery s recovery args.now).trans (expireLease_ends
                  (s := appendLeaseRecoveryEvent s recovery args.now) hlease ?_ args.now)
                simp [Lease.isActive, hstatus, LeaseStatus.isActive]
              · split
                · exact hraised _ _ _
                · refine .move { lease with status := .submitted, submittedAt := some args.now }
                    "lease_submitted" args.now none hlease rfl rfl rfl ?_
                  exact ⟨rfl, hstatus ▸ .submit⟩

theorem acceptLease_ends (s : Session) (leaseId : String) (now : Int) :
    EndsLeases s (acceptLease s leaseId now).1 := by
  unfold acceptLease
  split
  · exact .refl s
  · next lease hlease =>
    split
    · exact .refl s
    · next hsubmitted =>
      refine .move { lease with status := .accepted, completedAt := some now } "lease_accepted" now
        none hlease rfl rfl rfl ?_
      exact ⟨rfl, not_not.mp hsubmitted ▸ .accept⟩

theorem submitAndAcceptLease_ends (s : Session) (leaseId : String) (args : SubmitArgs) :
    EndsLeases s (submitAndAcceptLease s leaseId args).1 := by
  have hsubmit := submitLease_ends s leaseId args
  unfold submitAndAcceptLease
  split
  · next submitted error heq =>
    rw [heq] at hsubmit
    exact hsubmit
  · next submitted lease heq =>
    rw [heq] at hsubmit
    exact hsubmit.trans (acceptLease_ends submitted leaseId args.now)

theorem releaseLease_ends (s : Session) (leaseId : String) (now : Int)
    (reason : Option String) : EndsLeases s (releaseLease s leaseId now reason).1 := by
  unfold releaseLease
  split
  · exact .refl s
  · next lease hlease =>
    split
    · exact .refl s
    · next hactive =>
      have hlive : lease.status.isActive = true := by simpa [Lease.isActive] using hactive
      exact .move { lease with status := .released, completedAt := some now, reason }
        "lease_released" now reason hlease rfl rfl rfl ⟨rfl, .release hlive⟩

theorem releaseClaimedLease_ends (s : Session) (leaseId : String) (now : Int)
    (reason : String) : EndsLeases s (releaseClaimedLease s leaseId now reason).1 := by
  have hrelease := releaseLease_ends s leaseId now (some reason)
  unfold releaseClaimedLease
  split
  · exact .refl s
  · split
    · exact .refl s
    · split
      · next released lease heq =>
        rw [heq] at hrelease
        exact hrelease.trans (returnExpiredItemsToOpen_ends released _)
      · next released error heq =>
        rw [heq] at hrelease
        exact hrelease

end GhAddressCr
