import GhAddressCr.BatchCompensation
import GhAddressCr.ClaimEligibility

/-!
# Rolling a one-shot claim back

A one-shot command that is rejected gives its lease back. It takes the lease for its own unless
the agent had it when the command looked, before the claim. Between the look and the claim
another process of the same agent may be granted a lease, and the claim hands out that one.
-/
namespace GhAddressCr

open PyText GithubThreadState RuntimeStore

/-- GitHub shows the thread as resolved. -/
def markedResolved (item : Dict) : Bool :=
  if item.has "isResolved" then (item.get "isResolved").truthy
  else (item.get "is_resolved").truthy

/-- The item may be claimed once it is returned. -/
def opensWhenReturned (item : Dict) : Bool :=
  if isGithubThreadItem item then !markedResolved item else !isStaleOrOutdatedGithubThread item

/-- What a returned item is read from. -/
theorem get_returned (item : Dict) {key : String}
    (hkey : key ∉ "state" :: "status" :: claimFields) :
    (clearClaimFields (returnItemToClaimableState item)).get key = item.get key := by
  simp only [Dict.get, getElem?_cleared_returned item hkey]

theorem has_returned (item : Dict) {key : String}
    (hkey : key ∉ "state" :: "status" :: claimFields) :
    (clearClaimFields (returnItemToClaimableState item)).has key = item.has key := by
  simp only [Dict.has, getElem?_cleared_returned item hkey]

/-- A returned item is open to claims unless it is marked resolved, or a stale finding. -/
theorem itemIsOpen_returned (item : Dict) :
    itemIsOpen (clearClaimFields (returnItemToClaimableState item)) = opensWhenReturned item := by
  have hkind : isGithubThreadItem (clearClaimFields (returnItemToClaimableState item)) =
      isGithubThreadItem item := by
    unfold isGithubThreadItem
    rw [get_returned item (by decide), get_returned item (by decide)]
  have hstate := get_state_cleared_returned item
  have hwords : ∀ state ∈ ["stale", "open"], (Value.str state).truthy = true ∧
      lower (strip state) = state ∧ lower state = state ∧ state ≠ "" ∧
      state ∈ githubThreadClaimableStates ∧ state ∉ githubThreadTerminalStates := by
    decide +kernel
  have hmem : (returnedClaimableState item).1 ∈ ["stale", "open"] := by
    unfold returnedClaimableState
    split <;> simp
  obtain ⟨htruthy, hstripped, hlower, hnonempty, hclaimable, hnot⟩ := hwords _ hmem
  have hnormalized : normalizedThreadState (clearClaimFields (returnItemToClaimableState item)) =
      (returnedClaimableState item).1 := by
    unfold normalizedThreadState
    rw [Dict.textOr, hstate, Value.orElse, if_pos htruthy, Value.text_str, hstripped]
    simp [hnonempty]
  have hresolved : isResolvedGithubThread (clearClaimFields (returnItemToClaimableState item)) =
      markedResolved item := by
    unfold isResolvedGithubThread markedResolved isTerminalGithubThread
    rw [has_returned item (by decide), has_returned item (by decide),
      get_returned item (by decide), get_returned item (by decide), hnormalized]
    split
    · rfl
    · split
      · rfl
      · next hhas =>
        have hmissing : item["is_resolved"]? = none :=
          Std.ExtTreeMap.getElem?_eq_none (by simpa [Dict.has] using hhas)
        have hnone : item.get "is_resolved" = .null := by
          simp [Dict.get, hmissing]
        rw [hnone]
        simpa using hnot
  unfold itemIsOpen opensWhenReturned
  rw [hkind]
  split
  · next hthread =>
    unfold isClaimableGithubThread
    rw [hkind, hthread, hresolved, hnormalized]
    simp [hnonempty, hclaimable]
  · rw [hstate, Value.orElse, if_pos htruthy, Value.text_str, hlower]
    simp only [List.contains_iff_mem.mpr hclaimable, Bool.true_and]
    unfold returnedClaimableState
    split
    · next hstale => simp [hstale]
    · next hfresh => simp [hfresh]

theorem releaseClaimedLease_touches {s : Session} {leaseId : String} {lease : Lease}
    (hlease : s.leases[leaseId]? = some lease) (hactive : lease.isActive = true) (now : Int)
    (reason : String) :
    Touches s (releaseClaimedLease s leaseId now reason).1 leaseId
      (fun _ => releasedLease lease now (some reason)) lease.itemId
      (returnedItem lease.leaseId) := by
  have hrelease := releaseLease_touches hlease hactive now (some reason) lease.itemId
  have hreleased : releaseLease s leaseId now (some reason) =
      ((releaseLease s leaseId now (some reason)).1,
        .ok (releasedLease lease now (some reason))) := by
    simp [releaseLease, hlease, hactive, releasedLease]
  have hreturn : Touches (releaseLease s leaseId now (some reason)).1
      (returnExpiredItemsToOpen (releaseLease s leaseId now (some reason)).1
        [releasedLease lease now (some reason)]) leaseId id lease.itemId
      (returnedItem lease.leaseId) := by
    refine ⟨fun key _ => by simp, fun key => by simp, fun key => ?_⟩
    rw [returnExpiredItemsToOpen_singleton]
    rfl
  have hvalue : (releaseClaimedLease s leaseId now reason).1 =
      returnExpiredItemsToOpen (releaseLease s leaseId now (some reason)).1
        [releasedLease lease now (some reason)] := by
    unfold releaseClaimedLease
    rw [hlease]
    simp only [hactive, Bool.not_true, Bool.false_eq_true, if_false]
    rw [hreleased]
  rw [hvalue]
  exact hrelease.trans hreturn

/-- A lease that is missing or not active is left alone. -/
theorem releaseClaimedLease_inactive {s : Session} {leaseId : String}
    (h : ∀ lease, s.leases[leaseId]? = some lease → lease.isActive = false) (now : Int)
    (reason : String) : (releaseClaimedLease s leaseId now reason).1 = s := by
  unfold releaseClaimedLease
  split
  · rfl
  · next lease hlease =>
    rw [if_pos (by rw [h lease hlease]; rfl)]

/-- The lease that a one-shot command holds, and what it found before its claim. -/
def Activity.held? : Activity → Option (Option String × String × Acquisition)
  | .holding preexisting leaseId acquisition => some (preexisting, leaseId, acquisition)
  | _ => none

theorem Activity.held?_eq_some {activity : Activity} {preexisting : Option String}
    {leaseId : String} {acquisition : Acquisition}
    (h : activity.held? = some (preexisting, leaseId, acquisition)) :
    activity = .holding preexisting leaseId acquisition := by
  cases activity with
  | holding known id acquired =>
      simp only [held?, Option.some.injEq, Prod.mk.injEq] at h
      rw [h.1, h.2.1, h.2.2]
  | _ => cases h

namespace CommandRun

variable {P : Type} [DecidableEq P]

/-- Only an active lease that the call has created is released, and its item may be claimed
again. -/
structure RollbackSafe (leaseId : String) (acquisition : Acquisition) (before after : Session) :
    Prop where
  leases : ∀ (id : String) (lease : Lease), before.leases[id]? = some lease →
    after.leases[id]? = some lease ∨
      id = leaseId ∧ acquisition = .created ∧ lease.isActive = true
  claimable : ∀ lease lease' : Lease, before.leases[leaseId]? = some lease →
    after.leases[leaseId]? = some lease' → lease' ≠ lease →
      Unheld after lease.itemId ∧ Claimable after lease.itemId

/-- The lease was there when the command looked, or has ended since, or the call has created it
on an item that opens without it. -/
def RollsBackOwn (preexisting : Option String) (leaseId : String) (acquisition : Acquisition)
    (s : Session) : Prop :=
  preexisting = some leaseId ∨ ∀ lease, s.leases[leaseId]? = some lease →
    lease.isActive = true → acquisition = .created ∧
      ∃ item, s.items[lease.itemId]? = some item ∧ opensWhenReturned item = true

theorem rollback_commits {run run' : CommandRun P} {p : P} {preexisting : Option String}
    {leaseId : String} {acquisition : Acquisition} {now : Int} {reasonCode : String}
    (h : run.next (.rollback p now reasonCode) = some run')
    (hholds : run.activity p = .holding preexisting leaseId acquisition) :
    committedView (rollbackOneShot run.session preexisting leaseId now reasonCode) =
      .ok run'.session := by
  simp only [next, hholds] at h
  exact (commit_map h).1

/-- A rollback that releases nothing is safe. -/
theorem RollbackSafe.of_same {leaseId : String} {acquisition : Acquisition}
    {before after : Session} (h : after.leases = before.leases) :
    RollbackSafe leaseId acquisition before after := by
  constructor
  · intro id lease hlease
    rw [h]
    exact Or.inl hlease
  · intro lease lease' hlease hlease' hne
    rw [h, hlease] at hlease'
    exact absurd (Option.some.inj hlease').symm hne

/-- What the release of an active lease leaves in the committed session. -/
theorem released_view {before after : Session} {leaseId : String} {lease : Lease} {now : Int}
    {reason : String} (hprojected : Projected before)
    (hlease : before.leases[leaseId]? = some lease) (hactive : lease.isActive = true)
    (hview : committedView (releaseClaimedLease before leaseId now reason).1 = .ok after) :
    (∀ id : String, after.leases[id]? =
        if id = leaseId then some (releasedLease lease now (some reason))
        else before.leases[id]?) ∧
      Unheld after lease.itemId ∧
      after.items[lease.itemId]? = (before.items[lease.itemId]?).map fun item =>
        clearClaimFields (returnItemToClaimableState item) := by
  obtain ⟨hnodup, rfl⟩ := committedView_ok.mp hview
  have ht := releaseClaimedLease_touches hlease hactive now reason
  have hended : activeLeaseOf (releaseClaimedLease before leaseId now reason).1.leases
      lease.itemId = none := by
    rw [activeLeaseOf_ended hprojected.oneActive hnodup hlease hactive rfl ht, if_pos rfl]
  refine ⟨fun id => ?_, (activeLeaseOf_eq_none hnodup).mp hended, ?_⟩
  · show (releaseClaimedLease before leaseId now reason).1.leases[id]? = _
    rw [ht.leases]
    split
    · next hid =>
      rw [hid, hlease]
      rfl
    · rfl
  · simp only [getElem?_projectedItems]
    rw [hended, ht.items, if_pos rfl]
    cases hitem : before.items[lease.itemId]? with
    | none => rfl
    | some item =>
        have hclaim : activeLeaseOf before.leases lease.itemId = some lease :=
          (activeLeaseOf_eq_some hprojected.oneActive).mpr ⟨leaseId, hlease, hactive, rfl⟩
        have hshown : item.get "active_lease_id" = .str lease.leaseId := by
          rw [← hprojected.item hitem, hclaim]
          simp [projectClaim]
        have hunclaimed : (clearClaimFields (returnItemToClaimableState item)).get "state" ≠
            .str "claimed" := by
          rw [get_state_cleared_returned]
          simpa using returnedClaimableState_ne_claimed item
        simp only [Option.map_some, returnedItem, if_pos hshown]
        rw [projectClaim_none_unclaimed hunclaimed]
        exact congrArg some (clearedClaim_idem _)

/-- A rollback is safe exactly when the lease it takes for its own is its own, and the item
opens without it. -/
theorem rollback_safe_iff {run run' : CommandRun P} {p : P} {preexisting : Option String}
    {leaseId : String} {acquisition : Acquisition} {now : Int} {reasonCode : String}
    (hreach : commands.Reachable run)
    (hholds : run.activity p = .holding preexisting leaseId acquisition)
    (h : run.next (.rollback p now reasonCode) = some run') :
    RollbackSafe leaseId acquisition run.session run'.session ↔
      RollsBackOwn preexisting leaseId acquisition run.session := by
  have hinv := batchInvariant hreach
  have hview := rollback_commits h hholds
  unfold rollbackOneShot at hview
  by_cases hknown : preexisting = some leaseId
  · rw [if_pos hknown] at hview
    obtain ⟨-, hsession⟩ := committedView_ok.mp hview
    exact ⟨fun _ => Or.inl hknown, fun _ => .of_same (by rw [hsession])⟩
  rw [if_neg hknown] at hview
  by_cases hactive : ∃ lease, run.session.leases[leaseId]? = some lease ∧ lease.isActive = true
  · obtain ⟨lease, hlease, hactive⟩ := hactive
    obtain ⟨hleases, hunheld, hitem⟩ :=
      released_view hinv.projected hlease hactive hview
    have hreleased : run'.session.leases[leaseId]? =
        some (releasedLease lease now (some ("action_rejected:" ++ reasonCode))) := by
      rw [hleases, if_pos rfl]
    have hne : releasedLease lease now (some ("action_rejected:" ++ reasonCode)) ≠ lease := by
      intro hsame
      rw [← hsame] at hactive
      cases hactive
    have hopens : Claimable run'.session lease.itemId ↔
        ∃ item, run.session.items[lease.itemId]? = some item ∧ opensWhenReturned item = true := by
      unfold Claimable
      rw [hitem]
      simp [itemIsOpen_returned]
    constructor
    · intro hsafe
      refine Or.inr fun held hheld _ => ?_
      rw [hlease] at hheld
      obtain rfl := Option.some.inj hheld
      refine ⟨?_, hopens.mp (hsafe.claimable lease _ hlease hreleased hne).2⟩
      rcases hsafe.leases leaseId lease hlease with hkept | ⟨-, hcreated, -⟩
      · rw [hreleased] at hkept
        exact absurd (Option.some.inj hkept) hne
      · exact hcreated
    · intro hown
      obtain ⟨hcreated, hopen⟩ := (hown.resolve_left hknown) lease hlease hactive
      constructor
      · intro id held hheld
        by_cases hid : id = leaseId
        · subst hid
          rw [hlease] at hheld
          obtain rfl := Option.some.inj hheld
          exact Or.inr ⟨rfl, hcreated, hactive⟩
        · rw [hleases, if_neg hid]
          exact Or.inl hheld
      · intro held lease' hheld _ _
        rw [hlease] at hheld
        obtain rfl := Option.some.inj hheld
        exact ⟨hunheld, hopens.mpr hopen⟩
  · have hended : ∀ lease, run.session.leases[leaseId]? = some lease → lease.isActive = false :=
      fun lease hlease => Bool.not_eq_true _ ▸ fun hlive => hactive ⟨lease, hlease, hlive⟩
    rw [releaseClaimedLease_inactive hended] at hview
    obtain ⟨-, hsession⟩ := committedView_ok.mp hview
    refine ⟨fun _ => Or.inr fun lease hlease hlive => ?_, fun _ => .of_same (by rw [hsession])⟩
    rw [hended lease hlease] at hlive
    cases hlive

def oneShotClaim (p : Bool) : List (CommandLabel Bool) :=
  [.beginOneShot p "github-thread:T" "agent",
    .claimOneShot p (briefClaim "github-thread:T" "fix" 0)]

/-- The request of the claim is in its file. -/
def briefFiles : FileSystem :=
  Std.ExtTreeMap.ofList [("/w/r.json", .json (briefRequest "github-thread:T").toValue)] compare

/-- A call that is alone with its item gives its lease back. -/
theorem rollback_safe_iff_alone : ∃ (run run' : CommandRun Bool),
    run.session.leases["l"]?.any (·.status = .active) ∧
      run'.session.leases["l"]?.any (·.status = .released) ∧
      (RollbackSafe "l" .created run.session run'.session ↔
        RollsBackOwn none "l" .created run.session) := by
  have hrun : (TransitionSystem.run next (newRun Bool)
      (.perform (.refresh [reviewThread] none) :: oneShotClaim true)).any (fun run =>
        run.session.leases["l"]?.any (·.status = .active) &&
          (run.activity true).held? = some (none, "l", .created) &&
          (run.next (.rollback true 1 "ACTION_REJECTED")).any fun run' =>
            run'.session.leases["l"]?.any (·.status = .released)) = true := by decide +kernel
  obtain ⟨run, hreached, hends⟩ := (Option.any_eq_true _ _).mp hrun
  simp only [Bool.and_eq_true, decide_eq_true_eq] at hends
  obtain ⟨⟨hactive, hholds⟩, hends⟩ := hends
  obtain ⟨run', hrun', hreleased⟩ := (Option.any_eq_true _ _).mp hends
  exact ⟨run, run', hactive, hreleased, rollback_safe_iff
    (TransitionSystem.reachable_of_run _ (.start newRun_fresh) hreached)
    (Activity.held?_eq_some hholds) hrun'⟩

/-- Both processes look before either claims; the second is handed the lease of the first, and
gives it up. -/
theorem rollback_safe_iff_raced : ∃ (run run' : CommandRun Bool),
    commands.Reachable run ∧ run.activity true = .holding none "l" .created ∧
      run.activity false = .holding none "l" .reentered ∧
      run.next (.rollback false 1 "ACTION_REJECTED") = some run' ∧
      ¬ RollbackSafe "l" .reentered run.session run'.session := by
  have hrun : (TransitionSystem.run next (newRun Bool)
      ([.perform (.refresh [reviewThread] none), .beginOneShot false "github-thread:T" "agent"] ++
        oneShotClaim true ++ [.reenterOneShot false
          { ClaimEligibility.threadIssue "agent" "2" with itemId := "github-thread:T" }
          briefFiles])).any (fun run =>
        (run.activity true).held? = some (none, "l", .created) &&
          (run.activity false).held? = some (none, "l", .reentered) &&
          run.session.leases["l"]?.any (·.status = .active) &&
          (run.next (.rollback false 1 "ACTION_REJECTED")).any fun run' =>
            run'.session.leases["l"]?.any (·.status = .released)) = true := by decide +kernel
  obtain ⟨run, hreached, hends⟩ := (Option.any_eq_true _ _).mp hrun
  simp only [Bool.and_eq_true, decide_eq_true_eq] at hends
  obtain ⟨⟨⟨hfirst, hsecond⟩, hactive⟩, hends⟩ := hends
  obtain ⟨run', hrun', hreleased⟩ := (Option.any_eq_true _ _).mp hends
  obtain ⟨lease, hlease, hactive⟩ := (Option.any_eq_true _ _).mp hactive
  obtain ⟨lease', hlease', hreleased⟩ := (Option.any_eq_true _ _).mp hreleased
  refine ⟨run, run', TransitionSystem.reachable_of_run _ (.start newRun_fresh) hreached,
    Activity.held?_eq_some hfirst, Activity.held?_eq_some hsecond, hrun', fun hsafe => ?_⟩
  rcases hsafe.leases "l" lease hlease with hkept | ⟨-, hcreated, -⟩
  · rw [hlease'] at hkept
    obtain rfl := Option.some.inj hkept
    simp only [decide_eq_true_eq] at hactive hreleased
    rw [hactive] at hreleased
    cases hreleased
  · cases hcreated

end CommandRun
end GhAddressCr
