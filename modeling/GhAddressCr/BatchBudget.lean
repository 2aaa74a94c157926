import GhAddressCr.RestingCommands
import Mathlib.Data.List.Perm.Subperm

/-!
# The budget of a batch claim

The leases that a batch creates are bounded by what the agent holds when the transaction
reads the session, less the leases that have run out by then. No lease runs out while the
batch is made up, since every one that is due was ended before it began.
-/
namespace GhAddressCr

open PyText GithubThreadState RuntimeStore

/-- What an expiry makes of a lease. -/
def dueExpired (now : Int) (lease : Lease) : Lease :=
  if lease.isActive && isExpired lease now then expiredLease lease now else lease

theorem expireLeaseIfDue_leases (now : Int) (acc : Session × List Lease) (row : String × Lease)
    (hrow : acc.1.leases[row.1]? = some row.2) :
    (expireLeaseIfDue now acc row).1.leases = acc.1.leases.insert row.1 (dueExpired now row.2) := by
  unfold expireLeaseIfDue dueExpired
  split
  · simp
  · apply Std.ExtTreeMap.ext_getElem?
    intro key
    by_cases hkey : row.1 = key
    · subst hkey
      simp [hrow]
    · simp [Std.ExtTreeMap.getElem?_insert, hkey]

/-- An expiry ends the leases that are due, and keeps every other row. -/
theorem getElem?_expireLeases (s : Session) (now : Int) (key : String) :
    (expireLeases s now).1.leases[key]? = s.leases[key]?.map (dueExpired now) := by
  have hrows : ∀ (rows : List (String × Lease)) (acc : Session × List Lease),
      rows.Pairwise (fun a b => a.1 ≠ b.1) → (∀ row ∈ rows, acc.1.leases[row.1]? = some row.2) →
      ∀ row : Option Lease, (∀ lease, row = some lease ↔ (key, lease) ∈ rows) →
        (rows.foldl (expireLeaseIfDue now) acc).1.leases[key]? =
          (row.map (dueExpired now)).or acc.1.leases[key]? := by
    intro rows
    induction rows with
    | nil =>
        intro acc _ _ row hrow
        have hnone : row = none := by
          rw [Option.eq_none_iff_forall_ne_some]
          exact fun lease hlease => List.not_mem_nil ((hrow lease).mp hlease)
        simp [hnone]
    | cons head rows ih =>
        intro acc hdistinct hheld row hrow
        obtain ⟨hhead, hrest⟩ := List.pairwise_cons.mp hdistinct
        have hleases := expireLeaseIfDue_leases now acc head (hheld head List.mem_cons_self)
        have hheld' : ∀ other ∈ rows,
            (expireLeaseIfDue now acc head).1.leases[other.1]? = some other.2 := by
          intro other hother
          rw [hleases, KeyedRows.getElem?_insert_of_ne _ _ (hhead other hother)]
          exact hheld other (List.mem_cons_of_mem head hother)
        rw [List.foldl_cons]
        by_cases hkey : head.1 = key
        · have hnone : ∀ lease, none = some lease ↔ (key, lease) ∈ rows := by
            intro lease
            have hmem : (key, lease) ∉ rows := fun hmem => hhead _ hmem hkey
            simp [hmem]
          have hfound : row = some head.2 :=
            (hrow head.2).mpr (by rw [← hkey]; exact List.mem_cons_self)
          rw [ih _ hrest hheld' none hnone, hleases, hfound, hkey]
          simp
        · have hrow' : ∀ lease, row = some lease ↔ (key, lease) ∈ rows := by
            intro lease
            rw [hrow lease, List.mem_cons, or_iff_right]
            rintro rfl
            exact hkey rfl
          rw [ih _ hrest hheld' row hrow', hleases, KeyedRows.getElem?_insert_of_ne _ _ hkey]
  have hstart := hrows s.leases.toList (s, []) (KeyedRows.pairwise_ne_toList _)
    (fun row => Std.ExtTreeMap.mem_toList_iff_getElem?_eq_some.mp) s.leases[key]?
    fun lease => Std.ExtTreeMap.mem_toList_iff_getElem?_eq_some.symm
  rw [expireLeases, hstart]
  cases s.leases[key]? <;> rfl

/-- No active lease has run out. -/
def Undue (leases : Rows Lease) (now : Int) : Prop :=
  ∀ (key : String) (lease : Lease), leases[key]? = some lease → lease.isActive = true →
    isExpired lease now = false

theorem expireLeases_undue (s : Session) (now : Int) : Undue (expireLeases s now).1.leases now := by
  intro key lease hlease hactive
  rw [getElem?_expireLeases] at hlease
  obtain ⟨held, -, rfl⟩ := Option.map_eq_some_iff.mp hlease
  unfold dueExpired at hactive ⊢
  split at hactive
  · cases hactive
  · next hdue =>
    rw [if_neg hdue]
    simpa [hactive] using hdue

/-- Where nothing is due, an expiry changes nothing. -/
theorem expireLeases_of_undue {s : Session} {now : Int} (h : Undue s.leases now) :
    expireLeases s now = (s, []) := by
  have hrows : ∀ rows : List (String × Lease),
      (∀ row ∈ rows, (row.2.isActive && isExpired row.2 now) = false) →
      rows.foldl (expireLeaseIfDue now) (s, []) = (s, []) := by
    intro rows hdue
    induction rows with
    | nil => rfl
    | cons row rows ih =>
        have hstep : expireLeaseIfDue now (s, []) row = (s, []) := by
          simp [expireLeaseIfDue, hdue row List.mem_cons_self]
        rw [List.foldl_cons, hstep]
        exact ih fun other hother => hdue other (List.mem_cons_of_mem row hother)
  apply hrows
  intro row hrow
  by_cases hactive : row.2.isActive = true
  · simp [hactive, h row.1 row.2 (Std.ExtTreeMap.mem_toList_iff_getElem?_eq_some.mp hrow) hactive]
  · simp [hactive]

theorem expireAndReturn_leases (s : Session) (now : Int) :
    (expireAndReturn s now).leases = (expireLeases s now).1.leases := by
  simp [expireAndReturn]

theorem expireAndReturn_undue (s : Session) (now : Int) :
    Undue (expireAndReturn s now).leases now := by
  rw [expireAndReturn_leases]
  exact expireLeases_undue s now

/-- The agent's active fixer leases that have not run out. -/
def undueFixerCount (session : Session) (agentId : String) (now : Int) : Nat :=
  (session.leases.toList.filter fun row =>
    row.2.status == .active && row.2.role == .fixer && row.2.agentId == agentId &&
      !isExpired row.2 now).length

/-- What the agent holds once the leases that are due have ended. -/
theorem activeFixerCount_expireAndReturn (s : Session) (agentId : String) (now : Int) :
    activeFixerCount (expireAndReturn s now) agentId = undueFixerCount s agentId now := by
  have hleases : (expireAndReturn s now).leases = s.leases.map fun _ => dueExpired now := by
    apply Std.ExtTreeMap.ext_getElem?
    intro key
    rw [expireAndReturn_leases, getElem?_expireLeases, Std.ExtTreeMap.getElem?_map]
  unfold activeFixerCount undueFixerCount
  rw [hleases, Std.ExtTreeMap.toList_map, List.filter_map, List.length_map]
  refine congrArg List.length (List.filter_congr fun row _ => ?_)
  simp only [Function.comp_apply, dueExpired]
  cases hdue : isExpired row.2 now with
  | false => simp
  | true =>
      simp only [Bool.and_true, Bool.not_true, Bool.and_false]
      by_cases hactive : row.2.isActive = true
      · simp [hactive, expiredLease]
      · have hended : row.2.status ≠ .active := fun hstatus => hactive (by
          simp [Lease.isActive, hstatus, LeaseStatus.isActive])
        simp [hactive, hended]

/-- The rows agree, but for the request that the lease is for. -/
def SameGrant (lease lease' : Lease) : Prop :=
  lease' = { lease with
    requestId := lease'.requestId, requestHash := lease'.requestHash
    requestPath := lease'.requestPath }

theorem SameGrant.refl (lease : Lease) : SameGrant lease lease := rfl

theorem SameGrant.trans {lease lease' lease'' : Lease} (h : SameGrant lease lease')
    (h' : SameGrant lease' lease'') : SameGrant lease lease'' := by
  calc
    lease'' = { lease' with
        requestId := lease''.requestId, requestHash := lease''.requestHash
        requestPath := lease''.requestPath } := h'
    _ = _ := by rw [h]

theorem SameGrant.facts {lease lease' : Lease} (h : SameGrant lease lease') (now : Int) :
    lease'.isActive = lease.isActive ∧ isExpired lease' now = isExpired lease now ∧
      lease'.leaseId = lease.leaseId := by
  unfold SameGrant at h
  rw [h]
  exact ⟨rfl, rfl, rfl⟩

/-- An active fixer lease of the agent on the item. -/
structure HeldBy (agentId itemId : String) (lease : Lease) : Prop where
  active : lease.status = .active
  fixer : lease.role = .fixer
  agent : lease.agentId = agentId
  item : lease.itemId = itemId

theorem HeldBy.isActive {agentId itemId : String} {lease : Lease}
    (h : HeldBy agentId itemId lease) : lease.isActive = true := by
  simp [Lease.isActive, h.active, LeaseStatus.isActive]

theorem SameGrant.heldBy_iff {lease lease' : Lease} (h : SameGrant lease lease')
    {agentId itemId : String} : HeldBy agentId itemId lease' ↔ HeldBy agentId itemId lease := by
  unfold SameGrant at h
  rw [h]
  exact ⟨fun held => ⟨held.active, held.fixer, held.agent, held.item⟩,
    fun held => ⟨held.active, held.fixer, held.agent, held.item⟩⟩

theorem HeldBy.row {s : Session} {agentId itemId key : String} {lease : Lease}
    (hlease : s.leases[key]? = some lease) (h : HeldBy agentId itemId lease) :
    activeFixerRow s itemId agentId ≠ none := by
  intro hnone
  have hmem := Std.ExtTreeMap.mem_toList_iff_getElem?_eq_some.mpr hlease
  have hother := List.find?_eq_none.mp hnone (key, lease) hmem
  simp [h.item, h.active, h.fixer, h.agent] at hother

/-- A claim that is granted where nothing is due. -/
theorem claimLease_granted {s s' : Session} {item : Dict} {args : ClaimArgs} {lease : Lease}
    (hundue : Undue s.leases args.now) (h : claimLease s item args = (s', .ok lease)) :
    ∃ role keys, AgentRole.parse args.role = some role ∧
      lease = makeLease (item.get "item_id").text role keys args ∧
      s'.leases = s.leases.insert lease.leaseId lease ∧ s'.items = s.items := by
  unfold claimLease at h
  simp only [expireLeases_of_undue hundue] at h
  split_ifs at h
  · cases h
  · split at h
    · cases h
    · next keys _ =>
      split at h
      · cases h
      · split at h
        · cases h
        · next role hrole =>
          obtain ⟨rfl, hlease⟩ := Prod.mk.inj h
          obtain rfl := Except.ok.inj hlease
          exact ⟨role, keys, hrole, rfl, rfl, rfl⟩

/-- The items that the session has are still there. -/
def KeepsItems (s s' : Session) : Prop :=
  ∀ id : String, s.items[id]?.isSome = true → s'.items[id]?.isSome = true

theorem keepsItems_insert {s s' : Session} {itemId : String} {item : Dict}
    (h : s'.items = s.items.insert itemId item) : KeepsItems s s' := by
  intro id hid
  rw [h, Std.ExtTreeMap.getElem?_insert]
  split
  · rfl
  · exact hid

theorem modifyItem_keepsItems (s : Session) (itemId : String) (f : Dict → Dict) :
    KeepsItems s (s.modifyItem itemId f) := by
  unfold Session.modifyItem
  split
  · exact keepsItems_insert rfl
  · exact fun _ hid => hid

theorem ensureBatchClassification_keepsItems (s : Session) (args : BatchArgs) (itemId : String)
    (item : Dict) : KeepsItems s (ensureBatchClassification s args itemId item).1 := by
  unfold ensureBatchClassification
  split
  · exact fun _ hid => hid
  · exact keepsItems_insert rfl

/-- What is made of a target item: it is passed over, the agent's lease on it is entered again,
or it is leased anew. -/
inductive BatchStep (args : BatchArgs) (itemId : String) (progress progress' : BatchProgress) :
    Prop where
  | passed : progress' = progress →
      (progress.session.items[itemId]?.isSome = true →
        activeFixerRow progress.session itemId args.agentId = none) →
      BatchStep args itemId progress progress'
  | reentered (key : String) (existing lease : Lease) (plan : ArtifactPlan) :
      progress.session.leases[key]? = some existing → HeldBy args.agentId itemId existing →
      SameGrant existing lease →
      progress'.session.leases = progress.session.leases.insert key lease →
      progress'.remaining = progress.remaining → progress'.plans = progress.plans ++ [plan] →
      plan.acquisition = .reentered → plan.itemId = itemId → plan.leaseId = existing.leaseId →
      BatchStep args itemId progress progress'
  | created (lease : Lease) (plan : ArtifactPlan) :
      HeldBy args.agentId itemId lease → isExpired lease args.now = false →
      lease.leaseId = args.leaseId itemId →
      progress'.session.leases = progress.session.leases.insert (args.leaseId itemId) lease →
      activeFixerRow progress.session itemId args.agentId = none →
      progress.remaining = progress'.remaining + 1 → progress'.plans = progress.plans ++ [plan] →
      plan.acquisition = .created → plan.itemId = itemId → plan.leaseId = args.leaseId itemId →
      BatchStep args itemId progress progress'

theorem reconcileExistingLease_rewrites {s : Session} {args : BatchArgs} {itemId key : String}
    {item : Dict} {existing : Lease} {row : BatchRow} (hitem : s.items[itemId]? = some item)
    (h : reconcileExistingLease s args itemId item key existing = .ok row) :
    KeepsItems s row.session ∧ (∃ lease, SameGrant existing lease ∧
      row.session.leases = s.leases.insert key lease) ∧ row.plan.acquisition = .reentered ∧
      row.plan.itemId = itemId ∧ row.plan.leaseId = existing.leaseId := by
  obtain ⟨-, hleases, -⟩ := ensureBatchClassification_letsRest args hitem
  have hkeeps := ensureBatchClassification_keepsItems s args itemId item
  unfold reconcileExistingLease at h
  simp only at h
  split at h
  · cases h
  · split at h
    · cases h
    · obtain rfl := Except.ok.inj h
      refine ⟨hkeeps, ⟨_, ?_, by rw [hleases]⟩, rfl, rfl, rfl⟩
      unfold SameGrant
      rfl

theorem leaseNewGithubThread_leases {s : Session} {args : BatchArgs} {itemId : String}
    {item : Dict} {row : BatchRow} (hitem : s.items[itemId]? = some item)
    (hid : item.get "item_id" = .str itemId) (hundue : Undue s.leases args.now)
    (h : leaseNewGithubThread s args itemId item = .ok (some row)) :
    KeepsItems s row.session ∧ (∃ lease, HeldBy args.agentId itemId lease ∧
      isExpired lease args.now = false ∧ lease.leaseId = args.leaseId itemId ∧
      row.session.leases = s.leases.insert (args.leaseId itemId) lease) ∧
      row.plan.acquisition = .created ∧ row.plan.itemId = itemId ∧
      row.plan.leaseId = args.leaseId itemId := by
  obtain ⟨-, hleases, hkeepsId⟩ := ensureBatchClassification_letsRest args hitem
  have hkeeps := ensureBatchClassification_keepsItems s args itemId item
  unfold leaseNewGithubThread at h
  split at h
  · cases h
  · simp only at h
    repeat' split at h
    all_goals simp only [reduceCtorEq, Except.ok.injEq, Option.some.injEq] at h
    next claimed lease hclaim =>
      subst h
      obtain ⟨role, keys, hrole, hlease, hinsert, hitems⟩ :=
        claimLease_granted (by rw [hleases]; exact hundue) hclaim
      have hfixer : role = .fixer := by
        have hparsed : AgentRole.parse "fixer" = some role := hrole
        exact (Option.some.inj ((show AgentRole.parse "fixer" = some .fixer by decide).symm.trans
          hparsed)).symm
      have hitemId : lease.itemId = itemId := by
        rw [hlease]
        show (((ensureBatchClassification s args itemId item).2.1).get "item_id").text = itemId
        rw [hkeepsId, hid, Value.text_str]
      refine ⟨fun id hsome => ?_, ⟨lease, ⟨?_, ?_, ?_, hitemId⟩, ?_, ?_, ?_⟩, rfl, rfl, rfl⟩
      · refine modifyItem_keepsItems _ _ _ id ?_
        rw [hitems]
        exact hkeeps id hsome
      · rw [hlease]; rfl
      · rw [hlease]; exact hfixer
      · rw [hlease]; rfl
      · rw [hlease]
        show decide (args.now + 3600 * 1000000 ≤ args.now) = false
        exact decide_eq_false (by omega)
      · rw [hlease]; rfl
      · rw [modifyItem_leases, hinsert, hleases]
        rw [hlease]
        rfl

theorem claimBatchItem_steps {args : BatchArgs} {progress progress' : BatchProgress}
    {itemId : String} (hitems : ItemsKeyed progress.session)
    (hundue : Undue progress.session.leases args.now)
    (h : claimBatchItem args progress itemId = .ok progress') :
    BatchStep args itemId progress progress' ∧ KeepsItems progress.session progress'.session := by
  unfold claimBatchItem at h
  split at h
  · next hnone =>
    obtain rfl := Except.ok.inj h
    exact ⟨.passed rfl (by simp [hnone]), fun _ hid => hid⟩
  · next item hitem =>
    split at h
    · next key existing hrow =>
      obtain ⟨row, hreconcile, rfl⟩ := exceptMap_ok.mp h
      obtain ⟨hlease, hid, hstatus, hrole, hagent⟩ := activeFixerRow_some hrow
      obtain ⟨hkeeps, ⟨lease, hgrant, hleases⟩, hacquired, hplanItem, hplanLease⟩ :=
        reconcileExistingLease_rewrites hitem hreconcile
      exact ⟨.reentered key existing lease row.plan hlease ⟨hstatus, hrole, hagent, hid⟩ hgrant
        hleases rfl rfl hacquired hplanItem hplanLease, hkeeps⟩
    · next hrow =>
      split at h
      · obtain rfl := Except.ok.inj h
        exact ⟨.passed rfl fun _ => hrow, fun _ hid => hid⟩
      · next hremaining =>
        obtain ⟨row?, hlease, rfl⟩ := exceptMap_ok.mp h
        cases row? with
        | none => exact ⟨.passed rfl fun _ => hrow, fun _ hid => hid⟩
        | some row =>
            obtain ⟨hkeeps, ⟨lease, hheld, hlasts, hid, hleases⟩, hacquired, hplanItem,
              hplanLease⟩ :=
              leaseNewGithubThread_leases hitem (hitems itemId item hitem) hundue hlease
            refine ⟨.created lease row.plan hheld hlasts hid hleases hrow ?_ rfl hacquired hplanItem
              hplanLease, hkeeps⟩
            show progress.remaining = progress.remaining - 1 + 1
            omega

/-- What a batch has done to the leases when it is done with some of its items. -/
structure BatchHeld (args : BatchArgs) (current : Session) (progress : BatchProgress)
    (finished : List String) : Prop where
  undue : Undue progress.session.leases args.now
  budget : progress.remaining +
    (progress.plans.filter fun plan => plan.acquisition == .created).length =
      maxParallelClaims - activeFixerCount current args.agentId
  kept : ∀ (key : String) (lease : Lease), current.leases[key]? = some lease →
    ∃ lease', progress.session.leases[key]? = some lease' ∧ SameGrant lease lease'
  origin : ∀ (key : String) (lease : Lease), progress.session.leases[key]? = some lease →
    (∃ held, current.leases[key]? = some held ∧ SameGrant held lease) ∨
      ∃ plan ∈ progress.plans, plan.acquisition = .created ∧ plan.leaseId = key ∧
        HeldBy args.agentId plan.itemId lease
  targeted : ∀ plan ∈ progress.plans, plan.itemId ∈ finished
  created : ∀ plan ∈ progress.plans, plan.acquisition = .created →
    plan.leaseId = args.leaseId plan.itemId ∧ current.leases[plan.leaseId]? = none ∧
      ∃ lease, progress.session.leases[plan.leaseId]? = some lease ∧
        lease.leaseId = plan.leaseId ∧ HeldBy args.agentId plan.itemId lease
  reentered : ∀ plan ∈ progress.plans, plan.acquisition = .reentered →
    ∃ (key : String) (lease : Lease), current.leases[key]? = some lease ∧
      lease.leaseId = plan.leaseId ∧ HeldBy args.agentId plan.itemId lease
  covered : ∀ itemId ∈ finished, ∀ (key : String) (lease : Lease),
    current.leases[key]? = some lease → HeldBy args.agentId itemId lease →
      ∃ plan ∈ progress.plans, plan.acquisition = .reentered ∧ plan.itemId = itemId ∧
        plan.leaseId = lease.leaseId

namespace BatchHeld

variable {args : BatchArgs} {current : Session} {progress progress' : BatchProgress}
  {finished : List String} {itemId : String}

/-- The id drawn for an item to come is not taken. -/
theorem unused (hold : BatchHeld args current progress finished)
    (hfresh : current.leases[args.leaseId itemId]? = none)
    (hids : ∀ id ∈ finished, args.leaseId id ≠ args.leaseId itemId) :
    progress.session.leases[args.leaseId itemId]? = none := by
  rw [Option.eq_none_iff_forall_ne_some]
  intro lease hlease
  rcases hold.origin _ lease hlease with ⟨held, hheld, -⟩ | ⟨plan, hplan, hcreated, hid, -⟩
  · rw [hfresh] at hheld
    cases hheld
  · obtain ⟨hplanId, -⟩ := hold.created plan hplan hcreated
    exact hids plan.itemId (hold.targeted plan hplan) (hplanId.symm.trans hid)

/-- A lease of the agent on an item to come was there before the batch. -/
theorem held_before (hold : BatchHeld args current progress finished) (hitem : itemId ∉ finished)
    {key : String} {lease : Lease} (hlease : progress.session.leases[key]? = some lease)
    (hheld : HeldBy args.agentId itemId lease) :
    ∃ held, current.leases[key]? = some held ∧ SameGrant held lease := by
  rcases hold.origin key lease hlease with hbefore | ⟨plan, hplan, -, -, hplanHeld⟩
  · exact hbefore
  · have hsame : plan.itemId = itemId := hplanHeld.item.symm.trans hheld.item
    exact absurd (hsame ▸ hold.targeted plan hplan) hitem

theorem passed (hold : BatchHeld args current progress finished)
    (hrow : activeFixerRow progress.session itemId args.agentId = none) :
    BatchHeld args current progress (finished ++ [itemId]) where
  undue := hold.undue
  budget := hold.budget
  kept := hold.kept
  origin := hold.origin
  targeted plan hplan := List.mem_append_left _ (hold.targeted plan hplan)
  created := hold.created
  reentered := hold.reentered
  covered other hother key lease hlease hheld := by
    rcases List.mem_append.mp hother with hother | hother
    · exact hold.covered other hother key lease hlease hheld
    · obtain rfl := List.mem_singleton.mp hother
      obtain ⟨lease', hlease', hgrant⟩ := hold.kept key lease hlease
      exact absurd hrow (HeldBy.row hlease' (hgrant.heldBy_iff.mpr hheld))

theorem reenter (hold : BatchHeld args current progress finished)
    (hone : (activeItemIds current.leases).Nodup) (hitem : itemId ∉ finished)
    {key : String} {existing lease : Lease} {plan : ArtifactPlan}
    (hexisting : progress.session.leases[key]? = some existing)
    (hheld : HeldBy args.agentId itemId existing) (hgrant : SameGrant existing lease)
    (hleases : progress'.session.leases = progress.session.leases.insert key lease)
    (hremaining : progress'.remaining = progress.remaining)
    (hplans : progress'.plans = progress.plans ++ [plan])
    (hacquired : plan.acquisition = .reentered) (hplanItem : plan.itemId = itemId)
    (hplanLease : plan.leaseId = existing.leaseId) :
    BatchHeld args current progress' (finished ++ [itemId]) := by
  obtain ⟨held, hbefore, hheldGrant⟩ := hold.held_before hitem hexisting hheld
  have hrows : ∀ other, progress'.session.leases[other]? =
      if key = other then some lease else progress.session.leases[other]? := by
    intro other
    rw [hleases, Std.ExtTreeMap.getElem?_insert]
    simp only [Std.compare_eq_iff_eq]
  have hplan : ∀ other ∈ progress'.plans, other ∈ progress.plans ∨ other = plan := by
    simp [hplans]
  have hold' : ∀ other ∈ progress.plans, other ∈ progress'.plans := by
    intro other hother
    simp [hplans, hother]
  have hnew : plan ∈ progress'.plans := by simp [hplans]
  constructor
  · intro other row hrow hactive
    rw [hrows] at hrow
    split at hrow
    · obtain rfl := Option.some.inj hrow
      obtain ⟨hsameActive, hsameExpiry, -⟩ := hgrant.facts args.now
      rw [hsameExpiry]
      exact hold.undue key existing hexisting (hsameActive ▸ hactive)
    · exact hold.undue other row hrow hactive
  · rw [hremaining, hplans, List.filter_append]
    simpa [hacquired] using hold.budget
  · intro other row hrow
    rw [hrows]
    split
    · next hsame =>
      subst hsame
      rw [hbefore] at hrow
      obtain rfl := Option.some.inj hrow
      exact ⟨lease, rfl, hheldGrant.trans hgrant⟩
    · exact hold.kept other row hrow
  · intro other row hrow
    rw [hrows] at hrow
    split at hrow
    · next hsame =>
      subst hsame
      obtain rfl := Option.some.inj hrow
      exact Or.inl ⟨held, hbefore, hheldGrant.trans hgrant⟩
    · rcases hold.origin other row hrow with hkept | ⟨created, hmem, hcreated⟩
      · exact Or.inl hkept
      · exact Or.inr ⟨created, hold' created hmem, hcreated⟩
  · intro other hother
    rcases hplan other hother with hother | rfl
    · exact List.mem_append_left _ (hold.targeted other hother)
    · simp [hplanItem]
  · intro other hother hcreated
    rcases hplan other hother with hother | rfl
    · obtain ⟨hid, hnone, row, hrow⟩ := hold.created other hother hcreated
      refine ⟨hid, hnone, row, ?_⟩
      have hne : key ≠ other.leaseId := by
        rintro rfl
        rw [hbefore] at hnone
        cases hnone
      rw [hrows, if_neg hne]
      exact hrow
    · rw [hacquired] at hcreated
      cases hcreated
  · intro other hother hreentered
    rcases hplan other hother with hother | rfl
    · exact hold.reentered other hother hreentered
    · refine ⟨key, held, hbefore, ?_, ?_⟩
      · exact (hheldGrant.facts args.now).2.2.symm.trans hplanLease.symm
      · rw [hplanItem]
        exact hheldGrant.heldBy_iff.mp hheld
  · intro other hother otherKey row hrow hrowHeld
    rcases List.mem_append.mp hother with hother | hother
    · obtain ⟨found, hmem, hfound⟩ := hold.covered other hother otherKey row hrow hrowHeld
      exact ⟨found, hold' found hmem, hfound⟩
    · obtain rfl := List.mem_singleton.mp hother
      have hheldBefore := hheldGrant.heldBy_iff.mp hheld
      have hsame := nodup_activeItemIds.mp hone otherKey key row held hrow hbefore
        hrowHeld.isActive hheldBefore.isActive (hrowHeld.item.trans hheldBefore.item.symm)
      subst hsame
      rw [hrow] at hbefore
      obtain rfl := Option.some.inj hbefore
      exact ⟨plan, hnew, hacquired, hplanItem,
        hplanLease.trans (hheldGrant.facts args.now).2.2⟩

theorem create (hold : BatchHeld args current progress finished)
    (hfresh : current.leases[args.leaseId itemId]? = none)
    (hids : ∀ id ∈ finished, args.leaseId id ≠ args.leaseId itemId)
    {lease : Lease} {plan : ArtifactPlan} (hheld : HeldBy args.agentId itemId lease)
    (hlasts : isExpired lease args.now = false) (hid : lease.leaseId = args.leaseId itemId)
    (hleases : progress'.session.leases =
      progress.session.leases.insert (args.leaseId itemId) lease)
    (hrow : activeFixerRow progress.session itemId args.agentId = none)
    (hremaining : progress.remaining = progress'.remaining + 1)
    (hplans : progress'.plans = progress.plans ++ [plan])
    (hacquired : plan.acquisition = .created) (hplanItem : plan.itemId = itemId)
    (hplanLease : plan.leaseId = args.leaseId itemId) :
    BatchHeld args current progress' (finished ++ [itemId]) := by
  have hunused := hold.unused hfresh hids
  have hrows : ∀ other, progress'.session.leases[other]? =
      if args.leaseId itemId = other then some lease else progress.session.leases[other]? := by
    intro other
    rw [hleases, Std.ExtTreeMap.getElem?_insert]
    simp only [Std.compare_eq_iff_eq]
  have hkept : ∀ (other : String) (row : Lease), progress.session.leases[other]? = some row →
      progress'.session.leases[other]? = some row := by
    intro other row hother
    have hne : args.leaseId itemId ≠ other := by
      rintro rfl
      rw [hunused] at hother
      cases hother
    rw [hrows, if_neg hne]
    exact hother
  have hplan : ∀ other ∈ progress'.plans, other ∈ progress.plans ∨ other = plan := by
    simp [hplans]
  have hold' : ∀ other ∈ progress.plans, other ∈ progress'.plans := by
    intro other hother
    simp [hplans, hother]
  have hnew : plan ∈ progress'.plans := by simp [hplans]
  have hpassed := hold.passed hrow
  constructor
  · intro other row hother hactive
    rw [hrows] at hother
    split at hother
    · obtain rfl := Option.some.inj hother
      exact hlasts
    · exact hold.undue other row hother hactive
  · have hbudget := hold.budget
    rw [hplans, List.filter_append, List.length_append]
    simp only [hacquired, List.filter_cons, List.filter_nil, beq_self_eq_true, if_true,
      List.length_singleton]
    omega
  · intro other row hother
    obtain ⟨lease', hlease', hgrant⟩ := hold.kept other row hother
    exact ⟨lease', hkept other lease' hlease', hgrant⟩
  · intro other row hother
    rw [hrows] at hother
    split at hother
    · next hsame =>
      obtain rfl := Option.some.inj hother
      exact Or.inr ⟨plan, hnew, hacquired, hplanLease.trans hsame, hplanItem ▸ hheld⟩
    · rcases hold.origin other row hother with hbefore | ⟨created, hmem, hcreated⟩
      · exact Or.inl hbefore
      · exact Or.inr ⟨created, hold' created hmem, hcreated⟩
  · intro other hother
    rcases hplan other hother with hother | rfl
    · exact List.mem_append_left _ (hold.targeted other hother)
    · simp [hplanItem]
  · intro other hother hcreated
    rcases hplan other hother with hother | rfl
    · obtain ⟨hotherId, hnone, row, hother, hrest⟩ := hold.created other hother hcreated
      exact ⟨hotherId, hnone, row, hkept _ row hother, hrest⟩
    · rw [hplanItem, hplanLease]
      exact ⟨rfl, hfresh, lease, by rw [hrows, if_pos rfl], hid, hheld⟩
  · intro other hother hreentered
    rcases hplan other hother with hother | rfl
    · exact hold.reentered other hother hreentered
    · rw [hacquired] at hreentered
      cases hreentered
  · intro other hother key row hbefore hrowHeld
    obtain ⟨found, hmem, hfound⟩ := hpassed.covered other hother key row hbefore hrowHeld
    exact ⟨found, hold' found hmem, hfound⟩

theorem step (hold : BatchHeld args current progress finished)
    (hone : (activeItemIds current.leases).Nodup) (hitem : itemId ∉ finished)
    (hpresent : progress.session.items[itemId]?.isSome = true)
    (hfresh : current.leases[args.leaseId itemId]? = none)
    (hids : ∀ id ∈ finished, args.leaseId id ≠ args.leaseId itemId)
    (hstep : BatchStep args itemId progress progress') :
    BatchHeld args current progress' (finished ++ [itemId]) := by
  cases hstep with
  | passed hsame hrow =>
      rw [hsame]
      exact hold.passed (hrow hpresent)
  | reentered key existing lease plan hexisting hheld hgrant hleases hremaining hplans hacquired
      hplanItem hplanLease =>
      exact hold.reenter hone hitem hexisting hheld hgrant hleases hremaining hplans hacquired
        hplanItem hplanLease
  | created lease plan hheld hlasts hid hleases hrow hremaining hplans hacquired hplanItem
      hplanLease =>
      exact hold.create hfresh hids hheld hlasts hid hleases hrow hremaining hplans hacquired
        hplanItem hplanLease

end BatchHeld

theorem claimBatchItems_held {args : BatchArgs} {current : Session} {targets finished : List String}
    {progress progress' : BatchProgress} (hone : (activeItemIds current.leases).Nodup)
    (hitems : ItemsKeyed progress.session)
    (hpresent : ∀ id ∈ targets, progress.session.items[id]?.isSome = true)
    (hfresh : ∀ id ∈ targets, current.leases[args.leaseId id]? = none)
    (hids : ((finished ++ targets).map args.leaseId).Nodup)
    (hold : BatchHeld args current progress finished)
    (h : targets.foldlM (claimBatchItem args) progress = .ok progress') :
    BatchHeld args current progress' (finished ++ targets) ∧ ItemsKeyed progress'.session ∧
      KeepsItems progress.session progress'.session := by
  induction targets generalizing progress finished with
  | nil =>
      obtain rfl := Except.ok.inj h
      rw [List.append_nil]
      exact ⟨hold, hitems, fun _ hid => hid⟩
  | cons itemId targets ih =>
      rw [List.foldlM_cons] at h
      cases hitem : claimBatchItem args progress itemId with
      | error e => simp [hitem, bind, Except.bind] at h
      | ok middle =>
          simp only [hitem, bind, Except.bind] at h
          obtain ⟨hstep, hkeeps⟩ := claimBatchItem_steps hitems hold.undue hitem
          obtain ⟨hitems', -⟩ := claimBatchItem_orderly hitem hitems
          have hapart : ∀ id ∈ finished, args.leaseId id ≠ args.leaseId itemId := by
            rw [List.map_append, List.map_cons, List.nodup_append] at hids
            obtain ⟨-, -, hdisjoint⟩ := hids
            exact fun id hid => hdisjoint _ (List.mem_map_of_mem hid) _ List.mem_cons_self
          have hunfinished : itemId ∉ finished := fun hmem => hapart itemId hmem rfl
          have hmiddle := hold.step hone hunfinished (hpresent itemId List.mem_cons_self)
            (hfresh itemId List.mem_cons_self) hapart hstep
          have hrest := ih hitems'
            (fun id hid => hkeeps id (hpresent id (List.mem_cons_of_mem itemId hid)))
            (fun id hid => hfresh id (List.mem_cons_of_mem itemId hid))
            (by rw [List.append_assoc]; exact hids) hmiddle h
          rw [List.append_assoc] at hrest
          obtain ⟨hdone, hkeyed, hpersist⟩ := hrest
          exact ⟨hdone, hkeyed, fun id hid => hpersist id (hkeeps id hid)⟩

/-- A batch claim before its first item. -/
def batchStart (s : Session) (args : BatchArgs) : BatchProgress where
  session := expireAndReturn (applyMetadataDelta s args.metadata) args.now
  remaining := maxParallelClaims -
    activeFixerCount (expireAndReturn (applyMetadataDelta s args.metadata) args.now) args.agentId
  plans := []
  classificationItems := []

theorem getElem?_batchStart (s : Session) (args : BatchArgs) (key : String) :
    (batchStart s args).session.leases[key]? = s.leases[key]?.map (dueExpired args.now) := by
  rw [batchStart, expireAndReturn_leases, getElem?_expireLeases]
  rfl

theorem dueExpired_active {now : Int} {lease : Lease}
    (h : (dueExpired now lease).isActive = true) : dueExpired now lease = lease := by
  unfold dueExpired at h ⊢
  split at h
  · cases h
  · next hdue => rw [if_neg hdue]

theorem dueExpired_of_undue {now : Int} {lease : Lease} (h : isExpired lease now = false) :
    dueExpired now lease = lease := by
  simp [dueExpired, h]

theorem batchStart_oneActive {s : Session} (args : BatchArgs)
    (hone : (activeItemIds s.leases).Nodup) :
    (activeItemIds (batchStart s args).session.leases).Nodup := by
  rw [nodup_activeItemIds] at hone ⊢
  intro id other lease held hlease hheld hactive hactive' hitem
  rw [getElem?_batchStart] at hlease hheld
  obtain ⟨stored, hstored, rfl⟩ := Option.map_eq_some_iff.mp hlease
  obtain ⟨stored', hstored', rfl⟩ := Option.map_eq_some_iff.mp hheld
  have hsame := dueExpired_active hactive
  have hsame' := dueExpired_active hactive'
  rw [hsame] at hactive hitem
  rw [hsame'] at hactive' hitem
  exact hone id other stored stored' hstored hstored' hactive hactive' hitem

theorem batchStart_held (s : Session) (args : BatchArgs) :
    BatchHeld args (batchStart s args).session (batchStart s args) [] where
  undue := expireAndReturn_undue _ args.now
  budget := by simp [batchStart]
  kept key lease hlease := ⟨lease, hlease, .refl lease⟩
  origin key lease hlease := Or.inl ⟨lease, hlease, .refl lease⟩
  targeted := by simp [batchStart]
  created := by simp [batchStart]
  reentered := by simp [batchStart]
  covered := by simp

theorem batchStart_itemsKeyed {s : Session} (args : BatchArgs) (hitems : ItemsKeyed s) :
    ItemsKeyed (batchStart s args).session :=
  (expireAndReturn_letsRest (applyMetadataDelta s args.metadata) args.now hitems).1

theorem batchTargets_present {s : Session} {args : BatchArgs} {itemId : String}
    (h : itemId ∈ batchTargets s args) :
    (batchStart s args).session.items[itemId]?.isSome = true := by
  obtain ⟨row, hrow, rfl⟩ := List.mem_map.mp h
  have hmem := (List.mem_filter.mp hrow).1
  have hfound := Std.ExtTreeMap.mem_toList_iff_getElem?_eq_some.mp hmem
  exact Option.isSome_iff_exists.mpr ⟨row.2, hfound⟩

/-- The items of a batch up to some point, from its start. -/
theorem batchItems_held {s : Session} {args : BatchArgs} {targets rest : List String}
    {progress : BatchProgress} (hitems : ItemsKeyed s) (hone : (activeItemIds s.leases).Nodup)
    (htokens : FreshTokens s args) (htargets : batchTargets s args = targets ++ rest)
    (h : targets.foldlM (claimBatchItem args) (batchStart s args) = .ok progress) :
    BatchHeld args (batchStart s args).session progress targets ∧ ItemsKeyed progress.session := by
  have hmem : ∀ id ∈ targets, id ∈ batchTargets s args := by
    intro id hid
    rw [htargets]
    exact List.mem_append_left rest hid
  have hfresh : ∀ id ∈ targets, (batchStart s args).session.leases[args.leaseId id]? = none := by
    intro id hid
    rw [getElem?_batchStart, (htokens.fresh id (hmem id hid)).unused]
    rfl
  have hids : (([] ++ targets).map args.leaseId).Nodup := by
    have hall := htokens.distinct
    rw [htargets, List.map_append] at hall
    exact (List.nodup_append.mp hall).1
  obtain ⟨hheld, hkeyed, -⟩ := claimBatchItems_held (batchStart_oneActive args hone)
    (batchStart_itemsKeyed args hitems) (fun id hid => batchTargets_present (hmem id hid)) hfresh
    hids (batchStart_held s args) h
  exact ⟨hheld, hkeyed⟩

theorem issuedRecords_leases (args : BatchArgs) (plans : List ArtifactPlan) (s : Session) :
    (plans.foldl (fun session plan => session.appendEvidence (batchIssuedRecord session args plan))
      s).leases = s.leases := by
  induction plans generalizing s with
  | nil => rfl
  | cons plan plans ih =>
      rw [List.foldl_cons, ih]
      rfl

/-- A batch that goes through has gone through all of its items. -/
theorem commitBatch_ok {s s' : Session} {args : BatchArgs} {transition : BatchTransition}
    (h : commitBatch args s = .ok (s', transition)) : ∃ progress,
      (batchTargets s args).foldlM (claimBatchItem args) (batchStart s args) = .ok progress ∧
        s'.leases = progress.session.leases ∧ transition.plans = progress.plans := by
  unfold commitBatch at h
  simp only at h
  split at h
  · cases h
  · split at h
    · cases h
    · next progress hprogress =>
      split at h
      · cases h
      · obtain ⟨rfl, rfl⟩ := Prod.mk.inj (Except.ok.inj h)
        exact ⟨progress, hprogress, issuedRecords_leases args _ _, rfl⟩

/-- The ids of the leases that only the later session has. -/
def newLeaseIds (before after : Session) : List String :=
  after.leases.keys.filter fun id => !before.leases.contains id

/-- What a batch claim that went through has done to the leases of the committed session. -/
structure WithinBudget (before after : Session) (args : BatchArgs) (plans : List ArtifactPlan) :
    Prop where
  budget : (newLeaseIds before after).length ≤
    maxParallelClaims - undueFixerCount before args.agentId args.now
  /-- Every item of the batch has one active lease, and it is the agent's. -/
  held : ∀ plan ∈ plans, ∃ (key : String) (lease : Lease), after.leases[key]? = some lease ∧
    lease.leaseId = plan.leaseId ∧ HeldBy args.agentId plan.itemId lease ∧
      ∀ (other : String) (row : Lease), after.leases[other]? = some row → row.isActive = true →
        row.itemId = plan.itemId → other = key
  created : ∀ plan ∈ plans, plan.acquisition = .created → before.leases[plan.leaseId]? = none
  /-- A lease that the agent has on a requested item stays as it was granted. -/
  reentered : ∀ itemId ∈ batchTargets before args, ∀ (key : String) (lease : Lease),
    before.leases[key]? = some lease → HeldBy args.agentId itemId lease →
      isExpired lease args.now = false →
        (∃ lease', after.leases[key]? = some lease' ∧ SameGrant lease lease') ∧
          ∃ plan ∈ plans, plan.acquisition = .reentered ∧ plan.itemId = itemId ∧
            plan.leaseId = lease.leaseId

theorem newLeaseIds_length {before after : Session} {ids : List String}
    (h : ∀ id ∈ newLeaseIds before after, id ∈ ids) :
    (newLeaseIds before after).length ≤ ids.length := by
  have hnodup : (newLeaseIds before after).Nodup := by
    have hkeys := Std.ExtTreeMap.nodup_keys (t := after.leases)
    exact List.Nodup.filter _ hkeys
  exact (List.Nodup.subperm hnodup h).length_le

theorem BatchHeld.withinBudget {s after : Session} {args : BatchArgs} {progress : BatchProgress}
    (hold : BatchHeld args (batchStart s args).session progress (batchTargets s args))
    (hone : (activeItemIds after.leases).Nodup) (hleases : after.leases = progress.session.leases) :
    WithinBudget s after args progress.plans := by
  have hbefore : ∀ key : String, (batchStart s args).session.leases[key]? = none ↔
      s.leases[key]? = none := by
    intro key
    rw [getElem?_batchStart, Option.map_eq_none_iff]
  constructor
  · have hnew : ∀ id ∈ newLeaseIds s after,
        id ∈ (progress.plans.filter fun plan => plan.acquisition == .created).map (·.leaseId) := by
      intro id hid
      obtain ⟨hkey, hunknown⟩ := List.mem_filter.mp hid
      rw [KeyedRows.mem_keys_iff, hleases] at hkey
      obtain ⟨lease, hlease⟩ := Option.ne_none_iff_exists'.mp hkey
      rcases hold.origin id lease hlease with ⟨held, hheld, -⟩ | ⟨plan, hplan, hcreated, rfl, -⟩
      · rw [getElem?_batchStart] at hheld
        obtain ⟨stored, hstored, -⟩ := Option.map_eq_some_iff.mp hheld
        have hstored : s.leases[id]? = some stored := hstored
        rw [Std.ExtTreeMap.contains_eq_isSome_getElem?, hstored] at hunknown
        cases hunknown
      · exact List.mem_map.mpr ⟨plan, List.mem_filter.mpr ⟨hplan, by simp [hcreated]⟩, rfl⟩
    have hcount := newLeaseIds_length hnew
    rw [List.length_map] at hcount
    have hbudget := hold.budget
    rw [show activeFixerCount (batchStart s args).session args.agentId =
        undueFixerCount s args.agentId args.now from
          activeFixerCount_expireAndReturn (applyMetadataDelta s args.metadata) args.agentId
            args.now] at hbudget
    omega
  · intro plan hplan
    have hrow : ∃ (key : String) (lease : Lease), after.leases[key]? = some lease ∧
        lease.leaseId = plan.leaseId ∧ HeldBy args.agentId plan.itemId lease := by
      rw [hleases]
      cases hacquired : plan.acquisition with
      | created =>
          obtain ⟨-, -, lease, hlease, hid, hheld⟩ := hold.created plan hplan hacquired
          exact ⟨plan.leaseId, lease, hlease, hid, hheld⟩
      | reentered =>
          obtain ⟨key, lease, hlease, hid, hheld⟩ := hold.reentered plan hplan hacquired
          obtain ⟨lease', hlease', hgrant⟩ := hold.kept key lease hlease
          exact ⟨key, lease', hlease', (hgrant.facts args.now).2.2.trans hid,
            hgrant.heldBy_iff.mpr hheld⟩
    obtain ⟨key, lease, hlease, hid, hheld⟩ := hrow
    refine ⟨key, lease, hlease, hid, hheld, fun other row hother hactive hitem => ?_⟩
    exact nodup_activeItemIds.mp hone other key row lease hother hlease hactive hheld.isActive
      (hitem.trans hheld.item.symm)
  · intro plan hplan hcreated
    exact (hbefore _).mp (hold.created plan hplan hcreated).2.1
  · intro itemId hitem key lease hlease hheld hlasts
    have hstart : (batchStart s args).session.leases[key]? = some lease := by
      rw [getElem?_batchStart, hlease, Option.map_some, dueExpired_of_undue hlasts]
    obtain ⟨lease', hlease', hgrant⟩ := hold.kept key lease hstart
    exact ⟨⟨lease', hleases ▸ hlease', hgrant⟩, hold.covered itemId hitem key lease hstart hheld⟩

/-- A batch claim that goes through stays within the agent's budget, leases each of its items
once, and leaves the leases the agent already had on them as they were granted. -/
theorem batch_claim_within_budget {store committed : Store} {s : Session} {args : BatchArgs}
    {result : TransactionResult BatchTransition} (hload : loadSnapshot store = .ok s)
    (hitems : ItemsKeyed s) (htokens : FreshTokens s args)
    (h : transact store (commitBatch args) = .ok (committed, result)) :
    ∃ after, loadSnapshot committed = .ok after ∧
      WithinBudget s after args result.value.plans := by
  obtain ⟨current, session, hcurrent, -, hmutation, hcommit, hview, -⟩ := transact_ok h
  rw [hload] at hcurrent
  obtain rfl := Except.ok.inj hcurrent
  obtain ⟨progress, hprogress, hleases, hplans⟩ := commitBatch_ok hmutation
  obtain ⟨hnodup, hpayload⟩ := committedView_ok.mp hview
  have hone : (activeItemIds s.leases).Nodup := by
    obtain ⟨hnodup', rfl⟩ := loadSnapshot_ok.mp hload
    exact hnodup'
  obtain ⟨hheld, -⟩ := batchItems_held hitems hone htokens (List.append_nil _).symm hprogress
  refine ⟨result.payload, (commitSession_view hcommit).trans hview, ?_⟩
  rw [hplans]
  refine hheld.withinBudget ?_ ?_
  · rw [hpayload]
    exact hnodup
  · rw [hpayload]
    exact hleases

/-- After the targets before it, an item is to be leased anew, and an active lease stands against
it. -/
structure MeetsConflict (s : Session) (args : BatchArgs) (before : List String) (itemId : String) :
    Prop where
  conflict : ∃ (progress : BatchProgress) (item : Dict) (keys : List String) (key : String)
    (existing : Lease), before.foldlM (claimBatchItem args) (batchStart s args) = .ok progress ∧
      progress.session.items[itemId]? = some item ∧
      activeFixerRow progress.session itemId args.agentId = none ∧ progress.remaining ≠ 0 ∧
      isDecidedOtherwise item = false ∧
      calculateConflictKeys
        (ensureBatchClassification progress.session args itemId item).2.1 = some keys ∧
      progress.session.leases[key]? = some existing ∧
      (claimConflict? itemId keys (batchClaimArgs args "" "" "" "") existing).isSome = true

theorem claimLease_conflicts {s : Session} {item : Dict} {args : ClaimArgs} {keys : List String}
    {key : String} {existing : Lease} (hundue : Undue s.leases args.now)
    (hkeys : calculateConflictKeys item = some keys) (hargs : args.conflictKeys = none)
    (hexisting : s.leases[key]? = some existing)
    (hconflict : (claimConflict? (item.get "item_id").text keys args existing).isSome = true) :
    ∃ error, (claimLease s item args).2 = .error error := by
  unfold claimLease
  simp only [expireLeases_of_undue hundue, hargs, Option.map_none, Option.orElse_none, hkeys]
  split
  · exact ⟨_, rfl⟩
  · have hmem : (key, existing) ∈ s.leases.toList :=
      Std.ExtTreeMap.mem_toList_iff_getElem?_eq_some.mpr hexisting
    have hfound : (s.leases.toList.findSome? fun row =>
        claimConflict? (item.get "item_id").text keys args row.2).isSome = true :=
      List.findSome?_isSome_iff.mpr ⟨(key, existing), hmem, hconflict⟩
    obtain ⟨error, herror⟩ := Option.isSome_iff_exists.mp hfound
    rw [herror]
    exact ⟨error, rfl⟩

theorem leaseNewGithubThread_conflicts {s : Session} {args : BatchArgs} {itemId : String}
    {item : Dict} {keys : List String} {key : String} {existing : Lease}
    (hitem : s.items[itemId]? = some item) (hid : item.get "item_id" = .str itemId)
    (hundue : Undue s.leases args.now) (hdecided : isDecidedOtherwise item = false)
    (hkeys : calculateConflictKeys (ensureBatchClassification s args itemId item).2.1 = some keys)
    (hexisting : s.leases[key]? = some existing)
    (hconflict : (claimConflict? itemId keys (batchClaimArgs args "" "" "" "")
      existing).isSome = true) :
    ∃ error, leaseNewGithubThread s args itemId item = .error error := by
  obtain ⟨-, hleases, hkeeps⟩ := ensureBatchClassification_letsRest args hitem
  have hname :
      ((ensureBatchClassification s args itemId item).2.1.get "item_id").text = itemId := by
    rw [hkeeps, hid, Value.text_str]
  unfold leaseNewGithubThread
  rw [if_neg (by rw [hdecided]; exact Bool.false_ne_true)]
  simp only
  split
  · exact ⟨_, rfl⟩
  · split
    · exact ⟨_, rfl⟩
    · next hash _ =>
      obtain ⟨error, herror⟩ := @claimLease_conflicts
        (ensureBatchClassification s args itemId item).1
        (ensureBatchClassification s args itemId item).2.1
        (batchClaimArgs args (args.leaseId itemId) (args.requestId
          (ensureBatchClassification s args itemId item).1 itemId (args.leaseId itemId)) hash
          (requestPathIn args.workspaceDir (args.requestId
            (ensureBatchClassification s args itemId item).1 itemId (args.leaseId itemId))))
        keys key existing (by rw [hleases]; exact hundue) hkeys rfl
        (by rw [hleases]; exact hexisting) (by rw [hname]; exact hconflict)
      split
      · exact ⟨_, rfl⟩
      · next hclaim =>
        rw [hclaim] at herror
        cases herror

/-- The store after a batch claim: what a transaction that fails has written is rolled back. -/
def storeAfterBatch (store : Store) (args : BatchArgs) : Store :=
  match transact store (commitBatch args) with
  | .ok (committed, _) => committed
  | .error _ => store

/-- When an item that a batch takes up meets a conflict, the leases made for the items before it are
not committed: nothing of the batch remains. -/
theorem conflicting_batch_leaves_no_trace {store : Store} {s : Session} {args : BatchArgs}
    {before rest : List String} {itemId : String} (hload : loadSnapshot store = .ok s)
    (hitems : ItemsKeyed s) (htokens : FreshTokens s args)
    (htargets : batchTargets s args = before ++ itemId :: rest)
    (h : MeetsConflict s args before itemId) :
    (∃ progress error, before.foldlM (claimBatchItem args) (batchStart s args) = .ok progress ∧
      BatchHeld args (batchStart s args).session progress before ∧
      claimBatchItem args progress itemId = .error error) ∧
    (∃ error, transact store (commitBatch args) = .error error) ∧
      storeAfterBatch store args = store := by
  have hone : (activeItemIds s.leases).Nodup := by
    obtain ⟨hnodup, rfl⟩ := loadSnapshot_ok.mp hload
    exact hnodup
  obtain ⟨progress, item, keys, key, existing, hprogress, hitem, hrow, hremaining, hdecided, hkeys,
    hexisting, hconflict⟩ := h.conflict
  obtain ⟨hheld, hkeyed⟩ := batchItems_held hitems hone htokens htargets hprogress
  obtain ⟨error, herror⟩ := leaseNewGithubThread_conflicts hitem (hkeyed itemId item hitem)
    hheld.undue hdecided hkeys hexisting hconflict
  have hstep : claimBatchItem args progress itemId = .error error := by
    unfold claimBatchItem
    simp only [hitem, hrow, if_neg hremaining, herror, Except.map]
  have hfails : ∀ outcome, commitBatch args s ≠ .ok outcome := by
    intro outcome hok
    obtain ⟨done, hdone, -⟩ := @commitBatch_ok s outcome.1 args outcome.2 hok
    rw [htargets, List.foldlM_append, hprogress] at hdone
    simp only [bind, Except.bind, List.foldlM_cons, hstep] at hdone
    cases hdone
  refine ⟨⟨progress, error, hprogress, hheld, hstep⟩, ?_⟩
  cases htransact : transact store (commitBatch args) with
  | error failure => exact ⟨⟨failure, rfl⟩, by rw [storeAfterBatch, htransact]⟩
  | ok pair =>
      obtain ⟨current, session, hcurrent, -, hmutation, -⟩ := transact_ok htransact
      rw [hload] at hcurrent
      obtain rfl := Except.ok.inj hcurrent
      exact absurd hmutation (hfails _)

def sharedThread (itemId path state : String) : Dict :=
  Dict.ofFields [("item_id", .str itemId), ("item_kind", .str "github_thread"),
    ("state", .str state), ("status", .str "OPEN"), ("thread_id", .str itemId),
    ("path", .str path), ("line", .int 1), ("body", .str "Fix.")]

/-- A thread that one agent holds, a free one, and an open one in a file. -/
def sharedSession (path : String) : Session where
  root := Dict.ofFields [("session_id", .str "session")]
  items := Std.ExtTreeMap.ofList [("free", sharedThread "free" "c.py" "open"),
    ("held", sharedThread "held" "a.py" "claimed"),
    ("open", sharedThread "open" path "open")] compare
  leases := Std.ExtTreeMap.ofList [("lease", {
    leaseId := "lease", itemId := "held", agentId := "other", role := .fixer, status := .active
    createdAt := 0, expiresAt := 10, resumeToken := none, requestHash := "hash"
    requestId := some "request", requestPath := none
    conflictKeys := ["github_reply:held", "github_resolve:held", "hunk:a.py:1-1", "item:held",
      "thread:held"] })] compare
  leaseEvents := []

def sharedStore (path : String) : StoreResult Store :=
  commitSession blankStore (sharedSession path) [] [] 1

def sharedBatch : BatchArgs where
  repo := "o/r"
  prNumber := "1"
  agentId := "agent"
  files := []
  now := 0
  token := id
  workspaceDir := "/w"
  fileSystem := ∅
  metadata := { updates := ∅, removed := [] }

/-- The items of the session carry their ids, and the ids of the batch are fresh. -/
def ReadyForBatch (s : Session) : Bool :=
  (s.items.toList.all fun row => row.2.get "item_id" == .str row.1) &&
    decide (FreshTokens s sharedBatch)

theorem ReadyForBatch.facts {s : Session} (h : ReadyForBatch s = true) :
    ItemsKeyed s ∧ FreshTokens s sharedBatch := by
  obtain ⟨hitems, htokens⟩ := (Bool.and_eq_true _ _).mp h
  refine ⟨fun id item hitem => ?_, of_decide_eq_true htokens⟩
  have hmem := Std.ExtTreeMap.mem_toList_iff_getElem?_eq_some.mpr hitem
  simpa using List.all_eq_true.mp hitems (id, item) hmem

/-- The batch takes up the free thread, and the other agent's lease stands against the open one. -/
def OpenConflicts (s : Session) : Bool :=
  (["free"].foldlM (claimBatchItem sharedBatch) (batchStart s sharedBatch)).toOption.any
    fun progress => progress.plans.length == 1 && (progress.session.items["open"]?).any fun item =>
      (activeFixerRow progress.session "open" sharedBatch.agentId).isNone &&
        progress.remaining != 0 && !isDecidedOtherwise item &&
        (calculateConflictKeys
          (ensureBatchClassification progress.session sharedBatch "open" item).2.1).any fun keys =>
            (progress.session.leases["lease"]?).any fun existing =>
              (claimConflict? "open" keys (batchClaimArgs sharedBatch "" "" "" "") existing).isSome

theorem OpenConflicts.meets {s : Session} (h : OpenConflicts s = true) :
    MeetsConflict s sharedBatch ["free"] "open" := by
  unfold OpenConflicts at h
  cases hprogress : ["free"].foldlM (claimBatchItem sharedBatch) (batchStart s sharedBatch) with
  | error error => simp [hprogress, Except.toOption] at h
  | ok progress =>
      rw [hprogress] at h
      obtain ⟨-, h⟩ := (Bool.and_eq_true _ _).mp h
      obtain ⟨item, hitem, h⟩ := (Option.any_eq_true _ _).mp h
      simp only [Bool.and_eq_true] at h
      obtain ⟨⟨⟨hrow, hremaining⟩, hdecided⟩, hkeys⟩ := h
      obtain ⟨keys, hkeys, hlease⟩ := (Option.any_eq_true _ _).mp hkeys
      obtain ⟨existing, hexisting, hconflict⟩ := (Option.any_eq_true _ _).mp hlease
      exact ⟨progress, item, keys, "lease", existing, hprogress, hitem,
        Option.isNone_iff_eq_none.mp hrow, bne_iff_ne.mp hremaining, by simpa using hdecided, hkeys,
        hexisting, hconflict⟩

theorem sharedStore_runs :
    ((sharedStore "b.py").toOption.any fun store => (loadSnapshot store).toOption.any fun s =>
      ReadyForBatch s && (transact store (commitBatch sharedBatch)).toOption.isSome) = true ∧
    ((sharedStore "a.py").toOption.any fun store => (loadSnapshot store).toOption.any fun s =>
      ReadyForBatch s && batchTargets s sharedBatch == ["free", "open"] && OpenConflicts s) = true := by
  decide +kernel

/-- The two threads are claimed beside the one the other agent holds. -/
theorem batch_claim_within_budget_shared : ∃ store s committed result after,
    loadSnapshot store = .ok s ∧
      transact store (commitBatch sharedBatch) = .ok (committed, result) ∧
      loadSnapshot committed = .ok after ∧
      WithinBudget s after sharedBatch result.value.plans := by
  obtain ⟨store, -, hruns⟩ := StoreResult.exists_ok sharedStore_runs.1
  obtain ⟨s, hload, hruns⟩ := StoreResult.exists_ok hruns
  obtain ⟨hready, hclaims⟩ := (Bool.and_eq_true _ _).mp hruns
  obtain ⟨hitems, htokens⟩ := ReadyForBatch.facts hready
  cases hbatch : transact store (commitBatch sharedBatch) with
  | error error =>
      rw [hbatch] at hclaims
      cases hclaims
  | ok pair =>
      obtain ⟨after, hafter, hwithin⟩ := batch_claim_within_budget hload hitems htokens hbatch
      exact ⟨store, s, pair.1, pair.2, after, hload, hbatch, hafter, hwithin⟩

/-- The open thread is on the line the other agent works on; the free one was claimed before. -/
theorem conflicting_batch_leaves_no_trace_shared : ∃ store s,
    loadSnapshot store = .ok s ∧ MeetsConflict s sharedBatch ["free"] "open" ∧
      (∃ progress error,
        ["free"].foldlM (claimBatchItem sharedBatch) (batchStart s sharedBatch) = .ok progress ∧
        BatchHeld sharedBatch (batchStart s sharedBatch).session progress ["free"] ∧
        claimBatchItem sharedBatch progress "open" = .error error) ∧
      (∃ error, transact store (commitBatch sharedBatch) = .error error) ∧
        storeAfterBatch store sharedBatch = store := by
  obtain ⟨store, -, hruns⟩ := StoreResult.exists_ok sharedStore_runs.2
  obtain ⟨s, hload, hruns⟩ := StoreResult.exists_ok hruns
  simp only [Bool.and_eq_true, beq_iff_eq] at hruns
  obtain ⟨⟨hready, htargets⟩, hconflicts⟩ := hruns
  obtain ⟨hitems, htokens⟩ := ReadyForBatch.facts hready
  have hmeets := OpenConflicts.meets hconflicts
  exact ⟨store, s, hload, hmeets, conflicting_batch_leaves_no_trace hload hitems htokens htargets
    hmeets⟩

end GhAddressCr
