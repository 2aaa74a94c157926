import GhAddressCr.AnsweredFindings

/-!
# Taking a batch back

A batch whose files cannot be written takes its leases back in a later transaction, after any
number of foreign commits. The transaction looks for the leases and the items by their ids, and
at nothing else of them.
-/
namespace GhAddressCr

open PyText GithubThreadState RuntimeStore AuditedTable

/-- The id was given to a lease on this item, and is not given to another. -/
structure Owned (s : Session) (leaseId itemId : String) : Prop where
  logged : ∃ entry ∈ (auditedLeases s).log, entry.1 = leaseId
  held : ∀ lease, s.leases[leaseId]? = some lease → lease.itemId = itemId

theorem Owned.of_same {s s' : Session} {leaseId itemId : String} (h : Owned s leaseId itemId)
    (hleases : s'.leases = s.leases) (hevents : s'.leaseEvents = s.leaseEvents) :
    Owned s' leaseId itemId := by
  refine ⟨?_, fun lease hlease => h.held lease (by rw [← hleases]; exact hlease)⟩
  simp only [auditedLeases, hevents]
  exact h.logged

/-- The statuses of a lease move, and its item stays. -/
theorem Owned.lifecycle {s s' : Session} {leaseId itemId : String} (h : Owned s leaseId itemId)
    (hkeyed : LeasesKeyed s) (hsteps : Lifecycle s s') : Owned s' leaseId itemId := by
  obtain ⟨-, hsteps⟩ := hsteps hkeyed
  obtain ⟨entry, hentry, hid⟩ := h.logged
  refine ⟨⟨entry, hsteps.log hentry, hid⟩, fun lease' hlease' => ?_⟩
  have hstatus : (auditedLeases s').status leaseId = some (lease'.itemId, lease'.status) := by
    simp [auditedLeases, hlease']
  obtain ⟨old, hold, hmoves⟩ := hsteps.origin hstatus h.logged
  obtain ⟨lease, hlease, rfl⟩ := Option.map_eq_some_iff.mp hold
  have hitem : ∀ entry, Relation.ReflTransGen LeaseMoves (lease.itemId, lease.status) entry →
      entry.1 = lease.itemId := by
    intro entry hpath
    induction hpath with
    | refl => rfl
    | tail _ hmove ih => exact hmove.item.trans ih
  have hsame : lease'.itemId = lease.itemId := hitem _ hmoves
  rw [hsame]
  exact h.held lease hlease

/-- A lease that is granted is logged on its item. -/
theorem claimLease_owned {s s' : Session} {item : Dict} {args : ClaimArgs} {lease : Lease}
    (h : claimLease s item args = (s', .ok lease)) :
    Owned s' args.leaseId (item.get "item_id").text := by
  unfold claimLease at h
  simp only at h
  repeat' split at h
  all_goals simp only [Prod.mk.injEq, reduceCtorEq, and_false, Except.ok.injEq] at h
  obtain ⟨hsession, -⟩ := h
  have htable := auditedLeases_event hsession.symm rfl rfl
  refine ⟨⟨_, by rw [htable]; exact List.mem_append_right _ (List.mem_singleton_self _), rfl⟩, ?_⟩
  intro held hheld
  rw [← hsession] at hheld
  have hgranted : some _ = some held := Std.ExtTreeMap.getElem?_insert_self.symm.trans hheld
  rw [← Option.some.inj hgranted]
  rfl

/-- The leases that a batch has created stay on its items. -/
def PlansOwn (s : Session) (plans : List ArtifactPlan) : Prop :=
  ∀ plan ∈ plans, plan.acquisition = .created → Owned s plan.leaseId plan.itemId

theorem PlansOwn.lifecycle {s s' : Session} {plans : List ArtifactPlan} (h : PlansOwn s plans)
    (hkeyed : LeasesKeyed s) (hsteps : Lifecycle s s') : PlansOwn s' plans :=
  fun plan hplan hcreated => (h plan hplan hcreated).lifecycle hkeyed hsteps

theorem reconcileExistingLease_reentered {s : Session} {args : BatchArgs} {itemId key : String}
    {item : Dict} {existing : Lease} {row : BatchRow}
    (h : reconcileExistingLease s args itemId item key existing = .ok row) :
    row.plan.acquisition = .reentered := by
  unfold reconcileExistingLease at h
  simp only at h
  split at h
  · cases h
  · split at h
    · cases h
    · rw [← Except.ok.inj h]

theorem leaseNewGithubThread_owned {s : Session} {args : BatchArgs} {itemId : String}
    {item : Dict} {row : BatchRow} (hitem : s.items[itemId]? = some item)
    (hid : item.get "item_id" = .str itemId)
    (h : leaseNewGithubThread s args itemId item = .ok (some row)) :
    Owned row.session row.plan.leaseId row.plan.itemId := by
  obtain ⟨-, -, hkeeps⟩ := ensureBatchClassification_letsRest args hitem
  unfold leaseNewGithubThread at h
  split at h
  · cases h
  · simp only at h
    repeat' split at h
    all_goals simp only [reduceCtorEq, Except.ok.injEq, Option.some.injEq] at h
    next claimed lease hclaim =>
      subst h
      have howned := claimLease_owned hclaim
      rw [hkeeps.trans hid, Value.text_str] at howned
      exact howned.of_same (modifyItem_leases _ _ _) (modifyItem_leaseEvents _ _ _)

/-- One target item adds at most a plan of its own. -/
theorem claimBatchItem_owned {args : BatchArgs} {progress progress' : BatchProgress}
    {itemId : String} (hitems : ItemsKeyed progress.session)
    (h : claimBatchItem args progress itemId = .ok progress') {plan : ArtifactPlan}
    (hplan : plan ∈ progress'.plans) (hcreated : plan.acquisition = .created) :
    plan ∈ progress.plans ∨ Owned progress'.session plan.leaseId plan.itemId := by
  unfold claimBatchItem at h
  split at h
  · obtain rfl := Except.ok.inj h
    exact Or.inl hplan
  · next item hitem =>
    split at h
    · next key existing _ =>
      obtain ⟨row, hreconcile, rfl⟩ := exceptMap_ok.mp h
      rcases List.mem_append.mp hplan with hbefore | hnew
      · exact Or.inl hbefore
      · obtain rfl := List.mem_singleton.mp hnew
        rw [reconcileExistingLease_reentered hreconcile] at hcreated
        cases hcreated
    · split at h
      · obtain rfl := Except.ok.inj h
        exact Or.inl hplan
      · obtain ⟨row?, hlease, rfl⟩ := exceptMap_ok.mp h
        cases row? with
        | none => exact Or.inl hplan
        | some row =>
            rcases List.mem_append.mp hplan with hbefore | hnew
            · exact Or.inl hbefore
            · obtain rfl := List.mem_singleton.mp hnew
              exact Or.inr (leaseNewGithubThread_owned hitem (hitems itemId item hitem) hlease)

theorem claimBatchItems_owned {args : BatchArgs} {targets : List String}
    {progress progress' : BatchProgress} (hkeyed : LeasesKeyed progress.session)
    (hitems : ItemsKeyed progress.session)
    (hfresh : ∀ itemId ∈ targets, FreshLeaseId progress.session (args.leaseId itemId))
    (hdistinct : (targets.map args.leaseId).Nodup)
    (hplans : PlansOwn progress.session progress.plans)
    (h : targets.foldlM (claimBatchItem args) progress = .ok progress') :
    PlansOwn progress'.session progress'.plans := by
  induction targets generalizing progress with
  | nil =>
      obtain rfl := Except.ok.inj h
      exact hplans
  | cons itemId targets ih =>
      rw [List.foldlM_cons] at h
      cases hitem : claimBatchItem args progress itemId with
      | error e => simp [hitem, bind, Except.bind] at h
      | ok middle =>
          simp only [hitem, bind, Except.bind] at h
          obtain ⟨hsteps, hrest⟩ := claimBatchItem_keepsFresh hkeyed hfresh hdistinct hitem
          obtain ⟨hkeyed', -⟩ := hsteps hkeyed
          obtain ⟨hitems', -⟩ := claimBatchItem_orderly hitem hitems
          refine ih hkeyed' hitems' hrest (List.nodup_cons.mp hdistinct).2 ?_ h
          intro plan hplan hcreated
          rcases claimBatchItem_owned hitems hitem hplan hcreated with hbefore | howned
          · exact (hplans plan hbefore hcreated).lifecycle hkeyed hsteps
          · exact howned

/-- The leases that a batch creates are on the items of its plans. -/
theorem commitBatch_owned {s s' : Session} {args : BatchArgs} {transition : BatchTransition}
    (hkeyed : LeasesKeyed s) (hitems : ItemsKeyed s) (htokens : FreshTokens s args)
    (h : commitBatch args s = .ok (s', transition)) : PlansOwn s' transition.plans := by
  let current := expireAndReturn (applyMetadataDelta s args.metadata) args.now
  have hmetadata : EndsLeases s (applyMetadataDelta s args.metadata) := .of_same rfl rfl
  have hexpire : EndsLeases s current := hmetadata.trans (expireAndReturn_ends _ args.now)
  obtain ⟨hkeyed', -⟩ := hexpire hkeyed
  have hitems' : ItemsKeyed current :=
    (expireAndReturn_letsRest (applyMetadataDelta s args.metadata) args.now hitems).1
  unfold commitBatch at h
  simp only at h
  split at h
  · cases h
  · split at h
    · cases h
    · next progress hprogress =>
      have hfresh := fun itemId hitem =>
        hexpire.fresh hkeyed (fun _ hnever => hnever) (htokens.fresh itemId hitem)
      have hplans := claimBatchItems_owned hkeyed' hitems' hfresh htokens.distinct (by simp [PlansOwn])
        hprogress
      split at h
      · cases h
      · obtain ⟨rfl, rfl⟩ := Prod.mk.inj (Except.ok.inj h)
        have hclaims := claimBatchItems_lifecycle hkeyed' hfresh htokens.distinct hprogress
        obtain ⟨hkeyed'', -⟩ := hclaims hkeyed'
        exact hplans.lifecycle hkeyed''
          (appendEvidence_foldl_ends _ (fun session => batchIssuedRecord session args) _).lifecycle

theorem rollback_leaseEvents (rows : List (String × String)) (s : Session) :
    (rollbackNewlyLeasedItems s rows).leaseEvents = s.leaseEvents := by
  unfold rollbackNewlyLeasedItems
  induction rows generalizing s with
  | nil => rfl
  | cons row rows ih =>
      rw [List.foldl_cons, ih]
      simp

theorem getElem?_rollback_leases (rows : List (String × String)) (s : Session) (leaseId : String) :
    (rollbackNewlyLeasedItems s rows).leases[leaseId]? =
      if leaseId ∈ rows.map (·.1) then none else s.leases[leaseId]? := by
  unfold rollbackNewlyLeasedItems
  induction rows generalizing s with
  | nil => simp
  | cons row rows ih =>
      rw [List.foldl_cons, ih]
      rw [modifyItem_leases, Std.ExtTreeMap.getElem?_erase, List.map_cons]
      by_cases hhead : leaseId = row.1
      · simp [hhead]
      · simp only [List.mem_cons, hhead, false_or, Std.compare_eq_iff_eq, Ne.symm hhead, if_false]

/-- The item is offered to the agents. -/
def ShowsOpen (item : Dict) : Prop :=
  ∃ state ∈ githubThreadClaimableStates, item.get "state" = .str state

theorem rolledBackItem_showsOpen (item : Dict) : ShowsOpen (rolledBackItem item) := by
  refine ⟨_, returnedClaimableState_mem item, ?_⟩
  unfold rolledBackItem
  simp only
  split <;> simp [clearClaimFields, returnItemToClaimableState]

/-- A rollback opens the items of its rows, and no other. -/
theorem rollback_items (rows : List (String × String)) {s : Session} {itemId : String}
    {item : Dict} (hitem : s.items[itemId]? = some item) :
    ∃ item', (rollbackNewlyLeasedItems s rows).items[itemId]? = some item' ∧
      if itemId ∈ rows.map (·.2) then ShowsOpen item' else item' = item := by
  unfold rollbackNewlyLeasedItems
  induction rows generalizing s item with
  | nil => exact ⟨item, hitem, by simp⟩
  | cons row rows ih =>
      rw [List.foldl_cons, List.map_cons]
      let first := { s with leases := s.leases.erase row.1 }.modifyItem row.2 rolledBackItem
      by_cases hhead : itemId = row.2
      · have hfirst : first.items[itemId]? = some (rolledBackItem item) := by
          rw [getElem?_modifyItem, if_pos hhead, hitem]
          rfl
        obtain ⟨item', hitem', hrest⟩ := ih hfirst
        refine ⟨item', hitem', ?_⟩
        rw [if_pos (hhead ▸ List.mem_cons_self)]
        split at hrest
        · exact hrest
        · rw [hrest]
          exact rolledBackItem_showsOpen item
      · have hfirst : first.items[itemId]? = some item := by
          rw [getElem?_modifyItem, if_neg hhead, hitem]
        obtain ⟨item', hitem', hrest⟩ := ih hfirst
        refine ⟨item', hitem', ?_⟩
        simpa only [List.mem_cons, hhead, false_or] using hrest

theorem mem_createdRows {s : Session} {plans : List ArtifactPlan} {row : String × String} :
    row ∈ createdRows s plans ↔ ∃ plan ∈ plans, plan.acquisition = .created ∧
      s.items.contains plan.itemId = true ∧ s.leases.contains plan.leaseId = true ∧
      (plan.leaseId, plan.itemId) = row := by
  simp only [createdRows, List.mem_map, List.mem_filter, Bool.and_eq_true, beq_iff_eq, and_assoc]

theorem Owned.rollback {s : Session} {leaseId itemId : String} (h : Owned s leaseId itemId)
    (rows : List (String × String)) : Owned (rollbackNewlyLeasedItems s rows) leaseId itemId := by
  refine ⟨?_, fun lease hlease => h.held lease (CommandRun.rollback_leases hlease)⟩
  simp only [auditedLeases, rollback_leaseEvents]
  exact h.logged

theorem Projected.ofView {s view : Session} (h : committedView s = .ok view) : Projected view := by
  obtain ⟨hnodup, rfl⟩ := committedView_ok.mp h
  exact ⟨hnodup, projectedItems_idem _ _⟩

/-- The plans of the batch that a process writes the files of. -/
def Activity.plans? : Activity → Option (List ArtifactPlan)
  | .materializing plans => some plans
  | _ => none

theorem Activity.plans?_eq_some {activity : Activity} {plans : List ArtifactPlan}
    (h : activity.plans? = some plans) : activity = .materializing plans := by
  cases activity with
  | materializing others => rw [Option.some.inj h]
  | _ => cases h

namespace CommandRun

variable {P : Type} [DecidableEq P]

theorem update_materializing {activity : P → Activity} {p q : P} {next : Activity}
    {plans : List ArtifactPlan}
    (h : Function.update activity p next q = .materializing plans) :
    activity q = .materializing plans ∨ q = p ∧ next = .materializing plans := by
  rw [Function.update_apply] at h
  split at h
  · next hsame => exact Or.inr ⟨hsame, h⟩
  · exact Or.inl h

/-- A process writes the files of a batch that it has just committed. -/
theorem next_materializing {run run' : CommandRun P} {label : CommandLabel P} {q : P}
    {plans : List ArtifactPlan} (h : run.next label = some run')
    (hplans : run'.activity q = .materializing plans) :
    run.activity q = .materializing plans ∨
      ∃ args session transition, label = .claimBatch q args ∧ FreshTokens run.session args ∧
        commitBatch args run.session = .ok (session, transition) ∧ transition.plans = plans ∧
        committedView session = .ok run'.session := by
  have hidle : ∀ {p : P} {activity : Activity},
      run'.activity = Function.update run.activity p activity →
      (∀ plans, activity ≠ .materializing plans) → run.activity q = .materializing plans := by
    intro p activity hactivity hnot
    rw [hactivity] at hplans
    rcases update_materializing hplans with hsame | ⟨-, hnow⟩
    · exact hsame
    · exact absurd hnow (hnot plans)
  cases label with
  | perform op =>
      simp only [next] at h
      split at h
      · obtain ⟨session, -, hcommit⟩ := Option.bind_eq_some_iff.mp h
        rw [(commit_some hcommit).2] at hplans
        exact Or.inl hplans
      · cases h
  | claimBatch p args =>
      simp only [next] at h
      split at h
      · split at h
        · next hfresh =>
          split at h
          · cases h
          · next session transition hbatch =>
            obtain ⟨hview, hactivity⟩ := commit_map h
            rw [hactivity] at hplans
            rcases update_materializing hplans with hsame | ⟨rfl, hnow⟩
            · exact Or.inl hsame
            · exact Or.inr ⟨args, session, transition, rfl, hfresh, hbatch,
                Activity.materializing.inj hnow, hview⟩
        · cases h
      · cases h
  | leaveBatch p =>
      simp only [next] at h
      split at h
      · exact Or.inl (hidle (by rw [← Option.some.inj h]; rfl) (by simp))
      · cases h
  | compensate p =>
      simp only [next] at h
      split at h
      · exact Or.inl (hidle (commit_map h).2 (by simp))
      · cases h
  | beginOneShot p itemId agentId =>
      simp only [next] at h
      split at h
      · exact Or.inl (hidle (by rw [← Option.some.inj h]; rfl) (by simp))
      · cases h
  | claimOneShot p claim =>
      simp only [next] at h
      repeat' split at h
      · cases h
      · exact Or.inl (hidle (commit_map h).2 (by simp))
      · cases h
      · cases h
  | reenterOneShot p args files =>
      simp only [next] at h
      repeat' split at h
      · cases h
      · exact Or.inl (hidle (commit_map h).2 (by simp))
      · exact Or.inl (hidle (by rw [← Option.some.inj h]; rfl) (by simp))
      · cases h
      · cases h
  | leaveOneShot p =>
      simp only [next] at h
      split at h
      · exact Or.inl (hidle (by rw [← Option.some.inj h]; rfl) (by simp))
      · exact Or.inl (hidle (by rw [← Option.some.inj h]; rfl) (by simp))
      · cases h
  | rollback p now reasonCode =>
      simp only [next] at h
      split at h
      · exact Or.inl (hidle (commit_map h).2 (by simp))
      · cases h

omit [DecidableEq P] in
theorem Writes.plansOwn {run : CommandRun P} {label : CommandLabel P} {session : Session}
    {plans : List ArtifactPlan} (hkeyed : LeasesKeyed run.session)
    (h : Writes run label session) (hplans : PlansOwn run.session plans) :
    PlansOwn session plans := by
  by_cases hcompensate : ∃ p, label = .compensate p
  · obtain ⟨p, rfl⟩ := hcompensate
    cases h with
    | compensate p others _ =>
        exact fun plan hplan hcreated => (hplans plan hplan hcreated).rollback _
  · exact hplans.lifecycle hkeyed
      (h.lifecycle hkeyed fun p hlabel => absurd ⟨p, hlabel⟩ hcompensate)

/-- Items show their claims, and the leases of the batches under way stay on their items. -/
structure BatchInvariant (run : CommandRun P) : Prop where
  leasesKeyed : LeasesKeyed run.session
  itemsKeyed : ItemsKeyed run.session
  projected : Projected run.session
  plansOwn : ∀ p plans, run.activity p = .materializing plans → PlansOwn run.session plans

omit [DecidableEq P] in
theorem IsFresh.batchInvariant {run : CommandRun P} (h : IsFresh run.session)
    (hidle : run.activity = fun _ => .idle) : BatchInvariant run := by
  refine ⟨h.audited.1, h.itemsKeyed, ⟨?_, ?_⟩, ?_⟩
  · rw [h.leases]
    decide
  · rw [h.items]
    rfl
  · intro p plans hplans
    rw [hidle] at hplans
    cases hplans

theorem BatchInvariant.next {run run' : CommandRun P} {label : CommandLabel P}
    (hinv : BatchInvariant run) (h : run.next label = some run') : BatchInvariant run' := by
  have hkeyed := next_leasesKeyed hinv.leasesKeyed h
  have hitems := (next_orderly hinv.leasesKeyed h hinv.itemsKeyed).1
  refine ⟨hkeyed, hitems, ?_, fun q plans hplans => ?_⟩
  · rcases next_writes h with ⟨hsame, -⟩ | ⟨session, -, hview⟩
    · rw [hsame]
      exact hinv.projected
    · exact .ofView hview
  · rcases next_materializing h hplans with hbefore |
      ⟨args, session, transition, rfl, hfresh, hbatch, rfl, hview⟩
    · have hown := hinv.plansOwn q plans hbefore
      rcases next_writes h with ⟨hsame, -⟩ | ⟨session, hwrites, hview⟩
      · rw [hsame]
        exact hown
      · obtain ⟨-, hsession⟩ := committedView_ok.mp hview
        exact fun plan hplan hcreated => (hwrites.plansOwn hinv.leasesKeyed hown plan hplan
          hcreated).of_same (by rw [hsession]) (by rw [hsession])
    · obtain ⟨-, hsession⟩ := committedView_ok.mp hview
      exact fun plan hplan hcreated => (commitBatch_owned hinv.leasesKeyed hinv.itemsKeyed hfresh
        hbatch plan hplan hcreated).of_same (by rw [hsession]) (by rw [hsession])

theorem batchInvariant {run : CommandRun P} (h : commands.Reachable run) : BatchInvariant run := by
  refine h.invariant BatchInvariant ?_ fun before label after hbefore hstep => hbefore.next hstep
  rintro start ⟨hfresh, hidle⟩
  exact hfresh.batchInvariant hidle

/-- The item carries accepted evidence, or a response to a lease on it was submitted or
accepted. -/
def WorkedOn (s : Session) (itemId : String) (item : Dict) : Prop :=
  hasPublishReadyEvidence item = true ∨
    ∃ (leaseId : String) (lease : Lease), s.leases[leaseId]? = some lease ∧
      lease.itemId = itemId ∧ (lease.status = .submitted ∨ lease.status = .accepted)

/-- Only active leases that the batch has created are taken back, and no item with work on it
is opened. -/
structure CompensationSafe (plans : List ArtifactPlan) (before after : Session) : Prop where
  leases : ∀ (leaseId : String) (lease : Lease), before.leases[leaseId]? = some lease →
    after.leases[leaseId]? = some lease ∨
      (∃ plan ∈ plans, plan.acquisition = .created ∧ plan.leaseId = leaseId) ∧
        lease.status = .active
  items : ∀ (itemId : String) (item item' : Dict), before.items[itemId]? = some item →
    after.items[itemId]? = some item' → WorkedOn before itemId item → ShowsOpen item' →
      ShowsOpen item

/-- The leases that the batch has created are active as long as they are there, and there is
no work on their items. -/
def StillOwn (plans : List ArtifactPlan) (s : Session) : Prop :=
  ∀ plan ∈ plans, plan.acquisition = .created → ∀ (lease : Lease) (item : Dict),
    s.leases[plan.leaseId]? = some lease → s.items[plan.itemId]? = some item →
      lease.status = .active ∧ ¬ WorkedOn s plan.itemId item

/-- The rows of a compensation. -/
theorem createdRow_found {s : Session} {plans : List ArtifactPlan} {row : String × String}
    (h : row ∈ createdRows s plans) : ∃ plan ∈ plans, plan.acquisition = .created ∧
      row = (plan.leaseId, plan.itemId) ∧ ∃ lease item, s.leases[plan.leaseId]? = some lease ∧
        s.items[plan.itemId]? = some item := by
  obtain ⟨plan, hplan, hcreated, hitem, hlease, rfl⟩ := mem_createdRows.mp h
  obtain ⟨item, hitem⟩ := Option.isSome_iff_exists.mp
    (Std.ExtTreeMap.contains_eq_isSome_getElem?.symm.trans hitem)
  obtain ⟨lease, hlease⟩ := Option.isSome_iff_exists.mp
    (Std.ExtTreeMap.contains_eq_isSome_getElem?.symm.trans hlease)
  exact ⟨plan, hplan, hcreated, rfl, lease, item, hlease, hitem⟩

theorem createdRow_of_found {s : Session} {plans : List ArtifactPlan} {plan : ArtifactPlan}
    {lease : Lease} {item : Dict} (hplan : plan ∈ plans) (hcreated : plan.acquisition = .created)
    (hlease : s.leases[plan.leaseId]? = some lease) (hitem : s.items[plan.itemId]? = some item) :
    (plan.leaseId, plan.itemId) ∈ createdRows s plans := by
  refine mem_createdRows.mpr ⟨plan, hplan, hcreated, ?_, ?_, rfl⟩
  · rw [Std.ExtTreeMap.contains_eq_isSome_getElem?, hitem]
    rfl
  · rw [Std.ExtTreeMap.contains_eq_isSome_getElem?, hlease]
    rfl

/-- A compensation commits the session without the rows that it finds. -/
theorem compensate_commits {run run' : CommandRun P} {p : P} {plans : List ArtifactPlan}
    (h : run.next (.compensate p) = some run') (hplans : run.activity p = .materializing plans) :
    committedView (rollbackNewlyLeasedItems run.session (createdRows run.session plans)) =
      .ok run'.session := by
  simp only [next, hplans, compensateBatch] at h
  exact (commit_map h).1

/-- An item that is in no row stays as it is. -/
theorem compensate_keeps {run run' : CommandRun P} {p : P} {plans : List ArtifactPlan}
    (hinv : BatchInvariant run) (h : run.next (.compensate p) = some run')
    (hplans : run.activity p = .materializing plans) {itemId : String} {item : Dict}
    (hitem : run.session.items[itemId]? = some item)
    (hrow : itemId ∉ (createdRows run.session plans).map (·.2)) :
    run'.session.items[itemId]? = some item := by
  let rows := createdRows run.session plans
  obtain ⟨hnodup, hsession⟩ := committedView_ok.mp (compensate_commits h hplans)
  obtain ⟨item', hitem', hsame⟩ := rollback_items rows hitem
  rw [if_neg hrow] at hsame
  subst hsame
  have hclaim : activeLeaseOf (rollbackNewlyLeasedItems run.session rows).leases itemId =
      activeLeaseOf run.session.leases itemId := by
    refine activeLeaseOf_congr hnodup hinv.projected.oneActive fun leaseId lease _ hon => ?_
    rw [getElem?_rollback_leases]
    split
    · next herased =>
      obtain ⟨row, hmem, rfl⟩ := List.mem_map.mp herased
      obtain ⟨plan, hplan, hcreated, rfl, -⟩ := createdRow_found hmem
      have hown := hinv.plansOwn p plans hplans plan hplan hcreated
      constructor
      · simp
      · intro hlease
        refine absurd (List.mem_map.mpr ⟨_, hmem, ?_⟩) hrow
        exact (hown.held lease hlease).symm.trans hon
    · rfl
  rw [hsession]
  simp only [getElem?_projectedItems]
  rw [hitem', hclaim, Option.map_some, hinv.projected.item hitem]

/-- An item whose lease is taken back while it was active is opened. -/
theorem compensate_opens {run run' : CommandRun P} {p : P} {plans : List ArtifactPlan}
    (hinv : BatchInvariant run) (h : run.next (.compensate p) = some run')
    (hplans : run.activity p = .materializing plans) {plan : ArtifactPlan} {lease : Lease}
    {item : Dict} (hplan : plan ∈ plans) (hcreated : plan.acquisition = .created)
    (hlease : run.session.leases[plan.leaseId]? = some lease)
    (hitem : run.session.items[plan.itemId]? = some item) (hactive : lease.isActive = true) :
    ¬ ShowsOpen item ∧
      ∃ item', run'.session.items[plan.itemId]? = some item' ∧ ShowsOpen item' := by
  let rows := createdRows run.session plans
  have hrow := createdRow_of_found hplan hcreated hlease hitem
  have hon : lease.itemId = plan.itemId :=
    (hinv.plansOwn p plans hplans plan hplan hcreated).held lease hlease
  constructor
  · have hclaim : activeLeaseOf run.session.leases plan.itemId = some lease :=
      (activeLeaseOf_eq_some hinv.projected.oneActive).mpr ⟨plan.leaseId, hlease, hactive, hon⟩
    rintro ⟨state, hclaimable, hstate⟩
    rw [← hinv.projected.item hitem, hclaim, get_state_projectClaim_some] at hstate
    obtain rfl := Value.str.inj hstate
    exact absurd hclaimable (by decide)
  · obtain ⟨hnodup, hsession⟩ := committedView_ok.mp (compensate_commits h hplans)
    obtain ⟨item', hitem', hopen⟩ := rollback_items rows hitem
    rw [if_pos (List.mem_map.mpr ⟨_, hrow, rfl⟩)] at hopen
    have hnone : activeLeaseOf (rollbackNewlyLeasedItems run.session rows).leases plan.itemId =
        none := by
      refine (activeLeaseOf_eq_none hnodup).mpr fun leaseId other hother hotherActive hitemId => ?_
      have hsame := nodup_activeItemIds.mp hinv.projected.oneActive leaseId plan.leaseId other
        lease (rollback_leases hother) hlease hotherActive hactive (hitemId.trans hon.symm)
      rw [hsame, getElem?_rollback_leases, if_pos (List.mem_map.mpr ⟨_, hrow, rfl⟩)] at hother
      cases hother
    obtain ⟨state, hclaimable, hstate⟩ := hopen
    have hunclaimed : item'.get "state" ≠ .str "claimed" := by
      rw [hstate]
      intro hclaimed
      obtain rfl := Value.str.inj hclaimed
      exact absurd hclaimable (by decide)
    refine ⟨clearedClaim item', ?_, state, hclaimable, ?_⟩
    · rw [hsession]
      simp only [getElem?_projectedItems]
      rw [hitem', hnone, Option.map_some, projectClaim_none_unclaimed hunclaimed]
    · rw [get_state_clearedClaim, hstate]

/-- A compensation is safe exactly when what the batch has created is still its own. -/
theorem compensation_safe_iff {run run' : CommandRun P} {p : P} {plans : List ArtifactPlan}
    (hreach : commands.Reachable run) (hplans : run.activity p = .materializing plans)
    (h : run.next (.compensate p) = some run') :
    CompensationSafe plans run.session run'.session ↔ StillOwn plans run.session := by
  have hinv := batchInvariant hreach
  obtain ⟨-, hsession⟩ := committedView_ok.mp (compensate_commits h hplans)
  have hleases : ∀ leaseId : String, run'.session.leases[leaseId]? =
      if leaseId ∈ (createdRows run.session plans).map (·.1) then none
      else run.session.leases[leaseId]? := by
    intro leaseId
    rw [hsession]
    exact getElem?_rollback_leases _ _ _
  constructor
  · intro hsafe plan hplan hcreated lease item hlease hitem
    have hrow := createdRow_of_found hplan hcreated hlease hitem
    have hactive : lease.status = .active := by
      rcases hsafe.leases plan.leaseId lease hlease with hkept | ⟨-, hactive⟩
      · rw [hleases, if_pos (List.mem_map.mpr ⟨_, hrow, rfl⟩)] at hkept
        cases hkept
      · exact hactive
    refine ⟨hactive, fun hworked => ?_⟩
    obtain ⟨hclaimed, item', hitem', hopen⟩ := compensate_opens hinv h hplans hplan hcreated
      hlease hitem (by simp [Lease.isActive, hactive, LeaseStatus.isActive])
    exact hclaimed (hsafe.items plan.itemId item item' hitem hitem' hworked hopen)
  · intro hown
    constructor
    · intro leaseId lease hlease
      rw [hleases]
      split
      · next herased =>
        obtain ⟨row, hmem, rfl⟩ := List.mem_map.mp herased
        obtain ⟨plan, hplan, hcreated, rfl, held, item, hheld, hitem⟩ := createdRow_found hmem
        rw [hlease] at hheld
        obtain rfl := Option.some.inj hheld
        exact Or.inr ⟨⟨plan, hplan, hcreated, rfl⟩,
          (hown plan hplan hcreated lease item hlease hitem).1⟩
      · exact Or.inl hlease
    · intro itemId item item' hitem hitem' hworked hopen
      by_cases hrow : itemId ∈ (createdRows run.session plans).map (·.2)
      · obtain ⟨row, hmem, rfl⟩ := List.mem_map.mp hrow
        obtain ⟨plan, hplan, hcreated, rfl, lease, held, hlease, hheld⟩ := createdRow_found hmem
        rw [hitem] at hheld
        obtain rfl := Option.some.inj hheld
        exact absurd hworked (hown plan hplan hcreated lease item hlease hitem).2
      · rw [compensate_keeps hinv h hplans hitem hrow] at hitem'
        obtain rfl := Option.some.inj hitem'
        exact hopen

/-- The lease of a batch that nobody came across is taken back. -/
theorem compensation_safe_iff_untouched :
    ∃ (run run' : CommandRun Unit) (plans : List ArtifactPlan),
      run.session.leases["lease_1"]?.isSome ∧ run'.session.leases["lease_1"]? = none ∧
        (CompensationSafe plans run.session run'.session ↔ StillOwn plans run.session) := by
  have hrun : (TransitionSystem.run next (newRun Unit)
      [.perform (.refresh [reviewThread] none), .claimBatch () (batchArgs "1")]).any (fun run =>
        run.session.leases["lease_1"]?.isSome && (run.activity ()).plans?.isSome &&
          (run.next (.compensate ())).any fun run' => run'.session.leases["lease_1"]?.isNone) =
        true := by decide +kernel
  obtain ⟨run, hreached, hends⟩ := (Option.any_eq_true _ _).mp hrun
  simp only [Bool.and_eq_true] at hends
  obtain ⟨⟨hlease, hplans⟩, hends⟩ := hends
  obtain ⟨plans, hplans⟩ := Option.isSome_iff_exists.mp hplans
  obtain ⟨run', hrun', hgone⟩ := (Option.any_eq_true _ _).mp hends
  exact ⟨run, run', plans, hlease, Option.isNone_iff_eq_none.mp hgone, compensation_safe_iff
    (TransitionSystem.reachable_of_run _ (.start newRun_fresh) hreached)
    (Activity.plans?_eq_some hplans) hrun'⟩

/-- The lease of the batch runs out, another agent answers the thread, and the compensation
opens it again. -/
theorem compensation_safe_iff_overtaken :
    ∃ (run run' : CommandRun Unit) (plans : List ArtifactPlan),
      commands.Reachable run ∧ run.activity () = .materializing plans ∧
        run.next (.compensate ()) = some run' ∧
        ¬ CompensationSafe plans run.session run'.session := by
  have hrun : (TransitionSystem.run next (newRun Unit)
      ([.perform (.refresh [reviewThread] none), .claimBatch () (batchArgs "1"),
        .perform (.reclaim muchLater)] ++
        answerItem "github-thread:T" "clarify" clarifyingAnswer muchLater)).any (fun run =>
          (run.activity ()).plans?.isSome &&
            (run.session.items["github-thread:T"]?).any (fun item =>
              hasPublishReadyEvidence item &&
                item.get "state" == .str "publish_ready") &&
            (run.next (.compensate ())).any fun run' =>
              (run'.session.items["github-thread:T"]?).any fun item =>
                item.get "state" == .str "open") = true := by decide +kernel
  obtain ⟨run, hreached, hends⟩ := (Option.any_eq_true _ _).mp hrun
  simp only [Bool.and_eq_true] at hends
  obtain ⟨⟨hplans, hanswered⟩, hends⟩ := hends
  obtain ⟨plans, hplans⟩ := Option.isSome_iff_exists.mp hplans
  obtain ⟨item, hitem, hanswered⟩ := (Option.any_eq_true _ _).mp hanswered
  obtain ⟨hevidence, hready⟩ := (Bool.and_eq_true _ _).mp hanswered
  obtain ⟨run', hrun', hopened⟩ := (Option.any_eq_true _ _).mp hends
  obtain ⟨item', hitem', hopened⟩ := (Option.any_eq_true _ _).mp hopened
  refine ⟨run, run', plans, TransitionSystem.reachable_of_run _ (.start newRun_fresh) hreached,
    Activity.plans?_eq_some hplans, hrun', fun hsafe => ?_⟩
  obtain ⟨state, hclaimable, hstate⟩ := hsafe.items "github-thread:T" item item' hitem hitem'
    (Or.inl hevidence) ⟨"open", by decide, of_decide_eq_true hopened⟩
  rw [show item.get "state" = .str "publish_ready" from of_decide_eq_true hready] at hstate
  obtain rfl := Value.str.inj hstate
  exact absurd hclaimable (by decide)

end CommandRun
end GhAddressCr
