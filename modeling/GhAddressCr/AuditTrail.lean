import GhAddressCr.CommandRuns

/-!
# The audit trail of leases

Each command takes the audited table of leases through a number of its steps. The compensation
of a batch claim does not: it takes a lease out of the table and leaves its events behind.
-/
namespace GhAddressCr

open PyText GithubThreadState RuntimeStore AuditedTable

theorem modifyItem_ends (s : Session) (itemId : String) (f : Dict → Dict) :
    EndsLeases s (s.modifyItem itemId f) := .of_same (by simp) (by simp)

theorem rejectResponse_ends {α : Type} (s : Session) (response : Dict) (now : Int)
    (rejection : Rejection) :
    EndsLeases s (rejectResponse (α := α) s response now rejection).1 := .of_same rfl rfl

theorem prepare_ends (s : Session) (files : FileSystem) (response : Dict) (now : Int) :
    EndsLeases s (prepareActionResponseSubmission s files response now).1 := by
  unfold prepareActionResponseSubmission
  simp only
  repeat' split
  all_goals exact .refl s

theorem cacheObserved_ends (s : Session) (observed : Option StackContext) :
    EndsLeases s (cacheObserved s observed) := by
  unfold cacheObserved
  split
  · exact .of_same rfl rfl
  · exact .refl s

theorem verifyCitedCommit_ends (s : Session) (submission : ResponseSubmission) (response : Dict)
    (prepared : PreparedSubmission) :
    EndsLeases s (verifyCitedCommitInPr s submission response prepared).1 := by
  unfold verifyCitedCommitInPr
  simp only
  repeat' split
  all_goals exact .refl s

theorem releaseIrrecoverable_ends (s : Session) (prepared : PreparedSubmission) (now : Int) :
    EndsLeases s (releaseIrrecoverableRequestLease s prepared now) := by
  unfold releaseIrrecoverableRequestLease
  simp only
  split
  · exact (releaseLease_ends s prepared.leaseId now _).trans (modifyItem_ends _ _ _)
  · exact modifyItem_ends s _ _

theorem verifyRevisionBinding_ends (s : Session) (submission : ResponseSubmission)
    (response : Dict) (prepared : PreparedSubmission) :
    EndsLeases s (verifyRequestRevisionBinding s submission response prepared).1 := by
  unfold verifyRequestRevisionBinding
  simp only
  split
  · exact cacheObserved_ends s _
  · have hobserved := cacheObserved_ends s (revisionBindingReason submission.prNumber
      (hasObservedStackMembership s) (requestRepositoryContext submission.files prepared.lease)
      submission.observed).2
    split
    · exact (hobserved.trans (rejectResponse_ends _ _ _ _)).trans
        (releaseIrrecoverable_ends _ prepared submission.now)
    · exact hobserved.trans (rejectResponse_ends _ _ _ _)

theorem preflight_ends (s : Session) (submission : ResponseSubmission) :
    EndsLeases s (preflightSubmission s submission).1 := by
  have hprepare := prepare_ends s submission.files submission.response submission.now
  unfold preflightSubmission
  simp only
  split
  · exact .refl s
  · split
    · next prepared stop heq => rwa [heq] at hprepare
    · next prepared response target heq =>
      rw [heq] at hprepare
      have hverify := verifyRevisionBinding_ends prepared submission response target
      split
      · next verified stop heq =>
        rw [heq] at hverify
        exact hprepare.trans hverify
      · next verified binding heq =>
        rw [heq] at hverify
        have hcited := verifyCitedCommit_ends verified submission
          (response.setIfSome "_runtime_revision_binding" (binding.map (·.toValue))) target
        split
        · next cited stop heq =>
          rw [heq] at hcited
          exact (hprepare.trans hverify).trans hcited
        · next cited heq =>
          rw [heq] at hcited
          exact (hprepare.trans hverify).trans hcited

theorem finishAcceptance_ends (s : Session) (response : Dict) (prepared : PreparedSubmission)
    (now : Int) : EndsLeases s (finishAcceptance s response prepared now).1 := by
  unfold finishAcceptance
  split
  · exact (modifyItem_ends s _ _).trans (.of_same rfl rfl)
  · exact (modifyItem_ends s _ _).trans (.of_same rfl rfl)

theorem acceptSubmission_ends (s : Session) (response : Dict) (prepared : PreparedSubmission)
    (now : Int) : EndsLeases s (acceptActionResponseSubmission s response prepared now).1 := by
  have haccept := submitAndAcceptLease_ends s prepared.leaseId (prepared.submitArgs response now)
  unfold acceptActionResponseSubmission
  split
  · next accepted lease heq =>
    rw [heq] at haccept
    exact haccept.trans (finishAcceptance_ends _ _ _ _)
  · next refused reasonCode detail recovery heq =>
    rw [heq] at haccept
    simp only
    split
    · exact haccept.trans (rejectResponse_ends _ _ _ _)
    · next rebound _ =>
      have hrebound := haccept.trans (submitAndAcceptLease_ends refused
        (prepared.rebind rebound).leaseId ((prepared.rebind rebound).submitArgs response now))
      split
      · next accepted lease heq' =>
        rw [heq'] at hrebound
        exact hrebound.trans (finishAcceptance_ends _ _ _ _)
      · next escaped error heq' =>
        rw [heq'] at hrebound
        exact hrebound
  · next escaped error _ heq =>
    rw [heq] at haccept
    exact haccept

theorem acceptMutation_ends {s s' : Session} {metadata : Option Dict}
    {submission : ResponseSubmission} {response : Dict} {result : Except Rejection Acceptance}
    (h : acceptMutation metadata submission response s = .ok (s', result)) : EndsLeases s s' := by
  let loaded := metadata.elim s s.setMetadata
  have hloaded : EndsLeases s loaded := by
    cases metadata with
    | none => exact .refl s
    | some metadata => exact .of_same rfl rfl
  have hprepare := hloaded.trans (prepare_ends loaded submission.files response submission.now)
  rw [acceptMutation_loaded] at h
  unfold acceptMutation at h
  simp only at h
  split at h
  · cases h
  · cases h
  · next prepared expanded target heq =>
    have hprepared : (prepareActionResponseSubmission loaded submission.files response
        submission.now).1 = prepared := congrArg Prod.fst heq
    rw [hprepared] at hprepare
    have haccept := acceptSubmission_ends prepared expanded target submission.now
    split at h
    · next accepted acceptance heq' =>
      rw [heq'] at haccept
      obtain ⟨rfl, -⟩ := Prod.mk.inj (Except.ok.inj h)
      exact hprepare.trans haccept
    · next accepted rejection heq' =>
      rw [heq'] at haccept
      obtain ⟨rfl, -⟩ := Prod.mk.inj (Except.ok.inj h)
      exact hprepare.trans haccept
    · cases h

theorem preflightRow_ends (submission : BatchSubmission) (s : Session) (rows : List PreparedRow)
    (response : Dict) : EndsLeases s (preflightRow submission s rows response).1 := by
  have hprepare := prepare_ends s submission.files response submission.now
  unfold preflightRow
  simp only
  split
  · exact rejectResponse_ends s _ _ _
  · split
    · next prepared stop heq => rwa [heq] at hprepare
    · next prepared expanded target heq =>
      rw [heq] at hprepare
      split
      · exact hprepare.trans (rejectResponse_ends _ _ _ _)
      · split
        · exact hprepare.trans (rejectResponse_ends _ _ _ _)
        · exact hprepare

theorem preflightRows_ends (submission : BatchSubmission) (responses : List Dict) (s : Session)
    (rows : List PreparedRow) :
    EndsLeases s (preflightRows submission s rows responses).session := by
  induction responses generalizing s rows with
  | nil => exact .refl s
  | cons response responses ih =>
      have hrow := preflightRow_ends submission s rows response
      unfold preflightRows
      split
      · next checked stop heq => rwa [heq] at hrow
      · next checked row heq =>
        rw [heq] at hrow
        exact hrow.trans (ih checked _)

theorem bindRow_ends (submission : BatchSubmission) (s : Session) (row : PreparedRow) :
    EndsLeases s (bindRow submission s row).1 := by
  have hverify := verifyRevisionBinding_ends s (submission.single row.response) row.response
    row.prepared
  unfold bindRow
  simp only
  split
  · next verified stop heq => rwa [heq] at hverify
  · next verified binding heq =>
    rw [heq] at hverify
    have hcited := verifyCitedCommit_ends verified (submission.single row.response)
      (row.response.setIfSome "_runtime_revision_binding" (binding.map (·.toValue))) row.prepared
    split
    · next cited stop heq' =>
      rw [heq'] at hcited
      exact hverify.trans hcited
    · next cited heq' =>
      rw [heq'] at hcited
      exact hverify.trans hcited

theorem bindRows_ends (submission : BatchSubmission) (rows : List PreparedRow) (s : Session)
    (bound : List PreparedRow) : EndsLeases s (bindRows submission s bound rows).session := by
  induction rows generalizing s bound with
  | nil => exact .refl s
  | cons row rows ih =>
      have hrow := bindRow_ends submission s row
      unfold bindRows
      split
      · next checked stop heq => rwa [heq] at hrow
      · next checked row' heq =>
        rw [heq] at hrow
        exact hrow.trans (ih checked _)

theorem acceptRows_ends (now : Int) (rows : List PreparedRow) (s : Session) :
    EndsLeases s (acceptRows s now rows).1 := by
  induction rows generalizing s with
  | nil => exact .refl s
  | cons row rows ih =>
      have hrow := acceptSubmission_ends s row.response row.prepared now
      unfold acceptRows
      split
      · next accepted stop heq => rwa [heq] at hrow
      · next accepted acceptance heq =>
        rw [heq] at hrow
        have hrest := ih accepted
        split
        · next rest stop heq' =>
          rw [heq'] at hrest
          exact hrow.trans hrest
        · next rest acceptances heq' =>
          rw [heq'] at hrest
          exact hrow.trans hrest

theorem rejectBatch_ends (s : Session) (rows : List PreparedRow) (now : Int)
    (stop : SubmissionStop) : EndsLeases s (rejectBatch s rows now stop) := by
  unfold rejectBatch
  split
  · exact .refl s
  · split
    · clear * -
      induction rows generalizing s with
      | nil => exact .refl s
      | cons row rows ih =>
          exact (releaseIrrecoverable_ends s row.prepared now).trans (ih _)
    · exact .refl s

theorem submitBatch_ends (s : Session) (submission : BatchSubmission) :
    EndsLeases s (submitBatch s submission).1 := by
  unfold submitBatch
  split
  · exact .refl s
  · next responses _ =>
    have hchecked := preflightRows_ends submission responses s []
    simp only
    split
    · exact hchecked.trans (rejectBatch_ends _ _ _ _)
    · let checked := preflightRows submission s [] responses
      let bound := bindRows submission checked.session [] checked.rows
      have hbound := hchecked.trans (bindRows_ends submission checked.rows checked.session [])
      split
      · exact hbound.trans (rejectBatch_ends _ _ _ _)
      · have haccepted := hbound.trans (acceptRows_ends submission.now bound.rows bound.session)
        split
        · next accepted stop heq =>
          rw [heq] at haccepted
          exact haccepted.trans (rejectBatch_ends _ _ _ _)
        · next accepted acceptances heq =>
          rw [heq] at haccepted
          exact haccepted

theorem refreshStackContext_ends {s s' : Session} {observed : StackContext}
    (h : refreshStackContext s observed = .ok s') : EndsLeases s s' := by
  unfold refreshStackContext at h
  simp only at h
  split at h
  · cases h
  · split at h
    · cases h
    · obtain rfl := Except.ok.inj h
      exact .of_same rfl rfl

theorem refusedClaim_ends {s s' : Session} {args : IssueArgs} {reasonCode : String}
    (h : selectForClaim s args = .refused s' reasonCode) : EndsLeases s s' := by
  have hexpire := expireAndReturn_ends s args.now
  rcases selectForClaim_refused h with rfl | ⟨itemId, item, restored, -, rfl⟩
  · exact hexpire
  · exact hexpire.trans (.of_same rfl rfl)

theorem commitClaim_creates {s s' : Session} {claim : PendingClaim} {lease : Lease}
    (hkeyed : LeasesKeyed s) (hfresh : FreshLeaseId s claim.leaseId)
    (h : commitClaim claim s = .ok (s', lease)) :
    CreatesLeases (· = claim.leaseId) s s' := by
  have hexpire := expireAndReturn_ends s claim.now
  obtain ⟨hkeyed', -⟩ := hexpire hkeyed
  have hfresh' := hexpire.fresh hkeyed (fun _ hnever => hnever) hfresh
  unfold commitClaim at h
  simp only at h
  split at h
  · cases h
  · next item hitem =>
    let adopted := adoptClassification claim item
    let current := applyMetadataDelta (expireAndReturn s claim.now) claim.metadata
    let reading := { current with items := current.items.insert claim.itemId adopted }
    have hfresh'' : FreshLeaseId reading claim.leaseId :=
      ⟨hfresh'.nonempty, hfresh'.unused, hfresh'.unlogged⟩
    have hclaim : CreatesLeases (· = claim.leaseId) (expireAndReturn s claim.now)
        (claimLease reading adopted (claimArgs claim adopted)).1 :=
      @claimLease_creates reading adopted (claimArgs claim adopted) hkeyed' hfresh''
    split at h
    · cases h
    · next claimed granted heq =>
      rw [heq] at hclaim
      obtain ⟨rfl, -⟩ := Prod.mk.inj (Except.ok.inj h)
      exact ((hexpire.creates _).trans hclaim).trans ((modifyItem_ends _ _ _).creates _)

theorem activeFixerRow_some {s : Session} {itemId agentId key : String} {lease : Lease}
    (h : activeFixerRow s itemId agentId = some (key, lease)) :
    s.leases[key]? = some lease ∧ lease.itemId = itemId ∧ lease.status = .active ∧
      lease.role = .fixer ∧ lease.agentId = agentId := by
  have hfound := List.find?_some h
  have hmem := List.mem_of_find?_eq_some h
  simp only [Bool.and_eq_true, beq_iff_eq] at hfound
  obtain ⟨⟨⟨hitem, hstatus⟩, hrole⟩, hagent⟩ := hfound
  exact ⟨Std.ExtTreeMap.mem_toList_iff_getElem?_eq_some.mp hmem, hitem, hstatus, hrole, hagent⟩

/-- A rebuilt request changes the hash of its lease, and nothing else of the leases. -/
theorem reenterOwnFixerLease_ends {s s' : Session} {args : IssueArgs} {files : FileSystem}
    {key : String} {lease : Lease} {item : Dict} {reentry : Reentry}
    (hlease : s.leases[key]? = some lease)
    (h : reenterOwnFixerLease s args files key lease item = .ok reentry)
    (hrebuilt : reentry.rebuilt = some s') : EndsLeases s s' := by
  unfold reenterOwnFixerLease at h
  simp only at h
  split at h
  · obtain rfl := Except.ok.inj h
    cases hrebuilt
  · split at h
    · cases h
    · next read request hread =>
      have hsame : read.leases = s.leases ∧ read.leaseEvents = s.leaseEvents := by
        unfold rebuildFixerRequest at hread
        split at hread
        · cases hread
        · next refreshed hrefresh =>
          simp only at hread
          split at hread
          · cases hread
          · obtain ⟨rfl, -⟩ := Prod.mk.inj (Except.ok.inj hread)
            unfold refreshStackContext at hrefresh
            simp only at hrefresh
            split at hrefresh
            · cases hrefresh
            · split at hrefresh
              · cases hrefresh
              · obtain rfl := Except.ok.inj hrefresh
                exact ⟨rfl, rfl⟩
      split at h
      · cases h
      · next hash _ =>
        obtain rfl := Except.ok.inj h
        obtain rfl := Option.some.inj hrebuilt
        exact .rewrite { lease with requestHash := hash } hlease
          (by simp only [Session.appendEvidence, hsame.1]) rfl rfl rfl hsame.2

theorem reenterClaim_ends {s s' : Session} {args : IssueArgs} {files : FileSystem}
    {reentry : Reentry} (h : reenterClaim s args files = .ok reentry)
    (hrebuilt : reentry.rebuilt = some s') : EndsLeases s s' := by
  have hexpire := expireAndReturn_ends s args.now
  unfold reenterClaim at h
  split at h
  · next selected lease item hselect =>
    obtain rfl := selectForClaim_reenter hselect
    split at h
    · next key held hrow =>
      exact hexpire.trans (reenterOwnFixerLease_ends (activeFixerRow_some hrow).1 h hrebuilt)
    · cases h
  · cases h

theorem appendEvidence_foldl_ends {α : Type} (records : List α)
    (record : Session → α → EvidenceRecord) (s : Session) :
    EndsLeases s (records.foldl (fun session a => session.appendEvidence (record session a)) s) := by
  induction records generalizing s with
  | nil => exact .refl s
  | cons a records ih =>
      exact LeaseSteps.trans (.of_same rfl rfl) (ih (s.appendEvidence (record s a)))

theorem recordClassification_ends {s s' : Session} {args : ClassifyArgs}
    {released : Option String} (h : recordClassification args s = .ok (s', released)) :
    EndsLeases s s' := by
  have hrelease : ∀ current, EndsLeases current (releaseActiveTriageLease current args).1 := by
    intro current
    unfold releaseActiveTriageLease
    split
    · exact .refl current
    · exact (releaseLease_ends current _ args.now _).trans (.of_same rfl rfl)
  unfold recordClassification at h
  simp only at h
  repeat' split at h
  · cases h
  · cases h
  · cases h
  · obtain ⟨rfl, -⟩ := Prod.mk.inj (Except.ok.inj h)
    exact ((LeaseSteps.of_same rfl rfl).trans (hrelease (s.appendEvidence _))).trans
      (modifyItem_ends _ _ _)

theorem releaseSelfStaleLease_ends (s : Session) (itemId agentId : String) (now : Int) :
    EndsLeases s (releaseSelfStaleLease s itemId agentId now) := by
  have hrows : ∀ (rows : List (String × Lease)) (current : Session), EndsLeases current
      (rows.foldl (fun session row =>
        (releaseLease session row.2.leaseId now (some "stale_reclaim")).1) current) := by
    intro rows
    induction rows with
    | nil => exact LeaseSteps.refl
    | cons row rows ih =>
        exact fun current => (releaseLease_ends current _ now _).trans (ih _)
  unfold releaseSelfStaleLease
  simp only
  split
  · exact .refl s
  · exact (hrows _ s).trans (modifyItem_ends _ _ _)

theorem releaseStaleLeases_ends (itemIds : List String) (agentId : String) (now : Int)
    (s : Session) : EndsLeases s (itemIds.foldl
      (fun session itemId => releaseSelfStaleLease session itemId agentId now) s) := by
  induction itemIds generalizing s with
  | nil => exact .refl s
  | cons itemId itemIds ih =>
      exact (releaseSelfStaleLease_ends s itemId agentId now).trans
        (ih (releaseSelfStaleLease s itemId agentId now))

theorem reclaimLeases_ends {s s' : Session} {now : Int} {expired : List Lease}
    (h : reclaimLeases now s = .ok (s', expired)) : EndsLeases s s' := by
  unfold reclaimLeases at h
  simp only at h
  obtain ⟨rfl, -⟩ := Prod.mk.inj (Except.ok.inj h)
  exact (expireAndReturn_ends s now).trans (appendEvidence_foldl_ends _
    (fun session lease => leaseExpiredRecord session lease now) _)

theorem exceptMap_ok {ε α β : Type} {x : Except ε α} {f : α → β} {b : β} :
    x.map f = .ok b ↔ ∃ a, x = .ok a ∧ f a = b := by
  cases x with
  | error e => simp [Except.map]
  | ok a => simp [Except.map]

theorem ensureBatchClassification_ends (s : Session) (args : BatchArgs) (itemId : String)
    (item : Dict) : EndsLeases s (ensureBatchClassification s args itemId item).1 := by
  unfold ensureBatchClassification
  split
  · exact .refl s
  · exact .of_same rfl rfl

theorem reconcileExistingLease_ends {s : Session} {args : BatchArgs} {itemId key : String}
    {item : Dict} {existing : Lease} {row : BatchRow} (hlease : s.leases[key]? = some existing)
    (h : reconcileExistingLease s args itemId item key existing = .ok row) :
    EndsLeases s row.session ∧ row.plan.acquisition = .reentered := by
  have hsame : (ensureBatchClassification s args itemId item).1.leases = s.leases := by
    unfold ensureBatchClassification
    split <;> rfl
  unfold reconcileExistingLease at h
  simp only at h
  split at h
  · cases h
  · split at h
    · cases h
    · obtain rfl := Except.ok.inj h
      refine ⟨(ensureBatchClassification_ends s args itemId item).trans ?_, rfl⟩
      have hheld : (ensureBatchClassification s args itemId item).1.leases[key]? =
          some existing := by
        rw [hsame]
        exact hlease
      exact .rewrite _ hheld rfl rfl rfl rfl rfl

/-- A thread is leased under the id that was drawn for it, and its plan says so. -/
theorem leaseNewGithubThread_creates {s : Session} {args : BatchArgs} {itemId : String}
    {item : Dict} {row : BatchRow} (hkeyed : LeasesKeyed s)
    (hfresh : FreshLeaseId s (args.leaseId itemId))
    (h : leaseNewGithubThread s args itemId item = .ok (some row)) :
    CreatesLeases (· = args.leaseId itemId) s row.session ∧ row.plan.leaseId = args.leaseId itemId ∧
      row.plan.itemId = itemId := by
  unfold leaseNewGithubThread at h
  split at h
  · cases h
  · have hensure := ensureBatchClassification_ends s args itemId item
    obtain ⟨hkeyed', -⟩ := hensure hkeyed
    have hfresh' := hensure.fresh hkeyed (fun _ hnever => hnever) hfresh
    simp only at h
    split at h
    · cases h
    · next request _ =>
      split at h
      · cases h
      · next hash _ =>
        let ensured := ensureBatchClassification s args itemId item
        let requestId := args.requestId ensured.1 itemId (args.leaseId itemId)
        have hclaim : CreatesLeases (· = args.leaseId itemId) ensured.1 (claimLease ensured.1
            ensured.2.1 (batchClaimArgs args (args.leaseId itemId) requestId hash
              (requestPathIn args.workspaceDir requestId))).1 :=
          claimLease_creates _ hkeyed' hfresh'
        split at h
        · cases h
        · next claimed lease heq =>
          rw [heq] at hclaim
          obtain rfl := Option.some.inj (Except.ok.inj h)
          refine ⟨?_, rfl, rfl⟩
          exact ((hensure.creates _).trans hclaim).trans ((modifyItem_ends _ _ _).creates _)

/-- One target item creates at most the lease under its own id. -/
theorem claimBatchItem_creates {args : BatchArgs} {progress progress' : BatchProgress}
    {itemId : String} (hkeyed : LeasesKeyed progress.session)
    (hfresh : FreshLeaseId progress.session (args.leaseId itemId))
    (h : claimBatchItem args progress itemId = .ok progress') :
    CreatesLeases (· = args.leaseId itemId) progress.session progress'.session := by
  unfold claimBatchItem at h
  split at h
  · obtain rfl := Except.ok.inj h
    exact .refl _
  · next item _ =>
    split at h
    · next key existing hrow =>
      obtain ⟨row, hreconcile, rfl⟩ := exceptMap_ok.mp h
      exact (reconcileExistingLease_ends (activeFixerRow_some hrow).1 hreconcile).1.creates _
    · split at h
      · obtain rfl := Except.ok.inj h
        exact .refl _
      · obtain ⟨row?, hlease, rfl⟩ := exceptMap_ok.mp h
        cases row? with
        | none => exact .refl _
        | some row => exact (leaseNewGithubThread_creates hkeyed hfresh hlease).1

/-- The ids of the items to come are still fresh after an item. -/
theorem claimBatchItem_keepsFresh {args : BatchArgs} {progress progress' : BatchProgress}
    {itemId : String} {targets : List String} (hkeyed : LeasesKeyed progress.session)
    (hfresh : ∀ id ∈ itemId :: targets, FreshLeaseId progress.session (args.leaseId id))
    (hdistinct : ((itemId :: targets).map args.leaseId).Nodup)
    (h : claimBatchItem args progress itemId = .ok progress') :
    Lifecycle progress.session progress'.session ∧
      ∀ id ∈ targets, FreshLeaseId progress'.session (args.leaseId id) := by
  have hcreates := claimBatchItem_creates hkeyed (hfresh itemId List.mem_cons_self) h
  refine ⟨hcreates.lifecycle, fun other hother => ?_⟩
  refine hcreates.fresh hkeyed (fun _ hcreated => ?_)
    (hfresh other (List.mem_cons_of_mem itemId hother))
  exact (List.nodup_cons.mp hdistinct).1 (hcreated.1 ▸ List.mem_map_of_mem hother)

theorem claimBatchItems_lifecycle {args : BatchArgs} {targets : List String}
    {progress progress' : BatchProgress} (hkeyed : LeasesKeyed progress.session)
    (hfresh : ∀ itemId ∈ targets, FreshLeaseId progress.session (args.leaseId itemId))
    (hdistinct : (targets.map args.leaseId).Nodup)
    (h : targets.foldlM (claimBatchItem args) progress = .ok progress') :
    Lifecycle progress.session progress'.session := by
  induction targets generalizing progress with
  | nil =>
      obtain rfl := Except.ok.inj h
      exact .refl _
  | cons itemId targets ih =>
      rw [List.foldlM_cons] at h
      cases hitem : claimBatchItem args progress itemId with
      | error e => simp [hitem, bind, Except.bind] at h
      | ok middle =>
          simp only [hitem, bind, Except.bind] at h
          obtain ⟨hsteps, hrest⟩ := claimBatchItem_keepsFresh hkeyed hfresh hdistinct hitem
          obtain ⟨hkeyed', -⟩ := hsteps hkeyed
          exact hsteps.trans (ih hkeyed' hrest (List.nodup_cons.mp hdistinct).2 h)

theorem commitBatch_lifecycle {s s' : Session} {args : BatchArgs} {transition : BatchTransition}
    (hkeyed : LeasesKeyed s) (htokens : FreshTokens s args)
    (h : commitBatch args s = .ok (s', transition)) : Lifecycle s s' := by
  let current := expireAndReturn (applyMetadataDelta s args.metadata) args.now
  have hmetadata : EndsLeases s (applyMetadataDelta s args.metadata) := .of_same rfl rfl
  have hexpire : EndsLeases s current := hmetadata.trans (expireAndReturn_ends _ args.now)
  obtain ⟨hkeyed', -⟩ := hexpire hkeyed
  unfold commitBatch at h
  simp only at h
  split at h
  · cases h
  · split at h
    · cases h
    · next progress hprogress =>
      have hclaims := claimBatchItems_lifecycle hkeyed' (fun itemId hitem =>
        hexpire.fresh hkeyed (fun _ hnever => hnever) (htokens.fresh itemId hitem))
        htokens.distinct hprogress
      split at h
      · cases h
      · obtain ⟨rfl, -⟩ := Prod.mk.inj (Except.ok.inj h)
        exact (hexpire.lifecycle.trans hclaims).trans
          (appendEvidence_foldl_ends _ (fun session => batchIssuedRecord session args) _).lifecycle

theorem toOption_map_fst {ε α β : Type} {x : Except ε (α × β)} {a : α}
    (h : x.toOption.map (·.1) = some a) : ∃ b, x = .ok (a, b) := by
  cases x with
  | error e => cases h
  | ok pair => exact ⟨pair.2, by rw [← Option.some.inj h]⟩

theorem publishItems_ends (replies : List (String × String)) (login : String) (now : Int)
    (s : Session) : EndsLeases s (publishItems s replies login now) := by
  unfold publishItems
  induction replies generalizing s with
  | nil => exact .refl s
  | cons reply replies ih => exact (modifyItem_ends s _ _).trans (ih _)

theorem ingest_ends (s : Session) (findings : List LocalFinding) (source : String) (sync : Bool)
    (now : Int) : EndsLeases s (ingestNativeFindings s findings source sync now) := by
  unfold ingestNativeFindings
  simp only
  split
  · exact .of_same rfl rfl
  · exact .of_same rfl rfl

theorem reopen_ends {s s' : Session} {itemId : String} {now : Int}
    (h : reopenResolvedThreadForReply itemId now s = .ok (s', ())) : EndsLeases s s' := by
  unfold reopenResolvedThreadForReply at h
  repeat' split at h
  · cases h
  · cases h
  · cases h
  · cases h
  · obtain ⟨rfl, -⟩ := Prod.mk.inj (Except.ok.inj h)
    exact .of_same rfl rfl

/-- Every write of a single command moves the leases by steps that the events say. -/
theorem SessionOp.apply_lifecycle {s s' : Session} {op : SessionOp} (hkeyed : LeasesKeyed s)
    (hfresh : op.hasFreshId s) (h : op.apply s = some s') : Lifecycle s s' := by
  cases op with
  | claim pending =>
      simp only [apply] at h
      obtain ⟨lease, hclaim⟩ := toOption_map_fst h
      exact (commitClaim_creates hkeyed hfresh hclaim).lifecycle
  | refuse args =>
      simp only [apply] at h
      split at h
      · next session reasonCode hrefused =>
        obtain rfl := Option.some.inj h
        exact (refusedClaim_ends hrefused).lifecycle
      · cases h
  | reenter args files =>
      obtain ⟨reentry, hreenter, hrebuilt⟩ := Option.bind_eq_some_iff.mp h
      have hok : reenterClaim s args files = .ok reentry := by
        cases heq : reenterClaim s args files with
        | error e => simp [heq, Except.toOption] at hreenter
        | ok found => simpa [heq, Except.toOption] using hreenter
      exact (reenterClaim_ends hok hrebuilt).lifecycle
  | reject submission =>
      have hpreflight := preflight_ends s submission
      simp only [apply] at h
      split at h
      · next session rejection heq =>
        obtain rfl := Option.some.inj h
        rw [heq] at hpreflight
        exact hpreflight.lifecycle
      · cases h
  | accept metadata submission response =>
      simp only [apply] at h
      obtain ⟨result, haccept⟩ := toOption_map_fst h
      exact (acceptMutation_ends haccept).lifecycle
  | answerBatch submission =>
      have hbatch := submitBatch_ends s submission
      simp only [apply] at h
      split at h
      · cases h
      · next session result _ heq =>
        obtain rfl := Option.some.inj h
        rw [heq] at hbatch
        exact hbatch.lifecycle
  | reclaim now =>
      simp only [apply] at h
      obtain ⟨expired, hreclaim⟩ := toOption_map_fst h
      exact (reclaimLeases_ends hreclaim).lifecycle
  | releaseClaimed leaseId now reason =>
      obtain rfl := Option.some.inj h
      exact (releaseClaimedLease_ends s leaseId now reason).lifecycle
  | releaseStale itemIds agentId now =>
      obtain rfl := Option.some.inj h
      exact (releaseStaleLeases_ends itemIds agentId now s).lifecycle
  | classify args =>
      simp only [apply] at h
      obtain ⟨released, hclassify⟩ := toOption_map_fst h
      exact (recordClassification_ends hclassify).lifecycle
  | reopen itemId now =>
      simp only [apply] at h
      obtain ⟨_, hreopen⟩ := toOption_map_fst h
      exact (reopen_ends hreopen).lifecycle
  | refresh threads currentLogin =>
      obtain rfl := Option.some.inj h
      exact .of_same rfl rfl
  | ingest findings source sync now =>
      obtain rfl := Option.some.inj h
      exact (ingest_ends s findings source sync now).lifecycle
  | publish replies login now =>
      obtain rfl := Option.some.inj h
      exact (publishItems_ends replies login now s).lifecycle
  | note itemId written =>
      obtain rfl := Option.some.inj h
      exact (modifyItem_ends s itemId written.write).lifecycle
  | describe field value =>
      simp only [apply] at h
      split at h
      · cases h
      · obtain rfl := Option.some.inj h
        exact .of_same rfl rfl

/-- What a lease function makes of a session. -/
def LeaseOp.change (op : LeaseOp) (session : Session) : Session :=
  (op.apply ⟨session, 0, ∅, 0⟩).session

def LeaseOp.hasFreshId (session : Session) : LeaseOp → Prop
  | .claim _ args | .reclaim _ args => FreshLeaseId session args.leaseId
  | _ => True

instance (session : Session) (op : LeaseOp) : Decidable (op.hasFreshId session) := by
  cases op <;> unfold LeaseOp.hasFreshId <;> infer_instance

theorem LeaseOp.change_lifecycle {s : Session} {op : LeaseOp} (hkeyed : LeasesKeyed s)
    (hfresh : op.hasFreshId s) : Lifecycle s (op.change s) := by
  have hrecord : ∀ (r : LeaseRun) (allow : Bool) (result : Session × Except LeaseError Lease),
      (recordClaim r allow result).session = result.1 := by
    rintro r allow ⟨session, error | lease⟩ <;> rfl
  cases op with
  | claim item args =>
      simp only [change, apply, hrecord]
      exact (claimLease_creates item hkeyed hfresh).lifecycle
  | reclaim item args =>
      simp only [change, apply, hrecord, reclaimLease]
      have hexpire := expireLeases_ends s args.now
      obtain ⟨hkeyed', -⟩ := hexpire hkeyed
      have hfresh' := hexpire.fresh hkeyed (fun _ hnever => hnever) hfresh
      exact hexpire.lifecycle.trans (@claimLease_creates (expireLeases s args.now).1 item
        { args with conflictKeys := none, allowSameAgentGithubThreadFileOverlap := false }
        hkeyed' hfresh').lifecycle
  | submit leaseId args => exact (submitLease_ends s leaseId args).lifecycle
  | accept leaseId now => exact (acceptLease_ends s leaseId now).lifecycle
  | release leaseId now reason => exact (releaseLease_ends s leaseId now reason).lifecycle
  | releaseClaimed leaseId now reason =>
      exact (releaseClaimedLease_ends s leaseId now reason).lifecycle
  | expire now => exact (expireLeases_ends s now).lifecycle

namespace CommandRun

variable {P : Type} [DecidableEq P]

theorem committedView_ends {s view : Session} (h : committedView s = .ok view) :
    EndsLeases s view := by
  obtain ⟨-, rfl⟩ := committedView_ok.mp h
  exact .of_same rfl rfl

theorem createdRows_none {s : Session} {plans : List ArtifactPlan}
    (h : createdRows s plans = []) : rollbackNewlyLeasedItems s (createdRows s plans) = s := by
  rw [h]
  rfl

/-- A step of any command, or of a lease function alone. -/
def operate (run : CommandRun P) : CommandLabel P ⊕ LeaseOp → Option (CommandRun P)
  | .inl label => run.next label
  | .inr op => if op.hasFreshId run.session then run.commit (op.change run.session) else none

/-- The runs of all session operations from a fresh session. -/
def operations : TransitionSystem (CommandRun P) (CommandLabel P ⊕ LeaseOp) :=
  .ofNext (fun run => IsFresh run.session ∧ run.activity = fun _ => .idle) operate

/-- The compensation of a batch claim finds none of its leases. -/
def FindsNothing (run : CommandRun P) (p : P) : Prop :=
  match run.activity p with
  | .materializing plans => createdRows run.session plans = []
  | _ => True

instance (run : CommandRun P) (p : P) : Decidable (run.FindsNothing p) := by
  unfold FindsNothing
  split <;> infer_instance

/-- No compensation finds a lease of its batch. -/
def NoLeaseTakenBack :
    TransitionSystem.StepCondition (CommandRun P) (CommandLabel P ⊕ LeaseOp) :=
  fun run label _ =>
    match label with
    | .inl (.compensate p) => run.FindsNothing p
    | _ => True

instance (run run' : CommandRun P) (label : CommandLabel P ⊕ LeaseOp) :
    Decidable (NoLeaseTakenBack run label run') := by
  unfold NoLeaseTakenBack
  split <;> infer_instance

omit [DecidableEq P] in
theorem Writes.lifecycle {run : CommandRun P} {label : CommandLabel P} {session : Session}
    (hkeyed : LeasesKeyed run.session)
    (hnothing : ∀ p, label = .compensate p → run.FindsNothing p) (h : Writes run label session) :
    Lifecycle run.session session := by
  cases h with
  | perform op _ hfresh happly => exact op.apply_lifecycle hkeyed hfresh happly
  | claimBatch p args _ transition hfresh hbatch => exact commitBatch_lifecycle hkeyed hfresh hbatch
  | compensate p plans hactivity =>
      have hfound := hnothing p rfl
      simp only [FindsNothing, hactivity] at hfound
      rw [createdRows_none hfound]
      exact .refl _
  | claimOneShot p claim _ lease hfresh hcommit =>
      exact (commitClaim_creates hkeyed hfresh hcommit).lifecycle
  | reenterOneShot p args files reentry _ hreenter hrebuilt =>
      exact (reenterClaim_ends hreenter hrebuilt).lifecycle
  | rollback p preexisting leaseId acquisition now reasonCode _ =>
      unfold rollbackOneShot
      split
      · exact .refl _
      · exact (releaseClaimedLease_ends _ _ _ _).lifecycle

theorem operate_lifecycle {run run' : CommandRun P} {label : CommandLabel P ⊕ LeaseOp}
    (hkeyed : LeasesKeyed run.session) (h : run.operate label = some run')
    (hnothing : NoLeaseTakenBack run label run') : Lifecycle run.session run'.session := by
  cases label with
  | inl label =>
      rcases next_writes h with ⟨hsame, -⟩ | ⟨session, hwrites, hview⟩
      · rw [hsame]
        exact .refl _
      · refine (hwrites.lifecycle hkeyed ?_).trans (committedView_ends hview).lifecycle
        rintro p rfl
        exact hnothing
  | inr op =>
      simp only [operate] at h
      split at h
      · next hfresh =>
        exact (op.change_lifecycle hkeyed hfresh).trans
          (committedView_ends (commit_some h).1).lifecycle
      · cases h

/-- The leases of the first session are in the second, and their statuses have moved. -/
def StatusesMove (s s' : Session) : Prop :=
  ∀ (id : String) (lease : Lease), s.leases[id]? = some lease →
    ∃ lease', s'.leases[id]? = some lease' ∧
      Relation.ReflTransGen StatusMoves lease.status lease'.status ∧
      (lease.isActive = false → lease'.status = lease.status)

theorem statusesMove_of_lifecycle {s s' : Session} (hkeyed : LeasesKeyed s) (h : Lifecycle s s') :
    StatusesMove s s' := by
  obtain ⟨-, hsteps⟩ := h hkeyed
  intro id lease hlease
  obtain ⟨new, hnew, hpath⟩ := @Steps.status _ _ _ _ _ _ _ hsteps id (lease.itemId, lease.status)
    (by simp [auditedLeases, hlease])
  obtain ⟨lease', hlease', rfl⟩ := Option.map_eq_some_iff.mp hnew
  have hmoves : Relation.ReflTransGen StatusMoves lease.status lease'.status :=
    hpath.lift (·.2) fun _ _ hmove => hmove.status
  refine ⟨lease', hlease', hmoves, fun hended => ?_⟩
  rcases hmoves.cases_head with hsame | ⟨middle, hmove, -⟩
  · exact hsame.symm
  · have hactive := hmove.isActive
    rw [Lease.isActive, hactive] at hended
    cases hended

theorem IsFresh.audited {s : Session} (h : IsFresh s) :
    LeasesKeyed s ∧ Accounted (auditedLeases s) := by
  constructor
  · intro id lease hlease
    rw [h.leases] at hlease
    simp at hlease
  · intro id status hlast
    simp [auditedLeases, h.leaseEvents, lastStatus] at hlast

/-- Unless a compensation takes a lease back, the status of a lease only moves on, and every
lease that an event tells of is there with the status of its last event. -/
theorem leases_accounted {run : CommandRun P}
    (hrun : (operations (P := P)).ReachableUnder NoLeaseTakenBack run) :
    Accounted (auditedLeases run.session) ∧
      ∀ (label : CommandLabel P ⊕ LeaseOp) (run' : CommandRun P), run.operate label = some run' →
        NoLeaseTakenBack run label run' → StatusesMove run.session run'.session := by
  have hinv : LeasesKeyed run.session ∧ Accounted (auditedLeases run.session) := by
    refine hrun.invariant
      (fun run => LeasesKeyed run.session ∧ Accounted (auditedLeases run.session)) ?_ ?_
    · rintro start ⟨hfresh, -⟩
      exact hfresh.audited
    · intro before label after hbefore hstep hnothing
      obtain ⟨hkeyed', hsteps⟩ := operate_lifecycle hbefore.1 hstep hnothing hbefore.1
      exact ⟨hkeyed', hsteps.accounted hbefore.2⟩
  refine ⟨hinv.2, fun label run' hstep hnothing => ?_⟩
  exact statusesMove_of_lifecycle hinv.1 (operate_lifecycle hinv.1 hstep hnothing)

def newSession : Session where
  root := Dict.ofFields [("session_id", .str "session")]
  items := ∅
  leases := ∅
  leaseEvents := []

def newRun (P : Type) : CommandRun P where
  session := newSession
  activity := fun _ => .idle

omit [DecidableEq P] in
theorem newRun_fresh : IsFresh (newRun P).session ∧ (newRun P).activity = fun _ => .idle :=
  ⟨⟨rfl, rfl, rfl⟩, rfl⟩

def reviewThread : Dict :=
  Dict.ofFields [("thread_id", .str "T"), ("path", .str "a.py"), ("line", .int 1),
    ("body", .str "Please fix.")]

def batchArgs (token : String) : BatchArgs where
  repo := "o/r"
  prNumber := "1"
  agentId := "agent"
  files := []
  now := 0
  token := fun _ => token
  workspaceDir := "/w"
  fileSystem := ∅
  metadata := { updates := ∅, removed := [] }

/-- A thread comes in, and a batch claims it. -/
def claimedBatch : List (CommandLabel Unit ⊕ LeaseOp) :=
  [.inl (.perform (.refresh [reviewThread] none)), .inl (.claimBatch () (batchArgs "1"))]

/-- Once the batch has claimed its thread, the lease of the thread is accounted for. -/
theorem leases_accounted_claimedBatch : ∃ run : CommandRun Unit,
    run.session.leases["lease_1"]?.isSome ∧ Accounted (auditedLeases run.session) ∧
      ∀ (label : CommandLabel Unit ⊕ LeaseOp) (run' : CommandRun Unit),
        run.operate label = some run' → NoLeaseTakenBack run label run' →
        StatusesMove run.session run'.session := by
  have hrun : (TransitionSystem.run (fun run label => (operate run label).filter fun run' =>
      NoLeaseTakenBack run label run') (newRun Unit) claimedBatch).any
        (fun run => run.session.leases["lease_1"]?.isSome) = true := by decide +kernel
  obtain ⟨run, hreached, hlease⟩ := (Option.any_eq_true _ _).mp hrun
  exact ⟨run, hlease, leases_accounted
    (TransitionSystem.reachableUnder_of_run claimedBatch (.start newRun_fresh) hreached)⟩

/-- The compensation takes the lease away and leaves its event behind. -/
theorem compensatedBatch_unaccounted : ∃ run : CommandRun Unit,
    operations.Reachable run ∧ ¬ Accounted (auditedLeases run.session) := by
  have hrun : (TransitionSystem.run operate (newRun Unit)
      (claimedBatch ++ [.inl (.compensate ())])).any (fun run =>
        run.session.leases["lease_1"]? = none &&
          (lastStatus (auditedLeases run.session).log "lease_1").isSome) = true := by
    decide +kernel
  obtain ⟨run, hreached, hlost⟩ := (Option.any_eq_true _ _).mp hrun
  simp only [Bool.and_eq_true, decide_eq_true_eq] at hlost
  refine ⟨run, TransitionSystem.reachable_of_run _ (.start newRun_fresh) hreached, ?_⟩
  intro haccounted
  obtain ⟨status, hlast⟩ := Option.isSome_iff_exists.mp hlost.2
  have hfound := haccounted "lease_1" status hlast
  simp [auditedLeases, hlost.1] at hfound

end CommandRun

end GhAddressCr
