import GhAddressCr.RequestFrames

/-!
# Commands and requests

Every command but three leaves all items what their requests are built from: threads that are
observed, findings that come in and validation evidence that is recorded are written from
outside. A response rewrites the finding it is accepted for.
-/
namespace GhAddressCr

open PyText GithubThreadState RuntimeStore

theorem releaseIrrecoverable_keepsRequests (s : Session) (prepared : PreparedSubmission)
    (now : Int) : KeepsRequests s (releaseIrrecoverableRequestLease s prepared now) := by
  have hreset : ∀ current : Session, KeepsRequests current
      (current.modifyItem prepared.itemId (resetIrrecoverableItem prepared.leaseId)) :=
    fun current => .modifyItem (keepsRequest_resetIrrecoverable prepared.leaseId) current
  unfold releaseIrrecoverableRequestLease
  simp only
  split
  · exact (releaseLease_keepsRequests s prepared.leaseId now _).then (hreset _)
  · exact hreset s

theorem preflight_keepsRequests {s s' : Session} {submission : ResponseSubmission}
    {rejection : Rejection}
    (h : preflightSubmission s submission = (s', .error (.rejected rejection))) :
    KeepsRequests s s' := by
  rcases preflight_rejected h with ⟨-, hnotes⟩ | ⟨prepared, noted, -, hnotes, rfl⟩
  · exact hnotes.keepsRequests
  · exact hnotes.keepsRequests.then (releaseIrrecoverable_keepsRequests noted prepared _)

theorem releaseRows_keepsRequests (rows : List PreparedRow) (now : Int) (s : Session) :
    KeepsRequests s (rows.foldl
      (fun session row => releaseIrrecoverableRequestLease session row.prepared now) s) := by
  induction rows generalizing s with
  | nil => exact .refl s
  | cons row rows ih => exact (releaseIrrecoverable_keepsRequests s row.prepared now).then (ih _)

theorem rejectBatch_keepsRequests (s : Session) (rows : List PreparedRow) (now : Int)
    (stop : SubmissionStop) : KeepsRequests s (rejectBatch s rows now stop) := by
  unfold rejectBatch
  split
  · exact .refl s
  · split
    · exact releaseRows_keepsRequests rows now s
    · exact .refl s

/-- The rows are on threads. -/
def OnThreads (s : Session) (rows : List PreparedRow) : Prop :=
  ∀ row ∈ rows, ¬ NotThread s row.prepared.itemId

theorem acceptRows_keepsRequests (now : Int) (rows : List PreparedRow) {s : Session}
    (hthreads : OnThreads s rows) : KeepsRequests s (acceptRows s now rows).1 := by
  induction rows generalizing s with
  | nil => exact .refl s
  | cons row rows ih =>
      have hrow : KeepsRequests s
          (acceptActionResponseSubmission s row.response row.prepared now).1 := by
        refine (acceptSubmission_frame s row.response row.prepared now).weaken ?_
        rintro id ⟨rfl, hlocal, -⟩
        exact hthreads row List.mem_cons_self hlocal
      have hrest : ∀ accepted, KeepsRequests s accepted → OnThreads accepted rows :=
        fun accepted hkeeps other hother hlocal =>
          hthreads other (List.mem_cons_of_mem row hother) (hkeeps.notThread hlocal)
      unfold acceptRows
      split
      · next accepted stop heq => rwa [heq] at hrow
      · next accepted acceptance heq =>
        rw [heq] at hrow
        have hrows := ih (hrest accepted hrow)
        split
        · next rest stop heq' =>
          rw [heq'] at hrows
          exact hrow.then hrows
        · next rest acceptances heq' =>
          rw [heq'] at hrows
          exact hrow.then hrows

theorem bindRows_keepsRequests (submission : BatchSubmission) (s : Session)
    (rows : List PreparedRow) : KeepsRequests s (bindRows submission s [] rows).session := by
  cases hstop : (bindRows submission s [] rows).stop with
  | none => exact (bindRows_ok hstop).1.keepsRequests
  | some stop =>
      obtain ⟨noted, hnotes, hsession | ⟨row, -, _, -, -, hsession⟩⟩ := bindRows_stop hstop
      · rw [hsession]
        exact hnotes.keepsRequests
      · rw [hsession]
        exact hnotes.keepsRequests.then
          (releaseIrrecoverable_keepsRequests noted row.prepared submission.now)

/-- A batch is accepted on threads alone. -/
theorem submitBatch_keepsRequests {s : Session} (hkeyed : LeasesKeyed s)
    (submission : BatchSubmission) : KeepsRequests s (submitBatch s submission).1 := by
  unfold submitBatch
  split
  · exact .refl s
  · next responses _ =>
    obtain ⟨hnotes, hready, -⟩ :=
      preflightRows_spec submission hkeyed responses (readyRows_nil s submission.now)
    let checked := preflightRows submission s [] responses
    have hchecked : KeepsRequests s checked.session := hnotes.keepsRequests
    simp only
    split
    · exact hchecked.then (rejectBatch_keepsRequests _ _ _ _)
    · let bound := bindRows submission checked.session [] checked.rows
      have hbound : KeepsRequests s bound.session :=
        hchecked.then (bindRows_keepsRequests submission checked.session checked.rows)
      split
      · exact hbound.then (rejectBatch_keepsRequests _ _ _ _)
      · next hstop =>
        have hthreads : OnThreads bound.session bound.rows := by
          obtain ⟨-, carried, hrows, -, hcarries⟩ := bindRows_ok hstop
          intro row' hrow' hlocal
          rw [hrows, List.nil_append] at hrow'
          obtain ⟨row, hrow, hprepared, -⟩ := hcarries row' hrow'
          rw [hprepared] at hlocal
          obtain ⟨item, hitem, hkind⟩ := hbound.notThread hlocal
          rw [(hready.ready row hrow).item] at hitem
          obtain rfl := Option.some.inj hitem
          exact hkind (hready.threads row hrow)
        have haccepted := hbound.then (acceptRows_keepsRequests submission.now bound.rows hthreads)
        split
        · next accepted stop heq =>
          rw [heq] at haccepted
          exact haccepted.then (rejectBatch_keepsRequests _ _ _ _)
        · next accepted acceptances heq =>
          rw [heq] at haccepted
          exact haccepted

theorem recordClassification_keepsRequests {s s' : Session} {args : ClassifyArgs}
    {released : Option String} (h : recordClassification args s = .ok (s', released)) :
    KeepsRequests s s' := by
  have hrelease : ∀ current, KeepsRequests current (releaseActiveTriageLease current args).1 := by
    intro current
    unfold releaseActiveTriageLease
    split
    · exact .refl current
    · next key lease _ =>
      exact (releaseLease_keepsRequests current key args.now _).appendEvidence _
  unfold recordClassification at h
  simp only at h
  repeat' split at h
  · cases h
  · cases h
  · cases h
  · obtain ⟨rfl, -⟩ := Prod.mk.inj (Except.ok.inj h)
    have hrecorded : KeepsRequests s _ := (RequestFrame.refl s).appendEvidence
      (classificationRecorded s args (lower (strip args.classification)))
    exact (hrecorded.then (hrelease _)).then (.modifyItem (keepsRequest_classifiedItem _ _ _ _) _)

theorem releaseSelfStaleLease_keepsRequests (s : Session) (itemId agentId : String) (now : Int) :
    KeepsRequests s (releaseSelfStaleLease s itemId agentId now) := by
  have hrows : ∀ (rows : List (String × Lease)) (current : Session), KeepsRequests current
      (rows.foldl (fun session row =>
        (releaseLease session row.2.leaseId now (some "stale_reclaim")).1) current) := by
    intro rows
    induction rows with
    | nil => exact fun current => .refl current
    | cons row rows ih =>
        exact fun current => (releaseLease_keepsRequests current _ now _).then (ih _)
  unfold releaseSelfStaleLease
  simp only
  split
  · exact .refl s
  · exact (hrows _ s).then (.modifyItem keepsRequest_staleItem _)

theorem releaseStaleLeases_keepsRequests (itemIds : List String) (agentId : String) (now : Int)
    (s : Session) : KeepsRequests s (itemIds.foldl
      (fun session itemId => releaseSelfStaleLease session itemId agentId now) s) := by
  induction itemIds generalizing s with
  | nil => exact .refl s
  | cons itemId itemIds ih =>
      exact (releaseSelfStaleLease_keepsRequests s itemId agentId now).then (ih _)

theorem reclaimLeases_keepsRequests {s s' : Session} {now : Int} {expired : List Lease}
    (h : reclaimLeases now s = .ok (s', expired)) : KeepsRequests s s' := by
  have hrecords : ∀ (leases : List Lease) (current : Session), KeepsRequests current
      (leases.foldl (fun session lease =>
        session.appendEvidence (leaseExpiredRecord session lease now)) current) := by
    intro leases
    induction leases with
    | nil => exact fun current => .refl current
    | cons lease leases ih =>
        exact fun current => RequestFrame.then ((RequestFrame.refl current).appendEvidence
          (leaseExpiredRecord current lease now)) (ih _)
  unfold reclaimLeases at h
  simp only at h
  obtain ⟨rfl, -⟩ := Prod.mk.inj (Except.ok.inj h)
  exact (expireAndReturn_keepsRequests s now).then (hrecords _ _)

theorem reopen_keepsRequests {s s' : Session} {itemId : String} {now : Int}
    (h : reopenResolvedThreadForReply itemId now s = .ok (s', ())) : KeepsRequests s s' := by
  unfold reopenResolvedThreadForReply at h
  split at h
  · cases h
  · next item hitem =>
    repeat' split at h
    · cases h
    · cases h
    · cases h
    · obtain ⟨rfl, -⟩ := Prod.mk.inj (Except.ok.inj h)
      exact .insertItem hitem (keepsRequest_reopenedItem now item)

theorem publishItems_keepsRequests (replies : List (String × String)) (login : String)
    (now : Int) (s : Session) : KeepsRequests s (publishItems s replies login now) := by
  unfold publishItems
  induction replies generalizing s with
  | nil => exact .refl s
  | cons reply replies ih =>
      refine RequestFrame.then (.modifyItem (fun item => ?_) s) (ih _)
      split
      · exact keepsRequest_publishedItem reply.2 login now item
      · exact .refl item

theorem claimLease_keepsRequests (s : Session) (item : Dict) (args : ClaimArgs) :
    KeepsRequests s (claimLease s item args).1 := by
  have hexpire := expireLeases_keepsRequests s args.now
  unfold claimLease
  simp only
  split
  · exact hexpire
  · split
    · exact hexpire
    · split
      · exact hexpire
      · split
        · exact hexpire
        · exact hexpire.then (.of_items rfl rfl)

/-- Only the metadata of the root is written. -/
theorem setMetadata_keepsRequests (s : Session) (metadata : Dict) :
    KeepsRequests s (s.setMetadata metadata) :=
  .of_items (Dict.getElem?_set _ _ _ _) rfl

theorem commitClaim_keepsRequests {s s' : Session} {claim : PendingClaim} {lease : Lease}
    (h : commitClaim claim s = .ok (s', lease)) : KeepsRequests s s' := by
  have hexpire := expireAndReturn_keepsRequests s claim.now
  unfold commitClaim at h
  simp only at h
  split at h
  · cases h
  · next item hitem =>
    let current := applyMetadataDelta (expireAndReturn s claim.now) claim.metadata
    let adopted := adoptClassification claim item
    let reading := { current with items := current.items.insert claim.itemId adopted }
    have hcurrent : KeepsRequests s current := hexpire.then (setMetadata_keepsRequests _ _)
    have hadopt : KeepsRequests current reading :=
      .insertItem hitem (keepsRequest_adoptClassification claim item)
    have hclaim := claimLease_keepsRequests reading adopted (claimArgs claim adopted)
    split at h
    · cases h
    · next claimed granted heq =>
      rw [heq] at hclaim
      obtain ⟨rfl, -⟩ := Prod.mk.inj (Except.ok.inj h)
      exact ((hcurrent.then hadopt).then hclaim).then
        (.modifyItem (keepsRequest_markClaimed claim.leaseId) claimed)

/-- The item a request is issued for, with the classification that was found for it. -/
def itemToIssue (s : Session) (args : IssueArgs) (itemId : String) (item : Dict) : Dict :=
  if isMutatingRole args.role && !hasClassificationEvidence item then
    restoreClassificationEvidence
      (args.canonical ++ (expireAndReturn s args.now).pendingEvidence) itemId item
  else item

theorem itemToIssue_sameRequest (s : Session) (args : IssueArgs) (itemId : String) (item : Dict) :
    SameRequest item (itemToIssue s args itemId item) := by
  unfold itemToIssue
  split
  · exact keepsRequest_restoreClassification _ itemId item
  · exact .refl item

/-- Where an item is selected, it is refused for its classification or its request is built. -/
theorem selectForClaim_next {s : Session} {args : IssueArgs} {itemId : String} {item : Dict}
    (h : nextItem (expireAndReturn s args.now) args.itemId = (itemId, some item)) :
    selectForClaim s args =
      if isMutatingRole args.role &&
          !hasClassificationEvidence (itemToIssue s args itemId item) then
        .refused ((selectedSession s args itemId (itemToIssue s args itemId item)).appendEvidence
          (requestRejectedRecord (selectedSession s args itemId (itemToIssue s args itemId item))
            args itemId)) "MISSING_CLASSIFICATION"
      else
        pendingClaim? (selectedSession s args itemId (itemToIssue s args itemId item))
          (s.root.get "metadata") args itemId (itemToIssue s args itemId item) := by
  unfold selectForClaim
  simp only [h]
  rfl

theorem selectedSession_keepsRequests {s : Session} {args : IssueArgs} {itemId : String}
    {item : Dict}
    (h : nextItem (expireAndReturn s args.now) args.itemId = (itemId, some item)) :
    KeepsRequests s (selectedSession s args itemId (itemToIssue s args itemId item)) :=
  (expireAndReturn_keepsRequests s args.now).then
    (.insertItem (nextItem_some h).1 (itemToIssue_sameRequest s args itemId item))

/-- A refused request leaves all requests as they are. -/
theorem refusedClaim_keepsRequests {s s' : Session} {args : IssueArgs} {reasonCode : String}
    (h : selectForClaim s args = .refused s' reasonCode) : KeepsRequests s s' := by
  cases hnext : nextItem (expireAndReturn s args.now) args.itemId with
  | mk itemId item? =>
    cases item? with
    | none =>
        unfold selectForClaim selectionWithoutItem at h
        simp only [hnext] at h
        split at h
        · cases h
        · split at h <;>
          exact (Selection.refused.inj h).1 ▸ expireAndReturn_keepsRequests s args.now
    | some item =>
        rw [selectForClaim_next hnext] at h
        split at h
        · obtain ⟨rfl, -⟩ := Selection.refused.inj h
          exact (selectedSession_keepsRequests hnext).appendEvidence _
        · let issued := itemToIssue s args itemId item
          rcases pendingClaim?_cases (selectedSession s args itemId issued)
            (s.root.get "metadata") args itemId issued with ⟨claim, heq⟩ | ⟨code, heq⟩
          · rw [heq] at h
            cases h
          · rw [heq] at h
            cases h

theorem refreshStackContext_keepsRequests {s s' : Session} {observed : StackContext}
    (h : refreshStackContext s observed = .ok s') : KeepsRequests s s' := by
  unfold refreshStackContext at h
  simp only at h
  split at h
  · cases h
  · split at h
    · cases h
    · obtain rfl := Except.ok.inj h
      exact setMetadata_keepsRequests _ _

theorem reenterClaim_keepsRequests {s s' : Session} {args : IssueArgs} {files : FileSystem}
    {reentry : Reentry} (h : reenterClaim s args files = .ok reentry)
    (hrebuilt : reentry.rebuilt = some s') : KeepsRequests s s' := by
  have hexpire := expireAndReturn_keepsRequests s args.now
  unfold reenterClaim at h
  split at h
  · next selected lease item hselect =>
    obtain rfl := selectForClaim_reenter hselect
    split at h
    · next key held hrow =>
      unfold reenterOwnFixerLease at h
      simp only at h
      split at h
      · obtain rfl := Except.ok.inj h
        cases hrebuilt
      · split at h
        · cases h
        · next read request hread =>
          have hrefreshed : KeepsRequests (expireAndReturn s args.now) read := by
            unfold rebuildFixerRequest at hread
            split at hread
            · cases hread
            · next refreshed hrefresh =>
              simp only at hread
              split at hread
              · cases hread
              · obtain ⟨rfl, -⟩ := Prod.mk.inj (Except.ok.inj hread)
                exact refreshStackContext_keepsRequests hrefresh
          split at h
          · cases h
          · obtain rfl := Except.ok.inj h
            obtain rfl := Option.some.inj hrebuilt
            exact (hexpire.then hrefreshed).then (.of_items rfl rfl)
    · cases h
  · cases h

theorem ensureBatchClassification_keepsRequests {s : Session} {itemId : String} {item : Dict}
    (args : BatchArgs) (hitem : s.items[itemId]? = some item) :
    KeepsRequests s (ensureBatchClassification s args itemId item).1 := by
  unfold ensureBatchClassification
  split
  · exact .refl s
  · refine (RequestFrame.insertItem hitem ?_).appendEvidence
      (batchClassificationRecord s args itemId)
    exact ((SameRequest.refl item).setEvidence (by decide)
      (classificationRecord_isObject _ _ _)).set _ (by decide)

theorem reconcileExistingLease_keepsRequests {s : Session} {args : BatchArgs}
    {itemId key : String} {item : Dict} {existing : Lease} {row : BatchRow}
    (hitem : s.items[itemId]? = some item)
    (h : reconcileExistingLease s args itemId item key existing = .ok row) :
    KeepsRequests s row.session := by
  have hensure := ensureBatchClassification_keepsRequests args hitem
  unfold reconcileExistingLease at h
  simp only at h
  split at h
  · cases h
  · split at h
    · cases h
    · obtain rfl := Except.ok.inj h
      exact hensure.then (.of_items rfl rfl)

theorem leaseNewGithubThread_keepsRequests {s : Session} {args : BatchArgs} {itemId : String}
    {item : Dict} {row : BatchRow} (hitem : s.items[itemId]? = some item)
    (h : leaseNewGithubThread s args itemId item = .ok (some row)) :
    KeepsRequests s row.session := by
  have hensure := ensureBatchClassification_keepsRequests args hitem
  unfold leaseNewGithubThread at h
  split at h
  · cases h
  · simp only at h
    split at h
    · cases h
    · split at h
      · cases h
      · next hash _ =>
        let ensured := ensureBatchClassification s args itemId item
        let requestId := args.requestId ensured.1 itemId (args.leaseId itemId)
        have hclaim := claimLease_keepsRequests ensured.1 ensured.2.1
          (batchClaimArgs args (args.leaseId itemId) requestId hash
            (requestPathIn args.workspaceDir requestId))
        split at h
        · cases h
        · next claimed lease heq =>
          rw [heq] at hclaim
          obtain rfl := Option.some.inj (Except.ok.inj h)
          exact (hensure.then hclaim).then (.modifyItem (keepsRequest_markClaimed _) claimed)

theorem claimBatchItem_keepsRequests {args : BatchArgs} {progress progress' : BatchProgress}
    {itemId : String} (h : claimBatchItem args progress itemId = .ok progress') :
    KeepsRequests progress.session progress'.session := by
  unfold claimBatchItem at h
  split at h
  · obtain rfl := Except.ok.inj h
    exact .refl _
  · next item hitem =>
    split at h
    · obtain ⟨row, hreconcile, rfl⟩ := exceptMap_ok.mp h
      exact reconcileExistingLease_keepsRequests hitem hreconcile
    · split at h
      · obtain rfl := Except.ok.inj h
        exact .refl _
      · obtain ⟨row?, hlease, rfl⟩ := exceptMap_ok.mp h
        cases row? with
        | none => exact .refl _
        | some row => exact leaseNewGithubThread_keepsRequests hitem hlease

theorem claimBatchItems_keepsRequests {args : BatchArgs} {targets : List String}
    {progress progress' : BatchProgress}
    (h : targets.foldlM (claimBatchItem args) progress = .ok progress') :
    KeepsRequests progress.session progress'.session := by
  induction targets generalizing progress with
  | nil =>
      obtain rfl := Except.ok.inj h
      exact .refl _
  | cons itemId targets ih =>
      rw [List.foldlM_cons] at h
      cases hitem : claimBatchItem args progress itemId with
      | error e => simp [hitem, bind, Except.bind] at h
      | ok middle =>
          simp only [hitem, bind, Except.bind] at h
          exact (claimBatchItem_keepsRequests hitem).then (ih h)

theorem commitBatch_keepsRequests {s s' : Session} {args : BatchArgs}
    {transition : BatchTransition} (h : commitBatch args s = .ok (s', transition)) :
    KeepsRequests s s' := by
  have hexpire : KeepsRequests s (expireAndReturn (applyMetadataDelta s args.metadata) args.now) :=
    (setMetadata_keepsRequests s _).then (expireAndReturn_keepsRequests _ args.now)
  have hrecords : ∀ (plans : List ArtifactPlan) (current : Session), KeepsRequests current
      (plans.foldl (fun session plan =>
        session.appendEvidence (batchIssuedRecord session args plan)) current) := by
    intro plans
    induction plans with
    | nil => exact fun current => .refl current
    | cons plan plans ih =>
        exact fun current => RequestFrame.then ((RequestFrame.refl current).appendEvidence
          (batchIssuedRecord current args plan)) (ih _)
  unfold commitBatch at h
  simp only at h
  split at h
  · cases h
  · split at h
    · cases h
    · next progress hprogress =>
      have hclaims := claimBatchItems_keepsRequests hprogress
      split at h
      · cases h
      · obtain ⟨rfl, -⟩ := Prod.mk.inj (Except.ok.inj h)
        exact (hexpire.then hclaims).then (hrecords _ _)

theorem rollback_keepsRequests (rows : List (String × String)) (s : Session) :
    KeepsRequests s (rollbackNewlyLeasedItems s rows) := by
  unfold rollbackNewlyLeasedItems
  induction rows generalizing s with
  | nil => exact .refl s
  | cons row rows ih =>
      have herase : KeepsRequests s { s with leases := s.leases.erase row.1 } := .of_items rfl rfl
      exact (herase.then (.modifyItem keepsRequest_rolledBackItem _)).then (ih _)

theorem committedView_keepsRequests {s view : Session} (h : committedView s = .ok view) :
    KeepsRequests s view := by
  obtain ⟨-, rfl⟩ := committedView_ok.mp h
  refine ⟨rfl, fun id item hitem => Or.inr ?_⟩
  rw [getElem?_projectedItems] at hitem
  obtain ⟨found, hfound, rfl⟩ := Option.map_eq_some_iff.mp hitem
  exact ⟨found, hfound, keepsRequest_projectClaim _ found⟩

end GhAddressCr
