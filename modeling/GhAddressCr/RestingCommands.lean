import GhAddressCr.RestingItems

/-!
# Commands and items at rest

Which items at rest a command disturbs: those it claims, gives up or takes back, those it
observes or takes in, and those it reopens.
-/
namespace GhAddressCr

open PyText GithubThreadState RuntimeStore

theorem Orderly.of_keyed {disturbed : String → Prop} {s s' : Session}
    (h : ItemsKeyed s → Orderly disturbed s s') : Orderly disturbed s s' :=
  fun hkeyed => h hkeyed hkeyed

/-- A lease that is put into the table disturbs its item. -/
theorem Orderly.lease {s s' : Session} {key : String} {lease : Lease}
    (hleases : s'.leases = s.leases.insert key lease) (hitems : s'.items = s.items) :
    Orderly (· = lease.itemId) s s' := by
  intro hkeyed
  refine ⟨fun id item hitem => hkeyed id item (by rw [← hitems]; exact hitem), ?_⟩
  intro id hne hrest
  constructor
  · intro other held hheld hactive
    rw [hleases, Std.ExtTreeMap.getElem?_insert] at hheld
    split at hheld
    · obtain rfl := Option.some.inj hheld
      exact fun hid => hne hid.symm
    · exact hrest.unheld other held hheld hactive
  · intro item hitem
    rw [hitems] at hitem
    exact ⟨item, hitem, .refl item⟩

/-- A lease that is rewritten leaves the items at rest alone. -/
theorem Orderly.rewrite {disturbed : String → Prop} {s s' : Session} {key : String}
    {lease : Lease} (lease' : Lease) (hlease : s.leases[key]? = some lease)
    (hleases : s'.leases = s.leases.insert key lease')
    (hactive : lease'.isActive = lease.isActive) (hitem : lease'.itemId = lease.itemId)
    (hitems : s'.items = s.items) : Orderly disturbed s s' := by
  intro hkeyed
  refine ⟨fun id item hfound => hkeyed id item (by rw [← hitems]; exact hfound), ?_⟩
  intro id _ hrest
  constructor
  · intro other held hheld hheldActive
    rw [hleases, Std.ExtTreeMap.getElem?_insert] at hheld
    split at hheld
    · obtain rfl := Option.some.inj hheld
      rw [hitem]
      rw [hactive] at hheldActive
      exact hrest.not_held hlease hheldActive
    · exact hrest.unheld other held hheld hheldActive
  · intro item hfound
    rw [hitems] at hfound
    exact ⟨item, hfound, .refl item⟩

theorem claimLease_orderly (s : Session) {item : Dict} {args : ClaimArgs} {itemId : String}
    (hid : item.get "item_id" = .str itemId) :
    Orderly (· = itemId) s (claimLease s item args).1 := by
  have hexpire : Orderly (· = itemId) s (expireLeases s args.now).1 :=
    (expireLeases_letsRest s args.now).1.orderly _
  unfold claimLease
  simp only
  split
  · exact hexpire
  · split
    · exact hexpire
    · split
      · exact hexpire
      · split
        · exact hexpire
        · next role _ =>
          refine hexpire.trans (Orderly.lease rfl rfl) fun id _ hdisturbed => ?_
          simp only [makeLease, hid, Value.text_str] at hdisturbed
          exact hdisturbed

/-- An item is written over another with the same id. -/
theorem Orderly.insertItem {disturbed : String → Prop} {s : Session} {itemId : String}
    {item item' : Dict} (hitem : s.items[itemId]? = some item)
    (hid : item'.get "item_id" = item.get "item_id")
    (hdisturbed : AtRest s itemId → disturbed itemId ∨ SameStanding item item') :
    Orderly disturbed s { s with items := s.items.insert itemId item' } := by
  intro hkeyed
  constructor
  · intro id found hfound
    simp only [Std.ExtTreeMap.getElem?_insert, Std.compare_eq_iff_eq] at hfound
    split at hfound
    · next hsame =>
      obtain rfl := Option.some.inj hfound
      rw [hid, ← hsame]
      exact hkeyed itemId item hitem
    · exact hkeyed id found hfound
  · intro id hleft hrest
    refine ⟨hrest.unheld, fun found hfound => ?_⟩
    simp only [Std.ExtTreeMap.getElem?_insert, Std.compare_eq_iff_eq] at hfound
    split at hfound
    · next hsame =>
      subst hsame
      obtain rfl := Option.some.inj hfound
      rcases hdisturbed hrest with hdisturbed | hstands
      · exact absurd hdisturbed hleft
      · exact ⟨item, hitem, hstands⟩
    · exact ⟨found, hfound, .refl found⟩

theorem commitClaim_orderly {s s' : Session} {claim : PendingClaim} {lease : Lease}
    (h : commitClaim claim s = .ok (s', lease)) : Orderly (· = claim.itemId) s s' := by
  have hexpire := expireAndReturn_letsRest s claim.now
  refine .of_keyed fun hkeyed => ?_
  have hkeyed' := (hexpire hkeyed).1
  unfold commitClaim at h
  simp only at h
  split at h
  · cases h
  · next item hitem =>
    let adopted := adoptClassification claim item
    let current := applyMetadataDelta (expireAndReturn s claim.now) claim.metadata
    have hid : adopted.get "item_id" = .str claim.itemId := by
      rw [adoptClassification_keepsId]
      exact hkeyed' claim.itemId item hitem
    let reading := { current with items := current.items.insert claim.itemId adopted }
    have hcurrent : Orderly (· = claim.itemId) s current :=
      (hexpire.orderly _).then (.of_tables rfl rfl)
    have hadopt : Orderly (· = claim.itemId) current reading :=
      .insertItem hitem (adoptClassification_keepsId claim item) fun _ => Or.inl rfl
    have hclaim : Orderly (· = claim.itemId) reading
        (claimLease reading adopted (claimArgs claim adopted)).1 := claimLease_orderly _ hid
    split at h
    · cases h
    · next claimed granted heq =>
      rw [heq] at hclaim
      obtain ⟨rfl, -⟩ := Prod.mk.inj (Except.ok.inj h)
      exact ((hcurrent.then hadopt).then hclaim).then
        (modifyItem_orderly claimed _ (markClaimed_keepsId claim.leaseId))

/-- A refused request leaves the item it has selected where it stands. -/
theorem refusedClaim_letsRest {s s' : Session} {args : IssueArgs} {reasonCode : String}
    (h : selectForClaim s args = .refused s' reasonCode) : LetsRest s s' := by
  have hexpire := expireAndReturn_letsRest s args.now
  rcases selectForClaim_refused h with rfl | ⟨itemId, item, restored, hselected, rfl⟩
  · exact hexpire
  · obtain ⟨hitem, -, -⟩ := nextItem_some hselected.next
    have hfields : ∀ field : String, "classification_evidence" ≠ field → "decision" ≠ field →
        restored.get field = item.get field := by
      intro field hevidence hdecision
      simp only [Dict.get, hselected.same field hevidence hdecision]
    refine hexpire.then (Orderly.appendEvidence (.insertItem hitem
      (hfields "item_id" (by decide) (by decide)) fun _ => Or.inr fun field hfield => ?_) _)
    have hne : "classification_evidence" ≠ field ∧ "decision" ≠ field := by
      revert field
      decide
    exact hselected.same field hne.1 hne.2

theorem rebuildFixerRequest_letsRest {s s' : Session} {args : IssueArgs} {lease : Lease}
    {item request : Dict} (h : rebuildFixerRequest s args lease item = .ok (s', request)) :
    s'.leases = s.leases ∧ s'.items = s.items := by
  unfold rebuildFixerRequest at h
  split at h
  · cases h
  · next refreshed hrefresh =>
    simp only at h
    split at h
    · cases h
    · obtain ⟨rfl, -⟩ := Prod.mk.inj (Except.ok.inj h)
      unfold refreshStackContext at hrefresh
      simp only at hrefresh
      split at hrefresh
      · cases hrefresh
      · split at hrefresh
        · cases hrefresh
        · obtain rfl := Except.ok.inj hrefresh
          exact ⟨rfl, rfl⟩

theorem reenterClaim_letsRest {s s' : Session} {args : IssueArgs} {files : FileSystem}
    {reentry : Reentry} (h : reenterClaim s args files = .ok reentry)
    (hrebuilt : reentry.rebuilt = some s') : LetsRest s s' := by
  have hexpire := expireAndReturn_letsRest s args.now
  unfold reenterClaim at h
  split at h
  · next selected lease item hselect =>
    obtain rfl := selectForClaim_reenter hselect
    split at h
    · next key held hrow =>
      obtain ⟨hlease, -⟩ := activeFixerRow_some hrow
      unfold reenterOwnFixerLease at h
      simp only at h
      split at h
      · obtain rfl := Except.ok.inj h
        cases hrebuilt
      · split at h
        · cases h
        · next read request hread =>
          obtain ⟨hleases, hitems⟩ := rebuildFixerRequest_letsRest hread
          split at h
          · cases h
          · next hash _ =>
            obtain rfl := Except.ok.inj h
            obtain rfl := Option.some.inj hrebuilt
            exact hexpire.then (.rewrite { held with requestHash := hash } hlease
              (by simp only [Session.appendEvidence, hleases]) rfl rfl hitems)
    · cases h
  · cases h

theorem ensureBatchClassification_letsRest {s : Session} {itemId : String} {item : Dict}
    (args : BatchArgs) (hitem : s.items[itemId]? = some item) :
    LetsRest s (ensureBatchClassification s args itemId item).1 ∧
      (ensureBatchClassification s args itemId item).1.leases = s.leases ∧
      (ensureBatchClassification s args itemId item).2.1.get "item_id" = item.get "item_id" := by
  unfold ensureBatchClassification
  split
  · exact ⟨.refl s, rfl, rfl⟩
  · refine ⟨.insertItem hitem (by simp) fun _ => Or.inr ?_, rfl, by simp⟩
    exact ((SameStanding.refl item).set _ (by decide)).set _ (by decide)

theorem reconcileExistingLease_letsRest {s : Session} {args : BatchArgs} {itemId key : String}
    {item : Dict} {existing : Lease} {row : BatchRow} (hitem : s.items[itemId]? = some item)
    (hlease : s.leases[key]? = some existing)
    (h : reconcileExistingLease s args itemId item key existing = .ok row) :
    LetsRest s row.session := by
  obtain ⟨hensure, hleases, -⟩ := ensureBatchClassification_letsRest args hitem
  unfold reconcileExistingLease at h
  simp only at h
  split at h
  · cases h
  · split at h
    · cases h
    · obtain rfl := Except.ok.inj h
      have hheld : (ensureBatchClassification s args itemId item).1.leases[key]? =
          some existing := by
        rw [hleases]
        exact hlease
      exact hensure.then (.rewrite _ hheld rfl rfl rfl rfl)

theorem leaseNewGithubThread_orderly {s : Session} {args : BatchArgs} {itemId : String}
    {item : Dict} {row : BatchRow} (hitem : s.items[itemId]? = some item)
    (hid : item.get "item_id" = .str itemId)
    (h : leaseNewGithubThread s args itemId item = .ok (some row)) :
    Orderly (· = itemId) s row.session := by
  obtain ⟨hensure, -, hkeeps⟩ := ensureBatchClassification_letsRest args hitem
  unfold leaseNewGithubThread at h
  split at h
  · cases h
  · simp only at h
    split at h
    · cases h
    · next request _ =>
      split at h
      · cases h
      · next hash _ =>
        let ensured := ensureBatchClassification s args itemId item
        let requestId := args.requestId ensured.1 itemId (args.leaseId itemId)
        have hclaim : Orderly (· = itemId) ensured.1 (claimLease ensured.1 ensured.2.1
            (batchClaimArgs args (args.leaseId itemId) requestId hash
              (requestPathIn args.workspaceDir requestId))).1 :=
          claimLease_orderly _ (hkeeps.trans hid)
        split at h
        · cases h
        · next claimed lease heq =>
          rw [heq] at hclaim
          obtain rfl := Option.some.inj (Except.ok.inj h)
          exact ((hensure.orderly _).then hclaim).then
            (modifyItem_orderly claimed itemId (markClaimed_keepsId _))

theorem claimBatchItem_orderly {args : BatchArgs} {progress progress' : BatchProgress}
    {itemId : String} (h : claimBatchItem args progress itemId = .ok progress') :
    Orderly (· = itemId) progress.session progress'.session := by
  refine .of_keyed fun hkeyed => ?_
  unfold claimBatchItem at h
  split at h
  · obtain rfl := Except.ok.inj h
    exact .refl _
  · next item hitem =>
    split at h
    · next key existing hrow =>
      obtain ⟨row, hreconcile, rfl⟩ := exceptMap_ok.mp h
      exact (reconcileExistingLease_letsRest hitem (activeFixerRow_some hrow).1
        hreconcile).orderly _
    · split at h
      · obtain rfl := Except.ok.inj h
        exact .refl _
      · obtain ⟨row?, hlease, rfl⟩ := exceptMap_ok.mp h
        cases row? with
        | none => exact .refl _
        | some row =>
            exact leaseNewGithubThread_orderly hitem (hkeyed itemId item hitem) hlease

theorem claimBatchItems_orderly {args : BatchArgs} {targets : List String}
    {progress progress' : BatchProgress}
    (h : targets.foldlM (claimBatchItem args) progress = .ok progress') :
    Orderly (· ∈ targets) progress.session progress'.session := by
  induction targets generalizing progress with
  | nil =>
      obtain rfl := Except.ok.inj h
      exact .refl _
  | cons itemId targets ih =>
      rw [List.foldlM_cons] at h
      cases hitem : claimBatchItem args progress itemId with
      | error e => simp [hitem, bind, Except.bind] at h
      | ok middle =>
          simp only [hitem, bind, Except.bind] at h
          have hfirst : Orderly (· ∈ itemId :: targets) progress.session middle.session :=
            (claimBatchItem_orderly hitem).weaken fun id _ hid => by simp [hid]
          exact hfirst.trans (ih h) fun id _ hid => List.mem_cons_of_mem itemId hid

/-- What a batch goes for is claimable, or held by its agent. -/
theorem AtRest.not_target {s : Session} {args : BatchArgs} {id : String} (hrest : AtRest s id) :
    id ∉ selectBatchTargetItems s args := by
  intro hmem
  obtain ⟨row, hrow, rfl⟩ := List.mem_map.mp hmem
  obtain ⟨hitem, hchosen⟩ := List.mem_filter.mp hrow
  have hitem : s.items[row.1]? = some row.2 :=
    Std.ExtTreeMap.mem_toList_iff_getElem?_eq_some.mp hitem
  simp only [Bool.and_eq_true, Bool.or_eq_true] at hchosen
  obtain ⟨⟨hthread, -⟩, hheld | hclaimable⟩ := hchosen
  · obtain ⟨⟨key, lease⟩, hfound⟩ := Option.isSome_iff_exists.mp hheld
    obtain ⟨hlease, hon, hstatus, -⟩ := activeFixerRow_some hfound
    have hactive : lease.isActive = true := by
      simp [Lease.isActive, hstatus, LeaseStatus.isActive]
    exact hrest.not_held hlease hactive hon
  · have hopen : itemIsOpen row.2 = true := by
      simp only [isBatchClaimableGithubThread, Bool.and_eq_true] at hclaimable
      simp [itemIsOpen, hthread, hclaimable.1]
    rw [(hrest.settled row.2 hitem).notOpen] at hopen
    cases hopen

theorem commitBatch_letsRest {s s' : Session} {args : BatchArgs} {transition : BatchTransition}
    (h : commitBatch args s = .ok (s', transition)) : LetsRest s s' := by
  have hmetadata : LetsRest s (applyMetadataDelta s args.metadata) := .of_tables rfl rfl
  have hexpire := hmetadata.then (expireAndReturn_letsRest _ args.now)
  have hrecords : ∀ (plans : List ArtifactPlan) (current : Session), LetsRest current
      (plans.foldl (fun session plan =>
        session.appendEvidence (batchIssuedRecord session args plan)) current) := by
    intro plans
    induction plans with
    | nil => exact fun current => .refl current
    | cons plan plans ih =>
        exact fun current => Orderly.then ((Orderly.refl current).appendEvidence
          (batchIssuedRecord current args plan)) (ih _)
  unfold commitBatch at h
  simp only at h
  split at h
  · cases h
  · split at h
    · cases h
    · next progress hprogress =>
      have hclaims : LetsRest _ progress.session :=
        (claimBatchItems_orderly hprogress).weaken fun id hrest hid => hrest.not_target hid
      split at h
      · cases h
      · obtain ⟨rfl, -⟩ := Prod.mk.inj (Except.ok.inj h)
        exact (hexpire.then hclaims).then (hrecords _ _)

/-- A lease that is taken out of the table holds no item. -/
theorem rollbackRow_orderly (s : Session) (row : String × String) :
    Orderly (· = row.2) s
      ({ s with leases := s.leases.erase row.1 }.modifyItem row.2 rolledBackItem) := by
  have herase : LetsRest s { s with leases := s.leases.erase row.1 } := by
    intro hkeyed
    refine ⟨hkeyed, fun id _ hrest => ⟨fun key lease hlease hactive => ?_, ?_⟩⟩
    · simp only [Std.ExtTreeMap.getElem?_erase] at hlease
      split at hlease
      · cases hlease
      · exact hrest.unheld key lease hlease hactive
    · exact fun item hitem => ⟨item, hitem, .refl item⟩
  exact (herase.orderly _).then (modifyItem_orderly _ row.2 rolledBackItem_keepsId)

theorem rollback_orderly (rows : List (String × String)) (s : Session) :
    Orderly (· ∈ rows.map (·.2)) s (rollbackNewlyLeasedItems s rows) := by
  unfold rollbackNewlyLeasedItems
  induction rows generalizing s with
  | nil => exact .refl s
  | cons row rows ih =>
      have hfirst : Orderly (· ∈ (row :: rows).map (·.2)) s
          ({ s with leases := s.leases.erase row.1 }.modifyItem row.2 rolledBackItem) :=
        (rollbackRow_orderly s row).weaken fun id _ hid => by simp [hid]
      exact hfirst.trans (ih _) fun id _ hid => List.mem_cons_of_mem row.2 hid

theorem describeThread_keepsId (thread : Dict) : KeepsId (describeThread thread) := by
  intro item
  simp [describeThread]

theorem determineMergedThreadState_keepsId (thread : Dict) :
    KeepsId (determineMergedThreadState thread) := by
  intro item
  unfold determineMergedThreadState
  simp only
  split
  · simp
  · split
    · simp
    · split <;> simp

theorem applyViewerReplyEvidence_keepsId (thread : Dict) (currentLogin : Option String) :
    KeepsId fun item => applyViewerReplyEvidence thread item currentLogin := by
  intro item
  show (applyViewerReplyEvidence thread item currentLogin).get "item_id" = _
  unfold applyViewerReplyEvidence
  simp only
  split <;> simp

/-- An item that is merged has the id of its thread, or the one it had. -/
theorem mergeSingleRemoteThread_id {thread : Dict} {threadId : String} {existing : Option Dict}
    (currentLogin : Option String) (h : ∀ item ∈ existing,
      item.get "item_id" = .str ("github-thread:" ++ threadId)) :
    (mergeSingleRemoteThread thread threadId existing currentLogin).get "item_id" =
      .str ("github-thread:" ++ threadId) := by
  have hdefault : ((existing.getD ∅).setDefault "item_id"
      (.str ("github-thread:" ++ threadId))).get "item_id" =
        .str ("github-thread:" ++ threadId) := by
    cases existing with
    | none => simp [Dict.setDefault, Dict.has]
    | some item =>
        simp only [Option.getD_some, Dict.setDefault]
        split
        · exact h item rfl
        · simp
  unfold mergeSingleRemoteThread
  simp only
  rw [applyViewerReplyEvidence_keepsId thread currentLogin,
    determineMergedThreadState_keepsId thread, describeThread_keepsId thread]
  simp only [Dict.get_set, String.reduceEq, if_false]
  rw [Dict.get_setDefault_of_ne _ _ (by decide), Dict.get_setDefault_of_ne _ _ (by decide)]
  exact hdefault

/-- The items of the first session that the second has not rewritten are kept. -/
theorem Orderly.of_table {disturbed : String → Prop} {s : Session} {items : Rows Dict}
    (hkeyed : ItemsKeyed s → ∀ (id : String) (item : Dict), items[id]? = some item →
      item.get "item_id" = .str id)
    (hkept : ∀ id : String, ¬ disturbed id → items[id]? = s.items[id]?) :
    Orderly disturbed s { s with items } := by
  intro hbefore
  refine ⟨hkeyed hbefore, fun id hleft hrest => ⟨hrest.unheld, fun item hitem => ?_⟩⟩
  exact ⟨item, (hkept id hleft).symm.trans hitem, .refl item⟩

theorem mergeRemoteThread_orderly (currentLogin : Option String) (s : Session) (thread : Dict) :
    Orderly (fun id => threadItemId? thread = some id) s
      { s with items := mergeRemoteThread currentLogin s.items thread } := by
  unfold mergeRemoteThread threadItemId?
  cases given? (threadIdentifier thread) with
  | none => exact .refl s
  | some threadId =>
      refine .of_table (fun hkeyed id item hitem => ?_) fun id hleft => ?_
      · simp only [Std.ExtTreeMap.getElem?_insert, Std.compare_eq_iff_eq] at hitem
        split at hitem
        · next hid =>
          subst hid
          obtain rfl := Option.some.inj hitem
          exact mergeSingleRemoteThread_id currentLogin fun item hitem => hkeyed _ item hitem
        · exact hkeyed id item hitem
      · simp only [Option.map_some, Option.some.injEq] at hleft
        simp only [Std.ExtTreeMap.getElem?_insert, Std.compare_eq_iff_eq, hleft, if_false]

theorem refresh_orderly (threads : List Dict) (currentLogin : Option String) (s : Session) :
    Orderly (· ∈ threads.filterMap threadItemId?) s
      (sessionWithRemoteThreads s threads currentLogin) := by
  unfold sessionWithRemoteThreads
  induction threads generalizing s with
  | nil => exact .refl s
  | cons thread threads ih =>
      have hmem : ∀ id, threadItemId? thread = some id ∨ id ∈ threads.filterMap threadItemId? →
          id ∈ (thread :: threads).filterMap threadItemId? := by
        simp only [List.mem_filterMap, List.mem_cons]
        rintro id (hid | ⟨other, hother, hid⟩)
        · exact ⟨thread, Or.inl rfl, hid⟩
        · exact ⟨other, Or.inr hother, hid⟩
      have hfirst := (mergeRemoteThread_orderly currentLogin s thread).weaken fun id _ hid =>
        hmem id (Or.inl hid)
      exact hfirst.trans (ih { s with items := mergeRemoteThread currentLogin s.items thread })
        fun id _ hid => hmem id (Or.inr hid)

theorem ingestedItem_id (finding : LocalFinding) (source : String) (now : Int)
    (existing : Option Dict) :
    (ingestedItem finding source now existing).get "item_id" = .str finding.itemId := by
  have hfields : (finding.fields source).get "item_id" = .str finding.itemId ∧
      (finding.fields source).has "item_id" = true := by
    simp [LocalFinding.fields, Dict.has, Dict.getElem?_setIfSome_of_ne,
      Dict.ofFields, Dict.get_insert]
  unfold ingestedItem
  simp only
  rw [Dict.get_setDefault_of_ne _ _ (by decide), Dict.get_setDefault_of_ne _ _ (by decide),
    Dict.get_setDefault_of_ne _ _ (by decide), Dict.get_setDefault_of_ne _ _ (by decide)]
  simp only [Dict.get_set, String.reduceEq, if_false]
  rw [Dict.get_setDefault_of_ne _ _ (by decide), Dict.get_update, if_pos hfields.2]
  exact hfields.1

theorem syncClosedItem_keepsId (now : Int) : KeepsId (syncClosedItem now) := by
  intro item
  simp [syncClosedItem]

/-- The items that came in carry their ids, and the others are left alone. -/
theorem ingestFindings_items (findings : List LocalFinding) (source : String) (now : Int)
    (items : Rows Dict) :
    ((∀ (id : String) (item : Dict), items[id]? = some item → item.get "item_id" = .str id) →
      ∀ (id : String) (item : Dict), (findings.foldl (fun items finding =>
        items.insert finding.itemId (ingestedItem finding source now items[finding.itemId]?))
        items)[id]? = some item → item.get "item_id" = .str id) ∧
      ∀ id ∉ findings.map (·.itemId), (findings.foldl (fun items finding =>
        items.insert finding.itemId (ingestedItem finding source now items[finding.itemId]?))
        items)[id]? = items[id]? := by
  induction findings generalizing items with
  | nil => exact ⟨fun h => h, fun _ _ => rfl⟩
  | cons finding findings ih =>
      obtain ⟨hkeyed, hkept⟩ := ih (items.insert finding.itemId
        (ingestedItem finding source now items[finding.itemId]?))
      rw [List.foldl_cons]
      constructor
      · intro hbefore
        refine hkeyed fun id item hitem => ?_
        simp only [Std.ExtTreeMap.getElem?_insert, Std.compare_eq_iff_eq] at hitem
        split at hitem
        · next hid =>
          subst hid
          obtain rfl := Option.some.inj hitem
          exact ingestedItem_id finding source now _
        · exact hbefore id item hitem
      · intro id hleft
        rw [List.map_cons, List.mem_cons, not_or] at hleft
        rw [hkept id hleft.2]
        simp only [Std.ExtTreeMap.getElem?_insert, Std.compare_eq_iff_eq, Ne.symm hleft.1, if_false]

/-- The items of findings that came in, and those that a sync closes. -/
def takenIn (s : Session) (findings : List LocalFinding) (source : String) (sync : Bool)
    (id : String) : Prop :=
  id ∈ findings.map (·.itemId) ∨
    sync = true ∧ (s.items[id]?).any (isMissing source (findings.map (·.itemId)) id) = true

theorem ingest_orderly (s : Session) (findings : List LocalFinding) (source : String)
    (sync : Bool) (now : Int) :
    Orderly (takenIn s findings source sync) s
      (ingestNativeFindings s findings source sync now) := by
  obtain ⟨hkeyed, hkept⟩ := ingestFindings_items findings source now s.items
  unfold ingestNativeFindings
  simp only
  split
  · next hsync =>
    refine .of_table (fun hbefore id item hitem => ?_) fun id hleft => ?_
    · rw [Std.ExtTreeMap.getElem?_map] at hitem
      obtain ⟨found, hfound, rfl⟩ := Option.map_eq_some_iff.mp hitem
      have hid := hkeyed hbefore id found hfound
      split
      · rw [syncClosedItem_keepsId]
        exact hid
      · exact hid
    · obtain ⟨hincoming, hmissing⟩ := not_or.mp hleft
      rw [Std.ExtTreeMap.getElem?_map, hkept id hincoming]
      cases hitem : s.items[id]? with
      | none => rfl
      | some item =>
          have hpresent : isMissing source (findings.map (·.itemId)) id item = false := by
            simpa [hsync, hitem] using hmissing
          simp [hpresent]
  · exact .of_table hkeyed fun id hleft => hkept id fun hid => hleft (Or.inl hid)

theorem reopenedItem_keepsId (now : Int) : KeepsId (reopenedItem now) := by
  intro item
  simp [reopenedItem]

theorem reopen_orderly {s s' : Session} {itemId : String} {now : Int}
    (h : reopenResolvedThreadForReply itemId now s = .ok (s', ())) :
    Orderly (· = itemId) s s' := by
  unfold reopenResolvedThreadForReply at h
  split at h
  · cases h
  · next item hitem =>
    repeat' split at h
    · cases h
    · cases h
    · cases h
    · obtain ⟨rfl, -⟩ := Prod.mk.inj (Except.ok.inj h)
      exact .insertItem hitem (reopenedItem_keepsId now item) fun _ => Or.inl rfl

theorem publishedItem_keepsId (replyUrl login : String) (now : Int) :
    KeepsId (publishedItem replyUrl login now) := by
  intro item
  simp [publishedItem, clearClaimFields]

/-- Only items that wait for it are published. -/
theorem publishItems_letsRest (replies : List (String × String)) (login : String) (now : Int)
    (s : Session) : LetsRest s (publishItems s replies login now) := by
  unfold publishItems
  induction replies generalizing s with
  | nil => exact .refl s
  | cons reply replies ih =>
      refine Orderly.then (.modifyItem (fun item => ?_) fun hrest =>
        Or.inr fun item hitem => ?_) (ih _)
      · split
        · exact publishedItem_keepsId reply.2 login now item
        · rfl
      · rw [(hrest.settled item hitem).notReady]
        exact .refl item

theorem ItemNote.write_sameStanding (written : ItemNote) (item : Dict) :
    SameStanding item (written.write item) := by
  cases written with
  | reviewPriority evidence => exact (SameStanding.refl item).set _ (by decide)
  | postedReply replyUrl login =>
      exact (((SameStanding.refl item).set _ (by decide)).set _ (by decide)).set _ (by decide)
  | validation commands revisionBinding fixReply =>
      exact (((SameStanding.refl item).set _ (by decide)).setIfSome _ (by decide)).set _
        (by decide)

theorem ItemNote.write_keepsId (written : ItemNote) : KeepsId written.write := by
  intro item
  cases written with
  | reviewPriority evidence => simp [write]
  | postedReply replyUrl login => simp [write]
  | validation commands revisionBinding fixReply => simp [write]

theorem projectClaim_keepsId (lease : Option Lease) : KeepsId fun item => projectClaim item lease := by
  intro item
  unfold projectClaim
  cases lease with
  | some lease => simp
  | none =>
      simp only
      split <;> simp

theorem projectClaim_unclaimed {item : Dict} (h : item.get "state" ≠ .str "claimed") :
    SameStanding item (projectClaim item none) := by
  unfold projectClaim
  simp only [h, if_false]
  exact ((((SameStanding.refl item).set _ (by decide)).set _ (by decide)).set _ (by decide)).pop
    (by decide)

/-- The claim of an item shows only where an active lease is on it, or where one was. -/
theorem committedView_letsRest {s view : Session} (h : committedView s = .ok view) :
    LetsRest s view := by
  obtain ⟨hnodup, rfl⟩ := committedView_ok.mp h
  intro hkeyed
  constructor
  · intro id item hitem
    rw [getElem?_projectedItems] at hitem
    obtain ⟨found, hfound, rfl⟩ := Option.map_eq_some_iff.mp hitem
    rw [projectClaim_keepsId]
    exact hkeyed id found hfound
  · intro id _ hrest
    refine ⟨hrest.unheld, fun item hitem => ?_⟩
    rw [getElem?_projectedItems] at hitem
    obtain ⟨found, hfound, rfl⟩ := Option.map_eq_some_iff.mp hitem
    have hnone : activeLeaseOf s.leases id = none :=
      (activeLeaseOf_eq_none hnodup).mpr hrest.unheld
    rw [hnone]
    exact ⟨found, hfound, projectClaim_unclaimed (hrest.settled found hfound).notClaimed⟩

namespace CommandRun

variable {P : Type} [DecidableEq P]

/-- The step makes a claim on the item, gives its request up, or takes its batch back. -/
def Reclaims (run : CommandRun P) : CommandLabel P → String → Prop
  | .perform (.claim pending), id => pending.itemId = id
  | .claimOneShot _ pending, id => pending.itemId = id
  | .perform (.reject submission), id =>
      (givenUpRequest run.session submission).any (·.itemId = id) = true
  | .compensate p, id =>
      match run.activity p with
      | .materializing plans => id ∈ (createdRows run.session plans).map (·.2)
      | _ => False
  | _, _ => False

/-- The items that a step may move though they are at rest. -/
def Disturbs (run : CommandRun P) : CommandLabel P → String → Prop
  | .perform (.reopen itemId _), id => itemId = id
  | .perform (.refresh threads _), id => id ∈ threads.filterMap threadItemId?
  | .perform (.ingest findings source sync _), id => takenIn run.session findings source sync id
  | label, id => run.Reclaims label id

omit [DecidableEq P] in
theorem perform_orderly {run : CommandRun P} {op : SessionOp} {session : Session}
    (hkeyed : LeasesKeyed run.session) (h : op.apply run.session = some session) :
    Orderly (run.Disturbs (.perform op)) run.session session := by
  cases op with
  | claim pending =>
      simp only [SessionOp.apply] at h
      obtain ⟨lease, hclaim⟩ := toOption_map_fst h
      exact (commitClaim_orderly hclaim).weaken fun id _ hid => hid.symm
  | refuse args =>
      simp only [SessionOp.apply] at h
      split at h
      · next refused reasonCode hrefused =>
        obtain rfl := Option.some.inj h
        exact (refusedClaim_letsRest hrefused).orderly _
      · cases h
  | reenter args files =>
      obtain ⟨reentry, hreenter, hrebuilt⟩ := Option.bind_eq_some_iff.mp h
      have hok : reenterClaim run.session args files = .ok reentry := by
        cases heq : reenterClaim run.session args files with
        | error e => simp [heq, Except.toOption] at hreenter
        | ok found => simpa [heq, Except.toOption] using hreenter
      exact (reenterClaim_letsRest hok hrebuilt).orderly _
  | reject submission =>
      simp only [SessionOp.apply] at h
      split at h
      · next rejected rejection heq =>
        obtain rfl := Option.some.inj h
        exact preflight_orderly heq
      · cases h
  | accept metadata submission response =>
      simp only [SessionOp.apply] at h
      obtain ⟨result, haccept⟩ := toOption_map_fst h
      exact (acceptMutation_letsRest haccept).orderly _
  | answerBatch submission =>
      have hbatch := submitBatch_letsRest hkeyed submission
      simp only [SessionOp.apply] at h
      split at h
      · cases h
      · next answered result _ heq =>
        obtain rfl := Option.some.inj h
        rw [heq] at hbatch
        exact hbatch.orderly _
  | reclaim now =>
      simp only [SessionOp.apply] at h
      obtain ⟨expired, hreclaim⟩ := toOption_map_fst h
      exact (reclaimLeases_letsRest hreclaim).orderly _
  | releaseClaimed leaseId now reason =>
      obtain rfl := Option.some.inj h
      exact (releaseClaimedLease_letsRest run.session leaseId now reason).orderly _
  | releaseStale itemIds agentId now =>
      obtain rfl := Option.some.inj h
      exact (releaseStaleLeases_letsRest itemIds agentId now run.session).orderly _
  | classify args =>
      simp only [SessionOp.apply] at h
      obtain ⟨released, hclassify⟩ := toOption_map_fst h
      exact (recordClassification_letsRest hclassify).orderly _
  | reopen itemId now =>
      simp only [SessionOp.apply] at h
      obtain ⟨_, hreopen⟩ := toOption_map_fst h
      exact (reopen_orderly hreopen).weaken fun id _ hid => hid.symm
  | refresh threads currentLogin =>
      obtain rfl := Option.some.inj h
      exact refresh_orderly threads currentLogin run.session
  | ingest findings source sync now =>
      obtain rfl := Option.some.inj h
      exact ingest_orderly run.session findings source sync now
  | publish replies login now =>
      obtain rfl := Option.some.inj h
      exact (publishItems_letsRest replies login now run.session).orderly _
  | note itemId written =>
      obtain rfl := Option.some.inj h
      exact .modifyItem written.write_keepsId fun _ => Or.inr fun item _ =>
        written.write_sameStanding item
  | describe field value =>
      simp only [SessionOp.apply] at h
      split at h
      · cases h
      · obtain rfl := Option.some.inj h
        exact .of_tables rfl rfl

omit [DecidableEq P] in
theorem Writes.orderly {run : CommandRun P} {label : CommandLabel P} {session : Session}
    (hkeyed : LeasesKeyed run.session) (h : Writes run label session) :
    Orderly (run.Disturbs label) run.session session := by
  cases h with
  | perform op _ _ happly => exact perform_orderly hkeyed happly
  | claimBatch p args _ transition _ hbatch => exact (commitBatch_letsRest hbatch).orderly _
  | compensate p plans hactivity =>
      refine (rollback_orderly (createdRows run.session plans) run.session).weaken fun id _ hid => ?_
      simp only [Disturbs, Reclaims, hactivity]
      exact hid
  | claimOneShot p claim _ lease _ hcommit =>
      exact (commitClaim_orderly hcommit).weaken fun id _ hid => hid.symm
  | reenterOneShot p args files reentry _ hreenter hrebuilt =>
      exact (reenterClaim_letsRest hreenter hrebuilt).orderly _
  | rollback p preexisting leaseId acquisition now reasonCode _ =>
      unfold rollbackOneShot
      split
      · exact .refl _
      · exact (releaseClaimedLease_letsRest _ _ _ _).orderly _

/-- A step leaves the items at rest alone that it does not disturb. -/
theorem next_orderly {run run' : CommandRun P} {label : CommandLabel P}
    (hkeyed : LeasesKeyed run.session) (h : run.next label = some run') :
    Orderly (run.Disturbs label) run.session run'.session := by
  rcases next_writes h with ⟨hsame, -⟩ | ⟨session, hwrites, hview⟩
  · rw [hsame]
    exact .refl _
  · exact (hwrites.orderly hkeyed).then ((committedView_letsRest hview).orderly _)

/-- What a compensation leaves of the leases was there before. -/
theorem rollback_leases {rows : List (String × String)} {s : Session} {leaseId : String}
    {lease : Lease} (h : (rollbackNewlyLeasedItems s rows).leases[leaseId]? = some lease) :
    s.leases[leaseId]? = some lease := by
  unfold rollbackNewlyLeasedItems at h
  induction rows generalizing s with
  | nil => exact h
  | cons row rows ih =>
      have hrest := ih h
      simp only [modifyItem_leases, Std.ExtTreeMap.getElem?_erase] at hrest
      split at hrest
      · cases hrest
      · exact hrest

theorem next_leasesKeyed {run run' : CommandRun P} {label : CommandLabel P}
    (hkeyed : LeasesKeyed run.session) (h : run.next label = some run') :
    LeasesKeyed run'.session := by
  rcases next_writes h with ⟨hsame, -⟩ | ⟨session, hwrites, hview⟩
  · rw [hsame]
    exact hkeyed
  · have hcommitted : LeasesKeyed session := by
      cases hwrites with
      | perform op _ hfresh happly => exact (op.apply_lifecycle hkeyed hfresh happly hkeyed).1
      | claimBatch p args _ transition hfresh hbatch =>
          exact (commitBatch_lifecycle hkeyed hfresh hbatch hkeyed).1
      | compensate p plans _ => exact fun id lease hlease => hkeyed id lease (rollback_leases hlease)
      | claimOneShot p claim _ lease hfresh hcommit =>
          exact (commitClaim_creates hkeyed hfresh hcommit hkeyed).1
      | reenterOneShot p args files reentry _ hreenter hrebuilt =>
          exact (reenterClaim_ends hreenter hrebuilt hkeyed).1
      | rollback p preexisting leaseId acquisition now reasonCode _ =>
          unfold rollbackOneShot
          split
          · exact hkeyed
          · exact (releaseClaimedLease_ends _ _ _ _ hkeyed).1
    exact (committedView_ends hview hcommitted).1

theorem IsFresh.itemsKeyed {s : Session} (h : IsFresh s) : ItemsKeyed s := by
  intro id item hitem
  rw [h.items] at hitem
  simp at hitem

end CommandRun
end GhAddressCr
