import GhAddressCr.RequestDocuments
import GhAddressCr.RuntimeStore

/-!
# Issuing action requests

An agent asks for work: an item is selected on a loaded copy of the session, a request is
built for it, and a later transaction claims the item on the session committed by then.
-/
namespace GhAddressCr

open PyText GithubThreadState RuntimeStore

/-- `MUTATING_ROLES`. -/
def isMutatingRole (role : String) : Bool := role == "fixer"

/-- `_item_is_open`. -/
def itemIsOpen (item : Dict) : Bool :=
  if isGithubThreadItem item then isClaimableGithubThread item
  else
    let state := lower ((item.get "state").orElse
      ((item.get "status").orElse (.str "open"))).text
    githubThreadClaimableStates.contains state && state != "stale"

/-- `_next_item`; the item id is empty where none is given. -/
def nextItem (session : Session) (itemId : String) : String × Option Dict :=
  let activeItemIds := activeItemIds session.leases
  if itemId ≠ "" then
    match session.items[itemId]? with
    | some item =>
        if activeItemIds.contains itemId || !itemIsOpen item then (itemId, none)
        else (itemId, some item)
    | none => (itemId, none)
  else
    match session.items.toList.find? fun row =>
        !activeItemIds.contains row.1 && itemIsOpen row.2 with
    | some row => (row.1, some row.2)
    | none => ("", none)

/-- `expire_leases`, then `_return_expired_items_to_open`. -/
def expireAndReturn (session : Session) (now : Int) : Session :=
  let (session, expired) := expireLeases session now
  returnExpiredItemsToOpen session expired

/-- `active_fixer_lease_for_item`, of one agent where one is given. -/
def activeFixerLeaseForItem (session : Session) (itemId : String) (agentId : Option String) :
    Option Lease :=
  (session.leases.toList.map (·.2)).find? fun lease =>
    lease.itemId == itemId && lease.status == .active && lease.role == .fixer &&
      agentId.all (lease.agentId == ·)

/-- `_active_lease_for_item`. -/
def activeLeaseForItem (session : Session) (itemId : String) : Option Lease :=
  (session.leases.toList.map (·.2)).find? fun lease => lease.itemId == itemId && lease.isActive

def classificationRecord (classification note recordId : String) : Value :=
  (Dict.ofFields
    [("event_type", .str "classification_recorded"), ("classification", .str classification),
      ("note", .str note), ("record_id", .str recordId)]).toValue

/-- The classification a record of the ledger holds for an item. -/
def recordedClassification? (itemId : String) (record : EvidenceRecord) : Option String :=
  let classification := lower (strip (record.payload.textOr "classification" ""))
  if record.eventType = "classification_recorded" ∧ record.itemId = itemId ∧
      classification ∈ terminalResolutions then
    some classification
  else none

/-- `_restore_classification_evidence_from_session`; `records` is the ledger, in order. -/
def restoreClassificationEvidence (records : List EvidenceRecord) (itemId : String)
    (item : Dict) : Dict :=
  let decision := lower (strip (item.textOr "decision" ""))
  if decision ∈ terminalResolutions then
    let note := (item.get "classification_note").orElse
      ((item.get "resolution_note").orElse (.str "Restored from item decision."))
    item.set "classification_evidence" (classificationRecord decision note.text
      (item.textOr "classification_record_id" "session-decision"))
  else
    match records.reverse.find? fun record => (recordedClassification? itemId record).isSome with
    | some record =>
        let classification := (recordedClassification? itemId record).getD ""
        (item.set "classification_evidence" (classificationRecord classification
          (record.payload.textOr "note" "Restored from evidence ledger.")
          record.recordId.text)).set "decision" (.str classification)
    | none => item

/-- The metadata keys a command changed in its loaded copy. -/
structure MetadataDelta where
  updates : Dict
  removed : List String
  deriving DecidableEq

def metadataDelta (base changed : Value) : MetadataDelta :=
  let base := base.toDict?.getD ∅
  let changed := changed.toDict?.getD ∅
  { updates := Dict.ofFields (changed.toList.filter fun field =>
      !(base[field.1]?).any fun value => Value.pyEq value field.2)
    removed := base.keys.filter fun key => !changed.has key }

def applyMetadataDelta (current : Session) (delta : MetadataDelta) : Session :=
  current.setMetadata
    (delta.removed.foldl Dict.pop ((current.metadata?.getD ∅).update delta.updates))

/-- `refresh_stack_context_for_request` with the context GitHub gave, an unavailable one where
the call raised; the error is the reason the request is refused. -/
def refreshStackContext (session : Session) (observed : StackContext) : Except String Session :=
  let wasKnownStacked := hasObservedStackMembership session
  let session := cachePullRequestContext session observed.toDict
  if observed.availability = .invalid then .error "STACK_CONTEXT_INVALID"
  else if observed.availability = .unavailable ∧ wasKnownStacked then
    .error "STACK_CONTEXT_UNAVAILABLE"
  else .ok session

/-- Who asks for work, when, and what the command reads besides the session. -/
structure IssueArgs where
  repo : String
  prNumber : String
  role : String
  agentId : String
  itemId : String
  now : Int
  /-- The hexadecimal part of a fresh lease id. -/
  token : String
  workspaceDir : String
  observed : StackContext
  /-- The committed evidence, for a classification that is to be restored. -/
  canonical : List EvidenceRecord

namespace IssueArgs

def workingSetRequest (args : IssueArgs) : WorkingSetRequest :=
  { itemIds := [args.itemId], includeActiveLeases := true }

def leaseId (args : IssueArgs) : String := "lease_" ++ args.token

/-- `_stable_id` of a request for an item. -/
def requestId (args : IssueArgs) (session : Session) (itemId : String) : String :=
  (stableId "req" (Dict.ofFields
    [("session_id", session.root.get "session_id"), ("item_id", .str itemId),
      ("role", .str args.role), ("agent_id", .str args.agentId),
      ("lease_id", .str args.leaseId)])).text

end IssueArgs

def requestPathIn (workspaceDir requestId : String) : String :=
  workspaceDir ++ "/action-request-" ++ requestId ++ ".json"

def responseSkeletonPathIn (workspaceDir requestId : String) : String :=
  workspaceDir ++ "/action-response-skeleton-" ++ requestId ++ ".json"

/-- What a command has decided on its loaded copy before it claims. -/
structure PendingClaim where
  itemId : String
  role : String
  agentId : String
  leaseId : String
  requestId : String
  requestHash : String
  requestPath : String
  responseSkeletonPath : String
  /-- The document to be written once the claim is committed. -/
  request : Dict
  classification : Value
  decision : Value
  metadata : MetadataDelta
  now : Int
  sessionId : String

/-- How the selection of an item ends. -/
inductive Selection where
  | claim (pending : PendingClaim)
  /-- The agent already holds a fixer lease on the item. -/
  | reenter (session : Session) (lease : Lease) (item : Dict)
  /-- The loaded scope is saved, then the command raises. -/
  | refused (session : Session) (reasonCode : String)
  /-- The command raises at once. -/
  | raised (reasonCode : String)

/-- The request identity a re-entry hands back. -/
def hasRequestIdentity (lease : Lease) : Bool :=
  (lease.requestId.getD "") != "" && (lease.requestPath.getD "") != ""

/-- The lease `_reenter_own_fixer_lease` hands back. -/
def reenteredLease? (session : Session) (args : IssueArgs) (itemId : String) :
    Option (Lease × Dict) :=
  if args.role ≠ "fixer" ∨ itemId = "" then none
  else
    match activeFixerLeaseForItem session itemId (some args.agentId), session.items[itemId]? with
    | some lease, some item => if hasRequestIdentity lease then some (lease, item) else none
    | _, _ => none

/-- No item can be handed out: the agent's own claim is re-entered, or the request refused. -/
def selectionWithoutItem (session : Session) (args : IssueArgs) (itemId : String) : Selection :=
  match reenteredLease? session args itemId with
  | some (lease, item) => .reenter session lease item
  | none =>
      if itemId ≠ "" ∧ (activeLeaseForItem session itemId).isSome then
        .refused session "LEASE_LOCKED_ITEM"
      else .refused session "NO_ELIGIBLE_ITEM"

def requestRejectedRecord (session : Session) (args : IssueArgs) (itemId : String) :
    EvidenceRecord :=
  EvidenceRecord.new (session.root.get "session_id").text itemId none args.agentId args.role
    "request_rejected" (Dict.ofFields [("reason_code", .str "MISSING_CLASSIFICATION")]) args.now

def Session.appendEvidence (session : Session) (record : EvidenceRecord) : Session :=
  { session with pendingEvidence := session.pendingEvidence ++ [record] }

/-- The claim a command makes on the item it has selected. -/
def pendingClaim? (session : Session) (metadataBase : Value) (args : IssueArgs)
    (itemId : String) (item : Dict) : Selection :=
  match refreshStackContext session args.observed with
  | .error reasonCode => .raised reasonCode
  | .ok session =>
      let requestId := args.requestId session itemId
      let skeletonPath := responseSkeletonPathIn args.workspaceDir requestId
      let request? := do
        let repositoryContext ←
          repositoryContextForStack args.repo args.prNumber (some args.observed.toDict)
        buildActionRequest session item
          { repo := args.repo, prNumber := args.prNumber, role := args.role, requestId
            leaseId := args.leaseId, repositoryContext }
      match request? with
      | none => .raised "TypeError"
      | some request =>
          match requestHash request with
          | .error _ => .raised "ValueError"
          | .ok hash =>
              .claim {
                itemId, role := args.role, agentId := args.agentId, leaseId := args.leaseId
                requestId, requestHash := hash
                requestPath := requestPathIn args.workspaceDir requestId
                responseSkeletonPath := skeletonPath
                request := request.set "response_skeleton_path" (.str skeletonPath)
                classification := item.get "classification_evidence"
                decision := item.get "decision"
                metadata := metadataDelta metadataBase (session.root.get "metadata")
                now := args.now, sessionId := (session.root.get "session_id").text }

/-- The first half of `issue_action_request`: what it decides on the session it has loaded. -/
def selectForClaim (loaded : Session) (args : IssueArgs) : Selection :=
  let metadataBase := loaded.root.get "metadata"
  let session := expireAndReturn loaded args.now
  match nextItem session args.itemId with
  | (itemId, none) => selectionWithoutItem session args itemId
  | (itemId, some item) =>
      let classified := isMutatingRole args.role && !hasClassificationEvidence item
      let item :=
        if classified then
          restoreClassificationEvidence (args.canonical ++ session.pendingEvidence) itemId item
        else item
      let session := { session with items := session.items.insert itemId item }
      if isMutatingRole args.role && !hasClassificationEvidence item then
        .refused (session.appendEvidence (requestRejectedRecord session args itemId))
          "MISSING_CLASSIFICATION"
      else pendingClaim? session metadataBase args itemId item

def LeaseError.text : LeaseError → String
  | .conflict reasonCode detail => reasonCode ++ ": " ++ detail
  | .submission reasonCode detail _ => reasonCode ++ ": " ++ detail
  | .valueError message => message
  | .typeError => "TypeError"

/-- The item of a session, changed. -/
def Session.modifyItem (session : Session) (itemId : String) (change : Dict → Dict) : Session :=
  match session.items[itemId]? with
  | some item => { session with items := session.items.insert itemId (change item) }
  | none => session

/-- The classification found on the loaded copy, on an item that has none. -/
def adoptClassification (claim : PendingClaim) (item : Dict) : Dict :=
  if claim.classification.toDict?.isSome && !hasClassificationEvidence item then
    (item.set "classification_evidence" claim.classification).set "decision" claim.decision
  else item

def claimArgs (claim : PendingClaim) (item : Dict) : ClaimArgs where
  agentId := claim.agentId
  role := claim.role
  requestHash := claim.requestHash
  leaseId := claim.leaseId
  now := claim.now
  resumeToken := some ("resume:" ++ claim.requestId)
  requestId := some claim.requestId
  requestPath := some claim.requestPath
  allowSameAgentGithubThreadFileOverlap :=
    claim.role == "fixer" && item.get "item_kind" = .str "github_thread"

def markClaimed (leaseId : String) (item : Dict) : Dict :=
  (item.set "state" (.str "claimed")).set "active_lease_id" (.str leaseId)

/-- `commit_claim`, which decides under the write lock. -/
def commitClaim (claim : PendingClaim) : Mutation Lease := fun current =>
  let current := expireAndReturn current claim.now
  match current.items[claim.itemId]? with
  | none => .error ("ITEM_NOT_CLAIMABLE: " ++ claim.itemId)
  | some item =>
      let item := adoptClassification claim item
      let current := applyMetadataDelta current claim.metadata
      let current := { current with items := current.items.insert claim.itemId item }
      match claimLease current item (claimArgs claim item) with
      | (_, .error error) => .error error.text
      | (current, .ok lease) =>
          .ok (current.modifyItem claim.itemId (markClaimed claim.leaseId), lease)

def requestIssuedRecord (claim : PendingClaim) : EvidenceRecord :=
  EvidenceRecord.new claim.sessionId claim.itemId (some claim.leaseId) claim.agentId claim.role
    "request_issued" (Dict.ofFields
      [("request_id", .str claim.requestId), ("request_path", .str claim.requestPath),
        ("response_skeleton_path", .str claim.responseSkeletonPath)]) claim.now

/-- The transaction of `issue_action_request`. -/
def grantClaim (store : Store) (claim : PendingClaim) :
    StoreResult (Store × TransactionResult Lease) :=
  transactWorkingSet store { itemIds := [claim.itemId], includeActiveLeases := true }
    (commitClaim claim) none [requestIssuedRecord claim]

/-- The session `issue_action_request` loads. -/
def loadForIssue (store : Store) (args : IssueArgs) : StoreResult Session :=
  if args.itemId ≠ "" then (loadWorkingSet store args.workingSetRequest).map (·.session)
  else loadSnapshot store

/-- Eligibility reads only these fields of an item. -/
def eligibilityFields : List String :=
  ["item_kind", "kind", "state", "status", "isResolved", "is_resolved", "is_outdated",
    "isOutdated"]

/-- The items agree in every field that eligibility reads. -/
def SameEligibilityFields (item other : Dict) : Prop :=
  ∀ field ∈ eligibilityFields, item[field]? = other[field]?

instance (item other : Dict) : Decidable (SameEligibilityFields item other) :=
  inferInstanceAs (Decidable (∀ field ∈ eligibilityFields, _))

theorem itemIsOpen_congr {item other : Dict} (h : SameEligibilityFields item other) :
    itemIsOpen item = itemIsOpen other := by
  have hget : ∀ field ∈ eligibilityFields, item.get field = other.get field := by
    intro field hfield
    simp [Dict.get, h field hfield]
  have hhas : ∀ field ∈ eligibilityFields, item.has field = other.has field := by
    intro field hfield
    simp [Dict.has, h field hfield]
  have hstate : normalizedThreadState item = normalizedThreadState other := by
    unfold normalizedThreadState Dict.textOr
    rw [hget "state" (by decide), hget "status" (by decide)]
  have hkind : isGithubThreadItem item = isGithubThreadItem other := by
    unfold isGithubThreadItem
    rw [hget "item_kind" (by decide), hget "kind" (by decide)]
  have hresolved : isResolvedGithubThread item = isResolvedGithubThread other := by
    unfold isResolvedGithubThread isTerminalGithubThread
    rw [hhas "isResolved" (by decide), hhas "is_resolved" (by decide),
      hget "isResolved" (by decide), hget "is_resolved" (by decide), hstate]
  have hstale : isStaleOrOutdatedGithubThread item = isStaleOrOutdatedGithubThread other := by
    unfold isStaleOrOutdatedGithubThread Dict.textOr
    rw [hstate, hget "status" (by decide), hget "is_outdated" (by decide),
      hget "isOutdated" (by decide)]
  unfold itemIsOpen isClaimableGithubThread
  rw [hkind, hresolved, hstate, hstale, hget "state" (by decide), hget "status" (by decide)]

/-- The item handed out is an item of the session that is open and not leased. -/
theorem nextItem_some {session : Session} {itemId selectedId : String} {item : Dict}
    (h : nextItem session itemId = (selectedId, some item)) :
    session.items[selectedId]? = some item ∧ itemIsOpen item = true ∧
      selectedId ∉ activeItemIds session.leases := by
  unfold nextItem at h
  simp only at h
  split at h
  · split at h
    · next found hfound =>
      split at h
      · simp at h
      · next hopen =>
        simp only [Prod.mk.injEq, Option.some.injEq] at h
        obtain ⟨rfl, rfl⟩ := h
        simp only [Bool.or_eq_true, List.contains_eq_mem, decide_eq_true_eq,
          Bool.not_eq_true', not_or, Bool.not_eq_false] at hopen
        exact ⟨hfound, hopen.2, hopen.1⟩
    · simp at h
  · split at h
    · next row hrow =>
      simp only [Prod.mk.injEq, Option.some.injEq] at h
      obtain ⟨rfl, rfl⟩ := h
      have hmem := List.mem_of_find?_eq_some hrow
      have hopen := List.find?_some hrow
      simp only [Bool.and_eq_true, Bool.not_eq_true', List.contains_eq_mem,
        decide_eq_false_iff_not] at hopen
      exact ⟨Std.ExtTreeMap.mem_toList_iff_getElem?_eq_some.mp hmem, hopen.2, hopen.1⟩
    · simp at h

theorem restoreClassificationEvidence_getElem? (records : List EvidenceRecord) (itemId : String)
    (item : Dict) {field : String} (hevidence : "classification_evidence" ≠ field)
    (hdecision : "decision" ≠ field) :
    (restoreClassificationEvidence records itemId item)[field]? = item[field]? := by
  unfold restoreClassificationEvidence
  simp only
  split
  · simp [Dict.getElem?_set, hevidence]
  · split
    · simp [Dict.getElem?_set, hevidence, hdecision]
    · rfl

/-- The session and the item of a selection, with the classification that was found for it. -/
structure Selected (loaded : Session) (args : IssueArgs) (itemId : String) (item : Dict)
    (restored : Dict) : Prop where
  next : nextItem (expireAndReturn loaded args.now) args.itemId = (itemId, some item)
  same : ∀ field : String, "classification_evidence" ≠ field → "decision" ≠ field →
    restored[field]? = item[field]?

/-- The session in which a claim is prepared. -/
def selectedSession (loaded : Session) (args : IssueArgs) (itemId : String) (restored : Dict) :
    Session :=
  let session := expireAndReturn loaded args.now
  { session with items := session.items.insert itemId restored }

theorem selectForClaim_some {loaded : Session} {args : IssueArgs} {itemId : String} {item : Dict}
    (h : nextItem (expireAndReturn loaded args.now) args.itemId = (itemId, some item)) :
    ∃ restored, Selected loaded args itemId item restored ∧
      selectForClaim loaded args =
        if isMutatingRole args.role && !hasClassificationEvidence restored then
          .refused ((selectedSession loaded args itemId restored).appendEvidence
            (requestRejectedRecord (selectedSession loaded args itemId restored) args itemId))
            "MISSING_CLASSIFICATION"
        else
          pendingClaim? (selectedSession loaded args itemId restored)
            (loaded.root.get "metadata") args itemId restored := by
  let restored :=
    if isMutatingRole args.role && !hasClassificationEvidence item then
      restoreClassificationEvidence
        (args.canonical ++ (expireAndReturn loaded args.now).pendingEvidence) itemId item
    else item
  refine ⟨restored, ⟨h, fun field hevidence hdecision => ?_⟩, ?_⟩
  · show (if _ then _ else _ : Dict)[field]? = item[field]?
    split
    · exact restoreClassificationEvidence_getElem? _ _ _ hevidence hdecision
    · rfl
  · unfold selectForClaim
    simp only [h]
    rfl

theorem pendingClaim?_cases (session : Session) (metadataBase : Value) (args : IssueArgs)
    (itemId : String) (item : Dict) :
    (∃ claim, pendingClaim? session metadataBase args itemId item = .claim claim) ∨
      ∃ reasonCode, pendingClaim? session metadataBase args itemId item = .raised reasonCode := by
  unfold pendingClaim?
  split
  · exact Or.inr ⟨_, rfl⟩
  · simp only
    split
    · exact Or.inr ⟨_, rfl⟩
    · split
      · exact Or.inr ⟨_, rfl⟩
      · exact Or.inl ⟨_, rfl⟩

/-- A refused request saves the expired leases, and the classification it has looked for. -/
theorem selectForClaim_refused {loaded session : Session} {args : IssueArgs} {reasonCode : String}
    (h : selectForClaim loaded args = .refused session reasonCode) :
    session = expireAndReturn loaded args.now ∨ ∃ itemId item restored,
      Selected loaded args itemId item restored ∧
        session = (selectedSession loaded args itemId restored).appendEvidence
          (requestRejectedRecord (selectedSession loaded args itemId restored) args itemId) := by
  cases hnext : nextItem (expireAndReturn loaded args.now) args.itemId with
  | mk itemId item? =>
    cases item? with
    | none =>
        left
        unfold selectForClaim selectionWithoutItem at h
        simp only [hnext] at h
        split at h
        · cases h
        · split at h <;> exact (Selection.refused.inj h).1.symm
    | some item =>
        right
        obtain ⟨restored, hselected, hvalue⟩ := selectForClaim_some hnext
        rw [hvalue] at h
        split at h
        · exact ⟨itemId, item, restored, hselected, (Selection.refused.inj h).1.symm⟩
        · rcases pendingClaim?_cases (selectedSession loaded args itemId restored)
            (loaded.root.get "metadata") args itemId restored with ⟨claim, heq⟩ | ⟨code, heq⟩ <;>
          rw [heq] at h <;> cases h

/-- A claim is re-entered on the loaded session, with its expired leases returned. -/
theorem selectForClaim_reenter {loaded session : Session} {args : IssueArgs} {lease : Lease}
    {item : Dict} (h : selectForClaim loaded args = .reenter session lease item) :
    session = expireAndReturn loaded args.now := by
  cases hnext : nextItem (expireAndReturn loaded args.now) args.itemId with
  | mk itemId item? =>
    cases item? with
    | none =>
        unfold selectForClaim selectionWithoutItem at h
        simp only [hnext] at h
        split at h
        · exact (Selection.reenter.inj h).1.symm
        · split at h <;> cases h
    | some item =>
        obtain ⟨restored, -, hvalue⟩ := selectForClaim_some hnext
        rw [hvalue] at h
        split at h
        · cases h
        · rcases pendingClaim?_cases (selectedSession loaded args itemId restored)
            (loaded.root.get "metadata") args itemId restored with ⟨claim, heq⟩ | ⟨code, heq⟩ <;>
          rw [heq] at h <;> cases h

end GhAddressCr
