import GhAddressCr.ActionSubmission

/-!
# Batch claims

An agent claims several threads in one transaction, and the request files are written after
it. When writing them fails, a further transaction takes the new claims back.
-/
namespace GhAddressCr

open PyText GithubThreadState RuntimeStore

/-- `payload_for_lease`: the document of a file, where it is valid and belongs to the lease. -/
def payloadForLease (files : FileSystem) (path requestId leaseId : String)
    (validate : Dict → Bool) : Option Dict :=
  match files[path]? with
  | some (.json document) => document.toDict?.filter fun payload =>
      validate payload && (payload.get "request_id").text == requestId &&
        (payload.get "lease_id").text == leaseId
  | _ => none

/-- `ActionRequest.from_dict` returns. -/
def isActionRequest (payload : Dict) : Bool := (ActionRequest.fromDict payload).toBool

/-- `MAX_PARALLEL_CLAIMS`. -/
def maxParallelClaims : Nat := 2

/-- What a batch claim is given, and what it reads besides the session. -/
structure BatchArgs where
  repo : String
  prNumber : String
  agentId : String
  /-- The paths asked for; with none, every thread is. -/
  files : List String
  now : Int
  /-- The hexadecimal part of the fresh lease id for an item. -/
  token : String → String
  workspaceDir : String
  fileSystem : FileSystem
  metadata : MetadataDelta

namespace BatchArgs

def leaseId (args : BatchArgs) (itemId : String) : String := "lease_" ++ args.token itemId

def requestId (args : BatchArgs) (session : Session) (itemId leaseId : String) : String :=
  (stableId "req" (Dict.ofFields
    [("session_id", session.root.get "session_id"), ("item_id", .str itemId),
      ("role", .str "fixer"), ("agent_id", .str args.agentId),
      ("lease_id", .str leaseId)])).text

end BatchArgs

/-- `is_batch_claimable_github_thread`. -/
def isBatchClaimableGithubThread (item : Dict) : Bool :=
  isClaimableGithubThread item && !isStaleGithubThreadItem item

/-- The item's path is among the files. -/
def hasPathIn (files : List String) (item : Dict) : Bool :=
  match item.get "path" with
  | .str path => path ≠ "" && files.contains path
  | _ => false

/-- The row of the agent's active fixer lease on an item. -/
def activeFixerRow (session : Session) (itemId agentId : String) : Option (String × Lease) :=
  session.leases.toList.find? fun row =>
    row.2.itemId == itemId && row.2.status == .active && row.2.role == .fixer &&
      row.2.agentId == agentId

/-- `_select_batch_target_items`. -/
def selectBatchTargetItems (session : Session) (args : BatchArgs) : List String :=
  (session.items.toList.filter fun row =>
    isGithubThreadItem row.2 && (args.files.isEmpty || hasPathIn args.files row.2) &&
      ((activeFixerRow session row.1 args.agentId).isSome ||
        isBatchClaimableGithubThread row.2)).map (·.1)

def batchClassificationNote : String := "Batch fix skeleton requested by agent next --batch."

def batchClassificationRecord (session : Session) (args : BatchArgs) (itemId : String) :
    EvidenceRecord :=
  EvidenceRecord.new (session.root.get "session_id").text itemId none args.agentId "fixer"
    "classification_recorded" (Dict.ofFields
      [("classification", .str "fix"), ("note", .str batchClassificationNote)]) args.now

/-- The session with a classification of the item, where it has none, and whether it was
classified now (`_ensure_batch_classification_evidence`). -/
def ensureBatchClassification (session : Session) (args : BatchArgs) (itemId : String)
    (item : Dict) : Session × Dict × Bool :=
  if hasClassificationEvidence item then (session, item, false)
  else
    let record := batchClassificationRecord session args itemId
    let item := (item.set "classification_evidence" (classificationRecord "fix"
      batchClassificationNote record.recordId.text)).set "decision" (.str "fix")
    ({ session.appendEvidence record with items := session.items.insert itemId item }, item, true)

/-- `_build_fixer_action_request`; `none` where building it raises. -/
def buildFixerActionRequest (session : Session) (args : BatchArgs) (item : Dict)
    (leaseId requestId : String) : Option Dict := do
  let repositoryContext ←
    repositoryContextForStack args.repo args.prNumber (cachedStackContext session)
  buildActionRequest session item
    { repo := args.repo, prNumber := args.prNumber, role := "fixer", requestId, leaseId
      repositoryContext }

inductive Acquisition where
  | created | reentered
  deriving DecidableEq

/-- A leased item, and the files that are to be written for it. -/
structure ArtifactPlan where
  acquisition : Acquisition
  rebuild : Bool
  itemId : String
  leaseId : String
  requestId : String
  request : Dict
  requestPath : String
  responseSkeletonPath : String

/-- What a row of the batch leaves: the session, its plan and whether it was classified. -/
structure BatchRow where
  session : Session
  plan : ArtifactPlan
  classified : Bool

/-- `_reconcile_existing_lease`. -/
def reconcileExistingLease (session : Session) (args : BatchArgs) (itemId : String) (item : Dict)
    (key : String) (existing : Lease) : Except String BatchRow :=
  let (session, item, classified) := ensureBatchClassification session args itemId item
  let leaseId := existing.leaseId
  let requestId :=
    if existing.requestId.getD "" ≠ "" then existing.requestId.getD ""
    else args.requestId session itemId leaseId
  match buildFixerActionRequest session args item leaseId requestId with
  | none => .error "TypeError"
  | some request =>
      let requestPath :=
        if existing.requestPath.getD "" ≠ "" then existing.requestPath.getD ""
        else requestPathIn args.workspaceDir requestId
      let skeletonPath := responseSkeletonPathIn args.workspaceDir requestId
      let request := request.set "response_skeleton_path" (.str skeletonPath)
      let rebuild := existing.requestHash = "" ∨
        payloadForLease args.fileSystem requestPath requestId leaseId isActionRequest = none
      match if rebuild then requestHash request else .ok existing.requestHash with
      | .error _ => .error "ValueError"
      | .ok hash =>
          let lease := { existing with
            requestId := some requestId, requestHash := hash, requestPath := some requestPath }
          .ok {
            session := { session with leases := session.leases.insert key lease }
            plan := {
              acquisition := .reentered, rebuild := rebuild, itemId, leaseId, requestId, request
              requestPath, responseSkeletonPath := skeletonPath }
            classified }

def batchClaimArgs (args : BatchArgs) (leaseId requestId hash requestPath : String) :
    ClaimArgs where
  agentId := args.agentId
  role := "fixer"
  requestHash := hash
  leaseId := leaseId
  now := args.now
  resumeToken := some ("resume:" ++ requestId)
  requestId := some requestId
  requestPath := some requestPath
  allowSameAgentGithubThreadFileOverlap := true

/-- The item is classified, but not to be fixed. -/
def isDecidedOtherwise (item : Dict) : Bool :=
  hasClassificationEvidence item &&
    (item.get "classification_evidence").field "classification" != .str "fix"

/-- `_lease_new_github_thread`; `none` where the item is passed over. -/
def leaseNewGithubThread (session : Session) (args : BatchArgs) (itemId : String) (item : Dict) :
    Except String (Option BatchRow) :=
  if isDecidedOtherwise item then .ok none
  else
    let (session, item, classified) := ensureBatchClassification session args itemId item
    let leaseId := args.leaseId itemId
    let requestId := args.requestId session itemId leaseId
    match buildFixerActionRequest session args item leaseId requestId with
    | none => .error "TypeError"
    | some request =>
        match requestHash request with
        | .error _ => .error "ValueError"
        | .ok hash =>
            let requestPath := requestPathIn args.workspaceDir requestId
            let skeletonPath := responseSkeletonPathIn args.workspaceDir requestId
            match claimLease session item
                (batchClaimArgs args leaseId requestId hash requestPath) with
            | (_, .error error) => .error error.text
            | (session, .ok _) =>
                .ok (some {
                  session := session.modifyItem itemId (markClaimed leaseId)
                  plan := {
                    acquisition := .created, rebuild := false, itemId, leaseId, requestId
                    request := request.set "response_skeleton_path" (.str skeletonPath)
                    requestPath, responseSkeletonPath := skeletonPath }
                  classified })

/-- What the loop over the target items has done so far. -/
structure BatchProgress where
  session : Session
  /-- How many more leases the agent may take. -/
  remaining : Nat
  plans : List ArtifactPlan
  classificationItems : List String

def BatchProgress.record (progress : BatchProgress) (itemId : String) (remaining : Nat)
    (row : BatchRow) : BatchProgress where
  session := row.session
  remaining := remaining
  plans := progress.plans ++ [row.plan]
  classificationItems :=
    if row.classified then progress.classificationItems ++ [itemId]
    else progress.classificationItems

/-- One target item of `commit_batch`. -/
def claimBatchItem (args : BatchArgs) (progress : BatchProgress) (itemId : String) :
    Except String BatchProgress :=
  match progress.session.items[itemId]? with
  | none => .ok progress
  | some item =>
      match activeFixerRow progress.session itemId args.agentId with
      | some (key, existing) =>
          (reconcileExistingLease progress.session args itemId item key existing).map
            (progress.record itemId progress.remaining)
      | none =>
          if progress.remaining = 0 then .ok progress
          else
            (leaseNewGithubThread progress.session args itemId item).map fun row =>
              match row with
              | some row => progress.record itemId (progress.remaining - 1) row
              | none => progress

/-- What a committed batch hands on. -/
structure BatchTransition where
  plans : List ArtifactPlan
  classificationItems : List String

def batchIssuedRecord (session : Session) (args : BatchArgs) (plan : ArtifactPlan) :
    EvidenceRecord :=
  EvidenceRecord.new (session.root.get "session_id").text plan.itemId (some plan.leaseId)
    args.agentId "fixer" "request_issued" (Dict.ofFields
      [("request_id", plan.request.get "request_id"), ("request_path", .str plan.requestPath),
        ("response_skeleton_path", .str plan.responseSkeletonPath)]) args.now

/-- The agent's active fixer leases. -/
def activeFixerCount (session : Session) (agentId : String) : Nat :=
  (session.leases.toList.filter fun row =>
    row.2.status == .active && row.2.role == .fixer && row.2.agentId == agentId).length

/-- `commit_batch`. -/
def commitBatch (args : BatchArgs) : Mutation BatchTransition := fun current =>
  let current := expireAndReturn (applyMetadataDelta current args.metadata) args.now
  let targets := selectBatchTargetItems current args
  if targets.isEmpty then .error "NO_ELIGIBLE_ITEM"
  else
    match targets.foldlM (claimBatchItem args)
        { session := current
          remaining := maxParallelClaims - activeFixerCount current args.agentId
          plans := [], classificationItems := [] } with
    | .error error => .error error
    | .ok progress =>
        if progress.plans.isEmpty then .error "NO_ELIGIBLE_ITEM"
        else
          let created := progress.plans.filter fun plan => plan.acquisition == .created
          .ok (created.foldl
              (fun session plan => session.appendEvidence (batchIssuedRecord session args plan))
              progress.session,
            { plans := progress.plans, classificationItems := progress.classificationItems })

/-- What `_rollback_newly_leased_items` makes of an item. -/
def rolledBackItem (item : Dict) : Dict :=
  let item := returnItemToClaimableState item
  clearClaimFields
    (if isStaleGithubThreadItem item then item else item.set "blocking" (.bool true))

/-- `_rollback_newly_leased_items`. -/
def rollbackNewlyLeasedItems (session : Session) (newlyLeased : List (String × String)) :
    Session :=
  newlyLeased.foldl
    (fun session row =>
      { session with leases := session.leases.erase row.1 }.modifyItem row.2 rolledBackItem)
    session

/-- The created leases that the session still has, with their items. -/
def createdRows (session : Session) (plans : List ArtifactPlan) : List (String × String) :=
  (plans.filter fun plan => plan.acquisition == .created && session.items.contains plan.itemId &&
    session.leases.contains plan.leaseId).map fun plan => (plan.leaseId, plan.itemId)

/-- `_compensate_batch_materialization`, in its transaction. -/
def compensateBatch (plans : List ArtifactPlan) : Mutation Unit := fun current =>
  .ok (rollbackNewlyLeasedItems current (createdRows current plans), ())

end GhAddressCr
