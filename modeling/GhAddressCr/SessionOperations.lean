import GhAddressCr.BatchSubmission

/-!
# Operations on a session

The commands besides claims and submissions that change the leases of a session: a
classification, the re-entry of a claim, and the ways a lease is given back. A command saves
the session it has loaded or decides in a transaction; either way it makes one session of
another.
-/
namespace GhAddressCr

open PyText GithubThreadState RuntimeStore

structure ClassifyArgs where
  itemId : String
  classification : String
  agentId : String
  note : String
  now : Int

/-- The active triage lease `_release_active_triage_lease` finds. -/
def activeTriageRow (session : Session) (itemId : String) : Option (String × Lease) :=
  session.leases.toList.find? fun row =>
    row.2.itemId == itemId && row.2.role == .triage && row.2.isActive

/-- `_release_active_triage_lease`. -/
def releaseActiveTriageLease (session : Session) (args : ClassifyArgs) :
    Session × Option String :=
  match activeTriageRow session args.itemId with
  | none => (session, none)
  | some (leaseId, _) =>
      let session :=
        (releaseLease session leaseId args.now (some "classification_recorded")).1
      let record := EvidenceRecord.new (session.root.get "session_id").text args.itemId
        (some leaseId) args.agentId "triage" "classification_lease_released"
        (Dict.ofFields [("reason", .str "classification_recorded")]) args.now
      (session.appendEvidence record, some leaseId)

def classificationRecorded (session : Session) (args : ClassifyArgs) (classification : String) :
    EvidenceRecord :=
  EvidenceRecord.new (session.root.get "session_id").text args.itemId none args.agentId "triage"
    "classification_recorded"
    (Dict.ofFields [("classification", .str classification), ("note", .str args.note)]) args.now

/-- The item with its classification, given back when a triage lease held it. -/
def classifiedItem (record : EvidenceRecord) (args : ClassifyArgs) (classification : String)
    (released : Bool) (item : Dict) : Dict :=
  let item := item.set "classification_evidence"
    (classificationRecord classification args.note record.recordId.text)
  let item := (item.set "decision" (.str classification)).set "updated_at" (.time args.now)
  if released then rolledBackItem item else item

/-- `record_classification`. -/
def recordClassification (args : ClassifyArgs) : Mutation (Option String) := fun session =>
  let classification := lower (strip args.classification)
  if !terminalResolutions.contains classification then .error "UNSUPPORTED_CLASSIFICATION"
  else if strip args.note = "" then .error "MISSING_CLASSIFICATION_NOTE"
  else if (session.items[args.itemId]?).isNone then .error "ITEM_NOT_FOUND"
  else
    let record := classificationRecorded session args classification
    let (session, released) := releaseActiveTriageLease (session.appendEvidence record) args
    .ok (session.modifyItem args.itemId
      (classifiedItem record args classification released.isSome), released)

/-- The rows of the agent's own fixer leases on an item. -/
def ownFixerRows (session : Session) (itemId agentId : String) : List (String × Lease) :=
  session.leases.toList.filter fun row =>
    row.2.isActive && row.2.itemId == itemId && row.2.agentId == agentId && row.2.role == .fixer

def staleItem (item : Dict) : Dict :=
  ((item.pop "active_lease_id").set "state" (.str "stale")).set "status" (.str "STALE")

/-- `release_self_stale_lease`. -/
def releaseSelfStaleLease (session : Session) (itemId agentId : String) (now : Int) : Session :=
  let rows := ownFixerRows session itemId agentId
  if rows.isEmpty then session
  else
    let session := rows.foldl
      (fun session row => (releaseLease session row.2.leaseId now (some "stale_reclaim")).1)
      session
    session.modifyItem itemId staleItem

def leaseExpiredRecord (session : Session) (lease : Lease) (now : Int) : EvidenceRecord :=
  EvidenceRecord.new (session.root.get "session_id").text lease.itemId (some lease.leaseId)
    lease.agentId lease.role.value "lease_expired"
    (Dict.ofFields [("reason", .str "reclaimed")]) now

/-- The mutation of `reclaim_leases`. -/
def reclaimLeases (now : Int) : Mutation (List Lease) := fun session =>
  let (session, expired) := expireLeases session now
  let session := returnExpiredItemsToOpen session expired
  .ok (expired.foldl
    (fun session lease => session.appendEvidence (leaseExpiredRecord session lease now)) session,
    expired)

/-- `_rebuild_fixer_request`: the session with the stack context that was read, and the
request. -/
def rebuildFixerRequest (session : Session) (args : IssueArgs) (lease : Lease) (item : Dict) :
    Except String (Session × Dict) :=
  match refreshStackContext session args.observed with
  | .error reasonCode => .error reasonCode
  | .ok session =>
      let request? := do
        let repositoryContext ←
          repositoryContextForStack args.repo args.prNumber (some args.observed.toDict)
        buildActionRequest session item
          { repo := args.repo, prNumber := args.prNumber, role := "fixer"
            requestId := lease.requestId.getD "", leaseId := lease.leaseId, repositoryContext }
      match request? with
      | none => .error "TypeError"
      | some request => .ok (session, request)

/-- `Path.with_name`. -/
def siblingPath (path name : String) : String :=
  match rpartition '/' path.toList with
  | some (parent, _) => String.ofList parent ++ "/" ++ name
  | none => name

def requestRebuiltRecord (session : Session) (args : IssueArgs) (lease : Lease)
    (requestPath skeletonPath : String) : EvidenceRecord :=
  EvidenceRecord.new (session.root.get "session_id").text lease.itemId (some lease.leaseId)
    args.agentId args.role "request_issued" (Dict.ofFields
      [("request_id", .str (lease.requestId.getD "")), ("request_path", .str requestPath),
        ("response_skeleton_path", .str skeletonPath), ("rebuilt", .bool true)]) args.now

/-- A claim handed back, with the session that is saved where its request was rebuilt. -/
structure Reentry where
  lease : Lease
  request : Dict
  rebuilt : Option Session

/-- `_reenter_own_fixer_lease`, for the lease held under `key`. The file of a rebuilt request is
written before the session is saved. -/
def reenterOwnFixerLease (session : Session) (args : IssueArgs) (files : FileSystem)
    (key : String) (lease : Lease) (item : Dict) : Except String Reentry :=
  let requestId := lease.requestId.getD ""
  let requestPath := lease.requestPath.getD ""
  match payloadForLease files requestPath requestId lease.leaseId isActionRequest with
  | some request => .ok { lease, request, rebuilt := none }
  | none =>
      match rebuildFixerRequest session args lease item with
      | .error error => .error error
      | .ok (session, request) =>
          let skeletonPath := siblingPath requestPath
            ("action-response-skeleton-" ++ requestId ++ ".json")
          let request := request.set "response_skeleton_path" (.str skeletonPath)
          match requestHash request with
          | .error _ => .error "ValueError"
          | .ok hash =>
              let lease := { lease with requestHash := hash }
              let session := { session with leases := session.leases.insert key lease }
              let record := requestRebuiltRecord session args lease requestPath skeletonPath
              .ok { lease, request, rebuilt := some (session.appendEvidence record) }

/-- What `issue_action_request` does with a claim the agent already holds. -/
def reenterClaim (loaded : Session) (args : IssueArgs) (files : FileSystem) :
    Except String Reentry :=
  match selectForClaim loaded args with
  | .reenter session _ item =>
      match activeFixerRow session args.itemId args.agentId with
      | some (key, lease) => reenterOwnFixerLease session args files key lease item
      | none => .error "NO_ELIGIBLE_ITEM"
  | _ => .error "NO_ELIGIBLE_ITEM"

end GhAddressCr
