import GhAddressCr.Session
import Std.Data.ExtTreeSet

/-!
# Leases

Claims on items. A claim checks its conflict keys against every active lease; the keys of a
lease never change afterwards, and its status only moves on. The functions change a session
in place and may raise after changing it, so each returns the session with its result.
-/
namespace GhAddressCr

open PyText GithubThreadState

/-- `READ_ONLY_ROLES`. -/
def isReadOnlyRole (role : String) : Bool :=
  ["triage", "verifier", "review_producer", "gatekeeper"].contains role

/-- The distinct texts of a list, in order (`sorted(set(texts))`). -/
def sortedSet (texts : List String) : List String :=
  (texts.foldl (fun s t => s.insert t) (∅ : Std.ExtTreeSet String compare)).toList

inductive RecoveryOutcome where
  | renew | reclaim | refreshState | stop | alreadyCompleted
  deriving DecidableEq, Repr

def RecoveryOutcome.value : RecoveryOutcome → String
  | .renew => "renew"
  | .reclaim => "reclaim"
  | .refreshState => "refresh_state"
  | .stop => "stop"
  | .alreadyCompleted => "already_completed"

structure LeaseRecoveryState where
  leaseId : String
  itemId : String
  agentId : String
  requestId : String
  requestHash : String
  leaseStatus : String
  itemState : String
  recoveryOutcome : RecoveryOutcome
  reasonCode : String
  deriving DecidableEq

inductive LeaseError where
  | conflict (reasonCode detail : String)
  | submission (reasonCode detail : String) (recoveryState : Option LeaseRecoveryState)
  | valueError (message : String)
  | typeError
  deriving DecidableEq

/-- `_recovery_field`. -/
def recoveryField (value : Value) (default : String) : String :=
  if value = .null ∨ value = .str "" ∨ value = .bool false then default else value.text

def isExpired (lease : Lease) (now : Int) : Bool := lease.expiresAt ≤ now

/-- What `_evaluate_lease_recovery_outcome` reads. -/
structure LeaseRecoveryEvalContext where
  item : Option Dict
  itemState : String
  lease : Option Lease
  leaseStatus : String
  leaseAgentId : String
  leaseRole : String
  leaseRequestHash : String
  agentId : String
  role : String
  requestHash : String
  now : Int
  leaseId : String

def evaluateLeaseRecoveryOutcome (ctx : LeaseRecoveryEvalContext) : RecoveryOutcome × String :=
  let itemField := fun key => (ctx.item.map (·.get key)).getD .null
  let names := fun (key owner : String) => (itemField key).truthy && (itemField key).text != owner
  if ctx.item.isSome && ((itemField "handled").truthy || ctx.itemState == "handled") then
    (.alreadyCompleted, "LEASE_ALREADY_COMPLETED")
  else if ctx.leaseStatus = "accepted" then (.alreadyCompleted, "LEASE_ALREADY_COMPLETED")
  else if ctx.lease.isSome && (ctx.leaseAgentId != ctx.agentId || ctx.leaseRole != ctx.role) then
    (.stop, "LEASE_RECOVERY_STOP")
  else if names "active_lease_id" ctx.leaseId then (.stop, "LEASE_RECOVERY_STOP")
  else if names "claimed_by" ctx.agentId then (.stop, "LEASE_RECOVERY_STOP")
  else if ctx.leaseStatus = "active" ∧ ctx.leaseRequestHash ≠ ctx.requestHash then
    (.refreshState, "STALE_REQUEST_CONTEXT")
  else if ctx.leaseStatus == "active" && (ctx.lease.any fun l => isExpired l ctx.now) then
    (.renew, "EXPIRED_LEASE_RENEWABLE")
  else if ctx.leaseStatus = "expired" ∧ (ctx.itemState = "open" ∨ ctx.itemState = "claimed") then
    (.reclaim, "EXPIRED_LEASE_RECLAIMABLE")
  else if ctx.leaseStatus = "rejected" ∨ ctx.leaseStatus = "released" then
    if ctx.itemState = "open" then (.reclaim, "EXPIRED_LEASE_RECLAIMABLE")
    else (.refreshState, "STALE_REQUEST_CONTEXT")
  else if ctx.leaseStatus = "active" then (.stop, "LEASE_ACTIVE")
  else if ctx.leaseStatus ≠ "submitted" then (.stop, "LEASE_RECOVERY_STOP")
  else (.refreshState, "STALE_REQUEST_CONTEXT")

def calculateLeaseRecoveryState (session : Session) (leaseId agentId role itemId : String)
    (requestHash : String) (now : Int) : LeaseRecoveryState :=
  let lease := session.leases[leaseId]?
  let field := fun (f : Lease → String) (default : String) =>
    recoveryField ((lease.map fun l => .str (f l)).getD .null) default
  let leaseItemId := field (·.itemId) itemId
  let item := session.items[leaseItemId]?
  let leaseStatus := field (·.status.value) "missing"
  let leaseAgentId := field (·.agentId) agentId
  let leaseRequestHash := field (·.requestHash) requestHash
  let itemState := recoveryField ((item.map (·.get "state")).getD .null) "missing"
  let outcome := evaluateLeaseRecoveryOutcome
    { item, itemState, lease, leaseStatus, leaseAgentId
      leaseRole := field (·.role.value) role
      leaseRequestHash, agentId, role, requestHash, now, leaseId }
  { leaseId, itemId := leaseItemId, agentId := leaseAgentId
    requestId := field (fun l => l.requestId.getD "") ""
    requestHash := leaseRequestHash, leaseStatus, itemState
    recoveryOutcome := outcome.1, reasonCode := outcome.2 }

def appendLeaseEvent (session : Session) (lease : Lease) (eventType : String) (now : Int)
    (reason : Option String := none) : Session :=
  let event := Dict.ofFields
    [("event_type", .str eventType), ("timestamp", .time now), ("lease_id", .str lease.leaseId),
      ("item_id", .str lease.itemId), ("agent_id", .str lease.agentId),
      ("role", .str lease.role.value), ("status", .str lease.status.value)]
  let event := match reason with
    | some reason => event.set "reason" (.str reason)
    | none => event
  { session with leaseEvents := session.leaseEvents ++ [event] }

def appendLeaseRecoveryEvent (session : Session) (recovery : LeaseRecoveryState) (now : Int) :
    Session :=
  let event := Dict.ofFields
    [("event_type", .str "lease_recovery_calculated"), ("timestamp", .time now),
      ("lease_id", .str recovery.leaseId), ("item_id", .str recovery.itemId),
      ("agent_id", .str recovery.agentId), ("status", .str recovery.leaseStatus),
      ("recovery_outcome", .str recovery.recoveryOutcome.value),
      ("reason_code", .str recovery.reasonCode)]
  { session with leaseEvents := session.leaseEvents ++ [event] }

/-- `return_item_to_claimable_state`. -/
def returnItemToClaimableState (item : Dict) : Dict :=
  (item.set "state" (.str (returnedClaimableState item).1)).set "status"
    (.str (returnedClaimableState item).2)

/-- The claim fields a lease writes on its item, cleared. -/
def clearClaimFields (item : Dict) : Dict :=
  (((item.set "claimed_by" .null).set "claimed_at" .null).set "lease_expires_at" .null).pop
    "active_lease_id"

/-- `return_expired_items_to_open`. -/
def returnExpiredItemsToOpen (session : Session) (expired : List Lease) : Session :=
  expired.foldl
    (fun session lease =>
      match session.items[lease.itemId]? with
      | some item =>
          if item.get "active_lease_id" = .str lease.leaseId then
            { session with
              items := session.items.insert lease.itemId
                (clearClaimFields (returnItemToClaimableState item)) }
          else session
      | none => session)
    session

/-- The second look `_expire_lease` takes at an item still marked claimed. -/
def openClaimedItem (session : Session) (lease : Lease) : Session :=
  match session.items[lease.itemId]? with
  | some item =>
      let activeLeaseId := item.get "active_lease_id"
      let claimedBy := item.get "claimed_by"
      if item.get "state" = .str "claimed" ∧
          (activeLeaseId = .null ∨ activeLeaseId = .str lease.leaseId) ∧
          (claimedBy = .null ∨ claimedBy = .str lease.agentId) then
        { session with
          items := session.items.insert lease.itemId
            (clearClaimFields (item.set "state" (.str "open"))) }
      else session
  | none => session

def expiredLease (lease : Lease) (now : Int) : Lease :=
  { lease with status := .expired, completedAt := some now }

/-- `_expire_lease`, for the lease held under `key`. -/
def expireLease (session : Session) (key : String) (lease : Lease) (now : Int) : Session :=
  let lease := expiredLease lease now
  let session := { session with leases := session.leases.insert key lease }
  let session := openClaimedItem (returnExpiredItemsToOpen session [lease]) lease
  appendLeaseEvent session lease "lease_expired" now

/-- One step of the loop of `expire_leases`. -/
def expireLeaseIfDue (now : Int) (acc : Session × List Lease) (row : String × Lease) :
    Session × List Lease :=
  if row.2.isActive && isExpired row.2 now then
    (expireLease acc.1 row.1 row.2 now, acc.2 ++ [expiredLease row.2 now])
  else acc

def expireLeases (session : Session) (now : Int) : Session × List Lease :=
  session.leases.toList.foldl (expireLeaseIfDue now) (session, [])

/-- `_normalize_repo_path`. -/
def normalizeRepoPath (path : Value) : String :=
  let slashed := path.text.toList.map fun c => if c = Char.ofNat 92 then '/' else c
  let normalized := normPath slashed
  if normalized = ['.'] then ""
  else String.ofList ((removePrefix (String.ofList normalized) "./").toList.dropWhile (· = '/'))

/-- `_coerce_positive_int`. -/
def coercePositiveInt (value : Value) : Option Nat :=
  match value.toInt? with
  | some number => if 0 < number then some number.toNat else none
  | none => none

/-- `_hunk_conflict_key`. -/
def hunkConflictKey (item : Dict) : Option String :=
  if !(item.get "path").truthy then none
  else
    let line := (item.get "line").orElse (item.get "original_line")
    let start := coercePositiveInt ((item.get "start_line").orElse line)
    let stop := coercePositiveInt
      ((item.get "end_line").orElse ((item.get "original_end_line").orElse line))
    let path := normalizeRepoPath (item.get "path")
    match start, stop with
    | some start, some stop => some s!"hunk:{path}:{min start stop}-{max start stop}"
    | _, _ => none

/-- The values a `for` loop over a value yields; `none` where it raises `TypeError`. -/
def iterate : Value → Option (List Value)
  | .list values => some values
  | .dict fields => some (fields.map fun f => .str f.1)
  | .str s => some (s.toList.map fun c => .str (String.singleton c))
  | _ => none

/-- `calculate_conflict_keys`; `none` where it raises `TypeError`. -/
def calculateConflictKeys (item : Dict) : Option (List String) :=
  let itemKeys :=
    if (item.get "item_id").truthy then ["item:" ++ (item.get "item_id").text] else []
  let pathKeys :=
    if (item.get "path").truthy then
      match hunkConflictKey item with
      | some key => [key]
      | none => ["file:" ++ normalizeRepoPath (item.get "path")]
    else []
  let threadId := (item.get "thread_id").orElse
    ((item.get "github_thread_id").orElse (item.get "remote_thread_id"))
  let threadKeys :=
    if threadId.truthy then
      ("thread:" ++ threadId.text) ::
        if item.get "item_kind" = .str "github_thread" then
          ["github_reply:" ++ threadId.text, "github_resolve:" ++ threadId.text]
        else []
    else []
  (iterate ((item.get "conflict_keys").orElse (.list []))).map fun given =>
    sortedSet (itemKeys ++ pathKeys ++ (given.filter (·.truthy)).map (·.text) ++ threadKeys)

/-- `_parse_hunk_key`: the path and the two ends of a `hunk:path:start-end` key. -/
def parseHunkKey (key : String) : Option (String × Nat × Nat) :=
  match dropPrefix? "hunk:".toList key.toList with
  | none => none
  | some body =>
      match rpartition ':' body with
      | none => none
      | some (path, range) =>
          match partition '-' range with
          | none => none
          | some (startText, endText) =>
              match coercePositiveInt (.str (String.ofList startText)),
                  coercePositiveInt (.str (String.ofList endText)) with
              | some start, some stop => some (String.ofList path, start, stop)
              | _, _ => none

/-- The paths of the `file:` keys. -/
def filePaths (keys : List String) : List String :=
  (keys.filter (startsWith · "file:")).map (removePrefix · "file:")

/-- The keys that claim a hunk of one of the files. -/
def hunksOfFiles (keys files : List String) : List String :=
  keys.filter fun key => (parseHunkKey key).any fun hunk => files.contains hunk.1

/-- The common lines of two hunks, as a hunk key. -/
def hunkIntersection (candidate existing : String × Nat × Nat) : Option String :=
  if candidate.1 = existing.1 ∧ candidate.2.1 ≤ existing.2.2 ∧ existing.2.1 ≤ candidate.2.2 then
    some s!"hunk:{candidate.1}:{max candidate.2.1 existing.2.1}-{min candidate.2.2 existing.2.2}"
  else none

/-- `_hunk_overlap`. -/
def hunkOverlap (candidateKeys existingKeys : List String) : List String :=
  hunksOfFiles candidateKeys (filePaths existingKeys) ++
    hunksOfFiles existingKeys (filePaths candidateKeys) ++
    (candidateKeys.filterMap parseHunkKey).flatMap fun candidate =>
      (existingKeys.filterMap parseHunkKey).filterMap (hunkIntersection candidate)

/-- The arguments of `claim_lease`; `leaseId` is the one given or a fresh one. -/
structure ClaimArgs where
  agentId : String
  role : String
  requestHash : String
  leaseId : String
  now : Int
  ttlSeconds : Int := 3600
  resumeToken : Option String := none
  requestId : Option String := none
  requestPath : Option String := none
  conflictKeys : Option (List String) := none
  allowSameAgentGithubThreadFileOverlap : Bool := false

/-- The overlap is only in the `file:` and `hunk:` keys. -/
def isFileOverlap (overlap : List String) : Bool :=
  overlap.all fun key => startsWith key "file:" || startsWith key "hunk:"

/-- The lease claims the reply and the resolution of a GitHub thread. -/
def holdsGithubThread (lease : Lease) : Bool :=
  lease.conflictKeys.any (startsWith · "github_reply:") &&
    lease.conflictKeys.any (startsWith · "github_resolve:")

/-- `_same_agent_github_thread_file_overlap_allowed`. -/
def sameAgentGithubThreadFileOverlapAllowed (existing : Lease) (args : ClaimArgs)
    (overlap : List String) : Bool :=
  args.allowSameAgentGithubThreadFileOverlap && args.role == "fixer" &&
    existing.role.value == args.role && existing.agentId == args.agentId &&
    !overlap.isEmpty && isFileOverlap overlap && holdsGithubThread existing

/-- The overlap a claim finds between its keys and those of an existing lease. -/
def conflictOverlap (keys : List String) (existing : Lease) : List String :=
  keys.filter existing.conflictKeys.contains ++ hunkOverlap keys existing.conflictKeys

/-- What an existing lease says against a claim, if anything. -/
def claimConflict? (itemId : String) (keys : List String) (args : ClaimArgs) (existing : Lease) :
    Option LeaseError :=
  let overlap := conflictOverlap keys existing
  if !existing.isActive then none
  else if existing.itemId = itemId then some (.conflict "ITEM_ALREADY_LEASED" itemId)
  else if !overlap.isEmpty && !(isReadOnlyRole args.role && isReadOnlyRole existing.role.value) &&
      !sameAgentGithubThreadFileOverlapAllowed existing args overlap then
    some (.conflict "CONFLICT_KEYS_OVERLAP" (String.intercalate ", " (sortedSet overlap)))
  else none

def makeLease (itemId : String) (role : AgentRole) (keys : List String) (args : ClaimArgs) :
    Lease :=
  { leaseId := args.leaseId, itemId, agentId := args.agentId, role, status := .active
    createdAt := args.now, expiresAt := args.now + args.ttlSeconds * 1000000
    resumeToken := args.resumeToken, requestHash := args.requestHash
    requestId := args.requestId, requestPath := args.requestPath, conflictKeys := keys }

def claimLease (session : Session) (item : Dict) (args : ClaimArgs) :
    Session × Except LeaseError Lease :=
  let session := (expireLeases session args.now).1
  let itemId := (item.get "item_id").text
  if item.get "item_id" = .null ∨ item.get "item_id" = .str "" then
    (session, .error (.valueError "item_id is required"))
  else
    match (args.conflictKeys.map sortedSet).orElse fun _ => calculateConflictKeys item with
    | none => (session, .error .typeError)
    | some keys =>
        match session.leases.toList.findSome? fun row => claimConflict? itemId keys args row.2 with
        | some error => (session, .error error)
        | none =>
            match AgentRole.parse args.role with
            | none => (session, .error (.valueError s!"unsupported agent role: {args.role}"))
            | some role =>
                let lease := makeLease itemId role keys args
                let session := { session with leases := session.leases.insert lease.leaseId lease }
                (appendLeaseEvent session lease "lease_created" args.now, .ok lease)

/-- `reclaim_lease`. -/
def reclaimLease (session : Session) (item : Dict) (args : ClaimArgs) :
    Session × Except LeaseError Lease :=
  claimLease (expireLeases session args.now).1 item
    { args with conflictKeys := none, allowSameAgentGithubThreadFileOverlap := false }

/-- Who submits against a lease, and what for. -/
structure SubmitArgs where
  agentId : String
  role : String
  itemId : String
  requestHash : String
  now : Int

/-- The recovery advice for a submission against a lease. -/
def submissionRecovery (session : Session) (leaseId : String) (args : SubmitArgs) :
    LeaseRecoveryState :=
  calculateLeaseRecoveryState session leaseId args.agentId args.role args.itemId args.requestHash
    args.now

/-- `_raise_submission_error`. -/
def raiseSubmissionError (session : Session) (reasonCode detail : String) (lease : Lease)
    (args : SubmitArgs) : Session × Except LeaseError Lease :=
  let recovery := submissionRecovery session
    (if lease.leaseId ≠ "" then lease.leaseId else detail) args
  (appendLeaseRecoveryEvent session recovery args.now,
    .error (.submission reasonCode detail (some recovery)))

def submitLease (session : Session) (leaseId : String) (args : SubmitArgs) :
    Session × Except LeaseError Lease :=
  match session.leases[leaseId]? with
  | none => (session, .error (.submission "LEASE_NOT_FOUND" leaseId none))
  | some lease =>
      if lease.status = .submitted then
        raiseSubmissionError session "DUPLICATE_SUBMISSION" leaseId lease args
      else if lease.status ≠ .active then
        raiseSubmissionError session "STALE_LEASE" leaseId lease args
      else if lease.role.value ≠ args.role then
        raiseSubmissionError session "CROSS_ROLE_SUBMISSION" args.role lease args
      else if lease.agentId ≠ args.agentId then
        raiseSubmissionError session "WRONG_AGENT" args.agentId lease args
      else if lease.itemId ≠ args.itemId then
        raiseSubmissionError session "WRONG_ITEM" args.itemId lease args
      else if isExpired lease args.now then
        let recovery := submissionRecovery session leaseId args
        (expireLease (appendLeaseRecoveryEvent session recovery args.now) leaseId lease args.now,
          .error (.submission "EXPIRED_LEASE" leaseId (some recovery)))
      else if lease.requestHash ≠ args.requestHash then
        raiseSubmissionError session "STALE_REQUEST_CONTEXT" leaseId lease args
      else
        let submitted := { lease with status := .submitted, submittedAt := some args.now }
        let session := { session with leases := session.leases.insert leaseId submitted }
        (appendLeaseEvent session submitted "lease_submitted" args.now, .ok submitted)

def acceptLease (session : Session) (leaseId : String) (now : Int) :
    Session × Except LeaseError Lease :=
  match session.leases[leaseId]? with
  | none => (session, .error (.submission "LEASE_NOT_FOUND" leaseId none))
  | some lease =>
      if lease.status ≠ .submitted then
        (session, .error (.submission "STALE_LEASE" leaseId none))
      else
        let accepted := { lease with status := .accepted, completedAt := some now }
        let session := { session with leases := session.leases.insert leaseId accepted }
        (appendLeaseEvent session accepted "lease_accepted" now, .ok accepted)

def releaseLease (session : Session) (leaseId : String) (now : Int)
    (reason : Option String := none) : Session × Except LeaseError Lease :=
  match session.leases[leaseId]? with
  | none => (session, .error (.submission "LEASE_NOT_FOUND" leaseId none))
  | some lease =>
      if !lease.isActive then (session, .error (.submission "STALE_LEASE" leaseId none))
      else
        let released := { lease with status := .released, completedAt := some now, reason }
        let session := { session with leases := session.leases.insert leaseId released }
        (appendLeaseEvent session released "lease_released" now reason, .ok released)

/-- The mutation of `release_claimed_lease`. -/
def releaseClaimedLease (session : Session) (leaseId : String) (now : Int) (reason : String) :
    Session × Bool :=
  match session.leases[leaseId]? with
  | none => (session, false)
  | some lease =>
      if !lease.isActive then (session, false)
      else
        match releaseLease session leaseId now (some reason) with
        | (session, .ok released) => (returnExpiredItemsToOpen session [released], true)
        | (session, .error _) => (session, false)

end GhAddressCr
