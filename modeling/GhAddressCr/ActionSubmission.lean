import GhAddressCr.ActionRequests
import GhAddressCr.ResponseValidation

/-!
# Submitting a response

A response is checked against its lease, the request it answers and the current stack, and
then accepted in a transaction of its own. Each step works on the session in place and may
stop the submission after changing it, so it returns the session with its result.
-/
namespace GhAddressCr

open PyText GithubThreadState RuntimeStore

/-- What a file holds: a JSON document, or a text that is none. -/
inductive FileContent where
  | unreadable
  | json (value : Value)
  deriving DecidableEq

/-- The files of a workspace by their paths. -/
abbrev FileSystem := Rows FileContent

/-- What a `WorkflowError` of the submission says. -/
structure Rejection where
  reasonCode : String
  itemId : Option String := none
  leaseId : Option String := none
  leaseRecovery : Option LeaseRecoveryState := none
  deriving DecidableEq

/-- Why a submission stops: it is rejected, or another exception escapes. -/
inductive SubmissionStop where
  | rejected (rejection : Rejection)
  | escaped
  deriving DecidableEq

/-- The lease a response names. -/
def namedLease (session : Session) (response : Dict) : Option Lease :=
  match response.get "lease_id" with
  | .str leaseId => if leaseId = "" then none else session.leases[leaseId]?
  | _ => none

/-- The event of `record_response_rejected`. -/
def responseRejectedRecord (session : Session) (response : Dict) (reasonCode : String)
    (itemId : Option String) (now : Int) : EvidenceRecord :=
  let lease := namedLease session response
  let leaseId := response.get "lease_id"
  EvidenceRecord.new (session.root.get "session_id").text
    ((itemId.orElse fun _ => lease.map (·.itemId)).getD "")
    (if leaseId = .null then none else some leaseId.text) (response.textOr "agent_id" "unknown")
    ((lease.map (·.role.value)).getD "unknown") "response_rejected"
    (Dict.ofFields [("reason_code", .str reasonCode)]) now

/-- `record_response_rejected`, then the error. -/
def rejectResponse {α : Type} (session : Session) (response : Dict) (now : Int)
    (rejection : Rejection) : Session × Except SubmissionStop α :=
  (session.appendEvidence
      (responseRejectedRecord session response rejection.reasonCode rejection.itemId now),
    .error (.rejected rejection))

/-- `lease_recovery_payload_for_response`. -/
def leaseRecoveryForResponse (session : Session) (response : Dict) (lease : Lease)
    (itemId requestHash : String) (now : Int) : LeaseRecoveryState :=
  let leaseId := if lease.leaseId ≠ "" then lease.leaseId else response.textOr "lease_id" ""
  calculateLeaseRecoveryState session leaseId (response.textOr "agent_id" lease.agentId)
    lease.role.value itemId requestHash now

/-- What the checks before a submission have found. -/
structure PreparedSubmission where
  leaseId : String
  lease : Lease
  itemId : String
  item : Dict
  expectedRequestHash : String
  deriving DecidableEq

/-- A thread whose lease was replaced is submitted under the agent's present one. -/
structure ReboundLease where
  leaseId : String
  lease : Lease
  itemId : String
  item : Dict

/-- `recover_rebound_github_thread_lease`. -/
def recoverReboundGithubThreadLease (session : Session) (response : Dict)
    (itemId currentLeaseId : String) : Option ReboundLease :=
  let itemId := strip itemId
  if itemId = "" then none
  else
    match session.items[itemId]? with
    | none => none
    | some item =>
        let state := lower (item.textOr "state" "")
        if item.get "item_kind" ≠ .str "github_thread" ∨
            response.textOr "resolution" "" ≠ "fix" then none
        else if ¬ (state = "stale" ∨ state = "claimed") ∧ !(item.get "is_outdated").truthy then
          none
        else
          match activeFixerLeaseForItem session itemId
              (some (response.textOr "agent_id" "")) with
          | none => none
          | some lease =>
              if lease.leaseId = "" ∨ lease.leaseId = currentLeaseId then none
              else some { leaseId := lease.leaseId, lease, itemId, item }

/-- Why the request context of a lease does not serve, or that an exception escapes. -/
inductive ContextError where
  | reason (code : String)
  | attributeError

/-- `expected_request_hash_for_response`. -/
def expectedRequestHashForResponse (files : FileSystem) (response : Dict) (lease : Lease) :
    Except ContextError String :=
  let responseRequestId := (response.get "request_id").text
  let path := lease.requestPath.getD ""
  let requestId := lease.requestId.getD ""
  if path ≠ "" then
    match files[path]? with
    | none => .error (.reason "REQUEST_CONTEXT_NOT_FOUND")
    | some .unreadable => .error (.reason "INVALID_REQUEST_CONTEXT")
    | some (.json document) =>
        match document.toDict? with
        | none => .error .attributeError
        | some request =>
            match requestHash request with
            | .error .unsupportedProtocolVersion =>
                .error (.reason "REQUEST_PROTOCOL_SUPERSEDED")
            | .error .malformed => .error (.reason "INVALID_REQUEST_CONTEXT")
            | .ok hash =>
                if responseRequestId ≠ request.textOr "request_id" "" then
                  .error (.reason "STALE_REQUEST_CONTEXT")
                else .ok hash
  else if requestId ≠ "" then
    if responseRequestId ≠ requestId then .error (.reason "STALE_REQUEST_CONTEXT")
    else .ok lease.requestHash
  else if lease.requestHash ≠ "" then
    if responseRequestId ≠ lease.requestHash then .error (.reason "STALE_REQUEST_CONTEXT")
    else .ok lease.requestHash
  else .error (.reason "REQUEST_CONTEXT_NOT_FOUND")

/-- The response with its evidence reference expanded, if it is valid for the item. -/
def checkResponse (session : Session) (response item : Dict) : Except String Dict :=
  match expandEvidenceRef session response with
  | .error reason => .error reason
  | .ok response =>
      match validateResponse response item with
      | some reason => .error reason
      | none => .ok response

/-- `prepare_action_response_submission`; the response comes back expanded. -/
def prepareActionResponseSubmission (session : Session) (files : FileSystem) (response : Dict)
    (now : Int) : Session × Except SubmissionStop (Dict × PreparedSubmission) :=
  let reject := rejectResponse session response now
  if !(response.get "lease_id").truthy then
    (session, .error (.rejected { reasonCode := "MISSING_LEASE_ID" }))
  else
    let leaseId := (response.get "lease_id").text
    match session.leases[leaseId]? with
    | none =>
        match recoverReboundGithubThreadLease session response (response.textOr "item_id" "")
            leaseId with
        | none => reject { reasonCode := "LEASE_NOT_FOUND" }
        | some rebound =>
            match checkResponse session response rebound.item with
            | .error reasonCode =>
                reject { reasonCode, itemId := rebound.itemId, leaseId := rebound.leaseId }
            | .ok response =>
                (session, .ok (response,
                  { leaseId := rebound.leaseId, lease := rebound.lease, itemId := rebound.itemId
                    item := rebound.item, expectedRequestHash := rebound.lease.requestHash }))
    | some lease =>
        let itemId := lease.itemId
        let declared := response.get "item_id"
        if declared.truthy && declared.text != itemId then
          reject { reasonCode := "ITEM_ID_MISMATCH", itemId, leaseId }
        else
          match session.items[itemId]? with
          | none => reject { reasonCode := "ITEM_NOT_FOUND" }
          | some item =>
              match checkResponse session response item with
              | .error reasonCode => reject { reasonCode, itemId, leaseId }
              | .ok response =>
                  match expectedRequestHashForResponse files response lease with
                  | .error .attributeError => (session, .error .escaped)
                  | .error (.reason reasonCode) =>
                      reject {
                        reasonCode, itemId, leaseId
                        leaseRecovery := leaseRecoveryForResponse session response lease itemId
                          (response.textOr "request_id" "") now }
                  | .ok expectedRequestHash =>
                      (session, .ok (response,
                        { leaseId, lease, itemId, item, expectedRequestHash }))

/-- `_request_repository_context`. -/
def requestRepositoryContext (files : FileSystem) (lease : Lease) : Option Dict :=
  match (lease.requestPath.filter (· ≠ "")).bind (files[·]?) with
  | some (.json document) => (document.field "repository_context").toDict?
  | _ => none

/-- Why the binding of a request refuses a response, and the observation that was read. -/
def revisionBindingReason (prNumber : String) (wasKnownStacked : Bool)
    (requestContext : Option Dict) (observed : Option StackContext) :
    Option String × Option StackContext :=
  let binding := requestContext.bind fun context => (context.get "revision_binding").toDict?
  let availability :=
    ((requestContext.bind fun context => (context.get "stack_context").toDict?).map
      (·.textOr "availability" "")).getD ""
  if binding.any fun binding => binding.textOr "pr_number" "" ≠ prNumber then
    (some "STACK_ACTION_CONTEXT_MISMATCH", none)
  else if binding.isNone ∧ availability = "invalid" then (some "STACK_CONTEXT_INVALID", none)
  else if binding.isNone ∧ availability ≠ "present" ∧ availability ≠ "unavailable" then
    (if wasKnownStacked then some "STALE_REQUEST_CONTEXT" else none, none)
  else
    match observed with
    | none =>
        (if binding.isSome || wasKnownStacked then some "STACK_CONTEXT_UNAVAILABLE" else none,
          none)
    | some current =>
        let reason :=
          if binding.isSome then compareRevisionBinding binding current
          else if availability = "present" ∨ current.availability = .present then
            some "STALE_REQUEST_CONTEXT"
          else if current.availability = .invalid then some "STACK_CONTEXT_INVALID"
          else if current.availability = .unavailable ∧ wasKnownStacked then
            some "STACK_CONTEXT_UNAVAILABLE"
          else none
        (reason, some current)

/-- The reasons for which a request is given up. -/
def isIrrecoverableReason (reasonCode : String) : Bool :=
  ["STALE_REQUEST_CONTEXT", "STACK_ACTION_CONTEXT_MISMATCH"].contains reasonCode

/-- The item is reset unless another lease holds it. -/
def resetIrrecoverableItem (leaseId : String) (item : Dict) : Dict :=
  let activeLeaseId := item.textOr "active_lease_id" ""
  if activeLeaseId ≠ "" ∧ activeLeaseId ≠ leaseId then item
  else clearClaimFields (returnItemToClaimableState item)

/-- `release_irrecoverable_request_lease`. -/
def releaseIrrecoverableRequestLease (session : Session) (prepared : PreparedSubmission)
    (now : Int) : Session :=
  let session :=
    if (session.leases[prepared.leaseId]?).any (·.isActive) then
      (releaseLease session prepared.leaseId now (some "stale_request_context")).1
    else session
  session.modifyItem prepared.itemId (resetIrrecoverableItem prepared.leaseId)

/-- Who submits what, and what is read besides the session: the files, GitHub's answers (where
the call does not raise) and the clock. -/
structure ResponseSubmission where
  response : Dict
  now : Int
  files : FileSystem
  prNumber : String
  observed : Option StackContext
  prCommitShas : Option (List String)
  publish : Bool := false

/-- The observation that was read, cached on the session. -/
def cacheObserved (session : Session) (observed : Option StackContext) : Session :=
  match observed with
  | some observed => cachePullRequestContext session observed.toDict
  | none => session

/-- `verify_request_revision_binding`. -/
def verifyRequestRevisionBinding (session : Session) (submission : ResponseSubmission)
    (response : Dict) (prepared : PreparedSubmission) :
    Session × Except SubmissionStop (Option Dict) :=
  let requestContext := requestRepositoryContext submission.files prepared.lease
  let (reason, current) := revisionBindingReason submission.prNumber
    (hasObservedStackMembership session) requestContext submission.observed
  let session := cacheObserved session current
  match reason with
  | none =>
      (session, .ok (requestContext.bind fun context =>
        (context.get "revision_binding").toDict?))
  | some reasonCode =>
      let rejected := rejectResponse session response submission.now
        { reasonCode, itemId := prepared.itemId, leaseId := prepared.leaseId }
      if isIrrecoverableReason reasonCode then
        (releaseIrrecoverableRequestLease rejected.1 prepared submission.now, rejected.2)
      else rejected

/-- `verify_cited_commit_in_pr`. -/
def verifyCitedCommitInPr (session : Session) (submission : ResponseSubmission)
    (response : Dict) (prepared : PreparedSubmission) : Session × Except SubmissionStop Unit :=
  let commit := citedCommit response
  if commit = "" then (session, .ok ())
  else
    match submission.prCommitShas with
    | none => (session, .error .escaped)
    | some shas =>
        if commitInPr commit shas then (session, .ok ())
        else
          rejectResponse session response submission.now
            { reasonCode := "COMMIT_NOT_IN_PR", itemId := prepared.itemId
              leaseId := prepared.leaseId }

/-- `_local_status_for_resolution`. -/
def localStatusForResolution (resolution : String) : String :=
  match resolution with
  | "fix" => "CLOSED"
  | "clarify" => "CLARIFIED"
  | "defer" => "DEFERRED"
  | "reject" => "DROPPED"
  | _ => upper resolution

/-- `response.get(key, [])`. -/
def listField (response : Dict) (key : String) : Value := (response[key]?).getD (.list [])

/-- The entry of a response, where it has a value there. -/
def truthyField (response : Dict) (key : String) : Option Value :=
  if (response.get key).truthy then some (response.get key) else none

/-- The evidence a GitHub thread keeps of its accepted response. -/
def acceptedResponse (response : Dict) : Dict :=
  let accepted := Dict.ofFields
    [("note", response.get "note"), ("resolution", .str (response.get "resolution").text),
      ("files", listField response "files"),
      ("validation_commands", listField response "validation_commands"),
      ("reply_markdown", response.get "reply_markdown"), ("fix_reply", response.get "fix_reply")]
  (accepted.setIfSome "revision_binding"
    (truthyField response "_runtime_revision_binding")).setIfSome "evidence_ref"
    (truthyField response "evidence_ref")

/-- An accepted response on a GitHub thread. -/
def applyResponseToThread (item response : Dict) : Dict :=
  ((((item.set "state" (.str "publish_ready")).set "status" (.str "OPEN")).set "blocking"
    (.bool true)).set "publish_resolution" (.str (response.get "resolution").text)).set
    "accepted_response" (acceptedResponse response).toValue

/-- An accepted response on any other item. -/
def applyResponseToLocalItem (item response : Dict) (now : Int) : Dict :=
  let resolution := (response.get "resolution").text
  let item := item.set "state" (.str (if resolution = "fix" then "fixed" else resolution))
  let item := item.set "status" (.str (localStatusForResolution resolution))
  let item := item.set "blocking" (.bool false)
  let item := item.set "handled" (.bool true)
  let item := item.set "handled_at" (.time now)
  let item := item.set "resolution_note" (response.get "note")
  let item := item.set "validation_evidence" (listField response "validation_commands")
  let item := item.setIfSome "revision_binding"
    (truthyField response "_runtime_revision_binding")
  let item := ((item.set "claimed_by" .null).set "claimed_at" .null).set "lease_expires_at" .null
  ["files", "reply_markdown", "fix_reply", "evidence_ref"].foldl
    (fun item key => item.setIfSome key (truthyField response key)) item

/-- `apply_response_to_item`. -/
def applyResponseToItem (item response : Dict) (now : Int) : Dict :=
  if item.get "item_kind" = .str "github_thread" then applyResponseToThread item response
  else applyResponseToLocalItem item response now

/-- `replayable_action_response`. -/
def replayableActionResponse (response : Dict) : Dict :=
  ["reply_markdown", "fix_reply", "evidence_ref"].foldl
    (fun snapshot key => snapshot.setIfSome key (given (response.get key)))
    (Dict.ofFields
      [("resolution", response.get "resolution"), ("note", response.get "note"),
        ("files", listField response "files"),
        ("validation_commands", listField response "validation_commands")])

/-- How an accepted response leaves the item: with its evidence, or, when a verifier's
verdict is to reject, open again. -/
inductive Acceptance where
  | accepted (record : EvidenceRecord)
  | verificationRejected (record : EvidenceRecord)
  deriving DecidableEq

def acceptanceRecord (session : Session) (prepared : PreparedSubmission) (response : Dict)
    (eventType : String) (payload : Dict) (now : Int) : EvidenceRecord :=
  EvidenceRecord.new (session.root.get "session_id").text prepared.itemId
    (some prepared.leaseId) (response.get "agent_id").text prepared.lease.role.value eventType
    payload now

/-- A verifier's verdict against the evidence of an item. -/
def rejectVerification (response item : Dict) : Dict :=
  ((item.set "state" (.str "open")).set "blocking" (.bool true)).set
    "verification_rejection_note" (response.get "note")

def isVerifierRejection (prepared : PreparedSubmission) (response : Dict) : Bool :=
  prepared.lease.role == .verifier && (response.get "resolution").text == "reject"

/-- What follows once the lease is accepted. -/
def finishAcceptance (session : Session) (response : Dict) (prepared : PreparedSubmission)
    (now : Int) : Session × Acceptance :=
  if isVerifierRejection prepared response then
    let session := session.modifyItem prepared.itemId (rejectVerification response)
    let record := acceptanceRecord session prepared response "verification_rejected"
      (Dict.ofFields
        [("note", response.get "note"),
          ("validation_commands", listField response "validation_commands")]) now
    (session.appendEvidence record, .verificationRejected record)
  else
    let session := session.modifyItem prepared.itemId fun item =>
      applyResponseToItem item response now
    let record := acceptanceRecord session prepared response "response_accepted"
      (Dict.ofFields
        [("resolution", response.get "resolution"), ("note", response.get "note"),
          ("response", (replayableActionResponse response).toValue)]) now
    (session.appendEvidence record, .accepted record)

/-- `submit_lease`, then `accept_lease`. -/
def submitAndAcceptLease (session : Session) (leaseId : String) (args : SubmitArgs) :
    Session × Except LeaseError Lease :=
  match submitLease session leaseId args with
  | (session, .error error) => (session, .error error)
  | (session, .ok _) => acceptLease session leaseId args.now

/-- Who submits for a prepared response. -/
def PreparedSubmission.submitArgs (prepared : PreparedSubmission) (response : Dict)
    (now : Int) : SubmitArgs where
  agentId := (response.get "agent_id").text
  role := prepared.lease.role.value
  itemId := prepared.itemId
  requestHash := prepared.expectedRequestHash
  now := now

/-- The same response, submitted under the lease that replaced the one it names. -/
def PreparedSubmission.rebind (prepared : PreparedSubmission) (rebound : ReboundLease) :
    PreparedSubmission :=
  { prepared with
    leaseId := rebound.leaseId, lease := rebound.lease
    expectedRequestHash := rebound.lease.requestHash }

/-- `accept_action_response_submission`. -/
def acceptActionResponseSubmission (session : Session) (response : Dict)
    (prepared : PreparedSubmission) (now : Int) :
    Session × Except SubmissionStop Acceptance :=
  match submitAndAcceptLease session prepared.leaseId (prepared.submitArgs response now) with
  | (session, .ok _) =>
      let (session, acceptance) := finishAcceptance session response prepared now
      (session, .ok acceptance)
  | (session, .error (.submission reasonCode _ leaseRecovery)) =>
      let rebound :=
        if reasonCode = "STALE_LEASE" ∨ reasonCode = "LEASE_NOT_FOUND" then
          recoverReboundGithubThreadLease session response prepared.itemId prepared.leaseId
        else none
      match rebound with
      | none =>
          rejectResponse session response now
            { reasonCode, itemId := prepared.itemId, leaseId := prepared.leaseId, leaseRecovery }
      | some rebound =>
          let prepared := prepared.rebind rebound
          match submitAndAcceptLease session prepared.leaseId
              (prepared.submitArgs response now) with
          | (session, .ok _) =>
              let (session, acceptance) := finishAcceptance session response prepared now
              (session, .ok acceptance)
          | (session, .error _) => (session, .error .escaped)
  | (session, .error _) => (session, .error .escaped)

/-- `_validate_publish_shortcut_target`: why `--publish` is refused. -/
def publishShortcutReason (session : Session) (response : Dict) : Option String :=
  let lease := session.leases[response.textOr "lease_id" ""]?
  match (lease.map (·.itemId)).bind fun itemId => session.items[itemId]? with
  | none => some "PUBLISH_TARGET_NOT_FOUND"
  | some item =>
      let resolution := response.textOr "resolution" ""
      if item.get "item_kind" ≠ .str "github_thread" then some "PUBLISH_UNSUPPORTED_RESPONSE"
      else if resolution ≠ "" ∧ resolution ≠ "fix" then some "PUBLISH_UNSUPPORTED_RESPONSE"
      else none

/-- The checks on the loaded copy of the session, before the transaction. -/
def preflightSubmission (session : Session) (submission : ResponseSubmission) :
    Session × Except SubmissionStop (Dict × PreparedSubmission) :=
  let shortcut :=
    if submission.publish then publishShortcutReason session submission.response else none
  match shortcut with
  | some reasonCode => (session, .error (.rejected { reasonCode }))
  | none =>
      match prepareActionResponseSubmission session submission.files submission.response
          submission.now with
      | (session, .error stop) => (session, .error stop)
      | (session, .ok (response, prepared)) =>
          match verifyRequestRevisionBinding session submission response prepared with
          | (session, .error stop) => (session, .error stop)
          | (session, .ok binding) =>
              let response := response.setIfSome "_runtime_revision_binding"
                (binding.map (·.toValue))
              match verifyCitedCommitInPr session submission response prepared with
              | (session, .error stop) => (session, .error stop)
              | (session, .ok ()) => (session, .ok (response, prepared))

/-- The mutation that accepts a response, or records that it is rejected. -/
def acceptMutation (metadata : Option Dict) (submission : ResponseSubmission)
    (response : Dict) : Mutation (Except Rejection Acceptance) := fun current =>
  let current := match metadata with
    | some metadata => current.setMetadata metadata
    | none => current
  match prepareActionResponseSubmission current submission.files response submission.now with
  | (_, .error (.rejected rejection)) => .error rejection.reasonCode
  | (_, .error .escaped) => .error "AttributeError"
  | (current, .ok (response, prepared)) =>
      match acceptActionResponseSubmission current response prepared submission.now with
      | (current, .ok acceptance) => .ok (current, .ok acceptance)
      | (current, .error (.rejected rejection)) => .ok (current, .error rejection)
      | (_, .error .escaped) => .error "LeaseSubmissionError"

/-- `_persist_loaded_scope`, at the revision the scope was loaded at. -/
def persistLoadedScope (store : Store) (session : Session)
    (request : Option WorkingSetRequest) : StoreResult Store :=
  match request with
  | none => (replace store session (some store.sessionRevision)).map (·.1)
  | some request =>
      (transactWorkingSet store request (fun _ => .ok (session, ()))
        (some store.sessionRevision)).map (·.1)

inductive SubmissionOutcome where
  | finished (acceptance : Acceptance)
  | rejected (rejection : Rejection)
  /-- The store refuses a load or a commit, or the mutation raises. -/
  | failed (error : StoreError)
  | escaped
  deriving DecidableEq

/-- The submission on a loaded scope, with no other command in between. -/
def submitLoaded (store : Store) (session : Session) (request : Option WorkingSetRequest)
    (submission : ResponseSubmission) : Store × SubmissionOutcome :=
  match preflightSubmission session submission with
  | (_, .error .escaped) => (store, .escaped)
  | (session, .error (.rejected rejection)) =>
      match persistLoadedScope store session request with
      | .ok committed => (committed, .rejected rejection)
      | .error error => (store, .failed error)
  | (session, .ok (response, prepared)) =>
      match transactWorkingSet store
          { itemIds := [prepared.itemId], leaseIds := [prepared.leaseId] }
          (acceptMutation session.metadata? submission response)
          (some store.sessionRevision) with
      | .error error => (store, .failed error)
      | .ok (committed, result) =>
          match result.value with
          | .ok acceptance => (committed, .finished acceptance)
          | .error rejection => (committed, .rejected rejection)

/-- `submit_action_response` up to its commit. -/
def submitActionResponse (store : Store) (submission : ResponseSubmission) :
    Store × SubmissionOutcome :=
  let leaseId := submission.response.textOr "lease_id" ""
  let request : WorkingSetRequest := { leaseIds := if leaseId = "" then [] else [leaseId] }
  match loadWorkingSet store request with
  | .error error => (store, .failed error)
  | .ok loaded =>
      if leaseId ≠ "" ∧ loaded.session.leases[leaseId]? = none then
        match loadSnapshot store with
        | .error error => (store, .failed error)
        | .ok session => submitLoaded store session none submission
      else submitLoaded store loaded.session (some request) submission

end GhAddressCr
