import GhAddressCr.Session
import Mathlib.Data.List.Sort

/-!
# The final gate

The evidence of a pull request is turned into numbered facts, the facts into counts, and
the counts into failure codes; the gate passes when there is none.
-/
namespace GhAddressCr

open PyText GithubThreadState

def validationSuccessPrefixes : List String := ["passed", "pass", "success", "succeeded", "ok"]

def knownValidationResultTokens : List String :=
  ["passed", "pass", "success", "succeeded", "ok", "failed", "fail", "failure", "error", "skipped"]

def validationResultIsSuccess (result : Value) : Bool :=
  let normalized := lower (strip ((result.orElse (.str "passed")).text))
  validationSuccessPrefixes.any (startsWith normalized)

/-- A command text counts unless it ends in an explicit verdict that fails. -/
def validationTextHasSuccess (text : String) : Bool :=
  let text := strip text
  if text = "" then false
  else match rpartition '=' text.toList with
    | some (_, result) =>
        let result := String.ofList result
        if knownValidationResultTokens.contains (lower (strip result)) then
          validationResultIsSuccess (.str result)
        else true
    | none => true

/-- The verdict of one validation record. -/
def validationRecordIsSuccess (record : Dict) : Bool :=
  let exitCode := record.get "exit_code"
  if exitCode ≠ .null ∧ exitCode.toInt?.any (· ≠ 0) then false
  else validationResultIsSuccess (record.get "result")

def isValidationRecord (record : Dict) : Bool :=
  record.has "command" || record.has "result" || record.has "exit_code"

mutual

def validationEvidenceHasSuccess : Value → Bool
  | .null => false
  | .str text => validationTextHasSuccess text
  | .dict fields =>
      if isValidationRecord (Dict.ofFields fields) then
        validationRecordIsSuccess (Dict.ofFields fields)
      else anyFieldHasSuccess fields
  | .list values => anyValueHasSuccess values
  | value => value.truthy

def anyValueHasSuccess : List Value → Bool
  | [] => false
  | value :: rest => validationEvidenceHasSuccess value || anyValueHasSuccess rest

def anyFieldHasSuccess : List (String × Value) → Bool
  | [] => false
  | (_, value) :: rest => validationEvidenceHasSuccess value || anyFieldHasSuccess rest

end

def localTerminalStates : List String :=
  ["closed", "fixed", "clarified", "deferred", "rejected", "verified", "published"]

/-- `_item_kind`. -/
def itemKind (item : Dict) : String :=
  lower ((item.get "item_kind").orElse ((item.get "kind").orElse (.str ""))).text

/-- `_state`. -/
def itemState (item : Dict) : String :=
  lower ((item.get "state").orElse ((item.get "status").orElse (.str ""))).text

/-- `_item_id`. -/
def itemId? (item : Dict) : Option String :=
  if (item.get "item_id").truthy then some (item.get "item_id").text else none

def hasContent : Value → Bool
  | .null => false
  | .str s => strip s ≠ ""
  | value => value.truthy

/-- The thread named by `github-thread:` in an item id. -/
def threadOfItemId : Value → Option String
  | .str id => (dropPrefix? "github-thread:".toList id.toList).map String.ofList
  | _ => none

def threadIdentifier (row : Dict) : Option String :=
  match ["thread_id", "remote_thread_id", "github_thread_id", "id", "node_id"].findSome?
      fun key => if (row.get key).truthy then some (row.get key).text else none with
  | some id => some id
  | none => threadOfItemId (row.get "item_id")

def threadIsResolved (thread : Dict) : Bool := isResolvedGithubThread thread

/-- A text that is given and not empty. -/
def given? (text : Option String) : Option String := text.filter (· ≠ "")

def loginMatches (authorLogin : Value) (currentLogin : Option String) : Bool :=
  match given? currentLogin with
  | none => true
  | some login => !authorLogin.truthy || authorLogin.text == login

def reviewLogin (review : Dict) : Option String :=
  if (review.get "author_login").truthy then some (review.get "author_login").text
  else if ((review.get "user").field "login").truthy then
    some ((review.get "user").field "login").text
  else if ((review.get "author").field "login").truthy then
    some ((review.get "author").field "login").text
  else if (review.get "login").truthy then some (review.get "login").text
  else none

def isPendingReview (review : Dict) : Bool := upper (review.textOr "state" "") == "PENDING"

/-- `_is_current_login_pending_review`. -/
def isCurrentLoginPendingReview (review : Dict) (currentLogin : Option String) : Bool :=
  isPendingReview review &&
    match given? currentLogin with
    | none => true
    | some login => reviewLogin review == some login

inductive CheckBucket where
  | pass | pending | fail | skipping | cancel | unknown
  deriving DecidableEq, Repr

/-- `_check_bucket`. -/
def checkBucket (check : Dict) : CheckBucket :=
  match lower (strip (check.textOr "bucket" "")) with
  | "pass" => .pass
  | "pending" => .pending
  | "fail" => .fail
  | "skipping" => .skipping
  | "cancel" => .cancel
  | _ =>
      let state := lower (strip (check.textOr "state" ""))
      if ["success", "passed", "completed"].contains state then .pass
      else if ["queued", "pending", "in_progress", "requested", "waiting"].contains state then
        .pending
      else if ["failure", "failed", "error", "timed_out", "action_required"].contains state then
        .fail
      else if ["cancelled", "canceled", "neutral"].contains state then .cancel
      else if ["skipped", "skipping"].contains state then .skipping
      else .unknown

def isLocalBlocking (item : Dict) : Bool :=
  if item.has "blocking" then (item.get "blocking").truthy
  else !localTerminalStates.contains (itemState item)

def isBlockingItem (item : Dict) : Bool :=
  if itemKind item = "local_finding" then isLocalBlocking item else (item.get "blocking").truthy

def isTerminalLocalItem (item : Dict) : Bool := localTerminalStates.contains (itemState item)

/-- Some validation record of the item succeeded. -/
def hasValidationSuccess (item : Dict) : Bool :=
  ["validation_evidence", "validation_commands", "validation_results"].any
      (fun key => validationEvidenceHasSuccess (item.get key)) ||
    validationEvidenceHasSuccess ((item.get "evidence").field "validation") ||
    validationEvidenceHasSuccess ((item.get "evidence").field "validation_evidence")

/-- The item was closed with a note, by a decision that needs no validation. -/
def hasResolutionNote (item : Dict) : Bool :=
  (item.get "evidence").toDict?.isNone && hasContent (item.get "resolution_note") &&
    ["accept", "manual", "sync"].contains (lower (item.textOr "decision" ""))

/-- `_has_validation_evidence`. -/
def hasValidationEvidence (item : Dict) : Bool :=
  hasValidationSuccess item || hasResolutionNote item

/-- `_has_reply_evidence`. -/
def hasReplyEvidence (item : Dict) (currentLogin : Option String) : Bool :=
  match (item.get "reply_evidence").toDict? with
  | some evidence =>
      let replyUrl := (evidence.get "reply_url").orElse
        ((evidence.get "url").orElse (evidence.get "external_url"))
      let authorLogin := (evidence.get "author_login").orElse (evidence.get "login")
      let authorLogin :=
        if !authorLogin.truthy && (evidence.get "author").toDict?.isSome then
          (evidence.get "author").field "login"
        else authorLogin
      replyUrl.truthy && loginMatches authorLogin currentLogin
  | none =>
      let replyUrl := (item.get "reply_url").orElse (item.get "reply_evidence_url")
      let replyPosted := !item.has "reply_posted" || (item.get "reply_posted").truthy
      replyUrl.truthy && replyPosted && loginMatches (item.get "reply_author_login") currentLogin

/-- `_has_runtime_reply_expectation`. -/
def hasRuntimeReplyExpectation (item : Dict) : Bool :=
  (item.get "reply_posted").truthy || hasContent (item.get "reply_url") ||
    (item.get "reply_evidence").toDict?.isSome || (item.get "accepted_response").toDict?.isSome ||
    hasContent (item.get "publish_resolution") ||
    (item.get "classification_evidence").toDict?.isSome || hasContent (item.get "decision")

inductive FactKind where
  | reviewThreadObserved | localItemObserved | pendingReviewObserved | checkRunObserved
  | logicValidationObserved
  deriving DecidableEq, Repr

/-- An observation with its place in the order of observations. -/
structure RuntimeFact where
  factKind : FactKind
  factId : String
  observedAt : Int
  sequence : Int
  payload : Dict
  deriving DecidableEq

namespace RuntimeFact

/-- The order of `sort_key`. -/
def le (a b : RuntimeFact) : Prop :=
  a.observedAt < b.observedAt ∨ a.observedAt = b.observedAt ∧
    (a.sequence < b.sequence ∨ a.sequence = b.sequence ∧ a.factId ≤ b.factId)

instance : DecidableRel le := fun _ _ => inferInstanceAs (Decidable (_ ∨ _ ∧ (_ ∨ _ ∧ _)))

def sortKey (fact : RuntimeFact) : Int × Int × String :=
  (fact.observedAt, fact.sequence, fact.factId)

end RuntimeFact

/-- The first fact whose key an earlier one has. -/
def duplicateFact? (seen : List (Int × Int × String)) : List RuntimeFact → Option RuntimeFact
  | [] => none
  | fact :: rest =>
      if seen.contains fact.sortKey then some fact else duplicateFact? (fact.sortKey :: seen) rest

def sortRuntimeFacts (facts : List RuntimeFact) : Except String (List RuntimeFact) :=
  match duplicateFact? [] facts with
  | some fact => .error ("duplicate runtime fact ordering key: " ++ fact.factId)
  | none => .ok (facts.insertionSort RuntimeFact.le)

/-- The evidence a gate run is given. -/
structure EvidenceBundle where
  items : List Dict
  remoteThreads : List Dict
  pendingReviews : List Dict
  currentLogin : Option String
  checkRuns : List Dict
  checkRequirement : Option String
  logicValidationSignals : List Dict

/-- The arguments of one call of `append_fact`; the id may use the fact's number. -/
structure FactDraft where
  factKind : FactKind
  factId : Nat → String
  payload : Dict

/-- `ADAPTER_OBSERVED_AT`. -/
def adapterObservedAt : Int := 0

/-- The facts of successive calls of `append_fact`. -/
def appendFacts (drafts : List FactDraft) : List RuntimeFact :=
  drafts.zipIdx.map fun (draft, sequence) =>
    { factKind := draft.factKind, factId := draft.factId sequence
      observedAt := adapterObservedAt, sequence, payload := draft.payload }

/-- The payload names the current login, unless it names one itself. -/
def withCurrentLogin (payload : Dict) (currentLogin : Option String) : Dict :=
  match given? currentLogin with
  | some login => payload.setDefault "current_login" (.str login)
  | none => payload

def sessionItemPayload (currentLogin : Option String) (item : Dict) : Dict :=
  withCurrentLogin (item.set "source_scope" (.str "session_item")) currentLogin

def sessionItemDraft (currentLogin : Option String) (item : Dict) : Option FactDraft :=
  let draft := fun (factKind : FactKind) (scope : String) =>
    { factKind
      factId := fun sequence =>
        scope ++ (itemId? item).getD ("session-item-" ++ toString sequence)
      payload := sessionItemPayload currentLogin item : FactDraft }
  if itemKind item = "github_thread" then
    some (draft .reviewThreadObserved "session-github-item:")
  else if itemKind item = "local_finding" then
    some (draft .localItemObserved "session-local-item:")
  else none

def remoteThreadId (thread : Dict) (index : Nat) : String :=
  ((threadIdentifier thread).filter (· ≠ "")).getD ("remote-row-" ++ toString index)

def remoteThreadPayload (thread : Dict) (index : Nat) : Dict :=
  ((thread.set "thread_id" (.str (remoteThreadId thread index))).set "item_id"
    (.str ("github-thread:" ++ remoteThreadId thread index))).set "source_scope"
    (.str "remote_thread")

def remoteThreadDraft (thread : Dict) (index : Nat) : FactDraft where
  factKind := .reviewThreadObserved
  factId _ := "remote-thread:" ++ remoteThreadId thread index ++ ":" ++ toString index
  payload := remoteThreadPayload thread index

/-- A fact named by the first of the fields with a value, and by its index. -/
def indexedDraft (factKind : FactKind) (scope fallback : String) (fields : List String)
    (payload : Dict) (index : Nat) : FactDraft :=
  let name := match fields.find? fun key => (payload.get key).truthy with
    | some key => (payload.get key).text
    | none => fallback ++ toString index
  { factKind, factId := fun _ => scope ++ name ++ ":" ++ toString index, payload }

def pendingReviewDraft (currentLogin : Option String) (review : Dict) (index : Nat) :
    FactDraft :=
  indexedDraft .pendingReviewObserved "pending-review:" "pending-review-" ["id", "node_id"]
    (withCurrentLogin review currentLogin) index

def checkRunPayload (checkRequirement : Option String) (check : Dict) : Dict :=
  match given? checkRequirement with
  | some requirement => check.setDefault "check_requirement" (.str requirement)
  | none => check

def checkRunDraft (checkRequirement : Option String) (check : Dict) (index : Nat) : FactDraft :=
  indexedDraft .checkRunObserved "check-run:" "check-run-" ["id", "name", "context"]
    (checkRunPayload checkRequirement check) index

def logicSignalDraft (signal : Dict) (index : Nat) : FactDraft :=
  indexedDraft .logicValidationObserved "logic-validation:" "logic-signal-"
    ["signal_type", "item_id"] signal index

def finalGateDrafts (bundle : EvidenceBundle) : List FactDraft :=
  bundle.items.filterMap (sessionItemDraft bundle.currentLogin) ++
    bundle.remoteThreads.zipIdx.map (fun (thread, i) => remoteThreadDraft thread i) ++
    bundle.pendingReviews.zipIdx.map
      (fun (review, i) => pendingReviewDraft bundle.currentLogin review i) ++
    bundle.checkRuns.zipIdx.map
      (fun (check, i) => checkRunDraft bundle.checkRequirement check i) ++
    bundle.logicValidationSignals.zipIdx.map (fun (signal, i) => logicSignalDraft signal i)

def buildFinalGateFacts (bundle : EvidenceBundle) : List RuntimeFact :=
  appendFacts (finalGateDrafts bundle)

/-- The last remote thread listed under an identifier (`remote_by_id.get`). -/
def remoteById (remoteThreads : List Dict) (threadId : Option String) : Option Dict :=
  threadId.bind fun threadId =>
    if threadId = "" then none
    else remoteThreads.reverse.find? fun thread => threadIdentifier thread == some threadId

/-- `_github_thread_requires_reply_evidence`. -/
def githubThreadRequiresReplyEvidence (item : Dict) (remoteThreads : List Dict) : Bool :=
  match remoteById remoteThreads (threadIdentifier item) with
  | some thread => threadIsResolved thread
  | none => isTerminalGithubThread item

/-- `_is_non_blocking_historical_reply_gap`. -/
def isNonBlockingHistoricalReplyGap (item : Dict) (remoteThread : Option Dict) : Bool :=
  (item.get "historical_remote_only").truthy && remoteThread.any threadIsResolved &&
    isTerminalGithubThread item && !hasRuntimeReplyExpectation item

structure ReplyEvidenceDetail where
  itemId : Option String
  threadId : Option String
  state : String
  reasonCode : String
  recoverability : String
  deriving DecidableEq

def replyEvidenceDetail (remoteThreads : List Dict) (item : Dict) : ReplyEvidenceDetail :=
  let threadId := threadIdentifier item
  if isNonBlockingHistoricalReplyGap item (remoteById remoteThreads threadId) then
    { itemId := itemId? item, threadId, state := itemState item
      reasonCode := "CLOSED_HISTORICAL_ITEM", recoverability := "non_blocking" }
  else
    { itemId := itemId? item, threadId, state := itemState item
      reasonCode := "FINAL_GATE_MISSING_REPLY_EVIDENCE", recoverability := "reconcile" }

structure FinalGateCounts where
  unresolvedGithubThreads : Nat
  pendingReview : Nat
  blockingItems : Nat
  blockingGithubItems : Nat
  githubThreadsMissingReply : Nat
  missingValidationEvidence : Nat
  blockingLocalItems : Nat
  pendingCurrentLoginReview : Nat
  unresolvedRemoteThreads : Nat
  prChecks : Nat
  prChecksFailed : Nat
  prChecksPending : Nat
  prChecksNotGreen : Nat
  logicValidationBlocking : Nat
  logicValidationAdvisory : Nat
  prChecksMissing : Nat
  deriving DecidableEq

structure FinalGateProjection where
  counts : FinalGateCounts
  unresolvedRemoteThreads : List Dict
  missingReplyItems : List ReplyEvidenceDetail
  historicalReplyItems : List ReplyEvidenceDetail
  blockingGithubItems : List Dict
  blockingLocalItems : List Dict
  missingValidationItems : List Dict
  pendingCurrentLoginReviews : List Dict
  failedChecks : List Dict
  pendingChecks : List Dict
  logicValidationSignals : List Dict
  blockingLogicValidationSignals : List Dict
  advisoryLogicValidationSignals : List Dict

/-- The payloads of the facts of one kind. -/
def payloadsOf (kind : FactKind) (facts : List RuntimeFact) : List Dict :=
  (facts.filter (·.factKind = kind)).map (·.payload)

def isRemoteThreadPayload (payload : Dict) : Bool :=
  payload.get "source_scope" = .str "remote_thread"

/-- `check_requirement or _string_or_none(payload.get("check_requirement"))`, over the check
rows in turn. -/
def mergedCheckRequirement (requirement : Option String) (checkRows : List Dict) :
    Option String :=
  checkRows.foldl
    (fun requirement check =>
      match given? requirement with
      | some given => some given
      | none =>
          let own := check.get "check_requirement"
          if own = .null ∨ own.text = "" then none else some own.text)
    requirement

/-- The checks that are not green. -/
def isFailedCheck (check : Dict) : Bool :=
  [CheckBucket.fail, .cancel, .unknown].contains (checkBucket check)

def isPendingCheck (check : Dict) : Bool := checkBucket check == .pending

/-- The rows that need a reply and lack it. -/
def replyEvidenceDetails (githubItems remoteThreads : List Dict)
    (currentLogin : Option String) : List ReplyEvidenceDetail :=
  (githubItems.filter fun item =>
    githubThreadRequiresReplyEvidence item remoteThreads && !hasReplyEvidence item currentLogin).map
    (replyEvidenceDetail remoteThreads)

/-- `project_final_gate`, on facts already in order. -/
def projectSortedFacts (facts : List RuntimeFact) (currentLogin checkRequirement : Option String) :
    FinalGateProjection :=
  let threadRows := payloadsOf .reviewThreadObserved facts
  let remoteThreadRows := threadRows.filter isRemoteThreadPayload
  let githubItems := threadRows.filter fun payload =>
    !isRemoteThreadPayload payload && itemKind payload == "github_thread"
  let localItems := payloadsOf .localItemObserved facts
  let checkRows := payloadsOf .checkRunObserved facts
  let logicValidationSignals := payloadsOf .logicValidationObserved facts
  let checksRequired := (given? (mergedCheckRequirement checkRequirement checkRows)).isSome
  let unresolvedRemoteThreads := remoteThreadRows.filter (!threadIsResolved ·)
  let pendingCurrentLoginReviews := (payloadsOf .pendingReviewObserved facts).filter
    (isCurrentLoginPendingReview · currentLogin)
  let failedChecks := checkRows.filter isFailedCheck
  let pendingChecks := checkRows.filter isPendingCheck
  let blockingLocalItems := localItems.filter isLocalBlocking
  let blockingGithubItems := githubItems.filter isBlockingItem
  let details := replyEvidenceDetails githubItems remoteThreadRows currentLogin
  let missingReplyItems := details.filter (·.recoverability ≠ "non_blocking")
  let missingValidationItems := localItems.filter fun item =>
    isTerminalLocalItem item && !hasValidationEvidence item
  let blockingSignals := logicValidationSignals.filter (·.get "gate_effect" = .str "blocking")
  let advisorySignals := logicValidationSignals.filter (·.get "gate_effect" = .str "advisory")
  { counts :=
      { unresolvedGithubThreads := unresolvedRemoteThreads.length
        pendingReview := pendingCurrentLoginReviews.length
        blockingItems := ((githubItems ++ localItems).filter isBlockingItem).length
        blockingGithubItems := blockingGithubItems.length
        githubThreadsMissingReply := missingReplyItems.length
        missingValidationEvidence := missingValidationItems.length
        blockingLocalItems := blockingLocalItems.length
        pendingCurrentLoginReview := pendingCurrentLoginReviews.length
        unresolvedRemoteThreads := unresolvedRemoteThreads.length
        prChecks := checkRows.length
        prChecksFailed := failedChecks.length
        prChecksPending := pendingChecks.length
        prChecksNotGreen :=
          if checksRequired then failedChecks.length + pendingChecks.length else 0
        logicValidationBlocking := blockingSignals.length
        logicValidationAdvisory := advisorySignals.length
        prChecksMissing := if checksRequired && checkRows.isEmpty then 1 else 0 }
    unresolvedRemoteThreads, missingReplyItems
    historicalReplyItems := details.filter (·.recoverability = "non_blocking")
    blockingGithubItems, blockingLocalItems, missingValidationItems, pendingCurrentLoginReviews
    failedChecks, pendingChecks, logicValidationSignals
    blockingLogicValidationSignals := blockingSignals
    advisoryLogicValidationSignals := advisorySignals }

def projectFinalGate (facts : List RuntimeFact) (currentLogin checkRequirement : Option String) :
    Except String FinalGateProjection :=
  (sortRuntimeFacts facts).map fun facts => projectSortedFacts facts currentLogin checkRequirement

inductive FailureCode where
  | unresolvedRemoteThreads | missingReplyEvidence | pendingCurrentLoginReview
  | blockingGithubItems | blockingLocalItems | missingValidationEvidence
  | logicValidationBlocking | prChecksNotGreen | requiredChecksMissing
  | staleRevisionEvidence | unboundRevisionEvidence
  deriving DecidableEq, Repr

def FailureCode.value : FailureCode → String
  | .unresolvedRemoteThreads => "FINAL_GATE_UNRESOLVED_REMOTE_THREADS"
  | .missingReplyEvidence => "FINAL_GATE_MISSING_REPLY_EVIDENCE"
  | .pendingCurrentLoginReview => "FINAL_GATE_PENDING_CURRENT_LOGIN_REVIEW"
  | .blockingGithubItems => "FINAL_GATE_BLOCKING_GITHUB_ITEMS"
  | .blockingLocalItems => "FINAL_GATE_BLOCKING_LOCAL_ITEMS"
  | .missingValidationEvidence => "FINAL_GATE_MISSING_VALIDATION_EVIDENCE"
  | .logicValidationBlocking => "FINAL_GATE_LOGIC_VALIDATION_BLOCKING"
  | .prChecksNotGreen => "FINAL_GATE_PR_CHECKS_NOT_GREEN"
  | .requiredChecksMissing => "FINAL_GATE_REQUIRED_CHECKS_MISSING"
  | .staleRevisionEvidence => "FINAL_GATE_STALE_REVISION_EVIDENCE"
  | .unboundRevisionEvidence => "FINAL_GATE_UNBOUND_REVISION_EVIDENCE"

/-- `FAILURE_ORDER`: the codes with the counts they report and what they wait on. -/
def failureOrder : List (FailureCode × (FinalGateCounts → Nat) × String) :=
  [(.unresolvedRemoteThreads, (·.unresolvedRemoteThreads), "remote_threads"),
    (.missingReplyEvidence, (·.githubThreadsMissingReply), "reply_evidence"),
    (.pendingCurrentLoginReview, (·.pendingCurrentLoginReview), "pending_review"),
    (.blockingGithubItems, (·.blockingGithubItems), "github_items"),
    (.blockingLocalItems, (·.blockingLocalItems), "local_items"),
    (.missingValidationEvidence, (·.missingValidationEvidence), "validation_evidence"),
    (.logicValidationBlocking, (·.logicValidationBlocking), "logic_validation"),
    (.prChecksNotGreen, (·.prChecksNotGreen), "checks"),
    (.requiredChecksMissing, (·.prChecksMissing), "checks")]

def signalType (signal : Dict) : String := signal.textOr "signal_type" ""

/-- The codes that stand for blocking logic signals, by the type of signal. -/
def logicValidationCodes (blocking : List Dict) : List FailureCode :=
  let types := blocking.map signalType
  (if types.contains "stale_revision_evidence" then [.staleRevisionEvidence] else []) ++
    (if types.contains "unbound_revision_evidence" then [.unboundRevisionEvidence] else []) ++
    if types.any fun t => !(["stale_revision_evidence", "unbound_revision_evidence"].contains t) then
      [.logicValidationBlocking] else []

structure FinalGatePolicyDecision where
  failureCodes : List FailureCode
  reasonCode : Option FailureCode
  waitingOn : Option String
  deriving DecidableEq

def failureCodes (projection : FinalGateProjection) : List FailureCode :=
  failureOrder.flatMap fun (code, count, _) =>
    if count projection.counts = 0 then []
    else if code = .logicValidationBlocking then
      logicValidationCodes projection.blockingLogicValidationSignals
    else [code]

def waitingOn (code : FailureCode) : String :=
  match failureOrder.find? fun entry => entry.1 == code with
  | some (_, _, waiting) => waiting
  | none => "validation_evidence"

def evaluateFinalGatePolicy (projection : FinalGateProjection) : FinalGatePolicyDecision :=
  let codes := failureCodes projection
  { failureCodes := codes, reasonCode := codes.head?, waitingOn := codes.head?.map waitingOn }

/-- `GateResult.passed` of `evaluate_final_gate` on the bundle. -/
def finalGatePassed (bundle : EvidenceBundle) : Except String Bool :=
  (projectFinalGate (buildFinalGateFacts bundle) bundle.currentLogin bundle.checkRequirement).map
    fun projection => (evaluateFinalGatePolicy projection).failureCodes.isEmpty

end GhAddressCr
