import GhAddressCr.EvidenceLedger
import GhAddressCr.Leases
import GhAddressCr.StackContext

/-!
# Action requests

The document an agent is handed with a lease: what it may do to which item, and the observed
stack it was issued for. The lease keeps the hash of the request, and a submission recomputes
it from the file.
-/
namespace GhAddressCr

open PyText GithubThreadState

def stackContextSchemaVersion : String := "stack_context.v1"

def optionalNumber (value : Option Int) : Value := (value.map Value.int).getD .null

/-- The `diagnostic` of a context, which only a context with a code has. -/
def StackContext.diagnostic (context : StackContext) : Option Dict :=
  context.diagnosticCode.map fun code =>
    let diagnostic := Dict.ofFields [("reason_code", .str code)]
    match (context.invalidInvariant.filter (· ≠ "")).orElse fun _ => context.diagnosticCause with
    | some invariant =>
        if invariant = "" then diagnostic else diagnostic.set "invariant" (.str invariant)
    | none => diagnostic

/-- The entry under `key`, if there is one. -/
def Dict.setIfSome (d : Dict) (key : String) (value : Option Value) : Dict :=
  match value with
  | some value => d.set key value
  | none => d

theorem Dict.getElem?_setIfSome (d : Dict) (key other : String) (value : Option Value) :
    (d.setIfSome key value)[other]? = if key = other then value.or d[other]? else d[other]? := by
  cases value with
  | none => simp [setIfSome]
  | some value => simp [setIfSome, getElem?_set]

theorem Dict.getElem?_setIfSome_of_ne (d : Dict) {key other : String} (value : Option Value)
    (h : key ≠ other) : (d.setIfSome key value)[other]? = d[other]? := by
  rw [getElem?_setIfSome, if_neg h]

@[simp] theorem Dict.get_setIfSome (d : Dict) (key other : String) (value : Option Value) :
    (d.setIfSome key value).get other =
      if key = other then value.getD (d.get other) else d.get other := by
  cases value with
  | none => simp [Dict.setIfSome]
  | some value => simp [Dict.setIfSome]

def StackContext.toDict (context : StackContext) : Dict :=
  let payload := Dict.ofFields
    [("schema_version", .str stackContextSchemaVersion),
      ("availability", .str context.availability.value),
      ("observed_at", .str context.observedAt)]
  let payload := payload.setIfSome "topology_fingerprint"
    (context.topologyFingerprint.map (·.toValue))
  let payload := payload.setIfSome "selected_pr" (context.selectedPr.map (·.toDict.toValue))
  let payload :=
    if context.availability = .present then
      payload.set "stack" (Dict.ofFields
        [("number", optionalNumber context.stackNumber),
          ("trunk_ref_name", optionalText context.trunkRefName),
          ("size", optionalNumber context.reportedSize),
          ("selected_position", optionalNumber context.selectedPosition),
          ("members", .list (context.members.map (·.toDict.toValue)))]).toValue
    else payload
  payload.setIfSome "diagnostic" (context.diagnostic.map (·.toValue))

/-- The digest a document holds. -/
def Digest.ofValue : Value → Digest
  | .dict [("sha256", document)] => ⟨document⟩
  | value => ⟨value⟩

/-- `stack_context_from_serialized`; `none` where an `AttributeError` escapes. -/
def stackContextFromSerialized (payload : Dict) (repo prNumber : String) : Option StackContext :=
  let availability := payload.textOr "availability" "invalid"
  let stack := payload.get "stack"
  let observation := Dict.ofFields
    [("schema_version", .str stackObservationSchemaVersion), ("availability", .str availability),
      ("repo", .str repo), ("selected_pr_number", .str prNumber),
      ("observed_at", .str (payload.textOr "observed_at" ""))]
  let observation :=
    if availability = "present" then
      observation.update (Dict.ofFields
        [("stack_node_id", .str "serialized-context"), ("stack_number", stack.field "number"),
          ("trunk_ref_name", stack.field "trunk_ref_name"),
          ("reported_size", stack.field "size"), ("members", stack.field "members")])
    else if payload.get "selected_pr" ≠ .null then
      observation.set "selected_pr" (payload.get "selected_pr")
    else observation
  (projectStackContext observation).map fun context =>
    if availability = "present" ∧ (payload.get "topology_fingerprint").truthy then
      { context with
        topologyFingerprint := some (Digest.ofValue (payload.get "topology_fingerprint")) }
    else context

/-- `repository_context_for_stack`; `none` where an `AttributeError` escapes. -/
def repositoryContextForStack (repo prNumber : String) (observedContext : Option Dict) :
    Option Dict :=
  let payload := Dict.ofFields [("repo", .str repo), ("pr_number", .str prNumber)]
  match observedContext with
  | none => some payload
  | some observed =>
      let projected :=
        if observed.get "schema_version" = .str stackContextSchemaVersion then
          (stackContextFromSerialized observed repo prNumber).map fun context =>
            (context, observed)
        else (projectStackContext observed).map fun context => (context, context.toDict)
      projected.map fun (context, contextPayload) =>
        (payload.set "stack_context" contextPayload.toValue).setIfSome "revision_binding"
          ((revisionBindingForContext context).map (·.toValue))

/-- The session's metadata, where it is an object. -/
def Session.metadata? (session : Session) : Option Dict :=
  (session.root.get "metadata").toDict?

def Session.setMetadata (session : Session) (metadata : Dict) : Session :=
  { session with root := session.root.set "metadata" metadata.toValue }

/-- The context of a cached observation says that the pull request is in a stack. -/
def observedPresent (observed : Value) : Bool :=
  (observed.field "stack_context").field "availability" = .str "present"

/-- `has_observed_stack_membership`. -/
def hasObservedStackMembership (session : Session) : Bool :=
  let observed := ((session.metadata?).map (·.get "pull_request_context")).getD .null
  observed.field "stack_membership_observed" = .bool true || observedPresent observed

/-- `cache_pull_request_context`. -/
def cachePullRequestContext (session : Session) (stackContext : Dict) : Session :=
  let metadata := (session.metadata?).getD ∅
  let previous := metadata.get "pull_request_context"
  let availability := stackContext.get "availability"
  let stackMembershipObserved :=
    if availability = .str "present" ∨ availability = .str "absent" then
      decide (availability = .str "present")
    else previous.field "stack_membership_observed" = .bool true || observedPresent previous
  session.setMetadata (metadata.set "pull_request_context" (Dict.ofFields
    [("authority", .str "github_observation"), ("authoritative", .bool false),
      ("stack_context", stackContext.toValue),
      ("stack_membership_observed", .bool stackMembershipObserved),
      ("refreshed_at", .str (stackContext.textOr "observed_at" ""))]).toValue)

/-- `cached_stack_context`. -/
def cachedStackContext (session : Session) : Option Dict :=
  let observed := ((session.metadata?).map (·.get "pull_request_context")).getD .null
  if observed.field "authoritative" = .bool false then
    (observed.field "stack_context").toDict?
  else none

def protocolVersion : String := "1.1"

def supportedProtocolVersions : List String := ["1.1"]

/-- `_string_tuple`; `none` where it raises `TypeError`. -/
def stringTuple : Value → Option (List String)
  | .null => some []
  | .str s => some [s]
  | value => (iterate value).map fun values => values.map (·.text)

structure WorkItem where
  itemId : String
  itemKind : String
  source : String
  title : String
  body : String
  path : Value
  line : Value
  state : String
  allowedActions : List String
  classificationEvidence : Value
  conflictKeys : List String
  replyEvidence : Value
  validationEvidence : List Dict
  untrustedContent : Option Dict
  deriving DecidableEq

/-- `str(d.get(key, default))`. -/
def Dict.textIfGiven (d : Dict) (key default : String) : String :=
  ((d[key]?).map Value.text).getD default

/-- A field that is null or an object; `none` where it is anything else. -/
def optionalDict : Value → Option (Option Dict)
  | .null => some none
  | value => value.toDict?.map some

namespace WorkItem

/-- `WorkItem.from_dict`; `none` where it raises. -/
def fromDict (payload : Value) : Option WorkItem := do
  let payload ← payload.toDict?
  let itemId ← payload["item_id"]?
  let itemKind ← payload["item_kind"]?
  let allowedActions ← stringTuple (payload.get "allowed_actions")
  let conflictKeys ← stringTuple (payload.get "conflict_keys")
  let records ← iterate ((payload["validation_evidence"]?).getD (.list []))
  let validationEvidence ← records.mapM Value.toMapping?
  let untrustedContent ← optionalDict (payload.get "untrusted_content")
  return {
    itemId := itemId.text, itemKind := itemKind.text
    source := payload.textIfGiven "source" "", title := payload.textIfGiven "title" ""
    body := payload.textIfGiven "body" "", path := payload.get "path"
    line := payload.get "line", state := payload.textIfGiven "state" "open"
    allowedActions, classificationEvidence := payload.get "classification_evidence"
    conflictKeys, replyEvidence := payload.get "reply_evidence"
    validationEvidence, untrustedContent }

/-- `dict(value)` of a field that is not null. -/
def optionalMapping : Value → Option (Option Value)
  | .null => some none
  | value => value.toMapping?.map fun fields => some fields.toValue

def unlessNull : Value → Option Value
  | .null => none
  | value => some value

/-- `to_dict`; `none` where it raises. -/
def toDict (item : WorkItem) : Option Dict := do
  let classificationEvidence ← optionalMapping item.classificationEvidence
  let replyEvidence ← optionalMapping item.replyEvidence
  let texts := fun values : List String => Value.list (values.map .str)
  let payload := Dict.ofFields
    [("item_id", .str item.itemId), ("item_kind", .str item.itemKind),
      ("source", .str item.source), ("title", .str item.title), ("body", .str item.body),
      ("state", .str item.state), ("allowed_actions", texts item.allowedActions)]
  let payload := payload.setIfSome "path" (unlessNull item.path)
  let payload := payload.setIfSome "line" (unlessNull item.line)
  let payload := payload.setIfSome "classification_evidence" classificationEvidence
  let payload := payload.setIfSome "conflict_keys"
    (if item.conflictKeys = [] then none else some (texts item.conflictKeys))
  let payload := payload.setIfSome "reply_evidence" replyEvidence
  let payload := payload.setIfSome "validation_evidence"
    (if item.validationEvidence = [] then none
      else some (.list (item.validationEvidence.map (·.toValue))))
  return payload.setIfSome "untrusted_content" (item.untrustedContent.map (·.toValue))

end WorkItem

structure ActionRequest where
  schemaVersion : String
  requestId : String
  sessionId : String
  leaseId : String
  agentRole : AgentRole
  item : WorkItem
  allowedActions : List String
  requiredEvidence : List String
  repositoryContext : Dict
  resumeCommand : Value
  forbiddenActions : List String
  handlingBoundary : Option Dict
  deriving DecidableEq

/-- What reading a request document raises. -/
inductive RequestError where
  | unsupportedProtocolVersion
  | malformed
  deriving DecidableEq

namespace ActionRequest

/-- The fields of a request whose version is supported; `none` where reading them raises. -/
def ofFields (payload : Dict) (schemaVersion : String) : Option ActionRequest := do
  let requestId ← payload["request_id"]?
  let sessionId ← payload["session_id"]?
  let leaseId ← payload["lease_id"]?
  let agentRole ← AgentRole.parse (← payload["agent_role"]?).text
  let item ← WorkItem.fromDict (← payload["item"]?)
  let allowedActions ← stringTuple (← payload["allowed_actions"]?)
  let requiredEvidence ← stringTuple (← payload["required_evidence"]?)
  let repositoryContext ←
    if payload.get "repository_context" = .null then some ∅
    else (payload.get "repository_context").toMapping?
  let forbiddenActions ← stringTuple (payload.get "forbidden_actions")
  let handlingBoundary ← optionalDict (payload.get "handling_boundary")
  return {
    schemaVersion, requestId := requestId.text, sessionId := sessionId.text
    leaseId := leaseId.text, agentRole, item, allowedActions, requiredEvidence
    repositoryContext, resumeCommand := payload.get "resume_command", forbiddenActions
    handlingBoundary }

/-- `ActionRequest.from_dict`. -/
def fromDict (payload : Dict) : Except RequestError ActionRequest :=
  let schemaVersion := payload.textOr "schema_version" ""
  if !supportedProtocolVersions.contains schemaVersion then .error .unsupportedProtocolVersion
  else
    match ofFields payload schemaVersion with
    | some request => .ok request
    | none => .error .malformed

/-- `to_dict`; `none` where it raises. -/
def toDict (request : ActionRequest) : Option Dict :=
  request.item.toDict.map fun item =>
    let texts := fun values : List String => Value.list (values.map .str)
    let payload := Dict.ofFields
      [("schema_version", .str request.schemaVersion), ("request_id", .str request.requestId),
        ("session_id", .str request.sessionId), ("lease_id", .str request.leaseId),
        ("agent_role", .str request.agentRole.value), ("item", item.toValue),
        ("allowed_actions", texts request.allowedActions),
        ("required_evidence", texts request.requiredEvidence),
        ("repository_context", request.repositoryContext.toValue),
        ("forbidden_actions", texts request.forbiddenActions)]
    let payload := payload.setIfSome "resume_command" (WorkItem.unlessNull request.resumeCommand)
    payload.setIfSome "handling_boundary" (request.handlingBoundary.map (·.toValue))

/-- `stable_hash`; `none` where it raises. -/
def stableHash (request : ActionRequest) : Option String :=
  request.toDict.map fun payload => Digest.text ⟨payload.toValue⟩

end ActionRequest

/-- The hash of the request a document holds. -/
def requestHash (payload : Dict) : Except RequestError String :=
  match ActionRequest.fromDict payload with
  | .error error => .error error
  | .ok request =>
      match request.stableHash with
      | some hash => .ok hash
      | none => .error .malformed

def terminalResolutions : List String := ["fix", "clarify", "defer", "reject"]

/-- The value is one of the terminal resolutions. -/
def isTerminalResolution : Value → Bool
  | .str resolution => terminalResolutions.contains resolution
  | _ => false

def hasClassificationEvidence (item : Dict) : Bool :=
  isTerminalResolution ((item.get "classification_evidence").field "classification")

def requiredEvidenceFor (item : Dict) (role : String) : List String :=
  let classification := (item.get "classification_evidence").field "classification"
  if isTerminalResolution classification ∧ classification ≠ .str "fix" then
    ["note", "reply_markdown"]
  else if role = "fixer" then
    ["note", "files", "validation_commands"] ++
      if item.get "item_kind" = .str "github_thread" then ["fix_reply"] else []
  else ["note", "reply_markdown"]

/-- `untrusted_content_envelope`. -/
def untrustedContentEnvelope (item : Dict) : Dict :=
  let isGithubThread := item.textOr "item_kind" "" == "github_thread"
  let envelope := Dict.ofFields
    [("source", .str (if isGithubThread then "github_review_thread" else "local_finding_producer")),
      ("body", .str (item.textOr "body" ""))]
  let envelope := ["first_body", "latest_body"].foldl
    (fun envelope field =>
      if (item.get field).truthy then envelope.set field (.str (item.get field).text)
      else envelope)
    envelope
  let authorLogin := (item.get "first_author_login").orElse (item.get "latest_author_login")
  if authorLogin.truthy then envelope.set "author_login" (.str authorLogin.text)
  else if !isGithubThread && (item.get "source").truthy then
    envelope.set "producer" (.str (item.get "source").text)
  else envelope

def requestItemProjection (item : Dict) : Dict :=
  (((item.pop "body").pop "first_body").pop "latest_body").set "untrusted_content"
    (untrustedContentEnvelope item).toValue

/-- `boundary_summary_for_item`, for the one boundary there is. -/
def githubThreadFixBoundary (item : Dict) : Dict :=
  let texts := fun values : List String => Value.list (values.map .str)
  Dict.ofFields
    [("item_id", .str (item.textOr "item_id" "")), ("item_kind", .str (item.textOr "item_kind" "")),
      ("boundary_id", .str "github-thread-fix"), ("applicability", .str "matched"),
      ("required_evidence", texts ["classification", "files", "validation", "reply"]),
      ("completion_criteria",
        texts ["accepted_evidence", "published_reply", "resolved_thread", "final_gate"]),
      ("terminal_failure_reasons",
        texts ["UNSUPPORTED_WORK_ITEM", "BOUNDARY_CONFLICT", "MISSING_REQUIRED_EVIDENCE"]),
      ("next_action", .str "issue_action_request")]

/-- `handling_boundary_summary_or_none`. -/
def handlingBoundarySummary (item : Dict) (role : String) : Option Dict :=
  if role ≠ "fixer" ∨ item.get "item_kind" ≠ .str "github_thread" then none
  else if (item.get "classification_evidence").field "classification" = .str "fix" then
    some (githubThreadFixBoundary item)
  else none

/-- `sorted(values)` of texts or of integers; `none` where the values do not compare. -/
def sortedValues (values : List Value) : Option (List Value) :=
  let isText := fun | Value.str _ => true | _ => false
  let isInt := fun | Value.int _ => true | _ => false
  if values.all isText then some (values.insertionSort fun a b => a.text ≤ b.text)
  else if values.all isInt then
    some (values.insertionSort fun a b => a.toInt?.getD 0 ≤ b.toInt?.getD 0)
  else if values.length ≤ 1 then some values
  else none

def stackManagementActions : List String :=
  ["create_stack", "checkout_stack", "rebase_stack", "push_stack", "modify_stack", "unstack",
    "queue_stack", "merge_stack"]

/-- What a request says besides its item. -/
structure RequestContext where
  repo : String
  prNumber : String
  role : String
  requestId : String
  leaseId : String
  repositoryContext : Dict

/-- The request document for an item; `none` where building it raises. -/
def buildActionRequest (session : Session) (item : Dict) (context : RequestContext) :
    Option Dict := do
  let sessionId ← session.root["session_id"]?
  let actions ← iterate ((item.get "allowed_actions").orElse
    (.list (terminalResolutions.map .str)))
  let allowedActions ← sortedValues actions
  let request := Dict.ofFields
    [("schema_version", .str protocolVersion), ("request_id", .str context.requestId),
      ("session_id", sessionId), ("lease_id", .str context.leaseId),
      ("agent_role", .str context.role),
      ("item", ((requestItemProjection item).set "state" (.str "claimed")).toValue),
      ("allowed_actions", .list allowedActions),
      ("required_evidence", .list ((requiredEvidenceFor item context.role).map .str)),
      ("repository_context", context.repositoryContext.toValue),
      ("forbidden_actions", .list
        ((["post_github_reply", "resolve_github_thread"] ++ stackManagementActions).map .str)),
      ("resume_command", .str ("gh-address-cr agent submit " ++ context.repo ++ " " ++
        context.prNumber ++ " --input response.json"))]
  return request.setIfSome "handling_boundary"
    ((handlingBoundarySummary item context.role).map (·.toValue))

end GhAddressCr
