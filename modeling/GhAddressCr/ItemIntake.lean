import GhAddressCr.AgentBatch
import GhAddressCr.FinalGate

/-!
# What enters a session

Items come from the threads observed on GitHub and from the findings of local producers. Both
write the state of an item whatever claims it. The other writes of items outside of the leases
stand here too: a resolved thread reopened for a reply, a published thread, and notes on an item.
The severities and priorities of items decide nothing here and are left out.
-/
namespace GhAddressCr

open PyText GithubThreadState RuntimeStore

/-- `_has_publish_ready_evidence`. -/
def hasPublishReadyEvidence (item : Dict) : Bool :=
  (item.get "accepted_response").toDict?.isSome || hasContent (item.get "publish_resolution")

/-- The state a resolved thread keeps or takes. -/
def resolvedState (item : Dict) : Value :=
  let state := item.get "state"
  if githubThreadTerminalStates.contains (lower (item.textOr "state" "")) then state
  else .str "closed"

/-- `_determine_merged_thread_state`. -/
def determineMergedThreadState (thread item : Dict) : Dict :=
  let isOutdated := isStaleOrOutdatedGithubThread thread
  let item := item.set "is_outdated" (.bool isOutdated)
  if threadIsResolved thread then
    (((item.set "state" (resolvedState item)).set "status" (.str "CLOSED")).set "blocking"
      (.bool false)).set "handled" (.bool true)
  else if hasPublishReadyEvidence item then
    ((item.set "state" (.str "publish_ready")).set "status"
      ((item.get "status").orElse (.str "OPEN"))).set "blocking" (.bool true)
  else if isOutdated then
    ((item.set "state" (.str "stale")).set "status" (.str "STALE")).set "blocking" (.bool true)
  else
    ((item.set "state" (.str "open")).set "status" (.str "OPEN")).set "blocking" (.bool true)

def replyEvidence (replyUrl authorLogin : Value) : Value :=
  (Dict.ofFields [("reply_url", replyUrl), ("author_login", authorLogin)]).toValue

/-- `_apply_viewer_reply_evidence`. -/
def applyViewerReplyEvidence (thread item : Dict) (currentLogin : Option String) : Dict :=
  let url := thread.get "viewer_reply_url"
  if (thread.get "viewer_replied").truthy && url.truthy then
    let author := (thread.get "viewer_login").orElse
      ((item.get "reply_author_login").orElse (optionalText currentLogin))
    ((item.set "reply_evidence" (replyEvidence url author)).set "reply_url" url).set
      "reply_posted" (.bool true)
  else item

/-- What a thread shows of itself, over what its item has. -/
def describeThread (thread item : Dict) : Dict :=
  let item := ["path", "line", "url", "body"].foldl
    (fun item key => item.set key ((thread.get key).orElse (item.get key))) item
  ["first_author_login", "latest_author_login"].foldl
    (fun item key => item.setIfSome key (truthyField thread key)) item

/-- `_merge_single_remote_thread`. -/
def mergeSingleRemoteThread (thread : Dict) (threadId : String) (existing : Option Dict)
    (currentLogin : Option String) : Dict :=
  let item := existing.getD ∅
  let item := item.setDefault "item_id" (.str ("github-thread:" ++ threadId))
  let item := item.setDefault "item_kind" (.str "github_thread")
  let item := item.setDefault "source" (.str "github")
  let item := (item.set "thread_id" (.str threadId)).set "origin_ref" (.str threadId)
  let item := determineMergedThreadState thread (describeThread thread item)
  applyViewerReplyEvidence thread item currentLogin

/-- The id of the item that follows a thread. -/
def threadItemId? (thread : Dict) : Option String :=
  (given? (threadIdentifier thread)).map ("github-thread:" ++ ·)

/-- One round of the loop of `_session_with_remote_threads`. -/
def mergeRemoteThread (currentLogin : Option String) (items : Rows Dict) (thread : Dict) :
    Rows Dict :=
  match given? (threadIdentifier thread) with
  | none => items
  | some threadId =>
      let itemId := "github-thread:" ++ threadId
      items.insert itemId
        (mergeSingleRemoteThread thread threadId items[itemId]? currentLogin)

/-- `_session_with_remote_threads`. -/
def sessionWithRemoteThreads (session : Session) (threads : List Dict)
    (currentLogin : Option String) : Session :=
  { session with items := threads.foldl (mergeRemoteThread currentLogin) session.items }

/-- A finding as `normalize_findings_payload` returns it, with the id of its item. -/
structure LocalFinding where
  itemId : String
  title : String
  path : String
  line : Int
  body : String
  /-- `start_line`, `end_line`, `category`, `confidence` and `head_sha`, in this order. -/
  optional : Option Value × Option Value × Option Value × Option Value × Option Value

/-- The fields that `item.update` takes from a finding. -/
def LocalFinding.fields (finding : LocalFinding) (source : String) : Dict :=
  let fields := Dict.ofFields
    [("title", .str finding.title), ("path", .str finding.path), ("line", .int finding.line),
      ("body", .str finding.body), ("item_id", .str finding.itemId),
      ("item_kind", .str "local_finding"), ("source", .str source)]
  let (startLine, endLine, category, confidence, headSha) := finding.optional
  ((((fields.setIfSome "start_line" startLine).setIfSome "end_line" endLine).setIfSome
    "category" category).setIfSome "confidence" confidence).setIfSome "head_sha" headSha

/-- The item of a finding that has come in. -/
def ingestedItem (finding : LocalFinding) (source : String) (now : Int)
    (existing : Option Dict) : Dict :=
  let item := (existing.getD ∅).update (finding.fields source)
  let item := (item.setDefault "created_at" (.time now)).set "updated_at" (.time now)
  let item := (item.set "status" (.str "OPEN")).set "state" (.str "open")
  let item := (item.set "blocking" (.bool true)).set "handled" (.bool false)
  let item := (item.set "needs_human" (.bool false)).setDefault "history" (.list [])
  let item := (item.setDefault "reply_posted" (.bool false)).setDefault "reply_url" .null
  item.setDefault "validation_commands" (.list [])

/-- The item of a finding that its producer no longer reports. -/
def syncClosedItem (now : Int) (item : Dict) : Dict :=
  let item := (item.set "status" (.str "CLOSED")).set "state" (.str "closed")
  let item := (item.set "blocking" (.bool false)).set "handled" (.bool true)
  (item.set "handled_at" (.time now)).set "updated_at" (.time now)

/-- A sync closes this item: a finding of the source that did not come in. -/
def isMissing (source : String) (incoming : List String) (itemId : String) (item : Dict) : Bool :=
  item.get "item_kind" == .str "local_finding" && item.get "source" == .str source &&
    !incoming.contains itemId

/-- `_ingest_native_findings`. -/
def ingestNativeFindings (session : Session) (findings : List LocalFinding) (source : String)
    (sync : Bool) (now : Int) : Session :=
  let items := findings.foldl
    (fun items finding =>
      items.insert finding.itemId (ingestedItem finding source now items[finding.itemId]?))
    session.items
  if sync then
    { session with
      items := items.map fun itemId item =>
        if isMissing source (findings.map (·.itemId)) itemId item then syncClosedItem now item
        else item }
  else { session with items }

/-- What `reopen_resolved_thread_for_reply` makes of an item. -/
def reopenedItem (now : Int) (item : Dict) : Dict :=
  let (state, status) := returnedClaimableState item
  let item := (item.pop "isResolved").pop "is_resolved"
  let item := (item.set "state" (.str state)).set "status" (.str status)
  let item := (item.set "blocking" (.bool true)).set "handled" (.bool false)
  item.set "reopened_for_reply_at" (.time now)

/-- `reopen_resolved_thread_for_reply`. -/
def reopenResolvedThreadForReply (itemId : String) (now : Int) : Mutation Unit := fun session =>
  match session.items[itemId]? with
  | none => .error "ITEM_NOT_FOUND"
  | some item =>
      if item.get "item_kind" ≠ .str "github_thread" then .error "ITEM_NOT_FOUND"
      else if !isResolvedGithubThread item then .error "THREAD_NOT_RESOLVED"
      else if (item.get "reply_evidence").toDict?.isSome ||
          (item.get "historical_remote_only").truthy then
        .error "CLOSED_THREAD_NEEDS_NO_REPLY"
      else .ok ({ session with items := session.items.insert itemId (reopenedItem now item) }, ())

/-- The item waits for its accepted response to be published. -/
def isPublishReady (item : Dict) : Bool :=
  item.get "item_kind" == .str "github_thread" &&
    lower (item.textOr "state" "") == "publish_ready"

/-- What the publisher makes of an item when its reply is posted and its thread resolved. -/
def publishedItem (replyUrl login : String) (now : Int) (item : Dict) : Dict :=
  let item := (item.set "reply_posted" (.bool true)).set "reply_url" (.str replyUrl)
  let item := item.set "reply_evidence" (replyEvidence (.str replyUrl) (.str login))
  let item := (item.set "state" (.str "closed")).set "status" (.str "CLOSED")
  let item := (item.set "blocking" (.bool false)).set "handled" (.bool true)
  clearClaimFields ((item.set "thread_resolved" (.bool true)).set "handled_at" (.time now))

/-- The items a publish closes, each with the URL of its reply. -/
def publishItems (session : Session) (replies : List (String × String)) (login : String)
    (now : Int) : Session :=
  replies.foldl
    (fun session reply => session.modifyItem reply.1 fun item =>
      if isPublishReady item then publishedItem reply.2 login now item else item)
    session

/-- What a command notes on an item without touching its state. -/
inductive ItemNote where
  /-- `_attach_review_priority_evidence`. -/
  | reviewPriority (evidence : Dict)
  /-- A reply that somebody posted by hand. -/
  | postedReply (replyUrl login : String)
  /-- Validation evidence given after the fact. -/
  | validation (commands : List Value) (revisionBinding : Option Value) (fixReply : Dict)

def ItemNote.write (item : Dict) : ItemNote → Dict
  | .reviewPriority evidence => item.set "review_priority_evidence" evidence.toValue
  | .postedReply replyUrl login =>
      ((item.set "reply_posted" (.bool true)).set "reply_url" (.str replyUrl)).set
        "reply_evidence" (replyEvidence (.str replyUrl) (.str login))
  | .validation commands revisionBinding fixReply =>
      ((item.set "validation_evidence" (.list commands)).setIfSome "revision_binding"
        revisionBinding).set "validation_reconcile" fixReply.toValue

end GhAddressCr
