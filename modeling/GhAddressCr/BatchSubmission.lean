import GhAddressCr.AgentBatch

/-!
# Submitting a batch

The rows of a batch file are responses to the leases of one agent. Every row is checked on a
loaded copy of the session before any is accepted, and one save commits them all.
-/
namespace GhAddressCr

open PyText GithubThreadState RuntimeStore

/-- Who submits which batch file, and what is read besides the session. -/
structure BatchSubmission where
  /-- The batch file, if there is one. -/
  batch : Option FileContent
  now : Int
  files : FileSystem
  prNumber : String
  observed : Option StackContext
  prCommitShas : Option (List String)

/-- The same, for one of its rows. -/
def BatchSubmission.single (submission : BatchSubmission) (response : Dict) :
    ResponseSubmission where
  response := response
  now := submission.now
  files := submission.files
  prNumber := submission.prNumber
  observed := submission.observed
  prCommitShas := submission.prCommitShas

/-- `load_response_json_object`, for a batch. -/
def loadBatch : Option FileContent → Except String Dict
  | none => .error "BATCH_RESPONSE_FILE_NOT_FOUND"
  | some .unreadable => .error "INVALID_BATCH_RESPONSE_JSON"
  | some (.json document) =>
      match document.toDict? with
      | some batch => .ok batch
      | none => .error "INVALID_BATCH_RESPONSE_SHAPE"

/-- `value or {}`, where it is an object. -/
def objectOr (value : Value) (error : String) : Except String Dict :=
  if !value.truthy then .ok ∅
  else
    match value.toDict? with
    | some fields => .ok fields
    | none => .error error

/-- What the rows of a batch have in common. -/
structure BatchCommon where
  schemaVersion : String
  agentId : String
  resolution : String
  fixReply : Dict
  files : Value
  validation : Value
  commitHash : String
  evidenceRef : String

/-- The fix reply of a row, over the one the rows have in common. -/
def batchFixReply (common : BatchCommon) (itemFixReply : Dict) (files : List String)
    (summary why : String) : Dict :=
  let fixReply := (common.fixReply.pop "why").update itemFixReply
  let fixReply :=
    if common.commitHash ≠ "" ∧ !(fixReply.get "commit_hash").truthy then
      fixReply.set "commit_hash" (.str common.commitHash)
    else fixReply
  let fixReply := if files.isEmpty then fixReply else fixReply.set "files" (textList files)
  let fixReply := if summary = "" then fixReply else fixReply.set "summary" (.str summary)
  if why = "" then fixReply else fixReply.set "why" (.str why)

/-- `_build_batch_item_response`. -/
def buildBatchItemResponse (common : BatchCommon) (item : Value) : Except String Dict := do
  let some item := item.toDict? | throw "INVALID_BATCH_ITEM"
  let itemFixReply ← objectOr (item.get "fix_reply") "INVALID_BATCH_ITEM_FIX_REPLY"
  if lower (strip (item.textOr "resolution" common.resolution)) ≠ "fix" then
    throw "BATCH_UNSUPPORTED_RESOLUTION"
  let requestId := strip (item.textOr "request_id" "")
  let leaseId := strip (item.textOr "lease_id" "")
  if requestId = "" then throw "MISSING_BATCH_ITEM_REQUEST_ID"
  if leaseId = "" then throw "MISSING_BATCH_ITEM_LEASE_ID"
  let summary := strip (item.textOr "summary" (itemFixReply.textOr "summary" ""))
  let why := strip (item.textOr "why" (itemFixReply.textOr "why" ""))
  let note := strip (item.textOr "note" (if summary ≠ "" then summary else why))
  if note = "" then throw "MISSING_BATCH_ITEM_NOTE"
  let files := normalizeStringList
    ((item.get "files").orElse ((itemFixReply.get "files").orElse common.files))
  let response := Dict.ofFields
    [("schema_version", .str common.schemaVersion), ("request_id", .str requestId),
      ("lease_id", .str leaseId), ("agent_id", .str (item.textOr "agent_id" common.agentId)),
      ("resolution", .str "fix"), ("note", .str note), ("files", textList files),
      ("validation_commands", (item.get "validation_commands").orElse common.validation),
      ("fix_reply", (batchFixReply common itemFixReply files summary why).toValue)]
  let evidenceRef := strip (item.textOr "evidence_ref" common.evidenceRef)
  let response :=
    if evidenceRef = "" then response else response.set "evidence_ref" (.str evidenceRef)
  return if (item.get "item_id").truthy then
    response.set "item_id" (.str (item.get "item_id").text)
  else response

/-- `_batch_action_responses`. -/
def batchActionResponses (batch : Dict) : Except String (List Dict) := do
  let common ← objectOr (batch.get "common") "INVALID_BATCH_COMMON"
  let items := match batch.get "items" with
    | .list items => items
    | _ => []
  if items.isEmpty then throw "BATCH_ITEMS_REQUIRED"
  let agentId := strip (batch.textOr "agent_id" (common.textOr "agent_id" ""))
  if agentId = "" then throw "MISSING_BATCH_AGENT_ID"
  let resolution := lower (strip (batch.textOr "resolution" (common.textOr "resolution" "fix")))
  if resolution ≠ "fix" then throw "BATCH_UNSUPPORTED_RESOLUTION"
  let fixReply ← objectOr (common.get "fix_reply") "INVALID_BATCH_FIX_REPLY"
  let shared : BatchCommon := {
    schemaVersion := batch.textOr "schema_version" "1.0", agentId, resolution, fixReply
    files := (common.get "files").orElse (fixReply.get "files")
    validation := common.get "validation_commands"
    commitHash := strip (common.textOr "commit_hash" (fixReply.textOr "commit_hash" ""))
    evidenceRef := strip (common.textOr "evidence_ref" (batch.textOr "evidence_ref" "")) }
  items.mapM (buildBatchItemResponse shared)

/-- A row that has passed its checks. -/
structure PreparedRow where
  /-- The lease the row names. -/
  named : String
  response : Dict
  prepared : PreparedSubmission

/-- `_validate_batch_fix_contract`: why the row is refused. -/
def batchFixContractReason (response : Dict) : Option String :=
  let commands := match response.get "validation_commands" with
    | .list commands => commands
    | _ => []
  let isRecord := fun command : Value => command.toDict?.any fun record =>
    (record.get "command").truthy && (record.get "result").truthy
  if (normalizeStringList (response.get "files")).isEmpty then some "MISSING_BATCH_FILES"
  else if commands.isEmpty then some "MISSING_BATCH_VALIDATION_COMMANDS"
  else if !commands.all isRecord then some "INVALID_BATCH_VALIDATION_COMMAND"
  else
    match (response.get "fix_reply").toDict? with
    | none => some "MISSING_BATCH_FIX_REPLY"
    | some fixReply =>
        if strip (fixReply.textOr "why" "") = "" then some "MISSING_BATCH_ITEM_WHY" else none

/-- Why a row does not go into a batch with the rows before it. -/
def batchRowReason (rows : List PreparedRow) (response : Dict) (prepared : PreparedSubmission) :
    Option String :=
  if rows.any fun row => row.prepared.itemId = prepared.itemId then some "BATCH_DUPLICATE_ITEM"
  else if prepared.item.get "item_kind" ≠ .str "github_thread" then
    some "BATCH_UNSUPPORTED_ITEM_KIND"
  else if prepared.lease.role ≠ .fixer then some "BATCH_UNSUPPORTED_ROLE"
  else if (response.get "resolution").text ≠ "fix" then some "BATCH_UNSUPPORTED_RESOLUTION"
  else batchFixContractReason response

/-- `lease_submission_rejection_reason`. -/
def leaseSubmissionRejectionReason (response : Dict) (prepared : PreparedSubmission) (now : Int) :
    Option String :=
  let lease := prepared.lease
  if lease.status = .submitted then some "DUPLICATE_SUBMISSION"
  else if lease.status ≠ .active then some "STALE_LEASE"
  else if isExpired lease now then some "EXPIRED_LEASE"
  else if lease.agentId ≠ (response.get "agent_id").text then some "WRONG_AGENT"
  else if lease.itemId ≠ prepared.itemId then some "WRONG_ITEM"
  else if lease.requestHash ≠ prepared.expectedRequestHash then some "STALE_REQUEST_CONTEXT"
  else none

/-- The checks on one row. -/
def preflightRow (submission : BatchSubmission) (session : Session) (rows : List PreparedRow)
    (response : Dict) : Session × Except SubmissionStop PreparedRow :=
  let named := response.textOr "lease_id" ""
  if rows.any fun row => row.named = named then
    rejectResponse session response submission.now { reasonCode := "BATCH_DUPLICATE_LEASE" }
  else
    match prepareActionResponseSubmission session submission.files response submission.now with
    | (session, .error stop) => (session, .error stop)
    | (session, .ok (response, prepared)) =>
        match batchRowReason rows response prepared with
        | some reasonCode =>
            rejectResponse session response submission.now
              { reasonCode, itemId := prepared.itemId, leaseId := named }
        | none =>
            match leaseSubmissionRejectionReason response prepared submission.now with
            | some reasonCode =>
                let requestHash :=
                  if prepared.expectedRequestHash ≠ "" then prepared.expectedRequestHash
                  else response.textOr "request_id" ""
                rejectResponse session response submission.now {
                  reasonCode, itemId := prepared.itemId, leaseId := named
                  leaseRecovery := leaseRecoveryForResponse session response prepared.lease
                    prepared.itemId requestHash submission.now }
            | none => (session, .ok { named, response, prepared })

/-- A stage of the submission over the rows: the session, the rows that have passed, and what
stops it, if anything does. -/
structure BatchStage where
  session : Session
  rows : List PreparedRow
  stop : Option SubmissionStop

/-- The checks on the rows, in their order. -/
def preflightRows (submission : BatchSubmission) (session : Session) (rows : List PreparedRow) :
    List Dict → BatchStage
  | [] => { session, rows, stop := none }
  | response :: responses =>
      match preflightRow submission session rows response with
      | (session, .error stop) => { session, rows, stop := some stop }
      | (session, .ok row) => preflightRows submission session (rows ++ [row]) responses

/-- The binding and the cited commit of one row. -/
def bindRow (submission : BatchSubmission) (session : Session) (row : PreparedRow) :
    Session × Except SubmissionStop PreparedRow :=
  let single := submission.single row.response
  match verifyRequestRevisionBinding session single row.response row.prepared with
  | (session, .error stop) => (session, .error stop)
  | (session, .ok binding) =>
      let response := row.response.setIfSome "_runtime_revision_binding"
        (binding.map (·.toValue))
      match verifyCitedCommitInPr session single response row.prepared with
      | (session, .error stop) => (session, .error stop)
      | (session, .ok ()) => (session, .ok { row with response })

/-- The same for every row; the rows that have passed carry their binding. -/
def bindRows (submission : BatchSubmission) (session : Session) (bound : List PreparedRow) :
    List PreparedRow → BatchStage
  | [] => { session, rows := bound, stop := none }
  | row :: rows =>
      match bindRow submission session row with
      | (session, .error stop) => { session, rows := bound, stop := some stop }
      | (session, .ok row) => bindRows submission session (bound ++ [row]) rows

/-- Accepting the rows, in their order. -/
def acceptRows (session : Session) (now : Int) : List PreparedRow →
    Session × Except SubmissionStop (List Acceptance)
  | [] => (session, .ok [])
  | row :: rows =>
      match acceptActionResponseSubmission session row.response row.prepared now with
      | (session, .error stop) => (session, .error stop)
      | (session, .ok acceptance) =>
          match acceptRows session now rows with
          | (session, .error stop) => (session, .error stop)
          | (session, .ok acceptances) => (session, .ok (acceptance :: acceptances))

/-- The rows are given up when their requests can no longer be answered. -/
def rejectBatch (session : Session) (rows : List PreparedRow) (now : Int) :
    SubmissionStop → Session
  | .escaped => session
  | .rejected rejection =>
      if isIrrecoverableReason rejection.reasonCode then
        rows.foldl
          (fun session row => releaseIrrecoverableRequestLease session row.prepared now) session
      else session

/-- The rows of the batch file, or why it has none. -/
def readBatch (submission : BatchSubmission) : Except String (List Dict) :=
  (loadBatch submission.batch).bind batchActionResponses

/-- `submit_batch_action_response` on the loaded session. -/
def submitBatch (session : Session) (submission : BatchSubmission) :
    Session × Except SubmissionStop (List Acceptance) :=
  match readBatch submission with
  | .error reasonCode => (session, .error (.rejected { reasonCode }))
  | .ok responses =>
      let checked := preflightRows submission session [] responses
      match checked.stop with
      | some stop => (rejectBatch checked.session checked.rows submission.now stop, .error stop)
      | none =>
          let bound := bindRows submission checked.session [] checked.rows
          match bound.stop with
          | some stop =>
              (rejectBatch bound.session checked.rows submission.now stop, .error stop)
          | none =>
              match acceptRows bound.session submission.now bound.rows with
              | (session, .error stop) =>
                  (rejectBatch session checked.rows submission.now stop, .error stop)
              | (session, .ok acceptances) => (session, .ok acceptances)

inductive BatchOutcome where
  | accepted (acceptances : List Acceptance)
  | rejected (rejection : Rejection)
  /-- The store refuses the load or the save. -/
  | failed (error : StoreError)
  | escaped
  deriving DecidableEq

/-- `submit_batch_action_response`. -/
def submitBatchActionResponse (store : Store) (submission : BatchSubmission) :
    Store × BatchOutcome :=
  match loadSnapshot store with
  | .error error => (store, .failed error)
  | .ok session =>
      match submitBatch session submission with
      | (_, .error .escaped) => (store, .escaped)
      | (session, .error (.rejected rejection)) =>
          match persistLoadedScope store session none with
          | .ok committed => (committed, .rejected rejection)
          | .error error => (store, .failed error)
      | (session, .ok acceptances) =>
          match persistLoadedScope store session none with
          | .ok committed => (committed, .accepted acceptances)
          | .error error => (store, .failed error)

end GhAddressCr
