import GhAddressCr.RequestDocuments
import GhAddressCr.Severity

/-!
# Validating a response

The checks on an action response before any lease is looked at: its required fields, the
evidence of a fix, the severity it claims, the commit it cites.
-/
namespace GhAddressCr

open PyText

def normalizeStringList : Value → List String
  | .str s => ((split ',' s.toList).map fun part => strip (String.ofList part)).filter (· ≠ "")
  | .list values => (values.map fun part => strip part.text).filter (· ≠ "")
  | _ => []

/-- The command of an entry of a list of validation commands. -/
def validationCommandText : Value → String
  | .dict fields => strip (((Dict.ofFields fields).get "command").orElse (.str "")).text
  | entry => strip (entry.orElse (.str "")).text

def normalizeValidationCommands : Value → List String
  | .str s => if strip s = "" then [] else [strip s]
  | .list entries => (entries.map validationCommandText).filter (· ≠ "")
  | _ => []

/-- The decimal number `whole.fraction`. -/
def decimalNumber (whole fraction : List Char) : Option Value := do
  let mantissa ← readDigits 0 false (whole ++ fraction)
  if whole.isEmpty || (whole ++ fraction).contains '_' then none
  else return .float mantissa (-(fraction.length : Int))

/-- A number of digits, with a fraction or without one. -/
def decimal? (text : List Char) : Option Value :=
  match partition '.' text with
  | some (whole, fraction) => if fraction.isEmpty then none else decimalNumber whole fraction
  | none => decimalNumber text []

/-- The number before a unit at the end of a text. -/
def beforeUnit (unit text : List Char) : Option Value :=
  (dropPrefix? unit.reverse text.reverse).bind fun rest => decimal? rest.reverse

/-- The seconds that `5ms` or `1.5s` says. -/
def durationSeconds? (text : List Char) : Option Value :=
  match beforeUnit "ms".toList text with
  | some (.float mantissa exponent) => some (.float mantissa (exponent - 3))
  | _ => beforeUnit "s".toList text

/-- `_strip_validation_duration_suffix`. -/
def stripValidationDurationSuffix (value : String) : String × Value :=
  match rpartition '@' (strip value).toList with
  | some (token, suffix) =>
      match durationSeconds? suffix with
      | some seconds => (String.ofList token, seconds)
      | none => (value, .null)
  | none => (value, .null)

/-- `_looks_like_validation_result`. -/
def looksLikeValidationResult (value : String) : Bool :=
  ["pass", "passed", "success", "succeeded", "ok", "fail", "failed", "error", "skipped"].contains
    (lower (strip value))

/-- `split_validation_command_record`: the command, the result and the duration. -/
def splitValidationCommandRecord (raw : String) : String × String × Value :=
  match rpartition '=' raw.toList with
  | some (command, result) =>
      let (token, duration) := stripValidationDurationSuffix (String.ofList result)
      if looksLikeValidationResult token then
        (strip (String.ofList command), strip token, duration)
      else (strip raw, "passed", .null)
  | none => (strip raw, "passed", .null)

/-- A value unless it is null. -/
def given : Value → Option Value
  | .null => none
  | value => some value

def validationCommandRow (command result summary : String) (duration startTime endTime : Value) :
    Option Dict :=
  if command = "" ∨ result = "" then none
  else
    let row := Dict.ofFields [("command", .str command), ("result", .str result)]
    let row := if summary = "" then row else row.set "summary" (.str summary)
    let row := row.setIfSome "duration" (given duration)
    let row := row.setIfSome "start_time" (given startTime)
    some (row.setIfSome "end_time" (given endTime))

/-- One row of `normalize_validation_command_records`. -/
def normalizeValidationCommandRecord : Value → Option Dict
  | .dict fields =>
      let entry := Dict.ofFields fields
      validationCommandRow (strip (entry.textOr "command" "")) (strip (entry.textOr "result" ""))
        (strip (entry.textOr "summary" "")) (entry.get "duration") (entry.get "start_time")
        (entry.get "end_time")
  | entry =>
      let record := splitValidationCommandRecord (strip (entry.orElse (.str "")).text)
      validationCommandRow record.1 record.2.1 "" record.2.2 .null .null

def normalizeValidationCommandRecords : Value → List Dict
  | .list entries => entries.filterMap normalizeValidationCommandRecord
  | _ => []

/-- `severity_override_note` of a fix reply. -/
def severityOverrideNote (fixReply : Dict) : String :=
  strip ((fixReply.get "severity_note").orElse
    ((fixReply.get "severity_override_note").orElse (.str ""))).text

/-- `fix_reply_explicit_severity`: the severity a fix reply claims, if it claims one, or why
the claim is refused. -/
def fixReplyExplicitSeverity (fixReply : Dict) : Except String (Option String) :=
  let severity := fixReply.get "severity"
  if severity = .null ∨ severity = .str "" then .ok none
  else
    match normalizeSeverity severity with
    | some severity => .ok (some severity)
    | none => .error "INVALID_FIX_REPLY_SEVERITY"

def fixReplySeverityRejectionReason (fixReply item : Dict) : Option String :=
  match fixReplyExplicitSeverity fixReply with
  | .error error => some error
  | .ok none => none
  | .ok (some explicitSeverity) =>
      match firstSceneItemSeverity item with
      | some firstSceneSeverity =>
          if firstSceneSeverity ≠ explicitSeverity ∧ severityOverrideNote fixReply = "" then
            some "SEVERITY_OVERRIDE_NOTE_REQUIRED"
          else none
      | none => none

/-- The error of `fix_reply_severity_for_publish`. -/
def fixReplySeverityForPublishError (fixReply item : Dict) : Option String :=
  match fixReplyExplicitSeverity fixReply with
  | .error error => some error
  | .ok none => none
  | .ok (some _) => fixReplySeverityRejectionReason fixReply item

def validateFixReplyForSubmit (item response : Dict) : Option String :=
  match (response.get "fix_reply").toDict? with
  | none => some "MISSING_PUBLISH_REPLY"
  | some fixReply =>
      let files := normalizeStringList ((fixReply.get "files").orElse (response.get "files"))
      let validationCommands := normalizeValidationCommands (response.get "validation_commands")
      let testCommand := strip ((fixReply.get "test_command").orElse
        (.str (String.intercalate " && " validationCommands))).text
      let testResult := strip ((fixReply.get "test_result").orElse
        (.str (if validationCommands.isEmpty then "" else "passed"))).text
      if files.isEmpty then some "MISSING_FIX_REPLY_FILES"
      else if testCommand = "" then some "MISSING_FIX_REPLY_TEST_COMMAND"
      else if testResult = "" then some "MISSING_FIX_REPLY_TEST_RESULT"
      else fixReplySeverityForPublishError fixReply item

/-- `_validate_fix_response`. -/
def validateFixResponse (response item : Dict) : Option String :=
  if !hasClassificationEvidence item then some "MISSING_CLASSIFICATION"
  else if !(response.get "files").truthy then some "MISSING_FILES"
  else if !(response.get "validation_commands").truthy then some "MISSING_VALIDATION_COMMANDS"
  else if item.get "item_kind" = .str "github_thread" then
    if !(response.get "fix_reply").truthy then some "MISSING_FIX_REPLY"
    else
      match (response.get "fix_reply").toDict? with
      | none => some "INVALID_FIX_REPLY"
      | some fixReply =>
          match fixReplySeverityRejectionReason fixReply item with
          | some reason => some reason
          | none => validateFixReplyForSubmit item response
  else none

/-- `_claims_direct_github_side_effect`. -/
def claimsDirectGithubSideEffect (response : Dict) : Bool :=
  ["github_side_effects", "reply_posted", "reply_url", "thread_resolved",
    "resolved_thread_id"].any response.has

def requiredResponseFields : List String :=
  ["request_id", "lease_id", "agent_id", "resolution", "note"]

def validateResponse (response item : Dict) : Option String :=
  match requiredResponseFields.find? fun field => !(response.get field).truthy with
  | some field => some ("MISSING_" ++ upper field)
  | none =>
      if claimsDirectGithubSideEffect response then some "DIRECT_GITHUB_SIDE_EFFECT_FORBIDDEN"
      else
        let resolution := (response.get "resolution").text
        if !terminalResolutions.contains resolution then some "UNSUPPORTED_RESOLUTION"
        else if resolution = "fix" then validateFixResponse response item
        else if response.has "validation_commands" &&
            (normalizeValidationCommandRecords (response.get "validation_commands")).isEmpty then
          some "INVALID_VALIDATION_COMMANDS"
        else if !(response.get "reply_markdown").truthy then some "MISSING_REPLY_MARKDOWN"
        else none

/-- A list of texts as a value. -/
def textList (values : List String) : Value := .list (values.map .str)

/-- The files a response and the profile it refers to give together. -/
def expandedFiles (profile response : Dict) : List String :=
  let files := normalizeStringList (response.get "files")
  if files.isEmpty then normalizeStringList (profile.get "files") else files

/-- The response with the profile's files, where it names none. -/
def expandFiles (profile response : Dict) : Dict :=
  if (normalizeStringList (response.get "files")).isEmpty &&
      !(normalizeStringList (profile.get "files")).isEmpty then
    response.set "files" (textList (normalizeStringList (profile.get "files")))
  else response

/-- The response with the profile's validation, where it has none. -/
def expandValidation (profile response : Dict) : Dict :=
  let records := normalizeValidationCommandRecords (profile.get "validation_commands")
  if !(response.get "validation_commands").truthy && !records.isEmpty then
    response.set "validation_commands" (.list (records.map (·.toValue)))
  else response

/-- The fix reply of the profile, overridden by the response's. -/
def mergedFixReply (profile response : Dict) (files : List String) : Dict :=
  let merged := (((profile.get "fix_reply").toDict?).getD ∅).update
    (((response.get "fix_reply").toDict?).getD ∅)
  let merged :=
    if (profile.get "commit_hash").truthy && !(merged.get "commit_hash").truthy then
      merged.set "commit_hash" (profile.get "commit_hash")
    else merged
  if !files.isEmpty && !(merged.get "files").truthy then merged.set "files" (textList files)
  else merged

/-- `_expand_evidence_ref`: the response with the evidence of the profile it refers to, or why
it is refused. -/
def expandEvidenceRef (session : Session) (response : Dict) : Except String Dict :=
  let evidenceRef := strip (response.textOr "evidence_ref" "")
  if evidenceRef = "" then .ok response
  else
    match ((session.root.get "evidence_profiles").field evidenceRef).toDict? with
    | none => .error "EVIDENCE_PROFILE_NOT_FOUND"
    | some profile =>
        let files := expandedFiles profile response
        let response := expandValidation profile (expandFiles profile response)
        let fixReply := response.get "fix_reply"
        if fixReply ≠ .null ∧ fixReply.toDict?.isNone then .error "INVALID_FIX_REPLY"
        else
          let merged := mergedFixReply profile response files
          if response.textOr "resolution" "" = "fix" ∧ !merged.isEmpty then
            .ok (response.set "fix_reply" merged.toValue)
          else .ok response

/-- `MIN_COMMIT_PREFIX`. -/
def minCommitPrefix : Nat := 4

def citedCommit (response : Dict) : String :=
  match (response.get "fix_reply").toDict? with
  | some fixReply => strip (fixReply.textOr "commit_hash" "")
  | none => ""

def commitInPr (commit : String) (prCommitShas : List String) : Bool :=
  let start := lower (strip commit)
  decide (minCommitPrefix ≤ start.length) &&
    prCommitShas.any fun sha => startsWith (lower sha) start

/-- Expanding a reference changes only the evidence of a response. -/
theorem expandEvidenceRef_get {session : Session} {response expanded : Dict}
    (h : expandEvidenceRef session response = .ok expanded) {field : String}
    (hfield : field ∉ ["files", "validation_commands", "fix_reply"]) :
    expanded.get field = response.get field := by
  simp only [List.mem_cons, List.not_mem_nil, or_false, not_or] at hfield
  obtain ⟨hfiles, hcommands, hreply⟩ := hfield
  have hexpand : ∀ profile : Dict,
      (expandValidation profile (expandFiles profile response)).get field =
        response.get field := by
    intro profile
    have hfilled : (expandFiles profile response).get field = response.get field := by
      unfold expandFiles
      split <;> simp [Ne.symm hfiles]
    rw [← hfilled]
    unfold expandValidation
    simp only
    split <;> simp [Ne.symm hcommands]
  unfold expandEvidenceRef at h
  simp only at h
  split at h
  · obtain rfl := Except.ok.inj h
    rfl
  · split at h
    · cases h
    · split at h
      · cases h
      · split at h
        · obtain rfl := Except.ok.inj h
          simp [Ne.symm hreply, hexpand]
        · obtain rfl := Except.ok.inj h
          simp [hexpand]

end GhAddressCr
